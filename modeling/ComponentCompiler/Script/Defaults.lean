import ComponentCompiler.Expression.Syntax
import ComponentCompiler.Json.Reader
import ComponentCompiler.Text.Trim
import ComponentCompiler.Text.Word

namespace ComponentCompiler.Script

def contextName : List Char := ['c', 't', 'x']

abbrev Defaults := List (String × Json.Value)

/-- An object literal up to the first closing brace on its line, and what follows it. -/
def literal? : List Char → Option (List Char × List Char)
  | [] => none
  | c :: cs =>
    if c = '\x7d' then some ([c], cs)
    else if c = '\n' then none
    else (literal? cs).map fun (text, rest) => (c :: text, rest)

def defaultAt? (before : Option Char) (ahead : List Char) : Option (List Char × List Char) :=
  if Text.isWordEdge before ahead.head? then
    match Text.after? contextName ahead with
    | some rest =>
      match Text.trimStart rest with
      | '=' :: rest =>
        match Text.trimStart rest with
        | '\x7b' :: rest => (literal? rest).map fun (text, rest) => ('\x7b' :: text, rest)
        | _ => none
      | _ => none
    | none => none
  else none

def findDefault? : Option Char → List Char → Option (List Char × List Char × List Char)
  | _, [] => none
  | before, c :: cs =>
    match defaultAt? before (c :: cs) with
    | some (text, rest) => some ([], text, rest)
    | none => (findDefault? (some c) cs).map fun (head, text, rest) => (c :: head, text, rest)

def isKeyStart (c : Char) : Bool :=
  Text.isAsciiLetter c || c = '_' || c = '$'

def isKeyPart (c : Char) : Bool :=
  Text.isWord c || c = '$'

/-- A bare key after a brace or a comma: the text up to it, the key, and the length of all with the
colon. -/
def bareKey? : List Char → Option (List Char × List Char × Nat)
  | [] => none
  | c :: cs =>
    if c = '\x7b' || c = ',' then
      match Text.trimStart cs with
      | k :: rest =>
        if isKeyStart k then
          let key := k :: rest.takeWhile isKeyPart
          match Text.trimStart (rest.dropWhile isKeyPart) with
          | ':' :: after =>
            some (c :: cs.takeWhile Text.isBlank, key, cs.length + 1 - after.length)
          | _ => none
        else none
      | [] => none
    else none

def quoteKeys (cs : List Char) : List Char :=
  Text.substitute (fun _ ahead =>
    (bareKey? ahead).map fun (lead, key, length) => (length, lead ++ '"' :: (key ++ ['"', ':']))) cs

/-- The members of a literal; none when it is no JSON once its keys are quoted. -/
def readDefaults (literal : List Char) : Defaults :=
  (Json.readObject? (quoteKeys literal)).getD []

def extractDefaults (cs : List Char) : List Char × Defaults :=
  match findDefault? none cs with
  | some (head, text, rest) => (head ++ contextName ++ rest, readDefaults text)
  | none => (cs, [])

def Defaults.get? (d : Defaults) (key : String) : Option Json.Value :=
  (d.find? fun entry => entry.1 = key).map (·.2)

def isPlainKey (key : List Char) : Bool :=
  Expression.isName key && !key.contains '-'

def memberText (key : String) : List Char :=
  if isPlainKey key.toList then contextName ++ '.' :: key.toList
  else contextName ++ '[' :: (Json.quote key ++ [']'])

def assignment (entry : String × Json.Value) : List Char :=
  let target := memberText entry.1
  target ++ " = ".toList ++ target ++ " || ".toList ++ entry.2.text ++ [';']

def assignments (d : Defaults) : List Char :=
  Json.joinWith ['\n'] (d.map assignment)

end ComponentCompiler.Script
