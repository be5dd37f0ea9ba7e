import ComponentCompiler.Script.Defaults

/-!
# The entry point

A script's entry point is a function with a fixed name, written as a declaration, a method, a
function or an arrow function assigned to the name.  A block of lines is put right after the brace
that opens its body.
-/

namespace ComponentCompiler.Script

open Text (trimStart isBlank)

def entryName : List Char := ['R', 'U', 'N', 'T', 'I', 'M', 'E']

def entryPointName (runtimeId : String) : String :=
  runtimeId ++ String.ofList entryName

/-- What follows parentheses at the start of a text; the first closing one ends them. -/
def afterParens? : List Char → Option (List Char)
  | '(' :: cs =>
    match cs.dropWhile (· ≠ ')') with
    | _ :: rest => some rest
    | [] => none
  | _ => none

def afterBrace? (cs : List Char) : Option (List Char) :=
  match trimStart cs with
  | '\x7b' :: rest => some rest
  | _ => none

def afterParameters? (cs : List Char) : Option (List Char) :=
  (afterParens? (trimStart cs)).bind afterBrace?

def afterSpacedWord? (word cs : List Char) : Option (List Char) :=
  match Text.after? word cs with
  | some (c :: rest) => if isBlank c then some (trimStart rest) else none
  | _ => none

/-- The text with a leading `async` taken off, then the text as it is. -/
def asyncReadings (cs : List Char) : List (List Char) :=
  match afterSpacedWord? "async".toList cs with
  | some rest => [rest, cs]
  | none => [cs]

def functionExpression? (cs : List Char) : Option (List Char) :=
  match Text.after? "function".toList cs with
  | some rest =>
    if Text.isWordEdge (some 'n') rest.head? then
      (afterParens? (rest.dropWhile (· ≠ '('))).bind afterBrace?
    else none
  | none => none

def arrowParameters? (cs : List Char) : Option (List Char) :=
  match cs with
  | [] => none
  | c :: rest =>
    if c = '(' then afterParens? cs
    else if isKeyStart c then some (rest.dropWhile isKeyPart)
    else none

def arrowFunction? (cs : List Char) : Option (List Char) :=
  match (arrowParameters? cs).map trimStart with
  | some ('=' :: '>' :: rest) => afterBrace? rest
  | _ => none

def assigned? (cs : List Char) : Option (List Char) :=
  match trimStart cs with
  | '=' :: rest => some (trimStart rest)
  | _ => none

def afterName? (cs : List Char) : Option (List Char) :=
  let readings := ((assigned? cs).map asyncReadings).getD []
  (afterParameters? cs).or
    ((readings.findSome? functionExpression?).or (readings.findSome? arrowFunction?))

def openingAt? (symbol : List Char) (before : Option Char) (ahead : List Char) :
    Option (List Char) :=
  if Text.isWordEdge before ahead.head? then (Text.after? symbol ahead).bind afterName? else none

/-- The first entry point of a script: the text up to and with its opening brace, and the rest. -/
def findOpening? (symbol : List Char) : Option Char → List Char → Option (List Char × List Char)
  | _, [] => none
  | before, c :: cs =>
    match openingAt? symbol before (c :: cs) with
    | some rest => some ((c :: cs).take (cs.length + 1 - rest.length), rest)
    | none => (findOpening? symbol (some c) cs).map fun (head, rest) => (c :: head, rest)

def inject (symbol block cs : List Char) : List Char :=
  if block.isEmpty then cs
  else match findOpening? symbol none cs with
    | some (head, rest) => head ++ '\n' :: (block ++ rest)
    | none => cs

end ComponentCompiler.Script
