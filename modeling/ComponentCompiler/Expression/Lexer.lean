import ComponentCompiler.Expression.Syntax

namespace ComponentCompiler.Expression

open Number (Binary64)
open Text (isBlank isAsciiDigit)

/-- The rest of a quoted text: its characters and what follows.  After a backslash any character
stands for itself. -/
def quotedRest (quote : Char) : List Char → Option (List Char × List Char)
  | [] => none
  | c :: cs =>
    if c = quote then some ([], cs)
    else if c = '\\' then
      match cs with
      | [] => none
      | e :: rest => (quotedRest quote rest).map fun (text, rest) => (e :: text, rest)
    else (quotedRest quote cs).map fun (text, rest) => (c :: text, rest)

def isNumberPart (c : Char) : Bool :=
  isAsciiDigit c || c = '.'

def decimalValue (digits : List Char) : Nat :=
  digits.foldl (fun n c => n * 10 + (c.toNat - '0'.toNat)) 0

def number? (text : List Char) : Option Binary64 :=
  let whole := text.takeWhile isAsciiDigit
  match text.dropWhile isAsciiDigit with
  | [] => some (Binary64.ofDecimal (decimalValue whole) 0)
  | _ :: fraction =>
    if fraction.all isAsciiDigit then
      some (Binary64.ofDecimal (decimalValue (whole ++ fraction)) (-(fraction.length : Int)))
    else none

/-- An operator of two or three characters after its first: the third is an optional `=`. -/
def afterEquals (cs : List Char) : List Char :=
  match cs with
  | '=' :: rest => rest
  | rest => rest

def scanToken (c : Char) (cs : List Char) : Except ParseError (Token × List Char) :=
  if c = '.' then .ok (.dot, cs)
  else if c = '(' then .ok (.openParen, cs)
  else if c = ')' then .ok (.closeParen, cs)
  else if c = '!' then
    match cs with
    | '=' :: rest => .ok (.notEq, afterEquals rest)
    | rest => .ok (.bang, rest)
  else if c = '=' then
    match cs with
    | '=' :: rest => .ok (.eqEq, afterEquals rest)
    | _ => .error .assignment
  else if c = '&' && cs.head? = some '&' then .ok (.andAnd, cs.tail)
  else if c = '|' && cs.head? = some '|' then .ok (.orOr, cs.tail)
  else if c = '"' || c = '\'' then
    match quotedRest c cs with
    | some (text, rest) => .ok (.string (String.ofList text), rest)
    | none => .error .unterminatedString
  else if isAsciiDigit c then
    let text := c :: cs.takeWhile isNumberPart
    match number? text with
    | some x => .ok (.number x, cs.dropWhile isNumberPart)
    | none => .error (.badNumber (String.ofList text))
  else if isNameStart c then
    .ok (.name (String.ofList (c :: cs.takeWhile isNamePart)), cs.dropWhile isNamePart)
  else .error (.badCharacter c)

def tokensWithin : Nat → List Char → Except ParseError (List Token)
  | _, [] => .ok []
  | 0, _ => .ok []
  | bound + 1, c :: cs =>
    if isBlank c then tokensWithin bound cs
    else do
      let (token, rest) ← scanToken c cs
      let tokens ← tokensWithin bound rest
      return token :: tokens

def tokens (cs : List Char) : Except ParseError (List Token) :=
  tokensWithin cs.length cs

end ComponentCompiler.Expression
