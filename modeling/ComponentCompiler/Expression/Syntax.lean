import ComponentCompiler.Number.Shortest
import ComponentCompiler.Text.Quoted

namespace ComponentCompiler.Expression

open Number (Binary64)

inductive Value
  | bool (b : Bool)
  | string (s : String)
  | number (x : Binary64)
  | null
deriving DecidableEq

def trueText : String := "\x7btrue\x7d"

/-- Only the boolean and the text for truth hold. -/
def Value.isTruthy : Value → Bool
  | .bool b => b
  | .string s => s = trueText
  | _ => false

def Value.strictEq : Value → Value → Bool
  | .bool a, .bool b => a = b
  | .string a, .string b => a = b
  | .number a, .number b => a.sameValue b
  | .null, .null => true
  | _, _ => false

inductive Operator
  | eq
  | ne
  | and
  | or
deriving DecidableEq

inductive Expr
  | literal (v : Value)
  | path (segments : List String)
  | not (e : Expr)
  | binary (op : Operator) (left right : Expr)
deriving DecidableEq

inductive Token
  | name (s : String)
  | string (s : String)
  | number (x : Binary64)
  | dot
  | bang
  | openParen
  | closeParen
  | eqEq
  | notEq
  | andAnd
  | orOr
deriving DecidableEq

def isNameStart (c : Char) : Bool :=
  Text.isAsciiLetter c || c = '_' || c = '$'

/-- A dash may stand inside a name, as in the names of attributes. -/
def isNamePart (c : Char) : Bool :=
  Text.isAsciiAlphanumeric c || c = '_' || c = '$' || c = '-'

def isName : List Char → Bool
  | [] => false
  | c :: cs => isNameStart c && cs.all isNamePart

def keyword? (s : String) : Option Value :=
  if s = "true" then some (.bool true)
  else if s = "false" then some (.bool false)
  else if s = "null" || s = "undefined" then some .null
  else none

inductive ParseError
  | empty
  | assignment
  | unterminatedString
  | badNumber (text : String)
  | badCharacter (c : Char)
  | unclosed
  | missingProperty
  | unexpected (t : Token)
  | unexpectedEnd
  | trailing (t : Token)
deriving DecidableEq

/-- Messages write doubles positionally from `1e-4` up and below `1e16`. -/
def shownNumber : Number.DecimalStyle where
  least := -4
  bound := 16
  plusSign := false

def Token.shown : Token → String
  | .name s => "Ident(" ++ Text.shown s ++ ")"
  | .string s => "Str(" ++ Text.shown s ++ ")"
  | .number x => "Num(" ++ String.ofList (shownNumber.text x) ++ ")"
  | .dot => "Dot"
  | .bang => "Bang"
  | .openParen => "LParen"
  | .closeParen => "RParen"
  | .eqEq => "EqEq"
  | .notEq => "NotEq"
  | .andAnd => "AndAnd"
  | .orOr => "OrOr"

def ParseError.message : ParseError → String
  | .empty => "Empty expression"
  | .assignment => "Assignment is not allowed in directives"
  | .unterminatedString => "Unterminated string literal"
  | .badNumber text => "Invalid number literal '" ++ text ++ "'"
  | .badCharacter c => "Unexpected character '" ++ c.toString ++ "'"
  | .unclosed => "Expected ')'"
  | .missingProperty => "Expected property name after '.'"
  | .unexpected t => "Unexpected token " ++ t.shown
  | .unexpectedEnd => "Unexpected end of expression"
  | .trailing t => "Unexpected trailing input " ++ t.shown

end ComponentCompiler.Expression
