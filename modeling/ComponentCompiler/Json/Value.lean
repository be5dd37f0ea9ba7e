import ComponentCompiler.Number.Shortest

namespace ComponentCompiler.Json

inductive Value
  | null
  | bool (b : Bool)
  | integer (n : Int)
  | float (x : Number.Binary64)
  | string (s : String)
  | array (items : List Value)
  | object (members : List (String × Value))

/-- Puts a member in place: a key that is there keeps its position and takes the new value. -/
def putMember {α : Type} (key : String) (value : α) : List (String × α) → List (String × α)
  | [] => [(key, value)]
  | (k, v) :: rest => if k = key then (k, value) :: rest else (k, v) :: putMember key value rest

/-- Doubles are positional from `1e-5` up and below `1e16`; an exponent shows its sign. -/
def numberStyle : Number.DecimalStyle where
  least := -5
  bound := 16
  plusSign := true

def hexDigit (n : Nat) : Char :=
  Nat.digitChar n

def escapeChar (c : Char) : List Char :=
  if c = '"' then ['\\', '"']
  else if c = '\\' then ['\\', '\\']
  else if c = '\n' then ['\\', 'n']
  else if c = '\t' then ['\\', 't']
  else if c = '\r' then ['\\', 'r']
  else if c.toNat = 8 then ['\\', 'b']
  else if c.toNat = 12 then ['\\', 'f']
  else if c.toNat < 32 then
    ['\\', 'u', '0', '0', hexDigit (c.toNat / 16), hexDigit (c.toNat % 16)]
  else [c]

def quote (s : String) : List Char :=
  '"' :: (s.toList.flatMap escapeChar ++ ['"'])

def joinWith (separator : List Char) : List (List Char) → List Char
  | [] => []
  | [x] => x
  | x :: rest => x ++ separator ++ joinWith separator rest

mutual

def Value.text : Value → List Char
  | .null => "null".toList
  | .bool b => if b then "true".toList else "false".toList
  | .integer n => Number.integerText n
  | .float x => if x.isInfinite then "null".toList else numberStyle.text x
  | .string s => quote s
  | .array items => '[' :: (joinWith [','] (Value.texts items) ++ [']'])
  | .object members => '\x7b' :: (joinWith [','] (Value.memberTexts members) ++ ['\x7d'])

def Value.texts : List Value → List (List Char)
  | [] => []
  | v :: rest => v.text :: Value.texts rest

def Value.memberTexts : List (String × Value) → List (List Char)
  | [] => []
  | (key, v) :: rest => (quote key ++ ':' :: v.text) :: Value.memberTexts rest

end

def Value.render (v : Value) : String :=
  String.ofList v.text

end ComponentCompiler.Json
