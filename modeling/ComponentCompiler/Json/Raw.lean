import ComponentCompiler.Text.Word

/-!
# The form of a JSON text

A JSON text is read in two steps.  The first, here, checks its form: brackets, literals, the shape
of numbers and escapes.  The second turns the parts that somebody asks for into values and may
refuse them (a number out of range, half of a surrogate pair, too deep a nesting).
-/

namespace ComponentCompiler.Json

structure Numeral where
  negative : Bool
  whole : List Nat
  fraction : List Nat
  exponent : Option (Bool × List Nat)

/-- A JSON text by its form.  A string is a list of code points in which an escape may have put a
surrogate. -/
inductive Raw
  | null
  | bool (b : Bool)
  | number (n : Numeral)
  | string (units : List Nat)
  | array (items : List Raw)
  | object (members : List (List Nat × Raw))

namespace Raw

def isGap (c : Char) : Bool :=
  c = ' ' || c = '\n' || c = '\t' || c = '\r'

def skipGap (cs : List Char) : List Char :=
  cs.dropWhile isGap

def digitValue (c : Char) : Nat :=
  c.toNat - '0'.toNat

def takeDigits (cs : List Char) : List Nat × List Char :=
  ((cs.takeWhile Text.isAsciiDigit).map digitValue, cs.dropWhile Text.isAsciiDigit)

def someDigits? (cs : List Char) : Option (List Nat × List Char) :=
  match takeDigits cs with
  | ([], _) => none
  | found => some found

def whole? (cs : List Char) : Option (List Nat × List Char) :=
  match someDigits? cs with
  | some (0 :: _ :: _, _) => none
  | found => found

def fraction? : List Char → Option (List Nat × List Char)
  | '.' :: cs => someDigits? cs
  | cs => some ([], cs)

def exponent? : List Char → Option (Option (Bool × List Nat) × List Char)
  | c :: cs =>
    if c = 'e' || c = 'E' then
      let (negative, digits) := match cs with
        | '-' :: more => (true, more)
        | '+' :: more => (false, more)
        | more => (false, more)
      (someDigits? digits).map fun (ds, rest) => (some (negative, ds), rest)
    else some (none, c :: cs)
  | [] => some (none, [])

def number? (cs : List Char) : Option (Numeral × List Char) := do
  let (negative, body) := match cs with
    | '-' :: more => (true, more)
    | more => (false, more)
  let (whole, rest) ← whole? body
  let (fraction, rest) ← fraction? rest
  let (exponent, rest) ← exponent? rest
  some (⟨negative, whole, fraction, exponent⟩, rest)

def hexValue? (c : Char) : Option Nat :=
  if Text.isAsciiDigit c then some (c.toNat - 48)
  else if 'a' ≤ c && c ≤ 'f' then some (c.toNat - 87)
  else if 'A' ≤ c && c ≤ 'F' then some (c.toNat - 55)
  else none

def simpleEscape? (c : Char) : Option Nat :=
  if c = '"' || c = '\\' || c = '/' then some c.toNat
  else if c = 'b' then some 8
  else if c = 'f' then some 12
  else if c = 'n' then some 10
  else if c = 'r' then some 13
  else if c = 't' then some 9
  else none

def units? : List Char → Option (List Nat × List Char)
  | [] => none
  | '"' :: cs => some ([], cs)
  | '\\' :: 'u' :: a :: b :: c :: d :: cs => do
    let high := (← hexValue? a) * 16 + (← hexValue? b)
    let unit := high * 256 + (← hexValue? c) * 16 + (← hexValue? d)
    let (units, rest) ← units? cs
    some (unit :: units, rest)
  | '\\' :: c :: cs => do
    let unit ← simpleEscape? c
    let (units, rest) ← units? cs
    some (unit :: units, rest)
  | c :: cs =>
    if c.toNat < 32 || c = '\\' then none
    else do
      let (units, rest) ← units? cs
      some (c.toNat :: units, rest)

/-- Comma-separated items up to the closing bracket; at most `bound` of them. -/
def items? {α : Type} (item : List Char → Option (α × List Char)) (close : Char) :
    Nat → List Char → Option (List α × List Char)
  | 0, _ => none
  | bound + 1, cs => do
    let (x, rest) ← item (skipGap cs)
    match skipGap rest with
    | [] => none
    | c :: more =>
      if c = ',' then
        let (xs, rest) ← items? item close bound more
        some (x :: xs, rest)
      else if c = close then some ([x], more)
      else none

def bracketed? {α : Type} (item : List Char → Option (α × List Char)) (close : Char)
    (cs : List Char) : Option (List α × List Char) :=
  match skipGap cs with
  | [] => none
  | c :: more => if c = close then some ([], more) else items? item close cs.length (c :: more)

def member? {α : Type} (value : List Char → Option (α × List Char)) :
    List Char → Option ((List Nat × α) × List Char)
  | '"' :: cs => do
    let (key, rest) ← units? cs
    match skipGap rest with
    | ':' :: more =>
      let (v, rest) ← value (skipGap more)
      some ((key, v), rest)
    | _ => none
  | _ => none

/-- A value at the start of a text, nested at most `bound` deep, with what follows it. -/
def value? : Nat → List Char → Option (Raw × List Char)
  | 0, _ => none
  | _, [] => none
  | bound + 1, c :: cs =>
    if c = '"' then (units? cs).map fun (units, rest) => (.string units, rest)
    else if c = '[' then
      (bracketed? (value? bound) ']' cs).map fun (items, rest) => (.array items, rest)
    else if c = '\x7b' then
      (bracketed? (member? (value? bound)) '\x7d' cs).map fun (members, rest) =>
        (.object members, rest)
    else if c = 't' then (Text.after? ['r', 'u', 'e'] cs).map fun rest => (.bool true, rest)
    else if c = 'f' then (Text.after? ['a', 'l', 's', 'e'] cs).map fun rest => (.bool false, rest)
    else if c = 'n' then (Text.after? ['u', 'l', 'l'] cs).map fun rest => (.null, rest)
    else (number? (c :: cs)).map fun (n, rest) => (.number n, rest)

def read? (cs : List Char) : Option Raw :=
  match value? (cs.length + 1) (skipGap cs) with
  | some (raw, rest) => if (skipGap rest).isEmpty then some raw else none
  | none => none

end Raw

end ComponentCompiler.Json
