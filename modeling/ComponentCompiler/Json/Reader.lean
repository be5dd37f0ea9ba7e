import ComponentCompiler.Json.Raw
import ComponentCompiler.Json.Value

namespace ComponentCompiler.Json

open Number (Binary64)

def accumulate (acc : Nat) : List Nat → Nat × List Nat
  | [] => (acc, [])
  | d :: ds => if acc * 10 + d < Nat.pow 2 64 then accumulate (acc * 10 + d) ds else (acc, d :: ds)

def powerOfTen (n : Nat) : Binary64 :=
  Binary64.ofNat (Nat.pow 10 n)

/-- `significand * 10 ^ exponent` in one rounded multiplication or division; two divisions reach the
smallest doubles.  None when the result is too large. -/
def scaled? (significand : Nat) (exponent : Int) : Option Binary64 :=
  let x := Binary64.ofNat significand
  if 0 ≤ exponent then
    if exponent ≤ 308 then
      let y := x.mul (powerOfTen exponent.toNat)
      if y.isInfinite then none else some y
    else if significand = 0 then some x
    else none
  else
    let k := (-exponent).toNat
    if k ≤ 308 then some (x.div (powerOfTen k))
    else if k ≤ 616 then some ((x.div (powerOfTen 308)).div (powerOfTen (k - 308)))
    else some .zero

def clampExponent (e : Int) : Int :=
  max (-2147483648) (min 2147483647 e)

def Numeral.float? (n : Numeral) : Option Binary64 :=
  let (significand, surplus) := accumulate 0 n.whole
  let (significand, ignored) := accumulate significand n.fraction
  let exponent : Int := (surplus.length : Int) - (n.fraction.length - ignored.length : Nat)
  let magnitude := match n.exponent with
    | none => scaled? significand exponent
    | some (negative, digits) =>
      let e : Nat := digits.foldl (fun acc d => if acc < Nat.pow 2 31 then acc * 10 + d else acc) 0
      if e ≥ Nat.pow 2 31 then
        if significand ≠ 0 && !negative then none else some .zero
      else
        let total := if negative then exponent - (e : Int) else exponent + (e : Int)
        scaled? significand (clampExponent total)
  magnitude.map fun x => if n.negative then x.negate else x

/-- An integer of at most 64 bits, or a double; minus zero is a double. -/
def Numeral.value? (n : Numeral) : Option Value :=
  if n.fraction.isEmpty && n.exponent.isNone then
    match accumulate 0 n.whole with
    | (m, []) =>
      if !n.negative then some (.integer m)
      else if 0 < m && m ≤ Nat.pow 2 63 then some (.integer (-(m : Int)))
      else some (.float (Binary64.ofNat m).negate)
    | _ => n.float?.map .float
  else n.float?.map .float

def isHighSurrogate (u : Nat) : Bool := 0xD800 ≤ u && u < 0xDC00

def isLowSurrogate (u : Nat) : Bool := 0xDC00 ≤ u && u < 0xE000

def characters? : List Nat → Option (List Char)
  | [] => some []
  | [u] => if isHighSurrogate u || isLowSurrogate u then none else some [Char.ofNat u]
  | u :: v :: rest =>
    if isHighSurrogate u then
      if isLowSurrogate v then
        (characters? rest).map
          (Char.ofNat (0x10000 + (u - 0xD800) * 0x400 + (v - 0xDC00)) :: ·)
      else none
    else if isLowSurrogate u then none
    else (characters? (v :: rest)).map (Char.ofNat u :: ·)

def string? (units : List Nat) : Option String :=
  (characters? units).map String.ofList

mutual

/-- The value of a form with fewer than `depth` levels of brackets. -/
def Raw.toValue? (depth : Nat) : Raw → Option Value
  | .null => some .null
  | .bool b => some (.bool b)
  | .number n => n.value?
  | .string units => (string? units).map .string
  | .array items =>
    if depth ≤ 1 then none else (Raw.toValues? (depth - 1) items).map .array
  | .object members =>
    if depth ≤ 1 then none else (Raw.toMembers? (depth - 1) [] members).map .object

def Raw.toValues? (depth : Nat) : List Raw → Option (List Value)
  | [] => some []
  | raw :: rest => do
    let v ← raw.toValue? depth
    let vs ← Raw.toValues? depth rest
    some (v :: vs)

def Raw.toMembers? (depth : Nat) (acc : List (String × Value)) :
    List (List Nat × Raw) → Option (List (String × Value))
  | [] => some acc
  | (key, raw) :: rest => do
    let key ← string? key
    let v ← raw.toValue? depth
    Raw.toMembers? depth (putMember key v acc) rest

end

def depthLimit : Nat := 128

def Value.read? (cs : List Char) : Option Value :=
  (Raw.read? cs).bind (Raw.toValue? depthLimit)

def readObject? (cs : List Char) : Option (List (String × Value)) :=
  match Value.read? cs with
  | some (.object members) => some members
  | _ => none

end ComponentCompiler.Json
