/-!
# Double precision numbers

Finite doubles as a natural mantissa times a power of two, in a normal form, and the rounding of a
quotient of natural numbers to the nearest of them.  There is no NaN: nothing here produces one.
-/

namespace ComponentCompiler.Number

/-- A double.  `finite neg m q` stands for `m * 2 ^ q`, negated when `neg` is set.  Rounding gives
the normal form: `m < 2 ^ 53`, and `2 ^ 52 ≤ m` unless `q = -1074`. -/
inductive Binary64
  | finite (negative : Bool) (mantissa : Nat) (exponent : Int)
  | infinite (negative : Bool)
deriving DecidableEq

namespace Binary64

def zero : Binary64 := .finite false 0 (-1074)

def isZero : Binary64 → Bool
  | .finite _ m _ => m == 0
  | .infinite _ => false

def isInfinite : Binary64 → Bool
  | .finite .. => false
  | .infinite _ => true

def isNegative : Binary64 → Bool
  | .finite s _ _ => s
  | .infinite s => s

def negate : Binary64 → Binary64
  | .finite s m q => .finite (!s) m q
  | .infinite s => .infinite (!s)

def sameValue (x y : Binary64) : Bool :=
  x = y || (x.isZero && y.isZero)

/-- The quotient `num / (den * 2 ^ q)` cut to a natural number, and whether the part cut off says to
round up: more than a half, or a half next to an odd number. -/
def quotientAt (num den : Nat) (q : Int) : Nat × Bool :=
  let n := num * Nat.pow 2 (-q).toNat
  let d := den * Nat.pow 2 q.toNat
  let whole := n / d
  let twice := 2 * (n % d)
  (whole, d < twice || (twice = d && whole % 2 = 1))

/-- Puts a rounded mantissa into normal form; above the largest double lies infinity. -/
def normalize (negative : Bool) (mantissa : Nat) (exponent : Int) : Binary64 :=
  let (m, q) :=
    if mantissa = Nat.pow 2 53 then (Nat.pow 2 52, exponent + 1) else (mantissa, exponent)
  if q > 971 then .infinite negative else .finite negative m q

def ofRatio (negative : Bool) (num den : Nat) : Binary64 :=
  if num = 0 then .finite negative 0 (-1074)
  else
    let low : Int := (num.log2 : Int) - den.log2 - 53
    let q := if (quotientAt num den low).1 < Nat.pow 2 53 then low else low + 1
    let q := max q (-1074)
    let (whole, up) := quotientAt num den q
    normalize negative (if up then whole + 1 else whole) q

def ofNat (n : Nat) : Binary64 :=
  ofRatio false n 1

def ofDecimal (digits : Nat) (exponent : Int) : Binary64 :=
  ofRatio false (digits * Nat.pow 10 exponent.toNat) (Nat.pow 10 (-exponent).toNat)

def mul : Binary64 → Binary64 → Binary64
  | .finite s m p, .finite t n q =>
    let e := p + q
    ofRatio (s != t) (m * n * Nat.pow 2 e.toNat) (Nat.pow 2 (-e).toNat)
  | x, y => .infinite (x.isNegative != y.isNegative)

def div : Binary64 → Binary64 → Binary64
  | .finite s m p, .finite t n q =>
    let e := p - q
    ofRatio (s != t) (m * Nat.pow 2 e.toNat) (n * Nat.pow 2 (-e).toNat)
  | .finite s .., .infinite t => .finite (s != t) 0 (-1074)
  | .infinite s, y => .infinite (s != y.isNegative)

def toBits : Binary64 → Nat
  | .finite s m q =>
    let magnitude :=
      if m < Nat.pow 2 52 then m else (q + 1075).toNat * Nat.pow 2 52 + (m - Nat.pow 2 52)
    (if s then Nat.pow 2 63 else 0) + magnitude
  | .infinite s => (if s then Nat.pow 2 63 else 0) + 2047 * Nat.pow 2 52

end Binary64

end ComponentCompiler.Number
