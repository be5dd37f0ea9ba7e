import ComponentCompiler.Number.Binary64

namespace ComponentCompiler.Number

/-- The reals that round to a double, scaled: they lie between `low / den` and `high / den` around
`value / den`, the ends included when `closed`. -/
structure Rounding where
  low : Nat
  value : Nat
  high : Nat
  den : Nat
  closed : Bool

/-- The rounding interval of `mantissa * 2 ^ exponent`.  Below a power of two the neighbour is half
as far away as above it. -/
def Rounding.ofDouble (mantissa : Nat) (exponent : Int) : Rounding :=
  let q := exponent - 2
  let unit := Nat.pow 2 q.toNat
  let below := if mantissa = Nat.pow 2 52 && exponent > -1074 then 1 else 2
  { low := (4 * mantissa - below) * unit
    value := 4 * mantissa * unit
    high := (4 * mantissa + 2) * unit
    den := Nat.pow 2 (-q).toNat
    closed := mantissa % 2 = 0 }

def Rounding.holds (r : Rounding) (digits : Nat) (k : Int) : Bool :=
  let x := digits * Nat.pow 10 k.toNat * r.den
  let scale := Nat.pow 10 (-k).toNat
  if r.closed then r.low * scale ≤ x && x ≤ r.high * scale
  else r.low * scale < x && x < r.high * scale

/-- The multiple of `10 ^ k` that rounds to the double, if there is one: one of the two neighbours
of the value, the nearer when both do. -/
def Rounding.onGrid? (r : Rounding) (k : Int) : Option Nat :=
  let num := r.value * Nat.pow 10 (-k).toNat
  let den := r.den * Nat.pow 10 k.toNat
  let below := num / den
  let above := below + 1
  if below > 0 && r.holds below k then
    if r.holds above k && den < 2 * (num % den) then some above else some below
  else if r.holds above k then some above
  else none

def shortestDecimal (mantissa : Nat) (exponent : Int) : Nat × Int :=
  let r := Rounding.ofDouble mantissa exponent
  let top : Int := ((mantissa.log2 : Int) + exponent) * 30103 / 100000 + 2
  let found := (List.range 24).findSome? fun (i : Nat) =>
    (r.onGrid? (top - i)).map fun digits => (digits, top - (i : Int))
  found.getD (mantissa, 0)

/-- How a decimal is written: positionally while its scientific exponent is at least `least` and
below `bound`, otherwise with an exponent that shows its plus sign or does not. -/
structure DecimalStyle where
  least : Int
  bound : Int
  plusSign : Bool

def digitsOf (n : Nat) : List Char :=
  Nat.toDigits 10 n

def integerText (n : Int) : List Char :=
  if n < 0 then '-' :: digitsOf n.natAbs else digitsOf n.natAbs

def DecimalStyle.write (style : DecimalStyle) (digits : List Char) (exponent : Int) : List Char :=
  if style.least ≤ exponent && exponent < style.bound then
    if exponent < 0 then
      ['0', '.'] ++ List.replicate ((-exponent).toNat - 1) '0' ++ digits
    else
      let whole := exponent.toNat + 1
      let padded := digits ++ List.replicate (whole - digits.length) '0'
      let fraction := padded.drop whole
      padded.take whole ++ ['.'] ++ (if fraction.isEmpty then ['0'] else fraction)
  else
    let fraction := if digits.length ≤ 1 then [] else '.' :: digits.drop 1
    let sign := if style.plusSign && exponent ≥ 0 then ['+'] else []
    digits.take 1 ++ fraction ++ ['e'] ++ sign ++ integerText exponent

def DecimalStyle.text (style : DecimalStyle) : Binary64 → List Char
  | .infinite s => (if s then ['-'] else []) ++ ['i', 'n', 'f']
  | .finite s m q =>
    let sign := if s then ['-'] else []
    if m = 0 then sign ++ ['0', '.', '0']
    else
      let (n, k) := shortestDecimal m q
      let digits := digitsOf n
      let exponent := k + digits.length - 1
      sign ++ style.write (dropZeros digits) exponent
where
  dropZeros (ds : List Char) : List Char :=
    ds.foldr (fun c rest => if rest.isEmpty && c = '0' then [] else c :: rest) []

end ComponentCompiler.Number
