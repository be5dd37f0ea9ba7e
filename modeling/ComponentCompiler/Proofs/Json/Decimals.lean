import ComponentCompiler.Proofs.Json.Scalars
import ComponentCompiler.Proofs.Number.Shortest
import ComponentCompiler.Proofs.Text.Words

namespace ComponentCompiler.Json

open Number (Binary64 DecimalStyle IsNormal Rounds)
open Text (Stops dropWhile_append_of_stops isAsciiDigit takeWhile_append_of_stops)

def ofDigits (ds : List Nat) : Nat :=
  ds.foldl (fun n d => 10 * n + d) 0

theorem ofDigits_append (ds es : List Nat) :
    ofDigits (ds ++ es) = ofDigits ds * 10 ^ es.length + ofDigits es := by
  have shift (n : Nat) : es.foldl (fun n d => 10 * n + d) n = n * 10 ^ es.length + ofDigits es := by
    induction es using List.reverseRecOn with
    | nil => simp [ofDigits]
    | append_singleton es d ih =>
      rw [List.foldl_append, ih]
      simp only [ofDigits, List.foldl_append, List.foldl_cons, List.foldl_nil, List.length_append,
        List.length_singleton, pow_succ]
      ring
  rw [ofDigits, List.foldl_append, shift]
  rfl

theorem ofDigits_replicate (n : Nat) : ofDigits (List.replicate n 0) = 0 := by
  induction n with
  | zero => rfl
  | succ n ih => rw [List.replicate_succ, ← List.singleton_append, ofDigits_append, ih]; simp [ofDigits]

theorem ofDigits_digits (n : Nat) : ofDigits (digits n) = n := by
  have value : Nat.ofDigitChars 10 (Number.digitsOf n) 0 = n := Nat.ofDigitChars_ten_toDigits
  rw [ofDigits, digits, List.foldl_map]
  exact value

theorem ofDigits_append_zeros (cs : List Char) (n : Nat) :
    ofDigits ((cs ++ List.replicate n '0').map Raw.digitValue) =
      ofDigits (cs.map Raw.digitValue) * 10 ^ n := by
  have zero : Raw.digitValue '0' = 0 := rfl
  rw [List.map_append, List.map_replicate, zero, ofDigits_append, ofDigits_replicate,
    List.length_replicate, Nat.add_zero]

theorem ofDigits_zeros_append (n : Nat) (cs : List Char) :
    ofDigits ((List.replicate n '0' ++ cs).map Raw.digitValue) =
      ofDigits (cs.map Raw.digitValue) := by
  have zero : Raw.digitValue '0' = 0 := rfl
  rw [List.map_append, List.map_replicate, zero, ofDigits_append, ofDigits_replicate, Nat.zero_mul,
    Nat.zero_add]

namespace Numeral

def significand (n : Numeral) : Nat :=
  ofDigits (n.whole ++ n.fraction)

def scale (n : Numeral) : Int :=
  (match n.exponent with
    | none => 0
    | some (negative, ds) => if negative then -(ofDigits ds : Int) else ofDigits ds) -
    n.fraction.length

def isInteger (n : Numeral) : Bool :=
  n.fraction.isEmpty && n.exponent.isNone

def exact (n : Numeral) : Value :=
  if n.isInteger then .integer (if n.negative then -(n.significand : Int) else n.significand)
  else
    let x := Binary64.ofDecimal n.significand n.scale
    .float (if n.negative then x.negate else x)

theorem exact_integer (z : Int) : exact ⟨z < 0, digits z.natAbs, [], none⟩ = .integer z := by
  simp only [exact, isInteger, significand, List.isEmpty_nil, Option.isNone_none, Bool.and_self,
    if_true, List.append_nil, ofDigits_digits, decide_eq_true_eq]
  congr 1
  split <;> omega

theorem exact_of_rounds {n : Numeral} {m : Nat} {q : Int} (broken : n.isInteger = false)
    (normal : IsNormal m q) (finite : q ≤ 971)
    (rounds : Rounds (n.significand * 10 ^ n.scale) m q) :
    n.exact = .float (.finite n.negative m q) := by
  have divisor : 0 < Nat.pow 10 (-n.scale).toNat := Nat.pow_pos (by norm_num)
  have ratio : (n.significand : ℚ) * 10 ^ n.scale =
      (n.significand * Nat.pow 10 n.scale.toNat : Nat) / (Nat.pow 10 (-n.scale).toNat : Nat) := by
    have power := Number.zpow_eq_div 10 (by norm_num) n.scale
    rw [Nat.cast_ofNat] at power
    rw [power, Nat.cast_mul, mul_div_assoc]
    rfl
  rw [ratio] at rounds
  have nearest : Binary64.ofDecimal n.significand n.scale = .finite false m q :=
    Number.ofRatio_eq_of_rounds divisor normal finite rounds false
  rw [exact, broken, nearest]
  cases n.negative <;> rfl

end Numeral

section Digits

variable {cs fs rest : List Char}

theorem isWhole_zero : IsWhole ['0'] :=
  ⟨by simp, by simp [isAsciiDigit], .inl rfl⟩

/-- The text is a numeral with a point or an exponent, its sign aside, and stands for `x`. -/
def Shows (negative : Bool) (text : List Char) (x : ℚ) : Prop :=
  ∃ n : Numeral, n.negative = negative ∧ n.isInteger = false ∧ n.significand * 10 ^ n.scale = x ∧
    ∀ rest, EndsNumber rest → unsigned? negative (text ++ rest) = some (n, rest)

theorem shows_point (negative : Bool) (isWhole : IsWhole cs) (nonempty : fs ≠ [])
    (isDigit : ∀ c ∈ fs, isAsciiDigit c = true) : Shows negative (cs ++ '.' :: fs)
      (ofDigits ((cs ++ fs).map Raw.digitValue) * 10 ^ (-fs.length : Int)) := by
  refine ⟨⟨negative, cs.map Raw.digitValue, fs.map Raw.digitValue, none⟩, rfl, ?_, ?_,
    fun rest ends => ?_⟩
  · simp [Numeral.isInteger, nonempty]
  · simp [Numeral.significand, Numeral.scale]
  · have stops : Stops isAsciiDigit ('.' :: (fs ++ rest)) := by simp [Stops, isAsciiDigit]
    have whole := isWhole.whole?_append stops
    have fraction : Raw.fraction? ('.' :: (fs ++ rest)) = some (fs.map Raw.digitValue, rest) :=
      someDigits?_append nonempty isDigit ends.stops
    simp [unsigned?, whole, fraction, ends.exponent?]

def pointed (fs : List Char) : List Char :=
  if fs = [] then [] else '.' :: fs

theorem fraction?_pointed (isDigit : ∀ c ∈ fs, isAsciiDigit c = true) {c : Char}
    (plain : isAsciiDigit c = false ∧ c ≠ '.') (rest : List Char) :
    Stops isAsciiDigit (pointed fs ++ c :: rest) ∧
      Raw.fraction? (pointed fs ++ c :: rest) = some (fs.map Raw.digitValue, c :: rest) := by
  rw [pointed]
  split
  next none_ =>
    refine ⟨by simp [Stops, plain.1], ?_⟩
    rw [none_, List.nil_append, Raw.fraction?.eq_def]
    split
    next starts => exact absurd (List.cons.inj starts).1 plain.2
    next => rfl
  next some_ =>
    exact ⟨by simp [Stops, isAsciiDigit],
      someDigits?_append some_ isDigit (by simp [Stops, plain.1])⟩

theorem shows_exponent (negative : Bool) (isWhole : IsWhole cs)
    (isDigit : ∀ c ∈ fs, isAsciiDigit c = true) (e : Int) : Shows negative
      (cs ++ (pointed fs ++ 'e' :: (if e < 0 then '-' else '+') :: Number.digitsOf e.natAbs))
      (ofDigits ((cs ++ fs).map Raw.digitValue) * 10 ^ (e - fs.length)) := by
  refine ⟨⟨negative, cs.map Raw.digitValue, fs.map Raw.digitValue,
    some (decide (e < 0), digits e.natAbs)⟩, rfl, ?_, ?_, fun rest ends => ?_⟩
  · simp [Numeral.isInteger]
  · have power : (if e < 0 then -(e.natAbs : Int) else e.natAbs) = e := by split <;> omega
    simp only [Numeral.significand, Numeral.scale, decide_eq_true_eq, ofDigits_digits, power,
      List.length_map, List.map_append]
  · have exponent : Raw.exponent? ('e' :: (if e < 0 then '-' else '+') ::
        (Number.digitsOf e.natAbs ++ rest)) = some (some (decide (e < 0), digits e.natAbs), rest) := by
      rw [exponent?_sign (.inl rfl) (by split <;> simp), exponentDigits?,
        someDigits?_append (isWhole_digitsOf e.natAbs).nonempty (isAsciiDigit_digitsOf _)
          ends.stops]
      split <;> simp [digits, *]
    obtain ⟨stops, fraction⟩ := fraction?_pointed isDigit (c := 'e') (by decide)
      ((if e < 0 then '-' else '+') :: (Number.digitsOf e.natAbs ++ rest))
    have whole := isWhole.whole?_append stops
    simp [unsigned?, whole, fraction, exponent]

end Digits

structure IsDecimal (ds : List Char) : Prop where
  nonempty : ds ≠ []
  isDigit : ∀ c ∈ ds, isAsciiDigit c = true
  starts : ∀ c ∈ ds.head?, c ≠ '0'

section Write

variable {ds : List Char} {e : Int}

theorem isPositional_iff : (numberStyle.least ≤ e && e < numberStyle.bound) = true ↔
    -5 ≤ e ∧ e < 16 := by
  rw [Bool.and_eq_true, decide_eq_true_eq, decide_eq_true_eq]
  rfl

theorem write_below_one (low : -5 ≤ e) (high : e < 0) : numberStyle.write ds e =
    ['0'] ++ '.' :: (List.replicate ((-e).toNat - 1) '0' ++ ds) := by
  rw [DecimalStyle.write, if_pos (isPositional_iff.2 ⟨low, by omega⟩), if_pos high]
  simp

theorem write_padded (low : 0 ≤ e) (high : e < 16) (short : ds.length ≤ e.toNat + 1) :
    numberStyle.write ds e =
      (ds ++ List.replicate (e.toNat + 1 - ds.length) '0') ++ '.' :: ['0'] := by
  have length : (ds ++ List.replicate (e.toNat + 1 - ds.length) '0').length = e.toNat + 1 := by
    rw [List.length_append, List.length_replicate]
    omega
  rw [DecimalStyle.write, if_pos (isPositional_iff.2 ⟨by omega, high⟩), if_neg (not_lt.2 low)]
  simp only [List.take_of_length_le length.le, List.drop_of_length_le length.le, List.isEmpty_nil,
    if_true, List.append_assoc, List.singleton_append]

theorem write_pointed (low : 0 ≤ e) (high : e < 16) (long : e.toNat + 1 < ds.length) :
    numberStyle.write ds e = ds.take (e.toNat + 1) ++ '.' :: ds.drop (e.toNat + 1) := by
  have whole : ds ++ List.replicate (e.toNat + 1 - ds.length) '0' = ds := by
    rw [Nat.sub_eq_zero_of_le long.le, List.replicate_zero, List.append_nil]
  have some_ : (ds.drop (e.toNat + 1)).isEmpty = false := by
    rw [List.isEmpty_eq_false_iff]
    simpa using long
  rw [DecimalStyle.write, if_pos (isPositional_iff.2 ⟨by omega, high⟩), if_neg (not_lt.2 low)]
  simp only [whole, some_, Bool.false_eq_true, if_false, List.append_assoc, List.singleton_append]

theorem write_exponent (outside : ¬(-5 ≤ e ∧ e < 16)) : numberStyle.write ds e =
    ds.take 1 ++ (pointed (ds.drop 1) ++
      'e' :: (if e < 0 then '-' else '+') :: Number.digitsOf e.natAbs) := by
  have fraction : (if ds.length ≤ 1 then [] else '.' :: ds.drop 1) = pointed (ds.drop 1) := by
    rw [pointed]
    simp only [List.drop_eq_nil_iff]
  have sign : (if numberStyle.plusSign && e ≥ 0 then ['+'] else []) ++ Number.integerText e =
      (if e < 0 then '-' else '+') :: Number.digitsOf e.natAbs := by
    rw [Number.integerText]
    rcases lt_or_ge e 0 with below | above
    · simp [below, not_le.2 below]
    · simp [above, not_lt.2 above, numberStyle]
  rw [DecimalStyle.write, if_neg (fun inside => outside (isPositional_iff.1 inside))]
  simp only [fraction, List.append_assoc, List.cons_append, List.nil_append, sign]

end Write

theorem mul_zpow_eq {a b zeros : Nat} {i j : Int} (digits : a = b * 10 ^ zeros)
    (exponent : i + zeros = j) : (a : ℚ) * 10 ^ i = b * 10 ^ j := by
  rw [digits, ← exponent, zpow_add₀ (by norm_num), Nat.cast_mul, Nat.cast_pow, zpow_natCast]
  push_cast
  ring

section Shown

variable {ds : List Char} {e : Int} (isDecimal : IsDecimal ds) (negative : Bool)

include isDecimal

theorem IsDecimal.isWhole {front more : List Char} (parts : front ++ more = ds)
    (nonempty : front ≠ []) (zeros : Nat) : IsWhole (front ++ List.replicate zeros '0') where
  nonempty := by simp [nonempty]
  isDigit c member := by
    rcases List.mem_append.1 member with digit | zero
    · exact isDecimal.isDigit c (parts ▸ List.mem_append_left more digit)
    · rw [List.eq_of_mem_replicate zero]
      rfl
  alone := .inr fun c first => by
    obtain ⟨d, rest, rfl⟩ := List.exists_cons_of_ne_nil nonempty
    exact isDecimal.starts c (by rw [← parts]; exact first)

theorem IsDecimal.isWhole_take {places : Nat} (some_ : 0 < places) : IsWhole (ds.take places) := by
  have nonempty : ds.take places ≠ [] := by simp [isDecimal.nonempty, some_.ne']
  have isWhole := isDecimal.isWhole (List.take_append_drop places ds) nonempty 0
  rwa [List.replicate_zero, List.append_nil] at isWhole

theorem IsDecimal.isDigit_drop (places : Nat) : ∀ c ∈ ds.drop places, isAsciiDigit c = true :=
  fun c member => isDecimal.isDigit c (List.mem_of_mem_drop member)

theorem shows_below_one (low : -5 ≤ e) (high : e < 0) : Shows negative (numberStyle.write ds e)
    (ofDigits (ds.map Raw.digitValue) * 10 ^ (e + 1 - ds.length)) := by
  have isDigit : ∀ c ∈ List.replicate ((-e).toNat - 1) '0' ++ ds, isAsciiDigit c = true := by
    intro c member
    rcases List.mem_append.1 member with zero | digit
    · rw [List.eq_of_mem_replicate zero]
      rfl
    · exact isDecimal.isDigit c digit
  have zeros : ofDigits ((['0'] ++ (List.replicate ((-e).toNat - 1) '0' ++ ds)).map
      Raw.digitValue) = ofDigits (ds.map Raw.digitValue) * 10 ^ 0 := by
    rw [← List.append_assoc, ← List.replicate_one, List.replicate_append_replicate,
      ofDigits_zeros_append, pow_zero, mul_one]
  have shows := shows_point negative isWhole_zero (by simp [isDecimal.nonempty]) isDigit
  rw [write_below_one low high]
  rwa [mul_zpow_eq (j := e + 1 - ds.length) zeros (by simp; omega)] at shows

theorem shows_padded (low : 0 ≤ e) (high : e < 16) (short : ds.length ≤ e.toNat + 1) :
    Shows negative (numberStyle.write ds e)
      (ofDigits (ds.map Raw.digitValue) * 10 ^ (e + 1 - ds.length)) := by
  have isWhole := isDecimal.isWhole (List.append_nil ds) isDecimal.nonempty
    (e.toNat + 1 - ds.length)
  have zeros : ofDigits ((ds ++ List.replicate (e.toNat + 1 - ds.length) '0' ++ ['0']).map
      Raw.digitValue) =
        ofDigits (ds.map Raw.digitValue) * 10 ^ (e.toNat + 1 - ds.length + 1) := by
    rw [List.append_assoc, ← List.replicate_succ', ofDigits_append_zeros]
  have shows := shows_point negative isWhole (List.cons_ne_nil '0' []) isWhole_zero.isDigit
  rw [write_padded low high short]
  rwa [mul_zpow_eq (j := e + 1 - ds.length) zeros (by simp; omega)] at shows

theorem shows_pointed (low : 0 ≤ e) (high : e < 16) (long : e.toNat + 1 < ds.length) :
    Shows negative (numberStyle.write ds e)
      (ofDigits (ds.map Raw.digitValue) * 10 ^ (e + 1 - ds.length)) := by
  have shows := shows_point negative (isDecimal.isWhole_take (Nat.succ_pos e.toNat))
    (by simpa using long) (isDecimal.isDigit_drop (e.toNat + 1))
  have exponent : -((ds.drop (e.toNat + 1)).length : Int) = e + 1 - ds.length := by
    rw [List.length_drop]
    omega
  rw [write_pointed low high long]
  rwa [exponent, List.take_append_drop] at shows

theorem shows_scientific (outside : ¬(-5 ≤ e ∧ e < 16)) : Shows negative (numberStyle.write ds e)
    (ofDigits (ds.map Raw.digitValue) * 10 ^ (e + 1 - ds.length)) := by
  have some_ := List.length_pos_iff.2 isDecimal.nonempty
  have shows := shows_exponent negative (isDecimal.isWhole_take one_pos)
    (isDecimal.isDigit_drop 1) e
  have exponent : e - (ds.drop 1).length = e + 1 - ds.length := by
    rw [List.length_drop]
    omega
  rw [write_exponent outside]
  rwa [exponent, List.take_append_drop] at shows

theorem shows_write (e : Int) : Shows negative (numberStyle.write ds e)
    (ofDigits (ds.map Raw.digitValue) * 10 ^ (e + 1 - ds.length)) := by
  by_cases positional : -5 ≤ e ∧ e < 16
  · rcases lt_or_ge e 0 with below | above
    · exact shows_below_one isDecimal negative positional.1 below
    · rcases le_or_gt ds.length (e.toNat + 1) with short | long
      · exact shows_padded isDecimal negative above positional.2 short
      · exact shows_pointed isDecimal negative above positional.2 long
  · exact shows_scientific isDecimal negative positional

end Shown

theorem exists_isDecimal {n : Nat} (positive : 0 < n) : ∃ zeros,
    IsDecimal (DecimalStyle.text.dropZeros (Number.digitsOf n)) ∧
      (Number.digitsOf n).length =
        (DecimalStyle.text.dropZeros (Number.digitsOf n)).length + zeros ∧
      n = ofDigits ((DecimalStyle.text.dropZeros (Number.digitsOf n)).map Raw.digitValue) *
        10 ^ zeros := by
  have same : DecimalStyle.text.dropZeros (Number.digitsOf n) =
      Text.dropEndWhile (· = '0') (Number.digitsOf n) := rfl
  obtain ⟨dropped, parts, zero⟩ := Text.exists_dropEndWhile (· = '0') (Number.digitsOf n)
  rw [← same] at parts
  generalize DecimalStyle.text.dropZeros (Number.digitsOf n) = ds at parts
  have zeros : dropped = List.replicate dropped.length '0' :=
    List.eq_replicate_iff.2 ⟨rfl, fun c member => by simpa using zero c member⟩
  have value := ofDigits_digits n
  rw [digits, parts, zeros, ofDigits_append_zeros] at value
  obtain ⟨d, more, front, nonzero⟩ := head_digits n positive
  rw [digits, parts] at front
  have nonempty : ds ≠ [] := by
    rintro rfl
    rw [← value] at positive
    simp [ofDigits] at positive
  refine ⟨dropped.length, ⟨nonempty, fun c member => ?_, fun c first => ?_⟩, ?_, value.symm⟩
  · exact isAsciiDigit_digitsOf n c (by rw [parts]; exact List.mem_append_left _ member)
  · rintro rfl
    obtain ⟨rest, rfl⟩ := List.head?_eq_some_iff.1 first
    exact nonzero (List.cons.inj front).1.symm
  · rw [parts, List.length_append]

theorem exists_shows {m : Nat} {q : Int} (normal : IsNormal m q) (finite : q ≤ 971)
    (negative : Bool) : ∃ text x, numberStyle.text (.finite negative m q) =
      (if negative then ['-'] else []) ++ text ∧ Shows negative text x ∧ Rounds x m q := by
  rcases Nat.eq_zero_or_pos m with rfl | positive
  · have isZero : q = -1074 := by
      have full := normal.full
      omega
    subst isZero
    refine ⟨['0'] ++ '.' :: ['0'], _, rfl,
      shows_point negative isWhole_zero (by simp) isWhole_zero.isDigit, ?_⟩
    have zero : ofDigits ((['0'] ++ ['0']).map Raw.digitValue) = 0 := rfl
    rw [zero, Nat.cast_zero, zero_mul]
    exact Number.rounds_zero
  · obtain ⟨some_, rounds⟩ := Number.rounds_shortestDecimal positive normal finite
    obtain ⟨zeros, isDecimal, length, value⟩ := exists_isDecimal some_
    have exponent : (Number.shortestDecimal m q).2 + zeros =
        (Number.shortestDecimal m q).2 + (Number.digitsOf (Number.shortestDecimal m q).1).length - 1
          + 1 - (DecimalStyle.text.dropZeros
            (Number.digitsOf (Number.shortestDecimal m q).1)).length := by omega
    rw [mul_zpow_eq value exponent] at rounds
    refine ⟨_, _, ?_, shows_write isDecimal negative _, rounds⟩
    rw [DecimalStyle.text, if_neg positive.ne']

theorem isAsciiDigit_of_unsigned? {negative : Bool} {cs rest : List Char} {n : Numeral}
    (read : unsigned? negative cs = some (n, rest)) :
    ∃ c more, cs = c :: more ∧ isAsciiDigit c = true := by
  simp only [unsigned?, Option.bind_eq_bind, Option.bind_eq_some_iff, Prod.exists] at read
  obtain ⟨ds, left, whole, -⟩ := read
  rw [Raw.whole?] at whole
  split at whole
  next => cases whole
  next =>
    obtain ⟨took, some_⟩ := someDigits?_eq_some.1 whole
    rw [Raw.takeDigits, Prod.mk.injEq] at took
    cases cs with
    | nil => exact absurd took.1.symm some_
    | cons c more =>
      refine ⟨c, more, rfl, ?_⟩
      by_contra other
      rw [List.takeWhile_cons_of_neg other] at took
      exact absurd took.1.symm some_

theorem Shows.value? {negative : Bool} {text : List Char} {x : ℚ} {m : Nat} {q : Int}
    (shows : Shows negative text x) (normal : IsNormal m q) (finite : q ≤ 971)
    (rounds : Rounds x m q) : ∃ n : Numeral, n.exact = .float (.finite negative m q) ∧
      ∀ bound rest, EndsNumber rest →
        Raw.value? (bound + 1) ((if negative then ['-'] else []) ++ text ++ rest) =
          some (.number n, rest) := by
  obtain ⟨n, rfl, broken, rfl, read⟩ := shows
  refine ⟨n, Numeral.exact_of_rounds broken normal finite rounds, fun bound rest ends => ?_⟩
  have unsigned := read rest ends
  obtain ⟨c, more, front, isDigit⟩ := isAsciiDigit_of_unsigned? unsigned
  cases sign : n.negative with
  | true =>
    rw [sign] at unsigned
    rw [if_pos rfl, List.append_assoc, List.singleton_append, value?_number (by decide),
      number?_minus, unsigned]
    rfl
  | false =>
    have positive : c ≠ '-' := Text.ne_of_holds isDigit (by decide)
    rw [sign, front] at unsigned
    rw [if_neg Bool.false_ne_true, List.nil_append, front,
      value?_number (plain_of_isAsciiDigit isDigit), number?_cons positive, unsigned]
    rfl

theorem exists_exact {x : Binary64} (finite : x.IsFinite) : ∃ n : Numeral, n.exact = .float x ∧
    ∀ bound rest, EndsNumber rest →
      Raw.value? (bound + 1) ((Value.float x).text ++ rest) = some (.number n, rest) := by
  match x with
  | .infinite _ => exact finite.elim
  | .finite negative m q =>
    obtain ⟨normal, inRange⟩ := finite
    obtain ⟨text, x, written, shows, rounds⟩ := exists_shows normal inRange negative
    have same : (Value.float (.finite negative m q)).text = (if negative then ['-'] else []) ++ text :=
      written
    rw [same]
    exact shows.value? normal inRange rounds

end ComponentCompiler.Json
