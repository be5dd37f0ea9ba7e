import ComponentCompiler.Json.Reader
import ComponentCompiler.Proofs.Text.Scanning
import Mathlib.Algebra.Group.Int.Defs
import Mathlib.Tactic.SplitIfs

namespace ComponentCompiler.Json

open Text (Stops dropWhile_append_of_stops isAsciiDigit takeWhile_append_of_stops)

theorem hexValue?_hexDigit {n : Nat} (small : n < 16) : Raw.hexValue? (hexDigit n) = some n := by
  revert n
  decide

theorem units?_escapeChar (c : Char) (rest : List Char) :
    Raw.units? (escapeChar c ++ rest) =
      (Raw.units? rest).map fun (units, rest) => (c.toNat :: units, rest) := by
  unfold escapeChar
  split_ifs with quote backslash feed tab return_ back page control
  · subst quote
    cases read : Raw.units? rest <;> simp [Raw.units?, Raw.simpleEscape?, read]
  · subst backslash
    cases read : Raw.units? rest <;> simp [Raw.units?, Raw.simpleEscape?, read]
  · subst feed
    cases read : Raw.units? rest <;> simp [Raw.units?, Raw.simpleEscape?, read]
  · subst tab
    cases read : Raw.units? rest <;> simp [Raw.units?, Raw.simpleEscape?, read]
  · subst return_
    cases read : Raw.units? rest <;> simp [Raw.units?, Raw.simpleEscape?, read]
  · cases read : Raw.units? rest <;> simp [Raw.units?, Raw.simpleEscape?, read, back]
  · cases read : Raw.units? rest <;> simp [Raw.units?, Raw.simpleEscape?, read, page]
  · have zero : Raw.hexValue? '0' = some 0 := by decide
    have high := hexValue?_hexDigit (n := c.toNat / 16) (by omega)
    have low := hexValue?_hexDigit (n := c.toNat % 16) (by omega)
    have parts : c.toNat / 16 * 16 + c.toNat % 16 = c.toNat := by omega
    cases read : Raw.units? rest <;> simp [Raw.units?, zero, high, low, read, parts]
  · cases read : Raw.units? rest <;> simp [Raw.units?, backslash, control, read]

theorem units?_escaped (cs rest : List Char) :
    Raw.units? (cs.flatMap escapeChar ++ '"' :: rest) = some (cs.map Char.toNat, rest) := by
  induction cs with
  | nil => rfl
  | cons c cs ih =>
    rw [List.flatMap_cons, List.append_assoc, units?_escapeChar, ih]
    rfl

theorem not_surrogate (c : Char) :
    isHighSurrogate c.toNat = false ∧ isLowSurrogate c.toNat = false := by
  have valid := c.valid
  simp only [isHighSurrogate, isLowSurrogate, Bool.and_eq_false_iff, decide_eq_false_iff_not]
  simp only [UInt32.isValidChar, Nat.isValidChar] at valid
  simp only [Char.toNat]
  omega

theorem characters?_toNat (cs : List Char) : characters? (cs.map Char.toNat) = some cs := by
  induction cs with
  | nil => rfl
  | cons c cs ih =>
    obtain ⟨high, low⟩ := not_surrogate c
    cases cs with
    | nil => simp [characters?, high, low, Char.ofNat_toNat]
    | cons d cs =>
      rw [List.map_cons] at ih
      rw [List.map_cons, List.map_cons, characters?, high, if_neg Bool.false_ne_true, low,
        if_neg Bool.false_ne_true, ih, Char.ofNat_toNat]
      rfl

theorem string?_toNat (s : String) : string? (s.toList.map Char.toNat) = some s := by
  rw [string?, characters?_toNat]
  exact congrArg some String.ofList_toList

def EndsNumber (rest : List Char) : Prop :=
  ∀ c ∈ rest.head?, isAsciiDigit c = false ∧ c ≠ '.' ∧ c ≠ 'e' ∧ c ≠ 'E'

structure IsWhole (cs : List Char) : Prop where
  nonempty : cs ≠ []
  isDigit : ∀ c ∈ cs, isAsciiDigit c = true
  alone : cs.length = 1 ∨ ∀ c ∈ cs.head?, c ≠ '0'

section Digits

variable {cs rest : List Char}

theorem EndsNumber.stops (ends : EndsNumber rest) : Stops isAsciiDigit rest :=
  fun c first => (ends c first).1

theorem EndsNumber.fraction? (ends : EndsNumber rest) : Raw.fraction? rest = some ([], rest) := by
  cases rest with
  | nil => rfl
  | cons c cs =>
    have point := (ends c rfl).2.1
    unfold Raw.fraction?
    split
    next starts => exact absurd (List.cons.inj starts).1 point
    next => rfl

theorem EndsNumber.exponent? (ends : EndsNumber rest) : Raw.exponent? rest = some (none, rest) := by
  cases rest with
  | nil => rfl
  | cons c cs =>
    obtain ⟨-, -, small, capital⟩ := ends c rfl
    simp [Raw.exponent?.eq_def, small, capital]

theorem someDigits?_append (nonempty : cs ≠ []) (isDigit : ∀ c ∈ cs, isAsciiDigit c = true)
    (stops : Stops isAsciiDigit rest) :
    Raw.someDigits? (cs ++ rest) = some (cs.map Raw.digitValue, rest) := by
  rw [Raw.someDigits?, Raw.takeDigits, takeWhile_append_of_stops isDigit stops,
    dropWhile_append_of_stops isDigit stops]
  obtain ⟨c, more, rfl⟩ := List.exists_cons_of_ne_nil nonempty
  rfl

theorem digitValue_ne_zero {c : Char} (isDigit : isAsciiDigit c = true) (nonzero : c ≠ '0') :
    Raw.digitValue c ≠ 0 := by
  have least : '0' ≤ c := by
    rw [isAsciiDigit, Bool.and_eq_true, decide_eq_true_eq] at isDigit
    exact isDigit.1
  have other : c.toNat ≠ '0'.toNat := fun same => nonzero (Char.toNat_inj.1 same)
  have least' : '0'.toNat ≤ c.toNat := least
  rw [Raw.digitValue]
  omega

theorem IsWhole.whole?_append (isWhole : IsWhole cs) (stops : Stops isAsciiDigit rest) :
    Raw.whole? (cs ++ rest) = some (cs.map Raw.digitValue, rest) := by
  rw [Raw.whole?, someDigits?_append isWhole.nonempty isWhole.isDigit stops]
  split
  next d ds left found =>
    -- A zero with another digit after it is no whole number.
    obtain ⟨c, more, rfl⟩ := List.exists_cons_of_ne_nil isWhole.nonempty
    rw [Option.some.injEq, Prod.mk.injEq, List.map_cons, List.cons.injEq] at found
    have length := congrArg List.length found.1.2
    rw [List.length_map, List.length_cons] at length
    have nonzero := isWhole.alone.resolve_left (by rw [List.length_cons]; omega) c rfl
    exact absurd found.1.1 (digitValue_ne_zero (isWhole.isDigit c (by simp)) nonzero)
  next => rfl

end Digits

def digits (n : Nat) : List Nat :=
  (Number.digitsOf n).map Raw.digitValue

theorem isAsciiDigit_digitsOf (n : Nat) : ∀ c ∈ Number.digitsOf n, isAsciiDigit c = true := by
  intro c member
  have isDigit := Nat.isDigit_of_mem_toDigits (by decide) (by decide) member
  simpa [isAsciiDigit, Char.isDigit, Char.le_def] using isDigit

theorem exists_digitsOf_eq_cons (n : Nat) :
    ∃ c cs, Number.digitsOf n = c :: cs ∧ isAsciiDigit c = true := by
  obtain ⟨c, cs, front⟩ := List.exists_cons_of_ne_nil (Nat.toDigits_ne_nil (b := 10) (n := n))
  exact ⟨c, cs, front, isAsciiDigit_digitsOf n c (by rw [Number.digitsOf, front]; simp)⟩

theorem head_digits (n : Nat) (positive : 0 < n) : ∃ d ds, digits n = d :: ds ∧ d ≠ 0 := by
  induction n using Nat.strongRecOn with
  | _ n ih =>
  rw [digits, Number.digitsOf, Nat.toDigits_eq_if (by decide)]
  split
  next small =>
    have nonzero : ∀ n < 10, 0 < n → Raw.digitValue n.digitChar ≠ 0 := by decide
    exact ⟨_, [], rfl, nonzero n small positive⟩
  next large =>
    obtain ⟨d, ds, front, nonzero⟩ := ih (n / 10) (by omega) (by omega)
    rw [digits, Number.digitsOf] at front
    rw [List.map_append, front]
    exact ⟨d, _, rfl, nonzero⟩

theorem isWhole_digitsOf (n : Nat) : IsWhole (Number.digitsOf n) where
  nonempty := Nat.toDigits_ne_nil
  isDigit := isAsciiDigit_digitsOf n
  alone := by
    rcases Nat.eq_zero_or_pos n with rfl | positive
    · exact .inl rfl
    · obtain ⟨d, ds, front, nonzero⟩ := head_digits n positive
      refine .inr fun c first => ?_
      obtain ⟨more, parts⟩ := List.head?_eq_some_iff.1 first
      rw [digits, parts] at front
      rintro rfl
      exact nonzero (List.cons.inj front).1.symm

theorem accumulate_digits (n : Nat) (fits : n < Nat.pow 2 64) : accumulate 0 (digits n) = (n, []) := by
  have all : ∀ (cs : List Char) (acc : Nat), Nat.ofDigitChars 10 cs acc < Nat.pow 2 64 →
      accumulate acc (cs.map Raw.digitValue) = (Nat.ofDigitChars 10 cs acc, []) := by
    intro cs
    induction cs with
    | nil => exact fun _ _ => rfl
    | cons c cs ih =>
      intro acc fits
      have grows : acc * 10 + Raw.digitValue c ≤ Nat.ofDigitChars 10 (c :: cs) acc := by
        rw [Nat.ofDigitChars_cons, Nat.ofDigitChars_eq_ofDigitChars_zero, Nat.mul_comm 10]
        have := Nat.le_mul_of_pos_left (acc * 10 + (c.toNat - '0'.toNat))
          (Nat.pow_pos (n := cs.length) (show 0 < 10 by decide))
        rw [Raw.digitValue]
        omega
      rw [List.map_cons, accumulate, if_pos (by omega)]
      rw [Nat.ofDigitChars_cons, Nat.mul_comm 10] at fits ⊢
      exact ih _ fits
  have value : Nat.ofDigitChars 10 (Number.digitsOf n) 0 = n := Nat.ofDigitChars_ten_toDigits
  rw [digits, all _ 0 (by rw [value]; exact fits), value]

theorem number?_integerText (n : Int) {rest : List Char} (ends : EndsNumber rest) :
    Raw.number? (Number.integerText n ++ rest) =
      some (⟨n < 0, digits n.natAbs, [], none⟩, rest) := by
  have whole : Raw.whole? (Number.digitsOf n.natAbs ++ rest) = some (digits n.natAbs, rest) :=
    (isWhole_digitsOf n.natAbs).whole?_append ends.stops
  by_cases negative : n < 0
  · rw [Number.integerText, if_pos negative, List.cons_append]
    simp [Raw.number?, whole, ends.fraction?, ends.exponent?, negative]
  · rw [Number.integerText, if_neg negative]
    have unsigned : ∀ more, Number.digitsOf n.natAbs ++ rest ≠ '-' :: more := by
      intro more starts
      obtain ⟨c, cs, front, isDigit⟩ := exists_digitsOf_eq_cons n.natAbs
      rw [front] at starts
      rw [(List.cons.inj starts).1] at isDigit
      exact absurd isDigit (by decide)
    simp [Raw.number?, whole, ends.fraction?, ends.exponent?, negative]

theorem Numeral.value?_digits {n : Int} (least : -(2 ^ 63) ≤ n) (bound : n < 2 ^ 64) :
    Numeral.value? ⟨n < 0, digits n.natAbs, [], none⟩ = some (.integer n) := by
  rw [Numeral.value?, accumulate_digits n.natAbs (by simp; omega)]
  by_cases negative : n < 0
  · have fits : 0 < n.natAbs ∧ n.natAbs ≤ Nat.pow 2 63 := ⟨by omega, by simp; omega⟩
    have magnitude : -(n.natAbs : Int) = n := by omega
    simpa [negative, fits] using magnitude
  · have magnitude : (n.natAbs : Int) = n := by omega
    simpa [negative] using magnitude

def ReadsBack (v : Value) : Prop :=
  ∃ raw : Raw, (∀ bound rest, EndsNumber rest →
    Raw.value? (bound + 1) (v.text ++ rest) = some (raw, rest)) ∧
    ∀ depth, raw.toValue? depth = some v

theorem readsBack_null : ReadsBack .null :=
  ⟨.null, fun _ _ _ => rfl, fun _ => rfl⟩

theorem readsBack_bool (b : Bool) : ReadsBack (.bool b) := by
  cases b
  · exact ⟨.bool false, fun _ _ _ => rfl, fun _ => rfl⟩
  · exact ⟨.bool true, fun _ _ _ => rfl, fun _ => rfl⟩

theorem value?_number {c : Char} (plain : c ∉ ['"', '[', '\x7b', 't', 'f', 'n']) (bound : Nat)
    (cs : List Char) : Raw.value? (bound + 1) (c :: cs) =
      (Raw.number? (c :: cs)).map fun (n, rest) => (.number n, rest) := by
  simp only [List.mem_cons, List.not_mem_nil, or_false, not_or] at plain
  obtain ⟨quote, bracket, brace, t, f, n⟩ := plain
  rw [Raw.value?, if_neg quote, if_neg bracket, if_neg brace, if_neg t, if_neg f, if_neg n]

theorem readsBack_string (s : String) : ReadsBack (.string s) := by
  refine ⟨.string (s.toList.map Char.toNat), fun bound rest _ => ?_, fun depth => ?_⟩
  · rw [Value.text, quote, List.cons_append, Raw.value?, if_pos rfl, List.append_assoc]
    exact congrArg (Option.map _) (units?_escaped s.toList rest)
  · rw [Raw.toValue?, string?_toNat]
    rfl

theorem plain_of_isAsciiDigit {c : Char} (isDigit : isAsciiDigit c = true) :
    c ∉ ['"', '[', '\x7b', 't', 'f', 'n'] := by
  intro member
  have none_ : (['"', '[', '\x7b', 't', 'f', 'n'].all fun d => !isAsciiDigit d) = true := rfl
  have other := List.all_eq_true.1 none_ c member
  rw [isDigit] at other
  cases other

theorem value?_integerText (n : Int) {rest : List Char} (ends : EndsNumber rest) (bound : Nat) :
    Raw.value? (bound + 1) (Number.integerText n ++ rest) =
      some (.number ⟨n < 0, digits n.natAbs, [], none⟩, rest) := by
  obtain ⟨c, cs, front, plain⟩ : ∃ c cs, Number.integerText n = c :: cs ∧
      c ∉ ['"', '[', '\x7b', 't', 'f', 'n'] := by
    rw [Number.integerText]
    split
    next => exact ⟨_, _, rfl, by decide⟩
    next =>
      obtain ⟨c, cs, front, isDigit⟩ := exists_digitsOf_eq_cons n.natAbs
      exact ⟨c, cs, front, plain_of_isAsciiDigit isDigit⟩
  have read := number?_integerText n ends
  rw [front, List.cons_append] at read ⊢
  rw [value?_number plain, read]
  rfl

theorem readsBack_integer {n : Int} (least : -(2 ^ 63) ≤ n) (bound : n < 2 ^ 64) :
    ReadsBack (.integer n) :=
  ⟨.number ⟨n < 0, digits n.natAbs, [], none⟩, fun levels _ ends => value?_integerText n ends levels,
    fun _ => Numeral.value?_digits least bound⟩

theorem value?_gap {c : Char} (isGap : Raw.isGap c = true) (bound : Nat) (cs : List Char) :
    Raw.value? (bound + 1) (c :: cs) = none := by
  simp only [Raw.isGap, Bool.or_eq_true, decide_eq_true_eq] at isGap
  rcases isGap with ((rfl | rfl) | rfl) | rfl <;> rfl

theorem ReadsBack.stops {v : Value} (back : ReadsBack v) (rest : List Char) :
    Stops Raw.isGap (v.text ++ rest) := by
  obtain ⟨raw, read, -⟩ := back
  have alone := read 0 [] (by simp [EndsNumber])
  rw [List.append_nil] at alone
  intro c first
  cases front : v.text with
  | nil =>
    rw [front] at alone
    cases alone
  | cons d ds =>
    rw [front] at alone first
    cases first
    rw [← Bool.not_eq_true]
    intro isGap
    rw [value?_gap isGap] at alone
    cases alone

theorem ReadsBack.read? {v : Value} (back : ReadsBack v) : Value.read? v.text = some v := by
  obtain ⟨raw, read, value⟩ := id back
  have alone := read v.text.length [] (by simp [EndsNumber])
  have front : Raw.skipGap (v.text ++ []) = v.text ++ [] :=
    dropWhile_append_of_stops (List.forall_mem_nil _) (back.stops [])
  rw [List.append_nil] at alone front
  rw [Value.read?, Raw.read?, front, alone]
  exact value depthLimit

end ComponentCompiler.Json
