import ComponentCompiler.Proofs.Json.Members
import ComponentCompiler.Proofs.Text.WholeWords
import Mathlib.Data.List.TakeWhile

namespace ComponentCompiler.Json

open Text (Stops dropWhile_append_of_stops isAsciiDigit stops_dropWhile takeWhile_append_of_stops)

/-! ## Numbers -/

/-- A reader takes its answer off the front of a text, where characters of `p` stand, and leaves
`rest`; it does the same when something follows that does not go on with a number. -/
structure Consumes {α : Type} (p : Char → Bool) (read : List Char → Option (α × List Char))
    (cs : List Char) (a : α) (rest : List Char) : Prop where
  taken : ∃ front, cs = front ++ rest ∧ ∀ c ∈ front, p c = true
  followed : ∀ more, EndsNumber more → read (cs ++ more) = some (a, rest ++ more)

def isNumeralChar (c : Char) : Bool :=
  isAsciiDigit c || c = '-' || c = '+' || c = '.' || c = 'e' || c = 'E'

section Numbers

variable {cs rest : List Char} {ds : List Nat}

theorem someDigits?_eq_some :
    Raw.someDigits? cs = some (ds, rest) ↔ Raw.takeDigits cs = (ds, rest) ∧ ds ≠ [] := by
  rw [Raw.someDigits?]
  cases Raw.takeDigits cs with
  | mk digits left =>
    cases digits with
    | nil => simp +contextual
    | cons d digits =>
      rw [Option.some.injEq, iff_self_and]
      rintro ⟨⟩
      exact List.cons_ne_nil d digits

theorem someDigits?_consumes (read : Raw.someDigits? cs = some (ds, rest)) :
    Consumes isNumeralChar Raw.someDigits? cs ds rest := by
  obtain ⟨took, some_⟩ := someDigits?_eq_some.1 read
  rw [Raw.takeDigits, Prod.mk.injEq] at took
  obtain ⟨rfl, rfl⟩ := took
  have isDigit : ∀ c ∈ cs.takeWhile isAsciiDigit, isAsciiDigit c = true :=
    List.all_eq_true.1 List.all_takeWhile
  refine ⟨⟨cs.takeWhile isAsciiDigit, List.takeWhile_append_dropWhile.symm, fun c member => ?_⟩,
    fun more ends => someDigits?_eq_some.2 ⟨?_, some_⟩⟩
  · simp [isNumeralChar, isDigit c member]
  · have stops : Stops isAsciiDigit (cs.dropWhile isAsciiDigit ++ more) := by
      have here := stops_dropWhile isAsciiDigit cs
      cases back : cs.dropWhile isAsciiDigit with
      | nil => exact ends.stops
      | cons c back =>
        rw [back] at here
        exact here
    have parts : cs ++ more = cs.takeWhile isAsciiDigit ++ (cs.dropWhile isAsciiDigit ++ more) := by
      rw [← List.append_assoc, List.takeWhile_append_dropWhile]
    rw [Raw.takeDigits, parts, takeWhile_append_of_stops isDigit stops,
      dropWhile_append_of_stops isDigit stops]

theorem whole?_consumes (read : Raw.whole? cs = some (ds, rest)) :
    Consumes isNumeralChar Raw.whole? cs ds rest := by
  rw [Raw.whole?] at read
  split at read
  next => cases read
  next several =>
    obtain ⟨taken, followed⟩ := someDigits?_consumes read
    refine ⟨taken, fun more ends => ?_⟩
    rw [Raw.whole?, followed more ends]
    split
    next found =>
      cases found
      exact absurd read (several _ _ _)
    next => rfl

theorem fraction?_consumes (read : Raw.fraction? cs = some (ds, rest)) :
    Consumes isNumeralChar Raw.fraction? cs ds rest := by
  rw [Raw.fraction?.eq_def] at read
  split at read
  next tail =>
    obtain ⟨⟨front, parts, chars⟩, followed⟩ := someDigits?_consumes read
    exact ⟨⟨'.' :: front, congrArg _ parts, List.forall_mem_cons.2 ⟨rfl, chars⟩⟩, followed⟩
  next pointless =>
    cases read
    refine ⟨⟨[], rfl, List.forall_mem_nil _⟩, fun more ends => ?_⟩
    rw [Raw.fraction?.eq_def]
    split
    next tail starts =>
      cases cs with
      | nil => exact absurd rfl (ends '.' (by rw [← List.nil_append more, starts]; rfl)).2.1
      | cons c cs => exact (pointless cs (congrArg (· :: cs) (List.cons.inj starts).1)).elim
    next => rfl

def exponentDigits? (negative : Bool) (cs : List Char) :
    Option (Option (Bool × List Nat) × List Char) :=
  (Raw.someDigits? cs).map fun (ds, rest) => (some (negative, ds), rest)

section Exponents

variable {e : Option (Bool × List Nat)}

theorem exponentDigits?_consumes {negative : Bool}
    (read : exponentDigits? negative cs = some (e, rest)) :
    Consumes isNumeralChar (exponentDigits? negative) cs e rest := by
  obtain ⟨⟨ds, left⟩, digits, same⟩ := Option.map_eq_some_iff.1 read
  cases same
  obtain ⟨taken, followed⟩ := someDigits?_consumes digits
  exact ⟨taken, fun more ends => by rw [exponentDigits?, followed more ends]; rfl⟩

theorem exponent?_plain {c : Char} (plain : c ≠ 'e' ∧ c ≠ 'E') (cs : List Char) :
    Raw.exponent? (c :: cs) = some (none, c :: cs) := by
  simp [Raw.exponent?, plain]

theorem exponent?_sign {c d : Char} (letter : c = 'e' ∨ c = 'E') (sign : d = '-' ∨ d = '+')
    (cs : List Char) : Raw.exponent? (c :: d :: cs) = exponentDigits? (d = '-') cs := by
  rcases letter with rfl | rfl <;> rcases sign with rfl | rfl <;> rfl

theorem exponent?_signless {c d : Char} (letter : c = 'e' ∨ c = 'E') (signless : d ≠ '-' ∧ d ≠ '+')
    (cs : List Char) : Raw.exponent? (c :: d :: cs) = exponentDigits? false (d :: cs) := by
  rw [Raw.exponent?, if_pos (by simpa using letter)]
  · rfl
  · exact fun more starts => signless.1 (List.cons.inj starts).1
  · exact fun more starts => signless.2 (List.cons.inj starts).1

theorem exponent?_consumes (read : Raw.exponent? cs = some (e, rest)) :
    Consumes isNumeralChar Raw.exponent? cs e rest := by
  match cs with
  | [] =>
    cases read
    refine ⟨⟨[], rfl, List.forall_mem_nil _⟩, fun more ends => ?_⟩
    cases more with
    | nil => rfl
    | cons c more => exact exponent?_plain (ends c rfl).2.2 more
  | c :: cs =>
    by_cases plain : c ≠ 'e' ∧ c ≠ 'E'
    · rw [exponent?_plain plain] at read
      cases read
      exact ⟨⟨[], rfl, List.forall_mem_nil _⟩, fun more _ => exponent?_plain plain (cs ++ more)⟩
    have letter : c = 'e' ∨ c = 'E' := by tauto
    have numeral : isNumeralChar c = true := by rcases letter with rfl | rfl <;> rfl
    match cs with
    | [] => rcases letter with rfl | rfl <;> cases read
    | d :: ds =>
      by_cases sign : d = '-' ∨ d = '+'
      · have sign_ : isNumeralChar d = true := by rcases sign with rfl | rfl <;> rfl
        rw [exponent?_sign letter sign] at read
        obtain ⟨⟨front, parts, chars⟩, followed⟩ := exponentDigits?_consumes read
        refine ⟨⟨c :: d :: front, by rw [parts]; rfl, by simpa [numeral, sign_] using chars⟩,
          fun more ends => (exponent?_sign letter sign _).trans (followed more ends)⟩
      · rw [not_or] at sign
        rw [exponent?_signless letter sign] at read
        obtain ⟨⟨front, parts, chars⟩, followed⟩ := exponentDigits?_consumes read
        exact ⟨⟨c :: front, by rw [parts]; rfl, List.forall_mem_cons.2 ⟨numeral, chars⟩⟩,
          fun more ends => (exponent?_signless letter sign _).trans (followed more ends)⟩

end Exponents

def unsigned? (negative : Bool) (cs : List Char) : Option (Numeral × List Char) := do
  let (whole, rest) ← Raw.whole? cs
  let (fraction, rest) ← Raw.fraction? rest
  let (exponent, rest) ← Raw.exponent? rest
  some (⟨negative, whole, fraction, exponent⟩, rest)

theorem unsigned?_consumes {negative : Bool} {n : Numeral}
    (read : unsigned? negative cs = some (n, rest)) :
    Consumes isNumeralChar (unsigned? negative) cs n rest := by
  simp only [unsigned?, Option.bind_eq_bind, Option.bind_eq_some_iff, Prod.exists] at read
  obtain ⟨whole, afterWhole, wholeRead, fraction, afterFraction, fractionRead, exponent, left,
    exponentRead, same⟩ := read
  cases same
  obtain ⟨⟨xs, rfl, wholeChars⟩, whole_⟩ := whole?_consumes wholeRead
  obtain ⟨⟨ys, rfl, fractionChars⟩, fraction_⟩ := fraction?_consumes fractionRead
  obtain ⟨⟨zs, rfl, exponentChars⟩, exponent_⟩ := exponent?_consumes exponentRead
  refine ⟨⟨xs ++ (ys ++ zs), by simp, ?_⟩, fun more ends => ?_⟩
  · exact List.forall_mem_append.2 ⟨wholeChars,
      List.forall_mem_append.2 ⟨fractionChars, exponentChars⟩⟩
  · simp only [unsigned?, whole_ more ends, fraction_ more ends, exponent_ more ends,
      Option.bind_eq_bind, Option.bind_some]

theorem number?_minus (cs : List Char) : Raw.number? ('-' :: cs) = unsigned? true cs :=
  rfl

theorem number?_cons {c : Char} (positive : c ≠ '-') (cs : List Char) :
    Raw.number? (c :: cs) = unsigned? false (c :: cs) := by
  rw [Raw.number?]
  · rfl
  · exact fun more starts => positive (List.cons.inj starts).1

theorem number?_consumes {n : Numeral} (read : Raw.number? cs = some (n, rest)) :
    Consumes isNumeralChar Raw.number? cs n rest := by
  cases cs with
  | nil => cases read
  | cons c cs =>
    by_cases minus : c = '-'
    · subst minus
      rw [number?_minus] at read
      obtain ⟨⟨front, parts, chars⟩, followed⟩ := unsigned?_consumes read
      exact ⟨⟨'-' :: front, congrArg _ parts, List.forall_mem_cons.2 ⟨rfl, chars⟩⟩,
        fun more ends => (number?_minus _).trans (followed more ends)⟩
    · rw [number?_cons minus] at read
      obtain ⟨taken, followed⟩ := unsigned?_consumes read
      exact ⟨taken, fun more ends => (number?_cons minus _).trans (followed more ends)⟩

end Numbers

/-! ## Strings -/

def IsRun (front : List Char) : Prop :=
  ∃ units, ∀ cs, Raw.units? (front ++ cs) =
    (Raw.units? cs).map fun (us, rest) => (units ++ us, rest)

theorem isRun_nil : IsRun [] :=
  ⟨[], fun cs => by simp⟩

theorem IsRun.append {xs ys : List Char} (first : IsRun xs) (second : IsRun ys) :
    IsRun (xs ++ ys) := by
  obtain ⟨units, goes⟩ := first
  obtain ⟨units', goes'⟩ := second
  refine ⟨units ++ units', fun cs => ?_⟩
  rw [List.append_assoc, goes, goes', Option.map_map]
  simp [Function.comp_def]

theorem IsRun.isSome_of_append {xs ys : List Char} (run : IsRun xs)
    (read : (Raw.units? (xs ++ ys)).isSome) : (Raw.units? ys).isSome := by
  obtain ⟨units, goes⟩ := run
  rwa [goes, Option.isSome_map] at read

theorem hexValue?_comma : Raw.hexValue? ',' = none := by decide

theorem isRun_unicode {a b c d : Char} {u v w x : Nat} (ha : Raw.hexValue? a = some u)
    (hb : Raw.hexValue? b = some v) (hc : Raw.hexValue? c = some w) (hd : Raw.hexValue? d = some x) :
    IsRun ['\\', 'u', a, b, c, d] := by
  refine ⟨[(u * 16 + v) * 256 + w * 16 + x], fun cs => ?_⟩
  cases read : Raw.units? cs <;> simp [Raw.units?, ha, hb, hc, hd, read]

theorem isRun_escape {e : Char} {unit : Nat} (escape : Raw.simpleEscape? e = some unit) :
    IsRun ['\\', e] := by
  have letter : e ≠ 'u' := by
    rintro rfl
    cases escape
  refine ⟨[unit], fun cs => ?_⟩
  cases read : Raw.units? cs <;> simp [Raw.units?, letter, escape, read]

theorem isRun_plain {c : Char} (visible : 32 ≤ c.toNat) (quote : c ≠ '"') (backslash : c ≠ '\\') :
    IsRun [c] := by
  have plain : ¬c.toNat < 32 := by omega
  refine ⟨[c.toNat], fun cs => ?_⟩
  cases read : Raw.units? cs <;> simp [Raw.units?, backslash, plain, read]

/-- The inside of a string up to its closing quote, unit by unit; a comma is a unit of its own. -/
inductive Closes (rest : List Char) : List Char → Prop
  | quote : Closes rest ('"' :: rest)
  | unit {front cs : List Char} (run : IsRun front) (comma : front = [','] ∨ ',' ∉ front)
      (closes : Closes rest cs) : Closes rest (front ++ cs)

theorem closes_of_units? {cs rest : List Char} {us : List Nat}
    (read : Raw.units? cs = some (us, rest)) : Closes rest cs := by
  fun_induction Raw.units? cs generalizing us with
  | case1 => cases read
  | case2 cs =>
    cases read
    exact .quote
  | case3 a b c d cs ih =>
    simp only [Option.bind_eq_bind, Option.bind_eq_some_iff, Prod.exists] at read
    obtain ⟨u, ha, v, hb, w, hc, x, hd, units, left, inside, same⟩ := read
    cases same
    have digit {c : Char} {n : Nat} (value : Raw.hexValue? c = some n) : ',' ≠ c := by
      rintro rfl
      cases hexValue?_comma.symm.trans value
    have plain : ',' ∉ ['\\', 'u', a, b, c, d] := by
      simp [digit ha, digit hb, digit hc, digit hd]
    exact .unit (isRun_unicode ha hb hc hd) (.inr plain) (ih inside)
  | case4 e cs longer ih =>
    simp only [Option.bind_eq_bind, Option.bind_eq_some_iff, Prod.exists] at read
    obtain ⟨unit, escape, units, left, inside, same⟩ := read
    cases same
    have plain : ',' ∉ ['\\', e] := by
      have letter : ',' ≠ e := by
        rintro rfl
        cases escape
      simp [letter]
    exact .unit (isRun_escape escape) (.inr plain) (ih inside)
  | case5 => cases read
  | case6 c cs quote longer escape plain ih =>
    simp only [Option.bind_eq_bind, Option.bind_eq_some_iff, Prod.exists] at read
    obtain ⟨units, left, inside, same⟩ := read
    cases same
    simp only [Bool.or_eq_true, decide_eq_true_eq, not_or] at plain
    have single : [c] = [','] ∨ ',' ∉ [c] := by
      by_cases comma : c = ','
      · exact .inl (by rw [comma])
      · exact .inr (by simpa using Ne.symm comma)
    exact .unit (isRun_plain (by omega) quote plain.2) single (ih inside)

theorem units?_append {cs rest : List Char} {us : List Nat}
    (read : Raw.units? cs = some (us, rest)) (more : List Char) :
    Raw.units? (cs ++ more) = some (us, rest ++ more) := by
  have closed : ∃ units, ∀ more, Raw.units? (cs ++ more) = some (units, rest ++ more) := by
    have closes := closes_of_units? read
    clear read
    induction closes with
    | quote => exact ⟨[], fun _ => rfl⟩
    | unit run _ _ ih =>
      obtain ⟨units, goes⟩ := run
      obtain ⟨later, reads⟩ := ih
      exact ⟨units ++ later, fun more => by rw [List.append_assoc, goes, reads]; rfl⟩
  obtain ⟨units, reads⟩ := closed
  have alone := reads []
  rw [List.append_nil, List.append_nil, read] at alone
  cases alone
  exact reads more

theorem isRun_of_comma {cs xs ys rest : List Char} (closes : Closes rest cs) (closed : ',' ∉ rest)
    (parts : cs = xs ++ ',' :: ys) : IsRun xs := by
  induction closes generalizing xs with
  | quote =>
    cases xs with
    | nil => cases parts
    | cons x xs =>
      obtain ⟨-, rfl⟩ := List.cons.inj parts
      simp at closed
  | @unit front cs run comma _ ih =>
    rcases List.append_eq_append_iff.1 parts with ⟨left, rfl, more⟩ | ⟨left, rfl, more⟩
    · exact run.append (ih more)
    · -- The comma is in the unit itself, so it is the unit.
      cases left with
      | nil => simpa using run
      | cons d left =>
        obtain ⟨rfl, -⟩ := List.cons.inj more
        have alone := comma.resolve_right (by simp)
        have none_ : xs = [] := by
          cases xs with
          | nil => rfl
          | cons x xs => simp at alone
        rw [none_]
        exact isRun_nil

theorem isRun_blank {gap ys : List Char} (blank : ∀ c ∈ gap, Text.isBlank c = true)
    (read : (Raw.units? (gap ++ ys)).isSome) : IsRun gap := by
  induction gap with
  | nil => exact isRun_nil
  | cons c gap ih =>
    obtain ⟨here, later⟩ := List.forall_mem_cons.1 blank
    have quote : c ≠ '"' := Text.ne_of_holds here (by decide)
    have backslash : c ≠ '\\' := Text.ne_of_holds here (by decide)
    have visible : 32 ≤ c.toNat := by
      by_contra control
      simp [Raw.units?, backslash, show c.toNat < 32 by omega] at read
    have run := isRun_plain visible quote backslash
    exact run.append (ih later (run.isSome_of_append read))

theorem isRun_comma_blank {xs gap ys rest : List Char} {us : List Nat}
    (read : Raw.units? (xs ++ ',' :: (gap ++ ys)) = some (us, rest)) (closed : ',' ∉ rest)
    (blank : ∀ c ∈ gap, Text.isBlank c = true) : IsRun (xs ++ ',' :: gap) := by
  have before := isRun_of_comma (closes_of_units? read) closed rfl
  have comma : IsRun [','] := isRun_plain (by decide) (by decide) (by decide)
  have later := comma.isSome_of_append (before.isSome_of_append (Option.isSome_of_eq_some read))
  exact before.append (comma.append (isRun_blank blank later))

/-! ## Values -/

def Value.isScalar : Value → Bool
  | .array _ => false
  | .object _ => false
  | _ => true

def Raw.isScalar : Raw → Bool
  | .array _ => false
  | .object _ => false
  | _ => true

theorem toValue?_scalar {raw : Raw} {depth : Nat} {v : Value} (value : raw.toValue? depth = some v)
    (scalar : v.isScalar = true) :
    raw.isScalar = true ∧ ∀ depth, raw.toValue? depth = some v := by
  cases raw with
  | null => exact ⟨rfl, fun _ => value⟩
  | bool b => exact ⟨rfl, fun _ => value⟩
  | number n => exact ⟨rfl, fun _ => value⟩
  | string units => exact ⟨rfl, fun _ => value⟩
  | array items =>
    rw [Raw.toValue?] at value
    split at value
    next => cases value
    next =>
      obtain ⟨_, -, rfl⟩ := Option.map_eq_some_iff.1 value
      cases scalar
  | object members =>
    rw [Raw.toValue?] at value
    split at value
    next => cases value
    next =>
      obtain ⟨_, -, rfl⟩ := Option.map_eq_some_iff.1 value
      cases scalar

theorem Consumes.imp {α : Type} {p q : Char → Bool} {read : List Char → Option (α × List Char)}
    {cs : List Char} {a : α} {rest : List Char} (weaker : ∀ c, p c = true → q c = true)
    (consumes : Consumes p read cs a rest) : Consumes q read cs a rest := by
  obtain ⟨⟨front, parts, chars⟩, followed⟩ := consumes
  exact ⟨⟨front, parts, fun c member => weaker c (chars c member)⟩, followed⟩

def isCommaFree (c : Char) : Bool :=
  c ≠ ','

section Values

variable {c : Char} {cs rest word : List Char} {raw : Raw}

theorem word_consumes {read : List Char → Option (Raw × List Char)} {named : Raw}
    (reads : ∀ cs, read (c :: cs) = (Text.after? word cs).map fun rest => (named, rest))
    (solid : ∀ d ∈ c :: word, isCommaFree d = true) (found : read (c :: cs) = some (raw, rest)) :
    Consumes isCommaFree read (c :: cs) raw rest := by
  rw [reads, Option.map_eq_some_iff] at found
  obtain ⟨left, after, same⟩ := found
  cases same
  obtain rfl := Text.after?_eq_some.1 after
  refine ⟨⟨c :: word, rfl, solid⟩, fun more _ => ?_⟩
  rw [List.cons_append, reads, Text.after?_eq_some.2 (List.append_assoc word rest more)]
  rfl

theorem value?_consumes {bound : Nat} (quote : c ≠ '"') (scalar : raw.isScalar = true)
    (read : Raw.value? (bound + 1) (c :: cs) = some (raw, rest)) (levels : Nat) :
    Consumes isCommaFree (Raw.value? (levels + 1)) (c :: cs) raw rest := by
  rw [Raw.value?, if_neg quote] at read
  split at read
  next =>
    obtain ⟨_, -, same⟩ := Option.map_eq_some_iff.1 read
    cases same
    cases scalar
  next bracket =>
  split at read
  next =>
    obtain ⟨_, -, same⟩ := Option.map_eq_some_iff.1 read
    cases same
    cases scalar
  next brace =>
  split at read
  next t =>
    subst t
    exact word_consumes (fun _ => rfl) (List.all_eq_true.1 (by decide)) read
  next t =>
  split at read
  next f =>
    subst f
    exact word_consumes (fun _ => rfl) (List.all_eq_true.1 (by decide)) read
  next f =>
  split at read
  next n =>
    subst n
    exact word_consumes (fun _ => rfl) (List.all_eq_true.1 (by decide)) read
  next n =>
    obtain ⟨⟨numeral, left⟩, number, same⟩ := Option.map_eq_some_iff.1 read
    cases same
    have plain : c ∉ ['"', '[', '\x7b', 't', 'f', 'n'] := by
      simp [quote, bracket, brace, t, f, n]
    have commaFree : ∀ c, isNumeralChar c = true → isCommaFree c = true := fun c numeral =>
      decide_eq_true (Text.ne_of_holds numeral (by decide))
    obtain ⟨taken, followed⟩ := (number?_consumes number).imp commaFree
    refine ⟨taken, fun more ends => ?_⟩
    rw [List.cons_append, value?_number plain, ← List.cons_append, followed more ends]
    rfl

theorem value?_string (bound : Nat) (cs : List Char) : Raw.value? (bound + 1) ('"' :: cs) =
    (Raw.units? cs).map fun (units, rest) => (.string units, rest) :=
  rfl

theorem value?_append {bound : Nat} (scalar : raw.isScalar = true)
    (read : Raw.value? (bound + 1) (c :: cs) = some (raw, rest)) (levels : Nat) {more : List Char}
    (ends : EndsNumber more) :
    Raw.value? (levels + 1) (c :: (cs ++ more)) = some (raw, rest ++ more) := by
  by_cases quote : c = '"'
  · subst quote
    obtain ⟨⟨units, left⟩, string, same⟩ := Option.map_eq_some_iff.1 read
    cases same
    rw [value?_string, units?_append string]
    rfl
  · exact (value?_consumes quote scalar read levels).followed more ends

end Values

/-! ## Texts -/

section Texts

variable {text : List Char} {v : Value}

theorem exists_form_of_read? (read : Value.read? text = some v) (scalar : v.isScalar = true) :
    ∃ lead c cs bound raw gap, text = lead ++ c :: cs ∧ (∀ c ∈ lead, Raw.isGap c = true) ∧
      Raw.isGap c = false ∧ Raw.value? (bound + 1) (c :: cs) = some (raw, gap) ∧
      (∀ c ∈ gap, Raw.isGap c = true) ∧ raw.isScalar = true ∧
      ∀ depth, raw.toValue? depth = some v := by
  obtain ⟨raw, form, value⟩ := Option.bind_eq_some_iff.1 read
  obtain ⟨isScalar, value⟩ := toValue?_scalar value scalar
  rw [Raw.read?] at form
  split at form
  next raw' gap found =>
    split at form
    next blank =>
      cases form
      have front := stops_dropWhile Raw.isGap text
      have parts : text = text.takeWhile Raw.isGap ++ Raw.skipGap text :=
        List.takeWhile_append_dropWhile.symm
      cases body : Raw.skipGap text with
      | nil =>
        rw [body] at found
        cases found
      | cons c cs =>
        rw [body] at found parts
        rw [Raw.skipGap] at body
        rw [body] at front
        rw [List.isEmpty_iff, Raw.skipGap, List.dropWhile_eq_nil_iff] at blank
        exact ⟨_, c, cs, _, raw, gap, parts, List.all_eq_true.1 List.all_takeWhile, front c rfl,
          found, blank, isScalar, value⟩
    next => cases form
  next => cases form

theorem readsAs_of_read? (read : Value.read? text = some v) (scalar : v.isScalar = true) :
    ReadsAs text v := by
  obtain ⟨lead, c, cs, bound, raw, gap, rfl, leads, apart, form, gaps, isScalar, value⟩ :=
    exists_form_of_read? read scalar
  refine ⟨raw, gap, gaps, fun levels more ends => ?_, value⟩
  rw [List.append_assoc, skipGap_append leads, List.cons_append, skipGap_cons apart]
  exact value?_append isScalar form levels ends

theorem breaks_of_quote (read : Value.read? text = some v) (scalar : v.isScalar = true)
    {xs gap ys zs : List Char} {k : Char} (parts : text = xs ++ ',' :: (gap ++ ys))
    (blank : ∀ c ∈ gap, Text.isBlank c = true)
    (start : Raw.isGap k = false ∧ k ≠ ',' ∧ k ≠ '\x7d') :
    Breaks (xs ++ ',' :: (gap ++ '"' :: k :: zs)) := by
  obtain ⟨lead, c, cs, bound, raw, left, rfl, leads, apart, form, lefts, isScalar, -⟩ :=
    exists_form_of_read? read scalar
  have closed : ',' ∉ left := fun member => absurd (lefts ',' member) (by decide)
  by_cases quote : c = '"'
  · subst quote
    have outside : ',' ∉ lead ++ ['"'] := by
      rw [List.mem_append, not_or]
      exact ⟨fun member => absurd (leads ',' member) (by decide), by decide⟩
    have cut : xs ++ ',' :: (gap ++ ys) = (lead ++ ['"']) ++ cs := by
      rw [← parts, List.append_assoc, List.singleton_append]
    obtain ⟨inside, rfl, rfl⟩ := Text.exists_of_append_cons_eq_append outside cut
    rw [value?_string, Option.map_eq_some_iff] at form
    obtain ⟨⟨units, left'⟩, string, same⟩ := form
    cases same
    obtain ⟨before, goes⟩ := isRun_comma_blank string closed blank
    refine ⟨.string before, k, zs, start.1, start.2.1, start.2.2, fun levels more => ?_⟩
    have front : Raw.skipGap (lead ++ ['"'] ++ inside ++ ',' :: (gap ++ '"' :: k :: zs) ++ more) =
        '"' :: (inside ++ ',' :: gap ++ '"' :: k :: (zs ++ more)) := by
      simp only [List.append_assoc]
      rw [skipGap_append leads]
      simp [skipGap_cons apart]
    rw [front, value?_string, goes]
    simp [Raw.units?]
  · -- Only a string has a comma that a quote could be put after.
    obtain ⟨⟨front, parts', chars⟩, -⟩ := value?_consumes quote isScalar form bound
    have absent : ',' ∉ lead ++ (front ++ left) := by
      simp only [List.mem_append, not_or]
      exact ⟨fun member => absurd (leads ',' member) (by decide),
        fun member => absurd (chars ',' member) (by decide), closed⟩
    rw [← parts', parts] at absent
    simp at absent

end Texts

end ComponentCompiler.Json
