import ComponentCompiler.Text.Lowercase
import ComponentCompiler.Proofs.Text.Words
import Mathlib.Data.List.Basic

namespace ComponentCompiler.Text

structure Run where
  first : Nat
  last : Nat
  step : Nat

namespace Run

def Holds (r : Run) (code : Nat) : Prop :=
  r.first ≤ code ∧ code ≤ r.last ∧ (code - r.first) % r.step = 0

def isSparse (r : Run) : Bool :=
  Nat.beq r.step 2 || Nat.beq r.first r.last

def isApart (r s : Run) : Bool :=
  Nat.blt r.last s.first || Nat.blt s.last r.first ||
    (r.isSparse && s.isSparse && Nat.beq ((r.first + s.first) % 2) 1)

theorem Holds.parity {r : Run} {code : Nat} (holds : r.Holds code) (sparse : r.isSparse = true) :
    code % 2 = r.first % 2 := by
  obtain ⟨lower, upper, steps⟩ := holds
  simp only [isSparse, Bool.or_eq_true, Nat.beq_eq] at sparse
  rcases sparse with two | one
  · rw [two] at steps
    omega
  · omega

theorem Holds.not_of_isApart {r s : Run} {code : Nat} (holds : r.Holds code)
    (apart : r.isApart s = true) : ¬s.Holds code := by
  intro other
  simp only [isApart, Bool.or_eq_true, Bool.and_eq_true, Nat.blt_eq, Nat.beq_eq] at apart
  rcases apart with (before | after) | ⟨⟨sparse, sparse'⟩, turns⟩
  · exact absurd (Nat.le_trans other.1 holds.2.1) (by omega)
  · exact absurd (Nat.le_trans holds.1 other.2.1) (by omega)
  · have parity := holds.parity sparse
    have parity' := other.parity sparse'
    omega

end Run

def capitalRuns : List Run :=
  ⟨0x41, 0x5a, 1⟩ :: lowercaseShifts.map fun (first, last, step, _) => ⟨first, last, step⟩

def imageRuns : List Run :=
  ⟨0x61, 0x7a, 1⟩ :: lowercaseShifts.map fun (first, last, step, shift) =>
    ⟨(first + shift).toNat, (first + shift).toNat + (last - first), step⟩

def reservedRuns : List Run := [
  ⟨9, 13, 1⟩, ⟨0x20, 0x20, 1⟩, ⟨0x85, 0x85, 1⟩, ⟨0xA0, 0xA0, 1⟩, ⟨0x130, 0x130, 1⟩,
  ⟨0x1680, 0x1680, 1⟩, ⟨0x2000, 0x200A, 1⟩, ⟨0x2028, 0x2029, 1⟩, ⟨0x202F, 0x202F, 1⟩,
  ⟨0x205F, 0x205F, 1⟩, ⟨0x3000, 0x3000, 1⟩, ⟨0xD800, 0xDFFF, 1⟩]

theorem shifts_nonneg : ∀ e ∈ lowercaseShifts, 0 ≤ (e.1 : Int) + e.2.2.2 := by
  decide +kernel

theorem imageRuns_valid : ∀ r ∈ imageRuns, r.last < 0x110000 := by
  decide +kernel

theorem imageRuns_apart :
    imageRuns.all (fun r => (reservedRuns ++ capitalRuns).all r.isApart) = true := by
  decide +kernel

theorem not_holds_of_image {r s : Run} {code : Nat} (image : r ∈ imageRuns) (holds : r.Holds code)
    (other : s ∈ reservedRuns ∨ s ∈ capitalRuns) : ¬s.Holds code :=
  holds.not_of_isApart
    (List.all_eq_true.1 (List.all_eq_true.1 imageRuns_apart r image) s (List.mem_append.2 other))

def IsLower (c : Char) : Prop :=
  lower c = c ∧ c.toNat ≠ 0x130

theorem IsLower.ne_sigma {c : Char} (isLower : IsLower c) : c.toNat ≠ 0x3A3 := by
  intro sigma
  have image : lower (Char.ofNat 0x3A3) ≠ Char.ofNat 0x3A3 := by decide +kernel
  rw [← Char.ofNat_toNat c, sigma] at isLower
  exact image isLower.1

theorem toNat_asciiLower {c : Char} (capital : ('A' ≤ c && c ≤ 'Z') = true) :
    (asciiLower c).toNat = c.toNat + 32 := by
  have bounds : 65 ≤ c.toNat ∧ c.toNat ≤ 90 := by
    simpa [Char.le_def, UInt32.le_iff_toNat_le] using capital
  rw [asciiLower, if_pos capital, Char.ofNat, dif_pos (.inl (by omega))]
  rfl

theorem exists_image {first last step code : Nat} {shift : Int}
    (member : (first, last, step, shift) ∈ lowercaseShifts)
    (holds : (⟨first, last, step⟩ : Run).Holds code) :
    ∃ r ∈ imageRuns, r.Holds (code + shift).toNat := by
  obtain ⟨lower, upper, steps⟩ := holds
  have positive := shifts_nonneg _ member
  dsimp only at lower upper steps positive
  have moved : (code + shift).toNat = (first + shift).toNat + (code - first) := by omega
  refine ⟨_, List.mem_cons_of_mem _ (List.mem_map_of_mem member), ?_⟩
  rw [moved]
  refine ⟨by dsimp only; omega, by dsimp only; omega, ?_⟩
  dsimp only
  rw [Nat.add_sub_cancel_left, steps]

theorem isValidChar_of_image {r : Run} {code : Nat} (image : r ∈ imageRuns)
    (holds : r.Holds code) : code.isValidChar := by
  have surrogate : ¬(⟨0xD800, 0xDFFF, 1⟩ : Run).Holds code :=
    not_holds_of_image image holds (.inl (by simp [reservedRuns]))
  have last := imageRuns_valid r image
  have upper := holds.2.1
  simp only [Run.Holds, Nat.mod_one, and_true, not_and, Nat.not_le] at surrogate
  simp only [Nat.isValidChar]
  omega

theorem lower_cases (c : Char) :
    lower c = c ∨
      (∃ r ∈ capitalRuns, r.Holds c.toNat) ∧ ∃ r ∈ imageRuns, r.Holds (lower c).toNat := by
  rw [lower]
  split
  · cases capital : ('A' ≤ c && c ≤ 'Z') with
    | false =>
      refine .inl ?_
      rw [asciiLower, capital]
      rfl
    | true =>
      have bounds : 65 ≤ c.toNat ∧ c.toNat ≤ 90 := by
        simpa [Char.le_def, UInt32.le_iff_toNat_le] using capital
      refine .inr ⟨⟨_, List.mem_cons_self, bounds.1, bounds.2, Nat.mod_one _⟩,
        ⟨_, List.mem_cons_self, ?_⟩⟩
      rw [toNat_asciiLower capital]
      exact ⟨by dsimp only; omega, by dsimp only; omega, Nat.mod_one _⟩
  · dsimp only
    split
    next first last step shift found =>
      have member := List.mem_of_find?_eq_some found
      have inside := List.find?_some found
      simp only [Bool.and_eq_true, decide_eq_true_eq] at inside
      have capital : (⟨first, last, step⟩ : Run).Holds c.toNat :=
        ⟨inside.1.1, inside.1.2, inside.2⟩
      obtain ⟨r, image, holds⟩ := exists_image member capital
      refine .inr ⟨⟨_, List.mem_cons_of_mem _ (List.mem_map_of_mem member), capital⟩, r, image, ?_⟩
      rw [Char.ofNat, dif_pos (isValidChar_of_image image holds)]
      exact holds
    next => exact .inl rfl

theorem lower_of_not_capital {c : Char} (small : ∀ r ∈ capitalRuns, ¬r.Holds c.toNat) :
    lower c = c := by
  rcases lower_cases c with same | ⟨⟨r, capital, holds⟩, -⟩
  · exact same
  · exact absurd holds (small r capital)

theorem isLower_of_image {c : Char} {r : Run} (image : r ∈ imageRuns) (holds : r.Holds c.toNat) :
    IsLower c := by
  refine ⟨lower_of_not_capital fun s capital => not_holds_of_image image holds (.inr capital),
    fun dotted => ?_⟩
  refine not_holds_of_image image holds (s := ⟨0x130, 0x130, 1⟩) (.inl (by simp [reservedRuns])) ?_
  rw [dotted]
  exact ⟨Nat.le_refl _, Nat.le_refl _, Nat.mod_one _⟩

theorem isLower_lower {c : Char} (undotted : c.toNat ≠ 0x130) : IsLower (lower c) := by
  rcases lower_cases c with same | ⟨-, r, image, holds⟩
  · exact ⟨by rw [same, same], by rwa [same]⟩
  · exact isLower_of_image image holds

theorem isBlank_lower {c : Char} (solid : isBlank c = false) : isBlank (lower c) = false := by
  rcases lower_cases c with same | ⟨-, r, image, holds⟩
  · rwa [same]
  · have reserved : ∀ s ∈ reservedRuns, ¬s.Holds (lower c).toNat := fun s member =>
      not_holds_of_image image holds (.inl member)
    simp only [reservedRuns, List.forall_mem_cons, Run.Holds, Nat.mod_one, and_true] at reserved
    simp only [isBlank, Bool.or_eq_false_iff, Bool.and_eq_false_iff, decide_eq_false_iff_not]
    omega

def lowerBetween (before : List Char) (c : Char) (after : List Char) : List Char :=
  if c.toNat = 0x3A3 then
    [if meetsCased before && !meetsCased after then Char.ofNat 0x3C2 else Char.ofNat 0x3C3]
  else if c.toNat = 0x130 then ['i', Char.ofNat 0x307]
  else [lower c]

theorem lowercaseFrom_cons (before : List Char) (c : Char) (cs : List Char) :
    lowercaseFrom before (c :: cs) =
      lowerBetween before c cs ++ lowercaseFrom (c :: before) cs := rfl

def specialImages : List Char :=
  [Char.ofNat 0x3C2, Char.ofNat 0x3C3, 'i', Char.ofNat 0x307]

theorem specialImages_all :
    specialImages.all (fun d => lower d == d && d.toNat != 0x130 && !isBlank d) = true := by
  decide +kernel

theorem of_mem_specialImages {d : Char} (member : d ∈ specialImages) :
    IsLower d ∧ isBlank d = false := by
  have holds := List.all_eq_true.1 specialImages_all d member
  simpa [IsLower] using holds

section Between

variable {before after : List Char} {c d : Char}

theorem lowerBetween_of_isLower (isLower : IsLower c) : lowerBetween before c after = [c] := by
  rw [lowerBetween, if_neg isLower.ne_sigma, if_neg isLower.2, isLower.1]

theorem mem_lowerBetween (member : d ∈ lowerBetween before c after) :
    d ∈ specialImages ∨ c.toNat ≠ 0x130 ∧ d = lower c := by
  rw [lowerBetween] at member
  split at member
  · refine .inl ?_
    split at member <;> simp [specialImages, List.mem_singleton.1 member]
  · split at member
    · exact .inl (List.mem_of_mem_drop (i := 2) member)
    · next undotted => exact .inr ⟨undotted, List.mem_singleton.1 member⟩

theorem isLower_of_mem_lowerBetween (member : d ∈ lowerBetween before c after) : IsLower d := by
  rcases mem_lowerBetween member with special | ⟨undotted, rfl⟩
  · exact (of_mem_specialImages special).1
  · exact isLower_lower undotted

theorem isBlank_of_mem_lowerBetween (solid : isBlank c = false)
    (member : d ∈ lowerBetween before c after) : isBlank d = false := by
  rcases mem_lowerBetween member with special | ⟨-, rfl⟩
  · exact (of_mem_specialImages special).2
  · exact isBlank_lower solid

theorem length_lowerBetween (before before' after after' : List Char) (c : Char) :
    (lowerBetween before c after).length = (lowerBetween before' c after').length := by
  simp only [lowerBetween]
  split
  · rfl
  · split <;> rfl

theorem lowerBetween_ne_nil : lowerBetween before c after ≠ [] := by
  rw [lowerBetween]
  split
  · exact List.cons_ne_nil _ _
  · split <;> exact List.cons_ne_nil _ _

end Between

theorem isLower_of_mem_lowercaseFrom {before cs : List Char} {d : Char}
    (member : d ∈ lowercaseFrom before cs) : IsLower d := by
  induction cs generalizing before with
  | nil => cases member
  | cons c cs ih =>
    rw [lowercaseFrom_cons, List.mem_append] at member
    exact member.elim isLower_of_mem_lowerBetween ih

theorem lowercaseFrom_of_isLower {cs : List Char} (isLower : ∀ c ∈ cs, IsLower c)
    (before : List Char) : lowercaseFrom before cs = cs := by
  induction cs generalizing before with
  | nil => rfl
  | cons c cs ih =>
    rw [List.forall_mem_cons] at isLower
    rw [lowercaseFrom_cons, lowerBetween_of_isLower isLower.1, ih isLower.2]
    rfl

theorem lowercaseFrom_eq_self_iff {before cs : List Char} :
    lowercaseFrom before cs = cs ↔ ∀ c ∈ cs, IsLower c :=
  ⟨fun same _ member => isLower_of_mem_lowercaseFrom (same.symm ▸ member),
    fun isLower => lowercaseFrom_of_isLower isLower before⟩

theorem length_le_lowercaseFrom (before cs : List Char) :
    cs.length ≤ (lowercaseFrom before cs).length := by
  induction cs generalizing before with
  | nil => exact Nat.zero_le _
  | cons c cs ih =>
    have here : 0 < (lowerBetween before c cs).length := List.length_pos_iff.2 lowerBetween_ne_nil
    have rest := ih (c :: before)
    rw [lowercaseFrom_cons, List.length_append, List.length_cons]
    omega

/-- The lower case of a text, with `before` passed already and `after` still to come. -/
def lowercaseWithin (before : List Char) : List Char → List Char → List Char
  | [], _ => []
  | c :: cs, after => lowerBetween before c (cs ++ after) ++ lowercaseWithin (c :: before) cs after

theorem lowercaseFrom_append (before xs ys : List Char) :
    lowercaseFrom before (xs ++ ys) =
      lowercaseWithin before xs ys ++ lowercaseFrom (xs.reverse ++ before) ys := by
  induction xs generalizing before with
  | nil => rfl
  | cons x xs ih =>
    rw [List.cons_append, lowercaseFrom_cons, ih, lowercaseWithin, List.append_assoc,
      List.reverse_cons, List.append_assoc, List.singleton_append]

theorem length_lowercaseWithin (before xs ys : List Char) :
    (lowercaseWithin before xs ys).length = (lowercaseFrom before xs).length := by
  induction xs generalizing before with
  | nil => rfl
  | cons x xs ih =>
    rw [lowercaseWithin, lowercaseFrom_cons, List.length_append, List.length_append, ih,
      length_lowerBetween]

theorem meetsCased_append (xs ys : List Char) :
    meetsCased (xs ++ ys) = if xs.all isCaseIgnorable then meetsCased ys else meetsCased xs := by
  induction xs with
  | nil => rfl
  | cons x xs ih =>
    cases ignorable : isCaseIgnorable x with
    | true =>
      have step : ∀ zs, meetsCased (x :: zs) = meetsCased zs := fun zs => by
        rw [meetsCased, List.dropWhile_cons_of_pos ignorable, meetsCased]
      rw [List.cons_append, step, step, ih, List.all_cons, ignorable, Bool.true_and]
    | false =>
      have stop : ∀ zs, meetsCased (x :: zs) = isCased x := fun zs => by
        rw [meetsCased, List.dropWhile_cons_of_neg (by simp [ignorable])]
      rw [List.cons_append, stop, stop, List.all_cons, ignorable]
      rfl

/-- A text with a capital sigma after a letter and nothing behind it that counts as its word:
it stands at the end of a word unless a letter follows the text. -/
def EndsInSigma (before cs : List Char) : Prop :=
  ∃ front back, cs = front ++ Char.ofNat 0x3A3 :: back ∧
    meetsCased (front.reverse ++ before) = true ∧ back.all isCaseIgnorable = true

theorem endsInSigma_cons {before cs : List Char} {c : Char} :
    EndsInSigma before (c :: cs) ↔
      (c.toNat = 0x3A3 ∧ meetsCased before = true ∧ cs.all isCaseIgnorable = true) ∨
        EndsInSigma (c :: before) cs := by
  constructor
  · rintro ⟨_ | ⟨d, front⟩, back, parts, cased, ignorable⟩
    · obtain ⟨rfl, rfl⟩ := List.cons.inj parts
      exact .inl ⟨by decide, cased, ignorable⟩
    · obtain ⟨rfl, rfl⟩ := List.cons.inj parts
      exact .inr ⟨front, back, rfl, by simpa using cased, ignorable⟩
  · rintro (⟨sigma, cased, ignorable⟩ | ⟨front, back, rfl, cased, ignorable⟩)
    · exact ⟨[], cs, by rw [← sigma, Char.ofNat_toNat]; rfl, cased, ignorable⟩
    · exact ⟨c :: front, back, rfl, by simpa using cased, ignorable⟩

theorem lowerBetween_append_eq_iff {before xs ys : List Char} {c : Char} :
    lowerBetween before c (xs ++ ys) = lowerBetween before c xs ↔
      ¬(meetsCased ys = true ∧
        c.toNat = 0x3A3 ∧ meetsCased before = true ∧ xs.all isCaseIgnorable = true) := by
  by_cases sigma : c.toNat = 0x3A3
  · have alone (ignorable : xs.all isCaseIgnorable = true) : meetsCased xs = false := by
      have rest := meetsCased_append xs []
      rwa [List.append_nil, if_pos ignorable] at rest
    have differ : Char.ofNat 0x3C2 ≠ Char.ofNat 0x3C3 := by decide
    rw [lowerBetween, lowerBetween, if_pos sigma, if_pos sigma, meetsCased_append]
    cases ignorable : xs.all isCaseIgnorable with
    | false => simp
    | true =>
      rw [if_pos rfl, alone ignorable]
      cases meetsCased before <;> cases meetsCased ys <;> simp [sigma, differ.symm]
  · rw [lowerBetween, lowerBetween, if_neg sigma, if_neg sigma]
    simp [sigma]

theorem lowercaseWithin_eq_iff {before xs ys : List Char} :
    lowercaseWithin before xs ys = lowercaseFrom before xs ↔
      ¬(meetsCased ys = true ∧ EndsInSigma before xs) := by
  induction xs generalizing before with
  | nil => simp [lowercaseWithin, lowercaseFrom, EndsInSigma]
  | cons x xs ih =>
    have parts : lowercaseWithin before (x :: xs) ys = lowercaseFrom before (x :: xs) ↔
        lowerBetween before x (xs ++ ys) = lowerBetween before x xs ∧
          lowercaseWithin (x :: before) xs ys = lowercaseFrom (x :: before) xs := by
      rw [lowercaseWithin, lowercaseFrom_cons]
      exact ⟨fun same => List.append_inj same (length_lowerBetween ..), fun ⟨first, rest⟩ => by
        rw [first, rest]⟩
    -- Each character has as many images either way, so the images agree one by one.
    rw [parts, lowerBetween_append_eq_iff, ih, endsInSigma_cons]
    tauto

theorem trim_lowercaseFrom {before cs : List Char} (trimmed : trim cs = cs) :
    trim (lowercaseFrom before cs) = lowercaseFrom before cs := by
  obtain ⟨starts, ends⟩ := trim_eq_self_iff.1 trimmed
  refine trim_eq_self_iff.2 ⟨fun d first => ?_, fun d last => ?_⟩
  · cases cs with
    | nil => cases first
    | cons c cs =>
      rw [lowercaseFrom_cons, List.head?_append_of_ne_nil _ lowerBetween_ne_nil] at first
      exact isBlank_of_mem_lowerBetween (starts c rfl) (List.mem_of_mem_head? first)
  · rcases List.eq_nil_or_concat' cs with rfl | ⟨front, c, rfl⟩
    · cases last
    · rw [lowercaseFrom_append, lowercaseFrom_cons, lowercaseFrom, List.append_nil,
        List.getLast?_append_of_ne_nil _ lowerBetween_ne_nil] at last
      exact isBlank_of_mem_lowerBetween (ends c (by simp)) (List.mem_of_mem_getLast? last)

end ComponentCompiler.Text
