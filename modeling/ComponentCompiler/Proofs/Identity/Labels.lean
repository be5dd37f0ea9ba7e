import ComponentCompiler.Identity.Label
import ComponentCompiler.Script.Entry
import Mathlib.Data.List.Basic
import Mathlib.Data.List.Induction
import Mathlib.Data.Set.Function

namespace ComponentCompiler.Identity

def IsLetter (c : Char) : Prop :=
  'a' ≤ c ∧ c ≤ 'z'

instance : DecidablePred IsLetter :=
  fun c => inferInstanceAs (Decidable ('a' ≤ c ∧ c ≤ 'z'))

def letterDigit (c : Char) : Nat :=
  c.toNat - 'a'.toNat + 1

theorem isLetter_iff {c : Char} : IsLetter c ↔ 97 ≤ c.toNat ∧ c.toNat ≤ 122 := by
  rw [IsLetter, Char.le_def, Char.le_def, UInt32.le_iff_toNat_le, UInt32.le_iff_toNat_le]
  rfl

theorem toNat_letter {n : Nat} (small : n < 26) : (letter n).toNat = 97 + n := by
  have letters : ∀ i : Fin 26, (letter i).toNat = 97 + i := by decide
  exact letters ⟨n, small⟩

theorem isLetter_letter {n : Nat} (small : n < 26) : IsLetter (letter n) := by
  rw [isLetter_iff, toNat_letter small]
  omega

theorem letterDigit_letter {n : Nat} (small : n < 26) : letterDigit (letter n) = n + 1 := by
  have first : 'a'.toNat = 97 := rfl
  rw [letterDigit, toNat_letter small, first]
  omega

theorem letter_lt_letter {m n : Nat} (less : m < n) (small : n < 26) : letter m < letter n := by
  rw [Char.lt_def, UInt32.lt_iff_toNat_lt]
  have left := toNat_letter (Nat.lt_trans less small)
  have right := toNat_letter small
  simp only [Char.toNat] at left right
  omega

theorem letterDigit_pos (c : Char) : 0 < letterDigit c :=
  Nat.succ_pos _

theorem letterDigit_le {c : Char} (isLetter : IsLetter c) : letterDigit c ≤ 26 := by
  have first : 'a'.toNat = 97 := rfl
  rw [isLetter_iff] at isLetter
  rw [letterDigit, first]
  omega

theorem letter_letterDigit {c : Char} (isLetter : IsLetter c) : letter (letterDigit c - 1) = c := by
  have first : 'a'.toNat = 97 := rfl
  have code : 'a'.toNat + (letterDigit c - 1) = c.toNat := by
    rw [isLetter_iff] at isLetter
    rw [letterDigit, first]
    omega
  rw [letter, code, Char.ofNat_toNat]

theorem labelChars_of_lt {n : Nat} (short : n < 26) : labelChars n = [letter n] := by
  rw [labelChars, if_pos short]

theorem labelChars_of_le {n : Nat} (long : 26 ≤ n) :
    labelChars n = labelChars (n / 26 - 1) ++ [letter (n % 26)] := by
  rw [labelChars, if_neg (by omega)]

theorem labelChars_ne_nil (n : Nat) : labelChars n ≠ [] := by
  rcases Nat.lt_or_ge n 26 with short | long
  · simp [labelChars_of_lt short]
  · simp [labelChars_of_le long]

theorem isLetter_labelChars (n : Nat) : ∀ c ∈ labelChars n, IsLetter c := by
  induction n using Nat.strongRecOn with
  | ind n ih =>
  rcases Nat.lt_or_ge n 26 with short | long
  · rw [labelChars_of_lt short]
    exact List.forall_mem_singleton.2 (isLetter_letter short)
  · rw [labelChars_of_le long]
    intro c member
    rcases List.mem_append.1 member with front | last
    · exact ih (n / 26 - 1) (by omega) c front
    · rw [List.mem_singleton.1 last]
      exact isLetter_letter (Nat.mod_lt n (by decide))

/-- The number that letters write in base 26, with digits from one to twenty-six. -/
def labelValue (cs : List Char) : Nat :=
  cs.foldl (fun n c => n * 26 + letterDigit c) 0

theorem labelValue_concat (cs : List Char) (c : Char) :
    labelValue (cs ++ [c]) = labelValue cs * 26 + letterDigit c := by
  simp [labelValue]

theorem labelValue_labelChars (n : Nat) : labelValue (labelChars n) = n + 1 := by
  induction n using Nat.strongRecOn with
  | ind n ih =>
  rcases Nat.lt_or_ge n 26 with short | long
  · have digit := labelValue_concat [] (letter n)
    rw [labelChars_of_lt short]
    rw [letterDigit_letter short] at digit
    simpa [labelValue] using digit
  · rw [labelChars_of_le long, labelValue_concat, ih (n / 26 - 1) (by omega),
      letterDigit_letter (Nat.mod_lt n (by decide))]
    omega

theorem labelChars_labelValue {cs : List Char} (nonempty : cs ≠ []) (letters : ∀ c ∈ cs, IsLetter c) :
    labelChars (labelValue cs - 1) = cs := by
  induction cs using List.reverseRecOn with
  | nil => exact absurd rfl nonempty
  | append_singleton front c ih =>
    have isLetter := letters c (by simp)
    have positive := letterDigit_pos c
    have bound := letterDigit_le isLetter
    rw [labelValue_concat]
    rcases eq_or_ne front [] with rfl | more
    · have small : labelValue [] * 26 + letterDigit c - 1 = letterDigit c - 1 := by simp [labelValue]
      rw [small, labelChars_of_lt (by omega), letter_letterDigit isLetter, List.nil_append]
    · have recovered := ih more fun d member => letters d (by simp [member])
      have value : 0 < labelValue front := by
        obtain ⟨init, d, parts⟩ := (List.eq_nil_or_concat' front).resolve_left more
        rw [parts, labelValue_concat]
        exact Nat.add_pos_right _ (letterDigit_pos d)
      -- The last digit is one more than the remainder, and the digits before it than the quotient.
      have quotient : (labelValue front * 26 + letterDigit c - 1) / 26 - 1 = labelValue front - 1 := by
        omega
      have remainder : (labelValue front * 26 + letterDigit c - 1) % 26 = letterDigit c - 1 := by
        omega
      rw [labelChars_of_le (by omega), quotient, remainder, recovered, letter_letterDigit isLetter]

theorem label_injective {m n : Nat} (same : label m = label n) : m = n := by
  have values := congrArg labelValue (String.ofList_injective same)
  rw [labelValue_labelChars, labelValue_labelChars] at values
  exact Nat.succ_injective values

def Precedes (xs ys : List Char) : Prop :=
  xs.length < ys.length ∨ xs.length = ys.length ∧ xs < ys

theorem append_lt_append {xs ys : List Char} (same : xs.length = ys.length) (less : xs < ys)
    (xs' ys' : List Char) : xs ++ xs' < ys ++ ys' := by
  induction xs generalizing ys with
  | nil =>
    rw [List.length_eq_zero_iff.1 same.symm] at less
    exact absurd less (List.not_lt_nil [])
  | cons x xs ih =>
    cases ys with
    | nil => cases same
    | cons y ys =>
      rw [List.cons_append, List.cons_append]
      rw [List.cons_lt_cons_iff] at less ⊢
      exact less.imp_right fun ⟨head, tail⟩ => ⟨head, ih (Nat.succ_injective same) tail⟩

theorem Precedes.concat {xs ys : List Char} (precedes : Precedes xs ys) (c d : Char) :
    Precedes (xs ++ [c]) (ys ++ [d]) := by
  rcases precedes with shorter | ⟨same, less⟩
  · exact .inl (by simpa using shorter)
  · exact .inr ⟨by simpa using same, append_lt_append same less [c] [d]⟩

theorem labelChars_precedes {m n : Nat} (less : m < n) : Precedes (labelChars m) (labelChars n) := by
  induction n using Nat.strongRecOn generalizing m with
  | ind n ih =>
  rcases Nat.lt_or_ge n 26 with shortN | longN
  · rw [labelChars_of_lt shortN, labelChars_of_lt (Nat.lt_trans less shortN)]
    exact .inr ⟨rfl, List.cons_lt_cons_iff.2 (.inl (letter_lt_letter less shortN))⟩
  rw [labelChars_of_le longN]
  rcases Nat.lt_or_ge m 26 with shortM | longM
  · have positive := List.length_pos_of_ne_nil (labelChars_ne_nil (n / 26 - 1))
    rw [labelChars_of_lt shortM]
    exact .inl (by simpa using positive)
  rw [labelChars_of_le longM]
  rcases Nat.lt_or_eq_of_le (Nat.div_le_div_right (c := 26) less.le) with quotient | quotient
  · exact (ih (n / 26 - 1) (by omega) (by omega)).concat _ _
  · have remainder : m % 26 < n % 26 := by omega
    rw [quotient]
    refine .inr ⟨by simp, List.append_left_lt ?_⟩
    exact List.cons_lt_cons_iff.2
      (.inl (letter_lt_letter remainder (Nat.mod_lt n (by decide))))

theorem Precedes.irrefl (xs : List Char) : ¬Precedes xs xs := by
  rintro (shorter | ⟨-, less⟩)
  · exact Nat.lt_irrefl _ shorter
  · exact List.lt_irrefl xs less

theorem Precedes.asymm {xs ys : List Char} (precedes : Precedes xs ys) : ¬Precedes ys xs := by
  rcases precedes with shorter | ⟨same, less⟩
  · rintro (longer | ⟨same, -⟩) <;> omega
  · rintro (longer | ⟨-, more⟩)
    · omega
    · exact List.lt_asymm less more

theorem labelChars_precedes_iff {m n : Nat} :
    Precedes (labelChars m) (labelChars n) ↔ m < n := by
  refine ⟨fun precedes => ?_, labelChars_precedes⟩
  rcases Nat.lt_trichotomy m n with less | rfl | more
  · exact less
  · exact absurd precedes (Precedes.irrefl _)
  · exact absurd precedes (labelChars_precedes more).asymm

structure IsLabel (s : String) : Prop where
  nonempty : s.toList ≠ []
  letters : ∀ c ∈ s.toList, IsLetter c

theorem isLabel_label (n : Nat) : IsLabel (label n) where
  nonempty := by simpa [label] using labelChars_ne_nil n
  letters := by simpa [label] using isLetter_labelChars n

theorem label_labelValue {s : String} (isLabel : IsLabel s) :
    label (labelValue s.toList - 1) = s := by
  rw [label, labelChars_labelValue isLabel.nonempty isLabel.letters, String.ofList_toList]

/-- The labels are the texts of letters, each once, in order of their length and then of the
alphabet; the number of a text is its value less one.  So entry points get names of their own. -/
theorem label_enumerates :
    Set.BijOn label Set.univ {s | IsLabel s} ∧
      (∀ s, IsLabel s → label (labelValue s.toList - 1) = s) ∧
      (∀ m n, m < n ↔ (label m).length < (label n).length ∨
        (label m).length = (label n).length ∧ label m < label n) ∧
      Function.Injective fun n => Script.entryPointName (label n) := by
  refine ⟨⟨fun n _ => isLabel_label n, fun m _ n _ => label_injective, fun s isLabel => ?_⟩,
    fun s => label_labelValue, fun m n => ?_, fun m n same => ?_⟩
  · exact ⟨labelValue s.toList - 1, Set.mem_univ _, label_labelValue isLabel⟩
  · have order : Precedes (labelChars m) (labelChars n) ↔ m < n := labelChars_precedes_iff
    rw [← order, Precedes, label, label, String.length_ofList, String.length_ofList,
      String.lt_iff, String.toList_ofList, String.toList_ofList]
  · have texts := congrArg String.toList same
    simp only [Script.entryPointName, String.toList_append] at texts
    exact label_injective (String.toList_injective (List.append_cancel_right texts))

theorem label_enumerates_zz : IsLabel "zz" ∧ label (labelValue "zz".toList - 1) = "zz" := by
  have z : IsLetter 'z' := by decide
  have isLabel : IsLabel "zz" := ⟨by decide, by simpa using z⟩
  exact ⟨isLabel, label_enumerates.2.1 "zz" isLabel⟩

end ComponentCompiler.Identity
