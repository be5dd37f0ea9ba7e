import ComponentCompiler.Text.Trim
import Mathlib.Data.List.Basic
import Mathlib.Data.List.TakeWhile

namespace ComponentCompiler.Text

theorem splitAll_ne_nil (p : Char → Bool) (cs : List Char) : splitAll p cs ≠ [] := by
  induction cs with
  | nil => simp [splitAll]
  | cons c cs ih =>
    rw [splitAll]
    split
    · simp
    · split <;> simp

theorem splitAll_append_cons {p : Char → Bool} {c : Char} (cut : p c = true)
    (xs ys : List Char) : splitAll p (xs ++ c :: ys) = splitAll p xs ++ splitAll p ys := by
  induction xs with
  | nil => simp [splitAll, cut]
  | cons x xs ih =>
    simp only [List.cons_append, splitAll, ih]
    cases p x with
    | true => rfl
    | false =>
      cases pieces : splitAll p xs with
      | nil => exact absurd pieces (splitAll_ne_nil p xs)
      | cons piece more => rfl

theorem splitAll_of_uncut {p : Char → Bool} {cs : List Char} (uncut : ∀ c ∈ cs, p c = false) :
    splitAll p cs = [cs] := by
  induction cs with
  | nil => rfl
  | cons c cs ih =>
    simp only [List.mem_cons, forall_eq_or_imp] at uncut
    rw [splitAll, uncut.1, ih uncut.2]
    rfl

theorem words_append_blank_cons {c : Char} (blank : isBlank c = true) (xs ys : List Char) :
    words (xs ++ c :: ys) = words xs ++ words ys := by
  rw [words, splitAll_append_cons blank, List.filter_append]
  rfl

theorem words_append_left_of_blank {xs : List Char} (blank : ∀ c ∈ xs, isBlank c = true)
    (ys : List Char) : words (xs ++ ys) = words ys := by
  induction xs with
  | nil => rfl
  | cons c xs ih =>
    have here := words_append_blank_cons (blank c (by simp)) [] (xs ++ ys)
    rw [List.nil_append] at here
    rw [List.cons_append, here, ih fun d member => blank d (by simp [member])]
    rfl

theorem words_append_of_blank (xs : List Char) {ys : List Char}
    (blank : ∀ c ∈ ys, isBlank c = true) : words (xs ++ ys) = words xs := by
  cases ys with
  | nil => rw [List.append_nil]
  | cons c ys =>
    have after : words (ys ++ []) = words [] :=
      words_append_left_of_blank (fun d member => blank d (by simp [member])) []
    rw [List.append_nil] at after
    rw [words_append_blank_cons (blank c (by simp)), after]
    exact List.append_nil _

theorem dropEndWhile_cons (p : Char → Bool) (c : Char) (cs : List Char) :
    dropEndWhile p (c :: cs) =
      if (dropEndWhile p cs).isEmpty && p c then [] else c :: dropEndWhile p cs := rfl

theorem exists_dropEndWhile (p : Char → Bool) (cs : List Char) :
    ∃ dropped, cs = dropEndWhile p cs ++ dropped ∧ ∀ c ∈ dropped, p c = true := by
  induction cs with
  | nil => exact ⟨[], rfl, by simp⟩
  | cons c cs ih =>
    obtain ⟨dropped, parts, holds⟩ := ih
    rw [dropEndWhile_cons]
    split
    · rename_i gone
      rw [Bool.and_eq_true, List.isEmpty_iff] at gone
      rw [gone.1, List.nil_append] at parts
      refine ⟨c :: cs, rfl, ?_⟩
      simp only [List.mem_cons, forall_eq_or_imp]
      exact ⟨gone.2, parts ▸ holds⟩
    · exact ⟨dropped, by rw [List.cons_append, ← parts], holds⟩

theorem dropEndWhile_append_of_all {p : Char → Bool} {ys : List Char}
    (all : ∀ c ∈ ys, p c = true) (xs : List Char) :
    dropEndWhile p (xs ++ ys) = dropEndWhile p xs := by
  have gone : dropEndWhile p ys = [] := by
    induction ys with
    | nil => rfl
    | cons y ys ih =>
      simp only [List.mem_cons, forall_eq_or_imp] at all
      simp [dropEndWhile_cons, ih all.2, all.1]
  induction xs with
  | nil => exact gone
  | cons x xs ih => rw [List.cons_append, dropEndWhile_cons, ih, ← dropEndWhile_cons]

theorem dropEndWhile_append_singleton {p : Char → Bool} {c : Char} (kept : p c = false)
    (xs : List Char) : dropEndWhile p (xs ++ [c]) = xs ++ [c] := by
  induction xs with
  | nil => simp [dropEndWhile, kept]
  | cons x xs ih => simp [dropEndWhile_cons, ih]

theorem trimEnd_append {xs ys : List Char} (ends : ∀ c ∈ xs.getLast?, isBlank c = false)
    (blank : ∀ c ∈ ys, isBlank c = true) : trimEnd (xs ++ ys) = xs := by
  rw [trimEnd, dropEndWhile_append_of_all blank]
  rcases List.eq_nil_or_concat' xs with rfl | ⟨front, c, rfl⟩
  · rfl
  · exact dropEndWhile_append_singleton (ends c (by simp)) front

theorem trimEnd_eq_self_iff {cs : List Char} :
    trimEnd cs = cs ↔ ∀ c ∈ cs.getLast?, isBlank c = false := by
  rcases List.eq_nil_or_concat' cs with rfl | ⟨front, c, rfl⟩
  · simp [trimEnd, dropEndWhile]
  · rw [List.getLast?_concat]
    cases blank : isBlank c with
    | false => simp [trimEnd, dropEndWhile_append_singleton blank, blank]
    | true =>
      obtain ⟨dropped, parts, -⟩ := exists_dropEndWhile isBlank front
      have shorter : (trimEnd (front ++ [c])).length < (front ++ [c]).length := by
        rw [trimEnd, dropEndWhile_append_of_all (by simpa using blank), List.length_append]
        have whole := congrArg List.length parts
        rw [List.length_append] at whole
        simp only [List.length_singleton]
        omega
      refine ⟨fun same => absurd (congrArg List.length same) (Nat.ne_of_lt shorter), fun ends => ?_⟩
      have solid := ends c rfl
      rw [blank] at solid
      cases solid

theorem trim_eq_self_iff {cs : List Char} :
    trim cs = cs ↔
      (∀ c ∈ cs.head?, isBlank c = false) ∧ ∀ c ∈ cs.getLast?, isBlank c = false := by
  have starts : trimStart cs = cs ↔ ∀ c ∈ cs.head?, isBlank c = false := by
    rw [trimStart, List.dropWhile_eq_self_iff]
    cases cs <;> simp
  rw [← starts, ← trimEnd_eq_self_iff]
  refine ⟨fun same => ?_, fun ⟨start, ending⟩ => by rw [trim, start, ending]⟩
  obtain ⟨dropped, parts, -⟩ := exists_dropEndWhile isBlank (trimStart cs)
  have suffix : trimStart cs <:+ cs := List.dropWhile_suffix _
  have whole : trimStart cs = cs := by
    refine suffix.eq_of_length_le ?_
    have longer := congrArg List.length parts
    rw [List.length_append, show dropEndWhile isBlank (trimStart cs) = cs from same] at longer
    omega
  exact ⟨whole, by rwa [trim, whole] at same⟩

theorem getLast?_dropEndWhile (p : Char → Bool) (cs : List Char) :
    ∀ c ∈ (dropEndWhile p cs).getLast?, p c = false := by
  induction cs with
  | nil => simp [dropEndWhile]
  | cons d cs ih =>
    rw [dropEndWhile_cons]
    split
    · simp
    · rename_i kept
      cases rest : dropEndWhile p cs with
      | nil => simpa [rest] using kept
      | cons e es =>
        rw [rest] at ih
        rwa [List.getLast?_cons_cons]

theorem trim_trim (cs : List Char) : trim (trim cs) = trim cs := by
  refine trim_eq_self_iff.2 ⟨fun c first => ?_, getLast?_dropEndWhile isBlank (trimStart cs)⟩
  obtain ⟨dropped, parts, -⟩ := exists_dropEndWhile isBlank (trimStart cs)
  have starts : c ∈ (trimStart cs).head? := by
    rw [parts, List.head?_append,
      show (dropEndWhile isBlank (trimStart cs)).head? = some c from first]
    rfl
  have solid := List.head?_dropWhile_not isBlank cs
  rw [show (cs.dropWhile isBlank).head? = some c from starts] at solid
  simpa using solid

@[simp] theorem words_trim (cs : List Char) : words (trim cs) = words cs := by
  obtain ⟨dropped, parts, blank⟩ := exists_dropEndWhile isBlank (trimStart cs)
  have ends : words (trim cs) = words (trimStart cs) := by
    conv_rhs => rw [parts]
    exact (words_append_of_blank _ blank).symm
  have starts : words (trimStart cs) = words cs := by
    conv_rhs => rw [← List.takeWhile_append_dropWhile (p := isBlank) (l := cs)]
    exact (words_append_left_of_blank (List.all_eq_true.1 List.all_takeWhile) _).symm
  rw [ends, starts]

structure IsToken (token : String) : Prop where
  nonempty : token.toList ≠ []
  unblank : ∀ c ∈ token.toList, isBlank c = false

theorem words_of_isToken {token : String} (isToken : IsToken token) :
    words token.toList = [token.toList] := by
  rw [words, splitAll_of_uncut isToken.unblank]
  simp [isToken.nonempty]

end ComponentCompiler.Text
