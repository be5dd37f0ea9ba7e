import ComponentCompiler.Text.Substitution
import Mathlib.Data.List.Basic

namespace ComponentCompiler.Text

theorem ne_of_holds {p : Char → Bool} {c d : Char} (holds : p c = true) (refused : p d = false) :
    c ≠ d := by
  rintro rfl
  rw [refused] at holds
  cases holds

def Stops (p : Char → Bool) (cs : List Char) : Prop :=
  ∀ c ∈ cs.head?, p c = false

section Spans

variable {p : Char → Bool} {xs rest : List Char}

theorem takeWhile_append_of_stops (inside : ∀ c ∈ xs, p c = true) (stops : Stops p rest) :
    (xs ++ rest).takeWhile p = xs := by
  rw [List.takeWhile_append_of_pos inside]
  cases rest with
  | nil => simp
  | cons c rest => simp [stops c rfl]

theorem dropWhile_append_of_stops (inside : ∀ c ∈ xs, p c = true) (stops : Stops p rest) :
    (xs ++ rest).dropWhile p = rest := by
  rw [List.dropWhile_append_of_pos inside]
  cases rest with
  | nil => rfl
  | cons c rest => simp [stops c rfl]

theorem stops_dropWhile (p : Char → Bool) (cs : List Char) : Stops p (cs.dropWhile p) := by
  intro c first
  have head := List.head?_dropWhile_not p cs
  rw [Option.mem_def.1 first] at head
  simpa using head

theorem stops_append_cons {c : Char} (outside : ∀ d ∈ xs, p d = false) (next : p c = false) :
    Stops p (xs ++ c :: rest) := by
  intro d member
  cases xs with
  | nil =>
    cases member
    exact next
  | cons x xs =>
    cases member
    exact outside d (by simp)

end Spans

theorem exists_of_append_cons_eq_append {word xs ys rest : List Char} {c : Char} (absent : c ∉ word)
    (parts : xs ++ c :: ys = word ++ rest) : ∃ left, xs = word ++ left ∧ rest = left ++ c :: ys := by
  rcases List.append_eq_append_iff.1 parts with ⟨left, rfl, more⟩ | ⟨left, rfl, more⟩
  · cases left with
    | nil => exact ⟨[], by simp, by simpa using more.symm⟩
    | cons d left =>
      obtain ⟨rfl, -⟩ := List.cons.inj more
      simp at absent
  · exact ⟨left, rfl, more⟩

section Substitution

variable {find : List Char → Option Match}

theorem substituteFrom_before (skip : Nat) (before other : Option Char) (cs : List Char) :
    substituteFrom (fun _ => find) skip before cs = substituteFrom (fun _ => find) skip other cs := by
  cases cs with
  | nil => cases skip <;> simp [substituteFrom]
  | cons c cs => cases skip <;> simp [substituteFrom]

theorem substituteFrom_eq_substitute_drop (skip : Nat) (before : Option Char) (cs : List Char) :
    substituteFrom (fun _ => find) skip before cs = substitute (fun _ => find) (cs.drop skip) := by
  induction skip generalizing before cs with
  | zero => exact substituteFrom_before 0 before none cs
  | succ skip ih =>
    cases cs with
    | nil => simp [substitute, substituteFrom]
    | cons c cs => rw [substituteFrom, ih, List.drop_succ_cons]

theorem substitute_cons (c : Char) (cs : List Char) :
    substitute (fun _ => find) (c :: cs) =
      match find (c :: cs) with
      | some (length, image) => image ++ substitute (fun _ => find) (cs.drop (length - 1))
      | none => c :: substitute (fun _ => find) cs := by
  rw [substitute, substituteFrom]
  cases find (c :: cs) with
  | none => exact congrArg (c :: ·) (substituteFrom_before 0 _ _ cs)
  | some found => exact congrArg (found.2 ++ ·) (substituteFrom_eq_substitute_drop _ _ cs)

theorem substitute_found {xs ys image : List Char} (nonempty : xs ≠ [])
    (found : find (xs ++ ys) = some (xs.length, image)) :
    substitute (fun _ => find) (xs ++ ys) = image ++ substitute (fun _ => find) ys := by
  obtain ⟨x, xs, rfl⟩ := List.exists_cons_of_ne_nil nonempty
  rw [List.cons_append] at found ⊢
  rw [substitute_cons, found]
  simp

theorem substitute_copied {ys : List Char} (xs : List Char)
    (none : ∀ suffix, suffix <:+ xs → suffix ≠ [] → find (suffix ++ ys) = none) :
    substitute (fun _ => find) (xs ++ ys) = xs ++ substitute (fun _ => find) ys := by
  induction xs with
  | nil => rfl
  | cons x xs ih =>
    have here := none (x :: xs) (List.suffix_refl _) (List.cons_ne_nil x xs)
    rw [List.cons_append] at here
    rw [List.cons_append, substitute_cons, here]
    exact congrArg (x :: ·) (ih fun suffix isSuffix =>
      none suffix (isSuffix.trans (List.suffix_cons x xs)))

/-- What `find` reports of `xs` does not depend on `ys`, and keeps to `xs`. -/
def Keeps (find : List Char → Option Match) (xs ys : List Char) : Prop :=
  find (xs ++ ys) = find xs ∧ ∀ found ∈ find xs, found.1 ≤ xs.length

theorem substitute_append {ys : List Char} (xs : List Char)
    (keeps : ∀ suffix, suffix <:+ xs → suffix ≠ [] → Keeps find suffix ys) :
    substitute (fun _ => find) (xs ++ ys) =
      substitute (fun _ => find) xs ++ substitute (fun _ => find) ys := by
  -- A match is skipped as a whole, so the induction is on the length of what is left.
  induction length : xs.length using Nat.strongRecOn generalizing xs with
  | _ n ih =>
  cases xs with
  | nil => rfl
  | cons c cs =>
    obtain ⟨same, within⟩ := keeps (c :: cs) (List.suffix_refl _) (List.cons_ne_nil _ _)
    rw [List.cons_append, substitute_cons, ← List.cons_append, same, substitute_cons]
    rw [List.length_cons] at length
    have rest (dropped : Nat) := ih (cs.drop dropped).length (by rw [List.length_drop]; omega) _
      (fun suffix isSuffix => keeps suffix
        (isSuffix.trans ((List.drop_suffix dropped cs).trans (List.suffix_cons c cs)))) rfl
    cases found : find (c :: cs) with
    | none => exact congrArg (c :: ·) (rest 0)
    | some match? =>
      have fits : match?.1 - 1 ≤ cs.length := by
        have := within match? found
        rw [List.length_cons] at this
        omega
      simp only
      rw [List.drop_append_of_le_length fits, rest, List.append_assoc]

end Substitution

end ComponentCompiler.Text
