import ComponentCompiler.Proofs.Text.Scanning

/-!
# Writing without ambiguity

Things are written one after the other, so a way to write them can be undone only if the text shows
where each of them ends.

* `Unambiguous.flatMap`: a list of things that are written without ambiguity is, too.
-/

namespace ComponentCompiler.Text

/-- A text of one of `P`, with one of `S` after it, shows what was written and what comes after. -/
def Unambiguous {α : Type} (code : α → List Char) (P : α → Prop) (S : List Char → Prop) : Prop :=
  ∀ ⦃a b : α⦄ ⦃r r' : List Char⦄, P a → P b → S r → S r' → code a ++ r = code b ++ r' →
    a = b ∧ r = r'

theorem unambiguous_span (p : Char → Bool) :
    Unambiguous id (fun xs => ∀ c ∈ xs, p c = true) (Stops p) := by
  intro xs ys r r' inside inside' stops stops' same
  simp only [id_eq] at same
  have span := congrArg (List.takeWhile p) same
  rw [takeWhile_append_of_stops inside stops, takeWhile_append_of_stops inside' stops'] at span
  have rest := congrArg (List.dropWhile p) same
  rw [dropWhile_append_of_stops inside stops, dropWhile_append_of_stops inside' stops'] at rest
  exact ⟨span, rest⟩

namespace Unambiguous

variable {α : Type} {code : α → List Char} {P : α → Prop} {S E : List Char → Prop}

theorem flatMap (unambiguous : Unambiguous code P S)
    (goesOn : ∀ a r, P a → S r → S (code a ++ r)) (ends : ∀ r, E r → S r)
    (apart : ∀ a r r', P a → E r → r ≠ code a ++ r') :
    Unambiguous (List.flatMap code) (fun xs => ∀ x ∈ xs, P x) E := by
  have follows : ∀ xs : List α, (∀ x ∈ xs, P x) → ∀ r, E r → S (xs.flatMap code ++ r) := by
    intro xs
    induction xs with
    | nil => exact fun _ r ending => ends r ending
    | cons x xs ih =>
      intro all r ending
      rw [List.forall_mem_cons] at all
      rw [List.flatMap_cons, List.append_assoc]
      exact goesOn x _ all.1 (ih all.2 r ending)
  intro xs
  induction xs with
  | nil =>
    intro ys r r' _ all' ending ending' same
    cases ys with
    | nil => exact ⟨rfl, same⟩
    | cons y ys =>
      rw [List.flatMap_nil, List.nil_append, List.flatMap_cons, List.append_assoc] at same
      exact absurd same (apart y _ _ (all' y (by simp)) ending)
  | cons x xs ih =>
    intro ys r r' all all' ending ending' same
    cases ys with
    | nil =>
      rw [List.flatMap_nil, List.nil_append, List.flatMap_cons, List.append_assoc] at same
      exact absurd same.symm (apart x _ _ (all x (by simp)) ending')
    | cons y ys =>
      rw [List.forall_mem_cons] at all all'
      rw [List.flatMap_cons, List.flatMap_cons, List.append_assoc, List.append_assoc] at same
      obtain ⟨rfl, rest⟩ := unambiguous all.1 all'.1 (follows xs all.2 r ending)
        (follows ys all'.2 r' ending') same
      obtain ⟨rfl, rfl⟩ := ih all.2 all'.2 ending ending' rest
      exact ⟨rfl, rfl⟩

end Unambiguous

end ComponentCompiler.Text
