import ComponentCompiler.Proofs.Markup.Attributes
import ComponentCompiler.Template.Context
import Mathlib.Data.String.Basic

namespace ComponentCompiler.Template.Context

open Markup (Attribute)

theorem get?_insert (c : Context) (name value other : String) :
    (c.insert name value).get? other = if name = other then some value else c.get? other := by
  obtain ⟨entries⟩ := c
  simp only [insert, get?]
  induction entries with
  | nil => by_cases same : name = other <;> simp [insertInto, same]
  | cons entry rest ih =>
    obtain ⟨k, v⟩ := entry
    rw [insertInto]
    by_cases replaced : k = name
    · subst replaced
      by_cases same : k = other <;> simp [same]
    · rw [if_neg replaced]
      split
      · by_cases same : name = other <;> simp [same]
      · by_cases found : k = other
        · simp [found, show name ≠ other from fun same => replaced (found.trans same.symm)]
        · simpa [found] using ih

theorem get?_foldl_insert (attributes : List Attribute) (c : Context) (name : String) :
    (attributes.foldl (fun c a => c.insert a.name a.value) c).get? name =
      (Attribute.get? attributes name).or (c.get? name) := by
  induction attributes generalizing c with
  | nil => rfl
  | cons a rest ih =>
    rw [List.foldl_cons, ih, get?_insert, Attribute.get?_cons, Option.or_assoc]
    split <;> rfl

theorem get?_ofAttributes (attributes : List Attribute) (name : String) :
    (ofAttributes attributes).get? name = Attribute.get? attributes name := by
  rw [ofAttributes, ofList, List.foldl_map, get?_foldl_insert]
  exact Option.or_none

def Ascending (entries : List (String × String)) : Prop :=
  entries.Pairwise fun e f => e.1 < f.1

section Entries

variable {entries : List (String × String)} {entry : String × String} {name value : String}

theorem mem_insertInto (member : entry ∈ insertInto name value entries) :
    entry = (name, value) ∨ entry ∈ entries := by
  induction entries with
  | nil => exact .inl (List.mem_singleton.1 member)
  | cons first rest ih =>
    obtain ⟨k, v⟩ := first
    rw [insertInto] at member
    split at member
    · exact (List.mem_cons.1 member).imp_right (List.mem_cons_of_mem _)
    · split at member
      · exact List.mem_cons.1 member
      · rcases List.mem_cons.1 member with rfl | later
        · exact .inr List.mem_cons_self
        · exact (ih later).imp_right (List.mem_cons_of_mem _)

theorem Ascending.insertInto (ascending : Ascending entries) (name value : String) :
    Ascending (insertInto name value entries) := by
  induction entries with
  | nil => exact List.pairwise_singleton ..
  | cons first rest ih =>
    obtain ⟨k, v⟩ := first
    obtain ⟨later, ascending⟩ := List.pairwise_cons.1 ascending
    rw [Context.insertInto]
    split
    next same => exact List.pairwise_cons.2 ⟨same ▸ later, ascending⟩
    next different =>
      split
      next less =>
        refine List.pairwise_cons.2 ⟨?_, List.pairwise_cons.2 ⟨later, ascending⟩⟩
        exact List.forall_mem_cons.2 ⟨less, fun e member => lt_trans less (later e member)⟩
      next notLess =>
        refine List.pairwise_cons.2 ⟨fun e member => ?_, ih ascending⟩
        rcases mem_insertInto member with rfl | old
        · exact lt_of_le_of_ne (not_lt.1 notLess) different
        · exact later e old

theorem ascending_foldl_insert (attributes : List Attribute) {c : Context}
    (ascending : Ascending c.entries) :
    Ascending (attributes.foldl (fun c a => c.insert a.name a.value) c).entries := by
  induction attributes generalizing c with
  | nil => exact ascending
  | cons a rest ih => exact ih (ascending.insertInto a.name a.value)

theorem ascending_ofAttributes (attributes : List Attribute) :
    Ascending (ofAttributes attributes).entries := by
  rw [ofAttributes, ofList, List.foldl_map]
  exact ascending_foldl_insert attributes List.Pairwise.nil

theorem Ascending.mem_iff {c : Context} (ascending : Ascending c.entries) :
    (name, value) ∈ c.entries ↔ c.get? name = some value := by
  obtain ⟨entries⟩ := c
  induction entries with
  | nil => simp [get?]
  | cons first rest ih =>
    obtain ⟨k, v⟩ := first
    obtain ⟨later, ascending⟩ := List.pairwise_cons.1 ascending
    have found := ih ascending
    simp only [get?] at found ⊢
    by_cases same : k = name
    · subst same
      have once : (k, value) ∉ rest := fun member => lt_irrefl k (later _ member)
      simp [once, eq_comm]
    · simpa [same, Ne.symm same] using found

end Entries

end ComponentCompiler.Template.Context
