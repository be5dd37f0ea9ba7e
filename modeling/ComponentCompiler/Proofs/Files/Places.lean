import ComponentCompiler.Files.Tree
import ComponentCompiler.Proofs.Lookup
import Mathlib.Data.List.Infix
import Mathlib.Data.List.Nodup

namespace ComponentCompiler.Files

namespace Tree

variable {t t' : Tree} {place other out : Place} {entry : Entry}

@[simp] theorem get?_nil (t : Tree) : t.get? [] = some .folder := rfl

theorem get?_of_ne_nil (t : Tree) (proper : place ≠ []) :
    t.get? place = t.entries.lookup place := by
  rw [get?, if_neg (by simpa using proper)]

theorem ne_nil_of_missing (missing : t.get? place = none) : place ≠ [] := by
  rintro rfl
  simp at missing

theorem lookup_filter (keep : Place → Bool) (entries : List (Place × Entry)) (place : Place) :
    (entries.filter fun e => keep e.1).lookup place =
      if keep place then entries.lookup place else none := by
  induction entries with
  | nil => simp
  | cons e entries ih =>
    obtain ⟨here, entry⟩ := e
    by_cases same : place = here
    · subst same
      cases kept : keep place <;> simp [kept, ih]
    · have differs : (place == here) = false := beq_false_of_ne same
      cases kept : keep here <;> simp [kept, ih, List.lookup_cons, differs]

theorem isPrefixOf_eq_decide (place other : Place) :
    place.isPrefixOf other = decide (place <+: other) := by
  rw [Bool.eq_iff_iff, List.isPrefixOf_iff_prefix, decide_eq_true_iff]

theorem get?_put (t : Tree) (place other : Place) (entry : Entry) :
    (t.put place entry).get? other =
      if other = place ∧ other ≠ [] then some entry else t.get? other := by
  by_cases top : other = []
  · simp [top]
  · rw [get?_of_ne_nil _ top, get?_of_ne_nil _ top, put]
    simp only [List.lookup_append]
    rw [lookup_filter (fun p => decide (p ≠ place))]
    by_cases same : other = place
    · have proper : place ≠ [] := same ▸ top
      simp [same, proper]
    · simp [same, List.lookup_cons, beq_false_of_ne same]

theorem get?_put_self (proper : place ≠ []) : (t.put place entry).get? place = some entry := by
  rw [get?_put, if_pos ⟨rfl, proper⟩]

theorem get?_put_of_ne (differs : other ≠ place) :
    (t.put place entry).get? other = t.get? other := by
  rw [get?_put, if_neg fun both => differs both.1]

theorem get?_erase (t : Tree) (place other : Place) :
    (t.erase place).get? other = if place <+: other ∧ other ≠ [] then none else t.get? other := by
  by_cases top : other = []
  · simp [top]
  · rw [get?_of_ne_nil _ top, get?_of_ne_nil _ top, erase]
    rw [lookup_filter (fun p => !place.isPrefixOf p)]
    by_cases inside : place <+: other <;>
      simp [isPrefixOf_eq_decide, inside, top]

theorem get?_clear (t : Tree) (place other : Place) :
    (t.clear place).get? other =
      if place <+: other ∧ other ≠ place then none else t.get? other := by
  by_cases top : other = []
  · subst top
    rw [if_neg fun both => both.2 (List.prefix_nil.1 both.1).symm]
    rfl
  · rw [get?_of_ne_nil _ top, get?_of_ne_nil _ top, clear]
    rw [lookup_filter (fun p => decide (p = place) || !place.isPrefixOf p)]
    by_cases same : other = place <;> by_cases inside : place <+: other <;>
      simp [isPrefixOf_eq_decide, same, inside]

@[simp] theorem root_put (t : Tree) (place : Place) (entry : Entry) :
    (t.put place entry).root = t.root := rfl

@[simp] theorem root_erase (t : Tree) (place : Place) : (t.erase place).root = t.root := rfl

@[simp] theorem root_clear (t : Tree) (place : Place) : (t.clear place).root = t.root := rfl

/-- A tree in which each place is listed once and what is there lies in folders. -/
structure Sound (t : Tree) : Prop where
  once : (t.entries.map Prod.fst).Nodup
  held : ∀ place name, t.get? (place ++ [name]) ≠ none → t.get? place = some .folder

namespace Sound

theorem folder_above (sound : t.Sound) (inside : place <+: other) (differs : place ≠ other)
    (there : t.get? other ≠ none) : t.get? place = some .folder := by
  induction other using List.reverseRecOn with
  | nil => exact absurd (List.prefix_nil.1 inside) differs
  | append_singleton front name ih =>
    have front_folder := sound.held front name there
    rcases List.prefix_concat_iff.1 inside with whole | before
    · exact absurd whole differs
    · by_cases same : place = front
      · rw [same, front_folder]
      · exact ih before same (by simp [front_folder])

theorem missing_below (sound : t.Sound) (missing : t.get? place = none)
    (inside : place <+: other) : t.get? other = none := by
  by_contra there
  by_cases same : place = other
  · exact there (same ▸ missing)
  · have folder := sound.folder_above inside same there
    simp [missing] at folder

theorem erase (sound : t.Sound) (place : Place) : (t.erase place).Sound where
  once := sound.once.sublist (List.filter_sublist.map _)
  held front name there := by
    rw [get?_erase] at there ⊢
    split at there
    · simp at there
    · rename_i kept
      rw [if_neg fun both => kept ⟨both.1.trans (List.prefix_append ..), by simp⟩]
      exact sound.held front name there

theorem put (sound : t.Sound) {name : String} (missing : t.get? (place ++ [name]) = none)
    (folder : t.get? place = some .folder) (entry : Entry) :
    (t.put (place ++ [name]) entry).Sound where
  once := by
    rw [Tree.put, List.map_append, List.nodup_append]
    refine ⟨sound.once.sublist (List.filter_sublist.map _), by simp, ?_⟩
    rintro other listed new member same
    obtain ⟨e, kept, rfl⟩ := List.mem_map.1 listed
    rw [List.map_singleton, List.mem_singleton] at member
    simp [same.trans member] at kept
  held front last there := by
    by_cases same : front ++ [last] = place ++ [name]
    · obtain ⟨rfl, -⟩ := List.append_inj' same rfl
      rw [get?_put_of_ne (by simp), folder]
    · rw [get?_put_of_ne same] at there
      have held := sound.held front last there
      rw [get?_put_of_ne (by rintro rfl; simp [missing] at held), held]

end Sound

theorem sound_of_entries (once : (t.entries.map Prod.fst).Nodup)
    (held : ∀ e ∈ t.entries, t.get? e.1.dropLast = some .folder) : t.Sound where
  once := once
  held place name there := by
    rw [get?_of_ne_nil t (by simp), ← Option.isSome_iff_ne_none] at there
    obtain ⟨entry, found⟩ := Option.isSome_iff_exists.1 there
    simpa using held (place ++ [name], entry) ((lookup_eq_some_iff_mem once).1 found)

theorem get?_of_mem (sound : t.Sound) (proper : place ≠ []) (member : (place, entry) ∈ t.entries) :
    t.get? place = some entry := by
  rw [get?_of_ne_nil t proper]
  exact (lookup_eq_some_iff_mem sound.once).2 member

end Tree

end ComponentCompiler.Files
