import Mathlib.Data.List.Nodup
import Mathlib.Data.List.Perm.Basic

namespace ComponentCompiler

variable {α β : Type} [BEq α] [LawfulBEq α] {entries entries' : List (α × β)} {key : α} {value : β}

theorem isSome_lookup_iff_mem :
    (entries.lookup key).isSome = true ↔ key ∈ entries.map Prod.fst := by
  rw [List.lookup_isSome_iff, List.mem_map]
  simp only [beq_iff_eq, eq_comm (a := key)]

theorem lookup_eq_some_iff_mem (once : (entries.map Prod.fst).Nodup) :
    entries.lookup key = some value ↔ (key, value) ∈ entries := by
  induction entries with
  | nil => simp
  | cons entry entries ih =>
    obtain ⟨here, found⟩ := entry
    rw [List.map_cons, List.nodup_cons] at once
    by_cases same : key = here
    · subst same
      rw [List.lookup_cons_self, Option.some.injEq, List.mem_cons, Prod.mk.injEq,
        and_iff_right rfl]
      refine ⟨fun same => .inl same.symm, fun either => either.elim Eq.symm fun later => ?_⟩
      exact absurd (List.mem_map_of_mem (f := Prod.fst) later) once.1
    · rw [List.lookup_cons, beq_false_of_ne same, ih once.2]
      simp [same]

theorem lookup_perm (once : (entries.map Prod.fst).Nodup) (perm : entries.Perm entries')
    (key : α) : entries.lookup key = entries'.lookup key := by
  have once' := (perm.map Prod.fst).nodup_iff.1 once
  refine Option.ext fun value => ?_
  rw [lookup_eq_some_iff_mem once, lookup_eq_some_iff_mem once', perm.mem_iff]

end ComponentCompiler
