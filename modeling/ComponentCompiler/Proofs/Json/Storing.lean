import ComponentCompiler.Json.Value
import ComponentCompiler.Proofs.Lookup

namespace ComponentCompiler.Json

variable {α : Type} {key : String} {value : α} {entry : String × α}
  {acc members : List (String × α)}

theorem mem_putMember (there : entry ∈ putMember key value members) :
    entry = (key, value) ∨ entry ∈ members := by
  induction members with
  | nil => exact .inl (List.mem_singleton.1 there)
  | cons first members ih =>
    rw [putMember] at there
    split at there
    · next same =>
      rcases List.mem_cons.1 there with rfl | later
      · exact .inl (by rw [same])
      · exact .inr (List.mem_cons_of_mem _ later)
    · rcases List.mem_cons.1 there with rfl | later
      · exact .inr List.mem_cons_self
      · exact (ih later).imp_right (List.mem_cons_of_mem _)

theorem map_fst_putMember (key : String) (value : α) (members : List (String × α)) :
    (putMember key value members).map Prod.fst =
      if key ∈ members.map Prod.fst then members.map Prod.fst
      else members.map Prod.fst ++ [key] := by
  induction members with
  | nil => rfl
  | cons member members ih =>
    rw [putMember]
    by_cases same : member.1 = key
    · simp [same]
    · have other : key ≠ member.1 := fun first => same first.symm
      simp only [if_neg same, List.map_cons, ih, List.mem_cons, other, false_or]
      split <;> rfl

theorem lookup_cons_eq (member : String × α) (members : List (String × α)) (key : String) :
    (member :: members).lookup key =
      if key = member.1 then some member.2 else members.lookup key := by
  obtain ⟨name, value⟩ := member
  by_cases same : key = name
  · simp [same]
  · rw [List.lookup_cons, beq_false_of_ne same, if_neg same]

theorem lookup_putMember (key other : String) (value : α) (members : List (String × α)) :
    (putMember key value members).lookup other =
      if other = key then some value else members.lookup other := by
  induction members with
  | nil => exact lookup_cons_eq (key, value) [] other
  | cons member members ih =>
    rw [putMember]
    by_cases taken : member.1 = key
    · subst taken
      rw [if_pos rfl, lookup_cons_eq, lookup_cons_eq]
      split <;> rfl
    · rw [if_neg taken, lookup_cons_eq, lookup_cons_eq, ih]
      by_cases found : other = member.1
      · rw [if_pos found, if_neg fun asked => taken (found.symm.trans asked), if_pos found]
      · rw [if_neg found, if_neg found]

theorem putMember_of_not_mem (new : key ∉ members.map Prod.fst) :
    putMember key value members = members ++ [(key, value)] := by
  induction members with
  | nil => rfl
  | cons member members ih =>
    rw [List.map_cons, List.mem_cons, not_or] at new
    rw [putMember, if_neg (Ne.symm new.1), ih new.2, List.cons_append]

theorem putMember_of_nodup (distinct : ((acc ++ entry :: members).map Prod.fst).Nodup) :
    putMember entry.1 entry.2 acc = acc ++ [entry] := by
  refine putMember_of_not_mem fun old => ?_
  rw [List.map_append, List.nodup_append] at distinct
  exact distinct.2.2 _ old _ (by simp) rfl

end ComponentCompiler.Json
