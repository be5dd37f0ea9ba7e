import ComponentCompiler.Proofs.Markup.Forest
import ComponentCompiler.Proofs.Result

namespace ComponentCompiler.Markup

variable {σ ε : Type} {supply : Supplier σ ε} {s s' : σ} {tag : String}
  {attributes : List Attribute} {children out : List Node} {replaced : Nat}

theorem projectNode_slot_ok (slot : isSlot tag = true) :
    projectNode supply s (.element tag attributes children) = ⟨out, replaced, s', none⟩ ↔
      supply s = .ok (out, s') ∧ replaced = 1 := by
  rw [projectNode, if_pos slot]
  cases supply s with
  | error failure => simp
  | ok result =>
    obtain ⟨nodes, state⟩ := result
    simp only [Projection.mk.injEq, and_true, Except.ok.injEq, Prod.mk.injEq]
    constructor
    · rintro ⟨rfl, rfl, rfl⟩
      exact ⟨⟨rfl, rfl⟩, rfl⟩
    · rintro ⟨⟨rfl, rfl⟩, rfl⟩
      exact ⟨rfl, rfl, rfl⟩

theorem projectNode_element_ok (other : isSlot tag = false) :
    projectNode supply s (.element tag attributes children) = ⟨out, replaced, s', none⟩ ↔
      ∃ inside, project supply s children = ⟨inside, replaced, s', none⟩ ∧
        [.element tag attributes inside] = out := by
  rw [projectNode, if_neg (ne_true_of_eq_false other)]
  rcases project supply s children with ⟨inside, count, state, failure⟩
  simp only [Projection.mk.injEq]
  constructor
  · rintro ⟨rfl, rfl, rfl, rfl⟩
    exact ⟨inside, ⟨rfl, rfl, rfl, rfl⟩, rfl⟩
  · rintro ⟨_, ⟨rfl, rfl, rfl, rfl⟩, rfl⟩
    exact ⟨rfl, rfl, rfl, rfl⟩

theorem project_cons_ok {node : Node} {rest : List Node} :
    project supply s (node :: rest) = ⟨out, replaced, s', none⟩ ↔
      ∃ nodes count s₁ more others, projectNode supply s node = ⟨nodes, count, s₁, none⟩ ∧
        project supply s₁ rest = ⟨more, others, s', none⟩ ∧ nodes ++ more = out ∧
        count + others = replaced := by
  rw [project]
  rcases first : projectNode supply s node with ⟨nodes, count, s₁, _ | failure⟩
  · dsimp only
    rcases second : project supply s₁ rest with ⟨more, others, s₂, failure⟩
    simp only [Projection.mk.injEq]
    constructor
    · rintro ⟨rfl, rfl, rfl, rfl⟩
      exact ⟨nodes, count, s₁, more, others, ⟨rfl, rfl, rfl, trivial⟩, second, rfl, rfl⟩
    · rintro ⟨_, _, _, _, _, ⟨rfl, rfl, rfl, -⟩, again, rfl, rfl⟩
      rw [second, Projection.mk.injEq] at again
      obtain ⟨rfl, rfl, rfl, rfl⟩ := again
      exact ⟨rfl, rfl, rfl, rfl⟩
  · simp

def Projection.outcome (q : Projection σ ε) : Except ε (List Node × σ) :=
  match q.failure with
  | some e => .error e
  | none => .ok (q.nodes, q.state)

theorem outcome_eq_ok_iff {q : Projection σ ε} :
    q.outcome = .ok (out, s') ↔ ∃ replaced, q = ⟨out, replaced, s', none⟩ := by
  rcases q with ⟨nodes, count, state, _ | failure⟩
  · simp [Projection.outcome]
  · simp [Projection.outcome]

theorem outcome_slot (slot : isSlot tag = true) :
    (projectNode supply s (.element tag attributes children)).outcome = supply s := by
  rw [projectNode, if_pos slot]
  cases supply s <;> rfl

theorem outcome_element (other : isSlot tag = false) :
    (projectNode supply s (.element tag attributes children)).outcome =
      (project supply s children).outcome.map fun r => ([.element tag attributes r.1], r.2) := by
  rw [projectNode, if_neg (ne_true_of_eq_false other)]
  rcases project supply s children with ⟨inside, count, state, _ | failure⟩ <;> rfl

theorem outcome_cons {node : Node} {rest : List Node} :
    (project supply s (node :: rest)).outcome =
      (projectNode supply s node).outcome.bind fun r =>
        (project supply r.2 rest).outcome.map fun more => (r.1 ++ more.1, more.2) := by
  rw [project]
  rcases projectNode supply s node with ⟨nodes, count, s₁, _ | failure⟩
  · simp only [Projection.outcome, Except.bind]
    cases (project supply s₁ rest).failure <;> rfl
  · rfl

end ComponentCompiler.Markup
