import ComponentCompiler.Markup.Node

namespace ComponentCompiler.Markup

/-- How far a projection came: the forest, the number of slots replaced, the supplier's state, and
its error if it failed.  After a failure the slots from the failed one on stand as they were. -/
structure Projection (σ ε : Type) where
  nodes : List Node
  replaced : Nat
  state : σ
  failure : Option ε

abbrev Supplier (σ ε : Type) := σ → Except ε (List Node × σ)

def slotTag : String := "slot"

mutual

def projectNode {σ ε : Type} (supply : Supplier σ ε) (s : σ) : Node → Projection σ ε
  | .element tag attributes children =>
    if hasTag slotTag tag then
      match supply s with
      | .ok (nodes, s) => ⟨nodes, 1, s, none⟩
      | .error e => ⟨[.element tag attributes children], 0, s, some e⟩
    else
      let p := project supply s children
      { p with nodes := [.element tag attributes p.nodes] }
  | node => ⟨[node], 0, s, none⟩

def project {σ ε : Type} (supply : Supplier σ ε) (s : σ) : List Node → Projection σ ε
  | [] => ⟨[], 0, s, none⟩
  | node :: rest =>
    let p := projectNode supply s node
    match p.failure with
    | some _ => { p with nodes := p.nodes ++ rest }
    | none =>
      let q := project supply p.state rest
      { q with nodes := p.nodes ++ q.nodes, replaced := p.replaced + q.replaced }

end

end ComponentCompiler.Markup
