import ComponentCompiler.Proofs.Markup.Marked
import ComponentCompiler.Template.Directive

namespace ComponentCompiler.Template

open Markup (Attribute Every Mark Marked erase erase_append)

mutual

def resolveMarkedNode (context : Context) : Marked → List Marked
  | .element mark tag attributes children =>
    if passes context attributes "del-if" then
      [.element mark tag (settle context attributes) (resolveMarked context children)]
    else []
  | node => [node]

def resolveMarked (context : Context) : List Marked → List Marked
  | [] => []
  | node :: rest => resolveMarkedNode context node ++ resolveMarked context rest

end

mutual

def interpolateMarkedNode (context : Context) : Marked → Marked
  | .text value => .text (interpolate context value)
  | .element mark tag attributes children =>
    .element mark tag (attributes.map (interpolateAttribute context))
      (if Markup.isRawText tag then children else interpolateMarked context children)
  | node => node

def interpolateMarked (context : Context) : List Marked → List Marked
  | [] => []
  | node :: rest => interpolateMarkedNode context node :: interpolateMarked context rest

end

def evaluate (context : Context) (parsed : List Marked) : List Marked :=
  interpolateMarked context (resolveMarked context parsed)

variable {context : Context}

mutual

theorem erase_resolveMarkedNode : (node : Marked) →
    erase (resolveMarkedNode context node) = resolveNode context node.erase
  | .element mark tag attributes children => by
    rw [resolveMarkedNode, Marked.erase, resolveNode]
    split
    · simp [erase, Marked.erase, erase_resolveMarked children]
    · rfl
  | .text _ | .comment _ | .doctype .. => by
    simp [resolveMarkedNode, Marked.erase, resolveNode, erase]

theorem erase_resolveMarked : (nodes : List Marked) →
    erase (resolveMarked context nodes) = resolve context (erase nodes)
  | [] => by simp [resolveMarked, erase, resolve]
  | node :: rest => by
    rw [resolveMarked, erase_append, erase_resolveMarkedNode node, erase_resolveMarked rest, erase,
      resolve]

end

mutual

theorem erase_interpolateMarkedNode : (node : Marked) →
    (interpolateMarkedNode context node).erase = interpolateNode context node.erase
  | .element mark tag attributes children => by
    rw [interpolateMarkedNode, Marked.erase, Marked.erase, interpolateNode]
    split
    · rfl
    · rw [erase_interpolateMarked children]
  | .text _ | .comment _ | .doctype .. => by
    simp [interpolateMarkedNode, Marked.erase, interpolateNode]

theorem erase_interpolateMarked : (nodes : List Marked) →
    erase (interpolateMarked context nodes) = interpolateNodes context (erase nodes)
  | [] => by simp [interpolateMarked, erase, interpolateNodes]
  | node :: rest => by
    rw [interpolateMarked, erase, erase_interpolateMarkedNode node, erase_interpolateMarked rest,
      erase, interpolateNodes]

end

theorem erase_evaluate {parsed : List Marked} {body : String}
    (reads : erase parsed = Markup.parseFragment body) :
    erase (evaluate context parsed) = instantiate body context := by
  rw [evaluate, erase_interpolateMarked, erase_resolveMarked, reads, instantiate]

section Every

variable {P Q : Mark → String → List Attribute → Prop}

mutual

theorem every_resolveMarkedNode (step : ∀ mark tag attributes, P mark tag attributes →
    Q mark tag (settle context attributes)) :
    (node : Marked) → Every P [node] → Every Q (resolveMarkedNode context node)
  | .element mark tag attributes children, holds => by
    obtain ⟨here, inside, -⟩ := Markup.every_element_cons.1 holds
    rw [resolveMarkedNode]
    split
    · exact Markup.every_element_cons.2
        ⟨step _ _ _ here, every_resolveMarked step children inside, Markup.every_nil⟩
    · exact Markup.every_nil
  | .text _, _ | .comment _, _ | .doctype .., _ => by simp [resolveMarkedNode]

theorem every_resolveMarked (step : ∀ mark tag attributes, P mark tag attributes →
    Q mark tag (settle context attributes)) :
    (nodes : List Marked) → Every P nodes → Every Q (resolveMarked context nodes)
  | [], _ => Markup.every_nil
  | node :: rest, holds => by
    rw [← List.singleton_append, Markup.every_append] at holds
    rw [resolveMarked, Markup.every_append]
    exact ⟨every_resolveMarkedNode step node holds.1, every_resolveMarked step rest holds.2⟩

end

mutual

theorem every_interpolateMarkedNode (step : ∀ mark tag attributes, P mark tag attributes →
    P mark tag (attributes.map (interpolateAttribute context))) :
    (node : Marked) → Every P [node] → Every P [interpolateMarkedNode context node]
  | .element mark tag attributes children, holds => by
    obtain ⟨here, inside, -⟩ := Markup.every_element_cons.1 holds
    rw [interpolateMarkedNode, Markup.every_element_cons]
    refine ⟨step _ _ _ here, ?_, Markup.every_nil⟩
    split
    · exact inside
    · exact every_interpolateMarked step children inside
  | .text _, _ | .comment _, _ | .doctype .., _ => by simp [interpolateMarkedNode]

theorem every_interpolateMarked (step : ∀ mark tag attributes, P mark tag attributes →
    P mark tag (attributes.map (interpolateAttribute context))) :
    (nodes : List Marked) → Every P nodes → Every P (interpolateMarked context nodes)
  | [], _ => Markup.every_nil
  | node :: rest, holds => by
    rw [← List.singleton_append, Markup.every_append] at holds
    rw [interpolateMarked, ← List.singleton_append, Markup.every_append]
    exact ⟨every_interpolateMarkedNode step node holds.1,
      every_interpolateMarked step rest holds.2⟩

end

theorem every_evaluate
    (directives : ∀ mark tag attributes, P mark tag attributes →
      Q mark tag (settle context attributes))
    (placeholders : ∀ mark tag attributes, Q mark tag attributes →
      Q mark tag (attributes.map (interpolateAttribute context)))
    {parsed : List Marked} (holds : Every P parsed) : Every Q (evaluate context parsed) :=
  every_interpolateMarked placeholders _ (every_resolveMarked directives parsed holds)

end Every

end ComponentCompiler.Template
