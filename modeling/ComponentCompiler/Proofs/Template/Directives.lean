import ComponentCompiler.Proofs.Markup.Lineage
import ComponentCompiler.Proofs.Template.Evaluation

namespace ComponentCompiler.Template

open Expression (holds)
open Markup (Attribute Everywhere Node lineages lineages_append lineages_inj)

variable {context : Context}

def Fails (context : Context) (attributes : List Attribute) (name : String) : Prop :=
  ∃ value, Attribute.InEffect attributes name value ∧ holds value context = false

theorem fails_iff {attributes : List Attribute} {name : String} :
    Fails context attributes name ↔ passes context attributes name = false := by
  simp only [Fails, ← Attribute.get?_eq_some, passes]
  cases Attribute.get? attributes name <;> simp

instance (attributes : List Attribute) (name : String) :
    Decidable (Fails context attributes name) :=
  decidable_of_iff _ fails_iff.symm

/-- The attributes of an element that stays: the directives are gone, the others are in their
order, and the element is hidden when its `if` fails. -/
def settled (context : Context) (attributes : List Attribute) : List Attribute :=
  let others := attributes.filter fun a => !isDirective a.name
  if Fails context attributes "if" then Attribute.appendStyle others hidingStyle else others

theorem settle_eq_settled (attributes : List Attribute) :
    settle context attributes = settled context attributes := by
  have others : Attribute.remove (Attribute.remove attributes "del-if") "if" =
      attributes.filter fun a => !isDirective a.name := by
    rw [Attribute.remove, Attribute.remove, List.filter_filter]
    refine List.filter_congr fun a _ => ?_
    simp [isDirective]
  simp only [settle, settled, others, fails_iff]
  cases passes context attributes "if" <;> rfl

/-- A node that is not removed for itself. -/
def Stays (context : Context) : Node → Prop
  | .element _ attributes _ => ¬ Fails context attributes "del-if"
  | _ => True

instance : (node : Node) → Decidable (Stays context node)
  | .element _ attributes _ => inferInstanceAs (Decidable (¬ Fails context attributes "del-if"))
  | .text _ | .comment _ | .doctype .. => isTrue trivial

def settledNode (context : Context) : Node → Node
  | .element tag attributes children => .element tag (settled context attributes) children
  | node => node

def staying (context : Context) (lines : List (List Node)) : List (List Node) :=
  (lines.filter fun line => ∀ node ∈ line, Stays context node).map (List.map (settledNode context))

theorem staying_append (xs ys : List (List Node)) :
    staying context (xs ++ ys) = staying context xs ++ staying context ys := by
  simp [staying]

theorem staying_below {node : Node} (stays : Stays context node) (lines : List (List Node)) :
    staying context (lines.map (node :: ·)) =
      (staying context lines).map (settledNode context node :: ·) := by
  simp [staying, List.filter_map, Function.comp_def, stays]

theorem staying_below_removed {node : Node} (removed : ¬ Stays context node)
    (lines : List (List Node)) : staying context (lines.map (node :: ·)) = [] := by
  simp [staying, List.filter_map, Function.comp_def, removed]

mutual

theorem lineages_resolveNode (node : Node) :
    lineages (resolveNode context node) = staying context node.lineages := by
  cases node with
  | element tag attributes children =>
    have lines : (Node.element tag attributes children).lineages =
        ([] :: lineages children).map (.element tag attributes [] :: ·) := rfl
    rw [resolveNode, lines]
    cases here : passes context attributes "del-if" with
    | true =>
      have stays : Stays context (.element tag attributes []) := by simp [Stays, fails_iff, here]
      rw [if_pos rfl, staying_below stays]
      simp [lineages, Node.lineages, lineages_resolve children, staying, settledNode,
        settle_eq_settled]
    | false =>
      have removed : ¬ Stays context (.element tag attributes []) := by
        simp [Stays, fails_iff, here]
      rw [if_neg (by simp), staying_below_removed removed]
      rfl
  | text | comment | doctype =>
    simp [resolveNode, lineages, Node.lineages, staying, Stays, settledNode]

theorem lineages_resolve (nodes : List Node) :
    lineages (resolve context nodes) = staying context (lineages nodes) := by
  cases nodes with
  | nil => rfl
  | cons node rest =>
    rw [resolve, lineages_append, lineages_resolveNode node, lineages_resolve rest, lineages,
      staying_append]

end

theorem settle_of_undirected {tag : String} {attributes : List Attribute}
    (undirected : Undirected tag attributes) : settle context attributes = attributes := by
  have absent {name : String} (lacking : Attribute.has attributes name = false) :
      Attribute.remove attributes name = attributes := by
    rw [Attribute.remove, List.filter_eq_self]
    simpa [Attribute.has] using lacking
  have shown : passes context attributes "if" = true := by
    rw [passes, Attribute.get?_eq_none.2 undirected.1]
    rfl
  simp only [settle, absent undirected.2, absent undirected.1, shown, if_true]

mutual

theorem resolveNode_of_undirected : (node : Node) → Everywhere Undirected [node] →
    resolveNode context node = [node]
  | .element tag attributes children, undirected => by
    obtain ⟨here, inside, -⟩ := Markup.everywhere_element_cons.1 undirected
    have stays : passes context attributes "del-if" = true := by
      rw [passes, Attribute.get?_eq_none.2 here.2]
      rfl
    rw [resolveNode, if_pos stays, settle_of_undirected here, resolve_of_undirected children inside]
  | .text _, _ | .comment _, _ | .doctype .., _ => by rw [resolveNode]; simp

theorem resolve_of_undirected : (nodes : List Node) → Everywhere Undirected nodes →
    resolve context nodes = nodes
  | [], _ => by rw [resolve]
  | node :: rest, undirected => by
    rw [← List.singleton_append, Markup.everywhere_append] at undirected
    rw [resolve, resolveNode_of_undirected node undirected.1,
      resolve_of_undirected rest undirected.2]
    rfl

end

theorem undirected_resolve (context : Context) (nodes : List Node) :
    Everywhere Undirected (resolve context nodes) := by
  rw [← Markup.erase_unmarked nodes, ← erase_resolveMarked, ← Markup.every_erase]
  exact every_resolveMarked (P := fun _ _ _ => True) (fun _ tag attributes _ =>
    undirected_settle tag attributes) _ fun _ _ => trivial

/-- The forest that is left has the nodes that stay and around which all stay, in their order and
nesting, each with what is left of its attributes.  It has no directives, so it is left as it is in
any context. -/
theorem resolve_filters (context : Context) (forest : List Node) :
    (∀ result, result = resolve context forest ↔
      lineages result = ((lineages forest).filter fun line => ∀ node ∈ line, Stays context node).map
        (List.map (settledNode context))) ∧
    Everywhere Undirected (resolve context forest) ∧
    ∀ other, resolve other (resolve context forest) = resolve context forest := by
  have left : lineages (resolve context forest) = staying context (lineages forest) :=
    lineages_resolve forest
  have undirected := undirected_resolve context forest
  refine ⟨fun result => ⟨?_, fun same => ?_⟩, undirected, fun other =>
    resolve_of_undirected _ undirected⟩
  · rintro rfl
    exact left
  · exact lineages_inj _ _ (same.trans left.symm)

end ComponentCompiler.Template
