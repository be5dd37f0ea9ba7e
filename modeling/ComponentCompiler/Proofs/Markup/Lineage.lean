import ComponentCompiler.Markup.Node
import Mathlib.Data.List.Basic

namespace ComponentCompiler.Markup

def Node.bare : Node → Node
  | .element tag attributes _ => .element tag attributes []
  | node => node

def Node.inside : Node → List Node
  | .element _ _ children => children
  | _ => []

mutual

/-- The nodes of a tree, each behind the nodes around it and all without what they hold. -/
def Node.lineages : Node → List (List Node)
  | .element tag attributes children =>
    [.element tag attributes []] :: (lineages children).map (.element tag attributes [] :: ·)
  | node => [[node]]

def lineages : List Node → List (List Node)
  | [] => []
  | node :: rest => node.lineages ++ lineages rest

end

theorem Node.lineages_eq (node : Node) :
    node.lineages = [node.bare] :: (Markup.lineages node.inside).map (node.bare :: ·) := by
  cases node <;> simp [Node.lineages, bare, inside, Markup.lineages]

@[simp] theorem lineages_append (xs ys : List Node) :
    lineages (xs ++ ys) = lineages xs ++ lineages ys := by
  induction xs with
  | nil => rfl
  | cons x xs ih => rw [List.cons_append, lineages, lineages, ih, List.append_assoc]

theorem ne_nil_of_mem_lineages {nodes : List Node} {line : List Node}
    (member : line ∈ lineages nodes) : line ≠ [] := by
  induction nodes with
  | nil => cases member
  | cons node rest ih =>
    rw [lineages, Node.lineages_eq, List.cons_append, List.mem_cons, List.mem_append,
      List.mem_map] at member
    rcases member with rfl | ⟨below, -, rfl⟩ | after
    · exact List.cons_ne_nil _ _
    · exact List.cons_ne_nil _ _
    · exact ih after

theorem takeWhile_lineages (node : Node) (inner rest : List Node) :
    ((lineages inner).map (node :: ·) ++ lineages rest).takeWhile (2 ≤ ·.length) =
        (lineages inner).map (node :: ·) ∧
      ((lineages inner).map (node :: ·) ++ lineages rest).dropWhile (2 ≤ ·.length) =
        lineages rest := by
  have below : ∀ line ∈ (lineages inner).map (node :: ·), decide (2 ≤ line.length) = true := by
    rw [List.forall_mem_map]
    intro line member
    have nonempty := List.length_pos_iff.2 (ne_nil_of_mem_lineages member)
    rw [decide_eq_true_eq, List.length_cons]
    omega
  rw [List.takeWhile_append_of_pos below, List.dropWhile_append_of_pos below]
  cases rest with
  | nil => exact ⟨List.append_nil _, rfl⟩
  | cons next rest => simp [lineages, Node.lineages_eq]

mutual

theorem Node.eq_of_lineages : (node node' : Node) → node.bare = node'.bare →
    Markup.lineages node.inside = Markup.lineages node'.inside → node = node'
  | .element tag attributes children, .element tag' attributes' children', bare, inside => by
    obtain ⟨rfl, rfl, -⟩ := Node.element.inj bare
    rw [lineages_inj children children' inside]
  | .element .., .text _, bare, _ | .element .., .comment _, bare, _
  | .element .., .doctype .., bare, _ => by cases bare
  | .text _, node', bare, _ | .comment _, node', bare, _ | .doctype .., node', bare, _ => by
    cases node' <;> cases bare
    rfl

theorem lineages_inj : (nodes nodes' : List Node) → lineages nodes = lineages nodes' →
    nodes = nodes'
  | [], [], _ => rfl
  | [], node' :: rest', same => by simp [lineages, Node.lineages_eq] at same
  | node :: rest, [], same => by simp [lineages, Node.lineages_eq] at same
  | node :: rest, node' :: rest', same => by
    rw [lineages, lineages, Node.lineages_eq, Node.lineages_eq, List.cons_append,
      List.cons_append, List.cons.injEq, List.singleton_inj] at same
    obtain ⟨bare, lines⟩ := same
    rw [← bare] at lines
    obtain ⟨below, after⟩ := takeWhile_lineages node.bare node.inside rest
    obtain ⟨below', after'⟩ := takeWhile_lineages node.bare node'.inside rest'
    rw [lines] at below after
    have inside := List.map_injective_iff.2 (List.cons_injective) (below.symm.trans below')
    rw [Node.eq_of_lineages node node' bare inside,
      lineages_inj rest rest' (after.symm.trans after')]

end

end ComponentCompiler.Markup
