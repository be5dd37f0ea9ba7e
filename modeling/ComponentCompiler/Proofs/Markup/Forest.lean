import ComponentCompiler.Markup.Slot

namespace ComponentCompiler.Markup

mutual

/-- The elements of a node, at any depth, that neither satisfy `p` nor stand in one that does. -/
def Node.outside (p : String → Bool) : Node → List Element
  | .element tag attributes children =>
    if p tag then [] else ⟨tag, attributes, children⟩ :: outside p children
  | _ => []

def outside (p : String → Bool) : List Node → List Element
  | [] => []
  | node :: rest => node.outside p ++ outside p rest

end

def noTag : String → Bool := fun _ => false

abbrev elements (nodes : List Node) : List Element :=
  outside noTag nodes

abbrev isSlot (tag : String) : Bool :=
  hasTag slotTag tag

@[simp] theorem outside_append (p : String → Bool) (xs ys : List Node) :
    outside p (xs ++ ys) = outside p xs ++ outside p ys := by
  induction xs with
  | nil => rfl
  | cons x xs ih => simp [outside, ih]

theorem mem_outside_cons {p : String → Bool} {e : Element} {tag : String}
    {attributes : List Attribute} {children rest : List Node} :
    e ∈ outside p (.element tag attributes children :: rest) ↔
      (p tag = false ∧ (e = ⟨tag, attributes, children⟩ ∨ e ∈ outside p children)) ∨
        e ∈ outside p rest := by
  cases h : p tag <;> simp [outside, Node.outside, h, or_assoc]

theorem eq_false_of_mem_outside {p : String → Bool} {e : Element} : {nodes : List Node} →
    e ∈ outside p nodes → p e.tag = false
  | .element .. :: _, member => by
    rcases mem_outside_cons.1 member with ⟨plain, rfl | inside⟩ | after
    · exact plain
    · exact eq_false_of_mem_outside inside
    · exact eq_false_of_mem_outside after
  | .text _ :: rest, member | .comment _ :: rest, member | .doctype .. :: rest, member => by
    have after : e ∈ outside p rest := by simpa [outside, Node.outside] using member
    exact eq_false_of_mem_outside after

def Everywhere (P : String → List Attribute → Prop) (nodes : List Node) : Prop :=
  ∀ e ∈ elements nodes, P e.tag e.attributes

instance {P : String → List Attribute → Prop} [∀ tag attributes, Decidable (P tag attributes)]
    (nodes : List Node) : Decidable (Everywhere P nodes) :=
  inferInstanceAs (Decidable (∀ e ∈ elements nodes, P e.tag e.attributes))

section Everywhere

variable {P : String → List Attribute → Prop} {xs ys rest : List Node}

@[simp] theorem everywhere_nil : Everywhere P [] := by
  simp [Everywhere, outside]

@[simp] theorem everywhere_append :
    Everywhere P (xs ++ ys) ↔ Everywhere P xs ∧ Everywhere P ys := by
  simp [Everywhere, or_imp, forall_and]

@[simp] theorem everywhere_element_cons {tag : String} {attributes : List Attribute}
    {children : List Node} :
    Everywhere P (.element tag attributes children :: rest) ↔
      P tag attributes ∧ Everywhere P children ∧ Everywhere P rest := by
  simp [Everywhere, mem_outside_cons, noTag, or_imp, forall_and, and_assoc]

@[simp] theorem everywhere_text_cons {value : String} :
    Everywhere P (.text value :: rest) ↔ Everywhere P rest := by
  simp [Everywhere, outside, Node.outside]

@[simp] theorem everywhere_comment_cons {value : String} :
    Everywhere P (.comment value :: rest) ↔ Everywhere P rest := by
  simp [Everywhere, outside, Node.outside]

@[simp] theorem everywhere_doctype_cons {name publicId systemId : String} :
    Everywhere P (.doctype name publicId systemId :: rest) ↔ Everywhere P rest := by
  simp [Everywhere, outside, Node.outside]

theorem Everywhere.root {root : Element} : {nodes : List Node} → Everywhere P nodes →
    firstRoot? nodes = some root → P root.tag root.attributes
  | .element .. :: rest, holds, found => by
    obtain rfl := Option.some.inj found
    exact (everywhere_element_cons.1 holds).1
  | .text _ :: rest, holds, found | .comment _ :: rest, holds, found
  | .doctype .. :: rest, holds, found => by
    have after : Everywhere P rest := by simpa using holds
    exact Everywhere.root after found

end Everywhere

end ComponentCompiler.Markup
