import ComponentCompiler.Proofs.Markup.Forest

namespace ComponentCompiler.Markup

/-- What an element has to do with the elements that are followed: nothing, or it is one of them or
a copy of one, or it stands in the place of one. -/
inductive Mark
  | other
  | itself
  | heir
deriving DecidableEq

inductive Marked
  | element (mark : Mark) (tag : String) (attributes : List Attribute) (children : List Marked)
  | text (value : String)
  | comment (value : String)
  | doctype (name publicId systemId : String)

namespace Marked

def isElement : Marked → Bool
  | .element .. => true
  | _ => false

theorem isElement_iff {node : Marked} : node.isElement = true ↔
    ∃ mark tag attributes children, node = .element mark tag attributes children := by
  cases node <;> simp [isElement]

end Marked

mutual

def Marked.erase : Marked → Node
  | .element _ tag attributes children => .element tag attributes (erase children)
  | .text value => .text value
  | .comment value => .comment value
  | .doctype name publicId systemId => .doctype name publicId systemId

def erase : List Marked → List Node
  | [] => []
  | node :: rest => node.erase :: erase rest

end

mutual

def Node.unmarked : Node → Marked
  | .element tag attributes children => .element .other tag attributes (unmarked children)
  | .text value => .text value
  | .comment value => .comment value
  | .doctype name publicId systemId => .doctype name publicId systemId

def unmarked : List Node → List Marked
  | [] => []
  | node :: rest => node.unmarked :: unmarked rest

end

@[simp] theorem erase_append (xs ys : List Marked) : erase (xs ++ ys) = erase xs ++ erase ys := by
  induction xs with
  | nil => rfl
  | cons x xs ih => simp [erase, ih]

mutual

theorem Node.erase_unmarked : (node : Node) → node.unmarked.erase = node
  | .element tag attributes children => by
    rw [Node.unmarked, Marked.erase, erase_unmarked children]
  | .text _ => rfl
  | .comment _ => rfl
  | .doctype .. => rfl

@[simp] theorem erase_unmarked : (nodes : List Node) → erase (unmarked nodes) = nodes
  | [] => rfl
  | node :: rest => by rw [unmarked, erase, node.erase_unmarked, erase_unmarked rest]

end

/-- The mark of an outermost element that takes the place of another one. -/
def Mark.inherit : Mark → (replaced : Mark) → Mark
  | .other, .other => .other
  | .other, _ => .heir
  | own, _ => own

def Marked.inherit (replaced : Mark) : Marked → Marked
  | .element mark tag attributes children =>
    .element (mark.inherit replaced) tag attributes children
  | node => node

def inherit (replaced : Mark) (nodes : List Marked) : List Marked :=
  nodes.map (Marked.inherit replaced)

@[simp] theorem erase_inherit (replaced : Mark) (nodes : List Marked) :
    erase (inherit replaced nodes) = erase nodes := by
  induction nodes with
  | nil => rfl
  | cons node rest ih =>
    have head : (node.inherit replaced).erase = node.erase := by cases node <;> rfl
    simpa [inherit, erase, head] using ih

mutual

def Marked.parts : Marked → List (Mark × String × List Attribute)
  | .element mark tag attributes children => (mark, tag, attributes) :: parts children
  | _ => []

def parts : List Marked → List (Mark × String × List Attribute)
  | [] => []
  | node :: rest => node.parts ++ parts rest

end

def Every (P : Mark → String → List Attribute → Prop) (nodes : List Marked) : Prop :=
  ∀ e ∈ parts nodes, P e.1 e.2.1 e.2.2

section Every

variable {P Q : Mark → String → List Attribute → Prop} {xs ys rest : List Marked}

@[simp] theorem every_nil : Every P [] := by
  simp [Every, parts]

@[simp] theorem every_append : Every P (xs ++ ys) ↔ Every P xs ∧ Every P ys := by
  have split : parts (xs ++ ys) = parts xs ++ parts ys := by
    induction xs with
    | nil => rfl
    | cons x xs ih => simp [parts, ih]
  simp [Every, split, or_imp, forall_and]

@[simp] theorem every_element_cons {mark : Mark} {tag : String} {attributes : List Attribute}
    {children : List Marked} :
    Every P (.element mark tag attributes children :: rest) ↔
      P mark tag attributes ∧ Every P children ∧ Every P rest := by
  simp [Every, parts, Marked.parts, or_imp, forall_and]

@[simp] theorem every_text_cons {value : String} : Every P (.text value :: rest) ↔ Every P rest :=
  Iff.rfl

@[simp] theorem every_comment_cons {value : String} :
    Every P (.comment value :: rest) ↔ Every P rest :=
  Iff.rfl

@[simp] theorem every_doctype_cons {name publicId systemId : String} :
    Every P (.doctype name publicId systemId :: rest) ↔ Every P rest :=
  Iff.rfl

theorem every_leaf_cons {node : Marked} (leaf : node.isElement = false) :
    Every P (node :: rest) ↔ Every P rest := by
  cases node with
  | element => cases leaf
  | text | comment | doctype => simp

theorem Every.imp (weaker : ∀ mark tag attributes, P mark tag attributes →
    Q mark tag attributes) (holds : Every P xs) : Every Q xs :=
  fun e member => weaker _ _ _ (holds e member)

theorem Every.and (holds : Every P xs) (also : Every Q xs) :
    Every (fun mark tag attributes => P mark tag attributes ∧ Q mark tag attributes) xs :=
  fun e member => ⟨holds e member, also e member⟩

mutual

theorem Node.every_unmarked : (node : Node) →
    (Every P [node.unmarked] ↔ Everywhere (P .other) [node])
  | .element .. => by
    rw [Node.unmarked, every_element_cons, everywhere_element_cons, Markup.every_unmarked]
    simp
  | .text _ | .comment _ | .doctype .. => by
    simp [Node.unmarked]

theorem every_unmarked : {nodes : List Node} →
    (Every P (unmarked nodes) ↔ Everywhere (P .other) nodes)
  | [] => by simp [unmarked]
  | node :: rest => by
    rw [unmarked, ← List.singleton_append, every_append, node.every_unmarked, every_unmarked,
      ← List.singleton_append (l := rest), everywhere_append]

end

mutual

theorem Marked.every_erase {R : String → List Attribute → Prop} : (node : Marked) →
    (Every (fun _ => R) [node] ↔ Everywhere R [node.erase])
  | .element .. => by
    rw [Marked.erase, everywhere_element_cons, every_element_cons, Markup.every_erase]
    simp
  | .text _ | .comment _ | .doctype .. => by
    simp [Marked.erase]

theorem every_erase {R : String → List Attribute → Prop} : {nodes : List Marked} →
    (Every (fun _ => R) nodes ↔ Everywhere R (erase nodes))
  | [] => by simp [erase]
  | node :: rest => by
    rw [← List.singleton_append, every_append, node.every_erase, every_erase, erase_append, erase,
      erase, everywhere_append]

end

theorem every_inherit {replaced : Mark} (step : ∀ mark tag attributes, P mark tag attributes →
    P (mark.inherit replaced) tag attributes) :
    (nodes : List Marked) → Every P nodes → Every P (inherit replaced nodes)
  | [], _ => every_nil
  | .element .. :: rest, holds => by
    obtain ⟨here, inside, after⟩ := every_element_cons.1 holds
    exact every_element_cons.2 ⟨step _ _ _ here, inside, every_inherit step rest after⟩
  | .text _ :: rest, holds | .comment _ :: rest, holds | .doctype .. :: rest, holds =>
    (every_leaf_cons rfl).2 (every_inherit step rest ((every_leaf_cons rfl).1 holds))

end Every

end ComponentCompiler.Markup
