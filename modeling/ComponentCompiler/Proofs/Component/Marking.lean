import ComponentCompiler.Component.Instance
import ComponentCompiler.Proofs.Template.Evaluation

namespace ComponentCompiler.Component

open Markup (Attribute Every Everywhere Mark Marked Node erase)

namespace Instance

def markAttributes (i : Instance) (attributes : List Attribute) : List Attribute :=
  let classed := (i.scopeClass.map (Attribute.addClass attributes)).getD attributes
  (i.bindingId.map fun id => Attribute.set Identity.bindingAttribute id classed).getD classed

variable (i : Instance)

@[simp] theorem mark_nil : i.mark [] = [] :=
  rfl

@[simp] theorem mark_element_cons (tag : String) (attributes : List Attribute)
    (children rest : List Node) :
    i.mark (.element tag attributes children :: rest) =
      .element tag (i.markAttributes attributes) children :: rest :=
  rfl

theorem mark_leaf_cons {node : Node} {rest : List Node}
    (leaf : ∀ f, Markup.updateFirstRoot? f (node :: rest) =
      (Markup.updateFirstRoot? f rest).map (node :: ·)) :
    i.mark (node :: rest) = node :: i.mark rest := by
  simp only [mark, leaf]
  cases Markup.updateFirstRoot? _ rest <;> rfl

@[simp] theorem mark_text_cons (value : String) (rest : List Node) :
    i.mark (.text value :: rest) = .text value :: i.mark rest :=
  i.mark_leaf_cons fun _ => rfl

@[simp] theorem mark_comment_cons (value : String) (rest : List Node) :
    i.mark (.comment value :: rest) = .comment value :: i.mark rest :=
  i.mark_leaf_cons fun _ => rfl

@[simp] theorem mark_doctype_cons (name publicId systemId : String) (rest : List Node) :
    i.mark (.doctype name publicId systemId :: rest) =
      .doctype name publicId systemId :: i.mark rest :=
  i.mark_leaf_cons fun _ => rfl

def markFollowed : List Marked → List Marked
  | [] => []
  | .element mark tag attributes children :: rest =>
    .element mark tag (i.markAttributes attributes) children :: rest
  | node :: rest => node :: markFollowed rest

theorem erase_markFollowed : (nodes : List Marked) →
    erase (i.markFollowed nodes) = i.mark (erase nodes)
  | [] => rfl
  | .element .. :: _ => rfl
  | .text _ :: rest | .comment _ :: rest | .doctype .. :: rest => by
    simp [markFollowed, erase, Marked.erase, erase_markFollowed rest]

theorem every_markFollowed {P : Mark → String → List Attribute → Prop}
    (step : ∀ mark tag attributes, P mark tag attributes →
      P mark tag (i.markAttributes attributes)) :
    (nodes : List Marked) → Every P nodes → Every P (i.markFollowed nodes)
  | [], _ => Markup.every_nil
  | .element .. :: _, holds => by
    obtain ⟨here, inside, after⟩ := Markup.every_element_cons.1 holds
    exact Markup.every_element_cons.2 ⟨step _ _ _ here, inside, after⟩
  | .text _ :: rest, holds | .comment _ :: rest, holds | .doctype .. :: rest, holds => by
    simpa [markFollowed] using every_markFollowed step rest (by simpa using holds)

theorem everywhere_mark {P : String → List Attribute → Prop}
    (step : ∀ tag attributes, P tag attributes → P tag (i.markAttributes attributes))
    {nodes : List Node} (holds : Everywhere P nodes) : Everywhere P (i.mark nodes) := by
  rw [← Markup.erase_unmarked nodes, ← i.erase_markFollowed, ← Markup.every_erase]
  exact i.every_markFollowed (fun _ => step) _ (Markup.every_unmarked.2 holds)

theorem get?_markAttributes_of_ne {name : String} (notClass : name ≠ "class")
    (notBinding : name ≠ Identity.bindingAttribute) (attributes : List Attribute) :
    Attribute.get? (i.markAttributes attributes) name = Attribute.get? attributes name := by
  have classed : Attribute.get?
      ((i.scopeClass.map (Attribute.addClass attributes)).getD attributes) name =
        Attribute.get? attributes name := by
    cases i.scopeClass with
    | none => rfl
    | some className => exact Attribute.get?_addClass notClass _ _
  rw [markAttributes]
  cases i.bindingId with
  | none => exact classed
  | some id => exact (Attribute.get?_set_of_ne notBinding.symm _ _).trans classed

theorem has_markAttributes {name : String} (notClass : name ≠ "class")
    (notBinding : name ≠ Identity.bindingAttribute) (attributes : List Attribute) :
    Attribute.has (i.markAttributes attributes) name = Attribute.has attributes name := by
  rw [Attribute.has_eq_isSome, i.get?_markAttributes_of_ne notClass notBinding,
    Attribute.has_eq_isSome]

theorem get?_markAttributes {attributes : List Attribute}
    (unbound : Attribute.has attributes Identity.bindingAttribute = false) :
    Attribute.get? (i.markAttributes attributes) Identity.bindingAttribute = i.bindingId := by
  have classed : Attribute.has ((i.scopeClass.map (Attribute.addClass attributes)).getD attributes)
      Identity.bindingAttribute = false := by
    cases i.scopeClass with
    | none => exact unbound
    | some className => exact (Attribute.has_addClass (by decide) _ _).trans unbound
  rw [markAttributes]
  cases i.bindingId with
  | none => exact Attribute.get?_eq_none.2 classed
  | some id => exact Attribute.get?_set_self (Attribute.once_of_absent classed) id

theorem mem_classes_markAttributes {attributes : List Attribute}
    (once : Attribute.Once "class" attributes)
    (isToken : ∀ className, i.scopeClass = some className → Text.IsToken className)
    {w : List Char} : w ∈ Attribute.classes (i.markAttributes attributes) ↔
      w ∈ Attribute.classes attributes ∨ ∃ className, i.scopeClass = some className ∧
        w = className.toList := by
  have bound : ∀ classed, Attribute.classes ((i.bindingId.map fun id =>
      Attribute.set Identity.bindingAttribute id classed).getD classed) =
        Attribute.classes classed := by
    intro classed
    cases i.bindingId with
    | none => rfl
    | some id => exact Attribute.classes_set_of_ne (by decide) id classed
  rw [markAttributes, bound]
  cases scope : i.scopeClass with
  | none => simp
  | some className =>
    simpa using Attribute.mem_classes_addClass once (isToken className scope)

end Instance

end ComponentCompiler.Component
