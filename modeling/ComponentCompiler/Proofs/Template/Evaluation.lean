import ComponentCompiler.Proofs.Html.Rules
import ComponentCompiler.Proofs.Template.Following
import ComponentCompiler.Proofs.Template.Interpolation
import Mathlib.Data.List.Infix

namespace ComponentCompiler.Template

open Markup (Attribute Every Everywhere Mark Marked erase)

variable {P Q : String → List Attribute → Prop} {context : Context}

/-- What directives make hold of every element of a body, and placeholders keep, holds of every
element of what the body evaluates to. -/
theorem everywhere_instantiate {body : String}
    (directives : ∀ tag attributes, P tag attributes → Q tag (settle context attributes))
    (placeholders : ∀ tag attributes, Q tag attributes →
      Q tag (attributes.map (interpolateAttribute context)))
    (holds : Everywhere P (Markup.parseFragment body)) :
    Everywhere Q (instantiate body context) := by
  rw [← erase_evaluate (Markup.erase_unmarked (Markup.parseFragment body)), ← Markup.every_erase]
  exact every_evaluate (fun _ => directives) (fun _ => placeholders) (Markup.every_unmarked.2 holds)

def Undirected (_tag : String) (attributes : List Attribute) : Prop :=
  Attribute.has attributes "if" = false ∧ Attribute.has attributes "del-if" = false

theorem undirected_settle (tag : String) (attributes : List Attribute) :
    Undirected tag (settle context attributes) := by
  have plain : Undirected tag (Attribute.remove (Attribute.remove attributes "del-if") "if") :=
    ⟨Attribute.has_remove_self _ _, by
      rw [Attribute.has_remove_of_ne (by decide), Attribute.has_remove_self]⟩
  unfold settle
  dsimp only
  split
  · exact plain
  · rw [Undirected, Attribute.has_appendStyle (by decide), Attribute.has_appendStyle (by decide)]
    exact plain

@[simp] theorem interpolateAttribute_name (a : Attribute) :
    (interpolateAttribute context a).name = a.name := by
  rw [interpolateAttribute]
  split <;> rfl

@[simp] theorem has_interpolate (attributes : List Attribute) (name : String) :
    Attribute.has (attributes.map (interpolateAttribute context)) name =
      Attribute.has attributes name := by
  simp [Attribute.has, Function.comp_def]

theorem undirected_instantiate (body : String) (context : Context) :
    Everywhere Undirected (instantiate body context) := by
  refine everywhere_instantiate (P := fun _ _ => True)
    (fun tag attributes _ => undirected_settle tag attributes) (fun tag attributes holds => ?_)
    fun _ _ => trivial
  simpa [Undirected] using holds

def Lacking (name : String) (_tag : String) (attributes : List Attribute) : Prop :=
  Attribute.has attributes name = false

instance (name tag : String) (attributes : List Attribute) :
    Decidable (Lacking name tag attributes) :=
  inferInstanceAs (Decidable (_ = _))

theorem has_settle {name : String} (other : name ≠ "style") {attributes : List Attribute}
    (lacking : Attribute.has attributes name = false) :
    Attribute.has (settle context attributes) name = false := by
  have plain : Attribute.has
      (Attribute.remove (Attribute.remove attributes "del-if") "if") name = false := by
    simp only [Attribute.has, Attribute.remove, List.any_filter, List.any_eq_false] at lacking ⊢
    intro a member
    simp [lacking a member]
  unfold settle
  dsimp only
  split
  · exact plain
  · rw [Attribute.has_appendStyle other]
    exact plain

theorem lacking_instantiate {name body : String} (other : name ≠ "style")
    (parsed : Everywhere (Lacking name) (Markup.parseFragment body)) (context : Context) :
    Everywhere (Lacking name) (instantiate body context) := by
  refine everywhere_instantiate (fun _ _ lacking => has_settle other lacking)
    (fun tag attributes lacking => ?_) parsed
  simpa [Lacking] using lacking

theorem once_settle {name : String} {attributes : List Attribute}
    (once : Attribute.Once name attributes) : Attribute.Once name (settle context attributes) := by
  unfold settle
  dsimp only
  split
  · exact (once.remove _).remove _
  · exact ((once.remove _).remove _).set _ _

theorem once_interpolate {name : String} {attributes : List Attribute}
    (once : Attribute.Once name attributes) :
    Attribute.Once name (attributes.map (interpolateAttribute context)) := by
  rw [Attribute.Once] at once ⊢
  simpa only [List.countP_map, Function.comp_def, interpolateAttribute_name] using once

theorem once_instantiate {name : String} (stable : Html.Stable name) (body : String)
    (context : Context) :
    Everywhere (fun _ attributes => Attribute.Once name attributes) (instantiate body context) :=
  everywhere_instantiate (fun _ _ once => once_settle once) (fun _ _ once => once_interpolate once)
    (Markup.once_parseFragment stable body)

def isHidden (attributes : List Attribute) : Bool :=
  ((Attribute.get? attributes "style").map fun style =>
    decide (hidingStyle.toList <:+: style.toList)).getD false

def EndsHidden (attributes : List Attribute) : Prop :=
  ∃ style, Attribute.get? attributes "style" = some style ∧
    hidingStyle.toList <:+ style.toList

theorem EndsHidden.isHidden {attributes : List Attribute} (hidden : EndsHidden attributes) :
    isHidden attributes = true := by
  obtain ⟨style, inEffect, ends⟩ := hidden
  simp [Template.isHidden, inEffect, ends.isInfix]

theorem endsHidden_settle {attributes : List Attribute} (once : Attribute.Once "style" attributes)
    (failing : passes context attributes "if" = false) :
    EndsHidden (settle context attributes) := by
  unfold settle
  dsimp only
  rw [if_neg (by simp [failing])]
  exact Attribute.get?_appendStyle ((once.remove _).remove _) hidingStyle

theorem get?_interpolate {name : String} (plain : isDirective name = false)
    (attributes : List Attribute) :
    Attribute.get? (attributes.map (interpolateAttribute context)) name =
      (Attribute.get? attributes name).map (interpolate context) := by
  induction attributes with
  | nil => rfl
  | cons a rest ih =>
    by_cases same : a.name = name
    · simp [Attribute.get?_cons, ih, same, interpolateAttribute, plain]
    · simp [Attribute.get?_cons, ih, same]

theorem EndsHidden.interpolate {attributes : List Attribute} (hidden : EndsHidden attributes) :
    EndsHidden (attributes.map (interpolateAttribute context)) := by
  obtain ⟨style, inEffect, ends⟩ := hidden
  refine ⟨Template.interpolate context style, ?_, ?_⟩
  · rw [get?_interpolate (by decide), inEffect]
    rfl
  · rw [Template.interpolate, String.toList_ofList]
    exact suffix_interpolateChars (by decide) (by decide) ends

def Failing (context : Context) (mark : Mark) (_tag : String) (attributes : List Attribute) :
    Prop :=
  mark = .other ∨ mark = .itself ∧ passes context attributes "if" = false

def FollowedHidden (mark : Mark) (_tag : String) (attributes : List Attribute) : Prop :=
  mark = .other ∨ mark = .itself ∧ isHidden attributes = true

theorem evaluate_hidden {parsed : List Marked} {body : String}
    (reads : erase parsed = Markup.parseFragment body) (failing : Every (Failing context) parsed) :
    Every FollowedHidden (evaluate context parsed) := by
  have once : Every (fun _ _ attributes => Attribute.Once "style" attributes) parsed := by
    refine (Markup.every_erase (R := fun _ attributes => Attribute.Once "style" attributes)).2 ?_
    rw [reads]
    exact Markup.once_parseFragment Html.stable_style body
  have ends : Every (fun mark _ attributes => mark = .other ∨ mark = .itself ∧
      EndsHidden attributes) (evaluate context parsed) := by
    refine every_evaluate ?_ ?_ (failing.and once)
    · rintro mark tag attributes ⟨other | ⟨itself, fails⟩, single⟩
      · exact .inl other
      · exact .inr ⟨itself, endsHidden_settle single fails⟩
    · rintro mark tag attributes (other | ⟨itself, hidden⟩)
      · exact .inl other
      · exact .inr ⟨itself, hidden.interpolate⟩
  exact ends.imp fun mark tag attributes => Or.imp_right (And.imp_right EndsHidden.isHidden)

end ComponentCompiler.Template
