import ComponentCompiler.Proofs.Component.Derivation
import ComponentCompiler.Proofs.Component.Marking

namespace ComponentCompiler.Component

open Markup (Attribute Everywhere Marked Node erase erase_append erase_inherit erase_unmarked
  isSlot)
open Template (Undirected)

theorem everywhere_leaf_cons {P : String → List Attribute → Prop} {node : Marked}
    (leaf : node.isElement = false) (rest : List Node) :
    Everywhere P (node.erase :: rest) ↔ Everywhere P rest := by
  cases node with
  | element => cases leaf
  | text | comment | doctype => simp [Marked.erase]

theorem undirected_mark (i : Instance) (d : Definition) (context : Template.Context) :
    Everywhere Undirected (i.mark (Template.instantiate d.body context)) := by
  refine i.everywhere_mark (fun tag attributes holds => ?_)
    (Template.undirected_instantiate d.body context)
  rw [Undirected, i.has_markAttributes (by decide) (by decide),
    i.has_markAttributes (by decide) (by decide)]
  exact holds

theorem Run.undirected {c : Setting} {task : Task} {p p' : Progress} {sites : List Site}
    {out : List Marked} (run : Run c task p sites out p')
    (starts : task.StartsWith fun _ => Undirected) : Everywhere Undirected (erase out) :=
  Markup.every_erase.1 (run.every undirected_mark (fun _ _ _ _ => id) starts)

def Slotless (tag : String) (_attributes : List Attribute) : Prop :=
  isSlot tag = false

/-- Nothing that a task shows in the end is a slot to begin with. A body may have slots, since they
are filled, and what they are filled with has none. -/
def Task.ShowsSlotless : Task → Prop
  | .walk _ _ forest => Everywhere Slotless (erase forest)
  | .body .. => False
  | .fill _ _ held _ => Everywhere Slotless (erase held)

theorem Run.slotless {c : Setting} {task : Task} {p p' : Progress} {sites : List Site}
    {out : List Marked} (run : Run c task p sites out p') :
    task.ShowsSlotless → Everywhere Slotless (erase out) := by
  induction run with
  | walkNil => exact id
  | walkLeaf leaf _ ih =>
    simp only [Task.ShowsSlotless, erase, everywhere_leaf_cons leaf] at ih ⊢
    exact ih
  | passBy _ _ ih =>
    simp only [Task.ShowsSlotless, erase, Marked.erase, Markup.everywhere_element_cons] at ih ⊢
    rintro ⟨here, inside, after⟩
    exact ⟨here, inside, ih after⟩
  | site _ _ _ _ _ _ _ fill more =>
    -- Nothing is known of the body: filling its slots is what removes them.
    simp only [Task.ShowsSlotless, erase, Marked.erase, Markup.everywhere_element_cons,
      erase_append, erase_inherit, Markup.everywhere_append] at fill more ⊢
    rintro ⟨-, held, after⟩
    exact ⟨fill held, more after⟩
  | drop _ _ _ _ ih =>
    simp only [Task.ShowsSlotless, erase, Marked.erase, Markup.everywhere_element_cons] at ih ⊢
    rintro ⟨-, -, after⟩
    exact ih after
  | keep _ _ _ _ _ inside more =>
    simp only [Task.ShowsSlotless, erase, Marked.erase, Markup.everywhere_element_cons]
      at inside more ⊢
    rintro ⟨here, within, after⟩
    exact ⟨here, inside within, more after⟩
  | flat | nest => exact False.elim
  | fillNil => exact fun _ => Markup.everywhere_nil
  | fillLeaf leaf _ ih =>
    simp only [Task.ShowsSlotless, erase, everywhere_leaf_cons leaf] at ih ⊢
    exact ih
  | fillSlot _ _ _ supply more =>
    simp only [Task.ShowsSlotless, erase_append, erase_inherit, Markup.everywhere_append]
      at supply more ⊢
    exact fun held => ⟨supply held, more held⟩
  | fillElement other _ _ within more =>
    simp only [Task.ShowsSlotless, erase, Marked.erase, Markup.everywhere_element_cons]
      at within more ⊢
    exact fun held => ⟨other, within held, more held⟩

def Settled (tag : String) (attributes : List Attribute) : Prop :=
  isSlot tag = false ∧ Attribute.has attributes "if" = false ∧
    Attribute.has attributes "del-if" = false

instance (tag : String) (attributes : List Attribute) : Decidable (Settled tag attributes) :=
  inferInstanceAs (Decidable (_ ∧ _ ∧ _))

theorem everywhere_settled {nodes : List Node} :
    Everywhere Settled nodes ↔ Everywhere Slotless nodes ∧ Everywhere Undirected nodes :=
  forall₂_and

/-- No placeholder and no directive survives: neither comes out of a pass when the page has none,
whatever is in the bodies of components. -/
theorem expand_settled {registry : Registry} {options : Options} {nodes out : List Node}
    {output : Output} (settled : Everywhere Settled nodes)
    (done : expand registry options nodes = .ok (out, output)) : Everywhere Settled out := by
  obtain ⟨sites, followed, p, run, rfl, -⟩ := expand_ok_iff.1 done
  rw [everywhere_settled] at settled ⊢
  constructor
  · apply run.slotless
    rw [Task.ShowsSlotless, erase_unmarked]
    exact settled.1
  · apply run.undirected
    rw [Task.StartsWith, Markup.every_erase, erase_unmarked]
    exact settled.2

def frames : Registry :=
  .ofList "js" [
    ⟨"outer", "<inner><slot></slot></inner><slot if=\"false\"></slot>", none, none, none⟩,
    ⟨"inner", "<p del-if=\"true\"><slot></slot><SLOT></SLOT></p>", none, none, none⟩]

def framesInUse : List Node :=
  [.element "outer" [] [.element "b" [] []]]

theorem expand_settled_frames : ∃ out output, Everywhere Settled framesInUse ∧
    expand frames { expandNested := true } framesInUse = .ok (out, output) ∧
    Markup.render out = "<p><b></b><b></b></p><b></b>" ∧ Everywhere Settled out := by
  have value : (expand frames { expandNested := true } framesInUse).toOption.map (fun r => Markup.render r.1) =
        some "<p><b></b><b></b></p><b></b>" := by
    decide +kernel
  have settled : Everywhere Settled framesInUse := by
    decide +kernel
  obtain ⟨⟨out, output⟩, done, rendered⟩ := exists_ok value
  exact ⟨out, output, settled, done, rendered, expand_settled settled done⟩

end ComponentCompiler.Component
