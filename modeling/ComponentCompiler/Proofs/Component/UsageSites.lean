import ComponentCompiler.Proofs.Component.DepthLimit
import ComponentCompiler.Proofs.Component.Emission
import ComponentCompiler.Proofs.Component.Hiding
import ComponentCompiler.Proofs.Markup.SlotBySlot
import Mathlib.Data.List.Nodup

namespace ComponentCompiler.Component

open Markup (Attribute Marked Node erase erase_unmarked isSlot slots)
open Template (Context)

mutual

theorem length_slots_interpolateNode (context : Context) : (node : Node) →
    (Template.interpolateNode context node).slots.length = node.slots.length
  | .element tag attributes children => by
    rw [Template.interpolateNode, Markup.Node.slots, Markup.Node.slots]
    cases isSlot tag with
    | true => rfl
    | false =>
      cases Markup.isRawText tag with
      | true => rfl
      | false => exact length_slots_interpolateNodes context children
  | .text _ | .comment _ | .doctype .. => rfl

theorem length_slots_interpolateNodes (context : Context) : (nodes : List Node) →
    (slots (Template.interpolateNodes context nodes)).length = (slots nodes).length
  | [] => rfl
  | node :: rest => by
    rw [Template.interpolateNodes, slots, slots, List.length_append, List.length_append,
      length_slots_interpolateNode context node, length_slots_interpolateNodes context rest]

end

theorem length_slots_mark (i : Instance) : (nodes : List Node) →
    (slots (i.mark nodes)).length = (slots nodes).length
  | [] => rfl
  | .element tag .. :: rest => by
    rw [i.mark_element_cons, slots, slots, Markup.Node.slots, Markup.Node.slots]
    cases isSlot tag <;> rfl
  | .text _ :: rest | .comment _ :: rest | .doctype .. :: rest => by
    simp [slots, Markup.Node.slots, length_slots_mark i rest]

def Definition.slotCount (d : Definition) (attributes : List Attribute) : Nat :=
  (slots (Template.resolve (.ofAttributes attributes) (Markup.parseFragment d.body))).length

theorem length_slots_instantiate (d : Definition) (attributes : List Attribute) (i : Instance) :
    (slots (i.mark (Template.instantiate d.body (.ofAttributes attributes)))).length =
      d.slotCount attributes := by
  rw [length_slots_mark, Template.instantiate, length_slots_interpolateNodes, Definition.slotCount]

structure Usage where
  tag : String
  attributes : List Attribute

mutual

/-- The usage sites that come of a node, in order: an element that uses a component, and then those
it holds, as often as there are slots for them. -/
def Setting.nodeUsages (c : Setting) : Node → List Usage
  | .element tag attributes children =>
    if passesBy tag then []
    else
      match c.registry.forTag? tag with
      | some d =>
        ⟨tag, attributes⟩ ::
          (List.replicate (d.slotCount attributes) (c.usages children)).flatten
      | none => if c.drops tag then [] else c.usages children
  | _ => []

def Setting.usages (c : Setting) : List Node → List Usage
  | [] => []
  | node :: rest => c.nodeUsages node ++ c.usages rest

end

def Setting.binds (c : Setting) (u : Usage) : Bool :=
  match c.registry.forTag? u.tag with
  | some d =>
    (Markup.firstRoot? (Template.instantiate d.body (.ofAttributes u.attributes))).isSome &&
      d.isAddressable
  | none => false

def Site.usage (s : Site) : Usage :=
  ⟨s.tag, s.attributes⟩

theorem Site.Identified.binds {c : Setting} {s : Site} (identified : s.Identified c.registry) :
    s.record.bindingId.isSome = c.binds s.usage := by
  rw [identified.bindingId, Setting.binds, Site.usage, identified.found, Site.root?, Site.body,
    Site.context]

def Task.usages (c : Setting) : Task → List Usage
  | .walk _ _ forest => c.usages (erase forest)
  | .body .. => []
  | .fill _ _ held forest =>
    (List.replicate (slots (erase forest)).length (c.usages (erase held))).flatten

theorem Run.usages {c : Setting} (flat : c.options.expandNested = false) {task : Task}
    {p p' : Progress} {sites : List Site} {out : List Marked} (run : Run c task p sites out p') :
    sites.map Site.usage = task.usages c := by
  induction run with
  | walkNil | fillNil => rfl
  | @walkLeaf _ _ _ node _ _ _ _ leaf _ ih | @fillLeaf _ _ _ _ node _ _ _ _ leaf _ ih =>
    cases node with
    | element => cases leaf
    | text | comment | doctype => exact ih
  | passBy raw _ ih =>
    simp only [Task.usages] at ih ⊢
    simp [erase, Marked.erase, Setting.usages, Setting.nodeUsages, raw, ih]
  | site plain found _ inner _ _ body fill more =>
    obtain rfl := inner.of_flat flat
    simp only [Task.usages, erase_unmarked, length_slots_instantiate] at body fill more ⊢
    simp [erase, Marked.erase, Setting.usages, Setting.nodeUsages, plain, found, Site.usage,
      body, fill, more]
  | drop plain missing dropped _ ih =>
    simp only [Task.usages] at ih ⊢
    simp [erase, Marked.erase, Setting.usages, Setting.nodeUsages, plain, missing, dropped, ih]
  | keep plain missing kept _ _ inside more =>
    simp only [Task.usages] at inside more ⊢
    simp [erase, Marked.erase, Setting.usages, Setting.nodeUsages, plain, missing, kept, inside,
      more]
  | flat => rfl
  | nest nested => simp [flat] at nested
  | fillSlot slot _ _ supply more =>
    simp only [Task.usages] at supply more ⊢
    simp [erase, Marked.erase, slots, Markup.Node.slots, slot, supply, more, List.replicate_succ]
  | fillElement other _ _ within more =>
    simp only [Task.usages] at within more ⊢
    simp [erase, Marked.erase, slots, Markup.Node.slots, other, within, more,
      ← List.replicate_append_replicate]

theorem expand_flat_ok {registry : Registry} {options : Options}
    (flat : options.expandNested = false) (nodes : List Node) :
    ∃ out output, expand registry options nodes = .ok (out, output) := by
  cases result : expand registry options nodes with
  | ok r => exact ⟨r.1, r.2, rfl⟩
  | error failure =>
    -- Only the depth of a usage site makes a pass fail, and there is a limit for nested ones only.
    obtain ⟨_, _, _, _, _, exceeds, _⟩ := exceeds_of_error (c := ⟨registry, options⟩) result
    cases flat.symm.trans (not_admits.1 exceeds).1

/-- When bodies are left as they are, a pass succeeds and instantiates the usage sites of the forest
in their order. An instance gets a binding when its component asks for one and its body has a root,
and all bindings differ. -/
theorem expand_usages {registry : Registry} {options : Options}
    (flat : options.expandNested = false) (nodes : List Node) :
    ∃ out output, expand registry options nodes = .ok (out, output) ∧
      output.instances.map (fun i => (i.tag, i.key)) =
        (Setting.usages ⟨registry, options⟩ nodes).map (fun u => (u.tag, registry.keyOf u.tag)) ∧
      output.instances.map (·.bindingId.isSome) =
        (Setting.usages ⟨registry, options⟩ nodes).map (Setting.binds ⟨registry, options⟩) ∧
      (output.instances.filterMap (·.bindingId)).Nodup := by
  obtain ⟨out, output, done⟩ := expand_flat_ok flat nodes
  obtain ⟨sites, pass⟩ := expand_ok_iff.1 done
  obtain ⟨p, ledger, rfl⟩ := pass.ledger
  obtain ⟨followed, p', run, -⟩ := pass
  have written := run.usages flat
  rw [Task.usages, erase_unmarked] at written
  have instances : p.output.instances = sites.map (·.record) := ledger.instances
  refine ⟨out, p.output, done, ?_, ?_, ?_⟩
  · rw [instances, ← written, List.map_map, List.map_map]
    refine List.map_congr_left fun s member => ?_
    have identified := ledger.identified s member
    exact Prod.ext identified.tag identified.key
  · rw [instances, ← written, List.map_map, List.map_map]
    exact List.map_congr_left fun s member => (ledger.identified s member).binds
  · have issued := ledger.bindings.nodup
    rw [ledger.bindings.issued, List.nodup_reverse] at issued
    rw [instances, List.filterMap_map]
    exact issued

def nestedCards : List Node :=
  [.element "p" [] [.element "card" [] [.element "CARD" [] [.element "note" [] []]]],
    .element "svg" [] [.element "note" [] []]]

theorem expand_usages_nestedCards : ({} : Options).expandNested = false ∧
    ∃ out output, expand cards {} nestedCards = .ok (out, output) ∧
      output.instances.map (fun i => (i.tag, i.key)) =
        [("card", "card.js"),
          ("CARD", "card.js"), ("note", "note.js"), ("note", "note.js"),
          ("CARD", "card.js"), ("note", "note.js"), ("note", "note.js")] ∧
      (output.instances.map (·.bindingId.isSome)).all id = true ∧
      (output.instances.filterMap (·.bindingId)).Nodup := by
  have flat : ({} : Options).expandNested = false := rfl
  obtain ⟨out, output, done, placed, bound, nodup⟩ :
      ∃ out output, expand cards {} nestedCards = .ok (out, output) ∧ _ :=
    expand_usages flat nestedCards
  refine ⟨rfl, out, output, done, ?_, ?_, nodup⟩
  · rw [placed]
    decide +kernel
  · rw [bound]
    decide +kernel

end ComponentCompiler.Component
