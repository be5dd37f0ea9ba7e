import ComponentCompiler.Proofs.Component.Survival

namespace ComponentCompiler.Component

open Markup (Attribute Element Marked Node erase erase_append erase_inherit outside)

def Setting.Finished (c : Setting) (nodes : List Node) : Prop :=
  ∀ e ∈ outside Setting.passesBy nodes, c.leaves e.tag = true

section Finished

variable {c : Setting} {xs ys rest : List Node}

theorem finished_nil : c.Finished [] := by
  simp [Setting.Finished, outside]

theorem finished_append : c.Finished (xs ++ ys) ↔ c.Finished xs ∧ c.Finished ys := by
  simp [Setting.Finished, or_imp, forall_and]

theorem finished_element_cons {tag : String} {attributes : List Attribute}
    {children : List Node} :
    c.Finished (.element tag attributes children :: rest) ↔
      (Setting.passesBy tag = false → c.leaves tag = true ∧ c.Finished children) ∧
        c.Finished rest := by
  cases raw : Setting.passesBy tag with
  | true => simp [Setting.Finished, Markup.mem_outside_cons, raw]
  | false => simp [Setting.Finished, Markup.mem_outside_cons, raw, or_imp, forall_and, and_assoc]

theorem finished_leaf_cons {node : Marked} (leaf : node.isElement = false) :
    c.Finished (node.erase :: rest) ↔ c.Finished rest := by
  cases node with
  | element => cases leaf
  | text | comment | doctype => simp [Setting.Finished, outside, Node.outside, Marked.erase]

theorem leaves_iff {tag : String} (plain : Setting.passesBy tag = false) :
    c.leaves tag = true ↔ c.registry.forTag? tag = none ∧ c.drops tag = false := by
  simp [Setting.leaves, plain]

theorem drops_eq_false {tag : String} :
    c.drops tag = false ↔ (c.options.strictUnknown = true → Markup.isStandard tag = true) := by
  cases strict : c.options.strictUnknown <;> simp [Setting.drops, Setting.isUnknown, strict]

end Finished

/-- A walk may start with anything, while slots are filled only in what is finished. -/
def Task.StartsFinished (c : Setting) : Task → Prop
  | .walk .. | .body .. => True
  | .fill _ _ _ forest => c.Finished (erase forest)

theorem Run.finished {c : Setting} (nested : c.options.expandNested = true) {task : Task}
    {p p' : Progress} {sites : List Site} {out : List Marked} (run : Run c task p sites out p') :
    task.StartsFinished c → c.Finished (erase out) := by
  induction run with
  | walkNil | fillNil => exact fun _ => finished_nil
  | walkLeaf leaf _ ih =>
    intro _
    rw [erase, finished_leaf_cons leaf]
    exact ih trivial
  | passBy raw _ ih =>
    intro _
    rw [erase, Marked.erase, finished_element_cons]
    exact ⟨fun plain => by simp [raw] at plain, ih trivial⟩
  | site _ _ _ _ _ _ inner fill more =>
    -- The body is finished before its slots are filled, and what fills them is finished too.
    intro _
    rw [erase_append, erase_inherit, finished_append]
    have body := inner trivial
    exact ⟨fill body, more trivial⟩
  | drop _ _ _ _ ih | nest _ _ _ ih => exact fun _ => ih trivial
  | keep _ missing kept _ _ inside more =>
    intro _
    rw [erase, Marked.erase, finished_element_cons]
    exact ⟨fun _ => ⟨leaves_of_kept missing kept, inside trivial⟩, more trivial⟩
  | flat flat => simp [nested] at flat
  | fillLeaf leaf _ ih =>
    intro starts
    rw [Task.StartsFinished, erase, finished_leaf_cons leaf] at starts
    rw [erase, finished_leaf_cons leaf]
    exact ih starts
  | fillSlot _ _ _ supply more =>
    intro starts
    rw [Task.StartsFinished, erase, Marked.erase, finished_element_cons] at starts
    rw [erase_append, erase_inherit, finished_append]
    exact ⟨supply trivial, more starts.2⟩
  | fillElement _ _ _ within more =>
    intro starts
    rw [Task.StartsFinished, erase, Marked.erase, finished_element_cons] at starts
    obtain ⟨here, after⟩ := starts
    rw [erase, Marked.erase, finished_element_cons]
    refine ⟨fun plain => ?_, more after⟩
    obtain ⟨left, inside⟩ := here plain
    exact ⟨left, within inside⟩

def Setting.unknownHere (c : Setting) (tag : String) : List Warning :=
  if Setting.isUnknown tag then [.unknownComponent tag (c.registry.keyOf tag)] else []

def Setting.unknowns (c : Setting) (nodes : List Node) : List Warning :=
  (outside Setting.passesBy nodes).flatMap fun e => c.unknownHere e.tag

def Progress.note (p : Progress) (warnings : List Warning) : Progress :=
  { p with warnings := p.warnings ++ warnings }

section Unknowns

variable {c : Setting} {tag : String} {attributes : List Attribute} {children rest : List Node}

theorem note_note (p : Progress) (first second : List Warning) :
    (p.note first).note second = p.note (first ++ second) := by
  simp [Progress.note]

theorem noted_eq (p : Progress) : c.noted tag p = p.note (c.unknownHere tag) := by
  cases unknown : Setting.isUnknown tag <;>
    simp [Setting.noted, Setting.unknownHere, unknown, Progress.note, Progress.warn]

theorem unknowns_of_passesBy (raw : Setting.passesBy tag = true) :
    c.unknowns (.element tag attributes children :: rest) = c.unknowns rest := by
  simp [Setting.unknowns, outside, Node.outside, raw]

theorem unknowns_of_plain (plain : Setting.passesBy tag = false) :
    c.unknowns (.element tag attributes children :: rest) =
      c.unknownHere tag ++ c.unknowns children ++ c.unknowns rest := by
  simp [Setting.unknowns, outside, Node.outside, plain]

theorem unknowns_leaf_cons {node : Marked} (leaf : node.isElement = false) :
    c.unknowns (node.erase :: rest) = c.unknowns rest := by
  cases node with
  | element => cases leaf
  | text | comment | doctype => simp [Setting.unknowns, outside, Node.outside, Marked.erase]

theorem unknowns_of_strict (strict : c.options.strictUnknown = true) {nodes : List Node}
    (finished : c.Finished nodes) : c.unknowns nodes = [] := by
  rw [Setting.unknowns, List.flatMap_eq_nil_iff]
  intro e there
  have plain := Markup.eq_false_of_mem_outside there
  obtain ⟨-, kept⟩ := (leaves_iff plain).1 (finished e there)
  have standard := drops_eq_false.1 kept strict
  simp [Setting.unknownHere, Setting.isUnknown, standard]

end Unknowns

theorem walk_finished (c : Setting) (inner : String → List Node → Pass) :
    (nodes : List Marked) → c.Finished (erase nodes) → ∀ p,
      walk c inner (erase nodes) p = .ok (erase nodes, p.note (c.unknowns (erase nodes)))
  | [], _, p => by
    simp [erase, walk, Setting.unknowns, outside, Progress.note]
  | node :: rest, finished, p => by
    rw [erase, walk_cons_ok]
    rw [erase] at finished
    cases kind : node.isElement with
    | false =>
      rw [finished_leaf_cons kind] at finished
      rw [unknowns_leaf_cons kind]
      exact ⟨_, _, _, walkNode_leaf kind, walk_finished c inner rest finished p, rfl⟩
    | true =>
      obtain ⟨mark, tag, attributes, children, rfl⟩ := Marked.isElement_iff.1 kind
      rw [Marked.erase] at finished ⊢
      obtain ⟨here, after⟩ := finished_element_cons.1 finished
      cases raw : Setting.passesBy tag with
      | true =>
        rw [unknowns_of_passesBy raw]
        exact ⟨_, _, _, walkNode_passBy raw, walk_finished c inner rest after p, rfl⟩
      | false =>
        obtain ⟨left, within⟩ := here raw
        obtain ⟨missing, kept⟩ := (leaves_iff raw).1 left
        have inside := walk_finished c inner children within (c.noted tag p)
        have second := walk_finished c inner rest after
          ((c.noted tag p).note (c.unknowns (erase children)))
        refine ⟨_, _, _, (walkNode_keep_ok raw missing kept).2 ⟨_, inside, rfl⟩, ?_, rfl⟩
        rw [second, unknowns_of_plain raw, noted_eq, note_note, note_note, ← List.append_assoc]

/-- Nested expansion is complete and idempotent: no usage site is left, nor with strict tags an
unknown element, so a second pass changes, issues and emits nothing. -/
theorem expand_finished {registry : Registry} {options : Options} {nodes out : List Node}
    {output : Output} (nested : options.expandNested = true)
    (done : expand registry options nodes = .ok (out, output)) :
    (∀ e ∈ outside Setting.passesBy out, registry.forTag? e.tag = none ∧
      (options.strictUnknown = true → Markup.isStandard e.tag = true)) ∧
    expand registry options out =
      .ok (out, ⟨"", "", Setting.unknowns ⟨registry, options⟩ out, []⟩) ∧
    (options.strictUnknown = true → Setting.unknowns ⟨registry, options⟩ out = []) := by
  obtain ⟨sites, followed, p, run, rfl, -⟩ := expand_ok_iff.1 done
  have finished := run.finished nested trivial
  refine ⟨fun e there => ?_, ?_, fun strict => unknowns_of_strict strict finished⟩
  · have plain := Markup.eq_false_of_mem_outside there
    obtain ⟨missing, kept⟩ := (leaves_iff plain).1 (finished e there)
    exact ⟨missing, drops_eq_false.1 kept⟩
  · have again := walk_finished _ (onBodies ⟨registry, options⟩) followed finished {}
    rw [expand, again]
    rfl

def nestedFrames : Registry :=
  .ofList "js" [
    ⟨"outer", "<div><slot></slot></div><svg><slot></slot></svg>", none, none, none⟩,
    ⟨"div", "<section><slot></slot></section>", none, none, none⟩]

def nestedFramesInUse : List Node :=
  [.element "outer" [] [.element "x-y" [] [], .element "div" [] [.element "b" [] []]]]

theorem expand_finished_frames : ∃ out output,
    expand nestedFrames { expandNested := true, strictUnknown := true } nestedFramesInUse =
      .ok (out, output) ∧
    Markup.render out =
      "<section><section><b></b></section></section><svg><section><b></b></section></svg>" ∧
    output.instances.length = 4 ∧
    expand nestedFrames { expandNested := true, strictUnknown := true } out =
      .ok (out, ⟨"", "", [], []⟩) := by
  have value : (expand nestedFrames { expandNested := true, strictUnknown := true }
      nestedFramesInUse).toOption.map (fun r => (Markup.render r.1, r.2.instances.length)) =
        some ("<section><section><b></b></section></section><svg><section><b></b></section></svg>",
          4) := by
    decide +kernel
  obtain ⟨⟨out, output⟩, done, shown⟩ := exists_ok value
  obtain ⟨rendered, count⟩ := Prod.mk.inj shown
  obtain ⟨-, again, none⟩ := expand_finished rfl done
  rw [none rfl] at again
  exact ⟨out, output, done, rendered, count, again⟩

end ComponentCompiler.Component
