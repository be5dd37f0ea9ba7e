import ComponentCompiler.Proofs.Component.DepthLimit
import ComponentCompiler.Proofs.Component.Emission
import ComponentCompiler.Proofs.Component.TableOrder

/-!
# Passes in lock step

A walk sees the bodies of components, and whether they have a style sheet, a script and effects.
What stands in a style sheet or a script goes into the emitted texts and nowhere else: two passes
that differ in these texts only issue the same identifiers at the same usage sites.

* `Setting.Alike.enrol`: usage sites of components that a walk cannot tell apart add alike.
* `Setting.Alike.walk`: walks over one forest stay in lock step.
* `extension_eq_iff_expand`: forests, instances, warnings and failures are the same, as long as the
  registries have one extension.
-/

namespace ComponentCompiler.Component

open Markup (Attribute Node isSlot)

/-! ## What a walk sees -/

structure Definition.Alike (d d' : Definition) : Prop where
  body : d.body = d'.body
  styles : d.hasStyles = d'.hasStyles
  script : d.hasScript = d'.hasScript
  effects : d.effects.isSome = d'.effects.isSome

theorem Definition.Alike.addressable {d d' : Definition} (alike : d.Alike d') :
    d.isAddressable = d'.isAddressable := by
  rw [isAddressable, isAddressable, alike.script, alike.effects]

def Registry.Alike (r r' : Registry) : Prop :=
  ∀ key, Option.Rel Definition.Alike (r.get? key) (r'.get? key)

theorem Registry.Alike.insert {r r' : Registry} {d d' : Definition} (alike : r.Alike r')
    (extension : r.extension = r'.extension) (name : d.name = d'.name) (alike_ : d.Alike d') :
    (r.insert d).Alike (r'.insert d') := by
  intro key
  have sameKey : r.keyOf d.name = r'.keyOf d'.name := by rw [keyOf, keyOf, extension, name]
  rw [get?_insert, get?_insert, sameKey]
  split
  · exact .some alike_
  · exact alike key

theorem Registry.alike_ofList (extension : String) {definitions definitions' : List Definition}
    (alike : List.Forall₂ (fun d d' => d.name = d'.name ∧ d.Alike d') definitions definitions') :
    (ofList extension definitions).Alike (ofList extension definitions') := by
  have inserts : ∀ r r' : Registry, r.Alike r' → r.extension = r'.extension →
      (definitions.foldl Registry.insert r).Alike (definitions'.foldl Registry.insert r') := by
    induction alike with
    | nil => exact fun _ _ before _ => before
    | cons first _ ih =>
      exact fun r r' before same => ih _ _ (before.insert same first.1 first.2) same
  exact inserts _ _ (fun _ => .none) rfl

structure Progress.Agrees (p p' : Progress) : Prop where
  runtimeIds : p.runtimeIds = p'.runtimeIds
  scopeClasses : p.scopeClasses = p'.scopeClasses
  bindingIds : p.bindingIds = p'.bindingIds
  warnings : p.warnings = p'.warnings
  instances : p.instances = p'.instances

section Issuing

variable {p p' : Progress} {d d' : Definition}

theorem Progress.Agrees.warn (agrees : p.Agrees p') (w : Warning) :
    (p.warn w).Agrees (p'.warn w) :=
  { agrees with warnings := congrArg (· ++ [w]) agrees.warnings }

theorem Progress.Agrees.record (agrees : p.Agrees p') (i : Instance) :
    Agrees { p with instances := p.instances ++ [i] }
      { p' with instances := p'.instances ++ [i] } :=
  { agrees with instances := congrArg (· ++ [i]) agrees.instances }

theorem Progress.Agrees.scopeStyles (agrees : p.Agrees p') (alike : d.Alike d') (key : String) :
    (p.scopeStyles key d).1 = (p'.scopeStyles key d').1 ∧
      (p.scopeStyles key d).2.Agrees (p'.scopeStyles key d').2 := by
  rw [Progress.scopeStyles, Progress.scopeStyles, alike.styles, agrees.scopeClasses]
  split
  · exact ⟨rfl, { agrees with scopeClasses := rfl }⟩
  · exact ⟨rfl, agrees⟩

theorem Progress.Agrees.bind (agrees : p.Agrees p') (alike : d.Alike d') (key : String) :
    (p.bind key d).1 = (p'.bind key d').1 ∧ (p.bind key d).2.Agrees (p'.bind key d').2 := by
  rw [Progress.bind, Progress.bind, alike.addressable, agrees.bindingIds]
  split
  · exact ⟨rfl, { agrees with bindingIds := rfl }⟩
  · exact ⟨rfl, agrees⟩

theorem Progress.Agrees.activate (agrees : p.Agrees p') (alike : d.Alike d')
    (t t' : Script.Transformer) (key : String) (context : Template.Context)
    (bindingId : Option String) :
    (p.activate t key d context bindingId).1 = (p'.activate t' key d' context bindingId).1 ∧
      (p.activate t key d context bindingId).2.Agrees
        (p'.activate t' key d' context bindingId).2 := by
  cases bindingId with
  | none => exact ⟨rfl, agrees⟩
  | some id =>
    rw [Progress.activate, Progress.activate, alike.script, agrees.runtimeIds]
    split
    · exact ⟨rfl, { agrees with runtimeIds := rfl }⟩
    · exact ⟨rfl, agrees⟩

theorem Progress.Agrees.identify (agrees : p.Agrees p') (alike : d.Alike d')
    (t t' : Script.Transformer) (tag key : String) (context : Template.Context) :
    (p.identify t tag key d context).1 = (p'.identify t' tag key d' context).1 ∧
      (p.identify t tag key d context).2.Agrees (p'.identify t' tag key d' context).2 := by
  obtain ⟨sameClass, styled⟩ := agrees.scopeStyles alike key
  obtain ⟨sameBinding, bound⟩ := styled.bind alike key
  obtain ⟨sameLabel, activated⟩ := bound.activate alike t t' key context
    ((p'.scopeStyles key d').2.bind key d').1
  simp only [Progress.identify, sameClass, sameBinding, sameLabel, true_and]
  exact activated

end Issuing

structure Setting.Alike (c c' : Setting) : Prop where
  extension : c.registry.extension = c'.registry.extension
  registry : c.registry.Alike c'.registry
  options : c'.options = { c.options with transformer := c'.options.transformer }

namespace Setting.Alike

variable {c c' : Setting} {p p' : Progress}

theorem keyOf (alike : c.Alike c') (tag : String) : c.registry.keyOf tag = c'.registry.keyOf tag :=
  congrArg (normalizeKey tag) alike.extension

theorem forTag? (alike : c.Alike c') (tag : String) :
    Option.Rel Definition.Alike (c.registry.forTag? tag) (c'.registry.forTag? tag) := by
  rw [Registry.forTag?, Registry.forTag?, alike.keyOf]
  exact alike.registry _

theorem nested (alike : c.Alike c') : c.options.expandNested = c'.options.expandNested := by
  rw [alike.options]

theorem maxDepth (alike : c.Alike c') : c.options.maxDepth = c'.options.maxDepth := by
  rw [alike.options]

theorem drops (alike : c.Alike c') (tag : String) : c.drops tag = c'.drops tag := by
  rw [Setting.drops, Setting.drops, alike.options]

theorem noted (alike : c.Alike c') (agrees : p.Agrees p') (tag : String) :
    (c.noted tag p).Agrees (c'.noted tag p') := by
  rw [Setting.noted, Setting.noted, alike.keyOf]
  split
  · exact agrees.warn _
  · exact agrees

theorem enrol (alike : c.Alike c') {d d' : Definition} (alike_ : d.Alike d')
    (agrees : p.Agrees p') (tag : String) (attributes : List Attribute) :
    (c.enrol tag attributes d p).1 = (c'.enrol tag attributes d' p').1 ∧
      (c.enrol tag attributes d p).2.Agrees (c'.enrol tag attributes d' p').2 := by
  rw [Setting.enrol, Setting.enrol, alike.keyOf, alike_.body, alike_.styles, alike_.addressable]
  by_cases marked : (d'.hasStyles || d'.isAddressable) = true
  · simp only [if_pos marked]
    split
    · obtain ⟨same, after⟩ := agrees.identify alike_ c.options.transformer c'.options.transformer
        tag (c'.registry.keyOf tag) (.ofAttributes attributes)
      rw [same]
      exact ⟨rfl, after.record _⟩
    · exact ⟨rfl, (agrees.warn _).record _⟩
  · simp only [if_neg marked]
    exact ⟨trivial, agrees.record _⟩

end Setting.Alike

/-! ## Results in lock step -/

/-- Both walks end with one forest and in states that agree, or both with one failure. -/
def Alongside : Except Failure (List Node × Progress) → Except Failure (List Node × Progress) → Prop
  | .ok (out, p), .ok (out', p') => out = out' ∧ p.Agrees p'
  | .error failure, .error failure' => failure = failure'
  | _, _ => False

section Alongside

variable {r r' : Except Failure (List Node × Progress)}

theorem Alongside.bind {next next' : List Node × Progress → Except Failure (List Node × Progress)}
    (first : Alongside r r')
    (more : ∀ out p p', p.Agrees p' → Alongside (next (out, p)) (next' (out, p'))) :
    Alongside (r.bind next) (r'.bind next') := by
  match r, r', first with
  | .ok (out, p), .ok (_, p'), ⟨rfl, agrees⟩ => exact more out p p' agrees
  | .error _, .error _, same => exact same

theorem Alongside.map (first : Alongside r r') (f : List Node → List Node) :
    Alongside (r.map fun x => (f x.1, x.2)) (r'.map fun x => (f x.1, x.2)) := by
  match r, r', first with
  | .ok (out, p), .ok (_, p'), ⟨rfl, agrees⟩ => exact ⟨rfl, agrees⟩
  | .error _, .error _, same => exact same

end Alongside

/-! ## Filling slots -/

section Filling

variable {supply supply' : Markup.Supplier Progress Failure}

mutual

theorem alongside_projectNode
    (supplies : ∀ {p p'}, p.Agrees p' → Alongside (supply p) (supply' p')) :
    (node : Node) → ∀ {p p'}, p.Agrees p' →
      Alongside (Markup.projectNode supply p node).outcome
        (Markup.projectNode supply' p' node).outcome
  | .element tag attributes children, _, _, agrees => by
    cases slot : isSlot tag with
    | true =>
      rw [Markup.outcome_slot slot, Markup.outcome_slot slot]
      exact supplies agrees
    | false =>
      rw [Markup.outcome_element slot, Markup.outcome_element slot]
      exact (alongside_project supplies children agrees).map fun inside =>
        [.element tag attributes inside]
  | .text _, _, _, agrees | .comment _, _, _, agrees | .doctype .., _, _, agrees => ⟨rfl, agrees⟩

theorem alongside_project
    (supplies : ∀ {p p'}, p.Agrees p' → Alongside (supply p) (supply' p')) :
    (forest : List Node) → ∀ {p p'}, p.Agrees p' →
      Alongside (Markup.project supply p forest).outcome (Markup.project supply' p' forest).outcome
  | [], _, _, agrees => ⟨rfl, agrees⟩
  | node :: rest, _, _, agrees => by
    rw [Markup.outcome_cons, Markup.outcome_cons]
    refine (alongside_projectNode supplies node agrees).bind fun out p p' agrees' => ?_
    exact (alongside_project supplies rest agrees').map (out ++ ·)

end

end Filling

/-! ## Walks -/

section Walks

variable {c c' : Setting} {inner inner' : String → List Node → Pass}

mutual

theorem Setting.Alike.walkNode (alike : c.Alike c')
    (bodies : ∀ tag body {p p'}, p.Agrees p' → Alongside (inner tag body p) (inner' tag body p')) :
    (node : Node) → ∀ {p p'}, p.Agrees p' →
      Alongside (Component.walkNode c inner node p) (Component.walkNode c' inner' node p')
  | .element tag attributes children, p, p', agrees => by
    cases raw : Setting.passesBy tag with
    | true =>
      rw [walkNode_passBy raw, walkNode_passBy raw]
      exact ⟨rfl, agrees⟩
    | false =>
      have used := alike.forTag? tag
      cases found : c.registry.forTag? tag with
      | some d =>
        cases found' : c'.registry.forTag? tag with
        | none =>
          rw [found, found'] at used
          cases used
        | some d' =>
          rw [found, found'] at used
          obtain ⟨alike_⟩ := used
          obtain ⟨record, after⟩ := alike.enrol alike_ agrees tag attributes
          rw [walkNode_site raw found, walkNode_site raw found', instantiate_eq, instantiate_eq,
            record, alike_.body]
          refine (bodies tag _ after).bind fun body p₁ p₁' agrees₁ => ?_
          exact alongside_project (alike.walk bodies children) body agrees₁
      | none =>
        cases found' : c'.registry.forTag? tag with
        | some d' =>
          rw [found, found'] at used
          cases used
        | none =>
          have after := alike.noted agrees tag
          cases dropped : c.drops tag with
          | true =>
            rw [walkNode_drop raw found dropped,
              walkNode_drop raw found' (alike.drops tag ▸ dropped)]
            exact ⟨rfl, after⟩
          | false =>
            rw [walkNode_keep raw found dropped,
              walkNode_keep raw found' (alike.drops tag ▸ dropped)]
            exact (alike.walk bodies children after).map fun held => [.element tag attributes held]
  | .text _, _, _, agrees | .comment _, _, _, agrees | .doctype .., _, _, agrees => by
    rw [Component.walkNode, Component.walkNode]
    · exact ⟨rfl, agrees⟩
    all_goals nofun

theorem Setting.Alike.walk (alike : c.Alike c')
    (bodies : ∀ tag body {p p'}, p.Agrees p' → Alongside (inner tag body p) (inner' tag body p')) :
    (forest : List Node) → ∀ {p p'}, p.Agrees p' →
      Alongside (Component.walk c inner forest p) (Component.walk c' inner' forest p')
  | [], _, _, agrees => by
    rw [Component.walk, Component.walk]
    exact ⟨rfl, agrees⟩
  | node :: rest, _, _, agrees => by
    rw [walk_cons, walk_cons]
    refine (alike.walkNode bodies node agrees).bind fun out p p' agrees' => ?_
    exact (alike.walk bodies rest agrees').map (out ++ ·)

end

theorem Setting.Alike.expandBody (alike : c.Alike c') (levels : Nat) (tag : String)
    (body : List Node) {p p' : Progress} (agrees : p.Agrees p') :
    Alongside (Component.expandBody c levels tag body p)
      (Component.expandBody c' levels tag body p') := by
  induction levels generalizing tag body p p' with
  | zero =>
    simp only [Component.expandBody, alike.maxDepth, agrees.warnings, Alongside]
  | succ levels ih => exact alike.walk ih body agrees

theorem Setting.Alike.onBodies (alike : c.Alike c') (tag : String) (body : List Node)
    {p p' : Progress} (agrees : p.Agrees p') :
    Alongside (Component.onBodies c tag body p) (Component.onBodies c' tag body p') := by
  rw [Component.onBodies, Component.onBodies, alike.nested, alike.maxDepth]
  split
  · exact alike.expandBody _ tag body agrees
  · exact ⟨rfl, agrees⟩

end Walks

/-! ## Whole passes -/

/-- The result of a pass apart from the texts that it emits. -/
def withoutTexts (result : List Node × Output) : List Node × List Instance × List Warning :=
  (result.1, result.2.instances, result.2.warnings)

theorem Setting.Alike.expand {c c' : Setting} (alike : c.Alike c') (nodes : List Node) :
    (Component.expand c.registry c.options nodes).map withoutTexts =
      (Component.expand c'.registry c'.options nodes).map withoutTexts := by
  have start : Progress.Agrees {} {} := ⟨rfl, rfl, rfl, rfl, rfl⟩
  have walks := alike.walk alike.onBodies nodes start
  rw [Component.expand, Component.expand]
  cases walked : Component.walk c (Component.onBodies c) nodes {} with
  | error failure =>
    rw [walked] at walks
    cases walked' : Component.walk c' (Component.onBodies c') nodes {} with
    | error failure' =>
      rw [walked'] at walks
      rw [show failure = failure' from walks]
    | ok _ =>
      rw [walked'] at walks
      exact walks.elim
  | ok result =>
    rw [walked] at walks
    cases walked' : Component.walk c' (Component.onBodies c') nodes {} with
    | error _ =>
      rw [walked'] at walks
      exact walks.elim
    | ok result' =>
      rw [walked'] at walks
      obtain ⟨same, agrees⟩ := walks
      simp only [Except.map, withoutTexts, Progress.output, same, agrees.instances,
        agrees.warnings]

/-! ## The extension

The key of a tag ends in the extension of the registry. It is written into warnings and records, so
it shows in the result of a pass. -/

def letter : List Node :=
  [.element "x" [] []]

theorem keyOf_letter (r : Registry) : r.keyOf "x" = "x" ++ suffix r.extension := by
  have lower : Text.lowercase (Text.trimmed "x") = "x" := by decide +kernel
  have short : ¬(suffix r.extension).toList <:+ ['x'] := by
    rw [suffix, String.toList_append]
    rintro ⟨front, parts⟩
    cases front with
    | nil => simp at parts
    | cons c front => simp at parts
  have plain : ¬(suffix r.extension).toList.isSuffixOf "x".toList = true := by
    rw [List.isSuffixOf_iff_suffix]
    exact short
  rw [Registry.keyOf, normalizeKey, lower, if_neg plain]

theorem extension_eq_of_keyOf {r r' : Registry} (same : r.keyOf "x" = r'.keyOf "x") :
    r.extension = r'.extension := by
  rw [keyOf_letter, keyOf_letter, suffix, suffix] at same
  have chars := congrArg String.toList same
  simp only [String.toList_append] at chars
  exact String.toList_injective (List.append_cancel_left (List.append_cancel_left chars))

theorem expand_letter (r : Registry) :
    ∃ out output, expand r {} letter = .ok (out, output) ∧
      (output.instances.head?.map (·.key) = some (r.keyOf "x") ∨
        output.instances = [] ∧ output.warnings = [.unknownComponent "x" (r.keyOf "x")]) := by
  cases result : expand r {} letter with
  | error failure =>
    obtain ⟨_, _, _, _, _, exceeds, _⟩ := exceeds_of_error (c := ⟨r, {}⟩) result
    cases (not_admits.1 exceeds).1
  | ok value =>
    obtain ⟨out, output⟩ := value
    refine ⟨out, output, rfl, ?_⟩
    obtain ⟨sites, pass⟩ := expand_ok_iff.1 result
    obtain ⟨p, ledger, same⟩ := pass.ledger
    obtain ⟨followed, p', run, -, rfl⟩ := pass
    change Run ⟨r, {}⟩ (.walk 0 false [.element .other "x" [] []]) {} sites followed p' at run
    have instances : p'.instances = sites.map (·.record) :=
      (congrArg Output.instances same).symm.trans ledger.instances
    cases run with
    | walkLeaf leaf => cases leaf
    | passBy raw => exact absurd raw (by decide)
    | drop _ _ dropped => simp [Setting.drops] at dropped
    | site =>
      refine .inl ?_
      have key := (ledger.identified _ List.mem_cons_self).key
      simp only [Progress.output, instances, List.map_cons, List.head?_cons, Option.map_some]
      exact congrArg some key
    | keep _ _ _ inside more =>
      cases inside
      cases more
      exact .inr ⟨instances, rfl⟩

/-- Registries with the same keys and with definitions that are alike expand every forest alike,
whatever transforms the scripts, exactly when they have one extension: they fail alike, and where
they succeed they give one forest, the same instances and the same warnings. -/
theorem extension_eq_iff_expand {r r' : Registry} (alike : r.Alike r') :
    r.extension = r'.extension ↔
      ∀ (options : Options) (t : Script.Transformer) (nodes : List Node),
        (expand r options nodes).map withoutTexts =
          (expand r' { options with transformer := t } nodes).map withoutTexts := by
  constructor
  · intro extension options t nodes
    have settings : Setting.Alike ⟨r, options⟩ ⟨r', { options with transformer := t }⟩ :=
      ⟨extension, alike, rfl⟩
    exact settings.expand nodes
  · intro same
    have result := same {} .ast letter
    obtain ⟨out, output, done, key⟩ := expand_letter r
    obtain ⟨out', output', done', key'⟩ := expand_letter r'
    rw [done, show expand r' { ({} : Options) with transformer := .ast } letter = _ from done']
      at result
    simp only [Except.map, withoutTexts, Except.ok.injEq, Prod.mk.injEq] at result
    obtain ⟨-, instances, warnings⟩ := result
    rw [instances, warnings] at key
    refine extension_eq_of_keyOf ?_
    rcases key with key | ⟨none, warned⟩ <;> rcases key' with key' | ⟨none', warned'⟩
    · exact Option.some.inj (key.symm.trans key')
    · rw [none'] at key
      cases key
    · rw [none] at key'
      cases key'
    · have messages := congrArg Warning.message (List.cons.inj (warned.symm.trans warned')).1
      have chars := congrArg String.toList messages
      simp only [Warning.unknownComponent, String.toList_append] at chars
      exact String.toList_injective (List.append_cancel_right chars)

def rewordedCards : Registry :=
  .ofList "js" [
    ⟨"card", "<div><slot></slot><slot></slot></div>", some "b { top: 0 }", some "RUNTIME()", none⟩,
    ⟨"note", "<p>{text}</p>", some " ", some "function RUNTIME(el, ctx = {a: 1}) {}", none⟩]

theorem cards_alike : cards.Alike rewordedCards := by
  refine Registry.alike_ofList "js" (.cons ⟨rfl, ?_⟩ (.cons ⟨rfl, ?_⟩ .nil)) <;>
    exact ⟨rfl, by decide +kernel, by decide +kernel, rfl⟩

theorem extension_eq_iff_expand_cards : cards.Alike rewordedCards ∧
    cards.extension = rewordedCards.extension ∧
    (expand cards {} cardsInUse).map withoutTexts =
      (expand rewordedCards { transformer := .text } cardsInUse).map withoutTexts :=
  ⟨cards_alike, rfl, (extension_eq_iff_expand cards_alike).1 rfl {} .text cardsInUse⟩

def dotted (extension : String) : Registry :=
  .ofList extension [⟨"card.x.js", "<b></b>", none, none, none⟩]

/-- Registries with one key and one definition, and with different extensions, expand a forest
differently: what one takes for an unknown tag is a usage site of the other. -/
theorem dotted_differ :
    (dotted "js").entries = (dotted "x.js").entries ∧ (dotted "js").Alike (dotted "x.js") ∧
    (expand (dotted "js") {} [.element "card" [] []]).map withoutTexts ≠
      (expand (dotted "x.js") {} [.element "card" [] []]).map withoutTexts := by
  have key : ((Registry.ofExtension "js").keyOf "card.x.js",
      (Registry.ofExtension "x.js").keyOf "card.x.js") = ("card.x.js", "card.x.js") := by
    decide +kernel
  obtain ⟨js, xjs⟩ := Prod.mk.inj key
  refine ⟨?_, fun key => ?_, fun same => ?_⟩
  · change Json.putMember (Registry.keyOf _ _) _ [] = Json.putMember (Registry.keyOf _ _) _ []
    rw [js, xjs]
  · change Option.Rel _ ((Registry.insert _ _).get? key) ((Registry.insert _ _).get? key)
    rw [Registry.get?_insert, Registry.get?_insert, js, xjs]
    split
    · exact .some ⟨rfl, rfl, rfl, rfl⟩
    · exact .none
  · have counts : (expand (dotted "js") {} [.element "card" [] []]).toOption.map
          (·.2.instances.length) = some 0 ∧
        (expand (dotted "x.js") {} [.element "card" [] []]).toOption.map
          (·.2.instances.length) = some 1 := by
      decide +kernel
    obtain ⟨⟨out, output⟩, done, none⟩ := exists_ok counts.1
    obtain ⟨⟨out', output'⟩, done', one⟩ := exists_ok counts.2
    rw [done, done'] at same
    simp only [Except.map, withoutTexts, Except.ok.injEq, Prod.mk.injEq] at same
    have length := congrArg List.length same.2.1
    rw [none, one] at length
    cases length

end ComponentCompiler.Component
