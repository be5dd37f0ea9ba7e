import ComponentCompiler.Proofs.Component.Derivation
import ComponentCompiler.Proofs.Identity.Allocation

/-!
# What a pass emits

All that a pass issues and collects is a function of the usage sites that it instantiates, in their
order. `Ledger` says which one.

* `Ledger.enrol`: instantiating one usage site keeps the ledger.
* `Run.ledger`: so does every walk.
* `expand_emits`: the output of a pass is what its usage sites contribute.
-/

namespace ComponentCompiler.Component

open Identity (RuntimeIds ScopeClasses BindingIds enter eraseDups_concat idxOf_enter label
  label_injective)
open Markup (Attribute)

/-! ## Contributions of usage sites -/

/-- What usage sites contribute, each of them given the ones before it. -/
def contributions (lines : List Site → Site → List String) :
    List Site → List Site → List String
  | _, [] => []
  | earlier, s :: rest => lines earlier s ++ contributions lines (earlier ++ [s]) rest

theorem contributions_concat (lines : List Site → Site → List String) (earlier sites : List Site)
    (s : Site) :
    contributions lines earlier (sites ++ [s]) =
      contributions lines earlier sites ++ lines (earlier ++ sites) s := by
  induction sites generalizing earlier with
  | nil => simp [contributions]
  | cons first rest ih => simp [contributions, ih]

namespace Site

def isRepeat (issued : Instance → Option String) (earlier : List Site) (s : Site) : Bool :=
  earlier.any fun e => e.record.key = s.record.key && (issued e.record).isSome

/-- The script of a component with its first label, then a call for each instance with a label. -/
def scriptLines (t : Script.Transformer) (earlier : List Site) (s : Site) : List String :=
  match s.record.runtimeId with
  | none => []
  | some id =>
    (if s.isRepeat Instance.runtimeId earlier then []
      else [(Script.emit (s.definition.script.getD "") id t).code]) ++
      [Script.activationCall id (s.record.bindingId.getD "") s.context]

def styleLines (earlier : List Site) (s : Site) : List String :=
  match s.record.scopeClass with
  | none => []
  | some className =>
    if s.isRepeat Instance.scopeClass earlier then []
    else [Style.scope (s.definition.styles.getD "") className]

structure Identified (registry : Registry) (s : Site) : Prop where
  found : registry.forTag? s.tag = some s.definition
  tag : s.record.tag = s.tag
  key : s.record.key = registry.keyOf s.tag
  runtimeId : s.record.runtimeId.isSome = (s.root?.isSome && s.definition.hasScript)
  bindingId : s.record.bindingId.isSome = (s.root?.isSome && s.definition.isAddressable)
  scopeClass : s.record.scopeClass.isSome = (s.root?.isSome && s.definition.hasStyles)

end Site

def keysWith (issued : Instance → Option String) (sites : List Site) : List String :=
  ((sites.filter fun s => (issued s.record).isSome).map fun s => s.record.key).eraseDups

section Keys

variable {issued : Instance → Option String} {sites : List Site} {s : Site}

theorem keysWith_issued (has : (issued s.record).isSome = true) :
    keysWith issued (sites ++ [s]) = enter (keysWith issued sites) s.record.key := by
  simp [keysWith, has, ← eraseDups_concat]

theorem keysWith_skipped (lacks : issued s.record = none) :
    keysWith issued (sites ++ [s]) = keysWith issued sites := by
  simp [keysWith, lacks]

theorem mem_keysWith {key : String} : key ∈ keysWith issued sites ↔
    ∃ e ∈ sites, (issued e.record).isSome = true ∧ e.record.key = key := by
  simp [keysWith, and_assoc]

theorem isRepeat_eq : s.isRepeat issued sites = decide (s.record.key ∈ keysWith issued sites) := by
  rw [Bool.eq_iff_iff, decide_eq_true_iff, mem_keysWith]
  simp [Site.isRepeat, and_comm]

end Keys

/-! ## Style sheets -/

structure StyleLedger (classes : ScopeClasses) (chunks : List String) (sites : List Site) :
    Prop where
  held : classes.Holds (keysWith Instance.scopeClass sites)
  chunks : chunks = contributions Site.styleLines [] sites
  tokens : classes.Tokens
  words : ∀ s ∈ sites, ∀ className, s.record.scopeClass = some className → Text.IsToken className

theorem StyleLedger.skip {classes : ScopeClasses} {chunks : List String} {sites : List Site}
    {s : Site} (before : StyleLedger classes chunks sites) (lacks : s.record.scopeClass = none) :
    StyleLedger classes chunks (sites ++ [s]) where
  held := by
    rw [keysWith_skipped lacks]
    exact before.held
  chunks := by
    rw [contributions_concat, ← before.chunks]
    simp [Site.styleLines, lacks]
  tokens := before.tokens
  words := by
    intro e member className has
    rcases List.mem_append.1 member with old | new
    · exact before.words e old className has
    · obtain rfl := List.mem_singleton.1 new
      simp [lacks] at has

theorem StyleLedger.step {p p' : Progress} {sites : List Site} {s : Site}
    (before : StyleLedger p.scopeClasses p.styleChunks sites)
    (issues : p.scopeStyles s.record.key s.definition = (s.record.scopeClass, p')) :
    StyleLedger p'.scopeClasses p'.styleChunks (sites ++ [s]) := by
  by_cases styled : s.definition.hasStyles = true
  · obtain ⟨fresh, holds⟩ := before.held.allocate Digest.shortHash s.record.key
    obtain ⟨isToken, tokens⟩ := ScopeClasses.allocate_isToken before.tokens s.record.key
    rw [Progress.scopeStyles, if_pos styled, Prod.mk.injEq] at issues
    obtain ⟨id, rfl⟩ := issues
    refine ⟨?_, ?_, tokens, ?_⟩
    · rw [keysWith_issued (by rw [← id]; rfl)]
      exact holds
    · rw [contributions_concat, ← before.chunks, List.nil_append, Site.styleLines, ← id]
      simp only [isRepeat_eq, fresh, decide_not, Bool.not_eq_true', decide_eq_false_iff_not,
        decide_eq_true_eq, ite_not]
    · intro e member className has
      rcases List.mem_append.1 member with old | new
      · exact before.words e old className has
      · obtain rfl := List.mem_singleton.1 new
        rw [← id, Option.some.injEq] at has
        exact has ▸ isToken
  · rw [Progress.scopeStyles, if_neg styled, Prod.mk.injEq] at issues
    obtain ⟨lacks, rfl⟩ := issues
    exact before.skip lacks.symm

/-! ## Bindings -/

structure BindingLedger (bindings : BindingIds) (sites : List Site) : Prop where
  issued : bindings.issued = (sites.filterMap fun s => s.record.bindingId).reverse
  nodup : bindings.issued.Nodup

theorem BindingLedger.skip {bindings : BindingIds} {sites : List Site} {s : Site}
    (before : BindingLedger bindings sites) (lacks : s.record.bindingId = none) :
    BindingLedger bindings (sites ++ [s]) :=
  ⟨by simp [before.issued, lacks], before.nodup⟩

theorem BindingLedger.step {p p' : Progress} {sites : List Site} {s : Site}
    (before : BindingLedger p.bindingIds sites)
    (issues : p.bind s.record.key s.definition = (s.record.bindingId, p')) :
    BindingLedger p'.bindingIds (sites ++ [s]) := by
  by_cases addressable : s.definition.isAddressable = true
  · rw [Progress.bind, if_pos addressable, Prod.mk.injEq] at issues
    obtain ⟨id, rfl⟩ := issues
    have fresh := p.bindingIds.allocate_not_mem Digest.shortHash s.record.key
    refine ⟨?_, List.nodup_cons.2 ⟨fresh, before.nodup⟩⟩
    simp [p.bindingIds.allocate_issued, before.issued, ← id]
  · rw [Progress.bind, if_neg addressable, Prod.mk.injEq] at issues
    obtain ⟨lacks, rfl⟩ := issues
    exact before.skip lacks.symm

/-! ## Scripts -/

structure ScriptLedger (t : Script.Transformer) (ids : RuntimeIds) (chunks : List String)
    (sites : List Site) : Prop where
  ids : ids.Holds (keysWith Instance.runtimeId sites)
  chunks : chunks = contributions (Site.scriptLines t) [] sites
  labels : ∀ s ∈ sites, ∀ id, s.record.runtimeId = some id →
    id = label ((keysWith Instance.runtimeId sites).idxOf s.record.key)

section Scripts

variable {t : Script.Transformer} {sites : List Site} {s : Site}

theorem ScriptLedger.skip {ids : RuntimeIds} {chunks : List String}
    (before : ScriptLedger t ids chunks sites) (lacks : s.record.runtimeId = none) :
    ScriptLedger t ids chunks (sites ++ [s]) where
  ids := by
    rw [keysWith_skipped lacks]
    exact before.ids
  chunks := by
    rw [contributions_concat, ← before.chunks]
    simp [Site.scriptLines, lacks]
  labels := by
    intro e member id has
    rw [keysWith_skipped lacks]
    rcases List.mem_append.1 member with old | new
    · exact before.labels e old id has
    · obtain rfl := List.mem_singleton.1 new
      simp [lacks] at has

theorem ScriptLedger.step {p p' : Progress}
    (before : ScriptLedger t p.runtimeIds p.runtimeChunks sites)
    (issues : p.activate t s.record.key s.definition s.context s.record.bindingId =
      (s.record.runtimeId, p')) :
    ScriptLedger t p'.runtimeIds p'.runtimeChunks (sites ++ [s]) := by
  cases binding : s.record.bindingId with
  | none =>
    rw [binding, Progress.activate, Prod.mk.injEq] at issues
    obtain ⟨lacks, rfl⟩ := issues
    exact before.skip lacks.symm
  | some bindingId =>
    rw [binding] at issues
    by_cases scripted : s.definition.hasScript = true
    · obtain ⟨given, holds⟩ := before.ids.allocate s.record.key
      rw [Progress.activate, if_pos scripted, Prod.mk.injEq] at issues
      obtain ⟨id, rfl⟩ := issues
      have keys : keysWith Instance.runtimeId (sites ++ [s]) =
          enter (keysWith Instance.runtimeId sites) s.record.key :=
        keysWith_issued (by rw [← id]; rfl)
      refine ⟨keys ▸ holds, ?_, ?_⟩
      · rw [contributions_concat, ← before.chunks, List.nil_append, Site.scriptLines, ← id, binding]
        simp only [isRepeat_eq, given, decide_not, Bool.not_eq_true', decide_eq_false_iff_not,
          decide_eq_true_eq, ite_not, Option.getD_some, List.append_assoc]
      · intro e member other has
        rw [keys]
        rcases List.mem_append.1 member with old | new
        · have known : e.record.key ∈ keysWith Instance.runtimeId sites :=
            mem_keysWith.2 ⟨e, old, by rw [has]; rfl, rfl⟩
          rw [idxOf_enter known]
          exact before.labels e old other has
        · obtain rfl := List.mem_singleton.1 new
          rw [← id, given, Option.some.injEq] at has
          exact has.symm
    · rw [Progress.activate, if_neg scripted, Prod.mk.injEq] at issues
      obtain ⟨lacks, rfl⟩ := issues
      exact before.skip lacks.symm

end Scripts

/-! ## All of the state -/

/-- The state of a pass that has instantiated the given usage sites. -/
structure Ledger (c : Setting) (p : Progress) (sites : List Site) : Prop where
  instances : p.instances = sites.map (·.record)
  styles : StyleLedger p.scopeClasses p.styleChunks sites
  bindings : BindingLedger p.bindingIds sites
  scripts : ScriptLedger c.options.transformer p.runtimeIds p.runtimeChunks sites
  identified : ∀ s ∈ sites, s.Identified c.registry

section Frames

variable {t : Script.Transformer} {p p' : Progress} {key : String} {d : Definition}
  {context : Template.Context} {bindingId id : Option String}

theorem scopeStyles_frame (issues : p.scopeStyles key d = (id, p')) :
    id.isSome = d.hasStyles ∧ p'.bindingIds = p.bindingIds ∧ p'.runtimeIds = p.runtimeIds ∧
      p'.runtimeChunks = p.runtimeChunks ∧ p'.instances = p.instances := by
  cases styled : d.hasStyles with
  | true =>
    rw [Progress.scopeStyles, if_pos styled, Prod.mk.injEq] at issues
    obtain ⟨rfl, rfl⟩ := issues
    exact ⟨rfl, rfl, rfl, rfl, rfl⟩
  | false =>
    rw [Progress.scopeStyles, if_neg (ne_true_of_eq_false styled), Prod.mk.injEq] at issues
    obtain ⟨rfl, rfl⟩ := issues
    exact ⟨rfl, rfl, rfl, rfl, rfl⟩

theorem bind_frame (issues : p.bind key d = (id, p')) :
    id.isSome = d.isAddressable ∧ p'.scopeClasses = p.scopeClasses ∧
      p'.styleChunks = p.styleChunks ∧ p'.runtimeIds = p.runtimeIds ∧
      p'.runtimeChunks = p.runtimeChunks ∧ p'.instances = p.instances := by
  cases addressable : d.isAddressable with
  | true =>
    rw [Progress.bind, if_pos addressable, Prod.mk.injEq] at issues
    obtain ⟨rfl, rfl⟩ := issues
    exact ⟨rfl, rfl, rfl, rfl, rfl, rfl⟩
  | false =>
    rw [Progress.bind, if_neg (ne_true_of_eq_false addressable), Prod.mk.injEq] at issues
    obtain ⟨rfl, rfl⟩ := issues
    exact ⟨rfl, rfl, rfl, rfl, rfl, rfl⟩

theorem activate_frame (issues : p.activate t key d context bindingId = (id, p')) :
    id.isSome = (bindingId.isSome && d.hasScript) ∧ p'.scopeClasses = p.scopeClasses ∧
      p'.styleChunks = p.styleChunks ∧ p'.bindingIds = p.bindingIds ∧
      p'.instances = p.instances := by
  cases bindingId with
  | none =>
    rw [Progress.activate, Prod.mk.injEq] at issues
    obtain ⟨rfl, rfl⟩ := issues
    exact ⟨rfl, rfl, rfl, rfl, rfl⟩
  | some binding =>
    cases scripted : d.hasScript with
    | true =>
      rw [Progress.activate, if_pos scripted, Prod.mk.injEq] at issues
      obtain ⟨rfl, rfl⟩ := issues
      exact ⟨rfl, rfl, rfl, rfl, rfl⟩
    | false =>
      rw [Progress.activate, if_neg (ne_true_of_eq_false scripted), Prod.mk.injEq] at issues
      obtain ⟨rfl, rfl⟩ := issues
      exact ⟨rfl, rfl, rfl, rfl, rfl⟩

end Frames

theorem hasScript_le_isAddressable (d : Definition) :
    (d.isAddressable && d.hasScript) = d.hasScript := by
  cases scripted : d.hasScript <;> simp [Definition.isAddressable, scripted]

section Enrol

variable {c : Setting} {p p' : Progress} {tag : String} {attributes : List Attribute}
  {d : Definition} {record : Instance}

theorem enrol_of_rootless (enrolled : c.enrol tag attributes d p = (record, p'))
    (rootless : Markup.firstRoot? (Template.instantiate d.body (.ofAttributes attributes)) = none) :
    record = ⟨tag, c.registry.keyOf tag, none, none, none⟩ ∧ ∃ warnings,
      p' = { p with warnings := warnings, instances := p.instances ++ [record] } := by
  by_cases marked : (d.hasStyles || d.isAddressable) = true
  · simp only [Setting.enrol, if_pos marked, rootless, Prod.mk.injEq] at enrolled
    obtain ⟨rfl, rfl⟩ := enrolled
    exact ⟨rfl, _, rfl⟩
  · simp only [Setting.enrol, if_neg marked, Prod.mk.injEq] at enrolled
    obtain ⟨rfl, rfl⟩ := enrolled
    exact ⟨rfl, p.warnings, rfl⟩

theorem enrol_of_root {root : Markup.Element}
    (enrolled : c.enrol tag attributes d p = (record, p'))
    (rooted :
      Markup.firstRoot? (Template.instantiate d.body (.ofAttributes attributes)) = some root) :
    ∃ p₁ p₂ p₃, p.scopeStyles record.key d = (record.scopeClass, p₁) ∧
      p₁.bind record.key d = (record.bindingId, p₂) ∧
      p₂.activate c.options.transformer record.key d (.ofAttributes attributes)
        record.bindingId = (record.runtimeId, p₃) ∧
      record.tag = tag ∧ record.key = c.registry.keyOf tag ∧
      p' = { p₃ with instances := p₃.instances ++ [record] } := by
  by_cases marked : (d.hasStyles || d.isAddressable) = true
  · simp only [Setting.enrol, if_pos marked, rooted, Progress.identify, Prod.mk.injEq] at enrolled
    obtain ⟨rfl, rfl⟩ := enrolled
    exact ⟨_, _, _, rfl, rfl, rfl, rfl, rfl, rfl⟩
  · simp only [Setting.enrol, if_neg marked, Prod.mk.injEq] at enrolled
    obtain ⟨rfl, rfl⟩ := enrolled
    rw [Bool.or_eq_true, not_or] at marked
    refine ⟨p, p, p, ?_, ?_, rfl, rfl, rfl, rfl⟩
    · rw [Progress.scopeStyles, if_neg marked.1]
    · rw [Progress.bind, if_neg marked.2]

end Enrol

theorem Ledger.enrol {c : Setting} {p p' : Progress} {sites : List Site} {tag : String}
    {attributes : List Attribute} {d : Definition} {record : Instance} (before : Ledger c p sites)
    (found : c.registry.forTag? tag = some d)
    (enrolled : c.enrol tag attributes d p = (record, p')) (depth : Nat) (covered : Bool) :
    Ledger c p' (sites ++ [⟨tag, attributes, d, depth, covered, record⟩]) := by
  cases rooted : Markup.firstRoot? (Template.instantiate d.body (.ofAttributes attributes)) with
  | none =>
    obtain ⟨rfl, warnings, rfl⟩ := enrol_of_rootless enrolled rooted
    refine ⟨by simp [before.instances], before.styles.skip rfl, before.bindings.skip rfl,
      before.scripts.skip rfl, ?_⟩
    intro s member
    rcases List.mem_append.1 member with old | new
    · exact before.identified s old
    · obtain rfl := List.mem_singleton.1 new
      constructor <;> simp [found, Site.root?, Site.body, Site.context, rooted]
  | some root =>
    obtain ⟨p₁, p₂, p₃, styled, bound, activated, tagged, keyed, rfl⟩ :=
      enrol_of_root enrolled rooted
    obtain ⟨hasClass, bindings₁, ids₁, chunks₁, instances₁⟩ := scopeStyles_frame styled
    obtain ⟨hasBinding, classes₂, styles₂, ids₂, chunks₂, instances₂⟩ := bind_frame bound
    obtain ⟨hasLabel, classes₃, styles₃, bindings₃, instances₃⟩ := activate_frame activated
    constructor
    · simp [instances₃, instances₂, instances₁, before.instances]
    · rw [classes₃, styles₃, classes₂, styles₂]
      exact before.styles.step styled
    · have bindings := before.bindings
      rw [← bindings₁] at bindings
      rw [bindings₃]
      exact bindings.step bound
    · have scripts := before.scripts
      rw [← ids₁, ← chunks₁, ← ids₂, ← chunks₂] at scripts
      change ScriptLedger _ p₃.runtimeIds p₃.runtimeChunks _
      exact scripts.step activated
    · intro s member
      rcases List.mem_append.1 member with old | new
      · exact before.identified s old
      · obtain rfl := List.mem_singleton.1 new
        rw [hasBinding, hasScript_le_isAddressable] at hasLabel
        exact ⟨found, tagged, keyed,
          by simp [Site.root?, Site.body, Site.context, rooted, hasLabel],
          by simp [Site.root?, Site.body, Site.context, rooted, hasBinding],
          by simp [Site.root?, Site.body, Site.context, rooted, hasClass]⟩

/-! ## Whole passes -/

theorem Ledger.warn {c : Setting} {p : Progress} {sites : List Site} (before : Ledger c p sites)
    (tag : String) : Ledger c (c.noted tag p) sites := by
  rw [Setting.noted]
  split
  · exact ⟨before.instances, before.styles, before.bindings, before.scripts, before.identified⟩
  · exact before

theorem Run.ledger {c : Setting} {task : Task} {p p' : Progress} {sites : List Site}
    {out : List Markup.Marked} (run : Run c task p sites out p') :
    ∀ {earlier : List Site}, Ledger c p earlier → Ledger c p' (earlier ++ sites) := by
  induction run with
  | walkNil | flat | fillNil =>
    intro earlier before
    rwa [List.append_nil]
  | walkLeaf _ _ ih | passBy _ _ ih | nest _ _ _ ih | fillLeaf _ _ ih =>
    intro earlier before
    exact ih before
  | @site depth covered p mark tag attributes children rest d record p₁ sites₁ body p₂ sites₂ filled
      p₃ sites₃ out p₄ _ found enrolled _ _ _ inner fill more =>
    intro earlier before
    have start := before.enrol found enrolled depth covered
    simpa using more (fill (inner start))
  | drop _ _ _ _ ih =>
    intro earlier before
    exact ih (before.warn _)
  | keep _ _ _ _ _ inside more =>
    intro earlier before
    simpa using more (inside (before.warn _))
  | fillSlot _ _ _ first second | fillElement _ _ _ first second =>
    intro earlier before
    simpa using second (first before)

theorem Ledger.start (c : Setting) : Ledger c {} [] where
  instances := rfl
  styles := ⟨by simp [ScopeClasses.Holds, keysWith], rfl, by simp [ScopeClasses.Tokens], by simp⟩
  bindings := ⟨rfl, List.nodup_nil⟩
  scripts := ⟨Identity.RuntimeIds.holds_nil, rfl, by simp⟩
  identified := by simp

theorem Expands.ledger {registry : Registry} {options : Options} {nodes out : List Markup.Node}
    {sites : List Site} {output : Output}
    (pass : Expands registry options nodes sites out output) :
    ∃ p, Ledger ⟨registry, options⟩ p sites ∧ p.output = output := by
  obtain ⟨_, p, run, -, emitted⟩ := pass
  exact ⟨p, run.ledger (.start _), emitted⟩

/-- What the output of a pass is, given the usage sites in the order in which they were
instantiated. -/
structure Emits (registry : Registry) (options : Options) (sites : List Site) (output : Output) :
    Prop where
  instances : output.instances = sites.map (·.record)
  identified : ∀ s ∈ sites, s.Identified registry
  /-- There is no label without a binding, so every call has one to select by. -/
  bound : ∀ s ∈ sites, s.record.runtimeId.isSome = true → s.record.bindingId.isSome = true
  runtimeScript : output.runtimeScript =
    String.intercalate "\n" (contributions (Site.scriptLines options.transformer) [] sites)
  styles : output.styles = String.intercalate "\n" (contributions Site.styleLines [] sites)
  labels : ∀ s ∈ sites, ∀ id, s.record.runtimeId = some id →
    ∃ m, (keysWith Instance.runtimeId sites)[m]? = some s.record.key ∧ id = label m
  shared : ∀ s ∈ sites, ∀ e ∈ sites, ∀ id id', s.record.runtimeId = some id →
    e.record.runtimeId = some id' → (id = id' ↔ s.record.key = e.record.key)

theorem Ledger.emits {registry : Registry} {options : Options} {p : Progress} {sites : List Site}
    (ledger : Ledger ⟨registry, options⟩ p sites) : Emits registry options sites p.output where
  instances := ledger.instances
  identified := ledger.identified
  bound := by
    intro s member has
    have identified := ledger.identified s member
    rw [identified.runtimeId, Bool.and_eq_true] at has
    rw [identified.bindingId, has.1, Definition.isAddressable, has.2]
    rfl
  runtimeScript := by rw [← ledger.scripts.chunks]; rfl
  styles := by rw [← ledger.styles.chunks]; rfl
  labels := by
    intro s member id has
    have known : s.record.key ∈ keysWith Instance.runtimeId sites :=
      mem_keysWith.2 ⟨s, member, by rw [has]; rfl, rfl⟩
    refine ⟨_, ?_, ledger.scripts.labels s member id has⟩
    rw [List.getElem?_eq_getElem (List.idxOf_lt_length_of_mem known), List.getElem_idxOf]
  shared := by
    intro s member e other id id' has has'
    have known : s.record.key ∈ keysWith Instance.runtimeId sites :=
      mem_keysWith.2 ⟨s, member, by rw [has]; rfl, rfl⟩
    rw [ledger.scripts.labels s member id has, ledger.scripts.labels e other id' has']
    constructor
    · intro same
      exact (List.idxOf_inj known).1 (label_injective same)
    · intro same
      rw [same]

/-- Every successful pass has usage sites, instantiated in a definite order, and its output is what
they contribute. -/
theorem expand_emits {registry : Registry} {options : Options} {nodes out : List Markup.Node}
    {output : Output} (done : expand registry options nodes = .ok (out, output)) :
    ∃ sites, Expands registry options nodes sites out output ∧
      Emits registry options sites output := by
  obtain ⟨sites, pass⟩ := expand_ok_iff.1 done
  obtain ⟨p, ledger, rfl⟩ := pass.ledger
  exact ⟨sites, pass, ledger.emits⟩

def cards : Registry :=
  .ofList "js" [
    ⟨"card", "<div><slot></slot><slot></slot></div>", some ".a {}", some "function RUNTIME(el) {}",
      none⟩,
    ⟨"note", "<p>{text}</p>", none, some "let RUNTIME = 1", none⟩]

def cardsInUse : List Markup.Node :=
  [.element "card" [] [.element "note" [⟨"text", "first"⟩] []], .element "card" [] []]

theorem expand_emits_cards : ∃ out output sites, expand cards {} cardsInUse = .ok (out, output) ∧
    output.instances.map (·.runtimeId) = [some "a", some "b", some "b", some "a"] ∧
    Expands cards {} cardsInUse sites out output ∧ Emits cards {} sites output := by
  have value : (expand cards {} cardsInUse).toOption.map
      (fun result => result.2.instances.map (·.runtimeId)) =
        some [some "a", some "b", some "b", some "a"] := by
    decide +kernel
  obtain ⟨⟨out, output⟩, done, labels⟩ := exists_ok value
  obtain ⟨sites, pass, emits⟩ := expand_emits done
  exact ⟨out, output, sites, done, labels, pass, emits⟩

end ComponentCompiler.Component
