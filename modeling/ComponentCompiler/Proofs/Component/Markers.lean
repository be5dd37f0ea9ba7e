import ComponentCompiler.Proofs.Component.Emission
import ComponentCompiler.Proofs.Component.Survival
import Mathlib.Data.List.Nodup

namespace ComponentCompiler.Component

open Markup (Attribute Everywhere Node elements noTag)
open Markup.Attribute (classes get?)
open Template (Lacking)

/-- The markers of an instance are on the page: one element has its binding, and an element has its
class, the one with the binding if there is one. -/
structure Instance.OnPage (i : Instance) (out : List Node) : Prop where
  binding : ∀ id, i.bindingId = some id →
    (elements out).countP (fun e => get? e.attributes Identity.bindingAttribute = some id) = 1
  scopeClass : ∀ className, i.scopeClass = some className →
    ∃ e ∈ elements out, className.toList ∈ classes e.attributes ∧
      ∀ id, i.bindingId = some id → get? e.attributes Identity.bindingAttribute = some id

abbrev Unbound (nodes : List Node) : Prop :=
  Everywhere (Lacking Identity.bindingAttribute) nodes

def Wears (className : String) (nodes : List Node) : Prop :=
  ∃ e ∈ elements nodes, className.toList ∈ classes e.attributes

/-- The root of an instance with a binding survives, and so does one root of the class of the
instance. -/
structure Site.Placed (c : Setting) (sites : List Site) (s : Site) : Prop where
  binding : s.record.bindingId.isSome = true → s.survives c = true
  scopeClass : ∀ className, s.record.scopeClass = some className →
    ∃ e ∈ sites, e.record.scopeClass = some className ∧ e.survives c = true

section Roots

variable {registry : Registry} {options : Options} {nodes out : List Node} {sites : List Site}
  {output : Output}

theorem covers_zero : Setting.covers 0 = noTag := by
  funext tag
  simp [Setting.covers, noTag]

theorem Expands.count (pass : Expands registry options nodes sites out output)
    (q : List Attribute → Bool) :
    Tally (shown q noTag out) (tops q (Setting.lasts ⟨registry, options⟩ 0) nodes +
        sites.countP (Site.counts ⟨registry, options⟩ q))
      (Shallow q nodes ∧ ∀ s ∈ sites, Absent q s.body) := by
  obtain ⟨followed, p, run, rfl, -⟩ := pass
  have count := @Run.count ⟨registry, options⟩ q _ _ _ _ _ run rfl
  simp only [Task.Counts, Task.cut, Task.lasting, Task.Clean, covers_zero, Markup.erase_unmarked]
    at count
  exact count

theorem Expands.count_of_absent (pass : Expands registry options nodes sites out output)
    {q : List Attribute → Bool} (page : Absent q nodes) (bodies : ∀ s ∈ sites, Absent q s.body) :
    shown q noTag out = sites.countP (Site.counts ⟨registry, options⟩ q) := by
  rw [(pass.count q).eq ⟨page.shallow, bodies⟩, page.tops, Nat.zero_add]

theorem Expands.exists_root (pass : Expands registry options nodes sites out output) {s : Site}
    (member : s ∈ sites) (survives : s.survives ⟨registry, options⟩ = true) :
    ∃ root, s.root? = some root ∧
      ∃ e ∈ elements out, e.attributes = s.record.markAttributes root.attributes := by
  cases rooted : s.root? with
  | none => simp [Site.survives, rooted] at survives
  | some root =>
    refine ⟨root, rfl, ?_⟩
    have count :=
      (pass.count fun attributes => attributes = s.record.markAttributes root.attributes).le
    have positive : 0 < sites.countP (Site.counts ⟨registry, options⟩
        fun attributes => attributes = s.record.markAttributes root.attributes) := by
      rw [List.countP_pos_iff]
      exact ⟨s, member, by simp [Site.counts, Site.marked?, survives, rooted]⟩
    have found : 0 < shown (fun attributes => attributes = s.record.markAttributes root.attributes)
        noTag out := by
      omega
    obtain ⟨e, there, same⟩ := List.countP_pos_iff.1 found
    exact ⟨e, there, by simpa using same⟩

end Roots

theorem countP_binding {p : Site → Bool} {s : Site} {id : String}
    (has : s.record.bindingId = some id) : {sites : List Site} →
    (sites.filterMap fun e => e.record.bindingId).Nodup → s ∈ sites →
    sites.countP (fun e => p e && decide (e.record.bindingId = some id)) = (p s).toNat
  | [], _, member => by cases member
  | first :: rest, nodup, member => by
    rcases List.mem_cons.1 member with rfl | later
    · simp only [List.filterMap_cons, has, List.nodup_cons] at nodup
      have others : rest.countP (fun e => p e && decide (e.record.bindingId = some id)) = 0 := by
        rw [List.countP_eq_zero]
        intro e inRest
        have different : e.record.bindingId ≠ some id := fun same =>
          nodup.1 (List.mem_filterMap.2 ⟨e, inRest, same⟩)
        simp [different]
      rw [List.countP_cons, others]
      cases kept : p s <;> simp [has]
    · have different : first.record.bindingId ≠ some id := by
        intro same
        simp only [List.filterMap_cons, same, List.nodup_cons] at nodup
        exact nodup.1 (List.mem_filterMap.2 ⟨s, later, has⟩)
      have unique : (rest.filterMap fun e => e.record.bindingId).Nodup :=
        (List.Sublist.filterMap _ (List.sublist_cons_self first rest)).nodup nodup
      rw [List.countP_cons, countP_binding has unique later]
      simp [different]

section Markers

variable {registry : Registry} {options : Options} {nodes out : List Node} {sites : List Site}
  {output : Output}

theorem unbound_body (identified : ∀ s ∈ sites, s.Identified registry)
    (bodies : ∀ entry ∈ registry.entries, Unbound (Markup.parseFragment entry.2.body)) :
    ∀ s ∈ sites, Unbound s.body := by
  intro s member
  obtain ⟨before, after, parts, -⟩ := List.lookup_eq_some_iff.1 (identified s member).found
  exact Template.lacking_instantiate (by decide)
    (bodies (registry.keyOf s.tag, s.definition) (by rw [parts]; simp)) s.context

theorem Expands.count_binding (pass : Expands registry options nodes sites out output)
    (page : Unbound nodes)
    (bodies : ∀ entry ∈ registry.entries, Unbound (Markup.parseFragment entry.2.body))
    {s : Site} (member : s ∈ sites) {id : String} (bound : s.record.bindingId = some id) :
    (elements out).countP (fun e => get? e.attributes Identity.bindingAttribute = some id) =
      (s.survives ⟨registry, options⟩).toNat := by
  obtain ⟨p, ledger, -⟩ := pass.ledger
  have unbound := unbound_body ledger.identified bodies
  have absent : ∀ nodes, Unbound nodes → Absent (fun attributes =>
      decide (get? attributes Identity.bindingAttribute = some id)) nodes := by
    intro nodes lacks e there
    simp [Attribute.get?_eq_none.2 (lacks e there)]
  have counted := pass.count_of_absent (absent nodes page)
    fun e member => absent e.body (unbound e member)
  have nodup : (sites.filterMap fun e => e.record.bindingId).Nodup := by
    have issued := ledger.bindings.nodup
    rw [ledger.bindings.issued] at issued
    exact List.nodup_reverse.1 issued
  rw [← countP_binding bound nodup member]
  refine counted.trans (List.countP_congr fun e member => ?_)
  cases rooted : e.root? with
  | none => simp [Site.counts, Site.survives, rooted]
  | some root =>
    have lacks := Everywhere.root (unbound e member) rooted
    simp [Site.counts, Site.marked?, rooted, e.record.get?_markAttributes lacks]

theorem Expands.exists_class (pass : Expands registry options nodes sites out output)
    (bodies : ∀ entry ∈ registry.entries, Unbound (Markup.parseFragment entry.2.body))
    {s : Site} (member : s ∈ sites) (survives : s.survives ⟨registry, options⟩ = true)
    {className : String} (classed : s.record.scopeClass = some className) :
    ∃ e ∈ elements out, className.toList ∈ classes e.attributes ∧
      get? e.attributes Identity.bindingAttribute = s.record.bindingId := by
  obtain ⟨p, ledger, -⟩ := pass.ledger
  obtain ⟨root, rooted, e, there, marked⟩ := pass.exists_root member survives
  have once := Everywhere.root
    (Template.once_instantiate Html.stable_class s.definition.body s.context) rooted
  have lacks := Everywhere.root (unbound_body ledger.identified bodies s member) rooted
  refine ⟨e, there, ?_, ?_⟩
  · rw [marked, s.record.mem_classes_markAttributes once (ledger.styles.words s member)]
    exact .inr ⟨className, classed, rfl⟩
  · rw [marked, s.record.get?_markAttributes lacks]

theorem Expands.class_survives (pass : Expands registry options nodes sites out output)
    {className : String} (page : ¬Wears className nodes)
    (bodies : ¬∃ s ∈ sites, Wears className s.body) (wears : Wears className out) :
    ∃ s ∈ sites, s.record.scopeClass = some className ∧
      s.survives ⟨registry, options⟩ = true := by
  obtain ⟨p, ledger, -⟩ := pass.ledger
  have absent : ∀ nodes, ¬Wears className nodes →
      Absent (fun attributes => decide (className.toList ∈ classes attributes)) nodes := by
    intro nodes lacks e there
    exact decide_eq_false fun worn => lacks ⟨e, there, worn⟩
  have counted := pass.count_of_absent (absent nodes page)
    fun s member => absent s.body fun worn => bodies ⟨s, member, worn⟩
  obtain ⟨e, there, worn⟩ := wears
  have positive : 0 < shown (fun attributes => decide (className.toList ∈ classes attributes))
      noTag out := List.countP_pos_iff.2 ⟨e, there, by simpa using worn⟩
  rw [counted, List.countP_pos_iff] at positive
  obtain ⟨s, member, counts⟩ := positive
  rw [Site.counts, Bool.and_eq_true] at counts
  obtain ⟨survives, shows⟩ := counts
  refine ⟨s, member, ?_, survives⟩
  cases rooted : s.root? with
  | none => simp [Site.marked?, rooted] at shows
  | some root =>
    have once := Everywhere.root
      (Template.once_instantiate Html.stable_class s.definition.body s.context) rooted
    have bare : className.toList ∉ classes root.attributes := by
      have lacks := absent s.body fun worn => bodies ⟨s, member, worn⟩
      simpa using Everywhere.root lacks rooted
    simp only [Site.marked?, rooted, Option.map_some, Option.getD_some, decide_eq_true_iff,
      s.record.mem_classes_markAttributes once (ledger.styles.words s member), bare,
      false_or] at shows
    obtain ⟨other, classed, same⟩ := shows
    rw [classed, String.toList_injective same]

theorem Expands.onPage_of_placed (pass : Expands registry options nodes sites out output)
    (page : Unbound nodes)
    (bodies : ∀ entry ∈ registry.entries, Unbound (Markup.parseFragment entry.2.body))
    {s : Site} (member : s ∈ sites) (placed : s.Placed ⟨registry, options⟩ sites) :
    s.record.OnPage out where
  binding := by
    intro id bound
    rw [pass.count_binding page bodies member bound, placed.binding (by rw [bound]; rfl)]
    rfl
  scopeClass := by
    intro className classed
    cases bound : s.record.bindingId with
    | none =>
      obtain ⟨e, other, same, survives⟩ := placed.scopeClass className classed
      obtain ⟨found, there, worn, -⟩ := pass.exists_class bodies other survives same
      exact ⟨found, there, worn, by simp⟩
    | some id =>
      have survives := placed.binding (by rw [bound]; rfl)
      obtain ⟨found, there, worn, selected⟩ := pass.exists_class bodies member survives classed
      refine ⟨found, there, worn, fun id' same => ?_⟩
      rw [selected, bound, same]

theorem Expands.placed_of_onPage (pass : Expands registry options nodes sites out output)
    (page : Unbound nodes)
    (bodies : ∀ entry ∈ registry.entries, Unbound (Markup.parseFragment entry.2.body))
    {s : Site} (member : s ∈ sites) (onPage : s.record.OnPage out) :
    s.Placed ⟨registry, options⟩ sites ∨ s.record.bindingId = none ∧
      ∃ className, s.record.scopeClass = some className ∧
        (Wears className nodes ∨ ∃ e ∈ sites, Wears className e.body) := by
  cases bound : s.record.bindingId with
  | some id =>
    have survives : s.survives ⟨registry, options⟩ = true := by
      have one := onPage.binding id bound
      rw [pass.count_binding page bodies member bound] at one
      cases kept : s.survives ⟨registry, options⟩ with
      | true => rfl
      | false => simp [kept] at one
    exact .inl ⟨fun _ => survives, fun className classed => ⟨s, member, classed, survives⟩⟩
  | none =>
    cases classed : s.record.scopeClass with
    | none => exact .inl ⟨by simp [bound], by simp [classed]⟩
    | some className =>
      by_cases own : Wears className nodes ∨ ∃ e ∈ sites, Wears className e.body
      · exact .inr ⟨rfl, className, rfl, own⟩
      · rw [not_or] at own
        obtain ⟨e, there, worn, -⟩ := onPage.scopeClass className classed
        have survivor := pass.class_survives own.1 own.2 ⟨e, there, worn⟩
        refine .inl ⟨by simp [bound], fun other same => ?_⟩
        rw [classed] at same
        obtain rfl := Option.some.inj same
        exact survivor

/-- The markers of an instance are on the page exactly when it is placed; only a class may be there
for another reason. -/
theorem expand_onPage (page : Unbound nodes)
    (bodies : ∀ entry ∈ registry.entries, Unbound (Markup.parseFragment entry.2.body))
    (done : expand registry options nodes = .ok (out, output)) :
    ∃ sites, Expands registry options nodes sites out output ∧
      output.instances = sites.map (·.record) ∧
      ∀ s ∈ sites, (s.Placed ⟨registry, options⟩ sites → s.record.OnPage out) ∧
        (s.record.OnPage out → s.Placed ⟨registry, options⟩ sites ∨ s.record.bindingId = none ∧
          ∃ className, s.record.scopeClass = some className ∧
            (Wears className nodes ∨ ∃ e ∈ sites, Wears className e.body)) := by
  obtain ⟨sites, pass⟩ := expand_ok_iff.1 done
  obtain ⟨p, ledger, rfl⟩ := pass.ledger
  exact ⟨sites, pass, ledger.instances, fun s member =>
    ⟨pass.onPage_of_placed page bodies member, pass.placed_of_onPage page bodies member⟩⟩

end Markers

def boxes (body : String) : Registry :=
  .ofList "js" [⟨"box", body, none, some "function RUNTIME(el) {}", none⟩]

def boxed : List Node :=
  [.element "box" [] [.element "p" [] [.text "x"]]]

def selected (nodes : List Node) : Nat :=
  (elements nodes).countP fun e =>
    get? e.attributes Identity.bindingAttribute = some "chid-4b5a3d4780"

theorem expand_onPage_framed : ∃ (out : List Node) (output : Output) (sites : List Site),
    Unbound boxed ∧
    (∀ entry ∈ (boxes "<div><slot></slot></div>").entries,
      Unbound (Markup.parseFragment entry.2.body)) ∧
    expand (boxes "<div><slot></slot></div>") {} boxed = .ok (out, output) ∧
    output.instances = sites.map (·.record) ∧ sites ≠ [] ∧
    ∀ s ∈ sites, s.record.bindingId = some "chid-4b5a3d4780" ∧ s.record.OnPage out ∧
      s.Placed ⟨boxes "<div><slot></slot></div>", {}⟩ sites := by
  have page : Unbound boxed := by
    decide +kernel
  have bodies : ∀ entry ∈ (boxes "<div><slot></slot></div>").entries,
      Unbound (Markup.parseFragment entry.2.body) := by
    decide +kernel
  have value : (expand (boxes "<div><slot></slot></div>") {} boxed).toOption.map
      (fun r => (r.2.instances.map fun i => (i.bindingId, i.scopeClass), selected r.1)) =
        some ([(some "chid-4b5a3d4780", none)], 1) := by
    decide +kernel
  obtain ⟨⟨out, output⟩, done, shown⟩ := exists_ok value
  obtain ⟨records, once⟩ := Prod.mk.inj shown
  obtain ⟨sites, -, instances, onPage⟩ := expand_onPage page bodies done
  rw [instances, List.map_map] at records
  refine ⟨out, output, sites, page, bodies, done, instances, ?_, fun s member => ?_⟩
  · rintro rfl
    cases records
  · have record := List.mem_map_of_mem (f := (fun i : Instance => (i.bindingId, i.scopeClass)) ∘
      (·.record)) member
    rw [records, List.mem_singleton] at record
    obtain ⟨bound, unclassed⟩ := Prod.mk.inj record
    have there : s.record.OnPage out := by
      refine ⟨fun id same => ?_, fun className classed => ?_⟩
      · obtain rfl := Option.some.inj (bound.symm.trans same)
        exact once
      · cases unclassed.symm.trans classed
    refine ⟨bound, there, ?_⟩
    rcases (onPage s member).2 there with placed | ⟨unbound, -⟩
    · exact placed
    · cases bound.symm.trans unbound

/-- A slot does not survive, so an instance may lose its markers. -/
theorem exists_not_onPage : ¬∀ (registry : Registry) (options : Options) (nodes out : List Node)
    (output : Output), Unbound nodes →
    (∀ entry ∈ registry.entries, Unbound (Markup.parseFragment entry.2.body)) →
    expand registry options nodes = .ok (out, output) →
    ∀ i ∈ output.instances, i.OnPage out := by
  intro always
  have page : Unbound boxed := by
    decide +kernel
  have bodies : ∀ entry ∈ (boxes "<slot></slot>").entries,
      Unbound (Markup.parseFragment entry.2.body) := by
    decide +kernel
  have value : (expand (boxes "<slot></slot>") {} boxed).toOption.map
      (fun r => (r.2.instances.map (·.bindingId), selected r.1)) =
        some ([some "chid-4b5a3d4780"], 0) := by
    decide +kernel
  obtain ⟨⟨out, output⟩, done, shown⟩ := exists_ok value
  obtain ⟨records, none⟩ := Prod.mk.inj shown
  have member : some "chid-4b5a3d4780" ∈ output.instances.map (·.bindingId) := by
    rw [records]
    exact List.mem_singleton.2 rfl
  obtain ⟨i, there, bound⟩ := List.mem_map.1 member
  have one : selected out = 1 := (always _ _ _ _ _ page bodies done i there).binding _ bound
  rw [none] at one
  cases one

end ComponentCompiler.Component
