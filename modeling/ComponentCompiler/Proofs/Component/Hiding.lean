import ComponentCompiler.Proofs.Component.Derivation
import ComponentCompiler.Proofs.Component.Marking

/-!
# Hidden elements

An element of a body whose `if` does not hold is hidden by a style of its own. The style stays with
the element, wherever it is copied to; it is lost when the element is replaced.

* `Run.hidden`: elements that are hidden stay so.
* `Run.whole`: nothing takes the place of an element that is neither a slot nor expanded.
* `Run.fill_hides`: what a slot is replaced by is as hidden as it was before.
* `walkNode_hides`: so an `if` hides what is not replaced, and nothing else.
-/

namespace ComponentCompiler.Component

open Markup (Attribute Every Mark Marked Node erase erase_unmarked inherit isSlot unmarked)
open Template (Context Failing FollowedHidden evaluate isHidden)

/-! ## The marked body of a usage site -/

@[simp] theorem isHidden_markAttributes (i : Instance) (attributes : List Attribute) :
    isHidden (i.markAttributes attributes) = isHidden attributes := by
  rw [isHidden, i.get?_markAttributes_of_ne (by decide) (by decide), isHidden]

/-- What takes the place of a usage site that lies in `depth` bodies, with the marks that the
elements of the parsed body hand on. -/
def Setting.Replaces (c : Setting) (depth : Nat) (p : Progress) (tag : String)
    (attributes : List Attribute) (children : List Node) (d : Definition) (parsed : List Marked)
    (final : List Marked) (p' : Progress) : Prop :=
  ∃ record p₁ sites₁ body p₂ sites₂, c.enrol tag attributes d p = (record, p₁) ∧
    Run c (.body depth false (record.markFollowed (evaluate (.ofAttributes attributes) parsed)))
      p₁ sites₁ body p₂ ∧
    Run c (.fill depth false (unmarked children) body) p₂ sites₂ final p'

section Replaces

variable {c : Setting} {depth : Nat} {p p' : Progress} {tag : String}
  {attributes : List Attribute} {children : List Node} {d : Definition} {parsed : List Marked}

theorem exists_replaces {out : List Node} (plain : Setting.passesBy tag = false)
    (found : c.registry.forTag? tag = some d) (reads : erase parsed = Markup.parseFragment d.body)
    (done : walkNode c (c.onBodiesAt depth) (.element tag attributes children) p = .ok (out, p')) :
    ∃ final, c.Replaces depth p tag attributes children d parsed final p' ∧ erase final = out := by
  obtain ⟨body, p₂, replaced, inner, fill⟩ := (walkNode_site_ok plain found).1 done
  rw [← Template.erase_evaluate reads, ← Instance.erase_markFollowed] at inner
  obtain ⟨sites₁, followed, runBody, rfl⟩ :=
    derivesBodies c _ depth rfl false _ _ _ _ _ inner
  rw [← erase_unmarked children] at fill
  obtain ⟨sites₂, final, runFill, rfl⟩ :=
    exists_run_fill (exists_run c depth false _) _ _ _ _ _ fill
  exact ⟨final, ⟨_, _, _, _, _, _, rfl, runBody, runFill⟩, rfl⟩

theorem Setting.Replaces.unique {final final' : List Marked} {p'' : Progress}
    (first : c.Replaces depth p tag attributes children d parsed final p')
    (second : c.Replaces depth p tag attributes children d parsed final' p'') :
    final' = final := by
  obtain ⟨_, _, _, _, _, _, enrolled, inner, fill⟩ := first
  obtain ⟨_, _, _, _, _, _, enrolled', inner', fill'⟩ := second
  obtain ⟨rfl, rfl⟩ := Prod.mk.inj (enrolled.symm.trans enrolled')
  obtain ⟨-, rfl, rfl⟩ := inner.deterministic inner'
  exact (fill.deterministic fill').2.1.symm

end Replaces

/-! ## Elements that stay -/

def ItselfHidden (mark : Mark) (_tag : String) (attributes : List Attribute) : Prop :=
  mark = .itself → isHidden attributes = true

theorem Run.hidden {c : Setting} {task : Task} {p p' : Progress} {sites : List Site}
    {out : List Marked} (run : Run c task p sites out p') :
    task.StartsWith ItselfHidden → Every ItselfHidden out := by
  refine run.every (fun _ _ _ _ _ => nofun) ?_
  intro replaced mark tag attributes hidden itself
  cases mark with
  | itself => exact hidden rfl
  | heir => cases itself
  | other => cases replaced <;> cases itself

def NotSlot (mark : Mark) (tag : String) (_attributes : List Attribute) : Prop :=
  mark = .other ∨ mark = .itself ∧ isSlot tag = false

def Setting.NotUsed (c : Setting) (mark : Mark) (tag : String) (_attributes : List Attribute) :
    Prop :=
  mark = .other ∨ mark = .itself ∧ isSlot tag = false ∧
    (passesBy tag = true ∨ c.registry.forTag? tag = none)

/-- An element that is followed is not replaced: it is no slot, nor a usage site when these are
expanded in bodies. -/
def Setting.Stays (c : Setting) (mark : Mark) (tag : String) (_attributes : List Attribute) :
    Prop :=
  mark = .other ∨ mark = .itself ∧ isSlot tag = false ∧
    (c.options.expandNested = true → passesBy tag = true ∨ c.registry.forTag? tag = none)

theorem Setting.NotUsed.notSlot {c : Setting} {mark : Mark} {tag : String}
    {attributes : List Attribute} (unused : c.NotUsed mark tag attributes) :
    NotSlot mark tag attributes :=
  unused.imp_right (And.imp_right And.left)

theorem Setting.Stays.notSlot {c : Setting} {mark : Mark} {tag : String}
    {attributes : List Attribute} (stays : c.Stays mark tag attributes) :
    NotSlot mark tag attributes :=
  stays.imp_right (And.imp_right And.left)

theorem Setting.Stays.notUsed {c : Setting} (nested : c.options.expandNested = true) {mark : Mark}
    {tag : String} {attributes : List Attribute} (stays : c.Stays mark tag attributes) :
    c.NotUsed mark tag attributes :=
  stays.imp_right (And.imp_right (And.imp_right fun kept => kept nested))

theorem inherit_other (nodes : List Marked) : inherit .other nodes = nodes := by
  have same : Marked.inherit .other = id := by
    funext node
    cases node with
    | element mark => cases mark <;> rfl
    | text | comment | doctype => rfl
  rw [inherit, same, List.map_id]

def Task.Whole (c : Setting) : Task → Prop
  | .walk _ _ forest => Every c.NotUsed forest
  | .body _ _ forest => Every c.Stays forest
  | .fill _ _ held forest => Every c.NotUsed held ∧ Every NotSlot forest

theorem Run.whole {c : Setting} {task : Task} {p p' : Progress} {sites : List Site}
    {out : List Marked} (run : Run c task p sites out p') : task.Whole c → Every NotSlot out := by
  induction run with
  | walkNil | fillNil => exact fun _ => Markup.every_nil
  | walkLeaf leaf _ ih | fillLeaf leaf _ ih =>
    simp only [Task.Whole, Markup.every_leaf_cons leaf] at ih ⊢
    exact ih
  | passBy _ _ ih =>
    simp only [Task.Whole, Markup.every_element_cons] at ih ⊢
    rintro ⟨here, inside, after⟩
    exact ⟨here.notSlot, inside.imp fun _ _ _ => Setting.NotUsed.notSlot, ih after⟩
  | site plain found _ _ _ _ inner fill more =>
    simp only [Task.Whole, Markup.every_element_cons, Markup.every_append] at inner fill more ⊢
    -- A usage site is none of the elements that are followed, so nothing gets a mark from it.
    rintro ⟨rfl | ⟨-, -, raw | missing⟩, held, after⟩
    · have body := inner (Markup.every_unmarked.2 fun _ _ => .inl rfl)
      rw [inherit_other]
      exact ⟨fill ⟨held, body⟩, more after⟩
    · simp [raw] at plain
    · simp [found] at missing
  | drop _ _ _ _ ih =>
    simp only [Task.Whole, Markup.every_element_cons] at ih ⊢
    rintro ⟨-, -, after⟩
    exact ih after
  | keep _ _ _ _ _ inside more =>
    simp only [Task.Whole, Markup.every_element_cons] at inside more ⊢
    rintro ⟨here, within, after⟩
    exact ⟨here.notSlot, inside within, more after⟩
  | flat =>
    intro stays
    exact Every.imp (fun _ _ _ => Setting.Stays.notSlot) stays
  | nest nested _ _ ih =>
    intro stays
    exact ih (Every.imp (fun _ _ _ => Setting.Stays.notUsed nested) stays)
  | fillSlot slot _ _ supply more =>
    simp only [Task.Whole, Markup.every_element_cons, Markup.every_append] at supply more ⊢
    rintro ⟨held, rfl | ⟨-, other⟩, -, after⟩
    · rw [inherit_other]
      exact ⟨supply held, more ⟨held, after⟩⟩
    · simp [slot] at other
  | fillElement _ _ _ within more =>
    simp only [Task.Whole, Markup.every_element_cons] at within more ⊢
    rintro ⟨held, here, inside, after⟩
    exact ⟨here, within ⟨held, inside⟩, more ⟨held, after⟩⟩

/-! ## Elements that are replaced -/

/-- The claim of a directive on what came out: whatever is or replaces a followed element is
hidden. -/
def ShownHidden (mark : Mark) (_tag : String) (attributes : List Attribute) : Prop :=
  mark ≠ .other → isHidden attributes = true

def HeirHidden (mark : Mark) (_tag : String) (attributes : List Attribute) : Prop :=
  mark = .heir → isHidden attributes = true

def topHidden (filling : Option Bool) : Node → Bool
  | .element tag attributes _ =>
    if isSlot tag then filling.getD (isHidden attributes) else isHidden attributes
  | _ => true

mutual

/-- Whether the outermost elements of what a node is expanded to are hidden, when bodies are left as
they are. -/
def Setting.nodeHidden (c : Setting) : Node → Bool
  | .element tag attributes children =>
    if passesBy tag then isHidden attributes
    else
      match c.registry.forTag? tag with
      | some d =>
        (Template.instantiate d.body (.ofAttributes attributes)).all
          (topHidden (some (c.allHidden children)))
      | none => c.drops tag || isHidden attributes
  | _ => true

def Setting.allHidden (c : Setting) : List Node → Bool
  | [] => true
  | node :: rest => c.nodeHidden node && c.allHidden rest

end

mutual

def markedSlotsOf : Marked → List Mark
  | .element mark tag _ children => if isSlot tag then [mark] else markedSlots children
  | _ => []

def markedSlots : List Marked → List Mark
  | [] => []
  | node :: rest => markedSlotsOf node ++ markedSlots rest

end

def Task.topsHidden (c : Setting) : Task → Bool
  | .walk _ _ forest => c.allHidden (erase forest)
  | .body _ _ forest => (erase forest).all (topHidden none)
  | .fill _ _ held forest => (erase forest).all (topHidden (some (c.allHidden (erase held))))

@[simp] theorem all_topHidden_mark (i : Instance) (filling : Option Bool) : (nodes : List Node) →
    (i.mark nodes).all (topHidden filling) = nodes.all (topHidden filling)
  | [] => rfl
  | .element .. :: rest => by simp [topHidden]
  | .text _ :: rest | .comment _ :: rest | .doctype .. :: rest => by
    simp [all_topHidden_mark i filling rest]

theorem Run.of_flat {c : Setting} (flat : c.options.expandNested = false) {depth : Nat}
    {covered : Bool} {forest out : List Marked} {p p' : Progress} {sites : List Site}
    (run : Run c (.body depth covered forest) p sites out p') : out = forest := by
  cases run with
  | flat => rfl
  | nest nested => simp [flat] at nested

theorem Run.topsHidden {c : Setting} (flat : c.options.expandNested = false) {task : Task}
    {p p' : Progress} {sites : List Site} {out : List Marked} (run : Run c task p sites out p') :
    (erase out).all (topHidden none) = task.topsHidden c := by
  induction run with
  | walkNil | fillNil => rfl
  | @walkLeaf _ _ _ node _ _ _ _ leaf _ ih | @fillLeaf _ _ _ _ node _ _ _ _ leaf _ ih =>
    cases node with
    | element => cases leaf
    | text | comment | doctype =>
      simpa [Task.topsHidden, erase, Marked.erase, topHidden, Setting.allHidden,
        Setting.nodeHidden] using ih
  | passBy raw _ ih =>
    simp only [Task.topsHidden] at ih ⊢
    simp [erase, Marked.erase, topHidden, Setting.allHidden, Setting.nodeHidden, raw, ih]
  | site plain found _ inner _ _ _ fill more =>
    obtain rfl := inner.of_flat flat
    simp only [Task.topsHidden, erase_unmarked, all_topHidden_mark] at fill more ⊢
    simp [erase, Marked.erase, Setting.allHidden, Setting.nodeHidden, plain, found, fill, more]
  | drop plain missing dropped _ ih =>
    simp only [Task.topsHidden] at ih ⊢
    simp [erase, Marked.erase, Setting.allHidden, Setting.nodeHidden, plain, missing, dropped, ih]
  | keep plain missing kept _ _ _ more =>
    simp only [Task.topsHidden] at more ⊢
    simp [erase, Marked.erase, topHidden, Setting.allHidden, Setting.nodeHidden, plain, missing,
      kept, more]
  | flat => rfl
  | nest nested => simp [flat] at nested
  | fillSlot slot _ _ supply more =>
    simp only [Task.topsHidden] at supply more ⊢
    simp [erase, Marked.erase, topHidden, slot, supply, more]
  | fillElement other _ _ _ more =>
    simp only [Task.topsHidden] at more ⊢
    simp [erase, Marked.erase, topHidden, other, more]

theorem every_shownHidden_inherit {replaced : Mark} (followed : replaced ≠ .other)
    (nodes : List Marked) (others : Every (fun mark _ _ => mark = .other) nodes) :
    Every ShownHidden (inherit replaced nodes) ↔ (erase nodes).all (topHidden none) = true := by
  induction nodes with
  | nil => simp [inherit, erase]
  | cons node rest ih =>
    rw [inherit] at ih
    cases node with
    | element mark tag attributes children =>
      obtain ⟨rfl, inside, after⟩ := Markup.every_element_cons.1 others
      have heir : Mark.inherit .other replaced ≠ .other := by
        cases replaced with
        | other => exact absurd rfl followed
        | itself | heir => simp [Mark.inherit]
      have below : Every ShownHidden children :=
        inside.imp fun _ _ _ other followed => absurd other followed
      simp [inherit, Marked.inherit, erase, Marked.erase, topHidden, ShownHidden, heir, below,
        ih after]
    | text | comment | doctype =>
      have after : Every (fun mark _ _ => mark = .other) rest := by simpa using others
      simpa [inherit, Marked.inherit, erase, Marked.erase, topHidden] using ih after

theorem Run.others {c : Setting} {depth : Nat} {covered : Bool} {forest out : List Marked}
    {p p' : Progress} {sites : List Site} (run : Run c (.walk depth covered forest) p sites out p')
    (others : Every (fun mark _ _ => mark = .other) forest) :
    Every (fun mark _ _ => mark = .other) out := by
  have whole := run.whole (others.imp fun _ _ _ => .inl)
  have starts : Every (fun mark _ _ => mark ≠ .itself) forest :=
    others.imp fun _ _ _ other => by simp [other]
  have fresh : Every (fun mark _ _ => mark ≠ .itself) out := by
    refine run.every (fun _ _ _ _ _ => nofun) ?_ starts
    intro replaced mark _ _ own
    cases mark with
    | itself => exact absurd rfl own
    | heir => nofun
    | other => cases replaced <;> nofun
  exact (whole.and fresh).imp fun _ _ _ holds => holds.1.resolve_right fun own => holds.2 own.1

def Task.Fills (c : Setting) (out : List Marked) : Task → Prop
  | .fill _ _ held forest =>
    Every (fun mark _ _ => mark = .other) held → Every FollowedHidden forest →
      (Every ShownHidden out ↔
        (∀ mark ∈ markedSlots forest, mark = .other) ∨ c.allHidden (erase held) = true)
  | _ => True

theorem Run.fill_hides {c : Setting} (flat : c.options.expandNested = false) {task : Task}
    {p p' : Progress} {sites : List Site} {out : List Marked} (run : Run c task p sites out p') :
    task.Fills c out := by
  induction run with
  | walkNil | walkLeaf | passBy | site | drop | keep | flat | nest => trivial
  | fillNil => exact fun _ _ => by simp [markedSlots]
  | @fillLeaf _ _ _ _ node _ _ _ _ leaf _ ih =>
    intro others followed
    have ih := ih others ((Markup.every_leaf_cons leaf).1 followed)
    rw [Markup.every_leaf_cons leaf, ih]
    cases node with
    | element => cases leaf
    | text | comment | doctype => simp [markedSlots, markedSlotsOf]
  | @fillSlot _ _ _ _ mark _ _ _ _ _ _ _ _ _ _ slot supply _ _ more =>
    intro others followed
    have ih := more others (Markup.every_element_cons.1 followed).2.2
    have supplied := supply.others others
    have tops := supply.topsHidden flat
    simp only [Task.topsHidden] at tops
    rw [Markup.every_append, ih]
    simp only [markedSlots, markedSlotsOf, slot, if_true, List.singleton_append,
      List.forall_mem_cons]
    by_cases other : mark = .other
    · subst other
      rw [inherit_other]
      have below : Every ShownHidden _ :=
        supplied.imp fun _ _ _ other followed => absurd other followed
      simp [below]
    · rw [every_shownHidden_inherit other _ supplied, tops]
      simp only [other, false_and, false_or]
      constructor
      · exact And.left
      · exact fun hidden => ⟨hidden, .inr hidden⟩
  | @fillElement _ _ _ _ mark tag attributes _ _ _ _ _ _ _ _ other _ _ within more =>
    intro others followed
    obtain ⟨here, inside, after⟩ := Markup.every_element_cons.1 followed
    have shown : ShownHidden mark tag attributes := fun isFollowed =>
      (here.resolve_left isFollowed).2
    have slots : ∀ children rest, markedSlots (.element mark tag attributes children :: rest) =
        markedSlots children ++ markedSlots rest := by
      simp [markedSlots, markedSlotsOf, other]
    rw [Markup.every_element_cons, and_iff_right shown, within others inside, more others after,
      slots, List.forall_mem_append, and_or_right]

/-! ## What replaces a usage site -/

section Replaces

variable {c : Setting} {depth : Nat} {p p' : Progress} {tag : String}
  {attributes : List Attribute} {children : List Node} {d : Definition} {parsed final : List Marked}

theorem followedHidden_marked (i : Instance) {context : Context}
    (reads : erase parsed = Markup.parseFragment d.body)
    (failing : Every (Failing context) parsed) :
    Every FollowedHidden (i.markFollowed (evaluate context parsed)) := by
  refine i.every_markFollowed (fun mark tag attributes hidden => ?_) _
    (Template.evaluate_hidden reads failing)
  rw [FollowedHidden, isHidden_markAttributes]
  exact hidden

theorem Setting.Replaces.itselfHidden
    (replaces : c.Replaces depth p tag attributes children d parsed final p')
    (reads : erase parsed = Markup.parseFragment d.body)
    (failing : Every (Failing (.ofAttributes attributes)) parsed) :
    Every ItselfHidden final := by
  obtain ⟨record, _, _, _, _, _, -, inner, fill⟩ := replaces
  refine fill.hidden ⟨Markup.every_unmarked.2 fun _ _ => nofun, inner.hidden ?_⟩
  refine (followedHidden_marked record reads failing).imp ?_
  rintro mark _ _ (other | hidden) itself
  · cases other.symm.trans itself
  · exact hidden.2

theorem Setting.Replaces.shownHidden_iff
    (replaces : c.Replaces depth p tag attributes children d parsed final p')
    (reads : erase parsed = Markup.parseFragment d.body)
    (failing : Every (Failing (.ofAttributes attributes)) parsed) :
    Every ShownHidden final ↔ Every HeirHidden final := by
  constructor
  · exact fun shown => shown.imp fun _ _ _ hidden heir => hidden (by simp [heir])
  · intro heirs
    refine (heirs.and (replaces.itselfHidden reads failing)).imp ?_
    rintro mark _ _ ⟨heir, itself⟩ followed
    cases mark with
    | other => exact absurd rfl followed
    | itself => exact itself rfl
    | heir => exact heir rfl

theorem Setting.Replaces.shownHidden_of_stays
    (replaces : c.Replaces depth p tag attributes children d parsed final p')
    (reads : erase parsed = Markup.parseFragment d.body)
    (failing : Every (Failing (.ofAttributes attributes)) parsed) (stays : Every c.Stays parsed) :
    Every ShownHidden final := by
  have itself := replaces.itselfHidden reads failing
  obtain ⟨record, _, _, _, _, _, -, inner, fill⟩ := replaces
  have evaluated : Every c.Stays (evaluate (.ofAttributes attributes) parsed) :=
    Template.every_evaluate (fun _ _ _ => id) (fun _ _ _ => id) stays
  have whole : Every NotSlot final :=
    fill.whole ⟨Markup.every_unmarked.2 fun _ _ => .inl rfl,
      inner.whole (record.every_markFollowed (fun _ _ _ => id) _ evaluated)⟩
  refine (whole.and itself).imp ?_
  rintro mark _ _ ⟨notSlot, hidden⟩ followed
  exact hidden (notSlot.resolve_left followed).1

theorem markedSlots_markFollowed (i : Instance) : (nodes : List Marked) →
    markedSlots (i.markFollowed nodes) = markedSlots nodes
  | [] => rfl
  | .element .. :: _ => by simp [Instance.markFollowed, markedSlots, markedSlotsOf]
  | .text _ :: rest | .comment _ :: rest | .doctype .. :: rest => by
    simp [Instance.markFollowed, markedSlots, markedSlots_markFollowed i rest]

theorem Setting.Replaces.shownHidden_iff_of_flat
    (replaces : c.Replaces depth p tag attributes children d parsed final p')
    (reads : erase parsed = Markup.parseFragment d.body)
    (failing : Every (Failing (.ofAttributes attributes)) parsed)
    (flat : c.options.expandNested = false) :
    Every ShownHidden final ↔
      (∀ mark ∈ markedSlots (evaluate (.ofAttributes attributes) parsed), mark = .other) ∨
        c.allHidden children = true := by
  obtain ⟨record, _, _, _, _, _, -, inner, fill⟩ := replaces
  obtain rfl := inner.of_flat flat
  rw [fill.fill_hides flat (Markup.every_unmarked.2 fun _ _ => rfl)
    (followedHidden_marked record reads failing), markedSlots_markFollowed, erase_unmarked]

/-- A followed element with an `if` that does not hold is hidden as long as it is not replaced;
what replaces it is hidden only on its own account. -/
theorem walkNode_hides {out : List Node} (plain : Setting.passesBy tag = false)
    (found : c.registry.forTag? tag = some d)
    (reads : erase parsed = Markup.parseFragment d.body)
    (failing : Every (Failing (.ofAttributes attributes)) parsed)
    (done : walkNode c (c.onBodiesAt depth) (.element tag attributes children) p = .ok (out, p')) :
    ∃ final, c.Replaces depth p tag attributes children d parsed final p' ∧ erase final = out ∧
      (∀ other p'', c.Replaces depth p tag attributes children d parsed other p'' →
        other = final) ∧
      (Every ShownHidden final ↔ Every HeirHidden final) ∧
      (Every c.Stays parsed → Every ShownHidden final) ∧
      (c.options.expandNested = false → (Every ShownHidden final ↔
        (∀ mark ∈ markedSlots (evaluate (.ofAttributes attributes) parsed), mark = .other) ∨
          c.allHidden children = true)) := by
  obtain ⟨final, replaces, erased⟩ := exists_replaces plain found reads done
  exact ⟨final, replaces, erased, fun other p'' again => replaces.unique again,
    replaces.shownHidden_iff reads failing, replaces.shownHidden_of_stays reads failing,
    replaces.shownHidden_iff_of_flat reads failing⟩

end Replaces

def panel (body : String) : Definition :=
  ⟨"panel", body, none, none, none⟩

def panels (body : String) : Setting :=
  ⟨.ofList "js" [panel body], {}⟩

def panelInUse : Node :=
  .element "panel" [] [.element "b" [] []]

def titledBody : String :=
  "<p if=\"\x7bshow\x7d\"></p><slot></slot>"

def titledFollowed : List Marked :=
  [.element .itself "p" [⟨"if", "\x7bshow\x7d"⟩] [], .element .other "slot" [] []]

theorem walkNode_hides_paragraph : ∃ final p',
    (panels titledBody).Replaces 0 {} "panel" [] [.element "b" [] []] (panel titledBody)
      titledFollowed final p' ∧
    Markup.render (erase final) = "<p style=\"display: none;\"></p><b></b>" ∧
    Every ShownHidden final := by
  have value : (walkNode (panels titledBody) ((panels titledBody).onBodiesAt 0) panelInUse
      {}).toOption.map (fun r => Markup.render r.1) =
        some "<p style=\"display: none;\"></p><b></b>" := by
    decide +kernel
  have plain : Setting.passesBy "panel" = false := by
    decide +kernel
  have failing : Every (Failing (.ofAttributes [])) titledFollowed := by
    simp only [titledFollowed, Markup.every_element_cons, Markup.every_nil, and_true]
    exact ⟨.inr ⟨rfl, by decide +kernel⟩, trivial, .inl rfl⟩
  have stays : Every (panels titledBody).Stays titledFollowed := by
    simp only [titledFollowed, Markup.every_element_cons, Markup.every_nil, and_true]
    exact ⟨.inr ⟨rfl, by decide +kernel, fun nested => by cases nested⟩, trivial, .inl rfl⟩
  obtain ⟨⟨out, p'⟩, done, rendered⟩ := exists_ok value
  obtain ⟨final, replaces, rfl, -, -, hidden, -⟩ :=
    walkNode_hides (d := panel titledBody) plain rfl rfl failing done
  exact ⟨final, p', replaces, rendered, hidden stays⟩

def openBody : String :=
  "<slot if=\"\x7bshow\x7d\"></slot>"

def openFollowed : List Marked :=
  [.element .itself "slot" [⟨"if", "\x7bshow\x7d"⟩] []]

/-- A slot is replaced, so what it is replaced by may be visible. -/
theorem exists_not_shownHidden : ¬∀ (c : Setting) (depth : Nat) (p p' : Progress) (tag : String)
    (attributes : List Attribute) (children : List Node) (d : Definition)
    (parsed final : List Marked), Setting.passesBy tag = false →
    c.registry.forTag? tag = some d → erase parsed = Markup.parseFragment d.body →
    Every (Failing (.ofAttributes attributes)) parsed →
    c.Replaces depth p tag attributes children d parsed final p' → Every ShownHidden final := by
  intro always
  have plain : Setting.passesBy "panel" = false := by
    decide +kernel
  have found : (panels openBody).registry.forTag? "panel" = some (panel openBody) := rfl
  have reads : erase openFollowed = Markup.parseFragment (panel openBody).body := rfl
  have failing : Every (Failing (.ofAttributes [])) openFollowed := by
    simp only [openFollowed, Markup.every_element_cons, Markup.every_nil, and_true]
    exact .inr ⟨rfl, by decide +kernel⟩
  have value : (walkNode (panels openBody) ((panels openBody).onBodiesAt 0) panelInUse
      {}).toOption.map (fun r => Markup.render r.1) = some "<b></b>" := by
    decide +kernel
  have visible : (panels openBody).allHidden [.element "b" [] []] = false := by
    decide +kernel
  have slot : .itself ∈ markedSlots (evaluate (.ofAttributes []) openFollowed) := by
    decide +kernel
  obtain ⟨⟨out, p'⟩, done, -⟩ := exists_ok value
  obtain ⟨final, replaces, -⟩ := exists_replaces plain found reads done
  have hidden := always _ _ _ _ _ _ _ _ _ _ plain found reads failing replaces
  rcases (replaces.shownHidden_iff_of_flat reads failing rfl).1 hidden with others | hidden
  · cases others _ slot
  · cases visible.symm.trans hidden

end ComponentCompiler.Component
