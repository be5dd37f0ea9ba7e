import ComponentCompiler.Proofs.Component.Derivation
import ComponentCompiler.Proofs.Component.Marking

/-!
# Which markers survive

A usage site marks the root of its body before the usage sites and the slots of that body are
replaced, so the root may still be replaced or dropped, and the whole usage site may stand in a slot
whose content is replaced later.

* `Run.covered`: in a slot that is replaced later every usage site is covered.
* `Run.count`: elements that come out of a walk were there before or are surviving roots, step by
  step (`counts_passBy`, `counts_site` and so on).
-/

namespace ComponentCompiler.Component

open Markup (Attribute Everywhere Mark Marked Node erase erase_append erase_inherit
  erase_unmarked inherit isSlot outside unmarked)

/-! ## Survival -/

def Setting.leaves (c : Setting) (tag : String) : Bool :=
  Setting.passesBy tag || ((c.registry.forTag? tag).isNone && !c.drops tag)

section Leaves

variable {c : Setting} {tag : String}

theorem leaves_of_passesBy (raw : Setting.passesBy tag = true) : c.leaves tag = true := by
  simp [Setting.leaves, raw]

theorem leaves_of_found {d : Definition} (plain : Setting.passesBy tag = false)
    (found : c.registry.forTag? tag = some d) : c.leaves tag = false := by
  simp [Setting.leaves, plain, found]

theorem leaves_of_dropped (plain : Setting.passesBy tag = false) (dropped : c.drops tag = true) :
    c.leaves tag = false := by
  simp [Setting.leaves, plain, dropped]

theorem leaves_of_kept (missing : c.registry.forTag? tag = none) (kept : c.drops tag = false) :
    c.leaves tag = true := by
  simp [Setting.leaves, missing, kept]

end Leaves

/-- Whether an outermost element of a forest that lies in `depth` bodies comes out of the walk and
is not replaced later. -/
def Setting.lasts (c : Setting) (depth : Nat) (tag : String) : Bool :=
  !covers depth tag && c.leaves tag

def Setting.spares (c : Setting) (tag : String) : Bool :=
  !isSlot tag && (!c.options.expandNested || c.leaves tag)

def Site.survives (c : Setting) (s : Site) : Bool :=
  !s.covered && (s.root?.map fun root => c.spares root.tag).getD false

def Site.marked? (s : Site) : Option (List Attribute) :=
  s.root?.map fun root => s.record.markAttributes root.attributes

/-! ## Counting elements -/

section Counting

variable (q : List Attribute → Bool)

def shown (p : String → Bool) (nodes : List Node) : Nat :=
  (outside p nodes).countP fun e => q e.attributes

def isTop (r : String → Bool) : Node → Bool
  | .element tag attributes _ => r tag && q attributes
  | _ => false

def tops (r : String → Bool) (nodes : List Node) : Nat :=
  nodes.countP (isTop q r)

abbrev Absent (nodes : List Node) : Prop :=
  Everywhere (fun _ attributes => q attributes = false) nodes

def Shallow (nodes : List Node) : Prop :=
  ∀ tag attributes children, .element tag attributes children ∈ nodes → Absent q children

variable {q} {p r : String → Bool}

@[simp] theorem shown_nil : shown q p [] = 0 :=
  rfl

@[simp] theorem shown_append (xs ys : List Node) :
    shown q p (xs ++ ys) = shown q p xs + shown q p ys := by
  simp [shown]

@[simp] theorem tops_nil : tops q r [] = 0 :=
  rfl

theorem shown_element_cons (tag : String) (attributes : List Attribute)
    (children rest : List Node) :
    shown q p (.element tag attributes children :: rest) =
      (if p tag then 0 else (q attributes).toNat + shown q p children) + shown q p rest := by
  cases cut : p tag with
  | true => simp [shown, outside, Markup.Node.outside, cut]
  | false =>
    cases kind : q attributes with
    | true =>
      simp [shown, outside, Markup.Node.outside, cut, kind]
      omega
    | false => simp [shown, outside, Markup.Node.outside, cut, kind]

theorem shown_leaf_cons {node : Marked} (leaf : node.isElement = false) (rest : List Node) :
    shown q p (node.erase :: rest) = shown q p rest := by
  cases node with
  | element => cases leaf
  | text | comment | doctype => rfl

theorem tops_element_cons (tag : String) (attributes : List Attribute)
    (children rest : List Node) :
    tops q r (.element tag attributes children :: rest) =
      (r tag && q attributes).toNat + tops q r rest := by
  cases counted : (r tag && q attributes) <;>
    simp [tops, isTop, counted, Nat.add_comm]

theorem tops_leaf_cons {node : Marked} (leaf : node.isElement = false) (rest : List Node) :
    tops q r (node.erase :: rest) = tops q r rest := by
  cases node with
  | element => cases leaf
  | text | comment | doctype => rfl

theorem shallow_element_cons {tag : String} {attributes : List Attribute}
    {children rest : List Node} :
    Shallow q (.element tag attributes children :: rest) ↔ Absent q children ∧ Shallow q rest := by
  simp only [Shallow, List.mem_cons]
  constructor
  · intro shallow
    exact ⟨shallow _ _ _ (.inl rfl), fun _ _ _ member => shallow _ _ _ (.inr member)⟩
  · rintro ⟨here, after⟩ _ _ _ (same | member)
    · cases same
      exact here
    · exact after _ _ _ member

theorem shallow_leaf_cons {node : Marked} (leaf : node.isElement = false) {rest : List Node} :
    Shallow q (node.erase :: rest) ↔ Shallow q rest := by
  cases node with
  | element => cases leaf
  | text | comment | doctype => simp [Shallow, Marked.erase]

theorem Absent.shallow : {nodes : List Node} → Absent q nodes → Shallow q nodes
  | [], _ => by simp [Shallow]
  | .element .. :: rest, absent => by
    obtain ⟨-, inside, after⟩ := Markup.everywhere_element_cons.1 absent
    exact shallow_element_cons.2 ⟨inside, Absent.shallow after⟩
  | .text _ :: rest, absent | .comment _ :: rest, absent | .doctype .. :: rest, absent => by
    have after : Shallow q rest := Absent.shallow (by simpa using absent)
    simpa [Shallow] using after

mutual

theorem Absent.shownNode : (node : Node) → Absent q [node] → shown q p [node] = 0
  | .element tag attributes children, absent => by
    obtain ⟨here, inside, -⟩ := Markup.everywhere_element_cons.1 absent
    rw [shown_element_cons, Absent.shown children inside, here]
    simp
  | .text _, _ | .comment _, _ | .doctype .., _ => rfl

theorem Absent.shown : (nodes : List Node) → Absent q nodes → shown q p nodes = 0
  | [], _ => rfl
  | node :: rest, absent => by
    obtain ⟨first, after⟩ := (@Markup.everywhere_append _ [node] rest).1 absent
    rw [← List.singleton_append, shown_append, Absent.shownNode node first,
      Absent.shown rest after]

end

theorem Absent.tops : {nodes : List Node} → Absent q nodes → tops q r nodes = 0
  | [], _ => rfl
  | .element .. :: rest, absent => by
    obtain ⟨here, -, after⟩ := Markup.everywhere_element_cons.1 absent
    rw [tops_element_cons, Absent.tops after, here]
    simp
  | .text _ :: rest, absent | .comment _ :: rest, absent | .doctype .. :: rest, absent => by
    have after : Component.tops q r rest = 0 := Absent.tops (by simpa using absent)
    simpa [Component.tops, isTop] using after

end Counting

/-! ## Walks in slots -/

def Task.covered : Task → Bool
  | .walk _ covered _ | .body _ covered _ | .fill _ covered _ _ => covered

theorem Run.covered {c : Setting} {task : Task} {p p' : Progress} {sites : List Site}
    {out : List Marked} (run : Run c task p sites out p') :
    task.covered = true → ∀ s ∈ sites, s.covered = true := by
  induction run with
  | walkNil | flat | fillNil => simp
  | walkLeaf _ _ ih | passBy _ _ ih | drop _ _ _ _ ih | nest _ _ _ ih | fillLeaf _ _ ih => exact ih
  | site _ _ _ _ _ _ inner fill more =>
    intro covered s member
    rcases List.mem_cons.1 member with rfl | later
    · exact covered
    · rcases List.mem_append.1 later with early | last
      · rcases List.mem_append.1 early with first | second
        · exact inner covered s first
        · exact fill covered s second
      · exact more covered s last
  | keep _ _ _ _ _ inside more =>
    intro covered s member
    rcases List.mem_append.1 member with first | second
    · exact inside (by simp_all [Task.covered]) s first
    · exact more covered s second
  | fillSlot _ _ _ first second | fillElement _ _ _ first second =>
    intro covered s member
    rcases List.mem_append.1 member with here | there
    · exact first covered s here
    · exact second covered s there

/-! ## Counting along a walk -/

/-- A number is at least the one expected, and no more than that where nothing else is to be
counted. -/
structure Tally (total expected : Nat) (clean : Prop) : Prop where
  le : expected ≤ total
  eq : clean → total = expected

namespace Tally

variable {m n k l : Nat} {P Q : Prop}

theorem refl : Tally n n P :=
  ⟨Nat.le_refl n, fun _ => rfl⟩

theorem trans (first : Tally m n P) (second : Tally n k Q) : Tally m k (P ∧ Q) :=
  ⟨Nat.le_trans second.le first.le, fun ⟨one, two⟩ => (first.eq one).trans (second.eq two)⟩

theorem add (first : Tally m k P) (second : Tally n l Q) : Tally (m + n) (k + l) (P ∧ Q) :=
  ⟨Nat.add_le_add first.le second.le, fun ⟨one, two⟩ => by rw [first.eq one, second.eq two]⟩

theorem add_right (tally : Tally n k P) (m : Nat) : Tally (n + m) (k + m) P :=
  ⟨Nat.add_le_add_right tally.le m, fun clean => by rw [tally.eq clean]⟩

theorem imp (tally : Tally n k P) (clean : Q → P) : Tally n k Q :=
  ⟨tally.le, fun holds => tally.eq (clean holds)⟩

end Tally

def Task.cut : Task → String → Bool
  | .walk depth _ _ | .fill depth _ _ _ => Setting.covers depth
  | .body .. => isSlot

section Count

variable (c : Setting) (q : List Attribute → Bool)

/-- How many elements are there to begin with that will come out: of a forest that is walked, the
outermost ones that stay; of a body that is filled, all that stand in no slot. -/
def Task.lasting : Task → Nat
  | .walk depth _ forest => tops q (c.lasts depth) (erase forest)
  | .body _ _ forest => tops q c.spares (erase forest)
  | .fill _ _ _ forest => shown q isSlot (erase forest)

def Task.Clean : Task → Prop
  | .walk _ _ forest | .body _ _ forest => Shallow q (erase forest)
  | .fill _ _ held _ => Absent q (erase held)

def Site.counts (s : Site) : Bool :=
  s.survives c && (s.marked?.map q).getD false

variable {c q}

theorem Site.counts_of_uncovered {s : Site} (uncovered : s.covered = false) :
    s.counts c q = (s.root?.map fun root =>
      c.spares root.tag && q (s.record.markAttributes root.attributes)).getD false := by
  cases root : s.root? <;> simp [Site.counts, Site.survives, Site.marked?, uncovered, root]

theorem Site.counts_of_covered {s : Site} (covered : s.covered = true) : s.counts c q = false := by
  simp [Site.counts, Site.survives, covered]

theorem tally_mark (i : Instance) : (nodes : List Node) →
    Tally (tops q c.spares (i.mark nodes)) (((Markup.firstRoot? nodes).map fun root =>
      c.spares root.tag && q (i.markAttributes root.attributes)).getD false).toNat (Absent q nodes)
  | [] => .refl
  | .element tag attributes children :: rest => by
    rw [i.mark_element_cons, tops_element_cons]
    have after : Tally (tops q c.spares rest) 0 (Absent q rest) := ⟨Nat.zero_le _, Absent.tops⟩
    exact (Tally.refl.add after).imp fun absent =>
      ⟨trivial, (Markup.everywhere_element_cons.1 absent).2.2⟩
  | .text value :: rest | .comment value :: rest | .doctype .. :: rest => by
    have after := tally_mark i rest
    simpa [tops, isTop, Markup.firstRoot?] using after

theorem shallow_mark (i : Instance) : (nodes : List Node) →
    (Shallow q (i.mark nodes) ↔ Shallow q nodes)
  | [] => Iff.rfl
  | .element tag attributes children :: rest => by
    rw [i.mark_element_cons, shallow_element_cons, shallow_element_cons]
  | .text _ :: rest | .comment _ :: rest | .doctype .. :: rest => by
    simpa [Shallow] using shallow_mark i rest

theorem tally_element (p : String → Bool) (tag : String) (attributes : List Attribute)
    (children : List Node) :
    Tally (if p tag then 0 else (q attributes).toNat + shown q p children)
      (!p tag && q attributes).toNat (Absent q children) := by
  cases p tag with
  | true => exact .refl
  | false => exact ⟨Nat.le_add_right _ _, fun absent => by simp [Absent.shown children absent]⟩

theorem tally_spares (flat : c.options.expandNested = false) (nodes : List Marked) :
    Tally (shown q isSlot (erase nodes)) (tops q c.spares (erase nodes))
      (Shallow q (erase nodes)) := by
  induction nodes with
  | nil => exact .refl
  | cons node rest ih =>
    cases kind : node.isElement with
    | false =>
      simp only [erase, shown_leaf_cons kind, tops_leaf_cons kind, shallow_leaf_cons kind]
      exact ih
    | true =>
      obtain ⟨mark, tag, attributes, children, rfl⟩ := Markup.Marked.isElement_iff.1 kind
      have spared : c.spares tag = !isSlot tag := by simp [Setting.spares, flat]
      simp only [erase, Marked.erase, shown_element_cons, tops_element_cons, shallow_element_cons,
        spared]
      exact (tally_element isSlot tag attributes (erase children)).add ih

def Task.Counts (c : Setting) (q : List Attribute → Bool) (task : Task) (sites : List Site)
    (out : List Marked) : Prop :=
  Tally (shown q task.cut (erase out)) (task.lasting c q + sites.countP (Site.counts c q))
    (task.Clean q ∧ ∀ s ∈ sites, Absent q s.body)

section Steps

variable {depth : Nat} {covered : Bool} {mark : Mark} {tag : String}
  {attributes : List Attribute} {children rest held out body filled : List Marked}
  {sites sites₁ sites₂ sites₃ : List Site}

theorem counts_passBy (raw : Setting.passesBy tag = true)
    (more : (Task.walk depth covered rest).Counts c q sites out) :
    (Task.walk depth covered (.element mark tag attributes children :: rest)).Counts c q sites
      (.element mark tag attributes children :: out) := by
  have here := tally_element (q := q) (Setting.covers depth) tag attributes (erase children)
  simp only [Task.Counts, Task.cut, Task.lasting, Task.Clean, erase, Marked.erase,
    shown_element_cons, tops_element_cons, shallow_element_cons, Setting.lasts,
    leaves_of_passesBy raw, Bool.and_true, Nat.add_assoc] at more ⊢
  exact (here.add more).imp fun ⟨⟨inside, after⟩, bodies⟩ => ⟨inside, after, bodies⟩

theorem counts_site {d : Definition} {record : Instance} (plain : Setting.passesBy tag = false)
    (found : c.registry.forTag? tag = some d)
    (inner : (Task.body depth false
      (unmarked (record.mark (Template.instantiate d.body (.ofAttributes attributes))))).Counts c q
        sites₁ body)
    (fill : (Task.fill depth false children body).Counts c q sites₂ filled)
    (more : (Task.walk depth false rest).Counts c q sites₃ out) :
    (Task.walk depth false (.element mark tag attributes children :: rest)).Counts c q
      (⟨tag, attributes, d, depth, false, record⟩ :: (sites₁ ++ sites₂ ++ sites₃))
      (inherit mark filled ++ out) := by
  let site : Site := ⟨tag, attributes, d, depth, false, record⟩
  have root : Tally (tops q c.spares (record.mark site.body)) (site.counts c q).toNat
      (Absent q site.body) := by
    rw [Site.counts_of_uncovered rfl]
    exact tally_mark record site.body
  simp only [Task.Counts, Task.cut, Task.lasting, Task.Clean, erase, Marked.erase, erase_unmarked,
    erase_append, erase_inherit, shown_append, tops_element_cons, shallow_element_cons,
    Setting.lasts, leaves_of_found plain found, List.countP_cons, List.countP_append]
    at inner fill more ⊢
  -- The body makes up for its root, what the slots are filled with for the body.
  have evaluated := inner.trans (root.add_right (sites₁.countP (Site.counts c q)))
  have projected := fill.trans (evaluated.add_right (sites₂.countP (Site.counts c q)))
  have counted : (site.counts c q).toNat = if site.counts c q = true then 1 else 0 := by
    cases site.counts c q <;> rfl
  rw [Bool.and_false, Bool.false_and, Bool.toNat_false, ← counted]
  constructor
  · have := (projected.add more).le
    omega
  · rintro ⟨⟨inside, after⟩, bodies⟩
    simp only [List.mem_cons, List.mem_append] at bodies
    have absent : Absent q site.body := bodies site (.inl rfl)
    have shallow := (shallow_mark record site.body).2 absent.shallow
    have first := evaluated.eq ⟨⟨shallow, fun s member =>
      bodies s (.inr (.inl (.inl member)))⟩, absent⟩
    have second := fill.eq ⟨inside, fun s member => bodies s (.inr (.inl (.inr member)))⟩
    have third := more.eq ⟨after, fun s member => bodies s (.inr (.inr member))⟩
    omega

theorem counts_drop (plain : Setting.passesBy tag = false) (dropped : c.drops tag = true)
    (more : (Task.walk depth covered rest).Counts c q sites out) :
    (Task.walk depth covered (.element mark tag attributes children :: rest)).Counts c q sites
      out := by
  simp only [Task.Counts, Task.cut, Task.lasting, Task.Clean, erase, Marked.erase,
    tops_element_cons, shallow_element_cons, Setting.lasts, leaves_of_dropped plain dropped,
    Bool.and_false, Bool.false_and, Bool.toNat_false, Nat.zero_add] at more ⊢
  exact more.imp fun ⟨⟨_, after⟩, bodies⟩ => ⟨after, bodies⟩

theorem counts_keep_covered (missing : c.registry.forTag? tag = none) (kept : c.drops tag = false)
    (cover : Setting.covers depth tag = true) (hidden : ∀ s ∈ sites₁, s.covered = true)
    (more : (Task.walk depth covered rest).Counts c q sites₂ out) :
    (Task.walk depth covered (.element mark tag attributes children :: rest)).Counts c q
      (sites₁ ++ sites₂) (.element mark tag attributes held :: out) := by
  have none : sites₁.countP (Site.counts c q) = 0 := by
    rw [List.countP_eq_zero]
    intro s member
    simp [Site.counts_of_covered (hidden s member)]
  simp only [Task.Counts, Task.cut, Task.lasting, Task.Clean, erase, Marked.erase,
    shown_element_cons, tops_element_cons, shallow_element_cons, Setting.lasts,
    leaves_of_kept missing kept, List.countP_append, none, cover, if_true, Bool.not_true,
    Bool.false_and, Bool.toNat_false, Nat.zero_add] at more ⊢
  exact more.imp fun ⟨⟨_, after⟩, bodies⟩ =>
    ⟨after, fun s member => bodies s (List.mem_append_right _ member)⟩

theorem counts_keep (missing : c.registry.forTag? tag = none) (kept : c.drops tag = false)
    (cover : Setting.covers depth tag = false)
    (inside : (Task.walk depth covered children).Counts c q sites₁ held)
    (more : (Task.walk depth covered rest).Counts c q sites₂ out) :
    (Task.walk depth covered (.element mark tag attributes children :: rest)).Counts c q
      (sites₁ ++ sites₂) (.element mark tag attributes held :: out) := by
  simp only [Task.Counts, Task.cut, Task.lasting, Task.Clean, erase, Marked.erase,
    shown_element_cons, tops_element_cons, shallow_element_cons, Setting.lasts,
    leaves_of_kept missing kept, List.countP_append, cover, Bool.not_false, Bool.true_and,
    Bool.false_eq_true, if_false] at inside more ⊢
  refine ⟨?_, ?_⟩
  · have := inside.le
    have := more.le
    omega
  · rintro ⟨⟨absent, after⟩, bodies⟩
    have here := inside.eq ⟨absent.shallow, fun s member => bodies s (List.mem_append_left _ member)⟩
    have there := more.eq ⟨after, fun s member => bodies s (List.mem_append_right _ member)⟩
    have none : tops q (c.lasts depth) (erase children) = 0 := absent.tops
    omega

theorem counts_fillSlot (slot : isSlot tag = true) {supplied : List Marked}
    (supply : (Task.walk depth covered held).Counts c q sites₁ supplied)
    (more : (Task.fill depth covered held rest).Counts c q sites₂ out) :
    (Task.fill depth covered held (.element mark tag attributes children :: rest)).Counts c q
      (sites₁ ++ sites₂) (inherit mark supplied ++ out) := by
  simp only [Task.Counts, Task.cut, Task.lasting, Task.Clean, erase, Marked.erase,
    shown_element_cons, slot, if_true, Nat.zero_add, erase_append, erase_inherit, shown_append,
    List.countP_append] at supply more ⊢
  refine ⟨?_, ?_⟩
  · have := supply.le
    have := more.le
    omega
  · rintro ⟨absent, bodies⟩
    have here := supply.eq ⟨absent.shallow, fun s member => bodies s (List.mem_append_left _ member)⟩
    have there := more.eq ⟨absent, fun s member => bodies s (List.mem_append_right _ member)⟩
    have none : tops q (c.lasts depth) (erase held) = 0 := absent.tops
    omega

theorem counts_fillElement (other : isSlot tag = false) {inside : List Marked}
    (within : (Task.fill depth covered held children).Counts c q sites₁ inside)
    (more : (Task.fill depth covered held rest).Counts c q sites₂ out) :
    (Task.fill depth covered held (.element mark tag attributes children :: rest)).Counts c q
      (sites₁ ++ sites₂) (.element mark tag attributes inside :: out) := by
  have uncut : Setting.covers depth tag = false := by simp [Setting.covers, other]
  simp only [Task.Counts, Task.cut, Task.lasting, Task.Clean, erase, Marked.erase,
    shown_element_cons, other, uncut, Bool.false_eq_true, if_false, List.countP_append]
    at within more ⊢
  refine ⟨?_, ?_⟩
  · have := within.le
    have := more.le
    omega
  · rintro ⟨absent, bodies⟩
    have here := within.eq ⟨absent, fun s member => bodies s (List.mem_append_left _ member)⟩
    have there := more.eq ⟨absent, fun s member => bodies s (List.mem_append_right _ member)⟩
    omega

end Steps

theorem Run.count {task : Task} {p p' : Progress} {sites : List Site} {out : List Marked}
    (run : Run c task p sites out p') : task.covered = false → task.Counts c q sites out := by
  induction run with
  | walkNil | fillNil => exact fun _ => .refl
  | walkLeaf leaf _ ih =>
    simp only [Task.Counts, Task.covered, Task.cut, Task.lasting, Task.Clean, erase,
      shown_leaf_cons leaf, tops_leaf_cons leaf, shallow_leaf_cons leaf] at ih ⊢
    exact ih
  | passBy raw _ ih => exact fun uncovered => counts_passBy raw (ih uncovered)
  | @site _ covered _ _ _ _ _ _ _ _ _ _ _ _ _ _ _ _ _ _ plain found _ _ _ _ inner fill more =>
    intro uncovered
    obtain rfl : covered = false := uncovered
    exact counts_site plain found (inner rfl) (fill rfl) (more rfl)
  | drop plain _ dropped _ ih => exact fun uncovered => counts_drop plain dropped (ih uncovered)
  | @keep depth _ _ _ tag _ _ _ _ _ _ _ _ _ _ missing kept within _ inside more =>
    intro uncovered
    cases cover : Setting.covers depth tag with
    | true =>
      have hidden := within.covered (by simp [Task.covered, cover])
      exact counts_keep_covered missing kept cover hidden (more uncovered)
    | false =>
      rw [cover, Bool.or_false] at inside
      exact counts_keep missing kept cover (inside uncovered) (more uncovered)
  | flat flat => exact fun _ => (tally_spares flat _).imp And.left
  | @nest depth _ _ _ _ _ _ nested _ _ ih =>
    have cut : Setting.covers (depth + 1) = isSlot := by
      funext tag
      simp [Setting.covers]
    have same : c.lasts (depth + 1) = c.spares := by
      funext tag
      simp [Setting.lasts, Setting.spares, cut, nested]
    simp only [Task.Counts, Task.covered, Task.cut, Task.lasting, Task.Clean, cut, same] at ih ⊢
    exact ih
  | fillLeaf leaf _ ih =>
    simp only [Task.Counts, Task.covered, Task.cut, Task.lasting, Task.Clean, erase,
      shown_leaf_cons leaf] at ih ⊢
    exact ih
  | fillSlot slot _ _ supply more =>
    exact fun uncovered => counts_fillSlot slot (supply uncovered) (more uncovered)
  | fillElement other _ _ within more =>
    exact fun uncovered => counts_fillElement other (within uncovered) (more uncovered)

end Count

end ComponentCompiler.Component
