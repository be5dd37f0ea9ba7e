import ComponentCompiler.Component.Expansion
import ComponentCompiler.Proofs.Markup.Marked
import ComponentCompiler.Proofs.Markup.Projection

/-!
# Derivations of a pass

A pass that succeeds is described by a derivation, which names the usage sites in the order in which
they are instantiated and follows marked elements from the forest it starts with to the forest it
ends with.

* `Run.sound` and `exists_run`: the derivations describe exactly the walks that succeed.
* `Run.deterministic`: a walk has no more than one derivation.
* `Run.every`: an element that comes out of a walk went into it or stood in an evaluated body.
* `expand_ok_iff`: so the usage sites of a successful pass are determined, and with them the order
  in which they are instantiated.
-/

namespace ComponentCompiler.Component

open Markup (Attribute Element Every Everywhere Mark Marked Node erase erase_append erase_inherit
  erase_unmarked inherit isSlot unmarked)
open Template (Context)

/-! ## Instantiating one usage site -/

/-- A usage site that was instantiated. It lies in `depth` bodies; it is covered when, inside of
these, it stands in a slot, which a later projection replaces. -/
structure Site where
  tag : String
  attributes : List Attribute
  definition : Definition
  depth : Nat
  covered : Bool
  record : Instance

namespace Site

def context (s : Site) : Context :=
  .ofAttributes s.attributes

def body (s : Site) : List Node :=
  Template.instantiate s.definition.body s.context

def root? (s : Site) : Option Element :=
  Markup.firstRoot? s.body

end Site

def Setting.enrol (c : Setting) (tag : String) (attributes : List Attribute) (d : Definition)
    (p : Progress) : Instance × Progress :=
  let key := c.registry.keyOf tag
  let context := Context.ofAttributes attributes
  let (record, p) :=
    if d.hasStyles || d.isAddressable then
      match Markup.firstRoot? (Template.instantiate d.body context) with
      | some _ => p.identify c.options.transformer tag key d context
      | none => (⟨tag, key, none, none, none⟩, p.warn (.noRoot tag))
    else (⟨tag, key, none, none, none⟩, p)
  (record, { p with instances := p.instances ++ [record] })

theorem instantiate_eq (c : Setting) (tag : String) (attributes : List Attribute) (d : Definition)
    (p : Progress) :
    instantiate c.options.transformer tag (c.registry.keyOf tag) d (.ofAttributes attributes) p =
      ((c.enrol tag attributes d p).1.mark (Template.instantiate d.body (.ofAttributes attributes)),
        (c.enrol tag attributes d p).2) := by
  by_cases marked : (d.hasStyles || d.isAddressable) = true
  · cases root : Markup.firstRoot? (Template.instantiate d.body (.ofAttributes attributes)) <;>
      simp only [instantiate, Setting.enrol, if_pos marked, root]
  · simp only [instantiate, Setting.enrol, if_neg marked]

/-! ## Cases of the walk -/

namespace Setting

def passesBy (tag : String) : Bool :=
  Markup.isRawText tag || Markup.isForeignRoot tag

def isUnknown (tag : String) : Bool :=
  !Markup.isStandard tag

def drops (c : Setting) (tag : String) : Bool :=
  isUnknown tag && c.options.strictUnknown

def noted (c : Setting) (tag : String) (p : Progress) : Progress :=
  if isUnknown tag then p.warn (.unknownComponent tag (c.registry.keyOf tag)) else p

/-- Whether what an element holds, in a forest that lies in `depth` bodies, is replaced later. -/
def covers (depth : Nat) (tag : String) : Bool :=
  decide (0 < depth) && isSlot tag

def onBodiesAt (c : Setting) (depth : Nat) : String → List Node → Pass :=
  if c.options.expandNested then expandBody c (c.options.maxDepth - depth)
  else fun _ nodes p => .ok (nodes, p)

theorem onBodiesAt_zero (c : Setting) : c.onBodiesAt 0 = onBodies c := by
  simp [onBodiesAt, onBodies]

theorem onBodiesAt_flat {c : Setting} (flat : c.options.expandNested = false) (depth : Nat) :
    c.onBodiesAt depth = fun _ nodes p => .ok (nodes, p) := by
  simp [onBodiesAt, flat]

theorem onBodiesAt_of_lt {c : Setting} (nested : c.options.expandNested = true) {depth : Nat}
    (below : depth < c.options.maxDepth) (tag : String) (nodes : List Node) :
    c.onBodiesAt depth tag nodes = walk c (c.onBodiesAt (depth + 1)) nodes := by
  have levels : c.options.maxDepth - depth = c.options.maxDepth - (depth + 1) + 1 := by omega
  simp only [onBodiesAt, nested, if_true]
  rw [levels, expandBody]

theorem onBodiesAt_of_le {c : Setting} (nested : c.options.expandNested = true) {depth : Nat}
    (above : c.options.maxDepth ≤ depth) (tag : String) (nodes : List Node) (p : Progress) :
    c.onBodiesAt depth tag nodes p =
      .error ⟨.expansionDepth tag c.options.maxDepth, p.warnings⟩ := by
  have levels : c.options.maxDepth - depth = 0 := by omega
  simp only [onBodiesAt, nested, if_true]
  rw [levels, expandBody]

end Setting

/-! ## Derivations -/

/-- What a pass has to do: walk a forest that lies in `depth` bodies, go on with the body of a usage
site, or fill the slots of a body with what the usage site held. -/
inductive Task
  | walk (depth : Nat) (covered : Bool) (forest : List Marked)
  | body (depth : Nat) (covered : Bool) (forest : List Marked)
  | fill (depth : Nat) (covered : Bool) (held forest : List Marked)

/-- A derivation: the task, the state before, the usage sites in the order in which they are
instantiated, the forest that comes out, and the state after. -/
inductive Run (c : Setting) : Task → Progress → List Site → List Marked → Progress → Prop
  | walkNil {depth covered p} : Run c (.walk depth covered []) p [] [] p
  | walkLeaf {depth covered p node rest sites out p'} (leaf : node.isElement = false)
      (more : Run c (.walk depth covered rest) p sites out p') :
      Run c (.walk depth covered (node :: rest)) p sites (node :: out) p'
  | passBy {depth covered p mark tag attributes children rest sites out p'}
      (raw : Setting.passesBy tag = true)
      (more : Run c (.walk depth covered rest) p sites out p') :
      Run c (.walk depth covered (.element mark tag attributes children :: rest)) p sites
        (.element mark tag attributes children :: out) p'
  | site {depth covered p mark tag attributes children rest d record p₁ sites₁ body p₂ sites₂ filled
        p₃ sites₃ out p₄}
      (plain : Setting.passesBy tag = false) (found : c.registry.forTag? tag = some d)
      (enrolled : c.enrol tag attributes d p = (record, p₁))
      (inner : Run c (.body depth covered
        (unmarked (record.mark (Template.instantiate d.body (.ofAttributes attributes)))))
        p₁ sites₁ body p₂)
      (fill : Run c (.fill depth covered children body) p₂ sites₂ filled p₃)
      (more : Run c (.walk depth covered rest) p₃ sites₃ out p₄) :
      Run c (.walk depth covered (.element mark tag attributes children :: rest)) p
        (⟨tag, attributes, d, depth, covered, record⟩ :: (sites₁ ++ sites₂ ++ sites₃))
        (inherit mark filled ++ out) p₄
  | drop {depth covered p mark tag attributes children rest sites out p'}
      (plain : Setting.passesBy tag = false) (missing : c.registry.forTag? tag = none)
      (dropped : c.drops tag = true)
      (more : Run c (.walk depth covered rest) (c.noted tag p) sites out p') :
      Run c (.walk depth covered (.element mark tag attributes children :: rest)) p sites out p'
  | keep {depth covered p mark tag attributes children rest sites₁ held p₁ sites₂ out p₂}
      (plain : Setting.passesBy tag = false) (missing : c.registry.forTag? tag = none)
      (kept : c.drops tag = false)
      (inside : Run c (.walk depth (covered || Setting.covers depth tag) children) (c.noted tag p)
        sites₁ held p₁)
      (more : Run c (.walk depth covered rest) p₁ sites₂ out p₂) :
      Run c (.walk depth covered (.element mark tag attributes children :: rest)) p
        (sites₁ ++ sites₂) (.element mark tag attributes held :: out) p₂
  | flat {depth covered p forest} (flat : c.options.expandNested = false) :
      Run c (.body depth covered forest) p [] forest p
  | nest {depth covered p forest sites out p'} (nested : c.options.expandNested = true)
      (below : depth < c.options.maxDepth)
      (inner : Run c (.walk (depth + 1) covered forest) p sites out p') :
      Run c (.body depth covered forest) p sites out p'
  | fillNil {depth covered held p} : Run c (.fill depth covered held []) p [] [] p
  | fillLeaf {depth covered held p node rest sites out p'} (leaf : node.isElement = false)
      (more : Run c (.fill depth covered held rest) p sites out p') :
      Run c (.fill depth covered held (node :: rest)) p sites (node :: out) p'
  | fillSlot {depth covered held p mark tag attributes children rest sites₁ supplied p₁ sites₂ out
        p₂}
      (slot : isSlot tag = true)
      (supply : Run c (.walk depth covered held) p sites₁ supplied p₁)
      (more : Run c (.fill depth covered held rest) p₁ sites₂ out p₂) :
      Run c (.fill depth covered held (.element mark tag attributes children :: rest)) p
        (sites₁ ++ sites₂) (inherit mark supplied ++ out) p₂
  | fillElement {depth covered held p mark tag attributes children rest sites₁ inside p₁ sites₂ out
        p₂}
      (other : isSlot tag = false)
      (within : Run c (.fill depth covered held children) p sites₁ inside p₁)
      (more : Run c (.fill depth covered held rest) p₁ sites₂ out p₂) :
      Run c (.fill depth covered held (.element mark tag attributes children :: rest)) p
        (sites₁ ++ sites₂) (.element mark tag attributes inside :: out) p₂

/-! ## One step of the walk -/

section Steps

variable {c : Setting} {inner : String → List Node → Pass} {p p' : Progress} {tag : String}
  {attributes : List Attribute} {children : List Node}

theorem walkNode_leaf {node : Marked} (leaf : node.isElement = false) :
    walkNode c inner node.erase p = .ok ([node.erase], p) := by
  cases node with
  | element => cases leaf
  | text | comment | doctype => simp [Marked.erase, walkNode]

theorem walkNode_passBy (raw : Setting.passesBy tag = true) :
    walkNode c inner (.element tag attributes children) p =
      .ok ([.element tag attributes children], p) := by
  rw [walkNode]
  exact if_pos raw

theorem walkNode_site {d : Definition} (plain : Setting.passesBy tag = false)
    (found : c.registry.forTag? tag = some d) :
    walkNode c inner (.element tag attributes children) p =
      (inner tag (instantiate c.options.transformer tag (c.registry.keyOf tag) d
          (Context.ofAttributes attributes) p).1
        (instantiate c.options.transformer tag (c.registry.keyOf tag) d
          (Context.ofAttributes attributes) p).2).bind fun r =>
        (Markup.project (walk c inner children) r.2 r.1).outcome := by
  have notRaw : ¬(Markup.isRawText tag || Markup.isForeignRoot tag) = true :=
    ne_true_of_eq_false plain
  rw [walkNode, if_neg notRaw]
  simp only [found]
  cases inner tag (instantiate c.options.transformer tag (c.registry.keyOf tag) d
      (Context.ofAttributes attributes) p).1
    (instantiate c.options.transformer tag (c.registry.keyOf tag) d
      (Context.ofAttributes attributes) p).2 with
  | error failure => rfl
  | ok r =>
    simp only [Except.bind, Markup.Projection.outcome]
    cases (Markup.project (walk c inner children) r.2 r.1).failure <;> rfl

theorem walkNode_drop (plain : Setting.passesBy tag = false)
    (missing : c.registry.forTag? tag = none) (dropped : c.drops tag = true) :
    walkNode c inner (.element tag attributes children) p = .ok ([], c.noted tag p) := by
  have notRaw : ¬(Markup.isRawText tag || Markup.isForeignRoot tag) = true :=
    ne_true_of_eq_false plain
  rw [walkNode, if_neg notRaw]
  simp only [missing]
  exact if_pos dropped

theorem walkNode_keep (plain : Setting.passesBy tag = false)
    (missing : c.registry.forTag? tag = none) (kept : c.drops tag = false) :
    walkNode c inner (.element tag attributes children) p =
      (walk c inner children (c.noted tag p)).map fun r =>
        ([.element tag attributes r.1], r.2) := by
  have notRaw : ¬(Markup.isRawText tag || Markup.isForeignRoot tag) = true :=
    ne_true_of_eq_false plain
  have notDropped : ¬(!Markup.isStandard tag && c.options.strictUnknown) = true :=
    ne_true_of_eq_false kept
  rw [walkNode, if_neg notRaw]
  simp only [missing, if_neg notDropped]
  have state : (if !Markup.isStandard tag then
      p.warn (.unknownComponent tag (c.registry.keyOf tag)) else p) = c.noted tag p := rfl
  rw [state]
  cases walk c inner children (c.noted tag p) <;> rfl

theorem walk_cons {node : Node} {rest : List Node} :
    walk c inner (node :: rest) p = (walkNode c inner node p).bind fun r =>
      (walk c inner rest r.2).map fun more => (r.1 ++ more.1, more.2) := by
  rw [walk]
  cases walkNode c inner node p with
  | error failure => rfl
  | ok r =>
    simp only [Except.bind]
    cases walk c inner rest r.2 <;> rfl

theorem walkNode_site_ok {d : Definition} {out : List Node}
    (plain : Setting.passesBy tag = false) (found : c.registry.forTag? tag = some d) :
    walkNode c inner (.element tag attributes children) p = .ok (out, p') ↔
      ∃ body p₂ replaced, inner tag ((c.enrol tag attributes d p).1.mark
          (Template.instantiate d.body (.ofAttributes attributes)))
          (c.enrol tag attributes d p).2 = .ok (body, p₂) ∧
        Markup.project (walk c inner children) p₂ body = ⟨out, replaced, p', none⟩ := by
  rw [walkNode_site plain found, instantiate_eq, bind_eq_ok_iff, Prod.exists]
  simp only [Markup.outcome_eq_ok_iff, exists_and_left]

theorem walkNode_keep_ok {out : List Node} (plain : Setting.passesBy tag = false)
    (missing : c.registry.forTag? tag = none) (kept : c.drops tag = false) :
    walkNode c inner (.element tag attributes children) p = .ok (out, p') ↔
      ∃ held, walk c inner children (c.noted tag p) = .ok (held, p') ∧
        [.element tag attributes held] = out := by
  rw [walkNode_keep plain missing kept, map_eq_ok_iff, Prod.exists]
  simp only [Prod.mk.injEq]
  constructor
  · rintro ⟨held, _, inside, rfl, rfl⟩
    exact ⟨held, inside, rfl⟩
  · rintro ⟨held, inside, rfl⟩
    exact ⟨held, p', inside, rfl, rfl⟩

theorem walk_cons_ok {node : Node} {rest out : List Node} :
    walk c inner (node :: rest) p = .ok (out, p') ↔
      ∃ nodes p₁ more, walkNode c inner node p = .ok (nodes, p₁) ∧
        walk c inner rest p₁ = .ok (more, p') ∧ nodes ++ more = out := by
  rw [walk_cons, bind_eq_ok_iff, Prod.exists]
  simp only [map_eq_ok_iff, Prod.exists, Prod.mk.injEq]
  constructor
  · rintro ⟨nodes, p₁, first, more, _, second, rfl, rfl⟩
    exact ⟨nodes, p₁, more, first, second, rfl⟩
  · rintro ⟨nodes, p₁, more, first, second, rfl⟩
    exact ⟨nodes, p₁, first, more, p', second, rfl, rfl⟩

end Steps

/-! ## Soundness -/

def Setting.Does (c : Setting) (p : Progress) (out : List Marked) (p' : Progress) : Task → Prop
  | .walk depth _ forest =>
    walk c (c.onBodiesAt depth) (erase forest) p = .ok (erase out, p')
  | .body depth _ forest =>
    ∀ tag, c.onBodiesAt depth tag (erase forest) p = .ok (erase out, p')
  | .fill depth _ held forest => ∃ replaced,
    Markup.project (walk c (c.onBodiesAt depth) (erase held)) p (erase forest) =
      ⟨erase out, replaced, p', none⟩

theorem projectNode_leaf {supply : Markup.Supplier Progress Failure} {p : Progress} {node : Marked}
    (leaf : node.isElement = false) :
    Markup.projectNode supply p node.erase = ⟨[node.erase], 0, p, none⟩ := by
  cases node with
  | element => cases leaf
  | text | comment | doctype => simp [Marked.erase, Markup.projectNode]

theorem Run.sound {c : Setting} {task : Task} {p p' : Progress} {sites : List Site}
    {out : List Marked} (run : Run c task p sites out p') : c.Does p out p' task := by
  induction run with
  | walkNil => simp [Setting.Does, erase, walk]
  | walkLeaf leaf _ ih =>
    simp only [Setting.Does, erase, walk_cons_ok] at ih ⊢
    exact ⟨_, _, _, walkNode_leaf leaf, ih, rfl⟩
  | passBy raw _ ih =>
    simp only [Setting.Does, erase, walk_cons_ok] at ih ⊢
    exact ⟨_, _, _, walkNode_passBy raw, ih, rfl⟩
  | @site depth _ p mark tag attributes children rest d record p₁ _ _ _ _ _ _ _ _ _ plain found
      enrolled _ _ _ inner fill more =>
    simp only [Setting.Does, erase, walk_cons_ok, erase_unmarked] at inner fill more ⊢
    obtain ⟨replaced, fill⟩ := fill
    refine ⟨_, _, _, (walkNode_site_ok plain found).2 ⟨_, _, replaced, ?_, fill⟩, more, ?_⟩
    · rw [enrolled]
      exact inner tag
    · rw [erase_append, erase_inherit]
  | drop plain missing dropped _ ih =>
    simp only [Setting.Does, erase, walk_cons_ok] at ih ⊢
    exact ⟨_, _, _, walkNode_drop plain missing dropped, ih, rfl⟩
  | keep plain missing kept _ _ inside more =>
    simp only [Setting.Does, erase, walk_cons_ok] at inside more ⊢
    exact ⟨_, _, _, (walkNode_keep_ok plain missing kept).2 ⟨_, inside, rfl⟩, more, rfl⟩
  | flat flat =>
    intro tag
    rw [Setting.onBodiesAt_flat flat]
  | nest nested below _ ih =>
    intro tag
    rw [Setting.onBodiesAt_of_lt nested below]
    exact ih
  | fillNil => exact ⟨0, by simp [erase, Markup.project]⟩
  | fillLeaf leaf _ ih =>
    obtain ⟨replaced, ih⟩ := ih
    exact ⟨_, Markup.project_cons_ok.2
      ⟨_, _, _, _, _, projectNode_leaf leaf, ih, rfl, rfl⟩⟩
  | fillSlot slot _ _ supply more =>
    obtain ⟨replaced, more⟩ := more
    refine ⟨_, Markup.project_cons_ok.2
      ⟨_, _, _, _, _, (Markup.projectNode_slot_ok slot).2 ⟨supply, rfl⟩, more, ?_, rfl⟩⟩
    rw [erase_append, erase_inherit]
  | fillElement other _ _ within more =>
    obtain ⟨_, within⟩ := within
    obtain ⟨_, more⟩ := more
    exact ⟨_, Markup.project_cons_ok.2 ⟨_, _, _, _, _,
      (Markup.projectNode_element_ok other).2 ⟨_, within, rfl⟩, more, rfl, rfl⟩⟩

/-! ## Every success has a derivation -/

def Setting.Derives (c : Setting) (depth : Nat) (covered : Bool) (forest : List Marked) : Prop :=
  ∀ p out p', walk c (c.onBodiesAt depth) (erase forest) p = .ok (out, p') →
    ∃ sites followed, Run c (.walk depth covered forest) p sites followed p' ∧ erase followed = out

def Setting.DerivesBodies (c : Setting) (depth : Nat) : Prop :=
  ∀ covered forest tag p out p', c.onBodiesAt depth tag (erase forest) p = .ok (out, p') →
    ∃ sites followed, Run c (.body depth covered forest) p sites followed p' ∧ erase followed = out

theorem exists_run_fill {c : Setting} {depth : Nat} {covered : Bool} {held : List Marked}
    (supplies : c.Derives depth covered held) :
    (forest : List Marked) → ∀ p out replaced p',
      Markup.project (walk c (c.onBodiesAt depth) (erase held)) p (erase forest) =
        ⟨out, replaced, p', none⟩ →
      ∃ sites followed, Run c (.fill depth covered held forest) p sites followed p' ∧
        erase followed = out
  | [], p, out, replaced, p', done => by
    simp only [erase, Markup.project, Markup.Projection.mk.injEq] at done
    obtain ⟨rfl, -, rfl, -⟩ := done
    exact ⟨[], [], .fillNil, rfl⟩
  | node :: rest, p, out, replaced, p', done => by
    obtain ⟨nodes, count, p₁, more, others, first, second, rfl, -⟩ := Markup.project_cons_ok.1 done
    obtain ⟨sites₂, later, runRest, rfl⟩ := exists_run_fill supplies rest _ _ _ _ second
    cases kind : node.isElement with
    | false =>
      rw [projectNode_leaf kind, Markup.Projection.mk.injEq] at first
      obtain ⟨rfl, -, rfl, -⟩ := first
      exact ⟨_, _, .fillLeaf kind runRest, rfl⟩
    | true =>
      obtain ⟨mark, tag, attributes, children, rfl⟩ := Marked.isElement_iff.1 kind
      rw [Marked.erase] at first
      cases slot : isSlot tag with
      | true =>
        obtain ⟨supplied, -⟩ := (Markup.projectNode_slot_ok slot).1 first
        obtain ⟨sites₁, followed, run, rfl⟩ := supplies _ _ _ supplied
        exact ⟨_, _, .fillSlot slot run runRest, by rw [erase_append, erase_inherit]⟩
      | false =>
        obtain ⟨inside, within, rfl⟩ := (Markup.projectNode_element_ok slot).1 first
        obtain ⟨sites₁, followed, run, rfl⟩ := exists_run_fill supplies children _ _ _ _ within
        exact ⟨_, _, .fillElement slot run runRest, rfl⟩

theorem exists_run_walk {c : Setting} {depth : Nat} (bodies : c.DerivesBodies depth) :
    (covered : Bool) → (forest : List Marked) → c.Derives depth covered forest
  | covered, [], p, out, p', done => by
    simp only [erase, walk, Except.ok.injEq, Prod.mk.injEq] at done
    obtain ⟨rfl, rfl⟩ := done
    exact ⟨[], [], .walkNil, rfl⟩
  | covered, node :: rest, p, out, p', done => by
    obtain ⟨nodes, p₁, more, first, second, rfl⟩ := walk_cons_ok.1 done
    obtain ⟨sites₃, later, runRest, rfl⟩ := exists_run_walk bodies covered rest _ _ _ second
    cases kind : node.isElement with
    | false =>
      rw [walkNode_leaf kind, Except.ok.injEq, Prod.mk.injEq] at first
      obtain ⟨rfl, rfl⟩ := first
      exact ⟨_, _, .walkLeaf kind runRest, rfl⟩
    | true =>
      obtain ⟨mark, tag, attributes, children, rfl⟩ := Marked.isElement_iff.1 kind
      rw [Marked.erase] at first
      cases raw : Setting.passesBy tag with
      | true =>
        rw [walkNode_passBy raw, Except.ok.injEq, Prod.mk.injEq] at first
        obtain ⟨rfl, rfl⟩ := first
        exact ⟨_, _, .passBy raw runRest, rfl⟩
      | false =>
        cases component : c.registry.forTag? tag with
        | some d =>
          obtain ⟨body, p₂, replaced, inner, fill⟩ := (walkNode_site_ok raw component).1 first
          rw [← erase_unmarked ((c.enrol tag attributes d p).1.mark _)] at inner
          obtain ⟨sites₁, evaluated, runBody, rfl⟩ := bodies covered _ _ _ _ _ inner
          obtain ⟨sites₂, filled, runFill, rfl⟩ :=
            exists_run_fill (exists_run_walk bodies covered children) _ _ _ _ _ fill
          exact ⟨_, _, .site raw component rfl runBody runFill runRest,
            by rw [erase_append, erase_inherit]⟩
        | none =>
          cases dropped : c.drops tag with
          | true =>
            rw [walkNode_drop raw component dropped, Except.ok.injEq, Prod.mk.injEq] at first
            obtain ⟨rfl, rfl⟩ := first
            exact ⟨_, _, .drop raw component dropped runRest, rfl⟩
          | false =>
            obtain ⟨held, inside, rfl⟩ := (walkNode_keep_ok raw component dropped).1 first
            obtain ⟨sites₁, followed, run, rfl⟩ :=
              exists_run_walk bodies (covered || Setting.covers depth tag) children _ _ _ inside
            exact ⟨_, _, .keep raw component dropped run runRest, rfl⟩

theorem derivesBodies_of_flat {c : Setting} (flat : c.options.expandNested = false) (depth : Nat) :
    c.DerivesBodies depth := by
  intro covered forest tag p out p' done
  rw [Setting.onBodiesAt_flat flat, Except.ok.injEq, Prod.mk.injEq] at done
  obtain ⟨rfl, rfl⟩ := done
  exact ⟨_, _, .flat flat, rfl⟩

theorem derivesBodies (c : Setting) (levels depth : Nat)
    (left : c.options.maxDepth - depth = levels) : c.DerivesBodies depth := by
  cases nested : c.options.expandNested with
  | false => exact derivesBodies_of_flat nested depth
  | true =>
    -- by induction on how many bodies more there may be
    induction levels generalizing depth with
    | zero =>
      intro covered forest tag p out p' done
      rw [Setting.onBodiesAt_of_le nested (by omega)] at done
      cases done
    | succ levels ih =>
      intro covered forest tag p out p' done
      have below : depth < c.options.maxDepth := by omega
      rw [Setting.onBodiesAt_of_lt nested below] at done
      obtain ⟨sites, followed, run, rfl⟩ :=
        exists_run_walk (ih (depth + 1) (by omega)) covered forest _ _ _ done
      exact ⟨_, _, .nest nested below run, rfl⟩

theorem exists_run (c : Setting) (depth : Nat) (covered : Bool) (forest : List Marked) :
    c.Derives depth covered forest :=
  exists_run_walk (derivesBodies c _ depth rfl) covered forest

/-! ## A pass has one derivation -/

theorem Run.deterministic {c : Setting} {task : Task} {p p' : Progress} {sites : List Site}
    {out : List Marked} (run : Run c task p sites out p') :
    ∀ {sites' out' p''}, Run c task p sites' out' p'' →
      sites = sites' ∧ out = out' ∧ p' = p'' := by
  induction run with
  | walkNil =>
    intro _ _ _ other
    cases other
    exact ⟨rfl, rfl, rfl⟩
  | walkLeaf leaf _ ih =>
    intro _ _ _ other
    cases other with
    | walkLeaf _ more =>
      obtain ⟨rfl, rfl, rfl⟩ := ih more
      exact ⟨rfl, rfl, rfl⟩
    | passBy | site | drop | keep => cases leaf
  | passBy raw _ ih =>
    intro _ _ _ other
    cases other with
    | passBy _ more =>
      obtain ⟨rfl, rfl, rfl⟩ := ih more
      exact ⟨rfl, rfl, rfl⟩
    | walkLeaf leaf => cases leaf
    | site plain | drop plain | keep plain => simp [raw] at plain
  | site plain found enrolled _ _ _ inner fill more =>
    intro _ _ _ other
    cases other with
    | site _ found' enrolled' inner' fill' more' =>
      obtain rfl := Option.some.inj (found.symm.trans found')
      obtain ⟨rfl, rfl⟩ := Prod.mk.inj (enrolled.symm.trans enrolled')
      obtain ⟨rfl, rfl, rfl⟩ := inner inner'
      obtain ⟨rfl, rfl, rfl⟩ := fill fill'
      obtain ⟨rfl, rfl, rfl⟩ := more more'
      exact ⟨rfl, rfl, rfl⟩
    | walkLeaf leaf => cases leaf
    | passBy raw => simp [raw] at plain
    | drop _ missing | keep _ missing => simp [found] at missing
  | drop plain missing dropped _ ih =>
    intro _ _ _ other
    cases other with
    | drop _ _ _ more =>
      obtain ⟨rfl, rfl, rfl⟩ := ih more
      exact ⟨rfl, rfl, rfl⟩
    | walkLeaf leaf => cases leaf
    | passBy raw => simp [raw] at plain
    | site _ found => simp [found] at missing
    | keep _ _ kept => simp [dropped] at kept
  | keep plain missing kept _ _ inside more =>
    intro _ _ _ other
    cases other with
    | keep _ _ _ inside' more' =>
      obtain ⟨rfl, rfl, rfl⟩ := inside inside'
      obtain ⟨rfl, rfl, rfl⟩ := more more'
      exact ⟨rfl, rfl, rfl⟩
    | walkLeaf leaf => cases leaf
    | passBy raw => simp [raw] at plain
    | site _ found => simp [found] at missing
    | drop _ _ dropped => simp [dropped] at kept
  | flat flat =>
    intro _ _ _ other
    cases other with
    | flat => exact ⟨rfl, rfl, rfl⟩
    | nest nested => simp [flat] at nested
  | nest nested _ _ ih =>
    intro _ _ _ other
    cases other with
    | nest _ _ inner => exact ih inner
    | flat flat => simp [nested] at flat
  | fillNil =>
    intro _ _ _ other
    cases other
    exact ⟨rfl, rfl, rfl⟩
  | fillLeaf leaf _ ih =>
    intro _ _ _ other
    cases other with
    | fillLeaf _ more =>
      obtain ⟨rfl, rfl, rfl⟩ := ih more
      exact ⟨rfl, rfl, rfl⟩
    | fillSlot | fillElement => cases leaf
  | fillSlot slot _ _ supply more =>
    intro _ _ _ other
    cases other with
    | fillSlot _ supply' more' =>
      obtain ⟨rfl, rfl, rfl⟩ := supply supply'
      obtain ⟨rfl, rfl, rfl⟩ := more more'
      exact ⟨rfl, rfl, rfl⟩
    | fillLeaf leaf => cases leaf
    | fillElement element => simp [slot] at element
  | fillElement element _ _ within more =>
    intro _ _ _ other
    cases other with
    | fillElement _ within' more' =>
      obtain ⟨rfl, rfl, rfl⟩ := within within'
      obtain ⟨rfl, rfl, rfl⟩ := more more'
      exact ⟨rfl, rfl, rfl⟩
    | fillLeaf leaf => cases leaf
    | fillSlot slot => simp [slot] at element

/-! ## Elements that come out -/

def Task.StartsWith (P : Mark → String → List Attribute → Prop) : Task → Prop
  | .walk _ _ forest | .body _ _ forest => Every P forest
  | .fill _ _ held forest => Every P held ∧ Every P forest

/-- What holds of the elements of every body of a usage site, and of those that a task starts with,
holds of those it ends with, if it does not get lost when a mark is handed on. -/
theorem Run.every {c : Setting} {P : Mark → String → List Attribute → Prop}
    (bodies : ∀ (i : Instance) (d : Definition) (context : Context),
      Everywhere (P .other) (i.mark (Template.instantiate d.body context)))
    (step : ∀ replaced mark tag attributes, P mark tag attributes →
      P (mark.inherit replaced) tag attributes)
    {task : Task} {p p' : Progress} {sites : List Site} {out : List Marked}
    (run : Run c task p sites out p') : task.StartsWith P → Every P out := by
  induction run with
  | walkNil => exact id
  | walkLeaf leaf _ ih | fillLeaf leaf _ ih =>
    simp only [Task.StartsWith, Markup.every_leaf_cons leaf] at ih ⊢
    exact ih
  | passBy _ _ ih =>
    simp only [Task.StartsWith, Markup.every_element_cons] at ih ⊢
    rintro ⟨here, inside, after⟩
    exact ⟨here, inside, ih after⟩
  | site _ _ _ _ _ _ inner fill more =>
    simp only [Task.StartsWith, Markup.every_element_cons, Markup.every_append] at inner fill more ⊢
    rintro ⟨-, held, after⟩
    have body := inner (Markup.every_unmarked.2 (bodies _ _ _))
    exact ⟨Markup.every_inherit (step _) _ (fill ⟨held, body⟩), more after⟩
  | drop _ _ _ _ ih =>
    simp only [Task.StartsWith, Markup.every_element_cons] at ih ⊢
    rintro ⟨-, -, after⟩
    exact ih after
  | keep _ _ _ _ _ inside more =>
    simp only [Task.StartsWith, Markup.every_element_cons] at inside more ⊢
    rintro ⟨here, within, after⟩
    exact ⟨here, inside within, more after⟩
  | flat => exact id
  | nest _ _ _ ih => exact ih
  | fillNil => exact And.right
  | fillSlot _ _ _ supply more =>
    simp only [Task.StartsWith, Markup.every_element_cons, Markup.every_append] at supply more ⊢
    rintro ⟨held, -, -, after⟩
    exact ⟨Markup.every_inherit (step _) _ (supply held), more ⟨held, after⟩⟩
  | fillElement _ _ _ within more =>
    simp only [Task.StartsWith, Markup.every_element_cons] at within more ⊢
    rintro ⟨held, here, inside, after⟩
    exact ⟨here, within ⟨held, inside⟩, more ⟨held, after⟩⟩

/-! ## Whole passes -/

/-- A pass over a forest that instantiates the given usage sites, in this order, and ends with the
given forest and output. -/
def Expands (registry : Registry) (options : Options) (nodes : List Node) (sites : List Site)
    (out : List Node) (output : Output) : Prop :=
  ∃ followed p, Run ⟨registry, options⟩ (.walk 0 false (unmarked nodes)) {} sites followed p ∧
    erase followed = out ∧ p.output = output

theorem expand_ok_iff {registry : Registry} {options : Options} {nodes out : List Node}
    {output : Output} :
    expand registry options nodes = .ok (out, output) ↔
      ∃ sites, Expands registry options nodes sites out output := by
  simp only [expand, map_eq_ok_iff, Prod.exists, Prod.mk.injEq]
  constructor
  · rintro ⟨out, p, walked, rfl, rfl⟩
    rw [← Setting.onBodiesAt_zero, ← erase_unmarked nodes] at walked
    obtain ⟨sites, followed, run, rfl⟩ := exists_run _ 0 false _ _ _ _ walked
    exact ⟨sites, followed, p, run, rfl, rfl⟩
  · rintro ⟨sites, followed, p, run, rfl, rfl⟩
    have walked := run.sound
    simp only [Setting.Does, erase_unmarked, Setting.onBodiesAt_zero] at walked
    exact ⟨_, _, walked, rfl, rfl⟩

theorem Expands.sites_unique {registry : Registry} {options : Options} {nodes out out' : List Node}
    {sites sites' : List Site} {output output' : Output}
    (pass : Expands registry options nodes sites out output)
    (other : Expands registry options nodes sites' out' output') : sites = sites' := by
  obtain ⟨_, _, run, -⟩ := pass
  obtain ⟨_, _, run', -⟩ := other
  exact (run.deterministic run').1

end ComponentCompiler.Component
