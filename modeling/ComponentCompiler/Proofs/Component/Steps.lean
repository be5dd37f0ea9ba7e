import ComponentCompiler.Proofs.Component.Derivation
import Mathlib.Logic.Relation

/-!
# The steps of a walk

A walk goes one step at a time, with a stack of what is to be done with the forests that it has yet
to finish. The steps know of no limit: where bodies hold usage sites of their own components, they
go on forever. A pass takes the same steps up to the first usage site that lies in too many bodies.

* `Setting.Path.unique`: there is one way to go, so a walk ends in one stage only.
* `ends_walk`: a walk ends as its steps do.
* `ends_expand`: so does a whole pass.
-/

namespace ComponentCompiler.Component

open Markup (Attribute Node isSlot)
open Template (Context)

/-- What a walk is at: a forest that lies in `depth` bodies, a body whose slots are filled with what
its usage site held, or a forest that is finished. -/
inductive Focus
  | walk (depth : Nat) (forest : List Node)
  | fill (depth : Nat) (held forest : List Node)
  | done (out : List Node)

inductive Frame
  | prepend (before : List Node)
  | wrap (tag : String) (attributes : List Attribute)
  | walkOn (depth : Nat) (rest : List Node)
  | fillOn (depth : Nat) (held rest : List Node)
  | fillWith (depth : Nat) (held : List Node)

structure Stage where
  focus : Focus
  frames : List Frame
  progress : Progress

def Stage.start (nodes : List Node) : Stage :=
  ⟨.walk 0 nodes, [], {}⟩

def Setting.goInto (c : Setting) (depth : Nat) (body : List Node) : Focus :=
  if c.options.expandNested then .walk (depth + 1) body else .done body

def Setting.enter (c : Setting) (depth : Nat) (frames : List Frame) (p : Progress) : Node → Stage
  | .element tag attributes children =>
    if passesBy tag then ⟨.done [.element tag attributes children], frames, p⟩
    else
      match c.registry.forTag? tag with
      | some d =>
        let (body, p) := instantiate c.options.transformer tag (c.registry.keyOf tag) d
          (Context.ofAttributes attributes) p
        ⟨c.goInto depth body, .fillWith depth children :: frames, p⟩
      | none =>
        if c.drops tag then ⟨.done [], frames, c.noted tag p⟩
        else ⟨.walk depth children, .wrap tag attributes :: frames, c.noted tag p⟩
  | node => ⟨.done [node], frames, p⟩

/-- Fills the slots of a node; what fills a slot lies in as many bodies as its usage site. -/
def fillNode (depth : Nat) (held : List Node) (frames : List Frame) (p : Progress) : Node → Stage
  | .element tag attributes children =>
    if isSlot tag then ⟨.walk depth held, frames, p⟩
    else ⟨.fill depth held children, .wrap tag attributes :: frames, p⟩
  | node => ⟨.done [node], frames, p⟩

def resume (out : List Node) (frames : List Frame) (p : Progress) : Frame → Stage
  | .prepend before => ⟨.done (before ++ out), frames, p⟩
  | .wrap tag attributes => ⟨.done [.element tag attributes out], frames, p⟩
  | .walkOn depth rest => ⟨.walk depth rest, .prepend out :: frames, p⟩
  | .fillOn depth held rest => ⟨.fill depth held rest, .prepend out :: frames, p⟩
  | .fillWith depth held => ⟨.fill depth held out, frames, p⟩

def Setting.step (c : Setting) : Stage → Option Stage
  | ⟨.walk _ [], frames, p⟩ => some ⟨.done [], frames, p⟩
  | ⟨.walk depth (node :: rest), frames, p⟩ =>
    some (c.enter depth (.walkOn depth rest :: frames) p node)
  | ⟨.fill _ _ [], frames, p⟩ => some ⟨.done [], frames, p⟩
  | ⟨.fill depth held (node :: rest), frames, p⟩ =>
    some (fillNode depth held (.fillOn depth held rest :: frames) p node)
  | ⟨.done out, frame :: frames, p⟩ => some (resume out frames p frame)
  | ⟨.done _, [], _⟩ => none

def Setting.used? (c : Setting) : Node → Option String
  | .element tag _ _ =>
    if !passesBy tag && (c.registry.forTag? tag).isSome then some tag else none
  | _ => none

def Setting.site? (c : Setting) : Stage → Option (String × Nat)
  | ⟨.walk depth (node :: _), _, _⟩ => (c.used? node).map fun tag => (tag, depth)
  | _ => none

def Setting.Admits (c : Setting) (depth : Nat) : Prop :=
  c.options.expandNested = true → depth < c.options.maxDepth

def Setting.Advances (c : Setting) (s s' : Stage) : Prop :=
  (∀ tag depth, c.site? s = some (tag, depth) → c.Admits depth) ∧ c.step s = some s'

abbrev Setting.Path (c : Setting) : Stage → Stage → Prop :=
  Relation.ReflTransGen c.Advances

/-- The walk is over, or it is at a usage site that lies in too many bodies. -/
def Setting.Stops (c : Setting) (s : Stage) : Prop :=
  c.step s = none ∨ ∃ tag depth, c.site? s = some (tag, depth) ∧ ¬c.Admits depth

theorem Setting.Path.eq_of_stops {c : Setting} {s s' : Stage} (stops : c.Stops s)
    (path : c.Path s s') : s' = s := by
  rcases Relation.ReflTransGen.cases_head path with same | ⟨_, ⟨admits, next⟩, -⟩
  · exact same.symm
  · rcases stops with ended | ⟨tag, depth, here, deep⟩
    · cases ended.symm.trans next
    · exact absurd (admits tag depth here) deep

theorem Setting.Path.unique {c : Setting} {s first second : Stage} (path : c.Path s first)
    (path' : c.Path s second) (stops : c.Stops first) (stops' : c.Stops second) :
    first = second := by
  have functional : Relator.RightUnique c.Advances := by
    rintro s a b ⟨-, toA⟩ ⟨-, toB⟩
    exact Option.some.inj (toA.symm.trans toB)
  rcases Relation.ReflTransGen.total_of_right_unique functional path path' with on | back
  · exact (Setting.Path.eq_of_stops stops on).symm
  · exact Setting.Path.eq_of_stops stops' back

def Setting.Exceeds (c : Setting) (s : Stage) (failure : Failure) : Prop :=
  ∃ s' tag depth, c.Path s s' ∧ c.site? s' = some (tag, depth) ∧ ¬c.Admits depth ∧
    failure.error = .expansionDepth tag c.options.maxDepth

def Setting.Ends (c : Setting) (s : Stage) (frames : List Frame) :
    Except Failure (List Node × Progress) → Prop
  | .ok (out, p) => c.Path s ⟨.done out, frames, p⟩
  | .error failure => c.Exceeds s failure

section Ends

variable {c : Setting} {s s' : Stage} {frames frames' : List Frame}
  {result : Except Failure (List Node × Progress)}

theorem Setting.Ends.head (path : c.Path s s') (ends : c.Ends s' frames result) :
    c.Ends s frames result := by
  cases result with
  | ok r => exact Relation.ReflTransGen.trans path ends
  | error failure =>
    obtain ⟨deep, tag, depth, rest, site⟩ := ends
    exact ⟨deep, tag, depth, Relation.ReflTransGen.trans path rest, site⟩

theorem Setting.Ends.bind {next : List Node × Progress → Except Failure (List Node × Progress)}
    (ends : c.Ends s frames' result)
    (more : ∀ out p, result = .ok (out, p) → c.Ends ⟨.done out, frames', p⟩ frames (next (out, p))) :
    c.Ends s frames (result.bind next) := by
  cases result with
  | ok r => exact .head ends (more r.1 r.2 rfl)
  | error failure => exact ends

theorem Setting.Path.step (none : c.site? s = none) (next : c.step s = some s') : c.Path s s' := by
  refine .single ⟨fun tag depth here => ?_, next⟩
  rw [none] at here
  cases here

theorem Setting.Ends.map {frame : Frame} {f : List Node → List Node}
    (finish : ∀ out p, resume out frames p frame = ⟨.done (f out), frames, p⟩)
    (ends : c.Ends s (frame :: frames) result) :
    c.Ends s frames (result.map fun r => (f r.1, r.2)) := by
  cases result with
  | ok r =>
    have last : c.Path ⟨.done r.1, frame :: frames, r.2⟩ ⟨.done (f r.1), frames, r.2⟩ :=
      .step rfl (congrArg some (finish r.1 r.2))
    exact Relation.ReflTransGen.trans ends last
  | error failure => exact ends

end Ends

section Used

variable {c : Setting} {tag : String}

theorem used_eq_some {node : Node} : c.used? node = some tag ↔
    Setting.passesBy tag = false ∧ (c.registry.forTag? tag).isSome = true ∧
      ∃ attributes children, node = .element tag attributes children := by
  cases node with
  | element other attributes children =>
    simp only [Setting.used?, Option.ite_none_right_eq_some, Bool.and_eq_true, Bool.not_eq_true',
      Option.some.injEq]
    constructor
    · rintro ⟨⟨plain, found⟩, rfl⟩
      exact ⟨plain, found, attributes, children, rfl⟩
    · rintro ⟨plain, found, _, _, same⟩
      cases same
      exact ⟨⟨plain, found⟩, rfl⟩
  | text | comment | doctype => simp [Setting.used?]

theorem walkNode_too_deep {depth : Nat} {node : Node} (used : c.used? node = some tag)
    (deep : ¬c.Admits depth) (p : Progress) :
    ∃ failure, walkNode c (c.onBodiesAt depth) node p = .error failure ∧
      failure.error = .expansionDepth tag c.options.maxDepth := by
  obtain ⟨plain, found, attributes, children, rfl⟩ := used_eq_some.1 used
  obtain ⟨d, component⟩ := Option.isSome_iff_exists.1 found
  obtain ⟨nested, above⟩ := Classical.not_imp.1 deep
  rw [walkNode_site plain component, Setting.onBodiesAt_of_le nested (Nat.le_of_not_lt above)]
  exact ⟨_, rfl, rfl⟩

end Used

section Tasks

variable {c : Setting} {depth : Nat}

mutual

theorem ends_fillNode {held : List Node}
    (supplies : ∀ frames p, c.Ends ⟨.walk depth held, frames, p⟩ frames
      (walk c (c.onBodiesAt depth) held p)) :
    (node : Node) → ∀ frames p, c.Ends (fillNode depth held frames p node) frames
      (Markup.projectNode (walk c (c.onBodiesAt depth) held) p node).outcome
  | .element tag attributes children, frames, p => by
    cases slot : isSlot tag with
    | true =>
      rw [Markup.outcome_slot slot, fillNode, if_pos slot]
      exact supplies frames p
    | false =>
      rw [Markup.outcome_element slot, fillNode, if_neg (ne_true_of_eq_false slot)]
      have within := ends_fill supplies children (.wrap tag attributes :: frames) p
      exact within.map fun _ _ => rfl
  | .text _, _, _ | .comment _, _, _ | .doctype .., _, _ => .refl

theorem ends_fill {held : List Node}
    (supplies : ∀ frames p, c.Ends ⟨.walk depth held, frames, p⟩ frames
      (walk c (c.onBodiesAt depth) held p)) :
    (forest : List Node) → ∀ frames p, c.Ends ⟨.fill depth held forest, frames, p⟩ frames
      (Markup.project (walk c (c.onBodiesAt depth) held) p forest).outcome
  | [], frames, p => .step rfl rfl
  | node :: rest, frames, p => by
    rw [Markup.outcome_cons]
    have first := ends_fillNode supplies node (.fillOn depth held rest :: frames) p
    refine .head (.step rfl rfl) (first.bind fun out p₁ _ => ?_)
    have more := ends_fill supplies rest (.prepend out :: frames) p₁
    exact .head (.step rfl rfl) (more.map fun _ _ => rfl)

end

mutual

theorem ends_enter (bodies : c.Admits depth → ∀ tag body frames p,
      c.Ends ⟨c.goInto depth body, frames, p⟩ frames (c.onBodiesAt depth tag body p)) :
    (node : Node) → ((c.used? node).isSome = true → c.Admits depth) → ∀ frames p,
      c.Ends (c.enter depth frames p node) frames (walkNode c (c.onBodiesAt depth) node p)
  | .element tag attributes children, admits, frames, p => by
    cases raw : Setting.passesBy tag with
    | true =>
      rw [walkNode_passBy raw, Setting.enter, if_pos raw]
      exact .refl
    | false =>
      cases component : c.registry.forTag? tag with
      | some d =>
        have admitted := admits (by simp [Setting.used?, raw, component])
        rw [walkNode_site raw component, Setting.enter, if_neg (ne_true_of_eq_false raw)]
        simp only [component]
        refine (bodies admitted _ _ _ _).bind fun body p₁ _ => ?_
        have filled := ends_fill (ends_walk bodies children) body frames p₁
        exact .head (.step rfl rfl) filled
      | none =>
        rw [Setting.enter, if_neg (ne_true_of_eq_false raw)]
        simp only [component]
        cases dropped : c.drops tag with
        | true =>
          rw [walkNode_drop raw component dropped]
          exact .refl
        | false =>
          rw [walkNode_keep raw component dropped]
          have inside := ends_walk bodies children (.wrap tag attributes :: frames) (c.noted tag p)
          exact inside.map fun _ _ => rfl
  | .text _, _, _, _ | .comment _, _, _, _ | .doctype .., _, _, _ => by
    simp only [walkNode]
    exact .refl

theorem ends_walk (bodies : c.Admits depth → ∀ tag body frames p,
      c.Ends ⟨c.goInto depth body, frames, p⟩ frames (c.onBodiesAt depth tag body p)) :
    (forest : List Node) → ∀ frames p, c.Ends ⟨.walk depth forest, frames, p⟩ frames
      (walk c (c.onBodiesAt depth) forest p)
  | [], frames, p => by
    rw [walk]
    exact .step rfl rfl
  | node :: rest, frames, p => by
    rw [walk_cons]
    by_cases admits : (c.used? node).isSome = true → c.Admits depth
    · have here : c.Path ⟨.walk depth (node :: rest), frames, p⟩
          (c.enter depth (.walkOn depth rest :: frames) p node) := by
        refine .single ⟨fun tag depth' site => ?_, rfl⟩
        obtain ⟨_, used, same⟩ := Option.map_eq_some_iff.1 site
        obtain ⟨-, rfl⟩ := Prod.mk.inj same
        exact admits (by rw [used]; rfl)
      have first := ends_enter bodies node admits (.walkOn depth rest :: frames) p
      refine .head here (first.bind fun out p₁ _ => ?_)
      have more := ends_walk bodies rest (.prepend out :: frames) p₁
      exact .head (.step rfl rfl) (more.map fun _ _ => rfl)
    · obtain ⟨used, deep⟩ := Classical.not_imp.1 admits
      obtain ⟨tag, here⟩ := Option.isSome_iff_exists.1 used
      obtain ⟨failure, failed, reason⟩ := walkNode_too_deep here deep p
      rw [failed]
      exact ⟨_, tag, depth, .refl, by rw [Setting.site?, here]; rfl, deep, reason⟩

end

theorem ends_body (c : Setting) (depth : Nat) (admits : c.Admits depth) (tag : String)
    (body : List Node) (frames : List Frame) (p : Progress) :
    c.Ends ⟨c.goInto depth body, frames, p⟩ frames (c.onBodiesAt depth tag body p) := by
  cases nested : c.options.expandNested with
  | false =>
    simp only [Setting.goInto, nested, Setting.onBodiesAt_flat nested]
    exact .refl
  | true =>
    have below := admits nested
    simp only [Setting.goInto, nested, if_true, Setting.onBodiesAt_of_lt nested below]
    exact ends_walk (ends_body c (depth + 1)) body frames p
termination_by c.options.maxDepth - depth
decreasing_by omega

end Tasks

theorem ends_expand (c : Setting) (nodes : List Node) :
    c.Ends (.start nodes) [] (walk c (onBodies c) nodes {}) := by
  rw [← c.onBodiesAt_zero]
  exact ends_walk (ends_body c 0) nodes [] {}

end ComponentCompiler.Component
