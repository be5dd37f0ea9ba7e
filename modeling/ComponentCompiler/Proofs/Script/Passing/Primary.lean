import Mathlib
import ComponentCompiler.Proofs.Script.Passing.Readers

namespace ComponentCompiler.Script

open Reader Std.Do

set_option mvcgen.warning false

structure Key.Passes (s : State) (k : Key) (t : State) : Prop where
  occs : Script.Passes s k.occs t
  word : ∀ o, k.word = some o → Script.Passes s [o] t

structure Property.Passes (s : State) (p : Property) (t : State) : Prop where
  moves : Moves s t
  value : Offers s p.value t
  target : Offers s p.target t
  binding : Offers s p.binding t

section

variable {s t u : State} {xs : Occurrences} {k : Key} {p : Property} {l : List Property}

@[grind →]
theorem Key.Passes.run (reads : k.Passes s t) : Since s k.occs t :=
  reads.occs

@[grind →]
theorem Key.Passes.run_word {o : Occurrence} (reads : k.Passes s t) (word : k.word = some o) :
    Since s [{ o with role := .shorthand }] t ∧ Since s [{ o with role := .assigned }] t :=
  ⟨(reads.word o word).withRole .shorthand, (reads.word o word).withRole .assigned⟩

@[grind →]
theorem Property.Passes.move (reads : p.Passes s t) (moves : Moves t u) : p.Passes s u where
  moves := reads.moves.trans moves
  value := reads.value.move moves
  target := reads.target.move moves
  binding := reads.binding.move moves

theorem Moves.property (moves : Moves s t) (reads : p.Passes t u) : p.Passes s u where
  moves := moves.trans reads.moves
  value := moves.offers reads.value
  target := moves.offers reads.target
  binding := moves.offers reads.binding

@[grind →]
theorem Since.property (run : Since s [] t) (reads : p.Passes t u) : p.Passes s u :=
  Moves.property run reads

theorem Property.passes_ofValue (passes : Script.Passes s xs t) :
    (Property.ofValue xs).Passes s t :=
  ⟨passes.moves, passes.offers, offers_none, offers_none⟩

@[grind →]
theorem Succeed.concat_property (succeed : Succeed Property.Passes s l t) (passes : p.Passes t u) :
    Succeed Property.Passes s (l ++ [p]) u :=
  succeed.concat (P := Property.Passes) Moves.property passes

theorem offers_propertyPattern {part : Property → Option Occurrences} {trailing : Bool}
    (parts : ∀ {p : Property} {s t}, p.Passes s t → Offers s (part p) t)
    (succeed : Succeed Property.Passes s l t) :
    Offers s (propertyPattern part trailing l) t := by
  fun_induction propertyPattern part trailing l generalizing s with
  | case1 => exact Passes.offers succeed
  | case2 => exact offers_none
  | case3 p _ =>
    obtain ⟨u, here, rest⟩ := succeed
    exact (parts here).move rest
  | case4 => exact offers_none
  | case5 p rest _ _ ih =>
    obtain ⟨u, here, later⟩ := succeed
    intro occs read
    obtain ⟨front, first, further⟩ := Option.bind_eq_some_iff.1 read
    exact (parts here front first).offers_withDefault (ih later) occs further

theorem Succeed.object (trailing : Bool) (succeed : Succeed Property.Passes s l t) :
    Reading.Passes s
      ⟨joinReadings (l.map (·.value)), propertyPattern (·.target) trailing l,
        propertyPattern (·.binding) trailing l, propertyPattern (·.target) trailing l,
        propertyPattern (·.binding) trailing l, false, none⟩ t :=
  have targets := offers_propertyPattern Property.Passes.target succeed
  have bindings := offers_propertyPattern Property.Passes.binding succeed
  ⟨succeed.moves Property.Passes.moves, succeed.offers_join Property.Passes.value, targets, bindings,
    targets, bindings, nofun⟩

end

attribute [grind →] Key.Passes.occs Property.Passes.moves

attribute [grind ←] Property.Passes.mk Property.passes_ofValue

section

variable (s : State)

@[spec]
theorem isModifier_stays (w : String) :
    ⦃fun t => ⌜t = s⌝⦄ isModifier w ⦃⇓? _ t => ⌜t = s⌝⦄ := by
  mvcgen [isModifier] <;> grind

@[spec]
theorem isAsyncModifier_stays : ⦃fun t => ⌜t = s⌝⦄ isAsyncModifier ⦃⇓? _ t => ⌜t = s⌝⦄ := by
  mvcgen [isAsyncModifier] <;> grind

@[spec]
theorem isClassModifier_stays (w : String) :
    ⦃fun t => ⌜t = s⌝⦄ isClassModifier w ⦃⇓? _ t => ⌜t = s⌝⦄ := by
  mvcgen [isClassModifier] <;> grind

@[spec]
theorem isPrefixOperator_stays (c : Scope) :
    ⦃fun t => ⌜t = s⌝⦄ isPrefixOperator c ⦃⇓? _ t => ⌜t = s⌝⦄ := by
  mvcgen [isPrefixOperator] <;> grind

@[spec]
theorem binaryOperator?_stays (c : Scope) :
    ⦃fun t => ⌜t = s⌝⦄ binaryOperator? c ⦃⇓? _ t => ⌜t = s⌝⦄ := by
  mvcgen [binaryOperator?] <;> grind

@[spec]
theorem privateName_moves : ⦃fun t => ⌜t = s⌝⦄ privateName ⦃⇓? _ t => ⌜Moves s t⌝⦄ := by
  have start := Since.refl s
  mvcgen [privateName] <;> grind

@[spec]
theorem memberName_moves : ⦃fun t => ⌜t = s⌝⦄ memberName ⦃⇓? _ t => ⌜Moves s t⌝⦄ := by
  have start := Since.refl s
  mvcgen [memberName] <;> grind

end

def Recursion.Passes (self : Recursion) : Prop :=
  ∀ g c s, ⦃fun t => ⌜t = s⌝⦄ self g c ⦃⇓? r t => ⌜r.Passes s t⌝⦄

section

variable {self : Recursion} (passes : self.Passes) (s : State)

include passes

theorem reading_passes (g : Goal) (c : Scope) :
    ⦃fun t => ⌜t = s⌝⦄ self g c ⦃⇓? r t => ⌜r.Passes s t⌝⦄ :=
  passes g c s

@[spec]
theorem value_passes (g : Goal) (c : Scope) :
    ⦃fun t => ⌜t = s⌝⦄ self.value g c ⦃⇓? occs t => ⌜Passes s occs t⌝⦄ := by
  mvcgen [Recursion.value, Reading.toValue, reading_passes]
  grind

@[spec]
theorem itemList_passes (c : Scope) (close : String) (holes : Bool) :
    ⦃fun t => ⌜t = s⌝⦄ itemList self c close holes
    ⦃⇓? l t => ⌜Succeed Item.Passes s l.items t⌝⦄ := by
  mvcgen [itemList, repeatStep_items, reading_passes] <;> grind

@[spec]
theorem parameters_passes (c : Scope) :
    ⦃fun t => ⌜t = s⌝⦄ parameters self c ⦃⇓? occs t => ⌜Passes s occs t⌝⦄ := by
  refine triple_since fun start => ?_
  mvcgen [parameters]
  grind

@[spec]
theorem statementsToBrace_passes (c : Scope) :
    ⦃fun t => ⌜t = s⌝⦄ statementsToBrace self c ⦃⇓? occs t => ⌜Passes s occs t⌝⦄ := by
  refine triple_since fun start => ?_
  mvcgen [statementsToBrace, repeatStep_passes] <;> grind

@[spec]
theorem functionBody_passes (c : Scope) :
    ⦃fun t => ⌜t = s⌝⦄ functionBody self c ⦃⇓? occs t => ⌜Passes s occs t⌝⦄ := by
  refine triple_since fun start => ?_
  mvcgen [functionBody] <;> grind

@[spec]
theorem functionRest_passes (waits generates : Bool) :
    ⦃fun t => ⌜t = s⌝⦄ functionRest self waits generates ⦃⇓? occs t => ⌜Passes s occs t⌝⦄ := by
  refine triple_since fun start => ?_
  mvcgen [functionRest]
  grind

@[spec]
theorem functionExpression_passes (waits : Bool) :
    ⦃fun t => ⌜t = s⌝⦄ functionExpression self waits ⦃⇓? occs t => ⌜Passes s occs t⌝⦄ := by
  refine triple_since fun start => ?_
  mvcgen [functionExpression] <;> grind

@[spec]
theorem key_passes (c : Scope) : ⦃fun t => ⌜t = s⌝⦄ key self c ⦃⇓? k t => ⌜k.Passes s t⌝⦄ := by
  refine triple_ran fun start => ?_
  mvcgen [key] <;> grind [Ran, Key.Passes, passes_word]

@[spec]
theorem accessorRest_passes (count : Nat) :
    ⦃fun t => ⌜t = s⌝⦄ accessorRest self count ⦃⇓? occs t => ⌜Passes s occs t⌝⦄ := by
  refine triple_since fun start => ?_
  mvcgen [accessorRest]
  grind

@[spec]
theorem classKey_passes (c : Scope) :
    ⦃fun t => ⌜t = s⌝⦄ classKey self c ⦃⇓? k t => ⌜Passes s k.1 t⌝⦄ := by
  refine triple_since fun start => ?_
  mvcgen [classKey] <;> grind

@[spec]
theorem plainClassKey_passes (c : Scope) (isStatic isField : Bool) :
    ⦃fun t => ⌜t = s⌝⦄ plainClassKey self c isStatic isField
    ⦃⇓? occs t => ⌜Passes s occs t⌝⦄ := by
  refine triple_since fun start => ?_
  mvcgen [plainClassKey]
  grind

@[spec]
theorem fieldRest_passes :
    ⦃fun t => ⌜t = s⌝⦄ fieldRest self ⦃⇓? occs t => ⌜Passes s occs t⌝⦄ := by
  refine triple_since fun start => ?_
  mvcgen [fieldRest] <;> grind

@[spec]
theorem classMember_passes (c : Scope) (isStatic : Bool) :
    ⦃fun t => ⌜t = s⌝⦄ classMember self c isStatic ⦃⇓? occs t => ⌜Passes s occs t⌝⦄ := by
  refine triple_since fun start => ?_
  mvcgen [classMember] <;> grind

@[spec]
theorem propertyAfterKey_passes (c : Scope) (k : Key) :
    ⦃fun t => ⌜t = s⌝⦄ propertyAfterKey self c k
    ⦃⇓? p t => ⌜∀ start, k.Passes start s → p.Passes start t⌝⦄ := by
  mvcgen [propertyAfterKey, reading_passes] <;> grind

@[spec]
theorem property_passes (c : Scope) :
    ⦃fun t => ⌜t = s⌝⦄ property self c ⦃⇓? p t => ⌜p.Passes s t⌝⦄ := by
  refine triple_ran fun start => ?_
  mvcgen [property, reading_passes] <;> grind [Ran]

omit passes in
theorem repeatStep_properties {step : List Property × Bool → Reader ((List Property × Bool) × Bool)}
    (adds : ∀ before s, ⦃fun t => ⌜t = s⌝⦄ step before
      ⦃⇓? r t => ⌜∀ start, Succeed Property.Passes start before.1 s →
        Succeed Property.Passes start r.1.1 t⌝⦄)
    (bound : Nat) (trailing : Bool) :
    ⦃fun t => ⌜t = s⌝⦄ repeatStep step bound ([], trailing)
    ⦃⇓? l t => ⌜Succeed Property.Passes s l.1 t⌝⦄ := by
  have start : Succeed Property.Passes s [] s := Moves.refl s
  have keeps := repeatStep_keeps
    (fun s (l : List Property × Bool) t => Succeed Property.Passes s l.1 t) adds
  mvcgen [keeps]
  grind

@[spec]
theorem objectRest_passes (c : Scope) :
    ⦃fun t => ⌜t = s⌝⦄ objectRest self c ⦃⇓? r t => ⌜r.Passes s t⌝⦄ := by
  refine triple_ran fun start => ?_
  mvcgen [objectRest, repeatStep_properties]
  · grind
  · grind
  · grind
  next same _ _ stays _ _ properties _ _ _ _ closed =>
    subst same
    subst stays
    exact (properties.object _).move closed

@[spec]
theorem templateFrom_passes (c : Scope) (tagged : Bool) (bound : Nat) (cs : List Char)
    (less : s.Formed → cs.length ≤ s.text.length) :
    ⦃fun t => ⌜t = s⌝⦄ templateFrom self c tagged bound cs ⦃⇓? occs t => ⌜Passes s occs t⌝⦄ := by
  induction bound generalizing cs s with
  | zero =>
    mvcgen [templateFrom]
    grind
  | succ bound ih =>
    refine triple_since fun start => ?_
    have piece {ends valid : Bool} {rest : List Char}
        (read : templatePiece? (cs.length + 1) cs = some (ends, valid, rest)) :
        Moves s (.ofText rest false) :=
      moves_ofText fun formed => Nat.le_trans (templatePiece?_length read) (less formed)
    mvcgen [templateFrom, ih] <;> grind

@[spec]
theorem template_passes (c : Scope) (tagged : Bool) :
    ⦃fun t => ⌜t = s⌝⦄ template self c tagged ⦃⇓? occs t => ⌜Passes s occs t⌝⦄ := by
  refine triple_since fun start => ?_
  mvcgen [template] <;> grind

@[spec]
theorem importExpression_passes (c : Scope) :
    ⦃fun t => ⌜t = s⌝⦄ importExpression self c ⦃⇓? r t => ⌜r.Passes s t⌝⦄ := by
  refine triple_ran fun start => ?_
  mvcgen [importExpression] <;> grind [Ran, -List.any_append]

@[spec]
theorem asyncExpression_passes (c : Scope) :
    ⦃fun t => ⌜t = s⌝⦄ asyncExpression self c ⦃⇓? r t => ⌜r.Passes s t⌝⦄ := by
  refine triple_ran fun start => ?_
  mvcgen [asyncExpression] <;> grind [Ran, Reading.Passes]

@[spec]
theorem parenRest_passes (c : Scope) :
    ⦃fun t => ⌜t = s⌝⦄ parenRest self c ⦃⇓? r t => ⌜r.Passes s t⌝⦄ := by
  refine triple_ran fun start => ?_
  mvcgen [parenRest]
  next same l _ value arrow r single simple target t items =>
    subst same
    obtain ⟨u, here, rest⟩ : Succeed Item.Passes _ [.plain r] t := single ▸ items
    have reads : r.Passes _ t := Reading.Passes.move here rest
    have targets : Offers _ target t := offers_ite reads.target offers_none
    exact ⟨reads.moves, offers_ite offers_none items.values, targets, offers_none, targets,
      offers_none, fun _ _ => items.arrow⟩
  next same _ _ _ _ _ _ _ _ items =>
    subst same
    exact ⟨items.items_moves, offers_ite offers_none items.values, offers_none, offers_none,
      offers_none, offers_none, fun _ _ => items.arrow⟩

end

end ComponentCompiler.Script
