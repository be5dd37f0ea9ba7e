import Mathlib
import ComponentCompiler.Proofs.Script.Passing.Primary

namespace ComponentCompiler.Script

open Reader Std.Do

set_option mvcgen.warning false

theorem Succeed.array {s t : State} {l : Items} (succeed : Succeed Item.Passes s l.items t) :
    Reading.Passes s ⟨l.values, l.targets, l.bindings, l.targets, l.bindings, false, none⟩ t :=
  ⟨succeed.items_moves, succeed.values, succeed.targets, succeed.bindings, succeed.targets,
    succeed.bindings, nofun⟩

/-- What a run from `s` has read when it is at `t`. -/
def Reading.Since (s : State) (r : Reading) (t : State) : Prop :=
  r.Passes s t

section

variable {s t : State} {r : Reading} {ch : Chain} {xs ys : Occurrences}

@[grind →]
theorem Reading.Since.run (reads : r.Since s t) : Script.Since s [] t :=
  Reading.Passes.moves reads

@[grind →]
theorem Reading.Since.run_value (reads : r.Since s t) (same : r.value = some xs) :
    Script.Since s xs t :=
  Reading.Passes.passes_value reads same

@[grind ←]
theorem Reading.Passes.since (reads : r.Passes s t) : r.Since s t :=
  reads

theorem Since.ofOccurrences (run : Since s xs t) : (Reading.ofOccurrences xs).Passes s t :=
  Reading.passes_ofOccurrences run

grind_pattern Since.ofOccurrences => Since s xs t, Reading.ofOccurrences xs

@[grind ←]
theorem Chain.passes_member (passes : Script.Passes s (xs ++ ys) t) :
    (ch.member xs ys).reading.Passes s t := by
  unfold Chain.member
  split
  · exact Reading.passes_ofOccurrences passes
  · exact Reading.passes_ofMember passes

theorem Reading.Passes.withArrow {arrow : Option (Bool × Occurrences)} (reads : r.Passes s t)
    (arrows : ∀ waits occs, arrow = some (waits, occs) → Script.Passes s occs t) :
    Reading.Passes s { r with arrow } t :=
  ⟨reads.moves, reads.value, reads.target, reads.binding, reads.targetItem, reads.bindingItem,
    arrows⟩

end

def LeftPasses (leftSide : Scope → Reader Reading) : Prop :=
  ∀ c s, ⦃fun t => ⌜t = s⌝⦄ leftSide c ⦃⇓? r t => ⌜r.Passes s t⌝⦄

@[spec]
theorem toValue_passes (s : State) (r : Reading) :
    ⦃fun t => ⌜t = s⌝⦄ r.toValue ⦃⇓? occs t => ⌜t = s ∧ r.value = some occs⌝⦄ :=
  ofOption_stays s r.value

section

variable {leftSide : Scope → Reader Reading} (left : LeftPasses leftSide)

include left

theorem left_passes (s : State) (c : Scope) :
    ⦃fun t => ⌜t = s⌝⦄ leftSide c ⦃⇓? r t => ⌜r.Passes s t⌝⦄ :=
  left c s

@[spec]
theorem decorators_passes (s : State) (c : Scope) :
    ⦃fun t => ⌜t = s⌝⦄ decorators leftSide c ⦃⇓? occs t => ⌜Passes s occs t⌝⦄ := by
  refine triple_since fun start => ?_
  mvcgen [decorators, repeatStep_passes, left_passes] <;> grind

variable {self : Recursion} (passes : self.Passes) (s : State)

include passes

@[spec]
theorem classBody_passes (c : Scope) :
    ⦃fun t => ⌜t = s⌝⦄ classBody self leftSide c ⦃⇓? occs t => ⌜Passes s occs t⌝⦄ := by
  refine triple_since fun start => ?_
  mvcgen [classBody, repeatStep_passes] <;> grind

@[spec]
theorem classAfterWord_passes (c : Scope) :
    ⦃fun t => ⌜t = s⌝⦄ classAfterWord self leftSide c ⦃⇓? occs t => ⌜Passes s occs t⌝⦄ := by
  refine triple_since fun start => ?_
  mvcgen [classAfterWord, left_passes] <;> grind

@[spec]
theorem wordExpression_passes (c : Scope) (w : String) (escaped : Bool) :
    ⦃fun t => ⌜t = s⌝⦄ wordExpression self leftSide c w escaped ⦃⇓? r t => ⌜r.Passes s t⌝⦄ := by
  refine triple_ran fun start => ?_
  mvcgen [wordExpression] <;> grind [Ran]

@[spec]
theorem primaryExpression_passes (c : Scope) :
    ⦃fun t => ⌜t = s⌝⦄ primaryExpression self leftSide c ⦃⇓? r t => ⌜r.Passes s t⌝⦄ := by
  refine triple_ran fun start => ?_
  have pattern {rest : List Char} (read : regex? s.text.tail = some rest) :
      Moves s (.ofText rest false) :=
    moves_ofText fun _ => Nat.le_trans (regex?_length read) (List.tail_suffix _).length_le
  mvcgen [primaryExpression] <;> grind [Ran, Succeed.array]

omit left

@[spec]
theorem callItems_passes (c : Scope) :
    ⦃fun t => ⌜t = s⌝⦄ callItems self c ⦃⇓? l t => ⌜Succeed Item.Passes s l.items t⌝⦄ := by
  refine triple_ran (P := fun s (l : Items) t => Succeed Item.Passes s l.items t) fun start => ?_
  mvcgen [callItems] <;> grind [Ran]

@[spec]
theorem chainLink_passes (c : Scope) (calls : Bool) (ch : Chain) :
    ⦃fun t => ⌜t = s⌝⦄ chainLink self c calls ch
    ⦃⇓? l t => ⌜∀ start, ch.reading.Since start s → l.1.reading.Since start t⌝⦄ := by
  mvcgen [chainLink] <;> grind [Reading.Passes.withArrow, Succeed.arrow]

@[spec]
theorem chainRest_passes (c : Scope) (calls : Bool) (ch : Chain) :
    ⦃fun t => ⌜t = s⌝⦄ chainRest self c calls ch
    ⦃⇓? ch' t => ⌜∀ start, ch.reading.Passes start s → ch'.reading.Passes start t⌝⦄ := by
  have keeps := repeatStep_keeps (fun s (ch : Chain) t => ch.reading.Passes s t)
    fun ch s => chainLink_passes passes s c calls ch
  mvcgen [chainRest, keeps]
  grind

include left in
@[spec]
theorem newExpression_passes (c : Scope) (depth : Nat) :
    ⦃fun t => ⌜t = s⌝⦄ newExpression self leftSide c depth ⦃⇓? occs t => ⌜Passes s occs t⌝⦄ := by
  induction depth generalizing s with
  | zero =>
    mvcgen [newExpression]
    grind
  | succ depth ih =>
    refine triple_since fun start => ?_
    mvcgen [newExpression, ih] <;> grind

@[spec]
theorem leftSide_passes (depth : Nat) (c : Scope) :
    ⦃fun t => ⌜t = s⌝⦄ Script.leftSide self depth c ⦃⇓? r t => ⌜r.Passes s t⌝⦄ := by
  induction depth generalizing s c with
  | zero =>
    mvcgen [Script.leftSide]
    grind
  | succ depth ih =>
    have left : LeftPasses (Script.leftSide self depth) := fun c s => ih s c
    refine triple_ran fun start => ?_
    mvcgen [Script.leftSide] <;> grind [Ran]

@[spec]
theorem operand_passes (c : Scope) (bound : Nat) :
    ⦃fun t => ⌜t = s⌝⦄ operand self c bound ⦃⇓? r t => ⌜r.1.Passes s t⌝⦄ := by
  induction bound generalizing s with
  | zero =>
    mvcgen [operand]
    grind
  | succ bound ih =>
    refine triple_ran (P := fun s (r : Reading × Bool) t => r.1.Passes s t) fun start => ?_
    mvcgen [operand, ih] <;> grind [Ran]

@[spec]
theorem operandOrPrivate_passes (c : Scope) (loose : Bool) :
    ⦃fun t => ⌜t = s⌝⦄ operandOrPrivate self c loose ⦃⇓? r t => ⌜r.1.Passes s t⌝⦄ := by
  refine triple_ran (P := fun s (r : Reading × Bool) t => r.1.Passes s t) fun start => ?_
  mvcgen [operandOrPrivate] <;> grind [Ran]

@[spec]
theorem operandStep_passes (c : Scope) (o : Operands) :
    ⦃fun t => ⌜t = s⌝⦄ operandStep self c o
    ⦃⇓? r t => ⌜∀ start, o.reading.Since start s → r.1.reading.Since start t⌝⦄ := by
  mvcgen [operandStep] <;> grind

@[spec]
theorem operands_passes (c : Scope) :
    ⦃fun t => ⌜t = s⌝⦄ operands self c ⦃⇓? r t => ⌜r.Passes s t⌝⦄ := by
  have keeps := repeatStep_keeps (fun s (o : Operands) t => o.reading.Passes s t)
    fun o s => operandStep_passes passes s c o
  refine triple_ran fun start => ?_
  mvcgen [operands, keeps]
  grind [Ran]

@[spec]
theorem conditional_passes (c : Scope) :
    ⦃fun t => ⌜t = s⌝⦄ conditional self c ⦃⇓? r t => ⌜r.Passes s t⌝⦄ := by
  refine triple_ran fun start => ?_
  mvcgen [conditional] <;> grind [Ran]

omit passes in
theorem Reading.Passes.run_arrow {r : Reading} {t : State} {waits : Bool} {ps : Occurrences}
    (reads : r.Passes s t) (same : r.arrow = some (waits, ps)) : Script.Since s ps t :=
  reads.arrow waits ps same

omit passes in
theorem Reading.Passes.assign {r : Reading} {t u : State} {xs ys : Occurrences}
    (reads : r.Passes s t) (target : r.target = some xs) (right : Script.Passes t ys u) :
    Reading.Passes s
      ⟨some (xs ++ ys), none, none, some (xs ++ ys), r.binding.map (· ++ ys), false, none⟩ u :=
  have whole := ((reads.target xs target).append right).offers
  ⟨reads.moves.trans right.moves, whole, offers_none, offers_none, whole,
    reads.binding.append right, nofun⟩

@[spec]
theorem arrowRest_passes (c : Scope) (waits : Bool) (ps : Occurrences) :
    ⦃fun t => ⌜t = s⌝⦄ arrowRest self c waits ps
    ⦃⇓? r t => ⌜∀ start, Since start ps s → r.Passes start t⌝⦄ := by
  mvcgen [arrowRest] <;> grind

@[spec]
theorem yieldExpression_passes (c : Scope) :
    ⦃fun t => ⌜t = s⌝⦄ yieldExpression self c ⦃⇓? r t => ⌜r.Passes s t⌝⦄ := by
  refine triple_ran fun start => ?_
  mvcgen [yieldExpression] <;> grind [Ran]

@[spec]
theorem assignmentExpression_passes (c : Scope) :
    ⦃fun t => ⌜t = s⌝⦄ assignmentExpression self c ⦃⇓? r t => ⌜r.Passes s t⌝⦄ := by
  refine triple_ran fun start => ?_
  mvcgen [assignmentExpression] <;>
    grind [Ran, → Reading.Passes.run_arrow, → Reading.Passes.assign]

@[spec]
theorem commaExpression_passes (c : Scope) :
    ⦃fun t => ⌜t = s⌝⦄ commaExpression self c ⦃⇓? r t => ⌜r.Passes s t⌝⦄ := by
  refine triple_ran fun start => ?_
  mvcgen [commaExpression, repeatStep_since] <;> grind [Ran]

end

end ComponentCompiler.Script
