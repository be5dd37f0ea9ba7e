import Mathlib
import ComponentCompiler.Proofs.Script.Passing.Expressions

namespace ComponentCompiler.Script

open Reader Std.Do

set_option mvcgen.warning false

section

variable (s : State)

@[spec]
theorem startsDeclaration_stays (w : String) (patterns : Bool) :
    ⦃fun t => ⌜t = s⌝⦄ startsDeclaration w patterns ⦃⇓? _ t => ⌜t = s⌝⦄ := by
  mvcgen [startsDeclaration] <;> grind

@[spec]
theorem startsUsing_stays : ⦃fun t => ⌜t = s⌝⦄ startsUsing ⦃⇓? _ t => ⌜t = s⌝⦄ := by
  mvcgen [startsUsing] <;> grind

@[spec]
theorem startsAwaitUsing_stays (c : Scope) :
    ⦃fun t => ⌜t = s⌝⦄ startsAwaitUsing c ⦃⇓? _ t => ⌜t = s⌝⦄ := by
  mvcgen [startsAwaitUsing] <;> grind

@[spec]
theorem startsAsyncFunction_stays :
    ⦃fun t => ⌜t = s⌝⦄ startsAsyncFunction ⦃⇓? _ t => ⌜t = s⌝⦄ := by
  mvcgen [startsAsyncFunction] <;> grind

@[spec]
theorem startsImport_stays : ⦃fun t => ⌜t = s⌝⦄ startsImport ⦃⇓? _ t => ⌜t = s⌝⦄ := by
  mvcgen [startsImport] <;> grind

@[spec]
theorem startsLabel_stays (c : Scope) :
    ⦃fun t => ⌜t = s⌝⦄ startsLabel c ⦃⇓? _ t => ⌜t = s⌝⦄ := by
  mvcgen [startsLabel] <;> grind

@[spec]
theorem variableWord?_moves : ⦃fun t => ⌜t = s⌝⦄ variableWord? ⦃⇓? _ t => ⌜Moves s t⌝⦄ := by
  have start := Since.refl s
  mvcgen [variableWord?] <;> grind

@[spec]
theorem declarationWord?_moves (c : Scope) :
    ⦃fun t => ⌜t = s⌝⦄ declarationWord? c ⦃⇓? _ t => ⌜Moves s t⌝⦄ := by
  have start := Since.refl s
  mvcgen [declarationWord?] <;> grind

@[spec]
theorem jumpRest_moves (c : Scope) :
    ⦃fun t => ⌜t = s⌝⦄ jumpRest c ⦃⇓? _ t => ⌜Moves s t⌝⦄ := by
  refine triple_ran (P := fun s _ t => Moves s t) fun start => ?_
  mvcgen [jumpRest] <;> grind [Ran]

theorem repeatStep_moves {step : Unit → Reader (Unit × Bool)}
    (moves : ∀ u s, ⦃fun t => ⌜t = s⌝⦄ step u
      ⦃⇓? _ t => ⌜∀ start, Since start [] s → Since start [] t⌝⦄) (bound : Nat) :
    ⦃fun t => ⌜t = s⌝⦄ repeatStep step bound () ⦃⇓? _ t => ⌜Moves s t⌝⦄ := by
  have start := Since.refl s
  have keeps := repeatStep_keeps (fun s _ t => Since s [] t) moves
  mvcgen [keeps]
  grind

@[spec]
theorem importAttributes_moves :
    ⦃fun t => ⌜t = s⌝⦄ importAttributes ⦃⇓? _ t => ⌜Moves s t⌝⦄ := by
  refine triple_ran (P := fun s _ t => Moves s t) fun start => ?_
  mvcgen [importAttributes, repeatStep_moves] <;> grind [Ran]

@[spec]
theorem sourceRest_moves :
    ⦃fun t => ⌜t = s⌝⦄ sourceRest ⦃⇓? _ t => ⌜Moves s t⌝⦄ := by
  refine triple_ran (P := fun s _ t => Moves s t) fun start => ?_
  mvcgen [sourceRest]
  grind [Ran]

end

def PassesAny (s : State) : Option Occurrences → State → Prop
  | none, t => Moves s t
  | some occs, t => Passes s occs t

section

variable {s t : State} {o : Option Occurrences} {xs : Occurrences}

theorem PassesAny.moves (passes : PassesAny s o t) : Moves s t := by
  cases o with
  | none => exact passes
  | some _ => exact Passes.moves passes

@[grind →]
theorem PassesAny.moves_none (passes : PassesAny s o t) (_ : o = none) : Moves s t :=
  passes.moves

@[grind →]
theorem PassesAny.passes_some (passes : PassesAny s o t) (same : o = some xs) :
    Passes s xs t := by
  subst same
  exact passes

@[grind ←]
theorem Moves.passesAny (moves : Moves s t) : PassesAny s none t :=
  moves

@[grind ←]
theorem Passes.passesAny (passes : Passes s xs t) : PassesAny s (some xs) t :=
  passes

end

section

variable (s : State)

@[spec]
theorem importItem_passes :
    ⦃fun t => ⌜t = s⌝⦄ importItem ⦃⇓? occs t => ⌜Passes s occs t⌝⦄ := by
  refine triple_since fun start => ?_
  mvcgen [importItem] <;> grind [passes_word]

@[spec]
theorem namespaceImport_passes :
    ⦃fun t => ⌜t = s⌝⦄ namespaceImport ⦃⇓? occs t => ⌜Passes s occs t⌝⦄ := by
  refine triple_since fun start => ?_
  mvcgen [namespaceImport]
  grind

@[spec]
theorem importList_passes :
    ⦃fun t => ⌜t = s⌝⦄ braceList importItem ⦃⇓? occs t => ⌜Passes s occs t⌝⦄ := by
  refine triple_since fun start => ?_
  mvcgen [braceList, repeatStep_passes] <;> grind

@[spec]
theorem importRest_passes :
    ⦃fun t => ⌜t = s⌝⦄ importRest ⦃⇓? occs t => ⌜Passes s occs t⌝⦄ := by
  refine triple_since fun start => ?_
  mvcgen [importRest] <;> grind

@[spec]
theorem exportItem_passes :
    ⦃fun t => ⌜t = s⌝⦄ exportItem ⦃⇓? item t => ⌜Passes s item.1.toList t⌝⦄ := by
  refine triple_since fun start => ?_
  mvcgen [exportItem] <;> grind [passes_word]

def exportedNames (l : List (Option Occurrence × Bool)) : Occurrences :=
  l.filterMap (·.1)

@[spec]
theorem exportList_passes :
    ⦃fun t => ⌜t = s⌝⦄ exportList ⦃⇓? occs t => ⌜Passes s occs t⌝⦄ := by
  refine triple_since fun start => ?_
  have gathers := @repeatStep_gathers _ exportedNames
  mvcgen [exportList, gathers] <;> grind [exportedNames, → Since.moves]

end

section

variable {self : Recursion} (passes : self.Passes) (s : State)

include passes

@[spec]
theorem declared_passes (c : Scope) :
    ⦃fun t => ⌜t = s⌝⦄ declared self c ⦃⇓? d t => ⌜Passes s d.1 t⌝⦄ := by
  have left : LeftPasses fun _ => fail := fun _ s => by
    mvcgen
    grind
  refine triple_since fun start => ?_
  mvcgen [declared] <;> grind

@[spec]
theorem declarators_passes (c : Scope) (constant : Bool) :
    ⦃fun t => ⌜t = s⌝⦄ declarators self c constant ⦃⇓? d t => ⌜Passes s d.occs t⌝⦄ := by
  refine triple_since fun start => ?_
  have gathers := @repeatStep_gathers _ Declaration.occs
  mvcgen [declarators, gathers] <;> grind

@[spec]
theorem declarationStatement_passes (c : Scope) (constant : Bool) :
    ⦃fun t => ⌜t = s⌝⦄ declarationStatement self c constant
    ⦃⇓? occs t => ⌜Passes s occs t⌝⦄ := by
  refine triple_since fun start => ?_
  mvcgen [declarationStatement]
  grind

@[spec]
theorem condition_passes (c : Scope) :
    ⦃fun t => ⌜t = s⌝⦄ condition self c ⦃⇓? occs t => ⌜Passes s occs t⌝⦄ := by
  refine triple_since fun start => ?_
  mvcgen [condition]
  grind

@[spec]
theorem blockStatement_passes (c : Scope) :
    ⦃fun t => ⌜t = s⌝⦄ blockStatement self c ⦃⇓? occs t => ⌜Passes s occs t⌝⦄ := by
  refine triple_since fun start => ?_
  mvcgen [blockStatement] <;> grind

@[spec]
theorem loopParts_passes (c : Scope) :
    ⦃fun t => ⌜t = s⌝⦄ loopParts self c ⦃⇓? occs t => ⌜Passes s occs t⌝⦄ := by
  refine triple_since fun start => ?_
  mvcgen [loopParts] <;> grind

@[spec]
theorem loopOver?_passes (c : Scope) (onlyOf : Bool) :
    ⦃fun t => ⌜t = s⌝⦄ loopOver? self c onlyOf
    ⦃⇓? occs t => ⌜PassesAny s occs t⌝⦄ := by
  refine triple_ran fun start => ?_
  mvcgen [loopOver?] <;> grind [Ran]

@[spec]
theorem declaringLoop_passes (c : Scope) (waits constant : Bool) :
    ⦃fun t => ⌜t = s⌝⦄ declaringLoop self c waits constant
    ⦃⇓? occs t => ⌜Passes s occs t⌝⦄ := by
  refine triple_since fun start => ?_
  mvcgen [declaringLoop] <;> grind

@[spec]
theorem expressionLoop_passes (c : Scope) (waits : Bool) :
    ⦃fun t => ⌜t = s⌝⦄ expressionLoop self c waits ⦃⇓? occs t => ⌜Passes s occs t⌝⦄ := by
  refine triple_since fun start => ?_
  mvcgen [expressionLoop, reading_passes] <;> grind [→ PassesAny.moves]

@[spec]
theorem forRest_passes (c : Scope) :
    ⦃fun t => ⌜t = s⌝⦄ forRest self c ⦃⇓? occs t => ⌜Passes s occs t⌝⦄ := by
  refine triple_since fun start => ?_
  mvcgen [forRest] <;> grind

@[spec]
theorem switchBody_passes (c : Scope) :
    ⦃fun t => ⌜t = s⌝⦄ switchBody self c ⦃⇓? occs t => ⌜Passes s occs t⌝⦄ := by
  refine triple_since fun start => ?_
  mvcgen [switchBody, repeatStep_passes] <;> grind

@[spec]
theorem tryRest_passes (c : Scope) :
    ⦃fun t => ⌜t = s⌝⦄ tryRest self c ⦃⇓? occs t => ⌜Passes s occs t⌝⦄ := by
  refine triple_since fun start => ?_
  mvcgen [tryRest] <;> grind [→ Moves.trans]

@[spec]
theorem wordStatement?_passes (c : Scope) (w : String) :
    ⦃fun t => ⌜t = s⌝⦄ wordStatement? self c w
    ⦃⇓? occs t => ⌜PassesAny s occs t⌝⦄ := by
  refine triple_ran fun start => ?_
  mvcgen [wordStatement?] <;> grind [Ran]

@[spec]
theorem functionStatement_passes (c : Scope) (waits named : Bool) :
    ⦃fun t => ⌜t = s⌝⦄ functionStatement self c waits named
    ⦃⇓? occs t => ⌜Passes s occs t⌝⦄ := by
  refine triple_since fun start => ?_
  mvcgen [functionStatement] <;> grind

@[spec]
theorem decoratedClass_passes (c : Scope) :
    ⦃fun t => ⌜t = s⌝⦄ decoratedClass self c ⦃⇓? occs t => ⌜Passes s occs t⌝⦄ := by
  have left (depth : Nat) : LeftPasses (leftSide self depth) :=
    fun c s => leftSide_passes passes s depth c
  refine triple_since fun start => ?_
  mvcgen [decoratedClass] <;> grind

@[spec]
theorem definition?_passes (c : Scope) (alone named : Bool) :
    ⦃fun t => ⌜t = s⌝⦄ definition? self c alone named
    ⦃⇓? occs t => ⌜PassesAny s occs t⌝⦄ := by
  refine triple_ran fun start => ?_
  mvcgen [definition?] <;> grind [Ran]

@[spec]
theorem exportRest_passes (c : Scope) :
    ⦃fun t => ⌜t = s⌝⦄ exportRest self c ⦃⇓? occs t => ⌜Passes s occs t⌝⦄ := by
  refine triple_since fun start => ?_
  mvcgen [exportRest] <;> grind

@[spec]
theorem decoratedStatement_passes (c : Scope) :
    ⦃fun t => ⌜t = s⌝⦄ decoratedStatement self c ⦃⇓? occs t => ⌜Passes s occs t⌝⦄ := by
  have left (depth : Nat) : LeftPasses (leftSide self depth) :=
    fun c s => leftSide_passes passes s depth c
  refine triple_since fun start => ?_
  mvcgen [decoratedStatement] <;> grind

@[spec]
theorem linkage?_passes (c : Scope) :
    ⦃fun t => ⌜t = s⌝⦄ linkage? self c ⦃⇓? occs t => ⌜PassesAny s occs t⌝⦄ := by
  refine triple_ran fun start => ?_
  mvcgen [linkage?] <;> grind [Ran]

@[spec]
theorem statement_passes (c : Scope) (alone : Bool) :
    ⦃fun t => ⌜t = s⌝⦄ statement self c alone ⦃⇓? occs t => ⌜Passes s occs t⌝⦄ := by
  refine triple_since fun start => ?_
  mvcgen [statement] <;> grind [→ Moves.trans]

end

theorem readGoal_passes (depth : Nat) : (readGoal depth).Passes := by
  induction depth with
  | zero =>
    intro g c s
    mvcgen [readGoal]
    grind
  | succ depth ih =>
    intro g c s
    cases g with
    | expression => exact commaExpression_passes ih s c
    | assignment => exact assignmentExpression_passes ih s c
    | statement alone =>
      mvcgen [readGoal]
      grind

theorem statements_passes (depth : Nat) (s : State) :
    ⦃fun t => ⌜t = s⌝⦄ statements depth ⦃⇓? occs t => ⌜Passes s occs t⌝⦄ := by
  have passes := readGoal_passes depth
  refine triple_since fun start => ?_
  mvcgen [statements, repeatStep_passes] <;> grind

theorem withoutInterpreter_length (cs : List Char) :
    (withoutInterpreter cs).length ≤ cs.length := by
  unfold withoutInterpreter
  split
  next rest =>
    have := (List.dropWhile_suffix (l := rest) (!isLineEnd ·)).length_le
    simp only [List.length_cons]
    omega
  next => exact Nat.le_refl _

theorem occurrences?_between {cs : List Char} {occs : Occurrences}
    (parsed : occurrences? cs = some occs) : Between cs.length 0 occs := by
  unfold occurrences? at parsed
  dsimp only at parsed
  split at parsed
  next found t run =>
    obtain ⟨rfl⟩ : found = occs := by
      split at parsed
      · exact Option.some.inj parsed
      · cases parsed
    have passes := triple_iff.1 (statements_passes _ _) _ _ run
    obtain ⟨-, between⟩ := passes (formed_ofText _ _)
    have inside := Nat.le_trans (length_ofText (withoutInterpreter cs) true)
      (withoutInterpreter_length cs)
    have whole := (Between.nil inside).append (between.append (.nil (Nat.zero_le _)))
    rwa [List.append_nil] at whole
  next => cases parsed

end ComponentCompiler.Script
