import Mathlib
import ComponentCompiler.Proofs.Script.Lexing
import ComponentCompiler.Script.Statements

/-!
# What readers pass

A reader of a script goes forward only, and the occurrences that it reports stand one after another
between the place where it starts and the place where it ends.
-/

namespace ComponentCompiler.Script

open Reader Std.Do

set_option mvcgen.warning false

/-! ## Places -/

/-- Occurrences stand one after another between two places, which are counted from the end. -/
structure Between (hi lo : Nat) (occs : Occurrences) : Prop where
  le : lo ≤ hi
  within : ∀ o ∈ occs, 0 < o.width ∧ lo + o.width ≤ o.ahead ∧ o.ahead ≤ hi
  apart : occs.Pairwise fun o p => p.ahead + o.width ≤ o.ahead

theorem Between.nil {hi lo : Nat} (le : lo ≤ hi) : Between hi lo [] :=
  ⟨le, nofun, .nil⟩

theorem Between.append {hi mid lo : Nat} {xs ys : Occurrences} (first : Between hi mid xs)
    (second : Between mid lo ys) : Between hi lo (xs ++ ys) where
  le := Nat.le_trans second.le first.le
  within o member := by
    have := first.le
    have := second.le
    rcases List.mem_append.1 member with member | member
    · have := first.within o member
      omega
    · have := second.within o member
      omega
  apart := List.pairwise_append.2 ⟨first.apart, second.apart, fun o left p right => by
    have := first.within o left
    have := second.within p right
    omega⟩

theorem Between.tail {hi lo : Nat} {o : Occurrence} {occs : Occurrences}
    (between : Between hi lo (o :: occs)) : Between (o.ahead - o.width) lo occs where
  le := by
    have := between.within o (by simp)
    omega
  within p member := by
    have first := between.within p (List.mem_cons_of_mem _ member)
    have apart := List.rel_of_pairwise_cons between.apart member
    omega
  apart := between.apart.of_cons

/-- The token of a state leaves no more than there was, and a word leaves less. -/
structure State.Formed (s : State) : Prop where
  after_le : s.after.length ≤ s.text.length
  word_lt : ∀ w escaped, s.token = .word w escaped → s.after.length < s.text.length

theorem formed_ofText (cs : List Char) (newLine : Bool) : (State.ofText cs newLine).Formed := by
  rw [State.ofText]
  split
  next text _ => exact ⟨scanToken_length text, fun _ _ word => scanToken_word word⟩
  next => exact ⟨Nat.zero_le _, nofun⟩

theorem length_ofText (cs : List Char) (newLine : Bool) :
    (State.ofText cs newLine).text.length ≤ cs.length := by
  rw [State.ofText]
  split
  next skipped => exact skipGap_length skipped
  next => exact Nat.le_refl _

/-- A reader goes from one state to another past the occurrences. -/
def Passes (s : State) (occs : Occurrences) (t : State) : Prop :=
  s.Formed → t.Formed ∧ Between s.text.length t.text.length occs

def Moves (s t : State) : Prop :=
  Passes s [] t

section

variable {s t u : State} {xs ys : Occurrences}

theorem Passes.append (first : Passes s xs t) (second : Passes t ys u) : Passes s (xs ++ ys) u :=
  fun formed =>
    have ⟨middle, front⟩ := first formed
    have ⟨final, back⟩ := second middle
    ⟨final, front.append back⟩

theorem Passes.move (first : Passes s xs t) (moves : Moves t u) : Passes s xs u := by
  have passes := first.append moves
  rwa [List.append_nil] at passes

theorem Passes.moves (passes : Passes s xs t) : Moves s t := fun formed =>
  have ⟨final, between⟩ := passes formed
  ⟨final, .nil between.le⟩

theorem Moves.refl (s : State) : Moves s s :=
  fun formed => ⟨formed, .nil (Nat.le_refl _)⟩

theorem Moves.trans (first : Moves s t) (second : Moves t u) : Moves s u :=
  Passes.append first second

theorem Moves.passes (moves : Moves s t) (passes : Passes t xs u) : Passes s xs u :=
  Passes.append moves passes

theorem moves_ofText {rest : List Char} (less : s.Formed → rest.length ≤ s.text.length) :
    Moves s (.ofText rest false) := fun formed =>
  ⟨formed_ofText rest false, .nil (Nat.le_trans (length_ofText rest false) (less formed))⟩

theorem moves_next (s : State) : Moves s (.ofText s.after false) :=
  moves_ofText State.Formed.after_le

theorem passes_word {w : String} {escaped : Bool} (word : s.token = .word w escaped) (name : String)
    (role : Role) :
    Passes s [⟨name, s.text.length, s.text.length - s.after.length, role⟩]
      (.ofText s.after false) := by
  intro formed
  have less := formed.word_lt w escaped word
  have := length_ofText s.after false
  refine ⟨formed_ofText _ _, by omega, fun o member => ?_, List.pairwise_singleton ..⟩
  obtain rfl := List.mem_singleton.1 member
  simp only
  omega

theorem Passes.withRole {o : Occurrence} (passes : Passes s [o] t) (role : Role) :
    Passes s [{ o with role }] t := by
  intro formed
  obtain ⟨final, le, within, -⟩ := passes formed
  refine ⟨final, le, fun p member => ?_, List.pairwise_singleton ..⟩
  obtain rfl := List.mem_singleton.1 member
  exact within o (List.mem_singleton.2 rfl)

end

/-! ## Alternatives and readings -/

def Offers (s : State) (alternative : Option Occurrences) (t : State) : Prop :=
  ∀ occs, alternative = some occs → Passes s occs t

structure Reading.Passes (s : State) (r : Reading) (t : State) : Prop where
  moves : Moves s t
  value : Offers s r.value t
  target : Offers s r.target t
  binding : Offers s r.binding t
  targetItem : Offers s r.targetItem t
  bindingItem : Offers s r.bindingItem t
  arrow : ∀ waits occs, r.arrow = some (waits, occs) → Script.Passes s occs t

section

variable {s t u : State} {xs ys : Occurrences} {o : Option Occurrences} {r : Reading}

theorem offers_none : Offers s none t :=
  nofun

theorem Passes.offers (passes : Passes s xs t) : Offers s (some xs) t := by
  rintro _ ⟨⟩
  exact passes

theorem Offers.move (offers : Offers s o t) (moves : Moves t u) : Offers s o u :=
  fun occs same => (offers occs same).move moves

theorem Moves.offers (moves : Moves s t) (offers : Offers t o u) : Offers s o u :=
  fun occs same => moves.passes (offers occs same)

theorem offers_ite {p : Prop} [Decidable p] {o' : Option Occurrences} (yes : Offers s o t)
    (no : Offers s o' t) : Offers s (if p then o else o') t := by
  split
  · exact yes
  · exact no

theorem Passes.offers_withDefault (passes : Passes s xs t) (offers : Offers t o u) :
    Offers s (withDefault xs o) u := by
  intro occs same
  obtain ⟨_, found, rfl⟩ := Option.map_eq_some_iff.1 same
  exact passes.append (offers _ found)

theorem Offers.append (offers : Offers s o t) (passes : Passes t ys u) :
    Offers s (o.map (· ++ ys)) u := by
  intro occs same
  obtain ⟨_, found, rfl⟩ := Option.map_eq_some_iff.1 same
  exact (offers _ found).append passes

theorem Reading.Passes.move (reads : r.Passes s t) (moves : Moves t u) : r.Passes s u where
  moves := reads.moves.trans moves
  value := reads.value.move moves
  target := reads.target.move moves
  binding := reads.binding.move moves
  targetItem := reads.targetItem.move moves
  bindingItem := reads.bindingItem.move moves
  arrow waits occs same := (reads.arrow waits occs same).move moves

theorem Moves.reading (moves : Moves s t) (reads : r.Passes t u) : r.Passes s u where
  moves := moves.trans reads.moves
  value := moves.offers reads.value
  target := moves.offers reads.target
  binding := moves.offers reads.binding
  targetItem := moves.offers reads.targetItem
  bindingItem := moves.offers reads.bindingItem
  arrow waits occs same := moves.passes (reads.arrow waits occs same)

theorem Reading.passes_ofValue (moves : Moves s t) (offers : Offers s o t) :
    (Reading.ofValue o).Passes s t :=
  ⟨moves, offers, offers_none, offers_none, offers_none, offers_none, nofun⟩

theorem Reading.passes_ofOccurrences (passes : Script.Passes s xs t) :
    (Reading.ofOccurrences xs).Passes s t :=
  Reading.passes_ofValue passes.moves passes.offers

theorem Reading.passes_ofMember (passes : Script.Passes s xs t) :
    (Reading.ofMember xs).Passes s t :=
  ⟨passes.moves, passes.offers, passes.offers, offers_none, passes.offers, offers_none, nofun⟩

theorem Reading.passes_ofVariable {v : Occurrence} (passes : Script.Passes s [v] t) :
    (Reading.ofVariable v).Passes s t where
  moves := passes.moves
  value := passes.offers
  target := passes.offers
  binding := passes.offers
  targetItem := passes.offers
  bindingItem := passes.offers
  arrow _ _ same := by
    cases same
    exact passes

end

/-! ## Parts in a row -/

def Succeed {α : Type} (P : State → α → State → Prop) (s : State) : List α → State → Prop
  | [], t => Moves s t
  | a :: rest, t => ∃ u, P s a u ∧ Succeed P u rest t

def Item.Passes (s : State) : Item → State → Prop
  | .hole, t => Moves s t
  | .plain r, t => r.Passes s t
  | .spread r, t => r.Passes s t

section

variable {α : Type} {P : State → α → State → Prop} {s t u : State} {l : List α}

theorem Succeed.move (succeed : Succeed P s l t) (moves : Moves t u) : Succeed P s l u := by
  induction l generalizing s with
  | nil => exact Moves.trans succeed moves
  | cons a rest ih =>
    obtain ⟨v, here, later⟩ := succeed
    exact ⟨v, here, ih later⟩

theorem Succeed.moves (each : ∀ {s a t}, P s a t → Moves s t) (succeed : Succeed P s l t) :
    Moves s t := by
  induction l generalizing s with
  | nil => exact succeed
  | cons a rest ih =>
    obtain ⟨v, here, later⟩ := succeed
    exact (each here).trans (ih later)

theorem Succeed.after (after : ∀ {s a t u}, Moves s t → P t a u → P s a u)
    (succeed : Succeed P t l u) (moves : Moves s t) : Succeed P s l u := by
  cases l with
  | nil => exact moves.trans succeed
  | cons a rest =>
    obtain ⟨v, here, later⟩ := succeed
    exact ⟨v, after moves here, later⟩

theorem Succeed.concat (after : ∀ {s a t u}, Moves s t → P t a u → P s a u) {a : α}
    (succeed : Succeed P s l t) (last : P t a u) : Succeed P s (l ++ [a]) u := by
  induction l generalizing s with
  | nil => exact ⟨u, after succeed last, .refl u⟩
  | cons b rest ih =>
    obtain ⟨v, here, later⟩ := succeed
    exact ⟨v, here, ih later⟩

theorem Succeed.offers_join {f : α → Option Occurrences}
    (each : ∀ {s a t}, P s a t → Offers s (f a) t) (succeed : Succeed P s l t) :
    Offers s (joinReadings (l.map f)) t := by
  induction l generalizing s with
  | nil => exact Passes.offers succeed
  | cons a rest ih =>
    obtain ⟨u, here, later⟩ := succeed
    intro occs joined
    rw [List.map_cons] at joined
    cases read : f a with
    | none =>
      rw [read] at joined
      cases joined
    | some front =>
      rw [read] at joined
      exact (each here front read).offers_withDefault (ih later) occs joined

end

section

variable {s t u : State} {l : List Item} {r : Reading}

theorem Item.Passes.moves {i : Item} (passes : i.Passes s t) : Moves s t := by
  cases i with
  | hole => exact passes
  | plain r => exact Reading.Passes.moves passes
  | spread r => exact Reading.Passes.moves passes

theorem Moves.item {i : Item} (moves : Moves s t) (passes : i.Passes t u) : i.Passes s u := by
  cases i with
  | hole => exact moves.trans passes
  | plain r => exact moves.reading passes
  | spread r => exact moves.reading passes

theorem offers_pattern {plain spread : Reading → Option Occurrences} {trailing : Bool}
    (plains : ∀ {r : Reading} {s t}, r.Passes s t → Offers s (plain r) t)
    (spreads : ∀ {r : Reading} {s t}, r.Passes s t → Offers s (spread r) t)
    (succeed : Succeed Item.Passes s l t) :
    Offers s (Items.pattern plain spread trailing l) t := by
  fun_induction Items.pattern plain spread trailing l generalizing s with
  | case1 => exact Passes.offers succeed
  | case2 => exact offers_none
  | case3 r _ =>
    obtain ⟨u, here, rest⟩ := succeed
    exact (spreads here).move rest
  | case4 => exact offers_none
  | case5 rest ih =>
    obtain ⟨u, here, later⟩ := succeed
    exact Moves.offers here (ih later)
  | case6 r rest ih =>
    obtain ⟨u, here, later⟩ := succeed
    intro occs read
    obtain ⟨front, first, further⟩ := Option.bind_eq_some_iff.1 read
    exact (plains here front first).offers_withDefault (ih later) occs further

theorem Succeed.bindings {l : Items} (succeed : Succeed Item.Passes s l.items t) :
    Offers s l.bindings t :=
  offers_pattern Reading.Passes.bindingItem Reading.Passes.binding succeed

theorem Succeed.arrow {l : Items} {w waits : Bool} {occs : Occurrences}
    (succeed : Succeed Item.Passes s l.items t)
    (same : (l.bindings.map fun occs => (w, occs)) = some (waits, occs)) : Passes s occs t := by
  obtain ⟨_, found, paired⟩ := Option.map_eq_some_iff.1 same
  cases paired
  exact succeed.bindings _ found

theorem Succeed.targets {l : Items} (succeed : Succeed Item.Passes s l.items t) :
    Offers s l.targets t :=
  offers_pattern Reading.Passes.targetItem Reading.Passes.target succeed

theorem Succeed.values {l : Items} (succeed : Succeed Item.Passes s l.items t) :
    Offers s l.values t := by
  refine Succeed.offers_join (fun {s i t} passes => ?_) succeed
  cases i with
  | hole => exact Passes.offers passes
  | plain r => exact Reading.Passes.value passes
  | spread r => exact Reading.Passes.value passes

end

/-! ## A run

Automation makes a run longer part by part from its start, and does not put other parts together.
-/

def Since (s : State) (occs : Occurrences) (t : State) : Prop :=
  Passes s occs t

section

variable {s t u : State} {xs ys : Occurrences} {o : Option Occurrences} {r : Reading}

theorem Since.refl (s : State) : Since s [] s :=
  Moves.refl s

@[grind →]
theorem Since.append (run : Since s xs t) (passes : Passes t ys u) : Since s (xs ++ ys) u :=
  Passes.append run passes

@[grind →]
theorem Since.move (run : Since s xs t) (moves : Moves t u) : Since s xs u :=
  Passes.move run moves

@[grind ←]
theorem Since.passes (run : Since s xs t) : Passes s xs t :=
  run

theorem Since.moves (run : Since s xs t) : Moves s t :=
  Passes.moves run

grind_pattern Since.moves => Since s xs t, Moves s t

@[grind →]
theorem Since.reading (run : Since s [] t) (reads : r.Passes t u) : r.Passes s u :=
  Moves.reading run reads

theorem Since.offers_withDefault (run : Since s xs t) (offers : Offers t o u) :
    Offers s (withDefault xs o) u :=
  Passes.offers_withDefault run offers

grind_pattern Since.offers_withDefault => Offers s (withDefault xs o) u, Since s xs t, Offers t o u

@[grind →]
theorem Since.items {l : List Item} (run : Since s [] t) (succeed : Succeed Item.Passes t l u) :
    Succeed Item.Passes s l u :=
  succeed.after Moves.item run

@[grind →]
theorem Reading.Passes.passes_value (reads : r.Passes s t) (same : r.value = some xs) :
    Script.Passes s xs t :=
  reads.value xs same

@[grind →]
theorem Offers.passes (offers : Offers s o t) (same : o = some xs) : Passes s xs t :=
  offers xs same

@[grind →]
theorem Succeed.concat_reading {l : List Item} (succeed : Succeed Item.Passes s l t)
    (reads : r.Passes t u) :
    Succeed Item.Passes s (l ++ [.plain r]) u ∧ Succeed Item.Passes s (l ++ [.spread r]) u :=
  ⟨succeed.concat (P := Item.Passes) (a := .plain r) Moves.item reads,
    succeed.concat (P := Item.Passes) (a := .spread r) Moves.item reads⟩

@[grind →]
theorem Succeed.concat_hole {l : List Item} (succeed : Succeed Item.Passes s l t)
    (moves : Moves t u) : Succeed Item.Passes s (l ++ [.hole]) u :=
  succeed.concat (P := Item.Passes) (a := .hole) Moves.item moves

@[grind →]
theorem Succeed.items_moves {l : List Item} (succeed : Succeed Item.Passes s l t) : Moves s t :=
  succeed.moves Item.Passes.moves

end

grind_pattern moves_next => State.ofText s.after false

attribute [grind .] offers_none

attribute [grind →] Reading.Passes.moves Reading.Passes.value Reading.Passes.target
  Reading.Passes.binding Reading.Passes.targetItem Reading.Passes.bindingItem Reading.Passes.move
  Succeed.move Succeed.bindings Succeed.targets Succeed.values

attribute [grind ←] Passes.offers Reading.passes_ofValue Reading.passes_ofOccurrences
  Reading.passes_ofMember Reading.passes_ofVariable

/-! ## Readers of one token -/

theorem triple_iff {α : Type} {r : Reader α} {Q : α → State → Prop} {s : State} :
    ⦃fun t => ⌜t = s⌝⦄ r ⦃⇓? a t => ⌜Q a t⌝⦄ ↔ ∀ a t, r s = some (a, t) → Q a t := by
  have run : (wp⟦r⟧ (PostCond.mayThrow fun a t => ⌜Q a t⌝) s).down ↔
      ∀ a t, r s = some (a, t) → Q a t := by
    change (wp⟦r s⟧ (fun found => ⌜Q found.1 found.2⌝, ExceptConds.true)).down ↔ _
    cases r s with
    | none => exact ⟨fun _ => nofun, fun _ => True.intro⟩
    | some found =>
      refine ⟨fun holds a t same => ?_, fun holds => holds _ _ rfl⟩
      cases same
      exact holds
  constructor
  · exact fun triple => run.1 (triple s rfl)
  · intro holds t same
    cases same
    exact run.2 holds

section

variable (s : State)

@[spec]
theorem fail_false {α : Type} : ⦃fun t => ⌜t = s⌝⦄ (fail : Reader α) ⦃⇓? _ _ => ⌜False⌝⦄ :=
  triple_iff.2 fun _ _ run => nomatch run

@[spec]
theorem ofOption_stays {α : Type} (value : Option α) :
    ⦃fun t => ⌜t = s⌝⦄ ofOption value ⦃⇓? a t => ⌜t = s ∧ value = some a⌝⦄ := by
  refine triple_iff.2 fun a t run => ?_
  obtain ⟨_, found, same⟩ := Option.map_eq_some_iff.1 run
  cases same
  exact ⟨rfl, found⟩

@[spec]
theorem peek_stays {α : Type} (r : Reader α) :
    ⦃fun t => ⌜t = s⌝⦄ peek r ⦃⇓? _ t => ⌜t = s⌝⦄ := by
  refine triple_iff.2 fun a t run => ?_
  obtain ⟨_, _, same⟩ := Option.map_eq_some_iff.1 run
  cases same
  rfl

@[spec]
theorem advance_next : ⦃fun t => ⌜t = s⌝⦄ advance ⦃⇓? _ t => ⌜t = .ofText s.after false⌝⦄ := by
  mvcgen [advance]
  grind

@[spec]
theorem token_stays : ⦃fun t => ⌜t = s⌝⦄ token ⦃⇓? a t => ⌜t = s ∧ s.token = a⌝⦄ := by
  mvcgen [token]
  grind

@[spec]
theorem newLine_stays : ⦃fun t => ⌜t = s⌝⦄ newLine ⦃⇓? _ t => ⌜t = s⌝⦄ := by
  mvcgen [newLine]

@[spec]
theorem bound_stays : ⦃fun t => ⌜t = s⌝⦄ bound ⦃⇓? _ t => ⌜t = s⌝⦄ := by
  mvcgen [bound]

@[spec]
theorem isMark_stays (m : String) : ⦃fun t => ⌜t = s⌝⦄ isMark m ⦃⇓? _ t => ⌜t = s⌝⦄ := by
  mvcgen [isMark]

@[spec]
theorem isOneMark_stays (ms : List String) :
    ⦃fun t => ⌜t = s⌝⦄ isOneMark ms ⦃⇓? _ t => ⌜t = s⌝⦄ := by
  mvcgen [isOneMark]

@[spec]
theorem isWord_stays (w : String) : ⦃fun t => ⌜t = s⌝⦄ isWord w ⦃⇓? _ t => ⌜t = s⌝⦄ := by
  mvcgen [isWord]

@[spec]
theorem next_stays : ⦃fun t => ⌜t = s⌝⦄ Reader.next ⦃⇓? _ t => ⌜t = s⌝⦄ :=
  peek_stays s _

@[spec]
theorem occurrence_stays (name : String) (role : Role) :
    ⦃fun t => ⌜t = s⌝⦄ occurrence name role
    ⦃⇓? o t => ⌜t = s ∧ o = ⟨name, s.text.length, s.text.length - s.after.length, role⟩⌝⦄ := by
  mvcgen [occurrence]
  grind

@[spec]
theorem accept_moves (m : String) : ⦃fun t => ⌜t = s⌝⦄ accept m ⦃⇓? _ t => ⌜Moves s t⌝⦄ := by
  have start := Since.refl s
  mvcgen [accept] <;> grind

@[spec]
theorem expect_moves (m : String) : ⦃fun t => ⌜t = s⌝⦄ expect m ⦃⇓? _ t => ⌜Moves s t⌝⦄ := by
  mvcgen [expect] <;> grind

@[spec]
theorem acceptWord_moves (w : String) :
    ⦃fun t => ⌜t = s⌝⦄ acceptWord w ⦃⇓? _ t => ⌜Moves s t⌝⦄ := by
  have start := Since.refl s
  mvcgen [acceptWord] <;> grind

@[spec]
theorem expectWord_moves (w : String) :
    ⦃fun t => ⌜t = s⌝⦄ expectWord w ⦃⇓? _ t => ⌜Moves s t⌝⦄ := by
  mvcgen [expectWord] <;> grind

@[spec]
theorem semicolon_moves : ⦃fun t => ⌜t = s⌝⦄ semicolon ⦃⇓? _ t => ⌜Moves s t⌝⦄ := by
  have start := Since.refl s
  mvcgen [semicolon] <;> grind

@[spec]
theorem variableName_passes (c : Scope) (role : Role) :
    ⦃fun t => ⌜t = s⌝⦄ variableName c role ⦃⇓? o t => ⌜Passes s [o] t⌝⦄ := by
  mvcgen [variableName] <;> grind [passes_word]

end

/-! ## Whole readers -/

theorem triple_since {α : Type} {r : Reader α} {f : α → Occurrences} {s : State}
    (run : Since s [] s → ⦃fun t => ⌜t = s⌝⦄ r ⦃⇓? a t => ⌜Since s (f a) t⌝⦄) :
    ⦃fun t => ⌜t = s⌝⦄ r ⦃⇓? a t => ⌜Passes s (f a) t⌝⦄ :=
  run (Since.refl s)

def Ran {α : Type} (P : State → α → State → Prop) (s : State) (a : α) (t : State) : Prop :=
  P s a t

theorem triple_ran {α : Type} {r : Reader α} {P : State → α → State → Prop} {s : State}
    (run : Since s [] s → ⦃fun t => ⌜t = s⌝⦄ r ⦃⇓? a t => ⌜Ran P s a t⌝⦄) :
    ⦃fun t => ⌜t = s⌝⦄ r ⦃⇓? a t => ⌜P s a t⌝⦄ :=
  run (Since.refl s)

/-! ## Repetition -/

theorem repeatStep_keeps {σ : Type} {step : σ → Reader (σ × Bool)} (P : State → σ → State → Prop)
    (keeps : ∀ x s, ⦃fun t => ⌜t = s⌝⦄ step x ⦃⇓? r t => ⌜∀ start, P start x s → P start r.1 t⌝⦄)
    (bound : Nat) (x : σ) (s : State) :
    ⦃fun t => ⌜t = s⌝⦄ repeatStep step bound x ⦃⇓? y t => ⌜∀ start, P start x s → P start y t⌝⦄ := by
  induction bound generalizing x s with
  | zero =>
    mvcgen [repeatStep]
    grind
  | succ bound ih => mvcgen [repeatStep, keeps, ih] <;> grind

theorem repeatStep_gathers {σ : Type} (f : σ → Occurrences) {step : σ → Reader (σ × Bool)}
    (adds : ∀ x s, ⦃fun t => ⌜t = s⌝⦄ step x
      ⦃⇓? r t => ⌜∀ start, Since start (f x) s → Since start (f r.1) t⌝⦄)
    (bound : Nat) (x : σ) (s : State) :
    ⦃fun t => ⌜t = s⌝⦄ repeatStep step bound x
    ⦃⇓? y t => ⌜∀ start, Since start (f x) s → Since start (f y) t⌝⦄ :=
  repeatStep_keeps (fun s x t => Since s (f x) t) adds bound x s

theorem repeatStep_since {step : Occurrences → Reader (Occurrences × Bool)}
    (adds : ∀ before s, ⦃fun t => ⌜t = s⌝⦄ step before
      ⦃⇓? r t => ⌜∀ start, Since start before s → Since start r.1 t⌝⦄)
    (bound : Nat) (before : Occurrences) (s : State) :
    ⦃fun t => ⌜t = s⌝⦄ repeatStep step bound before
    ⦃⇓? occs t => ⌜∀ start, Since start before s → Since start occs t⌝⦄ :=
  repeatStep_gathers (fun occs => occs) adds bound before s

theorem repeatStep_passes {step : Occurrences → Reader (Occurrences × Bool)}
    (adds : ∀ before s, ⦃fun t => ⌜t = s⌝⦄ step before
      ⦃⇓? r t => ⌜∀ start, Since start before s → Since start r.1 t⌝⦄)
    (bound : Nat) (s : State) :
    ⦃fun t => ⌜t = s⌝⦄ repeatStep step bound [] ⦃⇓? occs t => ⌜Passes s occs t⌝⦄ := by
  have start := Since.refl s
  have since := repeatStep_since adds
  mvcgen [since]
  grind

theorem repeatStep_items {step : Items → Reader (Items × Bool)}
    (adds : ∀ before s, ⦃fun t => ⌜t = s⌝⦄ step before
      ⦃⇓? r t => ⌜∀ start, Succeed Item.Passes start before.items s →
        Succeed Item.Passes start r.1.items t⌝⦄)
    (bound : Nat) (trailing : Bool) (s : State) :
    ⦃fun t => ⌜t = s⌝⦄ repeatStep step bound ⟨[], trailing⟩
    ⦃⇓? l t => ⌜Succeed Item.Passes s l.items t⌝⦄ := by
  have start : Succeed Item.Passes s [] s := Moves.refl s
  have keeps := repeatStep_keeps (fun s (l : Items) t => Succeed Item.Passes s l.items t) adds
  mvcgen [keeps]
  grind

end ComponentCompiler.Script
