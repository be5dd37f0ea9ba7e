import ComponentCompiler.Markup.Render
import ComponentCompiler.Proofs.Markup.Projection

namespace ComponentCompiler.Markup

mutual

def Node.slots : Node → List Element
  | .element tag attributes children =>
    if isSlot tag then [⟨tag, attributes, children⟩] else slots children
  | _ => []

def slots : List Node → List Element
  | [] => []
  | node :: rest => node.slots ++ slots rest

end

mutual

/-- Puts nodes in the place of every outermost slot, given its number, from zero, and the slot. -/
def Node.replaceSlots (put : Nat → Element → List Node) : Node → List Node
  | .element tag attributes children =>
    if isSlot tag then put 0 ⟨tag, attributes, children⟩
    else [.element tag attributes (replaceSlots put children)]
  | node => [node]

def replaceSlots (put : Nat → Element → List Node) : List Node → List Node
  | [] => []
  | node :: rest =>
    node.replaceSlots put ++ replaceSlots (fun i => put (i + node.slots.length)) rest

end

mutual

theorem Node.replaceSlots_congr {put put' : Nat → Element → List Node} (node : Node)
    (same : ∀ i < node.slots.length, ∀ slot, put i slot = put' i slot) :
    node.replaceSlots put = node.replaceSlots put' := by
  cases node with
  | element tag attributes children =>
    rw [Node.replaceSlots, Node.replaceSlots]
    rw [Node.slots] at same
    split
    · rw [if_pos ‹_›] at same
      exact same 0 Nat.one_pos _
    · rw [if_neg ‹_›] at same
      rw [replaceSlots_congr children same]
  | text | comment | doctype => rfl

theorem replaceSlots_congr {put put' : Nat → Element → List Node} (nodes : List Node)
    (same : ∀ i < (slots nodes).length, ∀ slot, put i slot = put' i slot) :
    replaceSlots put nodes = replaceSlots put' nodes := by
  cases nodes with
  | nil => rfl
  | cons node rest =>
    rw [slots, List.length_append] at same
    rw [replaceSlots, replaceSlots]
    congr 1
    · exact Node.replaceSlots_congr node fun i below slot => same i (by omega) slot
    · refine replaceSlots_congr rest fun i below slot => same (i + node.slots.length) ?_ slot
      omega

end

mutual

theorem Node.replaceSlots_toNode (node : Node) :
    node.replaceSlots (fun _ slot => [slot.toNode]) = [node] := by
  cases node with
  | element tag attributes children =>
    rw [Node.replaceSlots, replaceSlots_toNode children]
    split <;> rfl
  | text | comment | doctype => rfl

theorem replaceSlots_toNode (nodes : List Node) :
    replaceSlots (fun _ slot => [slot.toNode]) nodes = nodes := by
  cases nodes with
  | nil => rfl
  | cons node rest =>
    rw [replaceSlots, Node.replaceSlots_toNode node, replaceSlots_toNode rest,
      List.singleton_append]

end

def suppliedOr (given : List (List Node)) (i : Nat) (slot : Element) : List Node :=
  given[i]?.getD [slot.toNode]

section Supplied

variable {given more : List (List Node)}

theorem replaceSlots_cons_of_length_le {node : Node} {rest : List Node}
    (short : given.length ≤ node.slots.length) :
    replaceSlots (suppliedOr given) (node :: rest) =
      node.replaceSlots (suppliedOr given) ++ rest := by
  have left (i : Nat) (slot : Element) :
      suppliedOr given (i + node.slots.length) slot = [slot.toNode] := by
    rw [suppliedOr, List.getElem?_eq_none (by omega), Option.getD_none]
  rw [replaceSlots, replaceSlots_congr rest fun i _ slot => left i slot, replaceSlots_toNode]

theorem replaceSlots_cons_append {node : Node} {rest : List Node}
    (served : given.length = node.slots.length) :
    replaceSlots (suppliedOr (given ++ more)) (node :: rest) =
      node.replaceSlots (suppliedOr given) ++ replaceSlots (suppliedOr more) rest := by
  rw [replaceSlots]
  congr 1
  · refine node.replaceSlots_congr fun i below slot => ?_
    rw [suppliedOr, suppliedOr, List.getElem?_append_left (by omega)]
  · refine replaceSlots_congr rest fun i _ slot => ?_
    rw [suppliedOr, suppliedOr, List.getElem?_append_right (by omega), served,
      Nat.add_sub_cancel_right]

end Supplied

variable {σ ε : Type}

/-- Calls that succeed, one after the other: the state before them, what they give, and the state
after them. -/
inductive Supplies (supply : Supplier σ ε) : σ → List (List Node) → σ → Prop
  | nil {s} : Supplies supply s [] s
  | cons {s nodes s₁ given s'} (call : supply s = .ok (nodes, s₁))
      (later : Supplies supply s₁ given s') : Supplies supply s (nodes :: given) s'

/-- As many calls have succeeded as there are slots, or there is a slot left for which the next call
fails. -/
def Settles (supply : Supplier σ ε) (count : Nat) (given : List (List Node)) (s' : σ) :
    Option ε → Prop
  | none => given.length = count
  | some e => given.length < count ∧ supply s' = .error e

variable {supply : Supplier σ ε} {s s' : σ} {given : List (List Node)}

def Supplier.counted (supply : Supplier σ ε) : Supplier (σ × Nat) (ε × Nat) := fun (s, count) =>
  match supply s with
  | .ok (nodes, s) => .ok (nodes, (s, count + 1))
  | .error e => .error (e, count + 1)

theorem Supplies.counted (supplies : Supplies supply s given s') (count : Nat) :
    Supplies supply.counted (s, count) given (s', count + given.length) := by
  induction supplies generalizing count with
  | nil => exact .nil
  | cons call _ ih =>
    have later := ih (count + 1)
    rw [Nat.add_assoc, Nat.add_comm 1] at later
    exact .cons (by rw [Supplier.counted, call]) later

theorem Supplies.exists_append {more : List (List Node)}
    (supplies : Supplies supply s (given ++ more) s') :
    ∃ s₁, Supplies supply s given s₁ ∧ Supplies supply s₁ more s' := by
  induction given generalizing s with
  | nil => exact ⟨s, .nil, supplies⟩
  | cons nodes given ih =>
    cases supplies with
    | cons call later =>
      obtain ⟨s₁, first, second⟩ := ih later
      exact ⟨s₁, .cons call first, second⟩

theorem Supplies.of_settles_zero {failure : Option ε} (supplies : Supplies supply s given s')
    (settles : Settles supply 0 given s' failure) : given = [] ∧ s' = s ∧ failure = none := by
  cases failure with
  | none =>
    obtain rfl := List.eq_nil_of_length_eq_zero settles
    cases supplies
    exact ⟨rfl, rfl, rfl⟩
  | some e => exact absurd settles.1 (Nat.not_lt_zero _)

theorem Settles.failed_of_lt {count : Nat} {failure : Option ε}
    (settles : Settles supply count given s' failure) (short : given.length < count) :
    ∃ e, failure = some e ∧ supply s' = .error e := by
  cases failure with
  | none => exact absurd settles (Nat.ne_of_lt short)
  | some e => exact ⟨e, rfl, settles.2⟩

theorem Settles.drop {first count : Nat} {more : List (List Node)} {failure : Option ε}
    (length : given.length = first)
    (settles : Settles supply (first + count) (given ++ more) s' failure) :
    Settles supply count more s' failure := by
  cases failure with
  | none =>
    simp only [Settles, List.length_append] at settles ⊢
    omega
  | some e =>
    simp only [Settles, List.length_append] at settles ⊢
    exact ⟨by omega, settles.2⟩

theorem projectNode_slot_of_supplies {tag : String} {attributes : List Attribute}
    {children : List Node} {failure : Option ε} (slot : isSlot tag = true)
    (supplies : Supplies supply s given s') (settles : Settles supply 1 given s' failure) :
    projectNode supply s (.element tag attributes children) =
      ⟨suppliedOr given 0 ⟨tag, attributes, children⟩, given.length, s', failure⟩ := by
  rw [projectNode, if_pos slot]
  cases supplies with
  | nil =>
    obtain ⟨e, rfl, failed⟩ := settles.failed_of_lt Nat.one_pos
    rw [failed]
    rfl
  | @cons _ nodes _ _ _ call later =>
    have one : [nodes].length = 1 := rfl
    obtain ⟨rfl, rfl, rfl⟩ := later.of_settles_zero (settles.drop one)
    rw [call]
    rfl

mutual

theorem projectNode_of_supplies (node : Node) {s s' : σ} {given : List (List Node)}
    {failure : Option ε} (supplies : Supplies supply s given s')
    (settles : Settles supply node.slots.length given s' failure) :
    projectNode supply s node =
      ⟨node.replaceSlots (suppliedOr given), given.length, s', failure⟩ := by
  cases node with
  | element tag attributes children =>
    rw [Node.slots] at settles
    rw [Node.replaceSlots]
    by_cases slot : isSlot tag = true
    · rw [if_pos slot] at settles ⊢
      exact projectNode_slot_of_supplies slot supplies settles
    · rw [if_neg slot] at settles
      rw [projectNode, if_neg slot, if_neg slot, project_of_supplies children supplies settles]
  | text | comment | doctype =>
    obtain ⟨rfl, rfl, rfl⟩ := supplies.of_settles_zero settles
    rfl

theorem project_of_supplies (nodes : List Node) {s s' : σ} {given : List (List Node)}
    {failure : Option ε} (supplies : Supplies supply s given s')
    (settles : Settles supply (slots nodes).length given s' failure) :
    project supply s nodes =
      ⟨replaceSlots (suppliedOr given) nodes, given.length, s', failure⟩ := by
  cases nodes with
  | nil =>
    obtain ⟨rfl, rfl, rfl⟩ := supplies.of_settles_zero settles
    rfl
  | cons node rest =>
    rw [slots, List.length_append] at settles
    rw [project]
    rcases Nat.lt_or_ge given.length node.slots.length with short | served
    · -- The supplier fails for a slot of the first node.
      obtain ⟨e, rfl, failed⟩ := settles.failed_of_lt (by omega)
      have first : Settles supply node.slots.length given s' (some e) := ⟨short, failed⟩
      rw [projectNode_of_supplies node supplies first]
      dsimp only
      rw [replaceSlots_cons_of_length_le (Nat.le_of_lt short)]
    · obtain ⟨own, more, rfl, length⟩ : ∃ own more, given = own ++ more ∧
          own.length = node.slots.length :=
        ⟨_, _, (List.take_append_drop _ given).symm, List.length_take_of_le served⟩
      obtain ⟨s₁, first, later⟩ := supplies.exists_append
      have settled : Settles supply node.slots.length own s₁ none := length
      rw [projectNode_of_supplies node first settled, project_of_supplies rest later (settles.drop length)]
      dsimp only
      rw [replaceSlots_cons_append length, List.length_append]

end

/-- When the calls for all outermost slots succeed, the supplier is called once for each of them,
and each is replaced by what its call gave. When a call fails, it is the last one: the slots before
it are replaced, and the rest of the forest is as it was. -/
theorem project_slot_by_slot (supply : Supplier σ ε) (s : σ) (nodes : List Node) :
    (∀ given s', Supplies supply s given s' → given.length = (slots nodes).length →
      project supply s nodes =
        ⟨replaceSlots (suppliedOr given) nodes, (slots nodes).length, s', none⟩ ∧
      (project supply.counted (s, 0) nodes).state.2 = (slots nodes).length) ∧
    ∀ given s' e, Supplies supply s given s' → given.length < (slots nodes).length →
      supply s' = .error e →
      project supply s nodes =
        ⟨replaceSlots (suppliedOr given) nodes, given.length, s', some e⟩ ∧
      (project supply.counted (s, 0) nodes).failure = some (e, given.length + 1) := by
  constructor
  · intro given s' supplies served
    have settled : Settles supply (slots nodes).length given s' none := served
    have counted : Settles supply.counted (slots nodes).length given (s', 0 + given.length) none :=
      served
    rw [project_of_supplies nodes supplies settled,
      project_of_supplies nodes (supplies.counted 0) counted, served]
    exact ⟨rfl, Nat.zero_add _⟩
  · intro given s' e supplies short failed
    have count : supply.counted (s', 0 + given.length) = .error (e, given.length + 1) := by
      rw [Supplier.counted, failed, Nat.zero_add]
    have settled : Settles supply (slots nodes).length given s' (some e) := ⟨short, failed⟩
    have counted : Settles supply.counted (slots nodes).length given (s', 0 + given.length)
        (some (e, given.length + 1)) := ⟨short, count⟩
    rw [project_of_supplies nodes supplies settled,
      project_of_supplies nodes (supplies.counted 0) counted]
    exact ⟨rfl, rfl⟩

def threeSlots : List Node := [
  .element "slot" [] [.element "slot" [] []],
  .element "p" [] [.text "a", .element "SLOT" [] []],
  .element "slot" [⟨"name", "last"⟩] []]

def numbered (n : Nat) : List Node :=
  [.element "slot" [] [.text (toString n)]]

def numbersBelow (bound : Nat) : Supplier Nat String := fun n =>
  if n < bound then .ok (numbered n, n + 1) else .error "no more"

theorem project_slot_by_slot_three :
    (∃ nodes, project (numbersBelow 3) 0 threeSlots = ⟨nodes, 3, 3, none⟩ ∧
      render nodes = "<slot>0</slot><p>a<slot>1</slot></p><slot>2</slot>" ∧
      (project (numbersBelow 3).counted (0, 0) threeSlots).state.2 = 3) ∧
    ∃ nodes, project (numbersBelow 1) 0 threeSlots = ⟨nodes, 1, 1, some "no more"⟩ ∧
      render nodes = "<slot>0</slot><p>a<SLOT></SLOT></p><slot name=\"last\"></slot>" ∧
      (project (numbersBelow 1).counted (0, 0) threeSlots).failure = some ("no more", 2) := by
  constructor
  · have supplies : Supplies (numbersBelow 3) 0 [numbered 0, numbered 1, numbered 2] 3 :=
      .cons rfl (.cons rfl (.cons rfl .nil))
    obtain ⟨succeeds, -⟩ := project_slot_by_slot (numbersBelow 3) 0 threeSlots
    obtain ⟨done, calls⟩ := succeeds _ _ supplies (by decide)
    exact ⟨_, done, by decide +kernel, calls⟩
  · have supplies : Supplies (numbersBelow 1) 0 [numbered 0] 1 := .cons rfl .nil
    obtain ⟨-, fails⟩ := project_slot_by_slot (numbersBelow 1) 0 threeSlots
    obtain ⟨done, calls⟩ := fails _ _ _ supplies (by decide) rfl
    exact ⟨_, done, by decide +kernel, calls⟩

end ComponentCompiler.Markup
