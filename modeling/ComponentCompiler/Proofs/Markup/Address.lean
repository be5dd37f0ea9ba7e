import ComponentCompiler.Proofs.Markup.Forest

namespace ComponentCompiler.Markup

structure Address where
  root : Nat
  path : List Nat
deriving DecidableEq

namespace Address

def toPath (a : Address) : List Nat :=
  a.root :: a.path

def later (a : Address) : Address :=
  ⟨a.root + 1, a.path⟩

variable {a b : Address} {path : List Nat}

@[simp] theorem toPath_inj : a.toPath = b.toPath ↔ a = b := by
  cases a; cases b; simp [toPath]

@[simp] theorem toPath_ne_nil : a.toPath ≠ [] :=
  List.cons_ne_nil _ _

@[simp] theorem later_inj : a.later = b.later ↔ a = b := by
  cases a; cases b; simp [later]

@[simp] theorem zero_ne_later : (⟨0, path⟩ : Address) ≠ a.later := by
  simp [later]

@[simp] theorem later_ne_zero : a.later ≠ ⟨0, path⟩ :=
  zero_ne_later.symm

end Address

mutual

def Node.places : Node → List (List Nat × Element)
  | .element tag attributes children =>
    ([], ⟨tag, attributes, children⟩) :: (places children).map fun s => (s.1.toPath, s.2)
  | _ => []

def places : List Node → List (Address × Element)
  | [] => []
  | node :: rest =>
    node.places.map (fun s => (⟨0, s.1⟩, s.2)) ++ (places rest).map fun s => (s.1.later, s.2)

end

mutual

theorem Node.map_places (node : Node) : node.places.map (·.2) = node.outside noTag := by
  cases node with
  | element tag attributes children =>
    simp [Node.places, Node.outside, noTag, ← map_places children, Function.comp_def]
  | text | comment | doctype => rfl

theorem map_places (nodes : List Node) : (places nodes).map (·.2) = elements nodes := by
  cases nodes with
  | nil => rfl
  | cons node rest =>
    simp [places, elements, outside, ← map_places rest, ← Node.map_places node,
      Function.comp_def]

end

mutual

theorem Node.pairwise_places (node : Node) : (node.places.map (·.1)).Pairwise (· < ·) := by
  cases node with
  | element tag attributes children =>
    have inside := pairwise_places children
    rw [List.pairwise_map] at inside
    simp only [Node.places, List.map_cons, List.map_map, List.pairwise_cons, List.mem_map,
      List.pairwise_map, Function.comp_def]
    refine ⟨?_, inside⟩
    rintro _ ⟨s, -, rfl⟩
    exact List.nil_lt_cons _ _
  | text | comment | doctype => exact List.Pairwise.nil

theorem pairwise_places (nodes : List Node) :
    ((places nodes).map (·.1.toPath)).Pairwise (· < ·) := by
  cases nodes with
  | nil => exact List.Pairwise.nil
  | cons node rest =>
    have first := Node.pairwise_places node
    have others := pairwise_places rest
    rw [List.pairwise_map] at first others
    simp only [places, List.map_append, List.map_map, List.pairwise_append, List.pairwise_map,
      List.mem_map, Function.comp_def, Address.toPath, Address.later, List.cons_lt_cons_iff]
      at others ⊢
    refine ⟨first.imp fun before => .inr ⟨trivial, before⟩, others.imp fun before => ?_, ?_⟩
    · simpa using before
    · rintro _ ⟨s, -, rfl⟩ _ ⟨t, -, rfl⟩
      simp [List.cons_lt_cons_iff]

end

def firstPlace? (p : String → Bool) (nodes : List Node) : Option (Address × Element) :=
  (places nodes).find? fun s => p s.2.tag

def Node.firstPlace? (p : String → Bool) (node : Node) : Option (List Nat × Element) :=
  node.places.find? fun s => p s.2.tag

section Searches

variable {p : String → Bool}

theorem Node.firstPlace?_element (tag : String) (attributes : List Attribute)
    (children : List Node) :
    (Node.element tag attributes children).firstPlace? p =
      if p tag then some ([], ⟨tag, attributes, children⟩)
      else (Markup.firstPlace? p children).map fun s => (s.1.toPath, s.2) := by
  rw [Node.firstPlace?, Node.places, List.find?_cons, List.find?_map]
  cases p tag <;> rfl

theorem firstPlace?_cons (node : Node) (rest : List Node) :
    firstPlace? p (node :: rest) =
      ((node.firstPlace? p).map fun s => (⟨0, s.1⟩, s.2)).or
        ((firstPlace? p rest).map fun s => (s.1.later, s.2)) := by
  rw [firstPlace?, places, List.find?_append, List.find?_map, List.find?_map]
  rfl

mutual

theorem Node.first?_eq (node : Node) : node.first? p = (node.firstPlace? p).map (·.2) := by
  cases node with
  | element tag attributes children =>
    rw [Node.first?, Node.firstPlace?_element, first?_eq children]
    split <;> simp [Function.comp_def]
  | text | comment | doctype => rfl

theorem first?_eq (nodes : List Node) : first? p nodes = (firstPlace? p nodes).map (·.2) := by
  cases nodes with
  | nil => rfl
  | cons node rest =>
    rw [first?, firstPlace?_cons, Node.first?_eq node, first?_eq rest]
    cases node.firstPlace? p <;> simp [Function.comp_def]

end

theorem firstPlace?_eq_none_iff {nodes : List Node} :
    firstPlace? p nodes = none ↔ ∀ e ∈ elements nodes, p e.tag = false := by
  simp only [firstPlace?, List.find?_eq_none, ← map_places, List.forall_mem_map, Bool.not_eq_true]

end Searches

mutual

/-- Changes what the elements hold, from the inside out. -/
def Node.refill (change : List Nat → List Node → List Node) : Node → Node
  | .element tag attributes children =>
    .element tag attributes (change [] (refill (fun a => change a.toPath) children))
  | node => node

def refill (change : Address → List Node → List Node) : List Node → List Node
  | [] => []
  | node :: rest =>
    node.refill (fun path => change ⟨0, path⟩) :: refill (fun a => change a.later) rest

end

mutual

theorem Node.refill_id (node : Node) : node.refill (fun _ held => held) = node := by
  cases node with
  | element tag attributes children => rw [Node.refill, refill_id children]
  | text | comment | doctype => rfl

theorem refill_id (nodes : List Node) : refill (fun _ held => held) nodes = nodes := by
  cases nodes with
  | nil => rfl
  | cons node rest => rw [refill, Node.refill_id node, refill_id rest]

end

theorem updateFirst?_append (p : String → Bool) (f : Element → Element) (xs ys : List Node) :
    updateFirst? p f (xs ++ ys) =
      ((updateFirst? p f xs).map (· ++ ys)).or ((updateFirst? p f ys).map (xs ++ ·)) := by
  induction xs with
  | nil => simp [updateFirst?]
  | cons x xs ih =>
    rw [List.cons_append, updateFirst?, updateFirst?, ih]
    cases x.updateFirst? p f with
    | some changed => simp
    | none => cases updateFirst? p f xs <;> simp [Function.comp_def]

section Changes

variable {p : String → Bool} {g : List Node → List Node}

mutual

theorem Node.updateFirst?_refill (node : Node) (change : List Nat → List Node → List Node)
    (keeps : ∀ f a held, Markup.updateFirst? p f (change a held) =
      (Markup.updateFirst? p f held).map (change a)) :
    (node.refill change).updateFirst? p (fun e => { e with children := g e.children }) =
      (node.firstPlace? p).map fun s => node.refill fun path held =>
        if path = s.1 then g (change path held) else change path held := by
  cases node with
  | element tag attributes children =>
    rw [Node.refill, Node.updateFirst?, Node.firstPlace?_element]
    split
    · simp [Node.refill, Element.toNode]
    · rw [keeps, updateFirst?_refill children _ fun f a => keeps f a.toPath]
      simp [Node.refill, Function.comp_def]
  | text | comment | doctype => rfl

theorem updateFirst?_refill (nodes : List Node) (change : Address → List Node → List Node)
    (keeps : ∀ f a held, updateFirst? p f (change a held) =
      (updateFirst? p f held).map (change a)) :
    updateFirst? p (fun e => { e with children := g e.children }) (refill change nodes) =
      (firstPlace? p nodes).map fun s => refill (fun a held =>
        if a = s.1 then g (change a held) else change a held) nodes := by
  cases nodes with
  | nil => rfl
  | cons node rest =>
    rw [refill, updateFirst?, firstPlace?_cons,
      Node.updateFirst?_refill node _ fun f path => keeps f ⟨0, path⟩,
      updateFirst?_refill rest _ fun f a => keeps f a.later]
    cases node.firstPlace? p with
    | some s => simp [refill]
    | none => simp [refill, Function.comp_def]

end

theorem updateFirst?_children (nodes : List Node) :
    updateFirst? p (fun e => { e with children := g e.children }) nodes =
      (firstPlace? p nodes).map fun s =>
        refill (fun a held => if a = s.1 then g held else held) nodes := by
  have changed := updateFirst?_refill (p := p) (g := g) nodes (fun _ held => held) (by simp)
  rwa [refill_id] at changed

end Changes

end ComponentCompiler.Markup
