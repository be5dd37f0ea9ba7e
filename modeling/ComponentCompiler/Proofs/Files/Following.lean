import ComponentCompiler.Proofs.Files.Places
import ComponentCompiler.Proofs.Text.WholeWords
import ComponentCompiler.Proofs.Text.Words

/-!
# Where paths lead

The pieces of a path name a place by themselves, whatever the tree holds.  The tree decides whether
the path can be followed: each place where a piece is looked up is to be a folder.
-/

namespace ComponentCompiler.Files

def onward (place : Place) (piece : String) : Place :=
  if isIdle piece then place else if piece = ".." then place.dropLast else place ++ [piece]

/-- The place to which the pieces of a path lead from another one. -/
def lead (place : Place) (pieces : List String) : Place :=
  pieces.foldl onward place

/-- The places where the pieces of a path are looked up. -/
def passed : Place → List String → List Place
  | _, [] => []
  | place, piece :: rest => place :: passed (onward place piece) rest

def visited (place : Place) (pieces : List String) : List Place :=
  passed place pieces ++ [lead place pieces]

/-- Pieces that never lead above the top folder. -/
def Stays : Place → List String → Prop
  | _, [] => True
  | place, piece :: rest => (piece = ".." → place ≠ []) ∧ Stays (onward place piece) rest

instance decidableStays : ∀ (place : Place) (pieces : List String), Decidable (Stays place pieces)
  | _, [] => isTrue trivial
  | place, piece :: rest =>
    have := decidableStays (onward place piece) rest
    inferInstanceAs (Decidable ((piece = ".." → place ≠ []) ∧ Stays (onward place piece) rest))

structure Fits (place : Place) (pieces : List String) : Prop where
  short : ∀ piece ∈ pieces, piece.utf8ByteSize ≤ Tree.nameLimit
  stays : Stays place pieces

section

variable {place other p : Place} {pieces xs : List String} {piece name : String}

theorem onward_of_isIdle (idle : isIdle piece = true) : onward place piece = place :=
  if_pos idle

@[simp] theorem isIdle_empty : isIdle "" = true := by simp [isIdle]

theorem ne_up_of_isIdle (idle : isIdle piece = true) : piece ≠ ".." := by
  rintro rfl
  simp [isIdle] at idle

theorem onward_of_name (busy : isIdle name = false) (up : name ≠ "..") :
    onward place name = place ++ [name] := by
  rw [onward, busy, if_neg Bool.false_ne_true, if_neg up]

theorem lead_append (place : Place) (xs ys : List String) :
    lead place (xs ++ ys) = lead (lead place xs) ys :=
  List.foldl_append

theorem passed_append (place : Place) (xs ys : List String) :
    passed place (xs ++ ys) = passed place xs ++ passed (lead place xs) ys := by
  induction xs generalizing place with
  | nil => rfl
  | cons piece xs ih => exact congrArg (place :: ·) (ih (onward place piece))

theorem passed_concat (place : Place) (xs : List String) (piece : String) :
    passed place (xs ++ [piece]) = visited place xs :=
  passed_append place xs [piece]

theorem visited_cons (place : Place) (piece : String) (rest : List String) :
    visited place (piece :: rest) = place :: visited (onward place piece) rest := rfl

theorem start_mem_visited (place : Place) (pieces : List String) :
    place ∈ visited place pieces := by
  cases pieces <;> simp [visited, passed, lead]

theorem passed_subset_visited (place : Place) (pieces : List String) :
    passed place pieces ⊆ visited place pieces :=
  List.subset_append_left ..

theorem mem_visited_filter :
    p ∈ visited place (pieces.filter fun piece => !isIdle piece) ↔ p ∈ visited place pieces := by
  induction pieces generalizing place with
  | nil => rfl
  | cons piece rest ih =>
    cases idle : isIdle piece with
    | true =>
      rw [List.filter_cons_of_neg (by simp [idle]), ih, visited_cons, onward_of_isIdle idle]
      refine ⟨List.mem_cons_of_mem _, fun member => ?_⟩
      rcases List.mem_cons.1 member with rfl | later
      · exact start_mem_visited ..
      · exact later
    | false =>
      rw [List.filter_cons_of_pos (by simp [idle]), visited_cons, visited_cons, List.mem_cons,
        List.mem_cons, ih]

theorem lead_filter (place : Place) (pieces : List String) :
    lead place (pieces.filter fun piece => !isIdle piece) = lead place pieces := by
  induction pieces generalizing place with
  | nil => rfl
  | cons piece rest ih =>
    cases idle : isIdle piece with
    | true =>
      rw [List.filter_cons_of_neg (by simp [idle]), ih, lead, lead, List.foldl_cons,
        onward_of_isIdle idle]
    | false =>
      rw [List.filter_cons_of_pos (by simp [idle])]
      exact ih (onward place piece)

theorem stays_append {xs ys : List String} :
    Stays place (xs ++ ys) ↔ Stays place xs ∧ Stays (lead place xs) ys := by
  induction xs generalizing place with
  | nil => simp [Stays, lead]
  | cons piece xs ih => exact (and_congr_right fun _ => ih).trans and_assoc.symm

theorem stays_filter :
    Stays place (pieces.filter fun piece => !isIdle piece) ↔ Stays place pieces := by
  induction pieces generalizing place with
  | nil => rfl
  | cons piece rest ih =>
    cases idle : isIdle piece with
    | true =>
      rw [List.filter_cons_of_neg (by simp [idle]), ih, Stays, onward_of_isIdle idle]
      simp [ne_up_of_isIdle idle]
    | false =>
      rw [List.filter_cons_of_pos (by simp [idle]), Stays, ih, Stays]

theorem Stays.front {xs : List String} (stays : Stays place pieces) (part : xs <+: pieces) :
    Stays place xs := by
  obtain ⟨ys, rfl⟩ := part
  exact (stays_append.1 stays).1

theorem stays_of_names (down : ∀ piece ∈ pieces, piece ≠ "..") : Stays place pieces := by
  induction pieces generalizing place with
  | nil => trivial
  | cons piece rest ih =>
    rw [List.forall_mem_cons] at down
    exact ⟨fun up => absurd up down.1, ih down.2⟩

@[simp] theorem fits_nil : Fits place [] := ⟨by simp, trivial⟩

theorem fits_cons {rest : List String} :
    Fits place (piece :: rest) ↔
      piece.utf8ByteSize ≤ Tree.nameLimit ∧ (piece = ".." → place ≠ []) ∧
        Fits (onward place piece) rest := by
  constructor
  · rintro ⟨short, below, stays⟩
    rw [List.forall_mem_cons] at short
    exact ⟨short.1, below, short.2, stays⟩
  · rintro ⟨short, below, fits⟩
    exact ⟨List.forall_mem_cons.2 ⟨short, fits.short⟩, below, fits.stays⟩

theorem Fits.front {xs : List String} (fits : Fits place pieces) (part : xs <+: pieces) :
    Fits place xs where
  short piece member := fits.short piece (part.subset member)
  stays := fits.stays.front part

theorem prefix_lead (down : ∀ piece ∈ pieces, piece ≠ "..") :
    place <+: lead place pieces ∧ ∀ p ∈ passed place pieces, p <+: lead place pieces := by
  induction pieces generalizing place with
  | nil => exact ⟨List.prefix_rfl, by simp [passed]⟩
  | cons piece rest ih =>
    rw [List.forall_mem_cons] at down
    obtain ⟨start, way⟩ := ih down.2
    have step : place <+: onward place piece := by
      rw [onward, if_neg down.1]
      split
      · exact List.prefix_rfl
      · exact List.prefix_append ..
    exact ⟨step.trans start, List.forall_mem_cons.2 ⟨step.trans start, way⟩⟩

theorem mem_visited_of_above (inside : p <+: lead place pieces) :
    p <+: place ∨ p ∈ visited place pieces := by
  induction pieces generalizing place with
  | nil => exact .inl inside
  | cons piece rest ih =>
    rcases ih inside with before | on
    · rw [onward] at before
      split at before
      · exact .inl before
      · split at before
        · exact .inl (before.trans (List.dropLast_prefix place))
        · rename_i busy up
          rcases List.prefix_concat_iff.1 before with rfl | before
          · have here : onward place piece = place ++ [piece] :=
              onward_of_name (by simpa using busy) up
            exact .inr (List.mem_cons_of_mem _ (here ▸ start_mem_visited ..))
          · exact .inl before
    · exact .inr (List.mem_cons_of_mem _ on)

end

namespace Tree

variable {t t' : Tree} {place other : Place} {pieces : List String} {path name : String}

theorem size_le_of_isIdle (idle : isIdle name = true) : name.utf8ByteSize ≤ nameLimit := by
  rw [isIdle, Bool.or_eq_true, decide_eq_true_iff, decide_eq_true_iff] at idle
  rcases idle with rfl | rfl <;> decide

theorem follow_cons_of_folder (folder : t.get? place = some .folder) (piece : String)
    (rest : List String) :
    t.follow place (piece :: rest) =
      if nameLimit < piece.utf8ByteSize then .error .nameTooLong
      else if piece = ".." ∧ place = [] then .error .outside
      else t.follow (onward place piece) rest := by
  rw [follow, folder, onward]
  by_cases idle : isIdle piece = true
  · have short := Nat.not_lt.2 (size_le_of_isIdle idle)
    simp only [idle, if_true, if_neg short, ne_up_of_isIdle idle, false_and, if_false]
  · by_cases up : piece = ".."
    · subst up
      cases place <;> rfl
    · simp only [idle, up, if_false, Bool.false_eq_true, false_and]

theorem follow_eq_ok_iff :
    t.follow place pieces = .ok other ↔
      (∀ p ∈ passed place pieces, t.get? p = some .folder) ∧ Fits place pieces ∧
        lead place pieces = other := by
  induction pieces generalizing place with
  | nil => simp [follow, passed, fits_nil, lead]
  | cons piece rest ih =>
    rw [passed, List.forall_mem_cons, fits_cons]
    by_cases folder : t.get? place = some .folder
    · rw [follow_cons_of_folder folder]
      by_cases long : nameLimit < piece.utf8ByteSize
      · simp [long, Nat.not_le.2 long]
      · rw [if_neg long]
        by_cases above : piece = ".." ∧ place = []
        · simp [above]
        · have below : piece = ".." → place ≠ [] := not_and.1 above
          rw [if_neg above, ih, and_iff_right folder, and_iff_right (Nat.not_lt.1 long),
            and_iff_right below]
          rfl
    · rw [follow]
      cases found : t.get? place with
      | none => simp
      | some entry =>
        cases entry with
        | folder => exact absurd found folder
        | file text => simp

theorem follow_eq_notFound (fits : Fits place pieces)
    (open_ : ∀ p ∈ passed place pieces, t.get? p = some .folder ∨ t.get? p = none)
    (missing : ∃ p ∈ passed place pieces, t.get? p = none) :
    t.follow place pieces = .error .notFound := by
  induction pieces generalizing place with
  | nil => simp [passed] at missing
  | cons piece rest ih =>
    rw [passed, List.forall_mem_cons] at open_
    obtain ⟨short, below, fits⟩ := fits_cons.1 fits
    rcases open_.1 with folder | here
    · rw [follow_cons_of_folder folder, if_neg (Nat.not_lt.2 short),
        if_neg fun above => below above.1 above.2]
      refine ih fits open_.2 ?_
      obtain ⟨p, member, missing⟩ := missing
      rcases List.mem_cons.1 member with rfl | later
      · simp [folder] at missing
      · exact ⟨p, later, missing⟩
    · rw [follow, here]

/-- The place to which a path leads, whether it can be followed or not; none when it leads out of
the top folder. -/
def leads? (t : Tree) (path : String) : Option Place :=
  (t.pieces? path).toOption.bind fun pieces =>
    if Stays [] pieces then some (lead [] pieces) else none

theorem pieces?_congr (same : t'.root = t.root) (path : String) :
    t'.pieces? path = t.pieces? path := by
  rw [pieces?, pieces?, same]

theorem leads?_congr (same : t'.root = t.root) (path : String) :
    t'.leads? path = t.leads? path := by
  rw [leads?, leads?, pieces?_congr same]

theorem leads?_eq_some_iff :
    t.leads? path = some place ↔
      ∃ pieces, t.pieces? path = .ok pieces ∧ Stays [] pieces ∧ lead [] pieces = place := by
  rw [leads?]
  cases t.pieces? path <;> simp [Except.toOption]

theorem place?_eq_ok_iff :
    t.place? path = .ok place ↔
      ∃ pieces, t.pieces? path = .ok pieces ∧ t.follow [] pieces = .ok place := by
  rw [place?]
  cases t.pieces? path <;> simp [Except.bind]

theorem lead_of_place? (cut : t.pieces? path = .ok pieces) (found : t.place? path = .ok place) :
    lead [] pieces = place := by
  rw [place?, cut] at found
  exact (follow_eq_ok_iff.1 found).2.2

theorem leads?_of_place? (found : t.place? path = .ok place) : t.leads? path = some place := by
  obtain ⟨pieces, cut, followed⟩ := place?_eq_ok_iff.1 found
  obtain ⟨-, fits, last⟩ := follow_eq_ok_iff.1 followed
  exact leads?_eq_some_iff.2 ⟨pieces, cut, fits.stays, last⟩

end Tree

/-- The place of a relative path that is taken from the top folder. -/
def placeOf (path : String) : Place :=
  lead [] (names path.toList)

/-- A relative path that never leads above the folder where it starts. -/
structure StaysInside (path : String) : Prop where
  relative : isAbsolute path = false
  stays : Stays [] (names path.toList)

instance (path : String) : Decidable (StaysInside path) :=
  decidable_of_iff (isAbsolute path = false ∧ Stays [] (names path.toList))
    ⟨fun both => ⟨both.1, both.2⟩, fun inside => ⟨inside.relative, inside.stays⟩⟩

theorem toList_join {path : String} (relative : isAbsolute path = false) (base : String) :
    (join base path).toList =
      if base.toList.getLast?.getD '/' = '/' then base.toList ++ path.toList
      else base.toList ++ '/' :: path.toList := by
  rw [join, relative, if_neg Bool.false_ne_true]
  split <;> simp

structure Plain (name : String) : Prop where
  whole : '/' ∉ name.toList
  busy : isIdle name = false
  up : name ≠ ".."

namespace Plain

variable {name : String} {place : Place}

theorem onward (plain : Plain name) : onward place name = place ++ [name] :=
  onward_of_name plain.busy plain.up

theorem not_isAbsolute (plain : Plain name) : isAbsolute name = false := by
  rw [isAbsolute, decide_eq_false_iff_not]
  intro slash
  exact plain.whole (List.mem_of_mem_head? slash)

theorem names (plain : Plain name) : names name.toList = [name] := by
  have uncut : ∀ c ∈ name.toList, decide (c = '/') = false := fun c member =>
    decide_eq_false fun slash => plain.whole (slash ▸ member)
  rw [Files.names, Text.splitAll_of_uncut uncut]
  simp

end Plain

theorem names_append_slash (xs ys : List Char) :
    names (xs ++ '/' :: ys) = names xs ++ names ys := by
  rw [names, Text.splitAll_append_cons (by simp), List.map_append]
  rfl

namespace Tree

variable {t t' : Tree} {place : Place} {pieces more : List String} {path name : String}

theorem pieces?_eq_ok_iff :
    t.pieces? path = .ok pieces ↔
      Char.ofNat 0 ∉ path.toList ∧
        (path.toList = t.root.toList ∧ pieces = [] ∨
          ∃ rest, path.toList = t.root.toList ++ '/' :: rest ∧ names rest = pieces) := by
  rw [pieces?]
  by_cases zero : Char.ofNat 0 ∈ path.toList
  · simp [zero]
  · rw [if_neg (by simpa using zero)]
    simp only [zero, not_false_eq_true, true_and]
    cases after : Text.after? t.root.toList path.toList with
    | none =>
      have elsewhere : ∀ rest, path.toList ≠ t.root.toList ++ rest := fun rest parts => by
        simp [Text.after?_eq_some.2 parts] at after
      have top : path.toList ≠ t.root.toList := by simpa using elsewhere []
      simp [top, elsewhere]
    | some rest =>
      rw [Text.after?_eq_some.1 after]
      cases rest with
      | nil => simp [eq_comm]
      | cons c rest =>
        by_cases slash : c = '/'
        · simp [slash]
        · simp [slash]

theorem eq_placeOf (relative : isAbsolute path = false)
    (leads : t.leads? (join t.root path) = some place) : place = placeOf path := by
  obtain ⟨pieces, cut, -, rfl⟩ := leads?_eq_some_iff.1 leads
  have parts := (pieces?_eq_ok_iff.1 cut).2
  rw [toList_join relative] at parts
  split at parts
  · -- only the empty path and absolute ones follow an end slash
    rcases parts with ⟨same, rfl⟩ | ⟨rest, same, -⟩
    · rw [placeOf, List.append_right_eq_self.1 same]
      rfl
    · simp [isAbsolute, List.append_cancel_left same] at relative
  · rcases parts with ⟨same, -⟩ | ⟨rest, same, rfl⟩
    · simp at same
    · obtain rfl : path.toList = rest := by simpa using same
      rfl

/-- The pieces of a name in a folder: the name stands behind the pieces of the folder, or in place
of an empty one at their end. -/
theorem pieces?_join (plain : Plain name) (cut : t.pieces? path = .ok pieces)
    (joined : t.pieces? (join path name) = .ok more) :
    more = pieces ++ [name] ∨ ∃ front, pieces = front ++ [""] ∧ more = front ++ [name] := by
  have named : name.toList ≠ [] := fun none => by
    have idle := plain.busy
    simp [String.toList_eq_nil_iff.1 none, isIdle] at idle
  have headed : ∀ rest, name.toList ≠ '/' :: rest := fun rest slash =>
    plain.whole (slash ▸ List.mem_cons_self)
  obtain ⟨-, joined⟩ := pieces?_eq_ok_iff.1 joined
  obtain ⟨-, cut⟩ := pieces?_eq_ok_iff.1 cut
  rw [toList_join plain.not_isAbsolute] at joined
  rcases cut with ⟨top, rfl⟩ | ⟨rest, parts, rfl⟩
  · rw [top] at joined
    split at joined
    · simp [named, headed] at joined
    · obtain ⟨below, same, rfl⟩ := joined.resolve_left (by simp)
      simp only [List.append_cancel_left_eq, List.cons.injEq, true_and] at same
      exact .inl (same ▸ plain.names)
  · rw [parts] at joined
    split at joined
    · rename_i ends
      rw [List.append_assoc, List.cons_append] at joined
      obtain ⟨below, same, rfl⟩ := joined.resolve_left (by simp)
      simp only [List.append_cancel_left_eq, List.cons.injEq, true_and] at same
      rcases List.eq_nil_or_concat' rest with rfl | ⟨front, last, rfl⟩
      · exact .inr ⟨[], rfl, same ▸ plain.names⟩
      · rw [← List.cons_append, ← List.append_assoc, List.getLast?_concat] at ends
        obtain rfl : last = '/' := ends
        refine .inr ⟨names front, names_append_slash front [], ?_⟩
        rw [← same, List.append_assoc, List.singleton_append, names_append_slash, plain.names]
    · rw [List.append_assoc, List.cons_append] at joined
      obtain ⟨below, same, rfl⟩ := joined.resolve_left (by simp)
      simp only [List.append_cancel_left_eq, List.cons.injEq, true_and] at same
      rw [← same, names_append_slash, plain.names]
      exact .inl rfl

theorem place?_join (plain : Plain name) (cut : t.pieces? path = .ok pieces)
    (found : t.place? (join path name) = .ok place) :
    place = lead [] pieces ++ [name] ∧ Fits [] pieces ∧
      ∀ p ∈ visited [] pieces, t.get? p = some .folder := by
  obtain ⟨more, joined, followed⟩ := place?_eq_ok_iff.1 found
  obtain ⟨folders, fits, rfl⟩ := follow_eq_ok_iff.1 followed
  rcases pieces?_join plain cut joined with rfl | ⟨front, rfl, rfl⟩
  · rw [passed_concat] at folders
    refine ⟨?_, fits.front (List.prefix_append ..), folders⟩
    rw [lead_append]
    exact plain.onward
  · have idle : lead [] (front ++ [""]) = lead [] front := by
      rw [lead_append]
      exact onward_of_isIdle isIdle_empty
    rw [passed_concat] at folders
    refine ⟨?_, ?_, ?_⟩
    · rw [idle, lead_append]
      exact plain.onward
    · obtain ⟨short, stays⟩ := fits.front (List.prefix_append ..)
      refine ⟨fun piece member => ?_, stays_append.2 ⟨stays, stays_of_names (by simp)⟩⟩
      rcases List.mem_append.1 member with before | last
      · exact short piece before
      · rw [List.mem_singleton.1 last]
        decide
    · intro p member
      rw [visited, passed_concat, idle, visited, List.append_assoc, List.mem_append] at member
      refine folders p ?_
      rw [visited]
      simpa using member

theorem place?_join_root (plain : Plain name) (found : t.place? (join t.root name) = .ok place) :
    t.pieces? (join t.root name) = .ok [name] ∧ place = [name] := by
  obtain ⟨more, joined, -⟩ := place?_eq_ok_iff.1 found
  have absent := (pieces?_eq_ok_iff.1 joined).1
  have cut : t.pieces? t.root = .ok [] := by
    refine pieces?_eq_ok_iff.2 ⟨fun zero => absent ?_, .inl ⟨rfl, rfl⟩⟩
    rw [toList_join plain.not_isAbsolute]
    split <;> simp [zero]
  refine ⟨?_, (place?_join plain cut found).1⟩
  rcases pieces?_join plain cut joined with rfl | ⟨front, none, -⟩
  · exact joined
  · simp at none

end Tree

end ComponentCompiler.Files
