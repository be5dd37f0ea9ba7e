import ComponentCompiler.Proofs.Files.Folders

namespace ComponentCompiler.Files.Tree

variable {t t' t₁ b : Tree} {place out p : Place} {pieces : List String} {path : String}
  {empty : Bool} {content : Option String}

def LiesIn (t : Tree) (path : String) (place : Place) : Prop :=
  ∃ folder ∈ t.leads? path, folder <+: place

instance (t : Tree) (path : String) (place : Place) : Decidable (t.LiesIn path place) :=
  inferInstanceAs (Decidable (∃ folder ∈ t.leads? path, folder <+: place))

theorem liesIn_iff (leads : t.leads? path = some out) : t.LiesIn path place ↔ out <+: place := by
  simp [LiesIn, leads]

theorem find?_of_place? (found : t.place? path = .ok place) : t.find? path = t.get? place := by
  rw [find?, found]
  rfl

theorem isFolder_iff :
    t.isFolder path = true ↔ ∃ place, t.place? path = .ok place ∧ t.get? place = some .folder := by
  rw [isFolder, decide_eq_true_iff, find?]
  cases t.place? path <;> simp [Except.toOption]

/-- A removal does nothing but to a folder; there it leaves the folder itself when the path ends in
dots. -/
theorem removeFolder_cases (t : Tree) (path : String) :
    (t.isFolder path = false ∧ ∃ e, t.removeFolder path = (t, some e)) ∨
      ∃ pieces place, t.pieces? path = .ok pieces ∧ t.place? path = .ok place ∧
        t.get? place = some .folder ∧
          (t.removeFolder path = (t.clear place, some .invalid) ∧ EndsInDot pieces ∨
            t.removeFolder path = (t.clear place, none) ∧
              (withoutEndSlashes pieces).getLast? = some ".." ∨
            t.removeFolder path = (t.erase place, none) ∧ ¬EndsInDot pieces) := by
  rw [removeFolder]
  cases cut : t.pieces? path with
  | error e =>
    refine .inl ⟨?_, e, rfl⟩
    simp [isFolder, find?, place?, cut, Except.bind, Except.toOption]
  | ok pieces =>
    cases found : t.place? path with
    | error e =>
      refine .inl ⟨?_, e, rfl⟩
      simp [isFolder, find?, found, Except.toOption]
    | ok place =>
      have here := find?_of_place? found
      dsimp only
      cases there : t.get? place with
      | none =>
        refine .inl ⟨?_, .notFound, rfl⟩
        simp [isFolder, here, there]
      | some entry =>
        cases entry with
        | file text =>
          refine .inl ⟨?_, .notFolder, rfl⟩
          simp [isFolder, here, there]
        | folder =>
          refine .inr ⟨pieces, place, rfl, rfl, there, ?_⟩
          dsimp only
          split
          · exact .inl ⟨rfl, ‹_›⟩
          · exact .inr (.inl ⟨rfl, ‹_›⟩)
          · rename_i dot _
            exact .inr (.inr ⟨rfl, dot⟩)

theorem get?_removeFolder_file :
    (t.removeFolder path).1.get? place = some (.file content) ↔
      t.get? place = some (.file content) ∧
        ¬(t.isFolder path = true ∧ t.LiesIn path place) := by
  rcases removeFolder_cases t path with
    ⟨isFolder, e, removed⟩ | ⟨pieces, out, -, found, folder, cases_⟩
  · simp [removed, isFolder]
  · have isFolder := isFolder_iff.2 ⟨out, found, folder⟩
    have inside : t.LiesIn path place ↔ out <+: place := liesIn_iff (leads?_of_place? found)
    rw [isFolder, inside]
    have cleared : (t.clear out).get? place = some (.file content) ↔
        t.get? place = some (.file content) ∧ ¬(true = true ∧ out <+: place) := by
      rw [get?_clear]
      by_cases same : place = out
      · simp [same, folder]
      · by_cases under : out <+: place <;> simp [same, under]
    have erased : (t.erase out).get? place = some (.file content) ↔
        t.get? place = some (.file content) ∧ ¬(true = true ∧ out <+: place) := by
      rw [get?_erase]
      by_cases top : place = []
      · simp [top]
      · by_cases under : out <+: place <;> simp [top, under]
    rcases cases_ with ⟨removed, -⟩ | ⟨removed, -⟩ | ⟨removed, -⟩ <;> rw [removed]
    · exact cleared
    · exact cleared
    · exact erased

def prepare (t : Tree) (path : String) (empty : Bool) : Tree × Option FileError :=
  if empty && (t.find? path).isSome then
    match t.removeFolder path with
    | (t, none) => t.makeFolders path
    | (t, some e) => (t, some e)
  else t.makeFolders path

/-- Making a folder ready loses the files in it, if it is emptied, and no other. -/
theorem get?_prepare_file :
    (t.prepare path empty).1.get? place = some (.file content) ↔
      t.get? place = some (.file content) ∧
        ¬(empty = true ∧ t.isFolder path = true ∧ t.LiesIn path place) := by
  have made (t : Tree) : (t.makeFolders path).1.get? place = some (.file content) ↔
      t.get? place = some (.file content) := (foldersAdded_makeFolders t path).file_iff
  have removed : (t.removeFolder path).1.get? place = some (.file content) ↔ _ :=
    get?_removeFolder_file
  rw [prepare]
  split
  · rename_i wished
    rw [Bool.and_eq_true] at wished
    rw [and_iff_right (a := empty = true) wished.1, ← removed]
    split <;> rename_i result
    · rw [made, result]
    · rw [result]
  · rename_i kept
    rw [made, iff_self_and]
    intro _ both
    refine kept ?_
    obtain ⟨here, found, folder⟩ := isFolder_iff.1 both.2.1
    simp [both.1, find?_of_place? found, folder]

@[simp] theorem root_prepare (t : Tree) (path : String) (empty : Bool) :
    (t.prepare path empty).1.root = t.root := by
  have made (t : Tree) : (t.makeFolders path).1.root = t.root :=
    (foldersAdded_makeFolders t path).root
  have removed : (t.removeFolder path).1.root = t.root := by
    rcases removeFolder_cases t path with ⟨-, e, removed⟩ | ⟨_, _, -, -, -, ⟨removed, -⟩ | removed⟩
    · rw [removed]
    · rw [removed, root_clear]
    · rcases removed with ⟨removed, -⟩ | ⟨removed, -⟩ <;> rw [removed] <;> rfl
  rw [prepare]
  split
  · split <;> rename_i result <;> rw [result] at removed
    · rw [made, removed]
    · exact removed
  · exact made t

theorem exists_pieces_of_prepare (done : (t.prepare path empty).2 = none) :
    ∃ pieces, t.pieces? path = .ok pieces := by
  cases cut : t.pieces? path with
  | ok pieces => exact ⟨pieces, rfl⟩
  | error e =>
    have absent : t.find? path = none := by simp [find?, place?, cut, Except.bind, Except.toOption]
    simp [prepare, absent, makeFolders, cut] at done

theorem not_file_of_prepare (cut : t.pieces? path = .ok pieces)
    (done : t.prepare path empty = (t₁, none)) (last : t₁.get? (lead [] pieces) = some .folder)
    (content : Option String) : t.get? (lead [] pieces) ≠ some (.file content) := by
  intro file
  have kept : t₁.get? (lead [] pieces) = some (.file content) ↔ _ := done ▸ get?_prepare_file
  rw [last] at kept
  refine absurd (kept.2 ⟨file, fun emptied => ?_⟩) (by simp)
  obtain ⟨place, found, folder⟩ := isFolder_iff.1 emptied.2.1
  simp [lead_of_place? cut found, folder] at file

theorem prepare_of_endsInDot (cut : t.pieces? path = .ok pieces) (dot : EndsInDot pieces)
    (folder : t.isFolder path = true) : (t.prepare path true).2 = some .invalid := by
  obtain ⟨place, found, there⟩ := isFolder_iff.1 folder
  rw [prepare, find?_of_place? found, there]
  rcases removeFolder_cases t path with ⟨other, -⟩ | ⟨_, _, cut', -, -, cases_⟩
  · simp [folder] at other
  · obtain rfl : pieces = _ := Except.ok.inj (cut.symm.trans cut')
    rcases cases_ with ⟨removed, -⟩ | ⟨-, up⟩ | ⟨-, clean⟩
    · simp [removed]
    · simp [EndsInDot, up] at dot
    · exact absurd dot clean

/-- A path that leads to its folder through no place below it, and otherwise through folders that
hold it or are there anyway, and that names it at its end. -/
structure Straight (t : Tree) (pieces : List String) : Prop where
  named : ¬EndsInDot pieces
  outside : ∀ p ∈ passed [] pieces, lead [] pieces <+: p → p = lead [] pieces
  there : ∀ p ∈ passed [] pieces, p <+: lead [] pieces ∨ t.get? p = some .folder

def IsStraight (t : Tree) (path : String) : Prop :=
  ∃ pieces, t.pieces? path = .ok pieces ∧ t.Straight pieces

theorem straight_of_names (t : Tree) (plain : ∀ piece ∈ pieces, piece ≠ "." ∧ piece ≠ "..") :
    t.Straight pieces := by
  have holds : ∀ p ∈ passed [] pieces, p <+: lead [] pieces :=
    (prefix_lead fun piece member => (plain piece member).2).2
  refine ⟨fun dot => ?_, fun p on under => ?_, fun p on => .inl (holds p on)⟩
  · exact (plain _ ((withoutEndSlashes_isPrefix pieces).subset (List.mem_of_getLast? dot))).1 rfl
  · exact (holds p on).eq_of_length_le under.length_le

namespace Straight

theorem not_endsUp (straight : t.Straight pieces) (proper : lead [] pieces ≠ []) :
    (withoutEndSlashes pieces).getLast? ≠ some ".." := by
  intro last
  obtain ⟨front, parts⟩ := List.getLast?_eq_some_iff.1 last
  have end_ : lead [] pieces = (lead [] front).dropLast := by
    rw [← lead_withoutEndSlashes, parts, lead_append]
    rfl
  have on : lead [] front ∈ passed [] pieces := by
    obtain ⟨more, whole⟩ := withoutEndSlashes_isPrefix pieces
    rw [← whole, passed_append, parts, passed_concat]
    simp [visited]
  have same := straight.outside _ on (end_ ▸ List.dropLast_prefix _)
  have length := congrArg List.length (same.trans end_)
  rw [List.length_dropLast] at length
  have positive := List.length_pos_of_ne_nil (same ▸ proper)
  omega

theorem removeFolder (straight : t.Straight pieces) (proper : lead [] pieces ≠ [])
    (cut : t.pieces? path = .ok pieces) (folder : t.isFolder path = true) :
    t.removeFolder path = (t.erase (lead [] pieces), none) := by
  rcases removeFolder_cases t path with ⟨other, -⟩ | ⟨_, place, cut', found, -, cases_⟩
  · simp [folder] at other
  · obtain rfl : pieces = _ := Except.ok.inj (cut.symm.trans cut')
    obtain rfl := lead_of_place? cut found
    rcases cases_ with ⟨-, dot⟩ | ⟨-, up⟩ | ⟨removed, -⟩
    · exact absurd dot straight.named
    · exact absurd up (straight.not_endsUp proper)
    · exact removed

end Straight

/-- What is known after a folder was made ready: it is the last of the folders added to what is
beside it. -/
structure Ready (t : Tree) (out : Place) (t₁ b : Tree) : Prop where
  grown : Grown out (t.erase out) b
  missing : b.get? out = none
  added : t₁ = b.put out .folder

namespace Ready

theorem erase (ready : t.Ready out t₁ b) (sound : t.Sound) : t₁.erase out = b := by
  rw [ready.added, erase_put List.prefix_rfl,
    erase_of_missing (ready.grown.sound (sound.erase out)) ready.missing]

theorem get?_inside (ready : t.Ready out t₁ b) (sound : t.Sound) (inside : out <+: place) :
    t₁.get? place = if place = out then some .folder else none := by
  rw [ready.added, get?_put]
  have proper : place ≠ [] := fun top =>
    ne_nil_of_missing ready.missing (List.prefix_nil.1 (top ▸ inside))
  by_cases same : place = out
  · simp [same, same ▸ proper]
  · simp [same, (ready.grown.sound (sound.erase out)).missing_below ready.missing inside]

theorem get?_outside (ready : t.Ready out t₁ b) (outside : ¬out <+: place) :
    t₁.get? place = t.get? place ∨
      t.get? place = none ∧ t₁.get? place = some .folder ∧ place <+: out := by
  have kept : (t.erase out).get? place = t.get? place := by
    rw [get?_erase, if_neg fun both => outside both.1]
  rw [ready.added, get?_put_of_ne (by rintro rfl; exact outside List.prefix_rfl), ← kept]
  by_cases holds : place <+: out
  · exact (ready.grown.foldersAdded.same_or_new place).imp_right fun new => ⟨new.1, new.2, holds⟩
  · exact .inl (ready.grown.get?_aside holds)

end Ready

section

variable (sound : t.Sound) (cut : t.pieces? path = .ok pieces) (straight : t.Straight pieces)
  (fits : Fits [] pieces) (proper : lead [] pieces ≠ [])

include sound cut straight fits

theorem isFolder_of_straight (folder : t.get? (lead [] pieces) = some .folder) :
    t.isFolder path = true := by
  have folders : ∀ p ∈ passed [] pieces, t.get? p = some .folder := by
    intro p member
    rcases straight.there p member with holds | there
    · by_cases last : p = lead [] pieces
      · rw [last, folder]
      · exact sound.folder_above holds last (by simp [folder])
    · exact there
  have found : t.place? path = .ok (lead [] pieces) :=
    place?_eq_ok_iff.2 ⟨pieces, cut, follow_eq_ok_iff.2 ⟨folders, fits, rfl⟩⟩
  exact isFolder_iff.2 ⟨_, found, folder⟩

include proper

theorem makeFolders_of_prepare (done : t.prepare path true = (t₁, none))
    (last : t₁.get? (lead [] pieces) = some .folder) :
    (t.erase (lead [] pieces)).makeFolders path = (t₁, none) := by
  rw [prepare, Bool.true_and] at done
  split at done
  · split at done
    · rename_i t₀ removed
      have folder : t.isFolder path = true := by
        rcases removeFolder_cases t path with ⟨-, e, failed⟩ | ⟨_, place, -, found, folder, -⟩
        · simp [failed] at removed
        · exact isFolder_iff.2 ⟨place, found, folder⟩
      rw [straight.removeFolder proper cut folder] at removed
      obtain ⟨rfl, -⟩ := Prod.mk.injEq .. ▸ removed
      exact done
    · simp at done
  · rename_i absent
    have missing : t.get? (lead [] pieces) = none := by
      rcases (foldersAdded_makeFolders t path).same_or_new (lead [] pieces) with same | new
      · rw [done] at same
        have folder := isFolder_of_straight sound cut straight fits (same.symm.trans last)
        obtain ⟨here, found, folder⟩ := isFolder_iff.1 folder
        simp [find?_of_place? found, folder] at absent
      · exact new.1
    rw [erase_of_missing sound missing, done]

theorem exists_ready (done : t.prepare path true = (t₁, none))
    (way : ∀ p ∈ visited [] pieces, t₁.get? p = some .folder) :
    ∃ b, t.Ready (lead [] pieces) t₁ b := by
  have last := way (lead [] pieces) (by simp [visited])
  have made := makeFolders_of_prepare sound cut straight fits proper done last
  have gone : (t.erase (lead [] pieces)).get? (lead [] pieces) = none := by
    simp [get?_erase, proper]
  have open_ : ∀ p ∈ visited [] pieces, (t.erase (lead [] pieces)).get? p = some .folder ∨
      (t.erase (lead [] pieces)).get? p = none ∧ p <+: lead [] pieces := by
    intro p member
    have added := foldersAdded_makeFolders (t.erase (lead [] pieces)) path
    rw [made] at added
    rcases added.same_or_new p with same | new
    · exact .inl (same ▸ way p member)
    · refine .inr ⟨new.1, ?_⟩
      rcases List.mem_append.1 member with on | last
      · refine (straight.there p on).elim id fun there => ?_
        by_cases inside : lead [] pieces <+: p
        · exact (straight.outside p on inside) ▸ List.prefix_rfl
        · simp [get?_erase, inside, there] at new
      · exact List.mem_singleton.1 last ▸ List.prefix_rfl
  obtain ⟨t₂, again, grown, -⟩ := exists_makeFoldersWithin_grown (sound.erase _) fits straight.named
    (Nat.lt_succ_self pieces.length) open_
  have same : t₁ = t₂ := by
    rw [makeFolders, pieces?_congr (root_erase ..), cut] at made
    exact (Prod.mk.inj (made.symm.trans again)).1
  obtain ⟨b, before, missing, rfl⟩ :=
    grown.exists_put_out (sound.erase _) gone (by simp [← same, last])
  exact ⟨b, before, missing, same⟩

theorem prepare_of_ready (ready : t.Ready (lead [] pieces) t₁ b)
    (root : t'.root = t.root) (left : t'.erase (lead [] pieces) = b)
    (way : ∀ p ∈ visited [] pieces, t'.get? p = some .folder) :
    t'.prepare path true = (t₁, none) := by
  have cut' : t'.pieces? path = .ok pieces := by rw [pieces?_congr root, cut]
  have open_ : ∀ p ∈ passed [] pieces, t'.get? p = some .folder := fun p on =>
    way p (passed_subset_visited _ _ on)
  have found : t'.place? path = .ok (lead [] pieces) :=
    place?_eq_ok_iff.2 ⟨pieces, cut', follow_eq_ok_iff.2 ⟨open_, fits, rfl⟩⟩
  have last := way (lead [] pieces) (by simp [visited])
  have removed := Straight.removeFolder
    ⟨straight.named, straight.outside, fun p on => .inr (open_ p on)⟩ proper cut'
    (isFolder_iff.2 ⟨_, found, last⟩)
  rw [left] at removed
  have beside (p : Place) (aside : ¬(lead [] pieces <+: p ∧ p ≠ [])) : b.get? p = t'.get? p := by
    rw [← left, get?_erase, if_neg aside]
  have again_way : ∀ p ∈ visited [] pieces, b.get? p = some .folder ∨
      b.get? p = none ∧ p <+: lead [] pieces := by
    intro p member
    by_cases inside : lead [] pieces <+: p
    · obtain rfl : p = lead [] pieces := by
        rcases List.mem_append.1 member with on | last
        · exact straight.outside p on inside
        · exact List.mem_singleton.1 last
      exact .inr ⟨ready.missing, List.prefix_rfl⟩
    · rw [beside p fun both => inside both.1]
      exact .inl (way p member)
  have b_sound := ready.grown.sound (sound.erase _)
  obtain ⟨t₂, made, grown, all⟩ := exists_makeFoldersWithin_grown b_sound fits straight.named
    (Nat.lt_succ_self pieces.length) again_way
  obtain ⟨b', before, missing, rfl⟩ :=
    grown.exists_put_out b_sound ready.missing (by simp [all (lead [] pieces) (by simp [visited])])
  have same : b' = b := before.eq_of_missing missing fun p holds differs => by
    have under : ¬lead [] pieces <+: p := fun inside =>
      differs (holds.eq_of_length_le inside.length_le)
    rw [beside p fun both => under both.1]
    rcases mem_visited_of_above holds with top | on
    · rw [List.prefix_nil.1 top, get?_nil]
    · exact way p on
  rw [prepare, find?_of_place? found, last]
  simp only [Option.isSome_some, Bool.and_self, if_true, removed]
  rw [makeFolders, ← left, pieces?_congr (root_erase ..), cut', left, ready.added, ← same]
  exact same ▸ made

end

end ComponentCompiler.Files.Tree
