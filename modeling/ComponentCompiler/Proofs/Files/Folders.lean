import ComponentCompiler.Proofs.Files.Following
import ComponentCompiler.Proofs.Result
import Mathlib.Data.List.DropRight

namespace ComponentCompiler.Files

section

variable {pieces : List String} {p : Place}

theorem withoutEndSlashes_eq_rdropWhile (pieces : List String) :
    withoutEndSlashes pieces = pieces.rdropWhile fun piece => decide (piece = "") := rfl

theorem withoutEndSlashes_isPrefix (pieces : List String) :
    withoutEndSlashes pieces <+: pieces := by
  rw [withoutEndSlashes_eq_rdropWhile]
  exact List.rdropWhile_prefix _ _

theorem filter_withoutEndSlashes (pieces : List String) :
    (withoutEndSlashes pieces).filter (fun piece => !isIdle piece) =
      pieces.filter fun piece => !isIdle piece := by
  rw [withoutEndSlashes_eq_rdropWhile]
  conv_rhs =>
    rw [← List.rdropWhile_append_rtakeWhile (p := fun piece => decide (piece = "")) (l := pieces)]
  rw [List.filter_append, List.self_eq_append_right, List.filter_eq_nil_iff]
  intro piece member
  obtain rfl : piece = "" := by simpa using List.mem_rtakeWhile_imp member
  simp

theorem lead_withoutEndSlashes (place : Place) (pieces : List String) :
    lead place (withoutEndSlashes pieces) = lead place pieces := by
  rw [← lead_filter, filter_withoutEndSlashes, lead_filter]

theorem mem_visited_withoutEndSlashes {place : Place} :
    p ∈ visited place (withoutEndSlashes pieces) ↔ p ∈ visited place pieces := by
  rw [← mem_visited_filter, filter_withoutEndSlashes, mem_visited_filter]

def EndsInDot (pieces : List String) : Prop :=
  (withoutEndSlashes pieces).getLast? = some "."

instance (pieces : List String) : Decidable (EndsInDot pieces) :=
  inferInstanceAs (Decidable (_ = _))

theorem exists_last (clean : ¬EndsInDot pieces) (busy : withoutEndSlashes pieces ≠ []) :
    ∃ front last, withoutEndSlashes pieces = front ++ [last] ∧ isIdle last = false := by
  obtain ⟨front, last, parts⟩ := (List.eq_nil_or_concat' _).resolve_left busy
  refine ⟨front, last, parts, ?_⟩
  rw [isIdle, Bool.or_eq_false_iff, decide_eq_false_iff_not, decide_eq_false_iff_not]
  constructor
  · rintro rfl
    rw [withoutEndSlashes_eq_rdropWhile] at parts busy
    have kept := List.rdropWhile_last_not _ _ busy
    simp [parts] at kept
  · rintro rfl
    exact clean (by rw [EndsInDot, parts, List.getLast?_concat])

theorem Fits.parent {place : Place} (fits : Fits place pieces) : Fits place (parent pieces) where
  short piece member := fits.short piece (List.mem_filter.1 (List.mem_of_mem_dropLast member)).1
  stays := (stays_filter.2 fits.stays).front (List.dropLast_prefix _)

theorem not_endsInDot_parent (pieces : List String) : ¬EndsInDot (parent pieces) := by
  intro dot
  have member := (withoutEndSlashes_isPrefix _).subset (List.mem_of_getLast? dot)
  have kept := (List.mem_filter.1 (List.mem_of_mem_dropLast member)).2
  simp [isIdle] at kept

section

variable {front : List String} {last : String} (busy : isIdle last = false)
  (parts : withoutEndSlashes pieces = front ++ [last])

include busy parts

theorem parent_eq_filter : parent pieces = front.filter fun piece => !isIdle piece := by
  rw [parent, ← filter_withoutEndSlashes, parts, List.filter_append]
  simp [busy]

theorem length_parent_lt : (parent pieces).length < pieces.length := by
  have shorter := (withoutEndSlashes_isPrefix pieces).length_le
  have filtered := List.length_filter_le (fun piece => !isIdle piece) front
  rw [parts, List.length_append, List.length_singleton] at shorter
  rw [parent_eq_filter busy parts]
  omega

theorem mem_visited_parent {place : Place} :
    p ∈ visited place (parent pieces) ↔ p ∈ passed place (withoutEndSlashes pieces) := by
  rw [parent_eq_filter busy parts, mem_visited_filter, parts, passed_concat]

end

end

namespace Tree

variable {t t' t₁ t₂ : Tree} {place other out p : Place} {pieces : List String} {path name : String}
  {e : Option FileError}

structure FoldersAdded (t t' : Tree) : Prop where
  root : t'.root = t.root
  same_or_new : ∀ place,
    t'.get? place = t.get? place ∨ t.get? place = none ∧ t'.get? place = some .folder

namespace FoldersAdded

theorem refl (t : Tree) : FoldersAdded t t := ⟨rfl, fun _ => .inl rfl⟩

theorem put (added : FoldersAdded t t') (missing : t'.get? place = none) :
    FoldersAdded t (t'.put place .folder) where
  root := added.root
  same_or_new other := by
    by_cases same : other = place
    · subst same
      refine .inr ⟨?_, get?_put_self (ne_nil_of_missing missing)⟩
      rcases added.same_or_new other with same | new
      · rw [← same, missing]
      · exact new.1
    · rw [get?_put_of_ne same]
      exact added.same_or_new other

theorem trans (first : FoldersAdded t t₁) (second : FoldersAdded t₁ t₂) : FoldersAdded t t₂ where
  root := second.root.trans first.root
  same_or_new place := by
    rcases second.same_or_new place with same | new
    · rw [same]
      exact first.same_or_new place
    · rcases first.same_or_new place with same | other
      · exact .inr ⟨same ▸ new.1, new.2⟩
      · exact .inr ⟨other.1, new.2⟩

theorem file_iff (added : FoldersAdded t t') {content : Option String} :
    t'.get? place = some (.file content) ↔ t.get? place = some (.file content) := by
  rcases added.same_or_new place with same | ⟨missing, folder⟩
  · rw [same]
  · simp [missing, folder]

theorem folder_mono (added : FoldersAdded t t') (folder : t.get? place = some .folder) :
    t'.get? place = some .folder := by
  rcases added.same_or_new place with same | new
  · rw [same, folder]
  · exact new.2

end FoldersAdded

theorem exists_of_makeFolder (made : t.makeFolder pieces = .ok t') :
    ∃ place, t.get? place = none ∧ t' = t.put place .folder := by
  rw [makeFolder, bind_eq_ok_iff] at made
  obtain ⟨place, -, made⟩ := made
  cases missing : t.get? place with
  | some entry => simp [missing] at made
  | none => exact ⟨place, missing, by simpa [missing, eq_comm] using made⟩

theorem settleFolder_tree (t : Tree) (pieces : List String) (e : FileError) :
    (t.settleFolder pieces e).1 = t := by
  rw [settleFolder]
  split <;> rfl

theorem foldersAdded_makeFoldersWithin (t : Tree) (bound : Nat) (pieces : List String) :
    FoldersAdded t (t.makeFoldersWithin bound pieces).1 := by
  have add {t t' : Tree} {pieces : List String} (made : t.makeFolder pieces = .ok t') :
      FoldersAdded t t' := by
    obtain ⟨place, missing, rfl⟩ := exists_of_makeFolder made
    exact (FoldersAdded.refl t).put missing
  induction bound generalizing pieces with
  | zero => exact .refl t
  | succ bound ih =>
    rw [makeFoldersWithin]
    split
    · rename_i made
      exact add made
    · split
      · rename_i t₁ e holders
        have before := ih (parent pieces)
        rwa [holders] at before
      · rename_i t₁ holders
        have before := ih (parent pieces)
        rw [holders] at before
        split
        · rename_i made
          exact before.trans (add made)
        · rw [settleFolder_tree]
          exact before
    · rw [settleFolder_tree]
      exact .refl t

theorem foldersAdded_makeFolders (t : Tree) (path : String) :
    FoldersAdded t (t.makeFolders path).1 := by
  rw [makeFolders]
  split
  · exact foldersAdded_makeFoldersWithin ..
  · exact .refl t

/-- A tree with folders added one by one, each in a folder that is there, on the way down to
`out`. -/
inductive Grown (out : Place) (t : Tree) : Tree → Prop
  | refl : Grown out t t
  | put {t' : Tree} {place : Place} {name : String} (before : Grown out t t')
      (missing : t'.get? (place ++ [name]) = none) (folder : t'.get? place = some .folder)
      (toward : place ++ [name] <+: out) :
      Grown out t (t'.put (place ++ [name]) .folder)

namespace Grown

theorem trans (first : Grown out t t₁) (second : Grown out t₁ t₂) : Grown out t t₂ := by
  induction second with
  | refl => exact first
  | put _ missing folder toward ih => exact ih.put missing folder toward

theorem sound (grown : Grown out t t') (sound : t.Sound) : t'.Sound := by
  induction grown with
  | refl => exact sound
  | put _ missing folder _ ih => exact ih.put missing folder _

theorem foldersAdded (grown : Grown out t t') : FoldersAdded t t' := by
  induction grown with
  | refl => exact .refl t
  | put _ missing _ _ ih => exact ih.put missing

theorem get?_aside (grown : Grown out t t') (aside : ¬place <+: out) :
    t'.get? place = t.get? place := by
  induction grown with
  | refl => rfl
  | put _ _ _ toward ih =>
    rw [get?_put_of_ne (by rintro rfl; exact aside toward), ih]

theorem exists_put_out (grown : Grown out t t') (sound : t.Sound) (missing : t.get? out = none)
    (there : t'.get? out ≠ none) :
    ∃ b, Grown out t b ∧ b.get? out = none ∧ t' = b.put out .folder := by
  cases grown with
  | refl => exact absurd missing there
  | @put b place name before new folder toward =>
    by_cases last : place ++ [name] = out
    · subst last
      exact ⟨b, before, new, rfl⟩
    · rw [get?_put_of_ne (Ne.symm last)] at there
      exact absurd ((before.sound sound).missing_below new toward) there

theorem eq_of_missing (grown : Grown out t t') (missing : t'.get? out = none)
    (way : ∀ p, p <+: out → p ≠ out → t.get? p = some .folder) : t' = t := by
  induction grown with
  | refl => rfl
  | @put b place name before new folder toward ih =>
    have proper := ne_nil_of_missing missing
    by_cases last : place ++ [name] = out
    · rw [last, get?_put_self proper] at missing
      simp at missing
    · have there := before.foldersAdded.folder_mono (way _ toward last)
      simp [new] at there

end Grown

theorem makeFolder_of_folders (fits : Fits [] pieces)
    (folders : ∀ p ∈ passed [] (withoutEndSlashes pieces), t.get? p = some .folder) :
    t.makeFolder pieces =
      if t.get? (lead [] pieces) = none then .ok (t.put (lead [] pieces) .folder)
      else .error .exists := by
  have followed : t.follow [] (withoutEndSlashes pieces) = .ok (lead [] pieces) :=
    follow_eq_ok_iff.2 ⟨folders, fits.front (withoutEndSlashes_isPrefix pieces),
      lead_withoutEndSlashes [] pieces⟩
  rw [makeFolder, followed, Except.bind]
  cases t.get? (lead [] pieces) <;> simp

theorem exists_holder (sound : t.Sound) (clean : ¬EndsInDot pieces)
    (folders : ∀ p ∈ passed [] (withoutEndSlashes pieces), t.get? p = some .folder)
    (missing : t.get? (lead [] pieces) = none) :
    ∃ place name, lead [] pieces = place ++ [name] ∧ t.get? place = some .folder := by
  rw [← lead_withoutEndSlashes] at missing ⊢
  by_cases idle : withoutEndSlashes pieces = []
  · simp [idle, lead] at missing
  · obtain ⟨front, last, parts, busy⟩ := exists_last clean idle
    rw [parts, passed_concat] at folders
    rw [parts, lead_append] at missing ⊢
    have folder : t.get? (lead [] front) = some .folder := folders _ (by simp [visited])
    have up : last ≠ ".." := by
      rintro rfl
      have lacks : t.get? (lead [] front).dropLast = none := missing
      have below := sound.missing_below lacks (List.dropLast_prefix _)
      simp [folder] at below
    exact ⟨lead [] front, last, onward_of_name busy up, folder⟩

theorem exists_makeFolder_grown (sound : t.Sound) (fits : Fits [] pieces) (clean : ¬EndsInDot pieces)
    (folders : ∀ p ∈ passed [] (withoutEndSlashes pieces), t.get? p = some .folder)
    (last : t.get? (lead [] pieces) = some .folder ∨
      t.get? (lead [] pieces) = none ∧ lead [] pieces <+: out) :
    ∃ t', (t.makeFolder pieces = .ok t' ∨
        t.makeFolder pieces = .error .exists ∧ t.settleFolder pieces .exists = (t', none)) ∧
      Grown out t t' ∧ ∀ p ∈ visited [] pieces, t'.get? p = some .folder := by
  have way : ∀ p ∈ visited [] pieces, t.get? p = some .folder ∨ p = lead [] pieces := by
    intro p member
    rw [← mem_visited_withoutEndSlashes, visited, lead_withoutEndSlashes, List.mem_append,
      List.mem_singleton] at member
    exact member.imp_left (folders p)
  have made := makeFolder_of_folders fits folders
  rcases last with there | ⟨missing, toward⟩
  · have all : ∀ p ∈ visited [] pieces, t.get? p = some .folder := fun p member =>
      (way p member).elim id fun last => last ▸ there
    refine ⟨t, .inr ⟨by rw [made, there]; rfl, ?_⟩, .refl, all⟩
    have followed : t.follow [] pieces = .ok (lead [] pieces) :=
      follow_eq_ok_iff.2 ⟨fun p member => all p (passed_subset_visited _ _ member), fits, rfl⟩
    rw [settleFolder, followed]
    simp [Except.toOption, there]
  · rw [if_pos missing] at made
    refine ⟨_, .inl made, ?_, fun p member => ?_⟩
    · obtain ⟨place, name, parts, folder⟩ := exists_holder sound clean folders missing
      rw [parts] at missing toward ⊢
      exact Grown.refl.put missing folder toward
    · by_cases same : p = lead [] pieces
      · rw [same, get?_put_self (ne_nil_of_missing missing)]
      · rw [get?_put_of_ne same]
        exact (way p member).resolve_right same

/-- Makes the folders of a path that meets nothing but folders and what is missing on the way down
to `out`. -/
theorem exists_makeFoldersWithin_grown (sound : t.Sound) {bound : Nat} (fits : Fits [] pieces)
    (clean : ¬EndsInDot pieces) (enough : pieces.length < bound)
    (way : ∀ p ∈ visited [] pieces, t.get? p = some .folder ∨ t.get? p = none ∧ p <+: out) :
    ∃ t', t.makeFoldersWithin bound pieces = (t', none) ∧ Grown out t t' ∧
      ∀ p ∈ visited [] pieces, t'.get? p = some .folder := by
  -- by induction on the bound; the folders that hold the last one are those of `parent`
  induction bound generalizing pieces with
  | zero => exact absurd enough (Nat.not_lt_zero _)
  | succ bound ih =>
    have lead_visited : lead [] pieces ∈ visited [] pieces := by simp [visited]
    by_cases folders : ∀ p ∈ passed [] (withoutEndSlashes pieces), t.get? p = some .folder
    · obtain ⟨t', made, grown, all⟩ :=
        exists_makeFolder_grown sound fits clean folders (way _ lead_visited)
      refine ⟨t', ?_, grown, all⟩
      rw [makeFoldersWithin]
      rcases made with ok | ⟨exists_, settled⟩
      · rw [ok]
      · rw [exists_]
        exact settled
    · have stripped_way : ∀ p ∈ passed [] (withoutEndSlashes pieces),
          t.get? p = some .folder ∨ t.get? p = none ∧ p <+: out := fun p member =>
        way p (mem_visited_withoutEndSlashes.1 (passed_subset_visited _ _ member))
      have notFound : t.makeFolder pieces = .error .notFound := by
        rw [makeFolder, follow_eq_notFound]
        · rfl
        · exact fits.front (withoutEndSlashes_isPrefix pieces)
        · exact fun p member => (stripped_way p member).imp_right And.left
        · push Not at folders
          obtain ⟨p, member, other⟩ := folders
          exact ⟨p, member, ((stripped_way p member).resolve_left other).1⟩
      have busy : withoutEndSlashes pieces ≠ [] := by
        intro idle
        simp [idle, passed] at folders
      obtain ⟨front, last, parts, busy⟩ := exists_last clean busy
      obtain ⟨t₁, holders, grown, all⟩ := ih fits.parent (not_endsInDot_parent pieces)
        (Nat.lt_of_lt_of_le (length_parent_lt busy parts) (Nat.le_of_lt_succ enough))
        fun p member => stripped_way p ((mem_visited_parent busy parts).1 member)
      have last_way : t₁.get? (lead [] pieces) = some .folder ∨
          t₁.get? (lead [] pieces) = none ∧ lead [] pieces <+: out := by
        rcases grown.foldersAdded.same_or_new (lead [] pieces) with same | new
        · rw [same]
          exact way _ lead_visited
        · exact .inl new.2
      obtain ⟨t', made, more, all⟩ := exists_makeFolder_grown (grown.sound sound) fits clean
        (fun p member => all p ((mem_visited_parent busy parts).2 member)) last_way
      refine ⟨t', ?_, grown.trans more, all⟩
      rw [makeFoldersWithin, notFound, holders]
      rcases made with ok | ⟨exists_, settled⟩
      · simp [ok]
      · simp [exists_, settled]

theorem erase_of_missing (sound : t.Sound) (missing : t.get? out = none) : t.erase out = t := by
  have kept : t.entries.filter (fun e => !out.isPrefixOf e.1) = t.entries := by
    refine List.filter_eq_self.2 fun e member => ?_
    rw [isPrefixOf_eq_decide, Bool.not_eq_true', decide_eq_false_iff_not]
    intro inside
    have proper : e.1 ≠ [] := fun top =>
      ne_nil_of_missing missing (List.prefix_nil.1 (top ▸ inside))
    have there := get?_of_mem sound proper member
    simp [sound.missing_below missing inside] at there
  rw [erase]
  exact congrArg (Tree.mk t.root) kept

theorem erase_put (inside : out <+: place) (entry : Entry) :
    (t.put place entry).erase out = t.erase out := by
  rw [erase, erase, put]
  congr 1
  simp only [List.filter_append, List.filter_filter, isPrefixOf_eq_decide]
  rw [List.filter_cons_of_neg (by simp [inside]), List.filter_nil, List.append_nil]
  refine List.filter_congr fun e _ => ?_
  by_cases under : out <+: e.1
  · simp [under]
  · have differs : e.1 ≠ place := fun same => under (same ▸ inside)
    simp [under, differs]

end Tree

end ComponentCompiler.Files
