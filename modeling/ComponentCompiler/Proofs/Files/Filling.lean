import ComponentCompiler.Proofs.Files.Preparation

namespace ComponentCompiler.Files.Tree

variable {t t' t₁ b : Tree} {place out : Place} {pieces : List String} {path : String}
  {content : Option String}

theorem write_eq_ok_iff :
    t.write path content = .ok t' ↔
      ∃ place, t.place? path = .ok place ∧ t.get? place ≠ some .folder ∧
        t.put place (.file content) = t' := by
  rw [write, bind_eq_ok_iff]
  refine exists_congr fun place => and_congr_right fun _ => ?_
  cases there : t.get? place with
  | none => simp
  | some entry => cases entry <;> simp

theorem read_eq_ok_iff {text : String} :
    t.read path = .ok text ↔
      ∃ place, t.place? path = .ok place ∧ t.get? place = some (.file (some text)) := by
  rw [read, bind_eq_ok_iff]
  refine exists_congr fun place => and_congr_right fun _ => ?_
  cases there : t.get? place with
  | none => simp
  | some entry =>
    cases entry with
    | folder => simp
    | file text => cases text <;> simp

theorem read_join_root {name text : String} (plain : Plain name) (root : t'.root = t.root)
    (same : t'.get? [name] = t.get? [name]) (read : t.read (join t.root name) = .ok text) :
    t'.read (join t'.root name) = .ok text := by
  obtain ⟨place, found, there⟩ := read_eq_ok_iff.1 read
  obtain ⟨cut, rfl⟩ := place?_join_root plain found
  obtain ⟨_, cut', followed⟩ := place?_eq_ok_iff.1 found
  obtain rfl : [name] = _ := Except.ok.inj (cut.symm.trans cut')
  obtain ⟨-, fits, last⟩ := follow_eq_ok_iff.1 followed
  have followed' : t'.follow [] [name] = .ok [name] :=
    follow_eq_ok_iff.2 ⟨by simp [passed], fits, last⟩
  refine read_eq_ok_iff.2 ⟨[name], place?_eq_ok_iff.2 ⟨[name], ?_, followed'⟩, by rw [same, there]⟩
  rw [pieces?_congr root, root, cut]

def putAll (t : Tree) (out : Place) (files : List (String × String)) : Tree :=
  files.foldl (fun t file => t.put (out ++ [file.1]) (.file (some file.2))) t

section

variable {files : List (String × String)} {file : String × String}

@[simp] theorem putAll_nil (t : Tree) (out : Place) : t.putAll out [] = t := rfl

theorem putAll_cons (t : Tree) (out : Place) (file : String × String)
    (files : List (String × String)) :
    t.putAll out (file :: files) =
      (t.put (out ++ [file.1]) (.file (some file.2))).putAll out files := rfl

@[simp] theorem root_putAll (t : Tree) (out : Place) (files : List (String × String)) :
    (t.putAll out files).root = t.root := by
  induction files generalizing t with
  | nil => rfl
  | cons file files ih => rw [putAll_cons, ih, root_put]

theorem get?_putAll_of_ne (other : ∀ file ∈ files, place ≠ out ++ [file.1]) :
    (t.putAll out files).get? place = t.get? place := by
  induction files generalizing t with
  | nil => rfl
  | cons file files ih =>
    rw [List.forall_mem_cons] at other
    rw [putAll_cons, ih other.2, get?_put_of_ne other.1]

theorem get?_putAll_of_mem (once : (files.map Prod.fst).Nodup) (member : file ∈ files) :
    (t.putAll out files).get? (out ++ [file.1]) = some (.file (some file.2)) := by
  induction files generalizing t with
  | nil => simp at member
  | cons first files ih =>
    rw [List.map_cons, List.nodup_cons] at once
    rw [putAll_cons]
    rcases List.mem_cons.1 member with rfl | later
    · rw [get?_putAll_of_ne, get?_put_self (by simp)]
      intro other later same
      have named : file.1 = other.1 := by simpa using same
      exact once.1 (named ▸ List.mem_map_of_mem later)
    · exact ih once.2 later

theorem erase_putAll (t : Tree) (out : Place) (files : List (String × String)) :
    (t.putAll out files).erase out = t.erase out := by
  induction files generalizing t with
  | nil => rfl
  | cons file files ih => rw [putAll_cons, ih, erase_put (List.prefix_append ..)]

end

structure Opens (t : Tree) (pieces : List String) : Prop where
  fits : Fits [] pieces
  way : ∀ p ∈ visited [] pieces, t.get? p = some .folder

structure Filled (t : Tree) (pieces : List String) (files : List (String × String)) (t' : Tree) :
    Prop where
  put : t' = t.putAll (lead [] pieces) files
  opens : files ≠ [] → t.Opens pieces ∧ t'.Opens pieces

namespace Filled

variable {files more : List (String × String)} {name text : String}

theorem refl (t : Tree) (pieces : List String) : t.Filled pieces [] t := ⟨rfl, by simp⟩

theorem root (filled : t.Filled pieces files t') : t'.root = t.root := by
  rw [filled.put, root_putAll]

theorem trans (first : t.Filled pieces files t₁) (second : t₁.Filled pieces more t') :
    t.Filled pieces (files ++ more) t' where
  put := by rw [second.put, first.put, putAll, putAll, putAll, List.foldl_append]
  opens some_ := by
    by_cases none₁ : files = []
    · have same : t₁ = t := by rw [first.put, none₁, putAll_nil]
      exact same ▸ second.opens (by simpa [none₁] using some_)
    · by_cases none₂ : more = []
      · have same : t' = t₁ := by rw [second.put, none₂, putAll_nil]
        exact same ▸ first.opens none₁
      · exact ⟨(first.opens none₁).1, (second.opens none₂).2⟩

theorem get?_inside (filled : t₁.Filled pieces files t') (once : (files.map Prod.fst).Nodup)
    (ready : t.Ready (lead [] pieces) t₁ b) (sound : t.Sound) {entry : Entry}
    (inside : lead [] pieces <+: place) (differs : place ≠ lead [] pieces) :
    t'.get? place = some entry ↔
      ∃ file ∈ files, place = lead [] pieces ++ [file.1] ∧ entry = .file (some file.2) := by
  rw [filled.put]
  by_cases new : ∃ file ∈ files, place = lead [] pieces ++ [file.1]
  · obtain ⟨file, member, rfl⟩ := new
    rw [get?_putAll_of_mem once member]
    constructor
    · intro same
      exact ⟨file, member, rfl, (Option.some.inj same).symm⟩
    · rintro ⟨other, member', named, rfl⟩
      obtain rfl : other = file :=
        List.inj_on_of_nodup_map once member' member (by simpa using named.symm)
      rfl
  · push Not at new
    rw [get?_putAll_of_ne new, ready.get?_inside sound inside, if_neg differs]
    simpa using fun name text member same => absurd same (new (name, text) member)

theorem get?_outside (filled : t₁.Filled pieces files t') (outside : ¬lead [] pieces <+: place) :
    t'.get? place = t₁.get? place := by
  rw [filled.put]
  refine get?_putAll_of_ne fun file _ => ?_
  rintro rfl
  exact outside (List.prefix_append ..)

theorem of_write (plain : Plain name) (cut : t.pieces? path = .ok pieces)
    (written : t.write (join path name) (some text) = .ok t') :
    t.Filled pieces [(name, text)] t' := by
  obtain ⟨place, found, free, rfl⟩ := write_eq_ok_iff.1 written
  obtain ⟨rfl, fits, way⟩ := place?_join plain cut found
  refine ⟨rfl, fun _ => ⟨⟨fits, way⟩, fits, fun p on => ?_⟩⟩
  rw [get?_put_of_ne (by rintro rfl; exact free (way _ on)), way p on]

end Filled

end ComponentCompiler.Files.Tree
