import ComponentCompiler.Proofs.Project.Sources

/-!
# What a build delivers

A build that empties its folder and succeeds leaves the page with its script and its style sheet
there and nothing else, touches nothing beside its folder, and can be repeated with the same result.
This holds exactly where the path of the folder is straight.
-/

namespace ComponentCompiler.Project

open Files (Entry Place Tree join lead passed visited)
open Step

variable {t t' t₁ b : Tree} {place out : Place} {folder : String}

def listed? (place : Place) (e : Place × Entry) : Option (String × Option String) :=
  if place <+: e.1 then
    match e.1.drop place.length, e.2 with
    | [name], .file text => some (name, text)
    | _, _ => none
  else none

theorem eq_of_listed? {e : Place × Entry} {file : String × Option String}
    (listed : listed? place e = some file) : e = (place ++ [file.1], .file file.2) := by
  obtain ⟨p, entry⟩ := e
  rw [listed?] at listed
  split at listed
  · rename_i inside
    obtain ⟨rest, rfl⟩ := inside
    rw [List.drop_left] at listed
    split at listed
    · rename_i isFile
      obtain rfl := Option.some.inj listed
      exact Prod.ext rfl isFile
    · simp at listed
  · simp at listed

def filesAt (t : Tree) (place : Place) : Listing :=
  t.entries.filterMap (listed? place)

theorem listing?_eq (t : Tree) (folder : String) :
    listing? t folder =
      (t.place? folder).toOption.bind fun place =>
        if t.get? place = some .folder then some (filesAt t place) else none := by
  rw [listing?]
  cases (t.place? folder).toOption with
  | none => rfl
  | some place =>
    simp only [Option.bind_some, filesAt, Tree.children, Tree.below, List.filterMap_filterMap]
    split
    · congr 2
      funext e
      obtain ⟨p, entry⟩ := e
      by_cases inside : place <+: p
      · obtain ⟨rest, rfl⟩ := inside
        simp only [listed?, List.drop_left, Tree.isPrefixOf_eq_decide]
        rcases rest with _ | ⟨name, _ | ⟨next, rest⟩⟩ <;> cases entry <;> simp
      · simp [listed?, inside, Tree.isPrefixOf_eq_decide]
    · rfl

theorem filesAt_put_folder (sound : t.Sound) (missing : t.get? out = none) :
    filesAt (t.put out .folder) place = filesAt t place := by
  have kept : t.entries.filter (fun e => decide (e.1 ≠ out)) = t.entries := by
    refine List.filter_eq_self.2 fun e member => ?_
    rw [decide_eq_true_iff]
    rintro rfl
    have there := Tree.get?_of_mem sound (Tree.ne_nil_of_missing missing) member
    simp [missing] at there
  have unlisted : listed? place (out, .folder) = none := by
    cases listed : listed? place (out, .folder) with
    | none => rfl
    | some file => simpa using eq_of_listed? listed
  have entries : (t.put out .folder).entries = t.entries ++ [(out, .folder)] :=
    congrArg (· ++ [(out, Entry.folder)]) kept
  rw [filesAt, entries, List.filterMap_append, List.filterMap_cons_none unlisted,
    List.filterMap_nil, List.append_nil, filesAt]

theorem filesAt_grown (grown : Tree.Grown out t t') (sound : t.Sound) :
    filesAt t' place = filesAt t place := by
  induction grown with
  | refl => rfl
  | put before missing _ _ ih => rw [filesAt_put_folder (before.sound sound) missing, ih]

theorem filesAt_erase (sound : t.Sound) (apart : ¬out <+: place)
    (folder : ∀ text, t.get? out ≠ some (.file text)) :
    filesAt (t.erase out) place = filesAt t place := by
  rw [filesAt, Tree.erase, List.filterMap_filter, filesAt]
  refine List.filterMap_congr fun e member => ?_
  dsimp only
  by_cases under : out <+: e.1
  · rw [if_neg (by simp [Tree.isPrefixOf_eq_decide, under])]
    cases listed : listed? place e with
    | none => rfl
    | some file =>
      obtain rfl := eq_of_listed? listed
      have last : out = place ++ [file.1] := (List.prefix_concat_iff.1 under).resolve_right apart
      exact absurd (last ▸ Tree.get?_of_mem sound (by simp) member) (folder file.2)
  · rw [if_pos (by simp [Tree.isPrefixOf_eq_decide, under])]

theorem ofListing_filesAt {l : Library} (found : Library.discover t folder = .ok l)
    (leads : t.leads? folder = some place) :
    Library.ofListing folder (filesAt t place) = .ok l := by
  rw [Library.discover, listing?_eq] at found
  cases there : t.place? folder with
  | error e => simp [there, Except.toOption] at found
  | ok here =>
    obtain rfl : here = place := by simpa [leads] using (Tree.leads?_of_place? there).symm
    simp only [there, Except.toOption, Option.bind_some] at found
    split at found
    · rename_i files listed
      split at listed
      · obtain rfl := Option.some.inj listed
        exact found
      · simp at listed
    · simp at found

/-- What a build that empties its folder is to leave: in the folder the files of the report, made
from the sources as they were before, and nothing else; beside it nothing new but folders that hold
it. -/
structure Delivered (t : Tree) (c : Config) (src components out : Place) (report : Report)
    (t' : Tree) : Prop where
  made : ∃ source library page,
    t.get? (src ++ [pageName]) = some (.file (some source)) ∧
      Library.ofListing (c.folders t.root).components (filesAt t components) = .ok library ∧
        Component.compile library.registry c.options source = .ok page ∧
          report = .ofPage (c.folders t.root).out library page ∧
            ∀ place entry, out <+: place → place ≠ out →
              (t'.get? place = some entry ↔
                ∃ file ∈ report.files page, place = out ++ [file.1] ∧ entry = .file (some file.2))
  folder : t'.get? out = some .folder
  beside : ∀ place, ¬out <+: place →
    t'.get? place = t.get? place ∨
      t.get? place = none ∧ t'.get? place = some .folder ∧ place <+: out

section

variable {text : String} {c : Config} {lines log : List LogLine} {report : Report}
  {pieces : List String} {src components : Place}

theorem build_eq_ok_iff (there : t.read (join t.root configName) = .ok text)
    (accepted : Config.read text = .ok (c, lines)) :
    (build t.root).on t = (.ok report, log, t') ↔
      (t.prepare (c.folders t.root).out c.emptyOutDir).2 = none ∧
        (buildInto (c.folders t.root) c).outcome (.ready t c lines) = (.ok report, ⟨t', log⟩) := by
  have built := outcome_build there accepted
  rw [on_eq, built]
  cases (t.prepare (c.folders t.root).out c.emptyOutDir).2 with
  | some e => simp
  | none =>
    rcases (buildInto (c.folders t.root) c).outcome (.ready t c lines) with ⟨result, t', log⟩
    simp [and_comm]

/-- A build that succeeded, seen from where its folder was ready: what it read and what it wrote. -/
structure Succeeded (t : Tree) (c : Config) (pieces : List String) (report : Report)
    (t₁ t' : Tree) : Prop where
  cut : t.pieces? (c.folders t.root).out = .ok pieces
  prepared : t.prepare (c.folders t.root).out c.emptyOutDir = (t₁, none)
  made : ∃ source library page,
    t₁.read (join (c.folders t.root).src pageName) = .ok source ∧
      Library.discover t₁ (c.folders t.root).components = .ok library ∧
        Component.compile library.registry c.options source = .ok page ∧
          report = .ofPage (c.folders t.root).out library page ∧
            t₁.Filled pieces (report.files page) t'

theorem exists_succeeded (there : t.read (join t.root configName) = .ok text)
    (accepted : Config.read text = .ok (c, lines))
    (cut : t.pieces? (c.folders t.root).out = .ok pieces)
    (done : (build t.root).on t = (.ok report, log, t')) :
    ∃ t₁, Succeeded t c pieces report t₁ t' := by
  obtain ⟨prepared, outcome⟩ := (build_eq_ok_iff there accepted).1 done
  have cut₁ : (Workspace.ready t c lines).tree.pieces? (c.folders t.root).out = .ok pieces := by
    rw [Workspace.ready, Tree.pieces?_congr (Tree.root_prepare ..), cut]
  have made := buildInto_eq_ok cut₁ outcome
  rw [Workspace.ready] at made
  exact ⟨_, cut, Prod.ext rfl prepared, made⟩

theorem get?_configName (there : t.read (join t.root configName) = .ok text) :
    t.get? [configName] = some (.file (some text)) := by
  obtain ⟨place, found, file⟩ := Tree.read_eq_ok_iff.1 there
  rw [← (Tree.place?_join_root plain_configName found).2, file]

namespace Succeeded

variable (s : Succeeded t c pieces report t₁ t')

include s

theorem ready_root : t₁.root = t.root := by
  have root := Tree.root_prepare t (c.folders t.root).out c.emptyOutDir
  rwa [s.prepared] at root

theorem exists_filled : ∃ page, ((report.files page).map Prod.fst).Nodup ∧
    t₁.Filled pieces (report.files page) t' := by
  obtain ⟨_, _, page, -, -, -, described, filled⟩ := s.made
  refine ⟨page, ?_, filled⟩
  rw [described]
  exact nodup_files ..

theorem root : t'.root = t.root := by
  obtain ⟨page, -, filled⟩ := s.exists_filled
  exact filled.root.trans s.ready_root

theorem opens : t₁.Opens pieces ∧ t'.Opens pieces := by
  obtain ⟨page, -, filled⟩ := s.exists_filled
  exact filled.opens (by simp [Report.files])

theorem folders :
    t₁.get? (lead [] pieces) = some .folder ∧ t'.get? (lead [] pieces) = some .folder :=
  ⟨s.opens.1.way _ (by simp [visited]), s.opens.2.way _ (by simp [visited])⟩

theorem notFile (content : Option String) : t.get? (lead [] pieces) ≠ some (.file content) :=
  Tree.not_file_of_prepare s.cut s.prepared s.folders.1 content

theorem erase : t'.erase (lead [] pieces) = t₁.erase (lead [] pieces) := by
  obtain ⟨page, -, filled⟩ := s.exists_filled
  rw [filled.put, Tree.erase_putAll]

theorem read_config (inside : lead [] pieces ≠ [])
    (there : t.read (join t.root configName) = .ok text)
    (beside : ∀ place, ¬lead [] pieces <+: place →
      t'.get? place = t.get? place ∨
        t.get? place = none ∧ t'.get? place = some .folder ∧ place <+: lead [] pieces) :
    t'.read (join t'.root configName) = .ok text := by
  have config := get?_configName there
  have aside : ¬lead [] pieces <+: [configName] := by
    intro (holds : lead [] pieces <+: [] ++ [configName])
    rcases List.prefix_concat_iff.1 holds with last | top
    · exact s.notFile _ (by rw [last]; exact config)
    · exact inside (List.prefix_nil.1 top)
  refine Tree.read_join_root plain_configName s.root ?_ there
  rcases beside _ aside with same | new
  · exact same
  · simp [config] at new

theorem exists_ready (sound : t.Sound) (empties : c.emptyOutDir = true)
    (inside : lead [] pieces ≠ []) (straight : t.Straight pieces) :
    ∃ b, t.Ready (lead [] pieces) t₁ b := by
  have prepared := s.prepared
  rw [empties] at prepared
  exact Tree.exists_ready sound s.cut straight s.opens.1.fits inside prepared s.opens.1.way

theorem beside (ready : t.Ready (lead [] pieces) t₁ b) (place : Place)
    (outside : ¬lead [] pieces <+: place) :
    t'.get? place = t.get? place ∨
      t.get? place = none ∧ t'.get? place = some .folder ∧ place <+: lead [] pieces := by
  obtain ⟨page, -, filled⟩ := s.exists_filled
  rw [filled.get?_outside outside]
  exact ready.get?_outside outside

theorem delivered (sound : t.Sound) (ready : t.Ready (lead [] pieces) t₁ b)
    (src_leads : t.leads? (c.folders t.root).src = some src)
    (components_lead : t.leads? (c.folders t.root).components = some components)
    (apart : ¬lead [] pieces <+: components) :
    Delivered t c src components (lead [] pieces) report t' := by
  obtain ⟨source, library, page, read, discovered, compiled, described, filled⟩ := s.made
  have once : ((report.files page).map Prod.fst).Nodup := by
    rw [described]
    exact nodup_files ..
  refine ⟨⟨source, library, page, ?_, ?_, compiled, described, ?_⟩, s.folders.2, s.beside ready⟩
  · obtain ⟨place, found, file⟩ := Tree.read_eq_ok_iff.1 read
    obtain ⟨srcPieces, src_cut, -, rfl⟩ := Tree.leads?_eq_some_iff.1 src_leads
    rw [← Tree.pieces?_congr s.ready_root] at src_cut
    rw [← (Tree.place?_join plain_pageName src_cut found).1]
    have before : t₁.get? place = some (.file (some source)) ↔ _ :=
      s.prepared ▸ Tree.get?_prepare_file
    exact (before.1 file).1
  · have listed : filesAt t₁ components = filesAt t components := by
      rw [ready.added, filesAt_put_folder (ready.grown.sound (sound.erase _)) ready.missing,
        filesAt_grown ready.grown (sound.erase _), filesAt_erase sound apart s.notFile]
    rw [← listed]
    exact ofListing_filesAt discovered (by rw [Tree.leads?_congr s.ready_root, components_lead])
  · exact fun place entry under differs => filled.get?_inside once ready sound under differs

theorem again (sound : t.Sound) (there : t.read (join t.root configName) = .ok text)
    (accepted : Config.read text = .ok (c, lines)) (empties : c.emptyOutDir = true)
    (inside : lead [] pieces ≠ []) (straight : t.Straight pieces)
    (ready : t.Ready (lead [] pieces) t₁ b)
    (done : (build t.root).on t = (.ok report, log, t')) :
    (build t.root).on t' = (.ok report, log, t') := by
  have outcome := ((build_eq_ok_iff there accepted).1 done).2
  have left : t'.erase (lead [] pieces) = b := by rw [s.erase, ready.erase sound]
  have prepared : t'.prepare (c.folders t.root).out true = (t₁, none) :=
    Tree.prepare_of_ready sound s.cut straight s.opens.1.fits inside ready s.root left s.opens.2.way
  have there' := s.read_config inside there (s.beside ready)
  have same : Workspace.ready t' c lines = Workspace.ready t c lines := by
    rw [Workspace.ready, Workspace.ready, s.root, s.prepared, empties, prepared]
  rw [← s.root, build_eq_ok_iff there' accepted, same, s.root, empties, prepared]
  exact ⟨rfl, outcome⟩

theorem straight (there : t.read (join t.root configName) = .ok text)
    (accepted : Config.read text = .ok (c, lines)) (empties : c.emptyOutDir = true)
    (inside : lead [] pieces ≠ [])
    (delivered : Delivered t c src components (lead [] pieces) report t')
    (again : (build t.root).on t' = (.ok report, log, t')) : t.Straight pieces := by
  have way : ∀ p ∈ passed [] pieces, t'.get? p = some .folder := fun p on =>
    s.opens.2.way p (Files.passed_subset_visited _ _ on)
  have outside : ∀ p ∈ passed [] pieces, lead [] pieces <+: p → p = lead [] pieces := by
    intro p on under
    by_contra differs
    obtain ⟨_, _, _, -, -, -, -, holds⟩ := delivered.made
    obtain ⟨file, -, -, entry⟩ := (holds p .folder under differs).1 (way p on)
    cases entry
  refine ⟨fun dot => ?_, outside, fun p on => ?_⟩
  · -- the second build cannot remove the folder
    have there' := s.read_config inside there delivered.beside
    have cut : t'.pieces? (c.folders t.root).out = .ok pieces := by
      rw [Tree.pieces?_congr s.root, s.cut]
    have found : t'.place? (c.folders t.root).out = .ok (lead [] pieces) :=
      Tree.place?_eq_ok_iff.2 ⟨pieces, cut, Tree.follow_eq_ok_iff.2 ⟨way, s.opens.2.fits, rfl⟩⟩
    have failed := Tree.prepare_of_endsInDot cut dot
      (Tree.isFolder_iff.2 ⟨_, found, delivered.folder⟩)
    rw [← s.root, build_eq_ok_iff there' accepted, empties, s.root, failed] at again
    simp at again
  · by_cases under : lead [] pieces <+: p
    · exact .inl (outside p on under ▸ List.prefix_rfl)
    · rcases delivered.beside p under with same | new
      · exact .inr (same ▸ way p on)
      · exact .inl new.2.2

end Succeeded

/-- After a build that empties its folder, the folder holds what the sources make and nothing else,
nothing beside it has changed, and another build gives the same and changes nothing, if and only if
the path of the folder is straight.  The folders of the configuration lie in the project: a path that
leads out of it has no place. -/
theorem build_delivers_iff (sound : t.Sound) (there : t.read (join t.root configName) = .ok text)
    (accepted : Config.read text = .ok (c, lines)) (empties : c.emptyOutDir = true)
    (src_leads : t.leads? (c.folders t.root).src = some src)
    (components_lead : t.leads? (c.folders t.root).components = some components)
    (out_leads : t.leads? (c.folders t.root).out = some out) (inside : out ≠ [])
    (apart : ¬out <+: components) (done : (build t.root).on t = (.ok report, log, t')) :
    Delivered t c src components out report t' ∧ (build t.root).on t' = (.ok report, log, t') ↔
      t.IsStraight (c.folders t.root).out := by
  obtain ⟨pieces, cut, -, rfl⟩ := Tree.leads?_eq_some_iff.1 out_leads
  obtain ⟨t₁, s⟩ := exists_succeeded there accepted cut done
  constructor
  · rintro ⟨delivered, again⟩
    exact ⟨pieces, cut, s.straight there accepted empties inside delivered again⟩
  · rintro ⟨_, cut', straight⟩
    obtain rfl : pieces = _ := Except.ok.inj (cut.symm.trans cut')
    obtain ⟨b, ready⟩ := s.exists_ready sound empties inside straight
    exact ⟨s.delivered sound ready src_leads components_lead apart,
      s.again sound there accepted empties inside straight ready done⟩

end

def staleProject (outDir : String) : Tree :=
  ((cardProject outDir).put ["dist"] .folder).put ["dist", "stale"] (.file (some ""))

theorem exists_built {root : String} {α : Type} {f : Tree → α} {value : α}
    (evaluates : ((build root).on t).1.isOk = true ∧ f ((build root).on t).2.2 = value) :
    ∃ report log t', (build root).on t = (.ok report, log, t') ∧ f t' = value := by
  generalize (build root).on t = built at evaluates
  obtain ⟨_ | report, log, t'⟩ := built
  · simp [Except.isOk, Except.toBool] at evaluates
  · exact ⟨report, log, t', rfl, evaluates.2⟩

theorem build_delivers_stale : ∃ c report log t',
    (build (staleProject "dist").root).on (staleProject "dist") = (.ok report, log, t') ∧
      Delivered (staleProject "dist") c ["src"] ["src", "lib"] ["dist"] report t' ∧
        (build (staleProject "dist").root).on t' = (.ok report, log, t') := by
  have sound : (staleProject "dist").Sound :=
    Tree.sound_of_entries (by decide +kernel) (by decide +kernel)
  have there : (staleProject "dist").read (join (staleProject "dist").root configName) =
      .ok (configText "dist") := by
    decide +kernel
  obtain ⟨c, lines, read, src, lib, dist, empties⟩ := exists_read_configText (.inl rfl)
  have folders : c.folders (staleProject "dist").root =
      ⟨"/project", join "/project" "src", join (join "/project" "src") "lib",
        join "/project" "dist"⟩ := by
    rw [Config.folders, src, lib, dist]
    rfl
  have src_leads : (staleProject "dist").leads? (c.folders (staleProject "dist").root).src =
      some ["src"] := by
    rw [folders]
    decide +kernel
  have components_lead :
      (staleProject "dist").leads? (c.folders (staleProject "dist").root).components =
        some ["src", "lib"] := by
    rw [folders]
    decide +kernel
  have straight :
      (staleProject "dist").IsStraight (c.folders (staleProject "dist").root).out := by
    rw [folders]
    exact ⟨["dist"], by decide +kernel, Tree.straight_of_names _ (by decide)⟩
  have out_leads : (staleProject "dist").leads? (c.folders (staleProject "dist").root).out =
      some ["dist"] := by
    rw [folders]
    decide +kernel
  obtain ⟨report, log, t', done, -⟩ : ∃ report log t',
      (build (staleProject "dist").root).on (staleProject "dist") = (.ok report, log, t') ∧
        (fun _ => ()) t' = () :=
    exists_built (by decide +kernel)
  obtain ⟨delivered, again⟩ := (build_delivers_iff sound there read empties src_leads
    components_lead out_leads (by decide) (by decide) done).2 straight
  exact ⟨c, report, log, t', done, delivered, again⟩

/-- A path through a folder that is missing: the build finds nothing to empty, makes the missing
folder, and leaves it beside its files and the stale one. -/
theorem build_keeps_stale :
    (Config.read (configText "dist/new/..")).toOption.map
        (fun result => (result.1.srcDir, result.1.libDir, result.1.outDir, result.1.emptyOutDir)) =
          some ("src", "lib", "dist/new/..", true) ∧
      (staleProject "dist/new/..").leads? (join (staleProject "dist/new/..").root "dist/new/..") =
        some ["dist"] ∧
        ∃ report log t',
          (build (staleProject "dist/new/..").root).on (staleProject "dist/new/..") =
            (.ok report, log, t') ∧
          (t'.get? ["dist", "stale"], t'.get? ["dist", "new"]) =
            (some (.file (some "")), some .folder) :=
  ⟨by decide +kernel, by decide +kernel, exists_built (by decide +kernel)⟩

end ComponentCompiler.Project
