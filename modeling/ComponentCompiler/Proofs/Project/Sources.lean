import ComponentCompiler.Proofs.Project.Steps

namespace ComponentCompiler.Project

open Files (Place Tree join placeOf)
open Step

/-- A configuration whose directories are given by relative paths that stay in the project. -/
structure Config.StaysInside (c : Config) : Prop where
  src : Files.StaysInside c.srcDir
  components : Files.StaysInside (join c.srcDir c.libDir)
  out : Files.StaysInside c.outDir

/-- A place in the folder of the sources or in that of the components. -/
def Config.IsSource (c : Config) (place : Place) : Prop :=
  placeOf c.srcDir <+: place ∨ placeOf (join c.srcDir c.libDir) <+: place

variable {t : Tree} {text : String} {c : Config} {lines : List LogLine}

theorem build_tree (there : t.read (join t.root configName) = .ok text)
    (accepted : Config.read text = .ok (c, lines)) :
    ((build t.root).on t).2.2 = (t.prepare (c.folders t.root).out c.emptyOutDir).1 ∨
      (t.prepare (c.folders t.root).out c.emptyOutDir).2 = none ∧
        PutInto (c.folders t.root).out (t.prepare (c.folders t.root).out c.emptyOutDir).1
          ((build t.root).on t).2.2 := by
  have built := outcome_build there accepted
  rw [on_eq]
  dsimp only
  cases ready : (t.prepare (c.folders t.root).out c.emptyOutDir).2 with
  | some e =>
    rw [ready] at built
    exact .inl (congrArg (·.2.tree) built)
  | none =>
    rw [ready] at built
    dsimp only at built
    rw [built]
    exact .inr ⟨rfl, putInto_buildInto (c.folders t.root) c (.ready t c lines)⟩

theorem build_keeps_outside {place : Place} {content : Option String}
    (there : t.read (join t.root configName) = .ok text)
    (accepted : Config.read text = .ok (c, lines))
    (outside : ¬t.LiesIn (c.folders t.root).out place)
    (before : t.get? place = some (.file content)) :
    ((build t.root).on t).2.2.get? place = some (.file content) := by
  have kept : (t.prepare (c.folders t.root).out c.emptyOutDir).1.get? place =
      some (.file content) :=
    Tree.get?_prepare_file.2 ⟨before, fun emptied => outside emptied.2.2⟩
  rcases build_tree there accepted with stopped | ⟨done, put⟩
  · rw [stopped, kept]
  · obtain ⟨pieces, cut⟩ := Tree.exists_pieces_of_prepare done
    obtain ⟨files, filled⟩ := put pieces (by rw [Tree.pieces?_congr (Tree.root_prepare ..), cut])
    rw [filled.put, Tree.get?_putAll_of_ne, kept]
    rintro file member rfl
    have stays := (filled.opens (List.ne_nil_of_mem member)).1.fits.stays
    exact outside ⟨_, Tree.leads?_eq_some_iff.2 ⟨pieces, cut, stays, rfl⟩, List.prefix_append ..⟩

/-- A build keeps every source file that does not lie in its own folder, however the folders lie to
one another and whether the build succeeds or fails. -/
theorem build_keeps_sources (there : t.read (join t.root configName) = .ok text)
    (accepted : Config.read text = .ok (c, lines)) (inside : c.StaysInside) :
    ∀ place content, c.IsSource place → ¬placeOf c.outDir <+: place →
      t.get? place = some (.file content) →
        ((build t.root).on t).2.2.get? place = some (.file content) := by
  intro place content _ apart before
  refine build_keeps_outside there accepted ?_ before
  rintro ⟨out, leads, under⟩
  obtain rfl := Tree.eq_placeOf inside.out.relative leads
  exact apart under

def configText (outDir : String) : String :=
  "\x7b\"bundle\":\x7b\"outDir\":\"" ++ outDir ++ "\"\x7d\x7d"

theorem exists_read_configText {outDir : String} (known : outDir = "dist" ∨ outDir = "src") :
    ∃ c lines, Config.read (configText outDir) = .ok (c, lines) ∧
      c.srcDir = "src" ∧ c.libDir = "lib" ∧ c.outDir = outDir ∧ c.emptyOutDir = true := by
  have accepted : (Config.read (configText outDir)).toOption.map
      (fun result => (result.1.srcDir, result.1.libDir, result.1.outDir, result.1.emptyOutDir)) =
        some ("src", "lib", outDir, true) := by
    rcases known with rfl | rfl <;> decide +kernel
  obtain ⟨⟨c, lines⟩, read, named⟩ := exists_ok accepted
  simp only [Prod.mk.injEq] at named
  exact ⟨c, lines, read, named⟩

def cardProject (outDir : String) : Tree where
  root := "/project"
  entries := [
    ([configName], .file (some (configText outDir))),
    (["src"], .folder),
    (["src", "index.html"], .file (some "<app><card></card></app>")),
    (["src", "note"], .file (some "")),
    (["src", "lib"], .folder),
    (["src", "lib", "Card.html"], .file (some "<b></b>"))]

theorem build_keeps_sources_card : ∃ c lines,
    (cardProject "dist").read (join (cardProject "dist").root configName) =
        .ok (configText "dist") ∧
      Config.read (configText "dist") = .ok (c, lines) ∧ c.StaysInside ∧
        ((build (cardProject "dist").root).on (cardProject "dist")).2.2.get? ["src", "note"] =
          some (.file (some "")) := by
  have there : (cardProject "dist").read (join (cardProject "dist").root configName) =
      .ok (configText "dist") := by
    decide +kernel
  obtain ⟨c, lines, read, src, lib, out, -⟩ := exists_read_configText (.inl rfl)
  have inside : c.StaysInside :=
    ⟨by rw [src]; decide +kernel, by rw [src, lib]; decide +kernel, by rw [out]; decide +kernel⟩
  refine ⟨c, lines, there, read, inside, ?_⟩
  refine build_keeps_sources there read inside _ _ (.inl ?_) ?_ (by decide +kernel)
  · rw [src]
    decide +kernel
  · rw [out]
    decide +kernel

/-- When the folder of the build is the one of the sources, the build empties it: the page is gone
before it is read. -/
theorem build_loses_page : ∃ c lines,
    (cardProject "src").read (join (cardProject "src").root configName) =
        .ok (configText "src") ∧
      Config.read (configText "src") = .ok (c, lines) ∧ c.StaysInside ∧
        c.IsSource ["src", "index.html"] ∧
        (cardProject "src").get? ["src", "index.html"] =
          some (.file (some "<app><card></card></app>")) ∧
        ((build (cardProject "src").root).on (cardProject "src")).2.2.get? ["src", "index.html"] =
          none := by
  obtain ⟨c, lines, read, src, lib, out, -⟩ := exists_read_configText (.inr rfl)
  have inside : c.StaysInside :=
    ⟨by rw [src]; decide +kernel, by rw [src, lib]; decide +kernel, by rw [out]; decide +kernel⟩
  refine ⟨c, lines, by decide +kernel, read, inside, .inl ?_, by decide +kernel, by decide +kernel⟩
  rw [src]
  decide +kernel

end ComponentCompiler.Project
