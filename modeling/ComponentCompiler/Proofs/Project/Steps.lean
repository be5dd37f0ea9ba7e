import ComponentCompiler.Project.Build
import ComponentCompiler.Proofs.Files.Filling
import ComponentCompiler.Proofs.Identity.Allocation

namespace ComponentCompiler.Project

open Files (FileError Place Plain Tree join lead)
open Step

variable {α β : Type}

namespace Step

def outcome (step : Step α) (w : Workspace) : Except CompileError α × Workspace :=
  step.run.run w

theorem outcome_pure (a : α) (w : Workspace) : (pure a : Step α).outcome w = (.ok a, w) := rfl

theorem outcome_bind (step : Step α) (next : α → Step β) (w : Workspace) :
    (step >>= next).outcome w =
      match step.outcome w with
      | (.ok a, v) => (next a).outcome v
      | (.error e, v) => (.error e, v) := by
  change (ExceptT.bindCont next (step.outcome w).1).run (step.outcome w).2 = _
  rcases step.outcome w with ⟨_ | _, v⟩ <;> rfl

theorem outcome_log (lines : List LogLine) (w : Workspace) :
    (log lines).outcome w = (.ok (), { w with log := w.log ++ lines }) := rfl

theorem outcome_fail (e : CompileError) (w : Workspace) :
    (fail e : Step α).outcome w = (.error e, w) := rfl

theorem outcome_tree (w : Workspace) : Step.tree.outcome w = (.ok w.tree, w) := rfl

theorem outcome_tree_bind (next : Tree → Step β) (w : Workspace) :
    (Step.tree >>= next).outcome w = (next w.tree).outcome w := by
  rw [outcome_bind, outcome_tree]

theorem outcome_change (path : String) (result : Tree × Option FileError) (w : Workspace) :
    (change path result).outcome w =
      (match result.2 with
        | none => .ok ()
        | some e => .error (.io path e.message), { w with tree := result.1 }) := by
  rcases result with ⟨t, _ | e⟩ <;> rfl

theorem outcome_ofFile (path : String) (result : Except FileError α) (w : Workspace) :
    (ofFile path result).outcome w =
      (match result with
        | .ok a => .ok a
        | .error e => .error (.io path e.message), w) := by
  cases result <;> rfl

theorem bind_eq_ok {step : Step α} {next : α → Step β} {w w' : Workspace} {b : β} :
    (step >>= next).outcome w = (.ok b, w') ↔
      ∃ a v, step.outcome w = (.ok a, v) ∧ (next a).outcome v = (.ok b, w') := by
  rw [outcome_bind]
  rcases step.outcome w with ⟨_ | _, v⟩ <;> simp

theorem on_eq (step : Step α) (t : Tree) :
    step.on t =
      ((step.outcome ⟨t, []⟩).1, (step.outcome ⟨t, []⟩).2.log, (step.outcome ⟨t, []⟩).2.tree) := rfl

def Keeps (step : Step α) : Prop :=
  ∀ w, (step.outcome w).2.tree = w.tree

namespace Keeps

theorem bind {step : Step α} {next : α → Step β} (first : step.Keeps) (rest : ∀ a, (next a).Keeps) :
    (step >>= next).Keeps := by
  intro w
  have kept := first w
  rw [outcome_bind]
  rcases result : step.outcome w with ⟨e | a, v⟩ <;> rw [result] at kept
  · exact kept
  · exact (rest a v).trans kept

theorem of_ok {step : Step α} {w v : Workspace} {a : α} (keeps : step.Keeps)
    (done : step.outcome w = (.ok a, v)) : v.tree = w.tree := by
  have kept := keeps w
  rwa [done] at kept

theorem log (lines : List LogLine) : (log lines).Keeps := fun _ => rfl

theorem pure (a : α) : (pure a : Step α).Keeps := fun _ => rfl

theorem ofResult (result : Except Component.Failure α) : (ofResult result).Keeps := by
  cases result <;> exact fun _ => rfl

end Keeps

theorem ofResult_eq_ok {result : Except Component.Failure α} {w w' : Workspace} {a : α} :
    (ofResult result).outcome w = (.ok a, w') ↔ result = .ok a ∧ w' = w := by
  cases result with
  | ok b => simp [ofResult, outcome_pure, eq_comm]
  | error failure => simp [ofResult, outcome_bind, outcome_log, outcome_fail]

end Step

section

variable {w w' : Workspace} {src folder source root text : String} {l : Library}

theorem keeps_loadPage (src : String) : (loadPage src).Keeps := by
  intro w
  rw [loadPage, outcome_tree_bind]
  split
  · rfl
  · rw [outcome_ofFile]
  · rfl
  · rfl

theorem loadPage_eq_ok (loaded : (loadPage src).outcome w = (.ok source, w')) :
    w.tree.read (join src pageName) = .ok source := by
  rw [loadPage, outcome_tree_bind] at loaded
  split at loaded
  · simp [outcome_fail] at loaded
  · rw [outcome_ofFile] at loaded
    cases read : w.tree.read (join src pageName) <;> simp_all
  · simp [outcome_fail] at loaded
  · simp [outcome_fail] at loaded

theorem keeps_loadLibrary (folder : String) : (loadLibrary folder).Keeps := by
  refine Keeps.bind (fun _ => rfl) fun t => (Keeps.ofResult _).bind fun l => ?_
  exact (Keeps.log _).bind fun _ => Keeps.pure _

theorem loadLibrary_eq_ok (loaded : (loadLibrary folder).outcome w = (.ok l, w')) :
    Library.discover w.tree folder = .ok l := by
  rw [loadLibrary, outcome_tree_bind] at loaded
  obtain ⟨found, v, discovered, rest⟩ := bind_eq_ok.1 loaded
  obtain ⟨-, v', logged, returned⟩ := bind_eq_ok.1 rest
  rw [outcome_pure] at returned
  obtain rfl : found = l := by simpa using congrArg Prod.fst returned
  exact (ofResult_eq_ok.1 discovered).1

theorem outcome_loadConfig {c : Config} {lines : List LogLine}
    (there : w.tree.read (join root configName) = .ok text)
    (accepted : Config.read text = .ok (c, lines)) :
    (loadConfig root).outcome w =
      (.ok c, ⟨w.tree, w.log ++
        (lines ++ [.info ("Loaded configuration from " ++ join root configName)])⟩) := by
  rw [loadConfig, outcome_tree_bind]
  simp only [there, accepted]
  rfl

end

theorem outcome_prepareFolder (path : String) (empty : Bool) (w : Workspace) :
    (prepareFolder path empty).outcome w =
      (match (w.tree.prepare path empty).2 with
        | none => .ok ()
        | some e => .error (.io path e.message), ⟨(w.tree.prepare path empty).1, w.log⟩) := by
  rw [prepareFolder, outcome_tree_bind, Tree.prepare]
  dsimp only
  split
  · rw [outcome_bind, outcome_change]
    rcases w.tree.removeFolder path with ⟨t, _ | e⟩
    · dsimp only
      rw [outcome_tree_bind, outcome_change]
    · rfl
  · rw [outcome_tree_bind, outcome_change]

theorem plain_of_head {name : String} {c : Char} (head : name.toList.head? = some c) (dot : c ≠ '.')
    (whole : '/' ∉ name.toList) : Plain name where
  whole := whole
  busy := by
    rw [Files.isIdle, Bool.or_eq_false_iff, decide_eq_false_iff_not, decide_eq_false_iff_not]
    constructor
    · rintro rfl
      simp at head
    · rintro rfl
      exact dot (by simpa using head.symm)
  up := by
    rintro rfl
    exact dot (by simpa using head.symm)

theorem toList_nameByDigest (start text ending : String) :
    (nameByDigest start text ending).toList =
      start.toList ++ ((Digest.shortHash text 8).toList ++ ending.toList) := by
  simp [nameByDigest]

theorem head?_nameByDigest {start : String} {c : Char} (head : start.toList.head? = some c)
    (text ending : String) : (nameByDigest start text ending).toList.head? = some c := by
  rw [toList_nameByDigest, List.head?_append, head]
  rfl

theorem plain_nameByDigest {start ending : String} {c : Char} (text : String)
    (head : start.toList.head? = some c) (dot : c ≠ '.') (before : '/' ∉ start.toList)
    (after : '/' ∉ ending.toList) : Plain (nameByDigest start text ending) := by
  refine plain_of_head (head?_nameByDigest head text ending) dot ?_
  rw [toList_nameByDigest, List.mem_append, List.mem_append]
  rintro (slash | slash | slash)
  · exact before slash
  · obtain ⟨n, digit, same⟩ := Identity.exists_digitChar_of_mem_shortHash slash
    have others : ∀ n < 16, '/' ≠ Nat.digitChar n := by decide
    exact others n digit same
  · exact after slash

theorem head?_pageName : pageName.toList.head? = some 'i' := rfl

theorem head?_runtimeName (text : String) : (runtimeName text).toList.head? = some 'r' :=
  head?_nameByDigest rfl text ".js"

theorem head?_stylesheetName (text : String) : (stylesheetName text).toList.head? = some 'c' :=
  head?_nameByDigest rfl text ".css"

theorem plain_pageName : Plain pageName :=
  plain_of_head head?_pageName (by decide) (by decide)

theorem plain_configName : Plain configName :=
  plain_of_head (c := 'c') rfl (by decide) (by decide)

theorem plain_runtimeName (text : String) : Plain (runtimeName text) :=
  plain_nameByDigest (c := 'r') text rfl (by decide) (by decide) (by decide)

theorem plain_stylesheetName (text : String) : Plain (stylesheetName text) :=
  plain_nameByDigest (c := 'c') text rfl (by decide) (by decide) (by decide)

namespace Step

/-- A step that puts files into the folder at the end of a path and gives a value; where it fails,
the first of the files are there. -/
def Puts (path : String) (files : List (String × String)) (value : α) (step : Step α) : Prop :=
  ∀ w pieces, w.tree.pieces? path = .ok pieces →
    ∃ written, written <+: files ∧ w.tree.Filled pieces written (step.outcome w).2.tree ∧
      ∀ a, (step.outcome w).1 = .ok a → written = files ∧ a = value

namespace Puts

variable {path : String} {files more : List (String × String)}

theorem bind {step : Step α} {next : α → Step β} {a : α} {b : β} (first : step.Puts path files a)
    (rest : (next a).Puts path more b) : (step >>= next).Puts path (files ++ more) b := by
  intro w pieces cut
  obtain ⟨written, part, filled, whole⟩ := first w pieces cut
  rw [outcome_bind]
  rcases result : step.outcome w with ⟨e | a', v⟩ <;> rw [result] at filled whole
  · exact ⟨written, part.trans (List.prefix_append ..), filled, by simp⟩
  · obtain ⟨rfl, rfl⟩ := whole a' rfl
    obtain ⟨later, part, refilled, whole⟩ :=
      rest v pieces (by rw [Tree.pieces?_congr filled.root, cut])
    refine ⟨written ++ later, (List.prefix_append_right_inj _).2 part, filled.trans refilled, ?_⟩
    intro b' ok
    obtain ⟨rfl, rfl⟩ := whole b' ok
    exact ⟨rfl, rfl⟩

theorem pure (path : String) (a : α) : (pure a : Step α).Puts path [] a := fun w pieces _ =>
  ⟨[], List.prefix_rfl, .refl w.tree pieces, fun _ ok => ⟨rfl, (Except.ok.inj ok).symm⟩⟩

theorem log (path : String) (lines : List LogLine) : (log lines).Puts path [] () :=
  fun w pieces _ => ⟨[], List.prefix_rfl, .refl w.tree pieces, fun _ _ => ⟨rfl, rfl⟩⟩

theorem writeFile {name : String} (plain : Plain name) (text : String) :
    (writeFile (join path name) text).Puts path [(name, text)] () := by
  intro w pieces cut
  rw [Step.writeFile, outcome_tree_bind, outcome_bind, outcome_ofFile]
  cases written : w.tree.write (join path name) (some text) with
  | error e => exact ⟨[], List.nil_prefix, .refl w.tree pieces, by simp⟩
  | ok t =>
    have filled := Tree.Filled.of_write plain cut written
    exact ⟨[(name, text)], List.prefix_rfl, filled, fun _ _ => ⟨rfl, rfl⟩⟩

end Puts

end Step

def Report.ofPage (out : String) (library : Library) (page : Component.Page) : Report where
  outDir := out
  pageFile := join out pageName
  runtimeFile := runtimeName (Component.wrapRuntime page.output.runtimeScript)
  stylesheetFile := if page.output.hasStyles then some (stylesheetName page.output.styles) else none
  components := library.registry.keys
  instanceCount := page.output.instances.length
  warnings := library.warnings ++ page.output.warnings

/-- The files that a report names, with what they hold for the page: the script that runs once the
page is there, the style sheet, and the page with links to both. -/
def Report.files (report : Report) (page : Component.Page) : List (String × String) :=
  (report.runtimeFile, Component.wrapRuntime page.output.runtimeScript) ::
    (report.stylesheetFile.toList.map fun name => (name, page.output.styles)) ++
    [(pageName, Markup.render (Component.attachAssets (report.stylesheetFile.map ("./" ++ ·))
      (some ("./" ++ report.runtimeFile)) page.nodes).1)]

theorem puts_writeStylesheet (out : String) (output : Component.Output) (file : Option String)
    (named : file = if output.hasStyles then some (stylesheetName output.styles) else none) :
    (writeStylesheet out output).Puts out (file.toList.map fun name => (name, output.styles))
      file := by
  rw [writeStylesheet, named]
  split
  · exact (Puts.writeFile (plain_stylesheetName _) _).bind (Puts.pure _ _)
  · exact Puts.pure _ _

theorem puts_writeBuild (out : String) (library : Library) (page : Component.Page) :
    (writeBuild out library page).Puts out ((Report.ofPage out library page).files page)
      (Report.ofPage out library page) := by
  rw [writeBuild]
  refine (Puts.writeFile (plain_runtimeName _) _).bind ?_
  refine (puts_writeStylesheet out page.output _ rfl).bind ?_
  exact (Puts.log _ _).bind ((Puts.writeFile plain_pageName _).bind (Puts.pure _ _))

theorem nodup_files (out : String) (library : Library) (page : Component.Page) :
    (((Report.ofPage out library page).files page).map Prod.fst).Nodup := by
  have differ {name other : String} {c d : Char} (head : name.toList.head? = some c)
      (head' : other.toList.head? = some d) (apart : c ≠ d) : name ≠ other := by
    rintro rfl
    exact apart (Option.some.inj (head.symm.trans head'))
  have runtime_page := differ
    (head?_runtimeName (Component.wrapRuntime page.output.runtimeScript)) head?_pageName (by decide)
  rw [Report.files, Report.ofPage]
  cases styled : page.output.hasStyles with
  | false => simp [runtime_page]
  | true =>
    have runtime_styles := differ
      (head?_runtimeName (Component.wrapRuntime page.output.runtimeScript))
      (head?_stylesheetName page.output.styles) (by decide)
    have styles_page := differ (head?_stylesheetName page.output.styles) head?_pageName (by decide)
    simp [runtime_page, runtime_styles, styles_page]

def PutInto (path : String) (t t' : Tree) : Prop :=
  ∀ pieces, t.pieces? path = .ok pieces → ∃ written, t.Filled pieces written t'

theorem PutInto.refl (path : String) (t : Tree) : PutInto path t t := fun pieces _ =>
  ⟨[], .refl t pieces⟩

theorem Step.Puts.putInto {path : String} {files : List (String × String)} {a : α}
    {step : Step α} (puts : step.Puts path files a) (w : Workspace) :
    PutInto path w.tree (step.outcome w).2.tree := by
  intro pieces cut
  obtain ⟨written, -, filled, -⟩ := puts w pieces cut
  exact ⟨written, filled⟩

def buildInto (folders : Folders) (c : Config) : Step Report := do
  let source ← loadPage folders.src
  let library ← loadLibrary folders.components
  log [.info ("Creating static build in " ++ folders.out)]
  let page ← ofResult (Component.compile library.registry c.options source)
  log (page.output.warnings.map (·.logLine))
  let report ← writeBuild folders.out library page
  log [.info ("Project bundled successfully at " ++ folders.out)]
  return report

theorem build_eq (root : String) :
    build root = (do
      let c ← loadConfig root
      prepareFolder (c.folders root).out c.emptyOutDir
      buildInto (c.folders root) c) := rfl

section

variable {folders : Folders} {c : Config} {w w' : Workspace} {pieces : List String}
  {report : Report}

theorem putInto_buildInto (folders : Folders) (c : Config) (w : Workspace) :
    PutInto folders.out w.tree ((buildInto folders c).outcome w).2.tree := by
  -- each step before the writing keeps the files, also where it ends the build
  have after {α β : Type} {step : Step α} {next : α → Step β} (keeps : step.Keeps)
      (rest : ∀ a w, PutInto folders.out w.tree ((next a).outcome w).2.tree) (w : Workspace) :
      PutInto folders.out w.tree ((step >>= next).outcome w).2.tree := by
    have kept := keeps w
    rw [outcome_bind]
    rcases result : step.outcome w with ⟨e | a, v⟩ <;> rw [result] at kept <;> dsimp only at kept ⊢
    · rw [kept]
      exact PutInto.refl _ _
    · rw [← kept]
      exact rest a v
  refine after (keeps_loadPage _) (fun source => ?_) w
  refine after (keeps_loadLibrary _) fun library => ?_
  refine after (Keeps.log _) fun _ => ?_
  refine after (Keeps.ofResult _) fun page => ?_
  refine after (Keeps.log _) fun _ => ?_
  have written := puts_writeBuild folders.out library page
  exact Puts.putInto (written.bind ((Puts.log _ _).bind (Puts.pure _ _)))

theorem buildInto_eq_ok (cut : w.tree.pieces? folders.out = .ok pieces)
    (done : (buildInto folders c).outcome w = (.ok report, w')) :
    ∃ source library page,
      w.tree.read (join folders.src pageName) = .ok source ∧
        Library.discover w.tree folders.components = .ok library ∧
          Component.compile library.registry c.options source = .ok page ∧
            report = Report.ofPage folders.out library page ∧
              w.tree.Filled pieces (report.files page) w'.tree := by
  obtain ⟨source, w₁, loaded, done⟩ := bind_eq_ok.1 done
  obtain ⟨library, w₂, discovered, done⟩ := bind_eq_ok.1 done
  obtain ⟨_, w₃, logged, done⟩ := bind_eq_ok.1 done
  obtain ⟨page, w₄, compiled, done⟩ := bind_eq_ok.1 done
  obtain ⟨_, w₅, warned, done⟩ := bind_eq_ok.1 done
  obtain ⟨made, w₆, built, done⟩ := bind_eq_ok.1 done
  obtain ⟨_, w₇, told, done⟩ := bind_eq_ok.1 done
  have tree₁ := (keeps_loadPage _).of_ok loaded
  have tree₂ := ((keeps_loadLibrary _).of_ok discovered).trans tree₁
  have tree₃ := ((Keeps.log _).of_ok logged).trans tree₂
  have tree₄ := ((Keeps.ofResult _).of_ok compiled).trans tree₃
  have tree₅ := ((Keeps.log _).of_ok warned).trans tree₄
  obtain ⟨written, -, filled, whole⟩ :=
    puts_writeBuild folders.out library page w₅ pieces (by rw [tree₅, cut])
  rw [built] at filled whole
  obtain ⟨rfl, rfl⟩ := whole made rfl
  have tree₇ := (Keeps.log _).of_ok told
  obtain ⟨rfl, rfl⟩ : Report.ofPage folders.out library page = report ∧ w₇ = w' := by
    simpa [outcome_pure] using done
  have found := loadLibrary_eq_ok discovered
  rw [tree₁] at found
  have compiled := (ofResult_eq_ok.1 compiled).1
  refine ⟨source, library, page, loadPage_eq_ok loaded, found, compiled, rfl, ?_⟩
  rw [tree₇, ← tree₅]
  exact filled

def Workspace.ready (t : Tree) (c : Config) (lines : List LogLine) : Workspace where
  tree := (t.prepare (c.folders t.root).out c.emptyOutDir).1
  log := lines ++ [.info ("Loaded configuration from " ++ join t.root configName)]

theorem outcome_build {t : Tree} {text : String} {lines : List LogLine}
    (there : t.read (join t.root configName) = .ok text)
    (accepted : Config.read text = .ok (c, lines)) :
    (build t.root).outcome ⟨t, []⟩ =
      match (t.prepare (c.folders t.root).out c.emptyOutDir).2 with
      | none => (buildInto (c.folders t.root) c).outcome (.ready t c lines)
      | some e => (.error (.io (c.folders t.root).out e.message), .ready t c lines) := by
  rw [build_eq, outcome_bind, outcome_loadConfig (w := ⟨t, []⟩) there accepted]
  dsimp only
  rw [outcome_bind, outcome_prepareFolder, List.nil_append, Workspace.ready]
  dsimp only
  cases (t.prepare (c.folders t.root).out c.emptyOutDir).2 with
  | none => dsimp only
  | some e => dsimp only

end

-- from here on a step is known by the lemmas above; unfolding one runs the whole build
attribute [irreducible] Step.outcome

end ComponentCompiler.Project
