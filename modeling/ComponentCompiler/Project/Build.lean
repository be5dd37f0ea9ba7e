import ComponentCompiler.Component.Page
import ComponentCompiler.Project.Config
import ComponentCompiler.Project.Library

/-!
# Builds

A build reads the configuration, makes the output folder ready, reads the page and the components,
compiles, and writes the script, the style sheet and the page.  The names of the first two carry a
digest of what they hold.
-/

namespace ComponentCompiler.Project

open Files (FileError Tree)

structure Workspace where
  tree : Tree
  log : List LogLine := []

/-- A step that may fail; what it did to the files and wrote to the log until then stays. -/
abbrev Step := ExceptT CompileError (StateM Workspace)

namespace Step

def fail {α : Type} (e : CompileError) : Step α :=
  throw e

def log (lines : List LogLine) : Step Unit :=
  modify fun w => { w with log := w.log ++ lines }

def tree : Step Tree := do
  return (← get).tree

def setTree (t : Tree) : Step Unit :=
  modify fun w => { w with tree := t }

def ofFile {α : Type} (path : String) : Except FileError α → Step α
  | .ok a => return a
  | .error e => fail (.io path e.message)

/-- Takes the tree that a folder operation on a path gives, also when it failed. -/
def change (path : String) (result : Tree × Option FileError) : Step Unit := do
  setTree result.1
  match result.2 with
  | some e => fail (.io path e.message)
  | none => return

def writeFile (path text : String) : Step Unit := do
  setTree (← ofFile path ((← tree).write path (some text)))

def ofResult {α : Type} : Except Component.Failure α → Step α
  | .ok a => return a
  | .error failure => do
    log (failure.warnings.map (·.logLine))
    fail failure.error

end Step

open Step

def loadConfig (root : String) : Step Config := do
  let path := Files.join root configName
  match (← tree).read path with
  | .error e => fail (.config (path ++ " could not be read: " ++ e.message))
  | .ok text =>
    match Config.read text with
    | .error e => fail e
    | .ok (config, lines) =>
      log (lines ++ [.info ("Loaded configuration from " ++ path)])
      return config

def pageName : String := "index.html"

def otherPageName : String := "index.choco"

def loadPage (src : String) : Step String := do
  let path := Files.join src pageName
  let t ← tree
  match t.isFile path, t.isFile (Files.join src otherPageName) with
  | true, true => fail (.sourceIndex
      "Can't have both .choco and .html source index files at a time: please remove one of the two")
  | true, false => ofFile path (t.read path)
  | false, true => fail (.sourceIndex ".choco files are not supported yet")
  | false, false => fail (.sourceIndex ("No " ++ pageName ++ " found in " ++ src))

def loadLibrary (folder : String) : Step Library := do
  let l ← ofResult (Library.discover (← tree) folder)
  log (l.warnings.map (·.logLine) ++ [l.logLine folder])
  return l

def prepareFolder (path : String) (empty : Bool) : Step Unit := do
  let t ← tree
  if empty && (t.find? path).isSome then change path (t.removeFolder path)
  change path ((← tree).makeFolders path)

def nameByDigest (start text ending : String) : String :=
  start ++ Digest.shortHash text 8 ++ ending

def runtimeName (text : String) : String :=
  nameByDigest "run-" text ".js"

def stylesheetName (text : String) : String :=
  nameByDigest "css-" text ".css"

structure Report where
  outDir : String
  pageFile : String
  runtimeFile : String
  stylesheetFile : Option String
  components : List String
  instanceCount : Nat
  warnings : List Warning

def writeStylesheet (out : String) (output : Component.Output) : Step (Option String) := do
  if output.hasStyles then
    let name := stylesheetName output.styles
    writeFile (Files.join out name) output.styles
    return some name
  else return none

def writeBuild (out : String) (library : Library) (page : Component.Page) : Step Report := do
  let runtime := Component.wrapRuntime page.output.runtimeScript
  let runtimeFile := runtimeName runtime
  writeFile (Files.join out runtimeFile) runtime
  let stylesheetFile ← writeStylesheet out page.output
  let (nodes, lines) := Component.attachAssets (stylesheetFile.map ("./" ++ ·))
    (some ("./" ++ runtimeFile)) page.nodes
  log lines
  let pageFile := Files.join out pageName
  writeFile pageFile (Markup.render nodes)
  return {
    outDir := out, pageFile, runtimeFile, stylesheetFile
    components := library.registry.keys
    instanceCount := page.output.instances.length
    warnings := library.warnings ++ page.output.warnings }

def build (root : String) : Step Report := do
  let config ← loadConfig root
  let folders := config.folders root
  prepareFolder folders.out config.emptyOutDir
  let source ← loadPage folders.src
  let library ← loadLibrary folders.components
  log [.info ("Creating static build in " ++ folders.out)]
  let page ← ofResult (Component.compile library.registry config.options source)
  log (page.output.warnings.map (·.logLine))
  let report ← writeBuild folders.out library page
  log [.info ("Project bundled successfully at " ++ folders.out)]
  return report

/-- Runs a step on a tree: its result, its log and the tree as it is then. -/
def Step.on {α : Type} (step : Step α) (t : Tree) : Except CompileError α × List LogLine × Tree :=
  let (result, w) := (step.run).run ⟨t, []⟩
  (result, w.log, w.tree)

end ComponentCompiler.Project
