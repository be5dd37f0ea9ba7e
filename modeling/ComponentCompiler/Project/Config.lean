import ComponentCompiler.Component.Options
import ComponentCompiler.Diagnostics
import ComponentCompiler.Files.Path

namespace ComponentCompiler.Project

structure Config where
  srcDir : String
  outDir : String
  libDir : String
  emptyOutDir : Bool
  options : Component.Options

def configName : String := "chocola.config.json"

structure Bundle where
  srcDir : Option String := none
  outDir : Option String := none
  libDir : Option String := none
  emptyOutDir : Option Bool := none

/-- Reads the section on folders; as an array it lists all four. -/
def Bundle.read? (raw : Json.Raw) : Option Bundle := do
  let [src, out, lib, empty] ← raw.fields? ["srcDir", "outDir", "libDir", "emptyOutDir"] | none
  match raw with
  | .array items => if items.length ≠ 4 then none
  | _ => pure ()
  let text := Json.field? (Json.Raw.nullable? Json.Raw.string?) none
  some {
    srcDir := ← text src
    outDir := ← text out
    libDir := ← text lib
    emptyOutDir := ← Json.field? (Json.Raw.nullable? Json.Raw.bool?) none empty }

/-- A folder, or its default with a line in the log when it is missing or blank. -/
def folderOr (value : Option String) (key default : String) : String × List LogLine :=
  match value.filter fun s => !Text.isBlankText s with
  | some s => (s, [])
  | none =>
    (default, [.warn (key ++ " not defined in " ++ configName ++ " file: using default \"" ++
      default ++ "\" directory.")])

def boolText (b : Bool) : String :=
  if b then "true" else "false"

def Config.ofSections (bundle : Bundle) (options : Option Component.Options) :
    Config × List LogLine :=
  let (src, first) := folderOr bundle.srcDir "srcDir" "src"
  let (out, second) := folderOr bundle.outDir "outDir" "dist"
  let (lib, third) := folderOr bundle.libDir "libDir" "lib"
  let empty := bundle.emptyOutDir ≠ some false
  (⟨src, out, lib, empty, options.getD {}⟩,
    first ++ second ++ third ++ [.info ("Using emptyOutDir = " ++ boolText empty)])

def readSections? (raw : Json.Raw) : Option (Bundle × Option Component.Options) := do
  let [bundle, compiler] ← raw.fields? ["bundle", "compiler"] | none
  let bundle ← Json.field? Bundle.read? {} bundle
  let options ← Json.field? (Json.Raw.nullable? Component.Options.read?) none compiler
  some (bundle, options)

def Config.read (text : String) : Except CompileError (Config × List LogLine) :=
  match (Json.Raw.read? text.toList).bind readSections? with
  | some (bundle, options) => .ok (ofSections bundle options)
  | none => .error (.config "Invalid JSON config")

def Config.toJson (c : Config) : Json.Value :=
  .object [
    ("srcDir", .string c.srcDir),
    ("outDir", .string c.outDir),
    ("libDir", .string c.libDir),
    ("emptyOutDir", .bool c.emptyOutDir),
    ("compile", c.options.toJson)]

structure Folders where
  root : String
  src : String
  components : String
  out : String

def Config.folders (c : Config) (root : String) : Folders :=
  let src := Files.join root c.srcDir
  ⟨root, src, Files.join src c.libDir, Files.join root c.outDir⟩

end ComponentCompiler.Project
