import ComponentCompiler.Component.Expansion
import ComponentCompiler.Files.Tree
import ComponentCompiler.Text.Quoted

namespace ComponentCompiler.Project

open Component (Definition Failure Registry)
open Files (Entry FileError Tree)

abbrev Listing := List (String × Option String)

structure Library where
  registry : Registry
  files : List String
  notDefined : List String
  warnings : List Warning

def extensions : List String := ["html", "css", "js"]

def componentOf? (fileName : String) : Option String :=
  match Files.splitName? fileName with
  | some (stem, extension) =>
    let starts := (stem.toList.head?.map Text.isUppercase).getD false
    if starts && extensions.contains extension then some stem else none
  | none => none

def sorted (xs : List String) : List String :=
  xs.mergeSort fun a b => decide (a ≤ b)

def componentNames (files : Listing) : List String :=
  sorted ((files.filterMap fun (name, _) => componentOf? name).eraseDups)

def readPart (folder : String) (files : Listing) (fileName : String) :
    Except CompileError (Option String) :=
  match files.lookup fileName with
  | none => .ok none
  | some (some text) => .ok (some text)
  | some none => .error (.io (Files.join folder fileName) FileError.noText.message)

/-- The definition of a component; none when it has no body. -/
def readComponent (folder : String) (files : Listing) (name : String) :
    Except CompileError (Option Definition) := do
  match ← readPart folder files (name ++ ".html") with
  | none => return none
  | some body =>
    let styles ← readPart folder files (name ++ ".css")
    let script ← readPart folder files (name ++ ".js")
    return some { name, body, styles, script }

def readComponents (folder : String) (files : Listing) (l : Library) :
    List String → Except Failure Library
  | [] => .ok l
  | name :: rest =>
    match readComponent folder files name with
    | .error e => .error ⟨e, l.warnings⟩
    | .ok (some d) => readComponents folder files { l with registry := l.registry.insert d } rest
    | .ok none =>
      readComponents folder files { l with
        notDefined := l.notDefined ++ [name]
        warnings := l.warnings ++ [.undefinedComponent name] } rest

def Library.ofListing (folder : String) (files : Listing) : Except Failure Library :=
  let members := files.filter fun (name, _) => (componentOf? name).isSome
  readComponents folder files ⟨{}, sorted (members.map (·.1)), [], []⟩ (componentNames files)

def listing? (t : Tree) (folder : String) : Option Listing :=
  match (t.place? folder).toOption with
  | some place =>
    if t.get? place = some .folder then
      some ((t.children place).filterMap fun (name, entry) =>
        match entry with
        | .file text => some (name, text)
        | .folder => none)
    else none
  | none => none

def Library.discover (t : Tree) (folder : String) : Except Failure Library :=
  match listing? t folder with
  | some files => Library.ofListing folder files
  | none => .error ⟨.componentLibrary
      ("The specified components folder " ++ folder ++ " could not be found."), []⟩

def Library.logLine (l : Library) (folder : String) : LogLine :=
  .info ("Components found in " ++ folder ++ ": " ++ Text.shownList l.registry.keys)

end ComponentCompiler.Project
