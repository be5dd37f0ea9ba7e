import ComponentCompiler.Files.Path
import ComponentCompiler.Text.Word

/-!
# File trees

The files and folders of a project.  A place is the list of names from the top folder down; a path
leads to a place through folders that exist.
-/

namespace ComponentCompiler.Files

inductive Entry
  | folder
  /-- A file with its text; none when its bytes are no text. -/
  | file (text : Option String)
deriving DecidableEq

abbrev Place := List String

inductive FileError
  | notFound
  | notFolder
  | isFolder
  | exists
  | invalid
  | nameTooLong
  | zeroByte
  | noText
  /-- The path leads out of the top folder; what is there is not known. -/
  | outside
deriving DecidableEq

def FileError.message : FileError → String
  | .notFound => "No such file or directory (os error 2)"
  | .notFolder => "Not a directory (os error 20)"
  | .isFolder => "Is a directory (os error 21)"
  | .exists => "File exists (os error 17)"
  | .invalid => "Invalid argument (os error 22)"
  | .nameTooLong => "File name too long (os error 36)"
  | .zeroByte => "file name contained an unexpected NUL byte"
  | .noText => "stream did not contain valid UTF-8"
  | .outside => "Path outside of the project"

/-- A tree whose top folder has the path `root`; every place is listed once. -/
structure Tree where
  root : String
  entries : List (Place × Entry) := []

namespace Tree

def get? (t : Tree) (place : Place) : Option Entry :=
  if place.isEmpty then some .folder else t.entries.lookup place

def put (t : Tree) (place : Place) (entry : Entry) : Tree :=
  { t with entries := t.entries.filter (fun (p, _) => p ≠ place) ++ [(place, entry)] }

def nameLimit : Nat := 255

/-- Follows the pieces of a path from a place.  The last place need not exist; the ones before it
are folders. -/
def follow (t : Tree) (place : Place) : List String → Except FileError Place
  | [] => .ok place
  | name :: rest =>
    match t.get? place with
    | none => .error .notFound
    | some (.file _) => .error .notFolder
    | some .folder =>
      if isIdle name then t.follow place rest
      else if name = ".." then
        if place.isEmpty then .error .outside else t.follow place.dropLast rest
      else if nameLimit < name.utf8ByteSize then .error .nameTooLong
      else t.follow (place ++ [name]) rest

def pieces? (t : Tree) (path : String) : Except FileError (List String) :=
  if path.toList.contains (Char.ofNat 0) then .error .zeroByte
  else match Text.after? t.root.toList path.toList with
    | some [] => .ok []
    | some ('/' :: rest) => .ok (names rest)
    | _ => .error .outside

def place? (t : Tree) (path : String) : Except FileError Place :=
  (t.pieces? path).bind (t.follow [])

def find? (t : Tree) (path : String) : Option Entry :=
  (t.place? path).toOption.bind t.get?

def isFile (t : Tree) (path : String) : Bool :=
  match t.find? path with
  | some (.file _) => true
  | _ => false

def isFolder (t : Tree) (path : String) : Bool :=
  t.find? path = some .folder

def read (t : Tree) (path : String) : Except FileError String :=
  (t.place? path).bind fun place =>
    match t.get? place with
    | some (.file (some text)) => .ok text
    | some (.file none) => .error .noText
    | some .folder => .error .isFolder
    | none => .error .notFound

def write (t : Tree) (path : String) (text : Option String) : Except FileError Tree :=
  (t.place? path).bind fun place =>
    match t.get? place with
    | some .folder => .error .isFolder
    | _ => .ok (t.put place (.file text))

def below (t : Tree) (place : Place) : List (Place × Entry) :=
  t.entries.filterMap fun (p, entry) =>
    if place.isPrefixOf p && p ≠ place then some (p.drop place.length, entry) else none

def children (t : Tree) (place : Place) : List (String × Entry) :=
  (t.below place).filterMap fun (p, entry) =>
    match p with
    | [name] => some (name, entry)
    | _ => none

def makeFolder (t : Tree) (pieces : List String) : Except FileError Tree :=
  (t.follow [] (withoutEndSlashes pieces)).bind fun place =>
    match t.get? place with
    | some _ => .error .exists
    | none => .ok (t.put place .folder)

def settleFolder (t : Tree) (pieces : List String) (e : FileError) : Tree × Option FileError :=
  match (t.follow [] pieces).toOption.bind t.get? with
  | some .folder => (t, none)
  | _ => (t, some e)

/-- Makes a folder and, at most `bound` of them, the folders that hold it; those that are there
stay.  What was made before a failure stays as well. -/
def makeFoldersWithin (t : Tree) : Nat → List String → Tree × Option FileError
  | 0, _ => (t, some .notFound)
  | bound + 1, pieces =>
    match t.makeFolder pieces with
    | .ok t => (t, none)
    | .error .notFound =>
      match t.makeFoldersWithin bound (parent pieces) with
      | (t, some e) => (t, some e)
      | (t, none) =>
        match t.makeFolder pieces with
        | .ok t => (t, none)
        | .error e => t.settleFolder pieces e
    | .error e => t.settleFolder pieces e

def makeFolders (t : Tree) (path : String) : Tree × Option FileError :=
  match t.pieces? path with
  | .ok pieces => t.makeFoldersWithin (pieces.length + 1) pieces
  | .error e => (t, some e)

def clear (t : Tree) (place : Place) : Tree :=
  { t with entries := t.entries.filter fun (p, _) => p = place || !place.isPrefixOf p }

def erase (t : Tree) (place : Place) : Tree :=
  { t with entries := t.entries.filter fun (p, _) => !place.isPrefixOf p }

/-- Removes a folder with all that it holds.  A path that ends in a dot cannot be removed itself;
one that ends in two dots leads through a folder that is gone by then. -/
def removeFolder (t : Tree) (path : String) : Tree × Option FileError :=
  match t.pieces? path, t.place? path with
  | .ok pieces, .ok place =>
    match t.get? place with
    | some .folder =>
      match (withoutEndSlashes pieces).getLast? with
      | some "." => (t.clear place, some .invalid)
      | some ".." => (t.clear place, none)
      | _ => (t.erase place, none)
    | some (.file _) => (t, some .notFolder)
    | none => (t, some .notFound)
  | .error e, _ => (t, some e)
  | _, .error e => (t, some e)

end Tree

end ComponentCompiler.Files
