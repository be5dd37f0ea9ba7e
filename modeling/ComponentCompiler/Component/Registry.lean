import ComponentCompiler.Component.Definition
import ComponentCompiler.Diagnostics

namespace ComponentCompiler.Component

structure Registry where
  extension : String := "js"
  entries : List (String × Definition) := []

namespace Registry

def ofExtension (extension : String) : Registry :=
  { extension := String.ofList (extension.toList.dropWhile (· = '.')) }

def keyOf (r : Registry) (name : String) : String :=
  normalizeKey name r.extension

def get? (r : Registry) (key : String) : Option Definition :=
  r.entries.lookup key

def forTag? (r : Registry) (tag : String) : Option Definition :=
  r.get? (r.keyOf tag)

/-- Stores a definition in place of one with the same key. -/
def insert (r : Registry) (d : Definition) : Registry :=
  { r with entries := Json.putMember (r.keyOf d.name) d r.entries }

def ofList (extension : String) (definitions : List Definition) : Registry :=
  definitions.foldl insert (ofExtension extension)

def size (r : Registry) : Nat :=
  r.entries.length

def keys (r : Registry) : List String :=
  (r.entries.map (·.1)).mergeSort fun a b => decide (a ≤ b)

/-- Reads the members of a table of definitions; of a name given twice the last one counts. -/
def readMembers? : List (String × Definition) → List (List Nat × Json.Raw) →
    Option (List (String × Definition))
  | acc, [] => some acc
  | acc, (name, raw) :: rest => do
    let name ← Json.string? name
    let d ← Definition.read? (Json.depthLimit - 2) raw
    readMembers? (Json.putMember name d acc) rest

def readEntries? (text : String) : Option (List (String × Definition)) :=
  match Json.Raw.read? text.toList with
  | some (.object members) => readMembers? [] members
  | _ => none

/-- The definition of an entry; one without a name takes that of its place. -/
def named (entry : String × Definition) : Definition :=
  if entry.2.name = "" then { entry.2 with name := entry.1 } else entry.2

def ofTable (entries : List (String × Definition)) : Registry :=
  ofList "js" (entries.map named)

def readTable? (text : String) : Option Registry :=
  (readEntries? text).map ofTable

def readTable (text : String) : Except CompileError Registry :=
  match readTable? text with
  | some r => .ok r
  | none => .error (.componentLibrary "Invalid component table")

end Registry

end ComponentCompiler.Component
