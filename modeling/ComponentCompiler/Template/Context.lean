import ComponentCompiler.Markup.Node
import ComponentCompiler.Json.Value

namespace ComponentCompiler.Template

structure Context where
  entries : List (String × String) := []

namespace Context

def insertInto (name value : String) : List (String × String) → List (String × String)
  | [] => [(name, value)]
  | (k, v) :: rest =>
    if k = name then (name, value) :: rest
    else if name < k then (name, value) :: (k, v) :: rest
    else (k, v) :: insertInto name value rest

def insert (c : Context) (name value : String) : Context :=
  ⟨insertInto name value c.entries⟩

def get? (c : Context) (name : String) : Option String :=
  (c.entries.find? fun (k, _) => k = name).map (·.2)

def size (c : Context) : Nat :=
  c.entries.length

def isEmpty (c : Context) : Bool :=
  c.entries.isEmpty

/-- Of a name given more than once the last value counts. -/
def ofList (entries : List (String × String)) : Context :=
  entries.foldl (fun c (name, value) => c.insert name value) {}

def ofAttributes (attributes : List Markup.Attribute) : Context :=
  ofList (attributes.map fun a => (a.name, a.value))

def toJson (c : Context) : Json.Value :=
  .object (c.entries.map fun (k, v) => (k, .string v))

end Context

end ComponentCompiler.Template
