import ComponentCompiler.Json.Decode
import ComponentCompiler.Text.Lowercase
import ComponentCompiler.Text.Trim

namespace ComponentCompiler.Component

structure Definition where
  name : String := ""
  body : String
  styles : Option String := none
  script : Option String := none
  effects : Option Json.Value := none

def isWritten (text : Option String) : Bool :=
  (text.map fun s => !Text.isBlankText s).getD false

namespace Definition

def hasScript (d : Definition) : Bool :=
  isWritten d.script

def hasStyles (d : Definition) : Bool :=
  isWritten d.styles

def isAddressable (d : Definition) : Bool :=
  d.hasScript || d.effects.isSome

def fieldNames : List String :=
  ["name", "body", "styles", "script", "effects"]

def read? (depth : Nat) (raw : Json.Raw) : Option Definition := do
  let [name, body, styles, script, effects] ← raw.fields? fieldNames | none
  some {
    name := ← Json.field? Json.Raw.string? "" name
    body := ← body.bind Json.Raw.string?
    styles := ← Json.field? (Json.Raw.nullable? Json.Raw.string?) none styles
    script := ← Json.field? (Json.Raw.nullable? Json.Raw.string?) none script
    effects := ← Json.field? (Json.Raw.nullable? (Json.Raw.toValue? depth)) none effects }

end Definition

def suffix (extension : String) : String :=
  "." ++ extension

/-- The key of a name: in lower case, without white space around it, with the extension. -/
def normalizeKey (name extension : String) : String :=
  let lower := Text.lowercase (Text.trimmed name)
  if (suffix extension).toList.isSuffixOf lower.toList then lower else lower ++ suffix extension

end ComponentCompiler.Component
