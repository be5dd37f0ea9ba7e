import ComponentCompiler.Identity.Allocator
import ComponentCompiler.Script.Entry
import ComponentCompiler.Script.Rename
import ComponentCompiler.Template.Context

namespace ComponentCompiler.Script

structure Emission where
  code : String
  entryPoint : String
  defaults : Defaults

def emit (script : String) (runtimeId : String) (t : Transformer) : Emission :=
  let (bare, defaults) := extractDefaults script.toList
  let entryPoint := entryPointName runtimeId
  let code := t.rename entryName entryPoint.toList (inject entryName (assignments defaults) bare)
  ⟨String.ofList (Text.trim code), entryPoint, defaults⟩

def activationCall (runtimeId bindingId : String) (context : Template.Context) : String :=
  entryPointName runtimeId ++ "(document.querySelector('[" ++ Identity.bindingAttribute ++ "=\"" ++
    bindingId ++ "\"]'), " ++ String.ofList context.toJson.text ++ ");"

end ComponentCompiler.Script
