import ComponentCompiler.Component.Instance
import ComponentCompiler.Markup.Render
import ComponentCompiler.Markup.Slot

/-!
# Expansion

A pass walks a forest in document order and replaces every usage site by the evaluated body of its
component, whose slots are filled with what the usage site held.  What a usage site held is expanded
once more for every slot, and as deep in bodies as the usage site itself.
-/

namespace ComponentCompiler.Component

open Markup (Node)
open Template (Context)

structure Failure where
  error : CompileError
  warnings : List Warning

abbrev Pass := Progress → Except Failure (List Node × Progress)

structure Setting where
  registry : Registry
  options : Options

mutual

/-- Expands a node; `inner` goes on with the bodies of its usage sites, given their tags. -/
def walkNode (c : Setting) (inner : String → List Node → Pass) :
    Node → Progress → Except Failure (List Node × Progress)
  | .element tag attributes children, p =>
    if Markup.isRawText tag || Markup.isForeignRoot tag then
      .ok ([.element tag attributes children], p)
    else
      match c.registry.forTag? tag with
      | some d =>
        let (nodes, p) := instantiate c.options.transformer tag (c.registry.keyOf tag) d
          (Context.ofAttributes attributes) p
        match inner tag nodes p with
        | .error failure => .error failure
        | .ok (nodes, p) =>
          let filled := Markup.project (walk c inner children) p nodes
          match filled.failure with
          | some failure => .error failure
          | none => .ok (filled.nodes, filled.state)
      | none =>
        let isUnknown := !Markup.isStandard tag
        let p := if isUnknown then p.warn (.unknownComponent tag (c.registry.keyOf tag)) else p
        if isUnknown && c.options.strictUnknown then .ok ([], p)
        else
          match walk c inner children p with
          | .error failure => .error failure
          | .ok (children, p) => .ok ([.element tag attributes children], p)
  | node, p => .ok ([node], p)

def walk (c : Setting) (inner : String → List Node → Pass) :
    List Node → Progress → Except Failure (List Node × Progress)
  | [], p => .ok ([], p)
  | node :: rest, p =>
    match walkNode c inner node p with
    | .error failure => .error failure
    | .ok (nodes, p) =>
      match walk c inner rest p with
      | .error failure => .error failure
      | .ok (more, p) => .ok (nodes ++ more, p)

end

/-- Expands the body of a usage site when bodies may still nest `levels` deep. -/
def expandBody (c : Setting) : Nat → String → List Node → Pass
  | 0, tag, _ => fun p => .error ⟨.expansionDepth tag c.options.maxDepth, p.warnings⟩
  | levels + 1, _, nodes => walk c (expandBody c levels) nodes

def onBodies (c : Setting) : String → List Node → Pass :=
  if c.options.expandNested then expandBody c c.options.maxDepth
  else fun _ nodes p => .ok (nodes, p)

structure Output where
  runtimeScript : String
  styles : String
  warnings : List Warning
  instances : List Instance

namespace Output

def hasRuntime (o : Output) : Bool :=
  !Text.isBlankText o.runtimeScript

def hasStyles (o : Output) : Bool :=
  !Text.isBlankText o.styles

end Output

def Progress.output (p : Progress) : Output :=
  ⟨String.intercalate "\n" p.runtimeChunks, String.intercalate "\n" p.styleChunks, p.warnings,
    p.instances⟩

def expand (registry : Registry) (options : Options) (nodes : List Node) :
    Except Failure (List Node × Output) :=
  let c : Setting := ⟨registry, options⟩
  (walk c (onBodies c) nodes {}).map fun (nodes, p) => (nodes, p.output)

end ComponentCompiler.Component
