import ComponentCompiler.Component.Expansion

namespace ComponentCompiler.Component

open Markup (Attribute Element Node)

structure Page where
  nodes : List Node
  output : Output

def Page.html (page : Page) : String :=
  Markup.render page.nodes

def compile (registry : Registry) (options : Options) (source : String) : Except Failure Page :=
  let nodes := Markup.parsePage source
  let isContainer := Markup.hasTag options.containerTag
  match Markup.first? isContainer nodes with
  | none => .error ⟨.missingContainer options.containerTag, []⟩
  | some container =>
    (expand registry options container.children).map fun (children, output) =>
      ⟨(Markup.updateFirst? isContainer ({ · with children := children }) nodes).getD nodes, output⟩

/-- The script of a page: it runs once the page is there. -/
def wrapRuntime (script : String) : String :=
  "document.addEventListener(\"DOMContentLoaded\", () => \x7b\n" ++ script ++ "\n\x7d);\n"

def appendTo? (tag : String) (child : Node) (nodes : List Node) : Option (List Node) :=
  Markup.updateFirst? (Markup.hasTag tag) (fun e => { e with children := e.children ++ [child] })
    nodes

def linkStylesheet (href : String) (nodes : List Node) : List Node × List LogLine :=
  match appendTo? "head" (.element "link" [⟨"rel", "stylesheet"⟩, ⟨"href", href⟩] []) nodes with
  | some nodes => (nodes, [])
  | none => (nodes, [.warn ("No <head> element; stylesheet " ++ href ++ " not linked")])

def linkRuntime (src : String) (nodes : List Node) : List Node × List LogLine :=
  match appendTo? "body" (.element "script" [⟨"type", "module"⟩, ⟨"src", src⟩] []) nodes with
  | some nodes => (nodes, [])
  | none => (nodes, [.warn ("No <body> element; runtime script " ++ src ++ " not loaded")])

/-- Links what there is to link; a page without the element that holds a link is left as it is, with
a line in the log. -/
def attachAssets (stylesheet runtime : Option String) (nodes : List Node) :
    List Node × List LogLine :=
  let (nodes, first) := (stylesheet.map (linkStylesheet · nodes)).getD (nodes, [])
  let (nodes, second) := (runtime.map (linkRuntime · nodes)).getD (nodes, [])
  (nodes, first ++ second)

end ComponentCompiler.Component
