import ComponentCompiler.Component.Options
import ComponentCompiler.Component.Registry
import ComponentCompiler.Script.Emission
import ComponentCompiler.Style.Scope
import ComponentCompiler.Template.Directive

/-!
# Instances

What a usage site becomes before its slots are filled: the evaluated body, whose first element is
marked with the class of the component's style sheet and with a binding, and the lines that go into
the style sheet and the script of the page.
-/

namespace ComponentCompiler.Component

open Markup (Attribute Element Node)
open Template (Context)

structure Instance where
  tag : String
  key : String
  bindingId : Option String := none
  runtimeId : Option String := none
  scopeClass : Option String := none

structure Progress where
  runtimeIds : Identity.RuntimeIds := {}
  scopeClasses : Identity.ScopeClasses := {}
  bindingIds : Identity.BindingIds := {}
  runtimeChunks : List String := []
  styleChunks : List String := []
  warnings : List Warning := []
  instances : List Instance := []

namespace Progress

def warn (p : Progress) (w : Warning) : Progress :=
  { p with warnings := p.warnings ++ [w] }

/-- Issues the class of a component's style sheet, which is collected with its first instance. -/
def scopeStyles (p : Progress) (key : String) (d : Definition) : Option String × Progress :=
  if d.hasStyles then
    let (issued, classes) := p.scopeClasses.allocate Digest.shortHash key
    let chunks := if issued.fresh then [Style.scope (d.styles.getD "") issued.id] else []
    (some issued.id, { p with scopeClasses := classes, styleChunks := p.styleChunks ++ chunks })
  else (none, p)

def bind (p : Progress) (key : String) (d : Definition) : Option String × Progress :=
  if d.isAddressable then
    let (id, bindings) := p.bindingIds.allocate Digest.shortHash key
    (some id, { p with bindingIds := bindings })
  else (none, p)

def activate (t : Script.Transformer) (p : Progress) (key : String) (d : Definition)
    (context : Context) (bindingId : Option String) : Option String × Progress :=
  match bindingId with
  | some bindingId =>
    if d.hasScript then
      let (issued, ids) := p.runtimeIds.allocate key
      let code :=
        if issued.fresh then [(Script.emit (d.script.getD "") issued.id t).code] else []
      let call := Script.activationCall issued.id bindingId context
      (some issued.id,
        { p with runtimeIds := ids, runtimeChunks := p.runtimeChunks ++ code ++ [call] })
    else (none, p)
  | none => (none, p)

end Progress

def Instance.mark (i : Instance) (nodes : List Node) : List Node :=
  let change (e : Element) : Element :=
    let classed := (i.scopeClass.map (Attribute.addClass e.attributes)).getD e.attributes
    let bound := (i.bindingId.map fun id => Attribute.set Identity.bindingAttribute id classed).getD
      classed
    { e with attributes := bound }
  (Markup.updateFirstRoot? change nodes).getD nodes

def Progress.identify (t : Script.Transformer) (p : Progress) (tag key : String) (d : Definition)
    (context : Context) : Instance × Progress :=
  let (scopeClass, p) := p.scopeStyles key d
  let (bindingId, p) := p.bind key d
  let (runtimeId, p) := p.activate t key d context bindingId
  (⟨tag, key, bindingId, runtimeId, scopeClass⟩, p)

/-- Evaluates a component for a usage site.  A body without an element cannot be marked. -/
def instantiate (t : Script.Transformer) (tag key : String) (d : Definition) (context : Context)
    (p : Progress) : List Node × Progress :=
  let nodes := Template.instantiate d.body context
  let (site, p) :=
    if d.hasStyles || d.isAddressable then
      match Markup.firstRoot? nodes with
      | some _ => p.identify t tag key d context
      | none => (⟨tag, key, none, none, none⟩, p.warn (.noRoot tag))
    else (⟨tag, key, none, none, none⟩, p)
  (site.mark nodes, { p with instances := p.instances ++ [site] })

end ComponentCompiler.Component
