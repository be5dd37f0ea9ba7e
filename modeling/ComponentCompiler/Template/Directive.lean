import ComponentCompiler.Expression.Eval
import ComponentCompiler.Html.Reading
import ComponentCompiler.Markup.SelfClosing
import ComponentCompiler.Template.Interpolation

/-!
# Directives and templates

`del-if` removes an element and `if` hides it when its value does not hold.  A template is read as a
piece of markup, its directives are carried out, then its placeholders are filled.
-/

namespace ComponentCompiler.Template

open Markup (Attribute Node)

def hidingStyle : String := "display: none;"

def passes (context : Context) (attributes : List Attribute) (name : String) : Bool :=
  ((Attribute.get? attributes name).map (Expression.holds · context)).getD true

/-- The attributes of an element that stays: no directives, hidden when `if` does not hold. -/
def settle (context : Context) (attributes : List Attribute) : List Attribute :=
  let plain := Attribute.remove (Attribute.remove attributes "del-if") "if"
  if passes context attributes "if" then plain else Attribute.appendStyle plain hidingStyle

mutual

/-- Carries out the directives of a node and of what it holds; nothing is left of an element that is
removed. -/
def resolveNode (context : Context) : Node → List Node
  | .element tag attributes children =>
    if passes context attributes "del-if" then
      [.element tag (settle context attributes) (resolve context children)]
    else []
  | node => [node]

def resolve (context : Context) : List Node → List Node
  | [] => []
  | node :: rest => resolveNode context node ++ resolve context rest

end

end ComponentCompiler.Template

namespace ComponentCompiler.Markup

def parsePage (source : String) : List Node :=
  Html.readPage (expandSelfClosing source.toList)

def parseFragment (source : String) : List Node :=
  Html.readFragment (expandSelfClosing source.toList)

end ComponentCompiler.Markup

namespace ComponentCompiler.Template

open Markup (Node)

def instantiate (body : String) (context : Context) : List Node :=
  interpolateNodes context (resolve context (Markup.parseFragment body))

end ComponentCompiler.Template
