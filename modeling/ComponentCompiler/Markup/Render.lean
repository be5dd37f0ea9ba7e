import ComponentCompiler.Markup.Node
import ComponentCompiler.Markup.Tag

namespace ComponentCompiler.Markup

def escapeTextChar (c : Char) : List Char :=
  if c = '&' then "&amp;".toList
  else if c = '<' then "&lt;".toList
  else if c = '>' then "&gt;".toList
  else [c]

def escapeText (cs : List Char) : List Char :=
  cs.flatMap escapeTextChar

def escapeValueChar (c : Char) : List Char :=
  if c = '&' then "&amp;".toList
  else if c = '"' then "&quot;".toList
  else [c]

def escapeValue (cs : List Char) : List Char :=
  cs.flatMap escapeValueChar

def Attribute.chars (a : Attribute) : List Char :=
  let value := a.value.toList
  ' ' :: (a.name.toList ++
    (if value.isEmpty then [] else '=' :: '"' :: (escapeValue value ++ ['"'])))

def doctypeChars (name publicId systemId : List Char) : List Char :=
  "<!DOCTYPE ".toList ++ name ++
    (if publicId.isEmpty then [] else " PUBLIC \"".toList ++ publicId ++ ['"']) ++
    (if systemId.isEmpty then [] else " \"".toList ++ systemId ++ ['"']) ++ ['>']

mutual

/-- The text of a node; `raw` says that it stands in a raw text element. -/
def Node.chars (raw : Bool) : Node → List Char
  | .text value => if raw then value.toList else escapeText value.toList
  | .comment value => "<!--".toList ++ value.toList ++ "-->".toList
  | .doctype name publicId systemId => doctypeChars name.toList publicId.toList systemId.toList
  | .element tag attributes children =>
    let opening := '<' :: (tag.toList ++ attributes.flatMap Attribute.chars)
    if isVoid tag && children.isEmpty then opening ++ " />".toList
    else opening ++ '>' :: (renderChars (isRawText tag) children ++
      '<' :: '/' :: (tag.toList ++ ['>']))

def renderChars (raw : Bool) : List Node → List Char
  | [] => []
  | node :: rest => node.chars raw ++ renderChars raw rest

end

def render (nodes : List Node) : String :=
  String.ofList (renderChars false nodes)

end ComponentCompiler.Markup
