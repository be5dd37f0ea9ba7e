import ComponentCompiler.Text.Lowercase
import ComponentCompiler.Text.Trim

namespace ComponentCompiler.Markup

structure Attribute where
  name : String
  value : String
deriving DecidableEq

inductive Node
  | element (tag : String) (attributes : List Attribute) (children : List Node)
  | text (value : String)
  | comment (value : String)
  | doctype (name publicId systemId : String)

structure Element where
  tag : String
  attributes : List Attribute := []
  children : List Node := []

def Element.toNode (e : Element) : Node :=
  .element e.tag e.attributes e.children

namespace Attribute

/-- The value in effect: that of the last occurrence. -/
def get? (attributes : List Attribute) (name : String) : Option String :=
  (attributes.reverse.find? fun a => a.name = name).map (·.value)

def has (attributes : List Attribute) (name : String) : Bool :=
  attributes.any fun a => a.name = name

/-- Gives the first occurrence a value, or adds the attribute at the end. -/
def set (name value : String) : List Attribute → List Attribute
  | [] => [⟨name, value⟩]
  | a :: rest => if a.name = name then ⟨a.name, value⟩ :: rest else a :: set name value rest

def remove (attributes : List Attribute) (name : String) : List Attribute :=
  attributes.filter fun a => a.name ≠ name

/-- The value that was in effect, and the attributes without any occurrence. -/
def take (attributes : List Attribute) (name : String) : Option String × List Attribute :=
  (get? attributes name, remove attributes name)

def addClass (attributes : List Attribute) (className : String) : List Attribute :=
  let present := Text.trim ((get? attributes "class").getD "").toList
  if className.toList ∈ Text.words present then attributes
  else if present.isEmpty then set "class" className attributes
  else set "class" (String.ofList (present ++ ' ' :: className.toList)) attributes

def appendStyle (attributes : List Attribute) (declaration : String) : List Attribute :=
  let present := Text.trim ((get? attributes "style").getD "").toList
  let merged :=
    if present.isEmpty then declaration.toList
    else if present.getLast? = some ';' then present ++ ' ' :: declaration.toList
    else present ++ ';' :: ' ' :: declaration.toList
  set "style" (String.ofList merged) attributes

end Attribute

mutual

def Node.updateFirst? (p : String → Bool) (f : Element → Element) : Node → Option Node
  | .element tag attributes children =>
    if p tag then some (f ⟨tag, attributes, children⟩).toNode
    else (updateFirst? p f children).map (.element tag attributes)
  | _ => none

/-- Changes the first such element of a forest; none when there is no such element. -/
def updateFirst? (p : String → Bool) (f : Element → Element) : List Node → Option (List Node)
  | [] => none
  | node :: rest =>
    match node.updateFirst? p f with
    | some changed => some (changed :: rest)
    | none => (updateFirst? p f rest).map (node :: ·)

end

mutual

def Node.first? (p : String → Bool) : Node → Option Element
  | .element tag attributes children =>
    if p tag then some ⟨tag, attributes, children⟩ else first? p children
  | _ => none

def first? (p : String → Bool) : List Node → Option Element
  | [] => none
  | node :: rest => (node.first? p).or (first? p rest)

end

def updateFirstRoot? (f : Element → Element) : List Node → Option (List Node)
  | [] => none
  | .element tag attributes children :: rest =>
    some ((f ⟨tag, attributes, children⟩).toNode :: rest)
  | node :: rest => (updateFirstRoot? f rest).map (node :: ·)

def firstRoot? : List Node → Option Element
  | [] => none
  | .element tag attributes children :: _ => some ⟨tag, attributes, children⟩
  | _ :: rest => firstRoot? rest

def hasTag (name : String) (tag : String) : Bool :=
  Text.equalIgnoringAsciiCase tag name

end ComponentCompiler.Markup
