import ComponentCompiler.Markup.Node

/-!
# The tree under construction

While markup is read its nodes live in a table and refer to each other by number, because nodes
are moved about after they were made.  At the end the table is turned into a forest.
-/

namespace ComponentCompiler.Html

open Markup (Attribute Node)

inductive Space
  | html
  | mathml
  | svg
deriving DecidableEq

structure QName where
  space : Space
  tag : String
deriving DecidableEq

abbrev NodeId := Nat

/-- What a vertex of the tree is.  Text is kept last character first; the contents of a template
hang under a vertex of their own. -/
inductive Content
  | container
  | element (name : QName) (attributes : List Attribute) (contents : Option NodeId)
  | text (reversed : List Char)
  | comment (text : String)
  | doctype (name publicId systemId : String)

structure Vertex where
  content : Content
  parent : Option NodeId
  children : List NodeId

abbrev Dom := Array Vertex

namespace Dom

def vertex? (d : Dom) (id : NodeId) : Option Vertex :=
  d[id]?

def modifyVertex (d : Dom) (id : NodeId) (f : Vertex → Vertex) : Dom :=
  d.modify id f

def make (d : Dom) (content : Content) : Dom × NodeId :=
  (d.push ⟨content, none, []⟩, d.size)

def children (d : Dom) (id : NodeId) : List NodeId :=
  match d.vertex? id with
  | some v => v.children
  | none => []

def parent? (d : Dom) (id : NodeId) : Option NodeId :=
  (d.vertex? id).bind (·.parent)

def contents? (d : Dom) (id : NodeId) : Option NodeId :=
  match d.vertex? id with
  | some ⟨.element _ _ contents, _, _⟩ => contents
  | _ => none

def isText (d : Dom) (id : NodeId) : Bool :=
  match d.vertex? id with
  | some ⟨.text _, _, _⟩ => true
  | _ => false

def detach (d : Dom) (id : NodeId) : Dom :=
  match d.parent? id with
  | none => d
  | some p =>
    let d := d.modifyVertex p fun v => { v with children := v.children.filter (· ≠ id) }
    d.modifyVertex id fun v => { v with parent := none }

def append (d : Dom) (parent id : NodeId) : Dom :=
  let d := d.modifyVertex parent fun v => { v with children := v.children ++ [id] }
  d.modifyVertex id fun v => { v with parent := some parent }

def insertBeforeIn (sibling id : NodeId) : List NodeId → List NodeId
  | [] => [id]
  | x :: rest => if x = sibling then id :: x :: rest else x :: insertBeforeIn sibling id rest

def insertBefore (d : Dom) (sibling id : NodeId) : Dom :=
  match d.parent? sibling with
  | none => d
  | some p =>
    let d := d.detach id
    let d := d.modifyVertex p fun v => { v with children := insertBeforeIn sibling id v.children }
    d.modifyVertex id fun v => { v with parent := some p }

def moveChildren (d : Dom) (source target : NodeId) : Dom :=
  let moved := d.children source
  let d := d.modifyVertex source fun v => { v with children := [] }
  let d := d.modifyVertex target fun v => { v with children := v.children ++ moved }
  moved.foldl (fun d id => d.modifyVertex id fun v => { v with parent := some target }) d

def extendText (d : Dom) (id : NodeId) (c : Char) : Dom :=
  d.modifyVertex id fun v =>
    match v.content with
    | .text cs => { v with content := .text (c :: cs) }
    | _ => v

def appendCharacter (d : Dom) (parent : NodeId) (c : Char) : Dom :=
  match (d.children parent).getLast? with
  | some last =>
    if d.isText last then d.extendText last c
    else
      let (d, id) := d.make (.text [c])
      d.append parent id
  | none =>
    let (d, id) := d.make (.text [c])
    d.append parent id

def previous? (d : Dom) (id : NodeId) : Option NodeId :=
  (d.parent? id).bind fun p => (((d.children p).takeWhile (· ≠ id)).getLast?)

def insertCharacterBefore (d : Dom) (sibling : NodeId) (c : Char) : Dom :=
  match d.previous? sibling with
  | some before =>
    if d.isText before then d.extendText before c
    else
      let (d, id) := d.make (.text [c])
      d.insertBefore sibling id
  | none =>
    let (d, id) := d.make (.text [c])
    d.insertBefore sibling id

def addMissing (d : Dom) (id : NodeId) (more : List Attribute) : Dom :=
  d.modifyVertex id fun v =>
    match v.content with
    | .element name attributes contents =>
      let missing := more.filter fun a => !Attribute.has attributes a.name
      { v with content := .element name (attributes ++ missing) contents }
    | _ => v

def forest (d : Dom) : Nat → List NodeId → List Node
  | 0, _ => []
  | depth + 1, ids => ids.flatMap fun id =>
    match d.vertex? id with
    | some ⟨.element name attributes contents, _, children⟩ =>
      let inner := children ++ (match contents with
        | some c => d.children c
        | none => [])
      [.element name.tag attributes (forest d depth inner)]
    | some ⟨.text cs, _, _⟩ => [.text (String.ofList cs.reverse)]
    | some ⟨.comment s, _, _⟩ => [.comment s]
    | some ⟨.doctype name publicId systemId, _, _⟩ => [.doctype name publicId systemId]
    | _ => []

def toNodes (d : Dom) (root : NodeId) : List Node :=
  d.forest (d.size + 1) (d.children root)

end Dom

end ComponentCompiler.Html
