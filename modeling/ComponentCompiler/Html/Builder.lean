import ComponentCompiler.Html.Vocabulary

namespace ComponentCompiler.Html

open Markup (Attribute Node)

inductive Mode
  | initial
  | beforeHtml
  | beforeHead
  | inHead
  | afterHead
  | inBody
  | text
  | inTable
  | inTableText
  | inCaption
  | inColumnGroup
  | inTableBody
  | inRow
  | inCell
  | inSelect
  | inSelectInTable
  | inTemplate
  | afterBody
  | inFrameset
  | afterFrameset
  | afterAfterBody
  | afterAfterFrameset
deriving DecidableEq

structure OpenElement where
  id : NodeId
  name : QName
  holdsMarkup : Bool

inductive FormatEntry
  | marker
  | element (id : NodeId) (tag : Tag)

structure Builder where
  dom : Dom
  page : NodeId
  isFragment : Bool
  mode : Mode
  returnMode : Mode
  templateModes : List Mode
  /-- Text in a table that waits for its place, last character first. -/
  tableText : List Char
  opened : List OpenElement
  formatting : List FormatEntry
  head : Option NodeId
  form : Option NodeId
  framesetOk : Bool
  /-- Set after the elements that swallow a line feed at their start. -/
  skipsLineFeed : Bool
  fosterParenting : Bool
  isLegacy : Bool

/-- What a rule asks for: nothing more, the same token once more, or another kind of text. -/
inductive Outcome
  | done
  | again
  | switch (kind : TextKind)

namespace Builder

def currentIs (b : Builder) (p : QName → Bool) : Bool :=
  (b.opened.head?.map fun e => p e.name).getD false

def currentIsHtml (b : Builder) (tag : String) : Bool :=
  b.currentIs (·.isHtml tag)

def hasOpen (b : Builder) (tag : String) : Bool :=
  b.opened.any fun e => e.name.isHtml tag

def hasOpenTemplate (b : Builder) : Bool :=
  b.hasOpen "template"

def inScopeOf (boundary : QName → Bool) (p : OpenElement → Bool) : List OpenElement → Bool
  | [] => false
  | e :: below => p e || (!boundary e.name && inScopeOf boundary p below)

def inScope (b : Builder) (boundary : QName → Bool) (p : OpenElement → Bool) : Bool :=
  inScopeOf boundary p b.opened

def hasInScope (b : Builder) (boundary : QName → Bool) (tag : String) : Bool :=
  b.inScope boundary fun e => e.name.isHtml tag

def pop (b : Builder) : Builder :=
  { b with opened := b.opened.tail }

def closeThrough (b : Builder) (p : QName → Bool) : Builder :=
  { b with opened := (b.opened.dropWhile fun e => !p e.name).tail }

def closeThroughTag (b : Builder) (tag : String) : Builder :=
  b.closeThrough (·.isHtml tag)

def closeUntil (b : Builder) (p : QName → Bool) : Builder :=
  { b with opened := b.opened.dropWhile fun e => !p e.name }

def closeImplied (b : Builder) (p : QName → Bool) : Builder :=
  { b with opened := b.opened.dropWhile fun e => p e.name }

def closeImpliedExcept (b : Builder) (tag : String) : Builder :=
  b.closeImplied fun n => n.hasImpliedEnd && !n.isHtml tag

def removeOpened (b : Builder) (id : NodeId) : Builder :=
  { b with opened := b.opened.filter (·.id ≠ id) }

/-- The vocabulary context of the next token: the current element, or the template around a
fragment. -/
def contextName (b : Builder) : QName :=
  match b.opened with
  | [_] =>
    if b.isFragment then ⟨.html, "template"⟩
    else (b.opened.head?.map (·.name)).getD ⟨.html, "html"⟩
  | e :: _ => e.name
  | [] => ⟨.html, "html"⟩

def inForeign (b : Builder) : Bool :=
  !b.opened.isEmpty && b.contextName.space ≠ .html

inductive Place
  | inside (parent : NodeId)
  | before (sibling : NodeId)

def holder (b : Builder) (id : NodeId) : NodeId :=
  (b.dom.contents? id).getD id

/-- The place for what may not stand in a table: before the table, or in a template above it. -/
def fosterPlace (b : Builder) : List OpenElement → Place
  | [] => .inside b.page
  | [root] => .inside root.id
  | e :: e' :: below =>
    if e.name.isHtml "template" then .inside (b.holder e.id)
    else if e.name.isHtml "table" then
      if (b.dom.parent? e.id).isSome then .before e.id else .inside e'.id
    else fosterPlace b (e' :: below)

def placeUnder (b : Builder) (target : OpenElement) : Place :=
  if b.fosterParenting && target.name.isTablePart then b.fosterPlace b.opened
  else .inside (b.holder target.id)

def place (b : Builder) : Place :=
  match b.opened with
  | [] => .inside b.page
  | e :: _ => b.placeUnder e

def putNode (b : Builder) (p : Place) (id : NodeId) : Builder :=
  match p with
  | .inside parent => { b with dom := b.dom.append parent id }
  | .before sibling => { b with dom := b.dom.insertBefore sibling id }

def insertCharacter (b : Builder) (c : Char) : Builder :=
  match b.place with
  | .inside parent => { b with dom := b.dom.appendCharacter parent c }
  | .before sibling => { b with dom := b.dom.insertCharacterBefore sibling c }

def insertComment (b : Builder) (text : String) : Builder :=
  let (dom, id) := b.dom.make (.comment text)
  { b with dom := dom }.putNode b.place id

def insertCommentIn (b : Builder) (parent : NodeId) (text : String) : Builder :=
  let (dom, id) := b.dom.make (.comment text)
  { b with dom := dom.append parent id }

def makeElement (b : Builder) (name : QName) (attributes : List Attribute) :
    Builder × OpenElement :=
  let (dom, contents) :=
    if name.isHtml "template" then
      let (dom, id) := b.dom.make .container
      (dom, some id)
    else (b.dom, none)
  let (dom, id) := dom.make (.element name attributes contents)
  let holdsMarkup := name = ⟨.mathml, "annotation-xml"⟩ && marksUpFormula attributes
  ({ b with dom := dom }, ⟨id, name, holdsMarkup⟩)

def insertClosed (b : Builder) (space : Space) (tag : String) (attributes : List Attribute) :
    Builder × OpenElement :=
  let (made, e) := b.makeElement ⟨space, tag⟩ attributes
  (made.putNode b.place e.id, e)

def insertOpen (b : Builder) (space : Space) (tag : String) (attributes : List Attribute) :
    Builder × OpenElement :=
  let (b, e) := b.insertClosed space tag attributes
  ({ b with opened := e :: b.opened }, e)

def openTag (b : Builder) (tag : Tag) : Builder :=
  (b.insertOpen .html tag.name tag.attributes).1

def openEmpty (b : Builder) (tag : String) : Builder :=
  (b.insertOpen .html tag []).1

def insertVoid (b : Builder) (tag : Tag) : Builder :=
  (b.insertClosed .html tag.name tag.attributes).1

def openRoot (b : Builder) (attributes : List Attribute) : Builder :=
  let (b, e) := b.makeElement ⟨.html, "html"⟩ attributes
  { b with dom := b.dom.append b.page e.id, opened := [e] }

def closeParagraph (b : Builder) : Builder :=
  if b.hasInScope QName.isButtonBoundary "p" then
    (b.closeImpliedExcept "p").closeThroughTag "p"
  else b

def enter (b : Builder) (mode : Mode) : Builder × Outcome :=
  ({ b with mode := mode }, .done)

def retry (b : Builder) (mode : Mode) : Builder × Outcome :=
  ({ b with mode := mode }, .again)

def stay (b : Builder) : Builder × Outcome :=
  (b, .done)

def openText (b : Builder) (tag : Tag) (kind : TextKind) : Builder × Outcome :=
  ({ b.openTag tag with returnMode := b.mode, mode := .text }, .switch kind)

def selectMode : List OpenElement → Mode
  | [] => .inSelect
  | e :: below =>
    if e.name.isHtml "template" then .inSelect
    else if e.name.isHtml "table" then .inSelectInTable
    else selectMode below

def modeFor (b : Builder) : List OpenElement → Mode
  | [] => .inBody
  | e :: below =>
    let last := below.isEmpty
    let name := if last && b.isFragment then ⟨.html, "template"⟩ else e.name
    if name.isHtml "select" then selectMode below
    else if name.isOne ["td", "th"] && !last then .inCell
    else if name.isHtml "tr" then .inRow
    else if name.isOne ["tbody", "thead", "tfoot"] then .inTableBody
    else if name.isHtml "caption" then .inCaption
    else if name.isHtml "colgroup" then .inColumnGroup
    else if name.isHtml "table" then .inTable
    else if name.isHtml "template" then b.templateModes.head?.getD .inBody
    else if name.isHtml "head" && !last then .inHead
    else if name.isHtml "body" then .inBody
    else if name.isHtml "frameset" then .inFrameset
    else if name.isHtml "html" then (if b.head.isNone then .beforeHead else .afterHead)
    else modeFor b below

def properMode (b : Builder) : Mode :=
  b.modeFor b.opened

end Builder

end ComponentCompiler.Html
