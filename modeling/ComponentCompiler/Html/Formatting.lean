import ComponentCompiler.Html.Builder

namespace ComponentCompiler.Html

namespace FormatEntry

def isMarker : FormatEntry → Bool
  | .marker => true
  | .element .. => false

def isNode (id : NodeId) : FormatEntry → Bool
  | .marker => false
  | .element other _ => other = id

def isTag (name : String) : FormatEntry → Bool
  | .marker => false
  | .element _ tag => tag.name = name

end FormatEntry

namespace Builder

def recentFormatting (b : Builder) : List FormatEntry :=
  b.formatting.takeWhile (!·.isMarker)

def isFormatting (b : Builder) (id : NodeId) : Bool :=
  b.formatting.any (·.isNode id)

def removeFormatting (b : Builder) (id : NodeId) : Builder :=
  { b with formatting := b.formatting.filter (!·.isNode id) }

def pushMarker (b : Builder) : Builder :=
  { b with formatting := .marker :: b.formatting }

def clearToMarker (b : Builder) : Builder :=
  { b with formatting := (b.formatting.dropWhile (!·.isMarker)).tail }

def isOpen (b : Builder) (id : NodeId) : Bool :=
  b.opened.any (·.id = id)

def reopen (b : Builder) (entries : List FormatEntry) : FormatEntry → Builder × List FormatEntry
  | .marker => (b, .marker :: entries)
  | .element _ tag =>
    let (b, e) := b.insertOpen .html tag.name tag.attributes
    (b, .element e.id tag :: entries)

def reconstruct (b : Builder) : Builder :=
  let isClosed : FormatEntry → Bool := fun
    | .marker => false
    | .element id _ => !b.isOpen id
  let closed := b.formatting.takeWhile isClosed
  let kept := b.formatting.dropWhile isClosed
  let (b, entries) :=
    closed.reverse.foldl (fun (b, entries) entry => b.reopen entries entry) (b, kept)
  { b with formatting := entries }

def sameTag (s t : Tag) : Bool :=
  s.name = t.name && s.attributes.length = t.attributes.length &&
    s.attributes.all fun a => t.attributes.contains a

/-- Opens a formatting element; of more than three equal ones the earliest is forgotten. -/
def openFormatting (b : Builder) (tag : Tag) : Builder :=
  let twins := b.recentFormatting.filterMap fun
    | .marker => none
    | .element id other => if sameTag tag other then some id else none
  let b := if twins.length ≥ 3 then (twins.getLast?.map b.removeFormatting).getD b else b
  let (b, e) := b.insertOpen .html tag.name tag.attributes
  { b with formatting := .element e.id tag :: b.formatting }

/-- A closing tag without a rule of its own: closes the nearest open element of its name, unless a
special element stands between. -/
def closeOrdinary (b : Builder) (name : String) : Builder :=
  match b.opened.find? fun e => e.name.isHtml name || e.name.isSpecial with
  | none => b
  | some e =>
    if e.name.isHtml name then (b.closeImpliedExcept name).closeThroughTag name else b

structure Splitting where
  builder : Builder
  last : NodeId
  bookmark : Option NodeId
  steps : Nat

/-- One element between the furthest block and the formatting element: rebuilt when it is among
the three nearest formatting elements, dropped otherwise. -/
def splitStep (s : Splitting) (node : OpenElement) : Splitting :=
  let b := s.builder
  let steps := s.steps + 1
  match (if steps > 3 then none else b.formatting.find? (·.isNode node.id)) with
  | some (.element _ tag) =>
    let (b, fresh) := b.makeElement ⟨.html, tag.name⟩ tag.attributes
    let b := { b with
      opened := b.opened.map fun e => if e.id = node.id then fresh else e
      formatting := b.formatting.map fun f => if f.isNode node.id then .element fresh.id tag else f
      dom := (b.dom.detach s.last).append fresh.id s.last }
    ⟨b, fresh.id, s.bookmark.or (some fresh.id), steps⟩
  | _ =>
    { s with builder := (b.removeFormatting node.id).removeOpened node.id, steps := steps }

def insertBeforeEntry (entry : FormatEntry) (id : NodeId) : List FormatEntry → List FormatEntry
  | [] => [entry]
  | f :: rest => if f.isNode id then entry :: f :: rest else f :: insertBeforeEntry entry id rest

def insertAbove (e : OpenElement) (id : NodeId) : List OpenElement → List OpenElement
  | [] => [e]
  | x :: rest => if x.id = id then e :: x :: rest else x :: insertAbove e id rest

def splitAround (b : Builder) (formatId : NodeId) (tag : Tag) (block ancestor : OpenElement)
    (between : List OpenElement) : Builder :=
  let s := between.foldl splitStep ⟨b, block.id, none, 0⟩
  let b := { s.builder with dom := s.builder.dom.detach s.last }
  let b := b.putNode (b.placeUnder ancestor) s.last
  let (b, fresh) := b.makeElement ⟨.html, tag.name⟩ tag.attributes
  let b := { b with dom := (b.dom.moveChildren block.id fresh.id).append block.id fresh.id }
  let entry := FormatEntry.element fresh.id tag
  let formatting := match s.bookmark with
    | none => b.formatting.map fun f => if f.isNode formatId then entry else f
    | some id => (insertBeforeEntry entry id b.formatting).filter (!·.isNode formatId)
  { b with
    formatting := formatting
    opened := insertAbove fresh block.id (b.opened.filter (·.id ≠ formatId)) }

def adoptOnce (b : Builder) (name : String) : Builder × Bool :=
  match b.recentFormatting.find? (·.isTag name) with
  | some (.element id tag) =>
    if !b.isOpen id then (b.removeFormatting id, false)
    else if !b.inScope QName.isScopeBoundary (·.id = id) then (b, false)
    else
      let above := b.opened.takeWhile (·.id ≠ id)
      let below := (b.opened.dropWhile (·.id ≠ id)).tail
      match above.reverse.find? (·.name.isSpecial), below with
      | some block, ancestor :: _ =>
        let between := (above.dropWhile (·.id ≠ block.id)).tail
        (b.splitAround id tag block ancestor between, true)
      | _, _ => ({ b with opened := below }.removeFormatting id, false)
  | _ => (b.closeOrdinary name, false)

def adoptRounds (name : String) : Nat → Builder → Builder
  | 0, b => b
  | rounds + 1, b =>
    match b.adoptOnce name with
    | (b, true) => adoptRounds name rounds b
    | (b, false) => b

def adopt (b : Builder) (name : String) : Builder :=
  match b.opened with
  | e :: _ =>
    if e.name.isHtml name && !b.isFormatting e.id then b.pop else adoptRounds name 8 b
  | [] => b

def closeLink (b : Builder) : Builder :=
  match b.recentFormatting.find? (·.isTag "a") with
  | some (.element id _) => ((b.adopt "a").removeFormatting id).removeOpened id
  | _ => b

end Builder

end ComponentCompiler.Html
