import ComponentCompiler.Html.BodyRules

namespace ComponentCompiler.Html

namespace Builder

/-- What has no place in a table goes through the rules of the body and lands before the table. -/
def foster (token : Token) (b : Builder) : Builder × Outcome :=
  let (b, outcome) := inBody token { b with fosterParenting := true }
  ({ b with fosterParenting := false }, outcome)

def tableCharacter (token : Token) (b : Builder) : Builder × Outcome :=
  if b.currentIs QName.isTablePart then
    { b with returnMode := b.mode, tableText := [] }.retry .inTableText
  else foster token b

def tableStart (token : Token) (tag : Tag) (b : Builder) : Builder × Outcome :=
  let name := tag.name
  let cleared := b.closeUntil QName.isTableBoundary
  if name = "caption" then (cleared.pushMarker.openTag tag).enter .inCaption
  else if name = "colgroup" then (cleared.openTag tag).enter .inColumnGroup
  else if name = "col" then (cleared.openEmpty "colgroup").retry .inColumnGroup
  else if ["tbody", "tfoot", "thead"].contains name then (cleared.openTag tag).enter .inTableBody
  else if ["td", "th", "tr"].contains name then (cleared.openEmpty "tbody").retry .inTableBody
  else if name = "table" then
    if b.hasInScope QName.isTableBoundary "table" then
      let b := b.closeThroughTag "table"
      b.retry b.properMode
    else b.stay
  else if ["style", "script", "template"].contains name then inHead token b
  else if name = "input" && isHiddenInput tag then (b.insertVoid tag).stay
  else if name = "form" then
    if !b.hasOpenTemplate && b.form.isNone then
      let (b, e) := b.insertClosed .html name tag.attributes
      { b with form := some e.id }.stay
    else b.stay
  else foster token b

def inTable (token : Token) (b : Builder) : Builder × Outcome :=
  match token with
  | .character _ => tableCharacter token b
  | .null => tableCharacter token b
  | .comment text => (b.insertComment text).stay
  | .startTag tag => tableStart token tag b
  | .endTag name =>
    if name = "table" then
      if b.hasInScope QName.isTableBoundary "table" then
        let b := b.closeThroughTag "table"
        b.enter b.properMode
      else b.stay
    else if ["body", "caption", "col", "colgroup", "html", "tbody", "td", "tfoot", "th", "thead",
        "tr"].contains name then b.stay
    else if name = "template" then b.closeTemplate.stay
    else foster token b
  | .endOfInput => inBody token b
  | _ => foster token b

/-- Text of a table that is all white space stays in place, other text is moved out. -/
def flushTableText (b : Builder) : Builder :=
  let text := b.tableText.reverse
  let b := { b with tableText := [] }
  if text.all isAsciiSpace then text.foldl insertCharacter b
  else
    let b := text.foldl bodyCharacter { b with fosterParenting := true }
    { b with fosterParenting := false }

def inTableText (token : Token) (b : Builder) : Builder × Outcome :=
  match token with
  | .null => b.stay
  | .character c => { b with tableText := c :: b.tableText }.stay
  | _ =>
    let b := b.flushTableText
    b.retry b.returnMode

def tablePieces : List String :=
  ["caption", "col", "colgroup", "tbody", "td", "tfoot", "th", "thead", "tr"]

def inCaption (token : Token) (b : Builder) : Builder × Outcome :=
  let leave (outcome : Builder → Builder × Outcome) : Builder × Outcome :=
    if b.hasInScope QName.isTableBoundary "caption" then
      outcome (((b.closeImplied QName.hasImpliedEnd).closeThroughTag "caption").clearToMarker)
    else b.stay
  match token with
  | .startTag tag =>
    if tablePieces.contains tag.name then leave (retry · .inTable) else inBody token b
  | .endTag name =>
    if name = "caption" then leave (enter · .inTable)
    else if name = "table" then leave (retry · .inTable)
    else if ["body", "col", "colgroup", "html", "tbody", "td", "tfoot", "th", "thead",
        "tr"].contains name then b.stay
    else inBody token b
  | _ => inBody token b

def inColumnGroup (token : Token) (b : Builder) : Builder × Outcome :=
  let leave : Builder × Outcome :=
    if b.currentIsHtml "colgroup" then b.pop.retry .inTable else b.stay
  match token with
  | .character c => if isAsciiSpace c then (b.insertCharacter c).stay else leave
  | .comment text => (b.insertComment text).stay
  | .startTag tag =>
    if tag.name = "html" then (b.mergeRoot tag).stay
    else if tag.name = "col" then (b.insertVoid tag).stay
    else if tag.name = "template" then inHead token b
    else leave
  | .endTag name =>
    if name = "colgroup" then
      if b.currentIsHtml "colgroup" then b.pop.enter .inTable else b.stay
    else if name = "col" then b.stay
    else if name = "template" then b.closeTemplate.stay
    else leave
  | .endOfInput => inBody token b
  | _ => leave

def isRowHolder (n : QName) : Bool :=
  n.isOne ["tbody", "tfoot", "thead", "template", "html"]

def isCellHolder (n : QName) : Bool :=
  n.isOne ["tr", "template", "html"]

def inTableBody (token : Token) (b : Builder) : Builder × Outcome :=
  let cleared := b.closeUntil isRowHolder
  let leave : Builder × Outcome :=
    if b.inScope QName.isTableBoundary (·.name.isOne ["table", "tbody", "tfoot"]) then
      cleared.pop.retry .inTable
    else b.stay
  match token with
  | .startTag tag =>
    if tag.name = "tr" then (cleared.openTag tag).enter .inRow
    else if ["th", "td"].contains tag.name then (cleared.openEmpty "tr").retry .inRow
    else if ["caption", "col", "colgroup", "tbody", "tfoot", "thead"].contains tag.name then leave
    else inTable token b
  | .endTag name =>
    if ["tbody", "tfoot", "thead"].contains name then
      if b.hasInScope QName.isTableBoundary name then cleared.pop.enter .inTable else b.stay
    else if name = "table" then leave
    else if ["body", "caption", "col", "colgroup", "html", "td", "th", "tr"].contains name then
      b.stay
    else inTable token b
  | _ => inTable token b

def inRow (token : Token) (b : Builder) : Builder × Outcome :=
  let cleared := b.closeUntil isCellHolder
  let inARow := b.hasInScope QName.isTableBoundary "tr"
  let leave : Builder × Outcome := if inARow then cleared.pop.retry .inTableBody else b.stay
  match token with
  | .startTag tag =>
    if ["th", "td"].contains tag.name then (cleared.openTag tag).pushMarker.enter .inCell
    else if ["caption", "col", "colgroup", "tbody", "tfoot", "thead", "tr"].contains tag.name then
      leave
    else inTable token b
  | .endTag name =>
    if name = "tr" then if inARow then cleared.pop.enter .inTableBody else b.stay
    else if name = "table" then leave
    else if ["tbody", "tfoot", "thead"].contains name then
      if b.hasInScope QName.isTableBoundary name then leave else b.stay
    else if ["body", "caption", "col", "colgroup", "html", "td", "th"].contains name then b.stay
    else inTable token b
  | _ => inTable token b

def closeCell (b : Builder) : Builder :=
  ((b.closeImplied QName.hasImpliedEnd).closeThrough (·.isOne ["td", "th"])).clearToMarker

def inCell (token : Token) (b : Builder) : Builder × Outcome :=
  match token with
  | .startTag tag =>
    if tablePieces.contains tag.name then
      if b.inScope QName.isTableBoundary (·.name.isOne ["td", "th"]) then b.closeCell.retry .inRow
      else b.stay
    else inBody token b
  | .endTag name =>
    if ["td", "th"].contains name then
      if b.hasInScope QName.isTableBoundary name then
        ((b.closeImplied QName.hasImpliedEnd).closeThroughTag name).clearToMarker.enter .inRow
      else b.stay
    else if ["body", "caption", "col", "colgroup", "html"].contains name then b.stay
    else if ["table", "tbody", "tfoot", "thead", "tr"].contains name then
      if b.hasInScope QName.isTableBoundary name then b.closeCell.retry .inRow else b.stay
    else inBody token b
  | _ => inBody token b

def leaveSelect (b : Builder) : Builder :=
  let b := b.closeThroughTag "select"
  { b with mode := b.properMode }

def closeOption (b : Builder) : Builder :=
  if b.currentIsHtml "option" then b.pop else b

def closeOptionGroup (b : Builder) : Builder :=
  let inGroup := match b.opened with
    | _ :: e :: _ => e.name.isHtml "optgroup"
    | _ => false
  let b := if inGroup then b.closeOption else b
  if b.currentIsHtml "optgroup" then b.pop else b

def inSelect (token : Token) (b : Builder) : Builder × Outcome :=
  let isOpen := b.hasInScope QName.isSelectBoundary "select"
  match token with
  | .character c => (b.insertCharacter c).stay
  | .comment text => (b.insertComment text).stay
  | .startTag tag =>
    if tag.name = "html" then (b.mergeRoot tag).stay
    else if tag.name = "option" then (b.closeOption.openTag tag).stay
    else if tag.name = "optgroup" then
      let b := b.closeOption
      let b := if b.currentIsHtml "optgroup" then b.pop else b
      (b.openTag tag).stay
    else if tag.name = "select" then (if isOpen then b.leaveSelect else b).stay
    else if ["input", "keygen", "textarea"].contains tag.name then
      if isOpen then (b.leaveSelect, .again) else b.stay
    else if ["script", "template"].contains tag.name then inHead token b
    else b.stay
  | .endTag name =>
    if name = "optgroup" then b.closeOptionGroup.stay
    else if name = "option" then b.closeOption.stay
    else if name = "select" then (if isOpen then b.leaveSelect else b).stay
    else if name = "template" then b.closeTemplate.stay
    else b.stay
  | .endOfInput => inBody token b
  | _ => b.stay

def inSelectInTable (token : Token) (b : Builder) : Builder × Outcome :=
  let pieces := ["caption", "table", "tbody", "tfoot", "thead", "tr", "td", "th"]
  match token with
  | .startTag tag =>
    if pieces.contains tag.name then (b.leaveSelect, .again) else inSelect token b
  | .endTag name =>
    if pieces.contains name then
      if b.hasInScope QName.isTableBoundary name then (b.leaveSelect, .again) else b.stay
    else inSelect token b
  | _ => inSelect token b

end Builder

end ComponentCompiler.Html
