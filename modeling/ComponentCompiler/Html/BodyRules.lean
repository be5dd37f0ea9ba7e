import ComponentCompiler.Html.Formatting

namespace ComponentCompiler.Html

open Markup (Attribute)

namespace Builder

def isAsciiSpace (c : Char) : Bool :=
  Text.isAsciiBlank c

/-- A second `html` tag gives the root the attributes it lacks. -/
def mergeRoot (b : Builder) (tag : Tag) : Builder :=
  if b.hasOpenTemplate then b
  else match b.opened.getLast? with
    | some root => { b with dom := b.dom.addMissing root.id tag.attributes }
    | none => b

def closeTemplate (b : Builder) : Builder :=
  if b.hasOpenTemplate then
    let b := ((b.closeImplied QName.hasThoroughImpliedEnd).closeThroughTag "template").clearToMarker
    let b := { b with templateModes := b.templateModes.tail }
    { b with mode := b.properMode }
  else b

def headTags : List String :=
  ["base", "basefont", "bgsound", "link", "meta", "noframes", "script", "style", "template",
    "title"]

def headStart? (b : Builder) (tag : Tag) : Option (Builder × Outcome) :=
  if ["base", "basefont", "bgsound", "link", "meta"].contains tag.name then
    some (b.insertVoid tag).stay
  else if tag.name = "title" then some (b.openText tag .rcdata)
  else if ["noframes", "style", "noscript"].contains tag.name then some (b.openText tag .rawtext)
  else if tag.name = "script" then some (b.openText tag (.script .plain))
  else if tag.name = "template" then
    let b := (b.openTag tag).pushMarker
    some { b with
      framesetOk := false, mode := .inTemplate,
      templateModes := .inTemplate :: b.templateModes }.stay
  else none

def inHead (token : Token) (b : Builder) : Builder × Outcome :=
  match token with
  | .character c => if isAsciiSpace c then (b.insertCharacter c).stay else b.pop.retry .afterHead
  | .comment text => (b.insertComment text).stay
  | .startTag tag =>
    if tag.name = "html" then (b.mergeRoot tag).stay
    else if tag.name = "head" then b.stay
    else (b.headStart? tag).getD (b.pop.retry .afterHead)
  | .endTag name =>
    if name = "head" then b.pop.enter .afterHead
    else if ["body", "html", "br"].contains name then b.pop.retry .afterHead
    else if name = "template" then b.closeTemplate.stay
    else b.stay
  | _ => b.pop.retry .afterHead

def endInTemplate (b : Builder) : Builder × Outcome :=
  if b.hasOpenTemplate then
    let b := (b.closeThroughTag "template").clearToMarker
    let b := { b with templateModes := b.templateModes.tail }
    b.retry b.properMode
  else b.stay

def blockTags : List String :=
  ["address", "article", "aside", "blockquote", "center", "details", "dialog", "dir", "div", "dl",
    "fieldset", "figcaption", "figure", "footer", "header", "hgroup", "main", "menu", "nav", "ol",
    "p", "section", "summary", "ul"]

def blockEndTags : List String :=
  ["address", "article", "aside", "blockquote", "button", "center", "details", "dialog", "dir",
    "div", "dl", "fieldset", "figcaption", "figure", "footer", "header", "hgroup", "listing",
    "main", "menu", "nav", "ol", "pre", "section", "summary", "ul"]

def formattingTags : List String :=
  ["b", "big", "code", "em", "font", "i", "s", "small", "strike", "strong", "tt", "u"]

def isHiddenInput (tag : Tag) : Bool :=
  match tag.attributes.find? fun a => a.name = "type" with
  | some a => Text.equalIgnoringAsciiCase a.value "hidden"
  | none => false

def forbidFrameset (b : Builder) : Builder :=
  { b with framesetOk := false }

def body? (b : Builder) : Option OpenElement :=
  match b.opened.reverse with
  | _ :: e :: _ => if e.name.isHtml "body" then some e else none
  | _ => none

def itemToClose (tags : List String) : List OpenElement → Option String
  | [] => none
  | e :: below =>
    if e.name.isOne tags then some e.name.tag
    else if e.name.isSpecial && !e.name.isOne ["address", "div", "p"] then none
    else itemToClose tags below

def openItem (b : Builder) (tags : List String) (tag : Tag) : Builder :=
  let b := b.forbidFrameset
  let b := match itemToClose tags b.opened with
    | some name => (b.closeImpliedExcept name).closeThroughTag name
    | none => b
  b.closeParagraph.openTag tag

def closeBlock (b : Builder) (boundary : QName → Bool) (name : String) : Builder :=
  if b.hasInScope boundary name then
    (b.closeImplied QName.hasImpliedEnd).closeThroughTag name
  else b

def closeForm (b : Builder) : Builder :=
  if b.hasOpenTemplate then b.closeBlock QName.isScopeBoundary "form"
  else match b.form with
    | none => b
    | some id =>
      let b := { b with form := none }
      if b.inScope QName.isScopeBoundary (·.id = id) then
        (b.closeImplied QName.hasImpliedEnd).removeOpened id
      else b

def openForeign (b : Builder) (space : Space) (name : String) (tag : Tag) : Builder :=
  let attributes := foreignAttributes space tag.attributes
  if tag.selfClosing then (b.insertClosed space name attributes).1
  else (b.insertOpen space name attributes).1

def isTableMode (m : Mode) : Bool :=
  [Mode.inTable, .inCaption, .inTableBody, .inRow, .inCell].contains m

def bodyStartBlock? (b : Builder) (tag : Tag) : Option (Builder × Outcome) :=
  let name := tag.name
  if blockTags.contains name then some (b.closeParagraph.openTag tag).stay
  else if QName.headings.contains name then
    let b := b.closeParagraph
    let b := if b.currentIs (·.isOne QName.headings) then b.pop else b
    some (b.openTag tag).stay
  else if ["pre", "listing"].contains name then
    some { (b.closeParagraph.openTag tag).forbidFrameset with skipsLineFeed := true }.stay
  else if name = "form" then
    if b.form.isSome && !b.hasOpenTemplate then some b.stay
    else
      let b := b.closeParagraph
      let (opened, e) := b.insertOpen .html name tag.attributes
      some (if opened.hasOpenTemplate then opened else { opened with form := some e.id }).stay
  else if name = "li" then some (b.openItem ["li"] tag).stay
  else if ["dd", "dt"].contains name then some (b.openItem ["dd", "dt"] tag).stay
  else if name = "plaintext" then some (b.closeParagraph.openTag tag, .switch .plaintext)
  else if name = "button" then
    let b := if b.hasInScope QName.isScopeBoundary "button" then
        (b.closeImplied QName.hasImpliedEnd).closeThroughTag "button" else b
    some (b.reconstruct.openTag tag).forbidFrameset.stay
  else if name = "table" then
    let b := if b.isLegacy then b else b.closeParagraph
    some ((b.openTag tag).forbidFrameset.enter .inTable)
  else if name = "hr" then some (b.closeParagraph.insertVoid tag).forbidFrameset.stay
  else if name = "xmp" then
    some (b.closeParagraph.reconstruct.forbidFrameset.openText tag .rawtext)
  else none

def bodyStartInline? (b : Builder) (tag : Tag) : Option (Builder × Outcome) :=
  let name := tag.name
  if name = "a" then some (b.closeLink.reconstruct.openFormatting tag).stay
  else if formattingTags.contains name then some (b.reconstruct.openFormatting tag).stay
  else if name = "nobr" then
    let b := b.reconstruct
    let b := if b.hasInScope QName.isScopeBoundary "nobr" then (b.adopt "nobr").reconstruct else b
    some (b.openFormatting tag).stay
  else if ["applet", "marquee", "object"].contains name then
    some (b.reconstruct.openTag tag).pushMarker.forbidFrameset.stay
  else if ["area", "br", "embed", "img", "keygen", "wbr", "input"].contains name then
    let b := b.reconstruct.insertVoid tag
    some (if name = "input" && isHiddenInput tag then b else b.forbidFrameset).stay
  else if name = "image" then
    some (b.reconstruct.insertVoid { tag with name := "img" }).forbidFrameset.stay
  else if ["param", "source", "track"].contains name then some (b.insertVoid tag).stay
  else if name = "textarea" then
    some ({ b.forbidFrameset with skipsLineFeed := true }.openText tag .rcdata)
  else if name = "iframe" then some (b.forbidFrameset.openText tag .rawtext)
  else if ["noembed", "noscript"].contains name then some (b.openText tag .rawtext)
  else if name = "select" then
    let mode := if isTableMode b.mode then Mode.inSelectInTable else .inSelect
    some ((b.reconstruct.openTag tag).forbidFrameset.enter mode)
  else if ["optgroup", "option"].contains name then
    let b := if b.currentIsHtml "option" then b.pop else b
    some (b.reconstruct.openTag tag).stay
  else if ["rb", "rtc"].contains name then
    let b := if b.hasInScope QName.isScopeBoundary "ruby" then
        b.closeImplied QName.hasImpliedEnd else b
    some (b.openTag tag).stay
  else if ["rp", "rt"].contains name then
    let b := if b.hasInScope QName.isScopeBoundary "ruby" then b.closeImpliedExcept "rtc" else b
    some (b.openTag tag).stay
  else if name = "math" then some (b.openForeign .mathml name tag).stay
  else if name = "svg" then some (b.openForeign .svg name tag).stay
  else none

def mergeBody (b : Builder) (tag : Tag) : Builder :=
  match b.body? with
  | some e =>
    if b.hasOpenTemplate then b
    else { b.forbidFrameset with dom := b.dom.addMissing e.id tag.attributes }
  | none => b

/-- Frames take the place of a body in which nothing stands yet. -/
def replaceBody (b : Builder) (tag : Tag) : Builder :=
  match b.body? with
  | some e =>
    if b.framesetOk then
      let b := { b with dom := b.dom.detach e.id, opened := b.opened.drop (b.opened.length - 1) }
      { b.openTag tag with mode := .inFrameset }
    else b
  | none => b

def bodyStart (b : Builder) (tag : Tag) : Builder × Outcome :=
  let name := tag.name
  if name = "html" then (b.mergeRoot tag).stay
  else if name = "body" then (b.mergeBody tag).stay
  else if name = "frameset" then (b.replaceBody tag).stay
  else if ["caption", "col", "colgroup", "frame", "head", "tbody", "td", "tfoot", "th", "thead",
      "tr"].contains name then b.stay
  else
    let ruled := (if headTags.contains name then b.headStart? tag else none).or
      ((b.bodyStartBlock? tag).or (b.bodyStartInline? tag))
    ruled.getD (b.reconstruct.openTag tag).stay

def bodyEnd (b : Builder) (name : String) : Builder × Outcome :=
  if name = "template" then b.closeTemplate.stay
  else if name = "body" then
    if b.hasInScope QName.isScopeBoundary "body" then b.enter .afterBody else b.stay
  else if name = "html" then
    if b.hasInScope QName.isScopeBoundary "body" then b.retry .afterBody else b.stay
  else if blockEndTags.contains name then (b.closeBlock QName.isScopeBoundary name).stay
  else if name = "form" then b.closeForm.stay
  else if name = "p" then
    let b := if b.hasInScope QName.isButtonBoundary "p" then b else b.openEmpty "p"
    b.closeParagraph.stay
  else if ["li", "dd", "dt"].contains name then
    let boundary := if name = "li" then QName.isListBoundary else QName.isScopeBoundary
    (if b.hasInScope boundary name then (b.closeImpliedExcept name).closeThroughTag name
      else b).stay
  else if QName.headings.contains name then
    (if b.inScope QName.isScopeBoundary (·.name.isOne QName.headings) then
      (b.closeImplied QName.hasImpliedEnd).closeThrough (·.isOne QName.headings) else b).stay
  else if name = "a" || name = "nobr" || formattingTags.contains name then (b.adopt name).stay
  else if ["applet", "marquee", "object"].contains name then
    (if b.hasInScope QName.isScopeBoundary name then
      ((b.closeImplied QName.hasImpliedEnd).closeThroughTag name).clearToMarker else b).stay
  else if name = "br" then (b.reconstruct.insertVoid ⟨"br", [], false⟩).forbidFrameset.stay
  else (b.closeOrdinary name).stay

def bodyCharacter (b : Builder) (c : Char) : Builder :=
  let b := b.reconstruct
  let b := if isAsciiSpace c then b else b.forbidFrameset
  b.insertCharacter c

def inBody (token : Token) (b : Builder) : Builder × Outcome :=
  match token with
  | .character c => (b.bodyCharacter c).stay
  | .comment text => (b.insertComment text).stay
  | .startTag tag => b.bodyStart tag
  | .endTag name => b.bodyEnd name
  | .endOfInput => if b.templateModes.isEmpty then b.stay else b.endInTemplate
  | _ => b.stay

def setTemplateMode (b : Builder) (mode : Mode) : Builder × Outcome :=
  { b with templateModes := mode :: b.templateModes.tail }.retry mode

def inTemplate (token : Token) (b : Builder) : Builder × Outcome :=
  match token with
  | .character _ => inBody token b
  | .comment _ => inBody token b
  | .startTag tag =>
    if headTags.contains tag.name then inHead token b
    else if ["caption", "colgroup", "tbody", "tfoot", "thead"].contains tag.name then
      b.setTemplateMode .inTable
    else if tag.name = "col" then b.setTemplateMode .inColumnGroup
    else if tag.name = "tr" then b.setTemplateMode .inTableBody
    else if ["td", "th"].contains tag.name then b.setTemplateMode .inRow
    else b.setTemplateMode .inBody
  | .endTag name => if name = "template" then b.closeTemplate.stay else b.stay
  | .endOfInput => b.endInTemplate
  | _ => b.stay

end Builder

end ComponentCompiler.Html
