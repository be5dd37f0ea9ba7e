import ComponentCompiler.Html.TableRules

namespace ComponentCompiler.Html

open Text (replacementCharacter)

namespace Builder

def initial (token : Token) (b : Builder) : Builder × Outcome :=
  match token with
  | .character c =>
    if isAsciiSpace c then b.stay else { b with isLegacy := true }.retry .beforeHtml
  | .comment text => (b.insertCommentIn b.page text).stay
  | _ => { b with isLegacy := true }.retry .beforeHtml

def beforeHtml (token : Token) (b : Builder) : Builder × Outcome :=
  let otherwise := (b.openRoot []).retry .beforeHead
  match token with
  | .character c => if isAsciiSpace c then b.stay else otherwise
  | .comment text => (b.insertCommentIn b.page text).stay
  | .startTag tag =>
    if tag.name = "html" then (b.openRoot tag.attributes).enter .beforeHead else otherwise
  | .endTag name => if ["head", "body", "html", "br"].contains name then otherwise else b.stay
  | _ => otherwise

def openHead (b : Builder) (tag : Tag) : Builder :=
  let (b, e) := b.insertOpen .html "head" tag.attributes
  { b with head := some e.id }

def beforeHead (token : Token) (b : Builder) : Builder × Outcome :=
  let otherwise := (b.openHead ⟨"head", [], false⟩).retry .inHead
  match token with
  | .character c => if isAsciiSpace c then b.stay else otherwise
  | .comment text => (b.insertComment text).stay
  | .startTag tag =>
    if tag.name = "html" then (b.mergeRoot tag).stay
    else if tag.name = "head" then (b.openHead tag).enter .inHead
    else otherwise
  | .endTag name => if ["head", "body", "html", "br"].contains name then otherwise else b.stay
  | _ => otherwise

/-- An element of the head that comes after it still goes into it. -/
def lateHeadElement (token : Token) (b : Builder) : Builder × Outcome :=
  match b.head with
  | none => b.stay
  | some id =>
    let (b, outcome) := inHead token { b with opened := ⟨id, ⟨.html, "head"⟩, false⟩ :: b.opened }
    (b.removeOpened id, outcome)

def afterHead (token : Token) (b : Builder) : Builder × Outcome :=
  let otherwise := (b.openEmpty "body").retry .inBody
  match token with
  | .character c => if isAsciiSpace c then (b.insertCharacter c).stay else otherwise
  | .comment text => (b.insertComment text).stay
  | .startTag tag =>
    if tag.name = "html" then (b.mergeRoot tag).stay
    else if tag.name = "body" then (b.openTag tag).forbidFrameset.enter .inBody
    else if tag.name = "frameset" then (b.openTag tag).enter .inFrameset
    else if headTags.contains tag.name then lateHeadElement token b
    else if tag.name = "head" then b.stay
    else otherwise
  | .endTag name =>
    if name = "template" then b.closeTemplate.stay
    else if ["body", "html", "br"].contains name then otherwise
    else b.stay
  | _ => otherwise

def inText (token : Token) (b : Builder) : Builder × Outcome :=
  match token with
  | .character c => (b.insertCharacter c).stay
  | .endOfInput => b.pop.retry b.returnMode
  | .endTag _ => b.pop.enter b.returnMode
  | _ => b.stay

def afterBody (token : Token) (b : Builder) : Builder × Outcome :=
  match token with
  | .character c => if isAsciiSpace c then inBody token b else b.retry .inBody
  | .comment text =>
    match b.opened.getLast? with
    | some root => (b.insertCommentIn root.id text).stay
    | none => b.stay
  | .startTag tag => if tag.name = "html" then (b.mergeRoot tag).stay else b.retry .inBody
  | .endTag name =>
    if name = "html" then (if b.isFragment then b.stay else b.enter .afterAfterBody)
    else b.retry .inBody
  | .endOfInput => b.stay
  | _ => b.retry .inBody

def inFrameset (token : Token) (b : Builder) : Builder × Outcome :=
  match token with
  | .character c => (if isAsciiSpace c then b.insertCharacter c else b).stay
  | .comment text => (b.insertComment text).stay
  | .startTag tag =>
    if tag.name = "html" then (b.mergeRoot tag).stay
    else if tag.name = "frameset" then (b.openTag tag).stay
    else if tag.name = "frame" then (b.insertVoid tag).stay
    else if tag.name = "noframes" then inHead token b
    else b.stay
  | .endTag name =>
    if name = "frameset" && b.opened.length ≠ 1 then
      let b := b.pop
      if !b.isFragment && !b.currentIsHtml "frameset" then b.enter .afterFrameset else b.stay
    else b.stay
  | _ => b.stay

def afterFrameset (token : Token) (b : Builder) : Builder × Outcome :=
  match token with
  | .character c => (if isAsciiSpace c then b.insertCharacter c else b).stay
  | .comment text => (b.insertComment text).stay
  | .startTag tag =>
    if tag.name = "html" then (b.mergeRoot tag).stay
    else if tag.name = "noframes" then inHead token b
    else b.stay
  | .endTag name => if name = "html" then b.enter .afterAfterFrameset else b.stay
  | _ => b.stay

def afterAfterBody (token : Token) (b : Builder) : Builder × Outcome :=
  match token with
  | .character c => if isAsciiSpace c then inBody token b else b.retry .inBody
  | .comment text => (b.insertCommentIn b.page text).stay
  | .startTag tag => if tag.name = "html" then (b.mergeRoot tag).stay else b.retry .inBody
  | .endOfInput => b.stay
  | _ => b.retry .inBody

def afterAfterFrameset (token : Token) (b : Builder) : Builder × Outcome :=
  match token with
  | .character c => if isAsciiSpace c then inBody token b else b.stay
  | .comment text => (b.insertCommentIn b.page text).stay
  | .startTag tag =>
    if tag.name = "html" then (b.mergeRoot tag).stay
    else if tag.name = "noframes" then inHead token b
    else b.stay
  | _ => b.stay

def rule (mode : Mode) (token : Token) (b : Builder) : Builder × Outcome :=
  match mode with
  | .initial => initial token b
  | .beforeHtml => beforeHtml token b
  | .beforeHead => beforeHead token b
  | .inHead => inHead token b
  | .afterHead => afterHead token b
  | .inBody => inBody token b
  | .text => inText token b
  | .inTable => inTable token b
  | .inTableText => inTableText token b
  | .inCaption => inCaption token b
  | .inColumnGroup => inColumnGroup token b
  | .inTableBody => inTableBody token b
  | .inRow => inRow token b
  | .inCell => inCell token b
  | .inSelect => inSelect token b
  | .inSelectInTable => inSelectInTable token b
  | .inTemplate => inTemplate token b
  | .afterBody => afterBody token b
  | .inFrameset => inFrameset token b
  | .afterFrameset => afterFrameset token b
  | .afterAfterBody => afterAfterBody token b
  | .afterAfterFrameset => afterAfterFrameset token b

def breakoutTags : List String :=
  QName.headings ++ ["b", "big", "blockquote", "body", "br", "center", "code", "dd", "div", "dl",
    "dt", "em", "embed", "head", "hr", "i", "img", "li", "listing", "menu", "meta", "nobr", "ol",
    "p", "pre", "ruby", "s", "small", "span", "strong", "strike", "sub", "sup", "table", "tt", "u",
    "ul", "var"]

def breaksOut (tag : Tag) : Bool :=
  breakoutTags.contains tag.name ||
    (tag.name = "font" && tag.attributes.any fun a => ["color", "face", "size"].contains a.name)

def isForeignToken (token : Token) (b : Builder) : Bool :=
  let context := b.contextName
  let markedUp := (b.opened.head?.map (·.holdsMarkup)).getD false
  let isAnnotated := context = ⟨.mathml, "annotation-xml"⟩
  if b.opened.isEmpty || context.space = .html then false
  else match token with
    | .endOfInput => false
    | .startTag tag =>
      !((context.isFormulaText && !(["mglyph", "malignmark"].contains tag.name)) ||
        context.isDrawingMarkup || (isAnnotated && (tag.name = "svg" || markedUp)))
    | .character _ =>
      !(context.isFormulaText || context.isDrawingMarkup || (isAnnotated && markedUp))
    | .null => !(context.isFormulaText || context.isDrawingMarkup || (isAnnotated && markedUp))
    | _ => true

def leaveForeign (token : Token) (b : Builder) : Builder × Outcome :=
  let b := b.closeUntil fun n => n.space = .html || n.isFormulaText || n.isDrawingMarkup
  rule b.mode token b

def endForeign (token : Token) (name : String) (b : Builder) (first : Bool) :
    List OpenElement → Builder × Outcome
  | [] => b.stay
  | [_] => b.stay
  | e :: below =>
    if !first && e.name.space = .html then rule b.mode token b
    else if Text.equalIgnoringAsciiCase e.name.tag name then { b with opened := below }.stay
    else endForeign token name b false below

def inForeignContent (token : Token) (b : Builder) : Builder × Outcome :=
  match token with
  | .null => (b.insertCharacter replacementCharacter).stay
  | .character c =>
    let b := if isAsciiSpace c then b else b.forbidFrameset
    (b.insertCharacter c).stay
  | .comment text => (b.insertComment text).stay
  | .startTag tag =>
    if breaksOut tag then leaveForeign token b
    else
      let space := b.contextName.space
      let name := if space = .svg then respell drawingTags tag.name else tag.name
      (b.openForeign space name tag).stay
  | .endTag name =>
    if ["br", "p"].contains name then leaveForeign token b
    else endForeign token name b true b.opened
  | _ => b.stay

def dispatch (token : Token) (b : Builder) : Builder × Outcome :=
  if b.isForeignToken token then inForeignContent token b else rule b.mode token b

/-- Offers a token to the rules until one keeps it; each offer after the first closes an element
or moves on to another mode. -/
def offer (token : Token) : Nat → Builder → Builder × Option TextKind
  | 0, b => (b, none)
  | bound + 1, b =>
    match dispatch token b with
    | (b, .done) => (b, none)
    | (b, .switch kind) => (b, some kind)
    | (b, .again) => offer token bound b

def takeDoctype (d : Doctype) (b : Builder) : Builder :=
  if b.mode = .initial then
    let (dom, id) := b.dom.make
      (.doctype (d.name.getD "") (d.publicId.getD "") (d.systemId.getD ""))
    { b with dom := dom.append b.page id, isLegacy := d.isLegacy, mode := .beforeHtml }
  else b

def isLineFeed : Token → Bool
  | .character c => c = '\n'
  | _ => false

def take (token : Token) (b : Builder) : Builder × Option TextKind :=
  let skip := b.skipsLineFeed
  let b := { b with skipsLineFeed := false }
  match token with
  | .fault => (b, none)
  | .doctype d => (takeDoctype d b, none)
  | _ =>
    if skip && isLineFeed token then (b, none)
    else offer token (2 * (b.opened.length + b.templateModes.length) + 40) b

end Builder

end ComponentCompiler.Html
