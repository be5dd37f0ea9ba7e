import ComponentCompiler.Html.Dom
import ComponentCompiler.Html.Token

namespace ComponentCompiler.Html

open Markup (Attribute)

namespace QName

def isOne (n : QName) (tags : List String) : Bool :=
  n.space = .html && tags.contains n.tag

def isHtml (n : QName) (tag : String) : Bool :=
  n.space = .html && n.tag = tag

def isFormulaText (n : QName) : Bool :=
  n.space = .mathml && ["mi", "mo", "mn", "ms", "mtext"].contains n.tag

def isDrawingMarkup (n : QName) : Bool :=
  n.space = .svg && ["foreignObject", "desc", "title"].contains n.tag

/-- The elements that end a search for an open element. -/
def isScopeBoundary (n : QName) : Bool :=
  n.isOne ["applet", "caption", "html", "table", "td", "th", "marquee", "object", "template"] ||
    n.isFormulaText || n.isDrawingMarkup

def isListBoundary (n : QName) : Bool :=
  n.isScopeBoundary || n.isOne ["ol", "ul"]

def isButtonBoundary (n : QName) : Bool :=
  n.isScopeBoundary || n.isHtml "button"

def isTableBoundary (n : QName) : Bool :=
  n.isOne ["html", "table", "template"]

def isSelectBoundary (n : QName) : Bool :=
  !n.isOne ["optgroup", "option"]

def impliedEndTags : List String :=
  ["dd", "dt", "li", "option", "optgroup", "p", "rb", "rp", "rt", "rtc"]

def hasImpliedEnd (n : QName) : Bool :=
  n.isOne impliedEndTags

def hasThoroughImpliedEnd (n : QName) : Bool :=
  n.isOne (impliedEndTags ++ ["caption", "colgroup", "tbody", "td", "tfoot", "th", "thead", "tr"])

def headings : List String :=
  ["h1", "h2", "h3", "h4", "h5", "h6"]

/-- The elements that no unrelated closing tag reaches past. -/
def isSpecial (n : QName) : Bool :=
  n.isOne (headings ++ ["address", "applet", "area", "article", "aside", "base", "basefont",
    "bgsound", "blockquote", "body", "br", "button", "caption", "center", "col", "colgroup", "dd",
    "details", "dir", "div", "dl", "dt", "embed", "fieldset", "figcaption", "figure", "footer",
    "form", "frame", "frameset", "head", "header", "hgroup", "hr", "html", "iframe", "img", "input",
    "isindex", "li", "link", "listing", "main", "marquee", "menu", "meta", "nav", "noembed",
    "noframes", "noscript", "object", "ol", "p", "param", "plaintext", "pre", "script", "section",
    "select", "source", "style", "summary", "table", "tbody", "td", "template", "textarea", "tfoot",
    "th", "thead", "title", "tr", "track", "ul", "wbr", "xmp"])

def isTablePart (n : QName) : Bool :=
  n.isOne ["table", "tbody", "tfoot", "thead", "tr"]

end QName

def drawingTags : List String :=
  ["altGlyph", "altGlyphDef", "altGlyphItem", "animateColor", "animateMotion", "animateTransform",
    "clipPath", "feBlend", "feColorMatrix", "feComponentTransfer", "feComposite",
    "feConvolveMatrix", "feDiffuseLighting", "feDisplacementMap", "feDistantLight", "feDropShadow",
    "feFlood", "feFuncA", "feFuncB", "feFuncG", "feFuncR", "feGaussianBlur", "feImage", "feMerge",
    "feMergeNode", "feMorphology", "feOffset", "fePointLight", "feSpecularLighting", "feSpotLight",
    "feTile", "feTurbulence", "foreignObject", "glyphRef", "linearGradient", "radialGradient",
    "textPath"]

def drawingAttributes : List String :=
  ["attributeName", "attributeType", "baseFrequency", "baseProfile", "calcMode", "clipPathUnits",
    "diffuseConstant", "edgeMode", "filterUnits", "glyphRef", "gradientTransform", "gradientUnits",
    "kernelMatrix", "kernelUnitLength", "keyPoints", "keySplines", "keyTimes", "lengthAdjust",
    "limitingConeAngle", "markerHeight", "markerUnits", "markerWidth", "maskContentUnits",
    "maskUnits", "numOctaves", "pathLength", "patternContentUnits", "patternTransform",
    "patternUnits", "pointsAtX", "pointsAtY", "pointsAtZ", "preserveAlpha", "preserveAspectRatio",
    "primitiveUnits", "refX", "refY", "repeatCount", "repeatDur", "requiredExtensions",
    "requiredFeatures", "specularConstant", "specularExponent", "spreadMethod", "startOffset",
    "stdDeviation", "stitchTiles", "surfaceScale", "systemLanguage", "tableValues", "targetX",
    "targetY", "textLength", "viewBox", "viewTarget", "xChannelSelector", "yChannelSelector",
    "zoomAndPan"]

def respell (names : List String) (name : String) : String :=
  (names.find? fun n => Text.asciiLowercase n = name).getD name

def attributeName (space : Space) (name : String) : String :=
  if name = "xmlns" then ":xmlns"
  else match space with
    | .html => name
    | .mathml => if name = "definitionurl" then "definitionURL" else name
    | .svg => respell drawingAttributes name

def foreignAttributes (space : Space) (attributes : List Attribute) : List Attribute :=
  attributes.map fun a => { a with name := attributeName space a.name }

def marksUpFormula (attributes : List Attribute) : Bool :=
  attributes.any fun a => a.name = "encoding" &&
    (Text.equalIgnoringAsciiCase a.value "text/html" ||
      Text.equalIgnoringAsciiCase a.value "application/xhtml+xml")

def startsAny (words : List String) (s : String) : Bool :=
  words.any fun w => w.toList.isPrefixOf s.toList

/-- The public identifiers whose pages nest tables in paragraphs. -/
def legacyPublicStarts : List String :=
  ["-//advasoft ltd//dtd html 3.0 aswedit + extensions//",
    "-//as//dtd html 3.0 aswedit + extensions//", "-//ietf//dtd html 2.0 level 1//",
    "-//ietf//dtd html 2.0 level 2//", "-//ietf//dtd html 2.0 strict level 1//",
    "-//ietf//dtd html 2.0 strict level 2//", "-//ietf//dtd html 2.0 strict//",
    "-//ietf//dtd html 2.0//", "-//ietf//dtd html 2.1e//", "-//ietf//dtd html 3.0//",
    "-//ietf//dtd html 3.2 final//", "-//ietf//dtd html 3.2//", "-//ietf//dtd html 3//",
    "-//ietf//dtd html level 0//", "-//ietf//dtd html level 1//", "-//ietf//dtd html level 2//",
    "-//ietf//dtd html level 3//", "-//ietf//dtd html strict level 0//",
    "-//ietf//dtd html strict level 1//", "-//ietf//dtd html strict level 2//",
    "-//ietf//dtd html strict level 3//", "-//ietf//dtd html strict//", "-//ietf//dtd html//",
    "-//metrius//dtd metrius presentational//",
    "-//microsoft//dtd internet explorer 2.0 html strict//",
    "-//microsoft//dtd internet explorer 2.0 html//",
    "-//microsoft//dtd internet explorer 2.0 tables//",
    "-//microsoft//dtd internet explorer 3.0 html strict//",
    "-//microsoft//dtd internet explorer 3.0 html//",
    "-//microsoft//dtd internet explorer 3.0 tables//", "-//netscape comm. corp.//dtd html//",
    "-//netscape comm. corp.//dtd strict html//", "-//o'reilly and associates//dtd html 2.0//",
    "-//o'reilly and associates//dtd html extended 1.0//",
    "-//o'reilly and associates//dtd html extended relaxed 1.0//",
    "-//softquad software//dtd hotmetal pro 6.0::19990601::extensions to html 4.0//",
    "-//softquad//dtd hotmetal pro 4.0::19971010::extensions to html 4.0//",
    "-//spyglass//dtd html 2.0 extended//", "-//sq//dtd html 2.0 hotmetal + extensions//",
    "-//sun microsystems corp.//dtd hotjava html//",
    "-//sun microsystems corp.//dtd hotjava strict html//", "-//w3c//dtd html 3 1995-03-24//",
    "-//w3c//dtd html 3.2 draft//", "-//w3c//dtd html 3.2 final//", "-//w3c//dtd html 3.2//",
    "-//w3c//dtd html 3.2s draft//", "-//w3c//dtd html 4.0 frameset//",
    "-//w3c//dtd html 4.0 transitional//", "-//w3c//dtd html experimental 19960712//",
    "-//w3c//dtd html experimental 970421//", "-//w3c//dtd w3 html//", "-//w3o//dtd w3 html 3.0//",
    "-//webtechs//dtd mozilla html 2.0//", "-//webtechs//dtd mozilla html//"]

def legacyPublicIds : List String :=
  ["-//w3o//dtd w3 html strict 3.0//en//", "-/w3c/dtd html 4.0 transitional/en", "html"]

def legacySystemIds : List String :=
  [String.intercalate "/" ["http:", "", "www.ibm.com", "data", "dtd", "v11",
    "ibmxhtml1-transitional.dtd"]]

def legacyAloneStarts : List String :=
  ["-//w3c//dtd html 4.01 frameset//", "-//w3c//dtd html 4.01 transitional//"]

def Doctype.isLegacy (d : Doctype) : Bool :=
  let publicId := d.publicId.map Text.asciiLowercase
  let systemId := d.systemId.map Text.asciiLowercase
  d.forceLegacy || d.name ≠ some "html" ||
    (publicId.map fun p =>
      legacyPublicIds.contains p || startsAny legacyPublicStarts p).getD false ||
    (systemId.map legacySystemIds.contains).getD false ||
    (systemId.isNone && (publicId.map (startsAny legacyAloneStarts)).getD false)

end ComponentCompiler.Html
