import ComponentCompiler.Text.Lowercase

namespace ComponentCompiler.Markup

def voidTags : List String :=
  ["area", "base", "br", "col", "embed", "hr", "img", "input", "link", "meta", "param", "source",
    "track", "wbr"]

def standardTags : List String :=
  ["a", "abbr", "address", "area", "article", "aside", "audio", "b", "base", "bdi", "bdo",
    "blockquote", "body", "br", "button", "canvas", "caption", "cite", "code", "col", "colgroup",
    "data", "datalist", "dd", "del", "details", "dfn", "dialog", "div", "dl", "dt", "em", "embed",
    "fieldset", "figcaption", "figure", "footer", "form", "h1", "h2", "h3", "h4", "h5", "h6",
    "head", "header", "hgroup", "hr", "html", "i", "iframe", "img", "input", "ins", "kbd", "label",
    "legend", "li", "link", "main", "map", "mark", "menu", "meta", "meter", "nav", "noscript",
    "object", "ol", "optgroup", "option", "output", "p", "param", "picture", "pre", "progress", "q",
    "rp", "rt", "ruby", "s", "samp", "script", "search", "section", "select", "slot", "small",
    "source", "span", "strong", "style", "sub", "summary", "sup", "table", "tbody", "td",
    "template", "textarea", "tfoot", "th", "thead", "time", "title", "tr", "track", "u", "ul",
    "var", "video", "wbr", "svg", "math"]

def rawTextTags : List String :=
  ["script", "style", "xmp", "iframe", "noembed", "noframes", "noscript", "plaintext"]

def isVoid (tag : String) : Bool :=
  voidTags.contains (Text.asciiLowercase tag)

def isStandard (tag : String) : Bool :=
  standardTags.contains (Text.asciiLowercase tag)

def isRawText (tag : String) : Bool :=
  rawTextTags.contains (Text.asciiLowercase tag)

def isForeignRoot (tag : String) : Bool :=
  ["svg", "math"].contains (Text.asciiLowercase tag)

end ComponentCompiler.Markup
