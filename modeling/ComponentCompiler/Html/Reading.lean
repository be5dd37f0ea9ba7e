import ComponentCompiler.Html.Lexer
import ComponentCompiler.Html.PageRules

namespace ComponentCompiler.Html

open Markup (Node)

structure Reading where
  kind : TextKind
  opener : String
  builder : Builder

def Reading.takeToken (r : Reading) (token : Token) : Reading :=
  let opener := match token with
    | .startTag tag => tag.name
    | _ => r.opener
  let (builder, kind) := r.builder.take token
  ⟨kind.getD r.kind, opener, builder⟩

def Reading.run : Nat → List Char → Reading → Reading
  | 0, _, r => r
  | _, [], r => r
  | bound + 1, c :: cs, r =>
    let s := scan r.kind r.opener r.builder.inForeign c cs
    Reading.run bound s.rest (s.tokens.foldl Reading.takeToken { r with kind := s.kind })

def prepare (source : List Char) : List Char :=
  match source with
  | c :: cs => if c.toNat = 0xFEFF then normalizeNewlines cs else normalizeNewlines (c :: cs)
  | [] => []

def readWith (b : Builder) (source : List Char) : Builder :=
  let cs := prepare source
  let r := Reading.run cs.length cs ⟨.data, "", b⟩
  (r.takeToken .endOfInput).builder

def emptyBuilder (isFragment : Bool) : Builder where
  dom := #[⟨.container, none, []⟩]
  page := 0
  isFragment := isFragment
  mode := if isFragment then .inTemplate else .initial
  returnMode := .initial
  templateModes := if isFragment then [.inTemplate] else []
  tableText := []
  opened := []
  formatting := []
  head := none
  form := none
  framesetOk := true
  skipsLineFeed := false
  fosterParenting := false
  isLegacy := false

def readPage (source : List Char) : List Node :=
  let b := readWith (emptyBuilder false) source
  b.dom.toNodes b.page

/-- The nodes of a piece of markup, read as the contents of a template. -/
def readFragment (source : List Char) : List Node :=
  let b := readWith ((emptyBuilder true).openRoot []) source
  match b.dom.children b.page with
  | root :: _ => b.dom.toNodes root
  | [] => []

end ComponentCompiler.Html
