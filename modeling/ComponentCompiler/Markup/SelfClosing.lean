import ComponentCompiler.Markup.Tag
import ComponentCompiler.Text.Substitution
import ComponentCompiler.Text.Trim

/-!
# Self-closing tags

In a page the slash of `<card />` means nothing.  Before a text is read, such a tag is written out
as an opening and a closing tag, unless the element is void or the slash belongs to an attribute
value.
-/

namespace ComponentCompiler.Markup

open Text (isBlank)

inductive AttributeState
  | beforeName
  | name
  | afterName
  | beforeValue
  | quoted (quote : Char)
  | unquoted
deriving DecidableEq

def AttributeState.next : AttributeState → Char → AttributeState
  | .quoted q, c => if c = q then .beforeName else .quoted q
  | .unquoted, c => if isBlank c then .beforeName else .unquoted
  | .beforeValue, c =>
    if isBlank c then .beforeValue else if c = '"' || c = '\'' then .quoted c else .unquoted
  | .name, c => if c = '=' then .beforeValue else if isBlank c then .afterName else .name
  | .afterName, c => if c = '=' then .beforeValue else if isBlank c then .afterName else .name
  | .beforeName, c => if isBlank c then .beforeName else .name

def AttributeState.isOutside : AttributeState → Bool
  | .beforeName => true
  | .name => true
  | .afterName => true
  | _ => false

/-- Whether a slash right after the attributes closes the tag. -/
def slashCloses (attributes : List Char) : Bool :=
  (attributes.foldl AttributeState.next .beforeName).isOutside

def isTagChar (c : Char) : Bool :=
  Text.isAsciiAlphanumeric c || c = '-'

structure SlashTag where
  name : List Char
  attributes : List Char
  length : Nat

def isTagBracket (c : Char) : Bool :=
  c = '<' || c = '>'

/-- Attributes without the white space after them; white space alone counts as one blank of it. -/
def attributesOf : List Char → List Char
  | [] => []
  | c :: cs => c :: Text.trimEnd cs

def slashTag? : List Char → Option SlashTag
  | '<' :: c :: cs =>
    if Text.isAsciiLetter c then
      let name := c :: cs.takeWhile isTagChar
      let after := cs.dropWhile isTagChar
      let inside := after.takeWhile (!isTagBracket ·)
      let body := inside.dropLast
      let startsWell := match body with
        | [] => true
        | b :: _ => isBlank b
      if inside.getLast? = some '/' && (after.drop inside.length).head? = some '>' &&
          startsWell then
        some ⟨name, attributesOf body, name.length + inside.length + 2⟩
      else none
    else none
  | _ => none

def SlashTag.expand (t : SlashTag) (text : List Char) : List Char :=
  if isVoid (String.ofList t.name) || !slashCloses t.attributes then text
  else '<' :: (t.name ++ Text.trimEnd t.attributes ++ ['>', '<', '/'] ++ t.name ++ ['>'])

def expandSelfClosing (cs : List Char) : List Char :=
  Text.substitute (fun _ ahead =>
    (slashTag? ahead).map fun t => (t.length, t.expand (ahead.take t.length))) cs

end ComponentCompiler.Markup
