import ComponentCompiler.Expression.Eval
import ComponentCompiler.Markup.Tag
import ComponentCompiler.Text.Substitution

namespace ComponentCompiler.Template

open Expression (isNameStart isNamePart)
open Markup (Attribute Node)

/-- A dotted path at the start of a text: its segments and what follows.  A dot belongs to the path
only before a further name. -/
def dottedPath? : Nat → List Char → Option (List (List Char) × List Char)
  | 0, _ => none
  | _, [] => none
  | bound + 1, c :: cs =>
    if isNameStart c then
      let segment := c :: cs.takeWhile isNamePart
      let after := cs.dropWhile isNamePart
      match after with
      | '.' :: more =>
        match dottedPath? bound more with
        | some (segments, rest) => some (segment :: segments, rest)
        | none => some ([segment], after)
      | _ => some ([segment], after)
    else none

structure Placeholder where
  path : List (List Char)
  length : Nat

def placeholder? : List Char → Option Placeholder
  | '\x7b' :: cs =>
    let inner := Text.trimStart cs
    match dottedPath? inner.length inner with
    | some (path, rest) =>
      match Text.trimStart rest with
      | '\x7d' :: after => some ⟨path, cs.length + 1 - after.length⟩
      | _ => none
    | none => none
  | _ => none

/-- What takes the place of a placeholder with the given text: words for values stay as they
stand. -/
def Placeholder.image (p : Placeholder) (text : List Char) (context : Context) : List Char :=
  let path := p.path.map String.ofList
  match path with
  | [s] => if (Expression.keyword? s).isSome then text else ((context.get? s).getD "").toList
  | _ => (((Expression.pathKey? path).bind context.get?).getD "").toList

def interpolateChars (context : Context) (cs : List Char) : List Char :=
  Text.substitute (fun _ ahead =>
    (placeholder? ahead).map fun p => (p.length, p.image (ahead.take p.length) context)) cs

def interpolate (context : Context) (s : String) : String :=
  String.ofList (interpolateChars context s.toList)

def isDirective (name : String) : Bool :=
  name = "if" || name = "del-if"

def interpolateAttribute (context : Context) (a : Attribute) : Attribute :=
  if isDirective a.name then a else { a with value := interpolate context a.value }

mutual

/-- Replaces placeholders in text and attribute values; directives and the insides of raw text
elements stay. -/
def interpolateNode (context : Context) : Node → Node
  | .text value => .text (interpolate context value)
  | .element tag attributes children =>
    .element tag (attributes.map (interpolateAttribute context))
      (if Markup.isRawText tag then children else interpolateNodes context children)
  | node => node

def interpolateNodes (context : Context) : List Node → List Node
  | [] => []
  | node :: rest => interpolateNode context node :: interpolateNodes context rest

end

end ComponentCompiler.Template
