import ComponentCompiler.Html.Reference
import ComponentCompiler.Html.Token

namespace ComponentCompiler.Html

open Markup (Attribute)
open Text (asciiLower isAsciiLetter replacementCharacter)

def normalizeNewlines : List Char → List Char
  | '\r' :: '\n' :: cs => '\n' :: normalizeNewlines cs
  | '\r' :: cs => '\n' :: normalizeNewlines cs
  | c :: cs => c :: normalizeNewlines cs
  | [] => []

def isSpace (c : Char) : Bool :=
  c = '\t' || c = '\n' || c = '\x0c' || c = ' '

def replaceNull (c : Char) : Char :=
  if c.toNat = 0 then replacementCharacter else c

def nameOf (cs : List Char) : String :=
  String.ofList (cs.map fun c => asciiLower (replaceNull c))

def endsTagName (c : Char) : Bool :=
  isSpace c || c = '/' || c = '>'

def endsAttributeName (c : Char) : Bool :=
  endsTagName c || c = '='

def endsUnquoted (c : Char) : Bool :=
  isSpace c || c = '>'

structure TagRest where
  attributes : List Attribute
  selfClosing : Bool
  rest : List Char

def TagRest.add (name value : List Char) (t : TagRest) : TagRest :=
  { t with attributes :=
      ⟨nameOf name, String.ofList (expandReferences value.length value)⟩ :: t.attributes }

/-- Reads attributes up to the end of the tag, at most `bound` of them; none when the text ends
first. -/
def tagRest? : Nat → List Char → Option TagRest
  | 0, _ => none
  | bound + 1, cs =>
    match cs.dropWhile isSpace with
    | [] => none
    | '>' :: rest => some ⟨[], false, rest⟩
    | '/' :: '>' :: rest => some ⟨[], true, rest⟩
    | '/' :: rest => tagRest? bound rest
    | c :: more =>
      let name := c :: more.takeWhile (!endsAttributeName ·)
      match (more.dropWhile (!endsAttributeName ·)).dropWhile isSpace with
      | '=' :: text =>
        match text.dropWhile isSpace with
        | [] => none
        | '>' :: rest => some (TagRest.add name [] ⟨[], false, rest⟩)
        | q :: body =>
          if q = '"' || q = '\'' then
            (tagRest? bound (body.dropWhile (· ≠ q)).tail).map
              (TagRest.add name (body.takeWhile (· ≠ q)))
          else
            (tagRest? bound (body.dropWhile (!endsUnquoted ·))).map
              (TagRest.add name (q :: body.takeWhile (!endsUnquoted ·)))
      | rest => (tagRest? bound rest).map (TagRest.add name [])

def dropRepeated : List Attribute → List Attribute → List Attribute
  | _, [] => []
  | seen, a :: rest =>
    if seen.any fun b => b.name = a.name then dropRepeated seen rest
    else a :: dropRepeated (a :: seen) rest

def commentText : List Char → List Char × List Char
  | [] => ([], [])
  | ['-'] => ([], [])
  | ['-', '-'] => ([], [])
  | ['-', '-', '!'] => ([], [])
  | '-' :: '-' :: '>' :: rest => ([], rest)
  | '-' :: '-' :: '!' :: '>' :: rest => ([], rest)
  | c :: cs =>
    let (text, rest) := commentText cs
    (c :: text, rest)

def commentRest : List Char → List Char × List Char
  | '>' :: rest => ([], rest)
  | '-' :: '>' :: rest => ([], rest)
  | cs => commentText cs

def commentToken (text : List Char) : Token :=
  .comment (String.ofList (text.map replaceNull))

def bogusComment (cs : List Char) : Token × List Char :=
  (commentToken (cs.takeWhile (· ≠ '>')), (cs.dropWhile (· ≠ '>')).tail)

/-- What follows a word at the start of a text, ASCII case aside; the word is in lower case. -/
def afterWord? : List Char → List Char → Option (List Char)
  | [], cs => some cs
  | _ :: _, [] => none
  | w :: ws, c :: cs => if w = asciiLower c then afterWord? ws cs else none

def skipDeclaration (d : Doctype) (cs : List Char) : Doctype × List Char :=
  (d, (cs.dropWhile (· ≠ '>')).tail)

def quotedIdentifier (q : Char) (cs : List Char) : String × Bool × List Char :=
  let isEnd := fun c => c = q || c = '>'
  let text := String.ofList ((cs.takeWhile (!isEnd ·)).map replaceNull)
  match cs.dropWhile (!isEnd ·) with
  | c :: rest => if c = q then (text, true, rest) else (text, false, c :: rest)
  | [] => (text, false, [])

def afterSystemId (d : Doctype) (cs : List Char) : Doctype × List Char :=
  match cs.dropWhile isSpace with
  | [] => ({ d with forceLegacy := true }, [])
  | rest => skipDeclaration d rest

def systemId (required : Bool) (d : Doctype) (cs : List Char) : Doctype × List Char :=
  match cs.dropWhile isSpace with
  | [] => ({ d with forceLegacy := true }, [])
  | c :: rest =>
    if c = '>' then ({ d with forceLegacy := required }, rest)
    else if c = '"' || c = '\'' then
      let (text, closed, rest) := quotedIdentifier c rest
      let d := { d with systemId := some text }
      if closed then afterSystemId d rest else skipDeclaration { d with forceLegacy := true } rest
    else skipDeclaration { d with forceLegacy := true } (c :: rest)

def publicId (d : Doctype) (cs : List Char) : Doctype × List Char :=
  match cs.dropWhile isSpace with
  | c :: rest =>
    if c = '"' || c = '\'' then
      let (text, closed, rest) := quotedIdentifier c rest
      let d := { d with publicId := some text }
      if closed then systemId false d rest else skipDeclaration { d with forceLegacy := true } rest
    else skipDeclaration { d with forceLegacy := true } (c :: rest)
  | [] => ({ d with forceLegacy := true }, [])

def doctypeRest (cs : List Char) : Doctype × List Char :=
  match cs.dropWhile isSpace with
  | [] => (⟨none, none, none, true⟩, [])
  | '>' :: rest => (⟨none, none, none, true⟩, rest)
  | c :: more =>
    let d : Doctype := ⟨some (nameOf (c :: more.takeWhile (!endsUnquoted ·))), none, none, false⟩
    match (more.dropWhile (!endsUnquoted ·)).dropWhile isSpace with
    | [] => ({ d with forceLegacy := true }, [])
    | '>' :: rest => (d, rest)
    | rest =>
      match afterWord? "public".toList rest, afterWord? "system".toList rest with
      | some after, _ => publicId d after
      | none, some after => systemId true d after
      | none, none => skipDeclaration { d with forceLegacy := true } rest

def literalSection : List Char → List Char × List Char
  | [] => ([], [])
  | ']' :: ']' :: '>' :: rest => ([], rest)
  | c :: cs =>
    let (text, rest) := literalSection cs
    (c :: text, rest)

/-- What one step read: tokens, the kind of the text that follows, and that text. -/
structure Scan where
  tokens : List Token
  kind : TextKind
  rest : List Char

def characterToken (c : Char) : Token :=
  if c.toNat = 0 then .null else .character c

def scanTag (closing : Bool) (cs : List Char) : Scan :=
  let name := nameOf (cs.takeWhile (!endsTagName ·))
  let after := cs.dropWhile (!endsTagName ·)
  match tagRest? (after.length + 1) after with
  | none => ⟨[], .data, []⟩
  | some t =>
    let token := if closing then Token.endTag name
      else .startTag ⟨name, dropRepeated [] t.attributes, t.selfClosing⟩
    ⟨[token], .data, t.rest⟩

def scanDeclaration (inForeign : Bool) (cs : List Char) : Scan :=
  match cs with
  | '-' :: '-' :: body =>
    let (text, rest) := commentRest body
    ⟨[commentToken text], .data, rest⟩
  | _ =>
    match afterWord? "doctype".toList cs with
    | some body =>
      let (d, rest) := doctypeRest body
      ⟨[.doctype d], .data, rest⟩
    | none =>
      match if inForeign && "[CDATA[".toList.isPrefixOf cs then some (cs.drop 7) else none with
      | some body =>
        let (text, rest) := literalSection body
        ⟨text.map characterToken, .data, rest⟩
      | none =>
        let (token, rest) := bogusComment cs
        ⟨[token], .data, rest⟩

def scanMarkup (inForeign : Bool) (cs : List Char) : Scan :=
  match cs with
  | '!' :: body => scanDeclaration inForeign body
  | '?' :: _ =>
    let (token, rest) := bogusComment cs
    ⟨[token], .data, rest⟩
  | '/' :: body =>
    match body with
    | [] => ⟨[.character '<', .character '/'], .data, []⟩
    | '>' :: rest => ⟨[.fault], .data, rest⟩
    | c :: _ =>
      if isAsciiLetter c then scanTag true body
      else
        let (token, rest) := bogusComment body
        ⟨[token], .data, rest⟩
  | c :: _ => if isAsciiLetter c then scanTag false cs else ⟨[.character '<'], .data, cs⟩
  | [] => ⟨[.character '<'], .data, []⟩

def scanReference (kind : TextKind) (cs : List Char) : Scan :=
  match reference? false cs with
  | some r =>
    let tokens := r.characters.map .character
    ⟨if r.wellFormed then tokens else .fault :: tokens, kind, r.rest⟩
  | none => ⟨[.character '&'], kind, cs⟩

def closesElement (name : String) (cs : List Char) : Bool :=
  match cs with
  | '/' :: body =>
    nameOf (body.takeWhile isAsciiLetter) = name &&
      (match body.dropWhile isAsciiLetter with
        | c :: _ => endsTagName c
        | [] => false)
  | _ => false

def scanRaw (opener : String) (kind : TextKind) (c : Char) (cs : List Char) : Scan :=
  if c = '<' && closesElement opener cs then scanTag true cs.tail
  else ⟨[.character (replaceNull c)], kind, cs⟩

def scriptWord? (cs : List Char) : Option (List Char × Char × List Char) :=
  match cs.dropWhile isAsciiLetter with
  | c :: rest => if endsTagName c then some (cs.takeWhile isAsciiLetter, c, rest) else none
  | [] => none

def isScriptWord (letters : List Char) : Bool :=
  nameOf letters = "script"

def nextDashes (dashes : Nat) (c : Char) : Nat :=
  if c = '-' then min 2 (dashes + 1) else 0

def scanScript (opener : String) (s : ScriptText) (c : Char) (cs : List Char) : Scan :=
  match s with
  | .plain =>
    if c = '<' && ['!', '-', '-'].isPrefixOf cs then
      ⟨['<', '!', '-', '-'].map .character, .script (.escaped 2), cs.drop 3⟩
    else scanRaw opener (.script .plain) c cs
  | .escaped dashes =>
    if c = '<' then
      if closesElement opener cs then scanTag true cs.tail
      else
        match (if (cs.head?.map isAsciiLetter).getD false then scriptWord? cs else none) with
        | some (letters, ending, rest) =>
          let state := if isScriptWord letters then ScriptText.doubleEscaped 0 else .escaped 0
          ⟨('<' :: letters ++ [ending]).map .character, .script state, rest⟩
        | none => ⟨[.character '<'], .script (.escaped 0), cs⟩
    else if c = '>' && dashes = 2 then ⟨[.character c], .script .plain, cs⟩
    else ⟨[.character (replaceNull c)], .script (.escaped (nextDashes dashes c)), cs⟩
  | .doubleEscaped dashes =>
    if c = '<' then
      match cs with
      | '/' :: body =>
        match scriptWord? body with
        | some (letters, ending, rest) =>
          let state := if isScriptWord letters then ScriptText.escaped 0 else .doubleEscaped 0
          ⟨('<' :: '/' :: letters ++ [ending]).map .character, .script state, rest⟩
        | none => ⟨[.character '<', .character '/'], .script (.doubleEscaped 0), body⟩
      | _ => ⟨[.character '<'], .script (.doubleEscaped 0), cs⟩
    else if c = '>' && dashes = 2 then ⟨[.character c], .script .plain, cs⟩
    else ⟨[.character (replaceNull c)], .script (.doubleEscaped (nextDashes dashes c)), cs⟩

def scan (kind : TextKind) (opener : String) (inForeign : Bool) (c : Char) (cs : List Char) :
    Scan :=
  match kind with
  | .data =>
    if c = '<' then scanMarkup inForeign cs
    else if c = '&' then scanReference .data cs
    else ⟨[characterToken c], .data, cs⟩
  | .rcdata => if c = '&' then scanReference .rcdata cs else scanRaw opener .rcdata c cs
  | .rawtext => scanRaw opener .rawtext c cs
  | .script s => scanScript opener s c cs
  | .plaintext => ⟨[.character (replaceNull c)], .plaintext, cs⟩

end ComponentCompiler.Html
