import ComponentCompiler.Text.Trim

/-!
# Scoping style sheets

Every selector of a top-level rule is put under a class.  At-rules with all they hold, declarations,
comments and the white space between rules stay as they are, and any text is taken, well formed or
not.
-/

namespace ComponentCompiler.Style

open Text (isAsciiBlank trim trimStart)

inductive Inside
  | plain
  | quoted (quote : Char)
  | comment
deriving DecidableEq

def keep (c : Char) (cut : List Char × List Char) : List Char × List Char :=
  (c :: cut.1, cut.2)

def isQuote (c : Char) : Bool :=
  c = '"' || c = '\''

def gap : Inside → List Char → List Char × List Char
  | _, [] => ([], [])
  | .comment, '*' :: '/' :: cs => keep '*' (keep '/' (gap .plain cs))
  | .comment, c :: cs => keep c (gap .comment cs)
  | _, '/' :: '*' :: cs => keep '/' (keep '*' (gap .comment cs))
  | _, c :: cs => if isAsciiBlank c then keep c (gap .plain cs) else ([], c :: cs)

/-- The text before the brace or semicolon that ends a prelude; none when there is neither.  Inside
strings, comments and parentheses they do not count. -/
def prelude? : Inside → Nat → List Char → Option (List Char × List Char)
  | _, _, [] => none
  | .comment, parens, '*' :: '/' :: cs => (prelude? .plain parens cs).map (keep '*' ∘ keep '/')
  | .comment, parens, c :: cs => (prelude? .comment parens cs).map (keep c)
  | .quoted q, parens, '\\' :: c :: cs => (prelude? (.quoted q) parens cs).map (keep '\\' ∘ keep c)
  | .quoted q, parens, c :: cs =>
    (prelude? (if c = q then .plain else .quoted q) parens cs).map (keep c)
  | .plain, parens, '/' :: '*' :: cs => (prelude? .comment parens cs).map (keep '/' ∘ keep '*')
  | .plain, parens, c :: cs =>
    if isQuote c then (prelude? (.quoted c) parens cs).map (keep c)
    else if c = '(' then (prelude? .plain (parens + 1) cs).map (keep c)
    else if c = ')' then (prelude? .plain (parens - 1) cs).map (keep c)
    else if parens = 0 && (c = '\x7b' || c = ';') then some ([], c :: cs)
    else (prelude? .plain parens cs).map (keep c)

/-- A block up to the brace that closes it, or all of the text. -/
def block : Inside → Nat → List Char → List Char × List Char
  | _, _, [] => ([], [])
  | .comment, depth, '*' :: '/' :: cs => keep '*' (keep '/' (block .plain depth cs))
  | .comment, depth, c :: cs => keep c (block .comment depth cs)
  | .quoted q, depth, '\\' :: c :: cs => keep '\\' (keep c (block (.quoted q) depth cs))
  | .quoted q, depth, c :: cs => keep c (block (if c = q then .plain else .quoted q) depth cs)
  | .plain, depth, '/' :: '*' :: cs => keep '/' (keep '*' (block .comment depth cs))
  | .plain, depth, c :: cs =>
    if isQuote c then keep c (block (.quoted c) depth cs)
    else if c = '\x7b' then keep c (block .plain (depth + 1) cs)
    else if c = '\x7d' then
      if depth ≤ 1 then ([c], cs) else keep c (block .plain (depth - 1) cs)
    else keep c (block .plain depth cs)

/-- Cuts at the commas that stand in no string, parenthesis or bracket. -/
def splitSelectors : Option Char → Nat → List Char → List (List Char)
  | _, _, [] => [[]]
  | quote, depth, c :: cs =>
    let extend (pieces : List (List Char)) : List (List Char) :=
      match pieces with
      | [] => [[c]]
      | piece :: rest => (c :: piece) :: rest
    match quote with
    | some q => extend (splitSelectors (if c = q then none else some q) depth cs)
    | none =>
      if isQuote c then extend (splitSelectors (some c) depth cs)
      else if c = '(' || c = '[' then extend (splitSelectors none (depth + 1) cs)
      else if c = ')' || c = ']' then extend (splitSelectors none (depth - 1) cs)
      else if c = ',' && depth = 0 then [] :: splitSelectors none depth cs
      else extend (splitSelectors none depth cs)

def selectors (cs : List Char) : List (List Char) :=
  ((splitSelectors none 0 cs).map trim).filter fun s => !s.isEmpty

def joinSelectors : List (List Char) → List Char
  | [] => []
  | [s] => s
  | s :: rest => s ++ ',' :: ' ' :: joinSelectors rest

def scopeSelectors (className cs : List Char) : List Char :=
  joinSelectors ((selectors cs).map fun s => '.' :: (className ++ ' ' :: s))

def scopeRule (className head body : List Char) : List Char :=
  if (trimStart head).head? = some '@' then head ++ body
  else scopeSelectors className (trim head) ++ ' ' :: body

/-- Scopes at most `bound` items; every item has a character. -/
def scopeItems (className : List Char) : Nat → List Char → List Char
  | 0, cs => cs
  | bound + 1, cs =>
    let (space, rest) := gap .plain cs
    space ++ match rest with
      | [] => []
      | c :: after =>
        if c = '\x7d' then c :: scopeItems className bound after
        else match prelude? .plain 0 (c :: after) with
          | none => c :: after
          | some (head, tail) =>
            if tail.head? = some ';' then head ++ ';' :: scopeItems className bound tail.tail
            else
              let (body, rest) := block .plain 0 tail
              scopeRule className head body ++ scopeItems className bound rest

def scopeChars (className cs : List Char) : List Char :=
  scopeItems (className.dropWhile (· = '.')) cs.length cs

def scope (sheet className : String) : String :=
  String.ofList (scopeChars className.toList sheet.toList)

end ComponentCompiler.Style
