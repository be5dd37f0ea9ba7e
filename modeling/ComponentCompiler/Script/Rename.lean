import ComponentCompiler.Script.Statements
import ComponentCompiler.Text.Pattern

namespace ComponentCompiler.Script

/-- What takes the place of an occurrence.  The name that others see stays as it is, except in a
pattern that assigns. -/
def Occurrence.image (o : Occurrence) (symbol replacement : List Char) : List Char :=
  match o.role with
  | .plain => replacement
  | .assigned => replacement
  | .shorthand => symbol ++ ':' :: ' ' :: replacement
  | .imported => symbol ++ ' ' :: 'a' :: 's' :: ' ' :: replacement

def replaceOccurrences (image : Occurrence → List Char) (occs : Occurrences) (cs : List Char) :
    List Char :=
  if occs.isEmpty then cs
  else Text.substitute (fun _ ahead =>
    let position := ahead.length
    (occs.find? fun o => o.ahead = position).map fun o => (o.width, image o)) cs

/-- Replaces a name where it refers to a variable or binds one; none for a script that is not well
formed. -/
def renameOccurrences? (symbol replacement cs : List Char) : Option (List Char) :=
  (occurrences? cs).map fun occs =>
    replaceOccurrences (·.image symbol replacement)
      (occs.filter fun o => o.name.toList = symbol) cs

def renameWords (symbol pattern cs : List Char) : List Char :=
  Text.replaceWord symbol (Text.fill symbol pattern) cs

inductive Transformer
  | ast
  | text
deriving DecidableEq

namespace Transformer

def name : Transformer → String
  | ast => "ast"
  | text => "text"

def ofName? (s : String) : Option Transformer :=
  [ast, text].find? fun t => t.name = s

/-- A script that is not well formed is renamed as a text. -/
def rename (t : Transformer) (symbol replacement cs : List Char) : List Char :=
  match t with
  | ast => (renameOccurrences? symbol replacement cs).getD (renameWords symbol replacement cs)
  | text => renameWords symbol replacement cs

end Transformer

end ComponentCompiler.Script
