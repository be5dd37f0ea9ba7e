import ComponentCompiler.Text.Substitution
import ComponentCompiler.Text.Character

namespace ComponentCompiler.Text

/-- Whether a place between two characters is the edge of a word; none stands for an end of the
text. -/
def isWordEdge (before after : Option Char) : Bool :=
  (before.map isWord).getD false != (after.map isWord).getD false

def after? : List Char → List Char → Option (List Char)
  | [], cs => some cs
  | _ :: _, [] => none
  | w :: ws, c :: cs => if w = c then after? ws cs else none

def afterWord? (word : List Char) (before : Option Char) (ahead : List Char) :
    Option (List Char) :=
  if isWordEdge before ahead.head? then
    match after? word ahead with
    | some rest => if isWordEdge (word.getLast?.or before) rest.head? then some rest else none
    | none => none
  else none

def insertAtEdges (image : List Char) : Option Char → List Char → List Char
  | before, [] => if isWordEdge before none then image else []
  | before, c :: cs =>
    (if isWordEdge before (some c) then image else []) ++ c :: insertAtEdges image (some c) cs

/-- Replaces a word wherever it stands whole; the empty word stands at every edge. -/
def replaceWord (word image cs : List Char) : List Char :=
  if word.isEmpty then insertAtEdges image none cs
  else substitute (fun before ahead =>
    (afterWord? word before ahead).map fun _ => (word.length, image)) cs

end ComponentCompiler.Text
