import ComponentCompiler.Text.Character

namespace ComponentCompiler.Text

def trimStart (cs : List Char) : List Char :=
  cs.dropWhile isBlank

def dropEndWhile (p : Char → Bool) (cs : List Char) : List Char :=
  cs.foldr (fun c rest => if rest.isEmpty && p c then [] else c :: rest) []

def trimEnd (cs : List Char) : List Char :=
  dropEndWhile isBlank cs

def trim (cs : List Char) : List Char :=
  trimEnd (trimStart cs)

def splitAll (p : Char → Bool) : List Char → List (List Char)
  | [] => [[]]
  | c :: cs =>
    if p c then [] :: splitAll p cs
    else match splitAll p cs with
      | [] => [[c]]
      | piece :: pieces => (c :: piece) :: pieces

def words (cs : List Char) : List (List Char) :=
  (splitAll isBlank cs).filter fun w => !w.isEmpty

def isBlankText (s : String) : Bool :=
  s.toList.all isBlank

def trimmed (s : String) : String :=
  String.ofList (trim s.toList)

end ComponentCompiler.Text
