/-!
# Substitution in a text from left to right

`substitute find` copies a text and replaces the matches that `find` reports.  `find` sees the
character before a position and the text from there on, and answers with the length of a match and
its replacement; a match is never scanned again.
-/

namespace ComponentCompiler.Text

abbrev Match := Nat × List Char

/-- Goes on after `skip` characters, which belong to a match that was replaced already. -/
def substituteFrom (find : Option Char → List Char → Option Match) :
    Nat → Option Char → List Char → List Char
  | _, _, [] => []
  | skip + 1, _, c :: cs => substituteFrom find skip (some c) cs
  | 0, before, c :: cs =>
    match find before (c :: cs) with
    | some (length, image) => image ++ substituteFrom find (length - 1) (some c) cs
    | none => c :: substituteFrom find 0 (some c) cs

def substitute (find : Option Char → List Char → Option Match) (cs : List Char) : List Char :=
  substituteFrom find 0 none cs

end ComponentCompiler.Text
