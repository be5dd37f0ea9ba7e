import ComponentCompiler.Text.Character

/-!
# Replacement patterns

A pattern is copied with its references filled in: `$0` or `$` with a zero in braces stands for the
text that was matched, any other name for nothing, and `$$` for a dollar sign.
-/

namespace ComponentCompiler.Text

def isReferenceChar (c : Char) : Bool :=
  isAsciiAlphanumeric c || c = '_'

def isZeroName : List Char → Bool
  | [] => false
  | ['+'] => false
  | c :: cs => (c = '0' || c = '+') && cs.all (· = '0')

def referenced (matched name : List Char) : List Char :=
  if isZeroName name then matched else []

def fillWithin (matched : List Char) : Nat → List Char → List Char
  | 0, cs => cs
  | _, [] => []
  | bound + 1, c :: cs =>
    if c ≠ '$' then c :: fillWithin matched bound cs
    else match cs with
      | '$' :: rest => '$' :: fillWithin matched bound rest
      | '\x7b' :: rest =>
        match rest.dropWhile (· ≠ '\x7d') with
        | _ :: after =>
          referenced matched (rest.takeWhile (· ≠ '\x7d')) ++ fillWithin matched bound after
        | [] => '$' :: fillWithin matched bound cs
      | _ =>
        match cs.takeWhile isReferenceChar with
        | [] => '$' :: fillWithin matched bound cs
        | name => referenced matched name ++
            fillWithin matched bound (cs.dropWhile isReferenceChar)

def fill (matched pattern : List Char) : List Char :=
  fillWithin matched pattern.length pattern

end ComponentCompiler.Text
