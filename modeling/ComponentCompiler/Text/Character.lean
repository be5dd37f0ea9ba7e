import ComponentCompiler.Text.IdentifierTable
import ComponentCompiler.Text.CaseTable

namespace ComponentCompiler.Text

def replacementCharacter : Char := Char.ofNat 0xFFFD

def inRanges (ranges : List (Nat × Nat)) (code : Nat) : Bool :=
  ranges.any fun (first, last) => first ≤ code && code ≤ last

def isAsciiLetter (c : Char) : Bool :=
  ('a' ≤ c && c ≤ 'z') || ('A' ≤ c && c ≤ 'Z')

def isAsciiDigit (c : Char) : Bool :=
  '0' ≤ c && c ≤ '9'

def isAsciiAlphanumeric (c : Char) : Bool :=
  isAsciiLetter c || isAsciiDigit c

def isAscii (c : Char) : Bool :=
  c.toNat < 128

def isAsciiBlank (c : Char) : Bool :=
  c = ' ' || c = '\t' || c = '\n' || c = '\x0c' || c = '\r'

def isBlank (c : Char) : Bool :=
  let n := c.toNat
  (9 ≤ n && n ≤ 13) || n = 0x20 || n = 0x85 || n = 0xA0 || n = 0x1680 ||
    (0x2000 ≤ n && n ≤ 0x200A) || n = 0x2028 || n = 0x2029 || n = 0x202F || n = 0x205F || n = 0x3000

def isIdentifierStart (c : Char) : Bool :=
  if isAscii c then isAsciiLetter c else inRanges identifierStartRanges c.toNat

def isIdentifierPart (c : Char) : Bool :=
  if isAscii c then isAsciiAlphanumeric c || c = '_'
  else inRanges identifierStartRanges c.toNat || inRanges identifierPartRanges c.toNat

/-- Word characters that no identifier may hold. -/
def wordOnlyRanges : List (Nat × Nat) := [
  (0x488, 0x489), (0x1abe, 0x1abe), (0x20dd, 0x20e0), (0x20e2, 0x20e4), (0x24b6, 0x24e9),
  (0x2e2f, 0x2e2f), (0xa670, 0xa672), (0x1f130, 0x1f149), (0x1f150, 0x1f169), (0x1f170, 0x1f189)]

def identifierOnlyRanges : List (Nat × Nat) := [
  (0xb7, 0xb7), (0x387, 0x387), (0x1369, 0x1371), (0x19da, 0x19da), (0x2118, 0x2118),
  (0x212e, 0x212e), (0x309b, 0x309c), (0x30fb, 0x30fb), (0xff65, 0xff65)]

/-- The word characters of Unicode: letters, marks, decimal digits, connector punctuation and the
two joiners. -/
def isWord (c : Char) : Bool :=
  if isAscii c then isAsciiAlphanumeric c || c = '_'
  else inRanges wordOnlyRanges c.toNat ||
    (isIdentifierPart c && !inRanges identifierOnlyRanges c.toNat)

def isUppercase (c : Char) : Bool :=
  if isAscii c then 'A' ≤ c && c ≤ 'Z'
  else uppercaseRanges.any fun (first, last, step) =>
    first ≤ c.toNat && c.toNat ≤ last && (c.toNat - first) % step = 0

def isCased (c : Char) : Bool :=
  if isAscii c then isAsciiLetter c else inRanges casedRanges c.toNat

def isCaseIgnorable (c : Char) : Bool :=
  if isAscii c then c = '\'' || c = '.' || c = ':' || c = '^' || c.toNat = 0x60
  else inRanges caseIgnorableRanges c.toNat

end ComponentCompiler.Text
