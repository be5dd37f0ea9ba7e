import ComponentCompiler.Text.Character

namespace ComponentCompiler.Text

/-- Some of the characters that are shown by their code: format characters and marks that combine with
what stands before them.  Unicode has more of both, and code points that it does not assign yet. -/
def unseenRanges : List (Nat × Nat) :=
  [(0x7F, 0xA0), (0xAD, 0xAD), (0x300, 0x36F), (0x483, 0x489), (0x61C, 0x61C), (0x180E, 0x180E),
    (0x1680, 0x1680), (0x1AB0, 0x1ACE), (0x1DC0, 0x1DFF), (0x2000, 0x200F), (0x2028, 0x202F),
    (0x205F, 0x206F), (0x20D0, 0x20F0), (0x3000, 0x3000), (0xE000, 0xF8FF), (0xFE00, 0xFE0F),
    (0xFE20, 0xFE2F), (0xFEFF, 0xFEFF), (0xFFF0, 0xFFFB), (0xFFFE, 0xFFFF), (0xE0000, 0x10FFFF)]

def isUnseen (c : Char) : Bool :=
  c.toNat < 32 || inRanges unseenRanges c.toNat

def showChar (c : Char) : List Char :=
  if c = '"' then ['\\', '"']
  else if c = '\\' then ['\\', '\\']
  else if c = '\n' then ['\\', 'n']
  else if c = '\t' then ['\\', 't']
  else if c = '\r' then ['\\', 'r']
  else if c.toNat = 0 then ['\\', '0']
  else if isUnseen c then '\\' :: 'u' :: '\x7b' :: (Nat.toDigits 16 c.toNat ++ ['\x7d'])
  else [c]

def shown (s : String) : String :=
  String.ofList ('"' :: (s.toList.flatMap showChar ++ ['"']))

def shownList (xs : List String) : String :=
  "[" ++ String.intercalate ", " (xs.map shown) ++ "]"

end ComponentCompiler.Text
