import ComponentCompiler.Text.Character

namespace ComponentCompiler.Text

def asciiLower (c : Char) : Char :=
  if 'A' ≤ c && c ≤ 'Z' then Char.ofNat (c.toNat + 32) else c

def asciiLowercase (s : String) : String :=
  String.ofList (s.toList.map asciiLower)

def equalIgnoringAsciiCase (s t : String) : Bool :=
  s.toList.map asciiLower == t.toList.map asciiLower

def lower (c : Char) : Char :=
  if isAscii c then asciiLower c
  else
    let code := c.toNat
    match lowercaseShifts.find? fun (first, last, step, _) =>
        first ≤ code && code ≤ last && (code - first) % step = 0 with
    | some (_, _, _, shift) => Char.ofNat (Int.toNat (code + shift))
    | none => c

/-- Whether the nearest character that is not case ignorable is cased. -/
def meetsCased (cs : List Char) : Bool :=
  match cs.dropWhile isCaseIgnorable with
  | [] => false
  | c :: _ => isCased c

def lowercaseFrom (before : List Char) : List Char → List Char
  | [] => []
  | c :: cs =>
    let image :=
      if c.toNat = 0x3A3 then
        [if meetsCased before && !meetsCased cs then Char.ofNat 0x3C2 else Char.ofNat 0x3C3]
      else if c.toNat = 0x130 then ['i', Char.ofNat 0x307]
      else [lower c]
    image ++ lowercaseFrom (c :: before) cs

def lowercase (s : String) : String :=
  String.ofList (lowercaseFrom [] s.toList)

end ComponentCompiler.Text
