import ComponentCompiler.Html.ReferenceTable

namespace ComponentCompiler.Html

open Text (replacementCharacter)

/-- What the code points from 0x80 to 0x9F stand for in a reference; zero where they stand for
themselves. -/
def windowsCodes : List Nat :=
  [0x20AC, 0, 0x201A, 0x0192, 0x201E, 0x2026, 0x2020, 0x2021, 0x02C6, 0x2030, 0x0160, 0x2039,
    0x0152, 0, 0x017D, 0, 0, 0x2018, 0x2019, 0x201C, 0x201D, 0x2022, 0x2013, 0x2014, 0x02DC,
    0x2122, 0x0161, 0x203A, 0x0153, 0, 0x017E, 0x0178]

def numberedCharacter (code : Nat) : Char :=
  if code = 0 || code > 0x10FFFF || (0xD800 ≤ code && code ≤ 0xDFFF) then replacementCharacter
  else if 0x80 ≤ code && code ≤ 0x9F then
    match windowsCodes[code - 0x80]? with
    | some n => if n = 0 then Char.ofNat code else Char.ofNat n
    | none => Char.ofNat code
  else Char.ofNat code

/-- A reference that was read: its characters, what follows it, and whether it is well formed. -/
structure Reference where
  characters : List Char
  rest : List Char
  wellFormed : Bool

def isHexDigit (c : Char) : Bool :=
  c.isDigit || ('a' ≤ c && c ≤ 'f') || ('A' ≤ c && c ≤ 'F')

def hexDigitValue (c : Char) : Nat :=
  if c.isDigit then c.toNat - 48 else if 'a' ≤ c then c.toNat - 87 else c.toNat - 55

def numbered? (base : Nat) (isDigit : Char → Bool) (cs : List Char) : Option Reference :=
  match cs.takeWhile isDigit with
  | [] => none
  | digits =>
    let code := digits.foldl (fun n c => n * base + hexDigitValue c) 0
    let character := [numberedCharacter code]
    match cs.dropWhile isDigit with
    | ';' :: rest => some ⟨character, rest, true⟩
    | rest => some ⟨character, rest, false⟩

def referencesFor (cs : List Char) : List (List Char × List Char) :=
  match cs with
  | [] => []
  | c :: _ => ((namedReferences.find? fun entry => entry.1 = c).map (·.2)).getD []

def longestName? (cs : List Char) : Option (List Char × List Char) :=
  (referencesFor cs).foldl (fun (best : Option (List Char × List Char)) entry =>
    if entry.1.isPrefixOf cs && (best.map (·.1.length)).getD 0 < entry.1.length then some entry
    else best) none

def named? (inValue : Bool) (cs : List Char) : Option Reference :=
  match longestName? cs with
  | none => none
  | some (name, characters) =>
    let rest := cs.drop name.length
    let closed := name.getLast? = some ';'
    let continued := match rest.head? with
      | some c => c = '=' || Text.isAsciiAlphanumeric c
      | none => false
    if inValue && !closed && continued then none else some ⟨characters, rest, closed⟩

def reference? (inValue : Bool) : List Char → Option Reference
  | '#' :: 'x' :: cs => numbered? 16 isHexDigit cs
  | '#' :: 'X' :: cs => numbered? 16 isHexDigit cs
  | '#' :: cs => numbered? 10 Char.isDigit cs
  | cs => named? inValue cs

def expandReferences : Nat → List Char → List Char
  | 0, cs => cs
  | _, [] => []
  | bound + 1, c :: cs =>
    if c = '&' then
      match reference? true cs with
      | some r => r.characters ++ expandReferences bound r.rest
      | none => '&' :: expandReferences bound cs
    else (if c.toNat = 0 then replacementCharacter else c) :: expandReferences bound cs

end ComponentCompiler.Html
