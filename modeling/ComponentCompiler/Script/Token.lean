import ComponentCompiler.Text.Word

namespace ComponentCompiler.Script

open Text (isAsciiDigit isAsciiLetter)

inductive Token
  | word (text : String) (escaped : Bool)
  | privateWord
  | number
  | string
  | mark (text : String)
  | bad
  | finish
deriving DecidableEq

def isLineEnd (c : Char) : Bool :=
  c = '\n' || c = '\r' || c.toNat = 0x2028 || c.toNat = 0x2029

/-- White space of scripts: that of Unicode without U+0085, and the mark of byte order. -/
def isScriptBlank (c : Char) : Bool :=
  (Text.isBlank c && c.toNat ≠ 0x85) || c.toNat = 0xFEFF

inductive Gap
  | plain
  | line
  | comment

/-- Skips white space and comments; tells whether a line ended.  None inside an open comment. -/
def skipGap : Gap → Bool → List Char → Option (Bool × List Char)
  | .comment, _, [] => none
  | _, ended, [] => some (ended, [])
  | .comment, ended, '*' :: '/' :: cs => skipGap .plain ended cs
  | .comment, ended, c :: cs => skipGap .comment (ended || isLineEnd c) cs
  | .line, ended, c :: cs =>
    skipGap (if isLineEnd c then .plain else .line) (ended || isLineEnd c) cs
  | .plain, ended, '/' :: '/' :: cs => skipGap .line ended cs
  | .plain, ended, '/' :: '*' :: cs => skipGap .comment ended cs
  | .plain, ended, c :: cs =>
    if isLineEnd c then skipGap .plain true cs
    else if isScriptBlank c then skipGap .plain ended cs
    else some (ended, c :: cs)

def isWordStart (c : Char) : Bool :=
  Text.isIdentifierStart c || c = '_' || c = '$'

def isWordPart (c : Char) : Bool :=
  Text.isIdentifierPart c || c = '$' || c.toNat = 0x200C || c.toNat = 0x200D

def hexValue? (c : Char) : Option Nat :=
  if isAsciiDigit c then some (c.toNat - 48)
  else if 'a' ≤ c && c ≤ 'f' then some (c.toNat - 87)
  else if 'A' ≤ c && c ≤ 'F' then some (c.toNat - 55)
  else none

def hexDigits? : Nat → Nat → List Char → Option (Nat × List Char)
  | 0, n, cs => some (n, cs)
  | _, _, [] => none
  | count + 1, n, c :: cs => (hexValue? c).bind fun d => hexDigits? count (n * 16 + d) cs

def codePoint? : List Char → Option (Nat × List Char)
  | '\x7b' :: cs =>
    let digits := cs.takeWhile (· ≠ '\x7d')
    match cs.dropWhile (· ≠ '\x7d') with
    | _ :: rest =>
      if digits.isEmpty then none
      else match hexDigits? digits.length 0 digits with
        | some (n, _) => if n ≤ 0x10FFFF then some (n, rest) else none
        | none => none
    | [] => none
  | cs => hexDigits? 4 0 cs

def wordRest? (isPart : Char → Bool) : Nat → List Char → Option (List Char × Bool × List Char)
  | 0, cs => some ([], false, cs)
  | _, [] => some ([], false, [])
  | bound + 1, '\\' :: 'u' :: cs =>
    match codePoint? cs with
    | some (n, rest) =>
      if isPart (Char.ofNat n) then
        (wordRest? isWordPart bound rest).map fun (text, _, rest) =>
          (Char.ofNat n :: text, true, rest)
      else none
    | none => none
  | bound + 1, c :: cs =>
    if isPart c then
      (wordRest? isWordPart bound cs).map fun (text, escaped, rest) => (c :: text, escaped, rest)
    else if c = '\\' then none
    else some ([], false, c :: cs)

def digitsRest? (isDigit : Char → Bool) : List Char → Option (List Char)
  | '_' :: c :: cs => if isDigit c then digitsRest? isDigit cs else none
  | c :: cs =>
    if isDigit c then digitsRest? isDigit cs else if c = '_' then none else some (c :: cs)
  | [] => some []

def digits? (isDigit : Char → Bool) : List Char → Option (List Char)
  | c :: cs => if isDigit c then digitsRest? isDigit cs else none
  | [] => none

def exponent? : List Char → Option (List Char)
  | c :: cs =>
    if c = 'e' || c = 'E' then
      match cs with
      | '+' :: rest => digits? isAsciiDigit rest
      | '-' :: rest => digits? isAsciiDigit rest
      | rest => digits? isAsciiDigit rest
    else some (c :: cs)
  | [] => some []

def numberTail? : List Char → Option (List Char)
  | 'n' :: cs => some cs
  | '.' :: c :: cs =>
    if isAsciiDigit c then (digitsRest? isAsciiDigit cs).bind exponent? else exponent? (c :: cs)
  | '.' :: [] => some []
  | cs => exponent? cs

def bigTail (cs : List Char) : List Char :=
  match cs with
  | 'n' :: rest => rest
  | rest => rest

def isHex (c : Char) : Bool :=
  (hexValue? c).isSome

def zeroNumber? : List Char → Option (List Char)
  | c :: cs =>
    if c = 'x' || c = 'X' then (digits? isHex cs).map bigTail
    else if c = 'o' || c = 'O' then (digits? (fun d => '0' ≤ d && d ≤ '7') cs).map bigTail
    else if c = 'b' || c = 'B' then (digits? (fun d => d = '0' || d = '1') cs).map bigTail
    else if isAsciiDigit c then
      match (c :: cs).dropWhile isAsciiDigit with
      | '_' :: _ => none
      | 'n' :: _ => none
      | rest =>
        if ((c :: cs).takeWhile isAsciiDigit).all (· ≤ '7') then some rest else numberTail? rest
    else if c = '_' then none
    else numberTail? (c :: cs)
  | [] => some []

def number? (cs : List Char) : Option (List Char) :=
  let rest := match cs with
    | '0' :: more => zeroNumber? more
    | '.' :: more => (digits? isAsciiDigit more).bind exponent?
    | more => (digits? isAsciiDigit more).bind numberTail?
  rest.bind fun rest =>
    match rest with
    | c :: _ => if isWordStart c || isAsciiDigit c || c = '\\' then none else some rest
    | [] => some []

def escape? : List Char → Option (List Char)
  | [] => none
  | 'x' :: cs => (hexDigits? 2 0 cs).map (·.2)
  | 'u' :: cs => (codePoint? cs).map (·.2)
  | '\r' :: '\n' :: cs => some cs
  | _ :: cs => some cs

/-- What follows a string after its opening quote, in at most `bound` steps. -/
def string? (quote : Char) : Nat → List Char → Option (List Char)
  | 0, _ => none
  | _, [] => none
  | bound + 1, c :: cs =>
    if c = quote then some cs
    else if c = '\\' then (escape? cs).bind (string? quote bound)
    else if c = '\n' || c = '\r' then none
    else string? quote bound cs

/-- A piece of a template: whether the template ends with it, whether its escapes are well formed,
and what follows it. -/
def templatePiece? : Nat → List Char → Option (Bool × Bool × List Char)
  | 0, _ => none
  | _, [] => none
  | bound + 1, c :: cs =>
    if c.toNat = 0x60 then some (true, true, cs)
    else if c = '\\' then
      match escape? cs with
      | some rest =>
        let numbered := (cs.head?.map isAsciiDigit).getD false &&
          !(cs.head? = some '0' && !((cs.tail.head?.map isAsciiDigit).getD false))
        (templatePiece? bound rest).map fun (ends, valid, rest) => (ends, valid && !numbered, rest)
      | none => (templatePiece? bound cs.tail).map fun (ends, _, rest) => (ends, false, rest)
    else if c = '$' && cs.head? = some '\x7b' then some (false, true, cs.tail)
    else templatePiece? bound cs

def regexBody? (inClass : Bool) : List Char → Option (List Char)
  | [] => none
  | '\\' :: c :: cs => if isLineEnd c then none else regexBody? inClass cs
  | c :: cs =>
    if isLineEnd c || c = '\\' then none
    else if c = '/' && !inClass then some cs
    else regexBody? (if c = '[' then true else if c = ']' then false else inClass) cs

/-- What follows a regular expression after its opening slash: its flags are known and different. -/
def regex? (cs : List Char) : Option (List Char) :=
  (regexBody? false cs).bind fun rest =>
    let flags := rest.takeWhile isWordPart
    if flags.all ("dgimsuvy".toList.contains ·) && flags.eraseDups.length = flags.length then
      some (rest.dropWhile isWordPart)
    else none

def marks : List String :=
  [">>>=", "...", "===", "!==", "**=", "<<=", ">>=", ">>>", "&&=", "||=", "??=", "=>", "==", "!=",
    "<=", ">=", "&&", "||", "??", "++", "--", "+=", "-=", "*=", "/=", "%=", "&=", "|=", "^=", "<<",
    ">>", "**", "\x7b", "\x7d", "(", ")", "[", "]", ";", ",", "<", ">", "+", "-", "*", "/", "%",
    "&", "|", "^", "!", "~", "?", ":", "=", ".", "@"]

def mark? (cs : List Char) : Option (Token × List Char) :=
  match cs with
  | '?' :: '.' :: rest =>
    if (rest.head?.map isAsciiDigit).getD false then some (.mark "?", '.' :: rest)
    else some (.mark "?.", rest)
  | _ =>
    marks.findSome? fun m => (Text.after? m.toList cs).map fun rest => (Token.mark m, rest)

def scanToken (cs : List Char) : Token × List Char :=
  match cs with
  | [] => (.finish, [])
  | c :: rest =>
    if isWordStart c || c = '\\' then
      match wordRest? isWordStart cs.length cs with
      | some (text, escaped, rest) => (.word (String.ofList text) escaped, rest)
      | none => (.bad, rest)
    else if c = '#' then
      match wordRest? isWordStart rest.length rest with
      | some (_ :: _, _, rest) => (.privateWord, rest)
      | _ => (.bad, rest)
    else if isAsciiDigit c || (c = '.' && (rest.head?.map isAsciiDigit).getD false) then
      match number? cs with
      | some rest => (.number, rest)
      | none => (.bad, rest)
    else if c = '"' || c = '\'' then
      match string? c (rest.length + 1) rest with
      | some rest => (.string, rest)
      | none => (.bad, rest)
    else if c.toNat = 0x60 then (.mark (String.singleton c), rest)
    else (mark? cs).getD (.bad, rest)

end ComponentCompiler.Script
