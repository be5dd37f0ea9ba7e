import ComponentCompiler.Expression.Lexer
import ComponentCompiler.Proofs.Expression.Path

namespace ComponentCompiler.Expression

open Number (Binary64)
open Text (Stops dropWhile_append_of_stops isAsciiDigit isBlank ne_of_holds takeWhile_append_of_stops)

def escape (quote c : Char) : List Char :=
  if c = quote ∨ c = '\\' then ['\\', c] else [c]

theorem quotedRest_quote (quote : Char) (rest : List Char) :
    quotedRest quote (quote :: rest) = some ([], rest) := by
  rw [quotedRest.eq_def]
  simp

theorem quotedRest_escaped {quote : Char} (plain : quote ≠ '\\') (c : Char) (rest : List Char) :
    quotedRest quote ('\\' :: c :: rest) =
      (quotedRest quote rest).map fun (text, rest) => (c :: text, rest) := by
  rw [quotedRest.eq_def]
  simp [plain.symm]

theorem quotedRest_free {quote c : Char} (free : c ≠ quote ∧ c ≠ '\\') (rest : List Char) :
    quotedRest quote (c :: rest) =
      (quotedRest quote rest).map fun (text, rest) => (c :: text, rest) := by
  rw [quotedRest.eq_def]
  simp [free]

theorem quotedRest_escape {quote : Char} (plain : quote ≠ '\\') (text rest : List Char) :
    quotedRest quote (text.flatMap (escape quote) ++ quote :: rest) = some (text, rest) := by
  induction text with
  | nil => exact quotedRest_quote quote rest
  | cons c text ih =>
    rw [List.flatMap_cons, escape]
    split
    next escaped => simp [quotedRest_escaped plain, ih]
    next free => simp [quotedRest_free (not_or.1 free), ih]

structure Decimal where
  whole : List Char
  fraction : Option (List Char) := none
  nonempty : whole ≠ []
  digits : ∀ c ∈ whole ++ fraction.getD [], isAsciiDigit c = true

namespace Decimal

def text (d : Decimal) : List Char :=
  d.whole ++ (d.fraction.map ('.' :: ·)).getD []

def value (d : Decimal) : Binary64 :=
  .ofDecimal (decimalValue (d.whole ++ d.fraction.getD [])) (-((d.fraction.getD []).length : Int))

theorem number?_text (d : Decimal) : number? d.text = some d.value := by
  obtain ⟨whole, after⟩ := List.forall_mem_append.1 d.digits
  have stops : Stops isAsciiDigit ((d.fraction.map ('.' :: ·)).getD []) := by
    cases d.fraction with
    | none => simp [Stops]
    | some fraction => exact fun c first => by cases first; decide
  rw [number?, text, takeWhile_append_of_stops whole stops, dropWhile_append_of_stops whole stops,
    value]
  cases point : d.fraction with
  | none => simp
  | some fraction =>
    have all : fraction.all isAsciiDigit = true := List.all_eq_true.2 (by simpa [point] using after)
    simp [all]

theorem isNumberPart_of_mem {d : Decimal} {c : Char} (member : c ∈ d.text) :
    isNumberPart c = true := by
  obtain ⟨whole, after⟩ := List.forall_mem_append.1 d.digits
  rw [isNumberPart, Bool.or_eq_true, decide_eq_true_eq]
  rw [text, List.mem_append] at member
  cases point : d.fraction with
  | none => exact .inl (whole c (by simpa [point] using member))
  | some fraction =>
    simp only [point, Option.map_some, Option.getD_some, List.mem_cons] at member after
    rcases member with inside | rfl | inside
    · exact .inl (whole c inside)
    · exact .inr rfl
    · exact .inl (after c inside)

theorem exists_digit (d : Decimal) : ∃ c cs, d.text = c :: cs ∧ isAsciiDigit c = true := by
  obtain ⟨c, cs, front⟩ := List.exists_cons_of_ne_nil d.nonempty
  refine ⟨c, _, by rw [text, front, List.cons_append], d.digits c ?_⟩
  rw [front]
  exact List.mem_cons_self

end Decimal

inductive Spells : Token → List Char → Prop
  | name {s : String} (named : isName s.toList = true) : Spells (.name s) s.toList
  | string {quote : Char} (isQuote : quote = '"' ∨ quote = '\'') (s : String) :
    Spells (.string s) (quote :: (s.toList.flatMap (escape quote) ++ [quote]))
  | number (d : Decimal) : Spells (.number d.value) d.text
  | dot : Spells .dot ['.']
  | bang : Spells .bang ['!']
  | openParen : Spells .openParen ['(']
  | closeParen : Spells .closeParen [')']
  | equal : Spells .eqEq ['=', '=']
  | identical : Spells .eqEq ['=', '=', '=']
  | unequal : Spells .notEq ['!', '=']
  | unidentical : Spells .notEq ['!', '=', '=']
  | andAnd : Spells .andAnd ['&', '&']
  | orOr : Spells .orOr ['|', '|']

/-- Whether a character right after a token may go on with it. -/
def Token.goesOn : Token → Char → Bool
  | .name _, c => isNamePart c
  | .number _, c => isNumberPart c
  | .bang, c | .eqEq, c | .notEq, c => c = '='
  | _, _ => false

theorem goesOn_eq_false_of_isBlank (t : Token) {c : Char} (blank : isBlank c = true) :
    t.goesOn c = false := by
  have digit : isAsciiDigit c = false := by
    have part := isNamePart_eq_false_of_isBlank blank
    simp only [isNamePart, Text.isAsciiAlphanumeric, Bool.or_eq_false_iff] at part
    exact part.1.1.1.2
  have dot : c ≠ '.' := ne_of_holds blank (by decide)
  have equals : c ≠ '=' := ne_of_holds blank (by decide)
  cases t <;> simp [Token.goesOn, isNamePart_eq_false_of_isBlank blank, isNumberPart, digit, dot,
    equals]

theorem scanToken_name {c : Char} (start : isNameStart c = true) (cs : List Char) :
    scanToken c cs = .ok (.name (String.ofList (c :: cs.takeWhile isNamePart)),
      cs.dropWhile isNamePart) := by
  have other (d : Char) (refused : isNameStart d = false) : c ≠ d := ne_of_holds start refused
  have digit : isAsciiDigit c = false :=
    forall_isNamePart (P := fun c => isNameStart c = true → isAsciiDigit c = false) (by decide)
      (isNamePart_of_isNameStart start) start
  simp [scanToken, start, digit, other '.' (by decide), other '(' (by decide),
    other ')' (by decide), other '!' (by decide), other '=' (by decide), other '&' (by decide),
    other '|' (by decide), other '"' (by decide), other '\'' (by decide)]

theorem scanToken_digit {c : Char} {cs : List Char} {x : Binary64} (digit : isAsciiDigit c = true)
    (value : number? (c :: cs.takeWhile isNumberPart) = some x) :
    scanToken c cs = .ok (.number x, cs.dropWhile isNumberPart) := by
  have other (d : Char) (refused : isAsciiDigit d = false) : c ≠ d := ne_of_holds digit refused
  simp [scanToken, digit, value, other '.' (by decide), other '(' (by decide), other ')' (by decide),
    other '!' (by decide), other '=' (by decide), other '&' (by decide), other '|' (by decide),
    other '"' (by decide), other '\'' (by decide)]

theorem scanToken_quote {quote : Char} {cs text rest : List Char}
    (isQuote : quote = '"' ∨ quote = '\'') (closed : quotedRest quote cs = some (text, rest)) :
    scanToken quote cs = .ok (.string (String.ofList text), rest) := by
  rcases isQuote with rfl | rfl <;> simp [scanToken, closed]

theorem afterEquals_of_stops {rest : List Char} (stops : Stops (· = '=') rest) :
    afterEquals rest = rest := by
  unfold afterEquals
  split
  · simp [Stops] at stops
  · rfl

theorem scanToken_bang {rest : List Char} (stops : Stops (· = '=') rest) :
    scanToken '!' rest = .ok (.bang, rest) := by
  unfold scanToken
  simp only [Char.reduceEq, if_false, if_true]
  split
  · simp [Stops] at stops
  · rfl

theorem scanToken_append {t : Token} {text rest : List Char} (spells : Spells t text)
    (stops : Stops t.goesOn rest) :
    ∃ c cs, text = c :: cs ∧ isBlank c = false ∧ scanToken c (cs ++ rest) = .ok (t, rest) := by
  cases spells with
  | @name s named =>
    obtain ⟨c, cs, chars, start, parts⟩ := isName_iff.1 named
    refine ⟨c, cs, chars, isBlank_eq_false_of_isNamePart (isNamePart_of_isNameStart start), ?_⟩
    rw [scanToken_name start, takeWhile_append_of_stops parts stops,
      dropWhile_append_of_stops parts stops, ← chars, String.ofList_toList]
  | @string quote isQuote s =>
    have plain : quote ≠ '\\' := by rcases isQuote with rfl | rfl <;> decide
    have solid : isBlank quote = false := by rcases isQuote with rfl | rfl <;> decide
    refine ⟨quote, _, rfl, solid, ?_⟩
    rw [List.append_assoc, List.singleton_append,
      scanToken_quote isQuote (quotedRest_escape plain s.toList rest), String.ofList_toList]
  | number d =>
    obtain ⟨c, cs, chars, digit⟩ := d.exists_digit
    have solid : isBlank c = false :=
      isBlank_eq_false_of_isNamePart (by simp [isNamePart, Text.isAsciiAlphanumeric, digit])
    have parts : ∀ e ∈ cs, isNumberPart e = true := fun e member =>
      Decimal.isNumberPart_of_mem (by rw [chars]; exact List.mem_cons_of_mem c member)
    refine ⟨c, cs, chars, solid, ?_⟩
    have value : number? (c :: (cs ++ rest).takeWhile isNumberPart) = some d.value := by
      rw [takeWhile_append_of_stops parts stops, ← chars, d.number?_text]
    rw [scanToken_digit digit value, dropWhile_append_of_stops parts stops]
  | bang => exact ⟨_, _, rfl, by decide, scanToken_bang stops⟩
  | equal => exact ⟨_, _, rfl, by decide, by simp [scanToken, afterEquals_of_stops stops]⟩
  | unequal => exact ⟨_, _, rfl, by decide, by simp [scanToken, afterEquals_of_stops stops]⟩
  | identical => exact ⟨_, _, rfl, by decide, rfl⟩
  | unidentical => exact ⟨_, _, rfl, by decide, rfl⟩
  | dot => exact ⟨_, _, rfl, by decide, rfl⟩
  | openParen => exact ⟨_, _, rfl, by decide, rfl⟩
  | closeParen => exact ⟨_, _, rfl, by decide, rfl⟩
  | andAnd => exact ⟨_, _, rfl, by decide, rfl⟩
  | orOr => exact ⟨_, _, rfl, by decide, rfl⟩

/-- The tokens are written one after the other in the text, white space aside, and no character
after a token goes on with it. -/
inductive Written : List Token → List Char → Prop
  | nil : Written [] []
  | blank {ts : List Token} {c : Char} {cs : List Char} (blank : isBlank c = true)
    (rest : Written ts cs) : Written ts (c :: cs)
  | token {t : Token} {ts : List Token} {text cs : List Char} (spells : Spells t text)
    (stops : Stops t.goesOn cs) (rest : Written ts cs) : Written (t :: ts) (text ++ cs)

theorem tokensWithin_of_written {ts : List Token} {cs : List Char} (written : Written ts cs)
    {bound : Nat} (enough : cs.length ≤ bound) : tokensWithin bound cs = .ok ts := by
  induction written generalizing bound with
  | nil => cases bound <;> rfl
  | blank blank rest ih =>
    cases bound with
    | zero => exact absurd enough (Nat.not_succ_le_zero _)
    | succ bound =>
      rw [tokensWithin, if_pos blank]
      exact ih (Nat.le_of_succ_le_succ enough)
  | token spells stops rest ih =>
    obtain ⟨c, more, rfl, solid, scanned⟩ := scanToken_append spells stops
    cases bound with
    | zero => exact absurd enough (Nat.not_succ_le_zero _)
    | succ bound =>
      rw [List.cons_append, List.length_cons, List.length_append] at enough
      rw [List.cons_append, tokensWithin, if_neg (by simp [solid]), scanned]
      have tail := @ih bound (by omega)
      simp only [ok_bind, tail]
      rfl

theorem tokens_of_written {ts : List Token} {cs : List Char} (written : Written ts cs) :
    tokens cs = .ok ts :=
  tokensWithin_of_written written (Nat.le_refl _)

theorem written_segments {first : String} {more : List String}
    (named : ∀ s ∈ first :: more, isName s.toList = true) :
    Written (.name first :: pathTokens more) (first.toList ++ Path.moreChars more) := by
  rw [List.forall_mem_cons] at named
  induction more generalizing first with
  | nil => exact .token (.name named.1) (by simp [Stops, Path.moreChars]) .nil
  | cons s more ih =>
    have dot : Written (.dot :: .name s :: pathTokens more)
        ('.' :: (s.toList ++ Path.moreChars more)) :=
      .token .dot (fun _ _ => rfl) (ih (List.forall_mem_cons.1 named.2))
    refine .token (.name named.1) (fun c front => ?_) dot
    cases front
    rfl

theorem Path.written (p : Path) : Written p.tokens p.chars :=
  written_segments p.named

end ComponentCompiler.Expression
