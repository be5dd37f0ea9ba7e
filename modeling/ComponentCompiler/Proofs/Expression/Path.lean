import ComponentCompiler.Proofs.Expression.Recognition
import ComponentCompiler.Expression.Eval
import ComponentCompiler.Proofs.Text.Scanning

namespace ComponentCompiler.Expression

open Text (Stops isAsciiDigit isBlank)

theorem toNat_lt_of_isNamePart {c : Char} (part : isNamePart c = true) : c.toNat < 0x80 := by
  have code : c.val.toNat = c.toNat := rfl
  have ends : 'Z'.val.toNat < 0x80 ∧ 'z'.val.toNat < 0x80 ∧ '9'.val.toNat < 0x80 := by decide
  simp only [isNamePart, Text.isAsciiAlphanumeric, Text.isAsciiLetter, Text.isAsciiDigit,
    Char.le_def, UInt32.le_iff_toNat_le, Bool.or_eq_true, Bool.and_eq_true,
    decide_eq_true_eq] at part
  rcases part with ((alphanumeric | rfl) | rfl) | rfl
  · omega
  all_goals decide

theorem forall_isNamePart {P : Char → Prop}
    (ascii : ∀ n < 0x80, isNamePart (Char.ofNat n) = true → P (Char.ofNat n)) {c : Char}
    (part : isNamePart c = true) : P c := by
  have here := ascii _ (toNat_lt_of_isNamePart part)
  rw [Char.ofNat_toNat] at here
  exact here part

theorem isNamePart_of_isNameStart {c : Char} (start : isNameStart c = true) :
    isNamePart c = true := by
  simp only [isNameStart, Bool.or_eq_true] at start
  rcases start with (letter | underscore) | dollar
  · simp [isNamePart, Text.isAsciiAlphanumeric, letter]
  · simp [isNamePart, underscore]
  · simp [isNamePart, dollar]

theorem isBlank_eq_false_of_isNamePart {c : Char} (part : isNamePart c = true) :
    isBlank c = false :=
  forall_isNamePart (P := fun c => isBlank c = false) (by decide) part

theorem isNamePart_eq_false_of_isBlank {c : Char} (blank : isBlank c = true) :
    isNamePart c = false := by
  rw [← Bool.not_eq_true]
  intro part
  rw [isBlank_eq_false_of_isNamePart part] at blank
  cases blank

theorem isName_iff {cs : List Char} : isName cs = true ↔
    ∃ c rest, cs = c :: rest ∧ isNameStart c = true ∧ ∀ d ∈ rest, isNamePart d = true := by
  cases cs <;> simp [isName]

theorem isNamePart_of_isName {cs : List Char} (named : isName cs = true) :
    ∀ c ∈ cs, isNamePart c = true := by
  obtain ⟨c, rest, rfl, start, parts⟩ := isName_iff.1 named
  exact List.forall_mem_cons.2 ⟨isNamePart_of_isNameStart start, parts⟩

structure Path where
  first : String
  more : List String
  named : ∀ s ∈ first :: more, isName s.toList = true

namespace Path

def segments (p : Path) : List String :=
  p.first :: p.more

def text (p : Path) : String :=
  String.intercalate "." p.segments

/-- The name that the path speaks of: what stands for the context itself does not count in front of
a further name. -/
def key (p : Path) : String :=
  if p.first = contextWord ∧ p.more ≠ [] then String.intercalate "." p.more else p.text

theorem pathKey?_segments (p : Path) : pathKey? p.segments = some p.key := by
  obtain ⟨first, more, -⟩ := p
  cases more with
  | nil => simp [segments, pathKey?, key, text]
  | cons s more =>
    simp only [segments, pathKey?, key, text, ne_eq, reduceCtorEq, not_false_eq_true, and_true]
    split <;> rfl

def tokens (p : Path) : List Token :=
  .name p.first :: pathTokens p.more

def moreChars (more : List String) : List Char :=
  more.flatMap fun s => '.' :: s.toList

def chars (p : Path) : List Char :=
  p.first.toList ++ moreChars p.more

theorem toList_intercalate_cons (s : String) (more : List String) :
    (String.intercalate "." (s :: more)).toList = s.toList ++ moreChars more := by
  rw [String.toList_intercalate, List.map_cons]
  induction more generalizing s with
  | nil => simp [moreChars]
  | cons t more ih =>
    rw [List.map_cons, List.intercalate_cons_cons, ih, moreChars, moreChars, List.flatMap_cons]
    simp

@[simp] theorem toList_text (p : Path) : p.text.toList = p.chars :=
  toList_intercalate_cons p.first p.more

theorem mem_chars {p : Path} {c : Char} (member : c ∈ p.chars) : isNamePart c = true ∨ c = '.' := by
  have parts : ∀ s ∈ p.first :: p.more, ∀ d ∈ s.toList, isNamePart d = true :=
    fun s member => isNamePart_of_isName (p.named s member)
  rw [List.forall_mem_cons] at parts
  simp only [chars, moreChars, List.mem_append, List.mem_flatMap, List.mem_cons] at member
  obtain first | ⟨s, inside, rfl | after⟩ := member
  · exact .inl (parts.1 c first)
  · exact .inr rfl
  · exact .inl (parts.2 s inside c after)

def single (name : List Char) (named : isName name = true) : Path :=
  ⟨String.ofList name, [], by simpa using named⟩

def qualified (name : List Char) (named : isName name = true) (p : Path) : Path :=
  ⟨String.ofList name, p.segments,
    List.forall_mem_cons.2 ⟨by rwa [String.toList_ofList], p.named⟩⟩

theorem chars_single {name : List Char} (named : isName name = true) :
    (single name named).chars = name := by
  simp [chars, single, moreChars]

theorem chars_qualified {name : List Char} (named : isName name = true) (p : Path) :
    (qualified name named p).chars = name ++ '.' :: p.chars := by
  simp [chars, qualified, moreChars, segments]

theorem keyword?_eq_none_of_dot {s : String} (dotted : '.' ∈ s.toList) : keyword? s = none := by
  rw [keyword?_eq_none]
  rintro w member rfl
  have undotted : ∀ w ∈ words, '.' ∉ w.1.toList := by decide
  exact undotted w member dotted

theorem text_eq_first {p : Path} (single : p.more = []) : p.text = p.first := by
  simp [text, segments, single]

theorem key_eq_first {p : Path} (single : p.more = []) : p.key = p.first := by
  simp [key, single, text_eq_first]

theorem more_eq_nil_of_keyword? {p : Path} {v : Value} (known : keyword? p.text = some v) :
    p.more = [] := by
  cases further : p.more with
  | nil => rfl
  | cons s more =>
    have dotted : '.' ∈ p.text.toList := by simp [chars, moreChars, further]
    rw [keyword?_eq_none_of_dot dotted] at known
    cases known

end Path

end ComponentCompiler.Expression
