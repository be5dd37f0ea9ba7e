import ComponentCompiler.Markup.SelfClosing
import ComponentCompiler.Proofs.Html.TagText

namespace ComponentCompiler.Markup

open Html
open Text (Stops dropWhile_append_of_stops isAsciiBlank ne_of_holds
  takeWhile_append_of_stops)

def isNameChar (c : Char) : Bool :=
  !(isAsciiBlank c || ['"', '\'', '>', '/', '='].contains c)

def isUnquotedChar (c : Char) : Bool :=
  !(isAsciiBlank c || ['"', '\'', '<', '=', '>', '\x60'].contains c)

/-- What follows the name of an attribute: nothing, or the sign with the white space around it and a
value of one of two forms. -/
inductive Assignment
  | absent
  | unquoted (before after text : List Char)
    (blankBefore : ∀ c ∈ before, isAsciiBlank c = true := by exact List.all_eq_true.1 rfl)
    (blankAfter : ∀ c ∈ after, isAsciiBlank c = true := by exact List.all_eq_true.1 rfl)
    (nonempty : text ≠ [] := by decide)
    (allowed : ∀ c ∈ text, isUnquotedChar c = true := by exact List.all_eq_true.1 rfl)
  | quoted (before after : List Char) (quote : Char) (text : List Char)
    (blankBefore : ∀ c ∈ before, isAsciiBlank c = true := by exact List.all_eq_true.1 rfl)
    (blankAfter : ∀ c ∈ after, isAsciiBlank c = true := by exact List.all_eq_true.1 rfl)
    (isQuote : quote = '"' ∨ quote = '\'' := by decide) (unclosed : quote ∉ text := by decide)

namespace Assignment

def chars : Assignment → List Char
  | .absent => []
  | .unquoted before after text .. => before ++ '=' :: (after ++ text)
  | .quoted before after quote text .. => before ++ '=' :: (after ++ quote :: (text ++ [quote]))

def isUnquoted : Assignment → Bool
  | .unquoted .. => true
  | _ => false

end Assignment

structure WrittenAttribute where
  gap : List Char
  name : List Char
  assignment : Assignment
  apart : gap ≠ [] := by decide
  blank : ∀ c ∈ gap, isAsciiBlank c = true := by exact List.all_eq_true.1 rfl
  named : name ≠ [] := by decide
  allowed : ∀ c ∈ name, isNameChar c = true := by exact List.all_eq_true.1 rfl

namespace WrittenAttribute

def chars (a : WrittenAttribute) : List Char :=
  a.gap ++ (a.name ++ a.assignment.chars)

end WrittenAttribute

def attributeText (attributes : List WrittenAttribute) : List Char :=
  attributes.flatMap WrittenAttribute.chars

def lastUnquoted (attributes : List WrittenAttribute) : Bool :=
  attributes.getLast?.any (·.assignment.isUnquoted)

def tagEnd (attributes : List WrittenAttribute) (ending : List Char) : List Char :=
  attributeText attributes ++ (ending ++ ['/', '>'])

/-- A tag that ends in a slash: a letter and what follows it in the name, the attributes, and the
white space before the slash. -/
structure WrittenTag where
  initial : Char
  more : List Char
  attributes : List WrittenAttribute
  ending : List Char
  isLetter : Text.isAsciiLetter initial = true := by decide
  named : ∀ c ∈ more, isTagChar c = true := by exact List.all_eq_true.1 rfl
  blank : ∀ c ∈ ending, isAsciiBlank c = true := by exact List.all_eq_true.1 rfl

namespace WrittenTag

def name (t : WrittenTag) : List Char :=
  t.initial :: t.more

def text (t : WrittenTag) : List Char :=
  '<' :: (t.name ++ tagEnd t.attributes t.ending)

def opened (t : WrittenTag) : List Char :=
  '<' :: (t.name ++ attributeText t.attributes ++ ['>', '<', '/'] ++ t.name ++ ['>'])

def isFlagged (t : WrittenTag) : Bool :=
  !(lastUnquoted t.attributes && t.ending.isEmpty)

/-- The tag with its slash as markup means it. -/
def meant (t : WrittenTag) : List Char :=
  if isVoid (String.ofList t.name) || !t.isFlagged then t.text else t.opened

end WrittenTag

theorem isAsciiBlank_of_isNameChar {c : Char} (allowed : isNameChar c = true) :
    isAsciiBlank c = false := by
  simp only [isNameChar, Bool.not_eq_true', Bool.or_eq_false_iff] at allowed
  exact allowed.1

theorem isAsciiBlank_of_isUnquotedChar {c : Char} (allowed : isUnquotedChar c = true) :
    isAsciiBlank c = false := by
  simp only [isUnquotedChar, Bool.not_eq_true', Bool.or_eq_false_iff] at allowed
  exact allowed.1

theorem isSpace_eq_false {c : Char} (solid : isAsciiBlank c = false) : isSpace c = false := by
  simp only [isAsciiBlank, isSpace, Bool.or_eq_false_iff, decide_eq_false_iff_not] at solid ⊢
  tauto

theorem isTagChar_of_isAsciiLetter {c : Char} (isLetter : Text.isAsciiLetter c = true) :
    isTagChar c = true := by
  simp [isTagChar, Text.isAsciiAlphanumeric, isLetter]

theorem endsTagName_of_isTagChar {c : Char} (isTag : isTagChar c = true) :
    endsTagName c = false := by
  simp only [endsTagName, isSpace, Bool.or_eq_false_iff, decide_eq_false_iff_not]
  refine ⟨⟨⟨⟨⟨?_, ?_⟩, ?_⟩, ?_⟩, ?_⟩, ?_⟩ <;> exact ne_of_holds isTag (by decide)

namespace WrittenAttribute

variable (a : WrittenAttribute)

theorem isName : IsName a.name where
  nonempty := a.named
  inside c member := by
    have allowed := a.allowed c member
    simp only [endsAttributeName, endsTagName, Bool.or_eq_false_iff, decide_eq_false_iff_not]
    exact ⟨⟨⟨isSpace_eq_false (isAsciiBlank_of_isNameChar allowed),
      ne_of_holds allowed (by decide)⟩, ne_of_holds allowed (by decide)⟩,
      ne_of_holds allowed (by decide)⟩

theorem not_mem_name_return : '\r' ∉ a.name := fun member =>
  ne_of_holds (a.allowed _ member) (by decide) rfl

end WrittenAttribute

theorem lastUnquoted_cons_cons (a b : WrittenAttribute) (rest : List WrittenAttribute) :
    lastUnquoted (a :: b :: rest) = lastUnquoted (b :: rest) := by
  rw [lastUnquoted, List.getLast?_cons_cons, lastUnquoted]

theorem lastUnquoted_cons_of_quoted {a : WrittenAttribute} (quoted : a.assignment.isUnquoted = false)
    (rest : List WrittenAttribute) : lastUnquoted (a :: rest) = lastUnquoted rest := by
  cases rest with
  | nil => simpa [lastUnquoted] using quoted
  | cons b rest => exact lastUnquoted_cons_cons a b rest

theorem tagEnd_cons (a : WrittenAttribute) (attributes : List WrittenAttribute)
    (ending : List Char) : tagEnd (a :: attributes) ending = a.chars ++ tagEnd attributes ending := by
  simp [tagEnd, attributeText]

theorem normalizeNewlines_chars_append (a : WrittenAttribute) (rest : List Char) :
    normalizeNewlines (a.chars ++ rest) =
      normalizeNewlines a.gap ++ (a.name ++ normalizeNewlines (a.assignment.chars ++ rest)) := by
  have stops : Stops (· = '\n') (a.name ++ (a.assignment.chars ++ rest)) := by
    obtain ⟨c, more, same⟩ := List.exists_cons_of_ne_nil a.named
    have unbroken : c ≠ '\n' := ne_of_holds (a.allowed c (by simp [same])) (by decide)
    simpa [Stops, same] using unbroken
  rw [WrittenAttribute.chars, List.append_assoc, List.append_assoc, normalizeNewlines_append _ stops,
    normalizeNewlines_append_of_not_mem a.not_mem_name_return]

theorem normalizeNewlines_assigned_append {before after value : List Char} {c : Char}
    (starts : value.head? = some c) (unbroken : c ≠ '\n') (rest : List Char) :
    normalizeNewlines (before ++ '=' :: (after ++ value) ++ rest) =
      normalizeNewlines before ++ '=' ::
        (normalizeNewlines after ++ normalizeNewlines (value ++ rest)) := by
  obtain ⟨more, rfl⟩ := List.head?_eq_some_iff.1 starts
  rw [List.append_assoc, List.cons_append, normalizeNewlines_append_cons _ (by decide),
    normalizeNewlines_cons (by decide), List.append_assoc, List.cons_append,
    normalizeNewlines_append_cons _ unbroken]

theorem normalizeNewlines_tagEnd_nil (ending : List Char) :
    normalizeNewlines (tagEnd [] ending) = normalizeNewlines ending ++ ['/', '>'] :=
  normalizeNewlines_append_cons ending (by decide)

theorem endsAttribute_tagEnd (attributes : List WrittenAttribute) {ending : List Char}
    (blank : ∀ c ∈ ending, isAsciiBlank c = true) :
    EndsAttribute (normalizeNewlines (tagEnd attributes ending)) := by
  cases attributes with
  | nil =>
    exact ⟨_, '/', ['>'], normalizeNewlines_tagEnd_nil ending,
      isSpace_of_mem_normalizeNewlines blank, by decide, by decide, fun _ => rfl⟩
  | cons a attributes =>
    obtain ⟨c, more, same⟩ := List.exists_cons_of_ne_nil a.named
    have allowed := a.allowed c (by simp [same])
    have parts := normalizeNewlines_chars_append a (tagEnd attributes ending)
    rw [← tagEnd_cons, same, List.cons_append] at parts
    exact ⟨_, c, _, parts, isSpace_of_mem_normalizeNewlines a.blank,
      isSpace_eq_false (isAsciiBlank_of_isNameChar allowed), ne_of_holds allowed (by decide),
      fun gone => absurd gone (normalizeNewlines_ne_nil a.apart)⟩

theorem stops_tagEnd {attributes : List WrittenAttribute} {ending : List Char}
    (blank : ∀ c ∈ ending, isAsciiBlank c = true) (apart : attributes ≠ [] ∨ ending ≠ []) :
    Stops (!endsUnquoted ·) (normalizeNewlines (tagEnd attributes ending)) := by
  have starts {gap rest : List Char} (nonempty : gap ≠ [])
      (isBlank : ∀ c ∈ gap, isAsciiBlank c = true) :
      Stops (!endsUnquoted ·) (normalizeNewlines gap ++ rest) := by
    obtain ⟨c, more, same⟩ := List.exists_cons_of_ne_nil (normalizeNewlines_ne_nil nonempty)
    have space := isSpace_of_mem_normalizeNewlines isBlank c (by simp [same])
    simp [Stops, same, endsUnquoted, space]
  cases attributes with
  | nil =>
    rw [normalizeNewlines_tagEnd_nil]
    exact starts (by simpa using apart) blank
  | cons a attributes =>
    rw [tagEnd_cons, normalizeNewlines_chars_append]
    exact starts a.apart a.blank

theorem length_le_normalizeNewlines_tagEnd (attributes : List WrittenAttribute)
    (ending : List Char) :
    attributes.length ≤ (normalizeNewlines (tagEnd attributes ending)).length := by
  induction attributes with
  | nil => exact Nat.zero_le _
  | cons a attributes ih =>
    have apart := List.length_pos_iff.2 (normalizeNewlines_ne_nil a.apart)
    have kept := length_normalizeNewlines_le_append a.assignment.chars (tagEnd attributes ending)
    rw [tagEnd_cons, normalizeNewlines_chars_append]
    simp only [List.length_append, List.length_cons]
    omega

variable {rest : List Char}

theorem exists_tagRest?_chars_append {a : WrittenAttribute}
    (quoted : a.assignment.isUnquoted = false) (ends : EndsAttribute (normalizeNewlines rest))
    (bound : Nat) : ∃ value,
      tagRest? (bound + 1) (normalizeNewlines (a.chars ++ rest)) =
        (tagRest? bound (normalizeNewlines rest)).map (TagRest.add a.name value) := by
  rw [normalizeNewlines_chars_append,
    tagRest?_append_of_space (isSpace_of_mem_normalizeNewlines a.blank)]
  cases form : a.assignment with
  | absent => exact ⟨[], tagRest?_alone a.isName ends⟩
  | unquoted => simp [form, Assignment.isUnquoted] at quoted
  | quoted before after q text blankBefore blankAfter isQuote unclosed =>
    have apart : q ≠ '\n' ∧ q ≠ '\r' := by obtain rfl | rfl := isQuote <;> decide
    have kept : q ∉ normalizeNewlines text := fun member =>
      (mem_normalizeNewlines member).elim apart.1 fun found => unclosed found.1
    refine ⟨normalizeNewlines text, ?_⟩
    rw [Assignment.chars, normalizeNewlines_assigned_append rfl apart.1, List.cons_append,
      normalizeNewlines_cons apart.2, List.append_assoc, List.singleton_append,
      normalizeNewlines_append_cons _ apart.1, normalizeNewlines_cons apart.2]
    exact tagRest?_quoted a.isName (isSpace_of_mem_normalizeNewlines blankBefore)
      (isSpace_of_mem_normalizeNewlines blankAfter) isQuote kept

theorem exists_tagRest?_chars_append_of_isUnquoted {a : WrittenAttribute}
    (unquoted : a.assignment.isUnquoted = true) {front back : List Char}
    (parts : normalizeNewlines rest = front ++ back)
    (inside : ∀ c ∈ front, (!endsUnquoted c) = true) (stops : Stops (!endsUnquoted ·) back)
    (bound : Nat) : ∃ value,
      tagRest? (bound + 1) (normalizeNewlines (a.chars ++ rest)) =
        (tagRest? bound back).map (TagRest.add a.name value) := by
  rw [normalizeNewlines_chars_append,
    tagRest?_append_of_space (isSpace_of_mem_normalizeNewlines a.blank)]
  cases form : a.assignment with
  | absent => simp [form, Assignment.isUnquoted] at unquoted
  | quoted => simp [form, Assignment.isUnquoted] at unquoted
  | unquoted before after text blankBefore blankAfter nonempty allowed =>
    have outside : ∀ c ∈ text, ¬ (c = '"' ∨ c = '\'') ∧ (!endsUnquoted c) = true := by
      intro c member
      have here := allowed c member
      have solid := isSpace_eq_false (isAsciiBlank_of_isUnquotedChar here)
      rw [endsUnquoted, solid, Bool.false_or, Bool.not_eq_true', decide_eq_false_iff_not, not_or]
      exact ⟨⟨ne_of_holds here (by decide), ne_of_holds here (by decide)⟩,
        ne_of_holds here (by decide)⟩
    have unreturned : '\r' ∉ text := fun member => ne_of_holds (allowed _ member) (by decide) rfl
    obtain ⟨c, more, rfl⟩ := List.exists_cons_of_ne_nil nonempty
    refine ⟨c :: more ++ front, ?_⟩
    rw [Assignment.chars, normalizeNewlines_assigned_append rfl
        (ne_of_holds (allowed c (by simp)) (by decide)),
      normalizeNewlines_append_of_not_mem unreturned, parts, ← List.append_assoc (c :: more)]
    refine tagRest?_unquoted a.isName (isSpace_of_mem_normalizeNewlines blankBefore)
      (isSpace_of_mem_normalizeNewlines blankAfter) (List.cons_ne_nil c (more ++ front)) ?_ ?_ stops
    · simpa using (outside c (by simp)).1
    · intro d member
      exact (List.mem_append.1 member).elim (fun here => (outside d here).2) (inside d)

theorem exists_tagRest?_tagEnd (attributes : List WrittenAttribute) {ending : List Char}
    (blank : ∀ c ∈ ending, isAsciiBlank c = true) (bound : Nat)
    (enough : attributes.length < bound) :
    ∃ found, tagRest? bound (normalizeNewlines (tagEnd attributes ending)) =
      some ⟨found, !(lastUnquoted attributes && ending.isEmpty), []⟩ := by
  induction attributes generalizing bound with
  | nil =>
    obtain ⟨bound, rfl⟩ := Nat.exists_eq_add_one.2 enough
    rw [normalizeNewlines_tagEnd_nil,
      tagRest?_append_of_space (isSpace_of_mem_normalizeNewlines blank)]
    exact ⟨[], rfl⟩
  | cons a attributes ih =>
    obtain ⟨bound, rfl⟩ := Nat.exists_eq_add_one.2 (Nat.zero_lt_of_lt enough)
    rw [List.length_cons] at enough
    obtain ⟨found, read⟩ := ih bound (by omega)
    rw [tagEnd_cons]
    cases kind : a.assignment.isUnquoted with
    | false =>
      obtain ⟨value, step⟩ := exists_tagRest?_chars_append kind
        (endsAttribute_tagEnd attributes blank) bound
      rw [step, read, lastUnquoted_cons_of_quoted kind]
      exact ⟨_, rfl⟩
    | true =>
      by_cases apart : attributes ≠ [] ∨ ending ≠ []
      · obtain ⟨value, step⟩ := exists_tagRest?_chars_append_of_isUnquoted kind
          (List.nil_append _).symm (by simp) (stops_tagEnd blank apart) bound
        have same : (lastUnquoted (a :: attributes) && ending.isEmpty) =
            (lastUnquoted attributes && ending.isEmpty) := by
          cases attributes with
          | nil =>
            have spaced : ending ≠ [] := by simpa using apart
            rw [List.isEmpty_eq_false_iff.2 spaced, Bool.and_false, Bool.and_false]
          | cons b rest => rw [lastUnquoted_cons_cons]
        rw [step, read, same]
        exact ⟨_, rfl⟩
      · simp only [ne_eq, not_or, Classical.not_not] at apart
        obtain ⟨rfl, rfl⟩ := apart
        obtain ⟨bound, rfl⟩ := Nat.exists_eq_add_one.2 (Nat.lt_of_succ_lt_succ enough)
        -- The slash goes to the value, and the bracket alone ends the tag.
        have parts : normalizeNewlines (tagEnd [] []) = ['/'] ++ ['>'] := rfl
        obtain ⟨value, step⟩ := exists_tagRest?_chars_append_of_isUnquoted kind parts
          (List.all_eq_true.1 rfl) (by simp [Stops, endsUnquoted]) (bound + 1)
        have last : lastUnquoted [a] = true := kind
        rw [step, last]
        exact ⟨_, rfl⟩

namespace WrittenTag

variable (t : WrittenTag)

theorem isTagChar_of_mem_name {c : Char} (member : c ∈ t.name) : isTagChar c = true := by
  rcases List.mem_cons.1 member with rfl | member
  · exact isTagChar_of_isAsciiLetter t.isLetter
  · exact t.named c member

theorem exists_scan_text (opener : String) (inForeign : Bool) : ∃ found,
    scan .data opener inForeign '<' (normalizeNewlines t.text).tail =
      ⟨[.startTag ⟨nameOf t.name, found, t.isFlagged⟩], .data, []⟩ := by
  have inside : ∀ c ∈ t.name, (!endsTagName c) = true := fun c member => by
    rw [endsTagName_of_isTagChar (t.isTagChar_of_mem_name member), Bool.not_false]
  have unreturned : '\r' ∉ t.name := fun member =>
    ne_of_holds (t.isTagChar_of_mem_name member) (by decide) rfl
  have stops := (endsAttribute_tagEnd t.attributes t.blank).stopsTagName
  obtain ⟨found, read⟩ := exists_tagRest?_tagEnd t.attributes t.blank
    ((normalizeNewlines (tagEnd t.attributes t.ending)).length + 1)
    (Nat.lt_succ_of_le (length_le_normalizeNewlines_tagEnd t.attributes t.ending))
  refine ⟨dropRepeated [] found, ?_⟩
  rw [text, normalizeNewlines_cons (by decide), List.tail_cons,
    normalizeNewlines_append_of_not_mem unreturned, name, List.cons_append,
    scan_opening t.isLetter, ← List.cons_append, ← name, scanTag]
  simp [takeWhile_append_of_stops inside stops, dropWhile_append_of_stops inside stops, read,
    isFlagged]

end WrittenTag

end ComponentCompiler.Markup
