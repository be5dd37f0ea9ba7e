import ComponentCompiler.Proofs.Markup.AttributeStates
import ComponentCompiler.Proofs.Markup.SlashTag
import ComponentCompiler.Proofs.Text.Words

/-!
# Self-closing tags

Which written tags are split into an opening and a closing tag, and how that compares with what
markup means by the slash.

* `foldl_next_attributeText`: after the attributes a reader is where the last one leaves it.
* `foldl_next_takeWhile`: a bracket in the attributes cuts them short inside of quotes.
* `WrittenTag.expandSelfClosing_text`: the outcome for a tag, and when it is what markup means.
* `WrittenTag.expandSelfClosing_around`: the text around a tag does not matter.
-/

namespace ComponentCompiler.Markup

open Text (isAsciiBlank isBlank ne_of_holds takeWhile_append_of_stops Stops trimEnd)

theorem isBlank_of_isAsciiBlank {c : Char} (blank : isAsciiBlank c = true) : isBlank c = true := by
  simp only [isAsciiBlank, Bool.or_eq_true, decide_eq_true_eq] at blank
  rcases blank with (((rfl | rfl) | rfl) | rfl) | rfl <;> decide

theorem forall_isBlank {cs : List Char} (blank : ∀ c ∈ cs, isAsciiBlank c = true) :
    ∀ c ∈ cs, isBlank c = true :=
  fun c member => isBlank_of_isAsciiBlank (blank c member)

def Assignment.final : Assignment → AttributeState
  | .absent => .name
  | .unquoted .. => .unquoted
  | .quoted .. => .beforeName

theorem Assignment.final_isBetween (a : Assignment) : a.final.IsBetween := by
  cases a <;> simp [final, AttributeState.IsBetween]

def WrittenAttribute.bare (a : WrittenAttribute) : List Char :=
  a.name ++ match a.assignment with
    | .unquoted _ _ text .. => text
    | _ => []

section Attributes

open AttributeState

variable {a : WrittenAttribute} {s : AttributeState}

def WrittenAttribute.spacedName (a : WrittenAttribute) (solid : ∀ c ∈ a.bare, isBlank c = false) :
    SpacedName where
  gap := a.gap
  name := a.name
  apart := a.apart
  blank := forall_isBlank a.blank
  named := a.named
  solid c member := solid c (List.mem_append_left _ member)
  allowed c member := by
    have allowed := a.allowed c member
    simp only [List.mem_cons, List.not_mem_nil, or_false, not_or]
    exact ⟨ne_of_holds allowed (by decide), ne_of_holds allowed (by decide),
      ne_of_holds allowed (by decide), ne_of_holds allowed (by decide)⟩

theorem exists_spaced (solid : ∀ c ∈ a.bare, isBlank c = false) : ∃ b : SpacedAttribute,
    b.chars = a.chars ∧ b.value.final = a.assignment.final := by
  cases form : a.assignment with
  | absent =>
    exact ⟨⟨a.spacedName solid, .absent⟩, by rw [WrittenAttribute.chars, form]; rfl, rfl⟩
  | unquoted before after text blankBefore blankAfter nonempty allowed =>
    have starts : ∀ c ∈ text.head?, c ≠ '"' ∧ c ≠ '\'' := fun c first =>
      have here := allowed c (List.mem_of_mem_head? first)
      ⟨ne_of_holds here (by decide), ne_of_holds here (by decide)⟩
    have solidText : ∀ c ∈ text, isBlank c = false := fun c member =>
      solid c (by simp [WrittenAttribute.bare, form, member])
    exact ⟨⟨a.spacedName solid, .unquoted before after text (forall_isBlank blankBefore)
      (forall_isBlank blankAfter) nonempty starts solidText⟩, by rw [WrittenAttribute.chars, form]; rfl, rfl⟩
  | quoted before after q text blankBefore blankAfter isQuote unclosed =>
    exact ⟨⟨a.spacedName solid, .quoted before after q text (forall_isBlank blankBefore)
      (forall_isBlank blankAfter) isQuote unclosed⟩, by rw [WrittenAttribute.chars, form]; rfl, rfl⟩

theorem foldl_next_gap_name (solid : ∀ c ∈ a.bare, isBlank c = false) (between : s.IsBetween) :
    (a.gap ++ a.name).foldl next s = .name := by
  have named := (a.spacedName solid).foldl_next between []
  rwa [List.append_nil] at named

theorem foldl_next_chars (solid : ∀ c ∈ a.bare, isBlank c = false) (between : s.IsBetween) :
    a.chars.foldl next s = a.assignment.final := by
  obtain ⟨b, chars, final⟩ := exists_spaced solid
  rw [← chars, ← final, b.foldl_next between]

theorem foldl_next_attributeText {attributes : List WrittenAttribute}
    (solid : ∀ a ∈ attributes, ∀ c ∈ a.bare, isBlank c = false) (between : s.IsBetween) :
    (attributeText attributes).foldl next s =
      (attributes.getLast?.map (·.assignment.final)).getD s :=
  foldl_next_flatMap between fun a member =>
    ⟨a.assignment.final_isBetween, fun _ between => foldl_next_chars (solid a member) between⟩

theorem slashCloses_attributeText {attributes : List WrittenAttribute}
    (solid : ∀ a ∈ attributes, ∀ c ∈ a.bare, isBlank c = false) :
    slashCloses (attributeText attributes) = !lastUnquoted attributes := by
  rw [slashCloses, foldl_next_attributeText solid (.inl rfl), lastUnquoted]
  cases attributes.getLast? with
  | none => rfl
  | some a =>
    simp only [Option.map_some, Option.getD_some, Option.any_some]
    cases a.assignment <;> rfl

theorem exists_front_of_mem_chars (solid : ∀ c ∈ a.bare, isBlank c = false)
    (between : s.IsBetween) (closed : '>' ∈ a.chars) : ∃ front more q,
      a.chars = front ++ '>' :: more ∧ '>' ∉ front ∧ (q = '"' ∨ q = '\'') ∧
        front.foldl next s = .quoted q := by
  have outside {cs : List Char} (blank : ∀ c ∈ cs, isAsciiBlank c = true) : '>' ∉ cs :=
    fun member => ne_of_holds (blank _ member) (by decide) rfl
  have named : '>' ∉ a.name := fun member => ne_of_holds (a.allowed _ member) (by decide) rfl
  cases form : a.assignment with
  | absent =>
    simp [WrittenAttribute.chars, form, Assignment.chars, outside a.blank, named] at closed
  | unquoted before after text blankBefore blankAfter nonempty allowed =>
    have unclosed : '>' ∉ text := fun member => ne_of_holds (allowed _ member) (by decide) rfl
    simp [WrittenAttribute.chars, form, Assignment.chars, outside a.blank, outside blankBefore,
      outside blankAfter, named, unclosed] at closed
  | quoted before after q text blankBefore blankAfter isQuote unclosed =>
    have other : '>' ≠ q := by rcases isQuote with rfl | rfl <;> decide
    have member : '>' ∈ text := by
      simpa [WrittenAttribute.chars, form, Assignment.chars, outside a.blank, outside blankBefore,
        outside blankAfter, named, other] using closed
    obtain ⟨inside, more, rfl, first⟩ := List.eq_append_cons_of_mem member
    refine ⟨a.gap ++ a.name ++ (before ++ '=' :: (after ++ q :: inside)), more ++ [q], q, ?_, ?_,
      isQuote, ?_⟩
    · simp [WrittenAttribute.chars, form, Assignment.chars]
    · simp [outside a.blank, outside blankBefore, outside blankAfter, named, other, first]
    · rw [List.foldl_append, foldl_next_gap_name solid between,
        foldl_next_sign (forall_isBlank blankBefore) (forall_isBlank blankAfter)]
      exact foldl_next_quoted isQuote fun member => unclosed (List.mem_append_left _ member)

theorem foldl_next_takeWhile {attributes : List WrittenAttribute}
    (solid : ∀ a ∈ attributes, ∀ c ∈ a.bare, isBlank c = false) (between : s.IsBetween)
    (unopened : '<' ∉ attributeText attributes) (closed : '>' ∈ attributeText attributes)
    (rest : List Char) : ∃ q, (q = '"' ∨ q = '\'') ∧
      ((attributeText attributes ++ rest).takeWhile (!isTagBracket ·)).foldl next s = .quoted q := by
  induction attributes generalizing s with
  | nil => simp [attributeText] at closed
  | cons a attributes ih =>
    simp only [List.mem_cons, forall_eq_or_imp] at solid
    simp only [attributeText, List.flatMap_cons, List.mem_append, not_or] at unopened closed ⊢
    have unbracketed {cs : List Char} (opens : '<' ∉ cs) (closes : '>' ∉ cs) :
        ∀ c ∈ cs, (!isTagBracket c) = true := fun c member => by
      rw [isTagBracket_of_not_mem opens closes c member, Bool.not_false]
    -- The first bracket stands in this attribute, or the text up to it goes on to the next one.
    by_cases here : '>' ∈ a.chars
    · obtain ⟨front, more, q, parts, first, isQuote, state⟩ :=
        exists_front_of_mem_chars solid.1 between here
      refine ⟨q, isQuote, ?_⟩
      rw [parts, List.mem_append, not_or] at unopened
      rw [parts, List.append_assoc, List.append_assoc, List.cons_append,
        takeWhile_append_of_stops (unbracketed unopened.1.1 first) (by simp [Stops, isTagBracket])]
      exact state
    · obtain ⟨q, isQuote, state⟩ := ih solid.2 a.assignment.final_isBetween unopened.2
        (closed.resolve_left here)
      refine ⟨q, isQuote, ?_⟩
      rw [List.append_assoc, List.takeWhile_append_of_pos (unbracketed unopened.1 here),
        List.foldl_append, foldl_next_chars solid.1 between]
      exact state

end Attributes

theorem AttributeState.eq_quoted_of_next {s : AttributeState} {c q : Char}
    (plain : c ≠ '"' ∧ c ≠ '\'') (state : s.next c = .quoted q) : s = .quoted q := by
  fun_cases next s c with grind [next]

theorem foldl_next_eq_quoted {s : AttributeState} {q : Char} {cs : List Char}
    (plain : ∀ c ∈ cs, c ≠ '"' ∧ c ≠ '\'') (xs : List Char)
    (state : (xs ++ cs).foldl AttributeState.next s = .quoted q) :
    xs.foldl AttributeState.next s = .quoted q := by
  induction cs generalizing xs with
  | nil => rwa [List.append_nil] at state
  | cons c cs ih =>
    simp only [List.mem_cons, forall_eq_or_imp] at plain
    rw [List.append_cons] at state
    have last := ih plain.2 (xs ++ [c]) state
    rw [List.foldl_append] at last
    exact AttributeState.eq_quoted_of_next plain.1 last

theorem exists_attributesOf_append (body : List Char) :
    ∃ blanks, body = attributesOf body ++ blanks ∧ ∀ c ∈ blanks, isBlank c = true := by
  cases body with
  | nil => exact ⟨[], rfl, by simp⟩
  | cons c cs =>
    obtain ⟨blanks, parts, blank⟩ := Text.exists_dropEndWhile isBlank cs
    exact ⟨blanks, by rw [attributesOf, List.cons_append, trimEnd, ← parts], blank⟩

theorem WrittenAttribute.exists_chars_eq_concat (a : WrittenAttribute)
    (solid : ∀ c ∈ a.bare, isBlank c = false) : ∃ front c, a.chars = front ++ [c] ∧
      isBlank c = false ∧ c ≠ '=' ∧ (c = '/' → a.assignment.isUnquoted = true) := by
  cases form : a.assignment with
  | absent =>
    obtain ⟨front, c, parts⟩ := (List.eq_nil_or_concat' a.name).resolve_left a.named
    have allowed := a.allowed c (by simp [parts])
    refine ⟨a.gap ++ front, c, by simp [chars, form, Assignment.chars, parts],
      solid c (by simp [bare, parts]), ne_of_holds allowed (by decide), fun slash => ?_⟩
    exact absurd slash (ne_of_holds allowed (by decide))
  | unquoted before after text blankBefore blankAfter nonempty allowed =>
    obtain ⟨front, c, rfl⟩ := (List.eq_nil_or_concat' text).resolve_left nonempty
    exact ⟨a.gap ++ (a.name ++ before ++ '=' :: (after ++ front)), c,
      by simp [chars, form, Assignment.chars], solid c (by simp [bare, form]),
      ne_of_holds (allowed c (by simp)) (by decide), fun _ => rfl⟩
  | quoted before after q text blankBefore blankAfter isQuote unclosed =>
    refine ⟨a.gap ++ (a.name ++ before ++ '=' :: (after ++ q :: text)), q,
      by simp [chars, form, Assignment.chars], ?_⟩
    rcases isQuote with rfl | rfl <;> simp <;> decide

theorem getLast?_attributeText {attributes : List WrittenAttribute}
    (solid : ∀ a ∈ attributes, ∀ c ∈ a.bare, isBlank c = false) :
    ∀ c ∈ (attributeText attributes).getLast?, isBlank c = false := by
  rcases List.eq_nil_or_concat' attributes with rfl | ⟨before, a, rfl⟩
  · simp [attributeText]
  · obtain ⟨front, c, parts, last, -⟩ := a.exists_chars_eq_concat (solid a (by simp))
    rw [attributeText, List.flatMap_append, List.flatMap_singleton, parts, ← List.append_assoc,
      List.getLast?_concat]
    rintro d ⟨⟩
    exact last

theorem exists_attributesOf_attributeText {attributes : List WrittenAttribute} {ending : List Char}
    (solid : ∀ a ∈ attributes, ∀ c ∈ a.bare, isBlank c = false)
    (blank : ∀ c ∈ ending, isBlank c = true) : ∃ blanks,
      attributesOf (attributeText attributes ++ ending) = attributeText attributes ++ blanks ∧
        (∀ c ∈ blanks, isBlank c = true) ∧ (attributes ≠ [] → blanks = []) := by
  cases attributes with
  | nil =>
    cases ending with
    | nil => exact ⟨[], rfl, by simp, by simp⟩
    | cons c ending =>
      simp only [List.mem_cons, forall_eq_or_imp] at blank
      -- White space that stands for no attributes counts as one blank of it.
      have trimmed : trimEnd ([] ++ ending) = [] := Text.trimEnd_append (by simp) blank.2
      exact ⟨[c], by simpa [attributeText, attributesOf] using trimmed, by simpa using blank.1,
        by simp⟩
  | cons a attributes =>
    have last := getLast?_attributeText solid
    obtain ⟨c, cs, same⟩ : ∃ c cs, attributeText (a :: attributes) = c :: cs := by
      refine List.exists_cons_of_ne_nil ?_
      simp [attributeText, WrittenAttribute.chars, a.apart]
    rw [same] at last ⊢
    have trimmed : trimEnd (cs ++ ending) = cs := by
      refine Text.trimEnd_append (fun d member => last d ?_) blank
      rw [Option.mem_def] at member ⊢
      rw [List.getLast?_cons, member, Option.getD_some]
    exact ⟨[], by simp [attributesOf, trimmed], by simp, fun _ => rfl⟩

namespace WrittenTag

variable {t : WrittenTag}

/-- No bracket in the attributes looks like the start of another tag, and all white space outside
of quotes is white space of markup. -/
structure IsPlain (t : WrittenTag) : Prop where
  unopened : '<' ∉ attributeText t.attributes
  solid : ∀ a ∈ t.attributes, ∀ c ∈ a.bare, isBlank c = false

def holdsBracket (t : WrittenTag) : Bool :=
  (attributeText t.attributes).contains '>'

theorem isBlank_of_mem_head? (t : WrittenTag) :
    ∀ c ∈ (attributeText t.attributes ++ t.ending).head?, isBlank c = true := by
  cases form : t.attributes with
  | nil =>
    intro c member
    exact isBlank_of_isAsciiBlank (t.blank c (List.mem_of_mem_head? member))
  | cons a attributes =>
    obtain ⟨c, more, same⟩ := List.exists_cons_of_ne_nil a.apart
    have blank := isBlank_of_isAsciiBlank (a.blank c (by simp [same]))
    simpa [attributeText, WrittenAttribute.chars, same] using blank

theorem not_mem_text_tail (plain : t.IsPlain) : '<' ∉ t.name ++ tagEnd t.attributes t.ending := by
  have named : '<' ∉ t.name := fun member =>
    ne_of_holds (t.isTagChar_of_mem_name member) (by decide) rfl
  have ending : '<' ∉ t.ending := fun member => ne_of_holds (t.blank _ member) (by decide) rfl
  simp [tagEnd, named, ending, plain.unopened]

theorem slashCloses_of_holdsBracket (plain : t.IsPlain) (holds : t.holdsBracket = true)
    {name body rest : List Char} (tagAt : TagAt name body rest t.text) :
    slashCloses (attributesOf body) = false := by
  have stops : Stops isTagChar (tagEnd t.attributes t.ending) := by
    rw [tagEnd, ← List.append_assoc]
    exact stops_isTagChar t.isBlank_of_mem_head? ['>']
  obtain ⟨-, sameEnd⟩ := tagAt.eq_of_stops (fun c => t.isTagChar_of_mem_name) stops
  obtain ⟨q, isQuote, state⟩ := foldl_next_takeWhile plain.solid (.inl rfl) plain.unopened
    (by simpa [holdsBracket] using holds) (t.ending ++ ['/', '>'])
  rw [← tagEnd, sameEnd, tagAt.takeWhile] at state
  obtain ⟨blanks, split, blank⟩ := exists_attributesOf_append body
  rw [split, List.append_assoc] at state
  -- Neither the blanks nor the slash that come off the end of the text are quotes.
  have quoted : (attributesOf body).foldl AttributeState.next .beforeName = .quoted q := by
    refine foldl_next_eq_quoted (fun c member => ?_) _ state
    rcases List.mem_append.1 member with member | member
    · exact ⟨ne_of_holds (blank c member) (by decide), ne_of_holds (blank c member) (by decide)⟩
    · cases List.mem_singleton.1 member
      decide
  rw [slashCloses, quoted]
  rfl

theorem expandSelfClosing_text_of_holdsBracket (plain : t.IsPlain) (holds : t.holdsBracket = true) :
    expandSelfClosing t.text = t.text := by
  rw [text, expandSelfClosing_cons (not_mem_text_tail plain), ← text]
  cases found : slashTag? t.text with
  | none => rfl
  | some tag =>
    obtain ⟨name, body, rest, tagAt, rfl⟩ := exists_tagAt found
    have kept : slashCloses (slashTagOf name body).attributes = false :=
      slashCloses_of_holdsBracket plain holds tagAt
    simp only [SlashTag.expand, kept, Bool.not_false, Bool.or_true, if_true,
      List.take_append_drop]

theorem tagAt_text (plain : t.IsPlain) (free : t.holdsBracket = false) :
    TagAt t.name (attributeText t.attributes ++ t.ending) [] t.text where
  parts := by simp [text, tagEnd]
  starts := ⟨t.initial, rfl, t.isLetter⟩
  named c := t.isTagChar_of_mem_name
  plain := by
    have closes : '>' ∉ attributeText t.attributes := by simpa [holdsBracket] using free
    have outside {c : Char} (solid : isAsciiBlank c = false) : c ∉ t.ending := fun member =>
      ne_of_holds (t.blank c member) solid rfl
    refine isTagBracket_of_not_mem ?_ ?_ <;> rw [List.mem_append, not_or]
    · exact ⟨plain.unopened, outside (by decide)⟩
    · exact ⟨closes, outside (by decide)⟩
  apart := t.isBlank_of_mem_head?

theorem expandSelfClosing_text_of_not_holdsBracket (plain : t.IsPlain)
    (free : t.holdsBracket = false) :
    expandSelfClosing t.text =
      if isVoid (String.ofList t.name) || lastUnquoted t.attributes then t.text else t.opened := by
  obtain ⟨blanks, split, blank, none⟩ := exists_attributesOf_attributeText plain.solid
    (forall_isBlank t.blank)
  have trimmed : trimEnd (attributeText t.attributes ++ blanks) = attributeText t.attributes :=
    Text.trimEnd_append (getLast?_attributeText plain.solid) blank
  have closes : slashCloses (attributeText t.attributes ++ blanks) = !lastUnquoted t.attributes := by
    by_cases alone : t.attributes = []
    · have fixed : ∀ c ∈ blanks, AttributeState.next .beforeName c = .beforeName :=
        fun c member => by simp [AttributeState.next, blank c member]
      rw [alone, attributeText, List.flatMap_nil, List.nil_append, slashCloses,
        AttributeState.foldl_next_of_fixed fixed]
      rfl
    · rw [none alone, List.append_nil, slashCloses_attributeText plain.solid]
  have whole :
      (slashTagOf t.name (attributeText t.attributes ++ t.ending)).length = t.text.length := by
    simp [slashTagOf, text, tagEnd]
    omega
  rw [text, expandSelfClosing_cons (not_mem_text_tail plain), ← text,
    slashTag?_of_tagAt (tagAt_text plain free)]
  simp only [whole, List.take_length, List.drop_length, List.append_nil]
  simp only [SlashTag.expand, slashTagOf, split, closes, Bool.not_not, trimmed, opened]

theorem text_ne_opened (t : WrittenTag) : t.text ≠ t.opened := by
  intro same
  have ends : t.ending ++ ['/', '>'] = '>' :: '<' :: '/' :: (t.name ++ ['>']) := by
    simpa [text, opened, tagEnd] using same
  cases form : t.ending with
  | nil => simp [form] at ends
  | cons c ending =>
    rw [form, List.cons_append, List.cons.injEq] at ends
    exact ne_of_holds (t.blank c (by simp [form])) (by decide) ends.1

theorem expandSelfClosing_eq_text_or_opened (plain : t.IsPlain) :
    expandSelfClosing t.text =
      if isVoid (String.ofList t.name) || lastUnquoted t.attributes || t.holdsBracket then t.text
      else t.opened := by
  cases holds : t.holdsBracket with
  | true => simp [expandSelfClosing_text_of_holdsBracket plain holds]
  | false => rw [expandSelfClosing_text_of_not_holdsBracket plain holds, Bool.or_false]

theorem expandSelfClosing_around (t : WrittenTag) (before after : List Char) :
    expandSelfClosing (before ++ (t.text ++ after)) =
      expandSelfClosing before ++ (expandSelfClosing t.text ++ expandSelfClosing after) := by
  have parts : t.text =
      '<' :: (t.name ++ (attributeText t.attributes ++ (t.ending ++ ['/']))) ++ ['>'] := by
    simp [text, tagEnd]
  have ends : t.text.getLast? = some '>' := by rw [parts, List.getLast?_concat]
  rw [expandSelfClosing_append (.inr rfl), expandSelfClosing_append (.inl ends)]

/-- Markup takes the slash of a tag for its end when it is flagged.  A plain tag is written out
unless it is void, its last value has no quotes or a value holds a bracket.  So it comes out as
markup means it exactly when it is void, when its slash belongs to a value, or when neither an
unquoted last value nor a bracket hides the slash. -/
theorem expandSelfClosing_text (t : WrittenTag) (plain : t.IsPlain) (opener : String)
    (inForeign : Bool) :
    (∃ found, Html.scan .data opener inForeign '<' (Html.normalizeNewlines t.text).tail =
      ⟨[.startTag ⟨Html.nameOf t.name, found, t.isFlagged⟩], .data, []⟩) ∧
    expandSelfClosing t.text =
      (if isVoid (String.ofList t.name) || lastUnquoted t.attributes || t.holdsBracket then t.text
        else t.opened) ∧
    (expandSelfClosing t.text = t.meant ↔
      isVoid (String.ofList t.name) = true ∨ t.isFlagged = false ∨
        (lastUnquoted t.attributes = false ∧ t.holdsBracket = false)) := by
  have written := expandSelfClosing_eq_text_or_opened plain
  refine ⟨t.exists_scan_text opener inForeign, written, ?_⟩
  have differ := t.text_ne_opened
  rw [written, meant]
  cases isVoid (String.ofList t.name) with
  | true => simp
  | false =>
    have flagged : lastUnquoted t.attributes = false → t.isFlagged = true := fun quoted => by
      rw [isFlagged, quoted, Bool.false_and, Bool.not_false]
    cases unquoted : lastUnquoted t.attributes <;> cases holds : t.holdsBracket <;>
      cases flag : t.isFlagged <;> simp_all [Ne.symm]

def userCard : WrittenTag where
  initial := 'u'
  more := "ser-card".toList
  attributes := [
    { gap := ['\r', '\n'], name := "href".toList,
      assignment := .unquoted [] [' '] "/docs/".toList },
    { gap := [' '], name := "open".toList, assignment := .absent },
    { gap := ['\t'], name := "title".toList,
      assignment := .quoted [' '] ['\n'] '"' "it's /".toList }]
  ending := [' ', '\x0c']

theorem expandSelfClosing_userCard : userCard.IsPlain ∧ userCard.isFlagged = true ∧
    expandSelfClosing "<user-card\r\nhref= /docs/ open\ttitle =\n\"it's /\" \x0c/>".toList =
      "<user-card\r\nhref= /docs/ open\ttitle =\n\"it's /\"></user-card>".toList ∧
    ∃ found, Html.scan .data "" false '<' (Html.normalizeNewlines userCard.text).tail =
      ⟨[.startTag ⟨"user-card", found, true⟩], .data, []⟩ := by
  have solid : userCard.attributes.all (fun a => a.bare.all (!isBlank ·)) = true := by decide
  have plain : userCard.IsPlain := ⟨by decide, by simpa using solid⟩
  obtain ⟨read, written, -⟩ := expandSelfClosing_text userCard plain "" false
  exact ⟨plain, by decide, written, read⟩

end WrittenTag

def misread : List WrittenTag := [
  { initial := 'c', more := "ard".toList, ending := [' ']
    attributes := [
      { gap := [' '], name := ['a']
        assignment := .unquoted [] [] ['x'] }] },
  { initial := 'c', more := "ard".toList, ending := []
    attributes := [
      { gap := [' '], name := ['a']
        assignment := .quoted [] [] '"' "x>y".toList }] },
  { initial := 'b', more := "r".toList, ending := []
    attributes := [
      { gap := [' '], name := ['a']
        assignment := .quoted [] [] '"' "<b/>".toList }] },
  { initial := 'c', more := "ard".toList, ending := []
    attributes := [
      { gap := [' '], name := ['a']
        assignment := .unquoted [] [] "x\u00a0y".toList }] }]

/-- Each condition is needed: these tags are not taken as markup means them. -/
theorem misread_ne_meant :
    (misread.map fun t => String.ofList t.text) =
      ["<card a=x />", "<card a=\"x>y\"/>", "<br a=\"<b/>\"/>", "<card a=x\u00a0y/>"] ∧
    ∀ t ∈ misread, expandSelfClosing t.text ≠ t.meant := by
  decide

def titled : WrittenTag where
  initial := 'p'
  more := []
  attributes := [{ gap := [' '], name := "title".toList,
                   assignment := .quoted [] [] '"' "<a/>".toList }]
  ending := []

end ComponentCompiler.Markup
