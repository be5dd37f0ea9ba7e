import ComponentCompiler.Proofs.Markup.SelfClosing

/-!
# Texts that are kept

Tags are written out wherever a text holds them, and it does not matter what the text around them
is: in a comment, in a script or in the value of an attribute they are found as well.

* `expandSelfClosing_eq_self_iff`: a text is kept when it holds no tag that is written out.
* `holdsSplit_comment`, `holdsSplit_element`, `WrittenTag.holdsSplit_openingText`: comments, elements
  and opening tags hold no such tag but those in the text within them.
* `expandSelfClosing_verbatim`: so this text is kept exactly when there is none in it.
-/

namespace ComponentCompiler.Markup

open Text (Stops isAsciiBlank isBlank ne_of_holds takeWhile_append_of_stops trimEnd)

/-! ## Tags that are written out -/

def IsSplit (name body : List Char) : Prop :=
  isVoid (String.ofList name) = false ∧ slashCloses (attributesOf body) = true

instance (name body : List Char) : Decidable (IsSplit name body) :=
  inferInstanceAs (Decidable (_ ∧ _))

/-- A tag somewhere in the text is written out. -/
def HoldsSplit (cs : List Char) : Prop :=
  ∃ text name body rest, text <:+ cs ∧ TagAt name body rest text ∧ IsSplit name body

theorem suffix_append_cases {text xs ys : List Char} (suffix : text <:+ xs ++ ys) :
    text <:+ ys ∨ ∃ front, front ≠ [] ∧ front <:+ xs ∧ text = front ++ ys := by
  rcases List.suffix_or_suffix_of_suffix suffix (List.suffix_append xs ys) with within | ⟨front, rfl⟩
  · exact .inl within
  · cases front with
    | nil => exact .inl List.suffix_rfl
    | cons c front =>
      exact .inr ⟨c :: front, List.cons_ne_nil _ _, List.suffix_append_self_iff.1 suffix, rfl⟩

theorem eq_of_suffix_opening {cs text : List Char} (unopened : '<' ∉ cs)
    (suffix : text <:+ '<' :: cs) (opens : text.head? = some '<') : text = '<' :: cs := by
  refine (List.suffix_cons_iff.1 suffix).resolve_right fun later => ?_
  exact unopened (later.subset (List.mem_of_mem_head? opens))

section TagAt

variable {name body rest text name' body' rest' text' : List Char}

theorem TagAt.head? (tagAt : TagAt name body rest text) : text.head? = some '<' := by
  rw [tagAt.parts, List.head?_cons]

theorem TagAt.head?_of_append {front more : List Char}
    (tagAt : TagAt name body rest (front ++ more)) (nonempty : front ≠ []) :
    front.head? = some '<' := by
  rw [← tagAt.head?, List.head?_append_of_ne_nil _ nonempty]

theorem TagAt.isSplit_iff (tagAt : TagAt name body rest text)
    (tagAt' : TagAt name' body' rest' text) : IsSplit name body ↔ IsSplit name' body' := by
  have same := (slashTag?_of_tagAt tagAt).symm.trans (slashTag?_of_tagAt tagAt')
  simp only [slashTagOf, Option.some.injEq, SlashTag.mk.injEq] at same
  rw [IsSplit, IsSplit, same.1, same.2.1]

def tagChars (name body : List Char) : List Char :=
  '<' :: (name ++ (body ++ ['/', '>']))

theorem TagAt.eq_append (tagAt : TagAt name body rest text) : text = tagChars name body ++ rest := by
  simp [tagAt.parts, tagChars]

theorem TagAt.eq_or_suffix (tagAt : TagAt name body rest text)
    (tagAt' : TagAt name' body' rest' text') (suffix : text' <:+ text) :
    text' = text ∨ text' <:+ rest := by
  rw [tagAt.eq_append] at suffix ⊢
  rcases suffix_append_cases suffix with within | ⟨front, some, inside, rfl⟩
  · exact .inr within
  · have unopened : '<' ∉ name ++ (body ++ ['/', '>']) := fun member => by
      have inside : '<' ∈ name ++ (body ++ ['/']) := by simpa using member
      exact absurd (tagAt.unbracketed '<' inside) (by decide)
    left
    rw [eq_of_suffix_opening unopened inside (tagAt'.head?_of_append some), tagChars]

end TagAt

/-! ## Texts that are kept -/

theorem slashTagOf_expand (name body text : List Char) :
    (slashTagOf name body).expand text =
      if IsSplit name body then
        '<' :: (name ++ trimEnd (attributesOf body) ++ ['>', '<', '/'] ++ name ++ ['>'])
      else text := by
  cases void : isVoid (String.ofList name) <;> cases closes : slashCloses (attributesOf body) <;>
    simp [SlashTag.expand, slashTagOf, IsSplit, void, closes]

theorem written_ne_tagChars (name body rest rest' : List Char) :
    '<' :: (name ++ trimEnd (attributesOf body) ++ ['>', '<', '/'] ++ name ++ ['>']) ++ rest ≠
      tagChars name body ++ rest' := by
  obtain ⟨blanks, parts, blank⟩ : ∃ blanks, body = trimEnd (attributesOf body) ++ blanks ∧
      ∀ c ∈ blanks, isBlank c = true := by
    obtain ⟨more, split, blank⟩ := exists_attributesOf_append body
    obtain ⟨dropped, split', blank'⟩ := Text.exists_dropEndWhile isBlank (attributesOf body)
    refine ⟨dropped ++ more, ?_, ?_⟩
    · rw [trimEnd, ← List.append_assoc, ← split', ← split]
    · simp only [List.mem_append]
      rintro c (member | member)
      · exact blank' c member
      · exact blank c member
  intro same
  rw [tagChars, List.cons_append, List.cons_append, List.cons.injEq] at same
  have tails := same.2
  conv_rhs at tails => rw [parts]
  simp only [List.append_assoc, List.append_cancel_left_eq, List.cons_append, List.nil_append]
    at tails
  -- The bracket of the tag that is written out stands where the text has a blank or the slash.
  cases blanks with
  | nil => cases tails
  | cons c blanks =>
    rw [List.cons_append, List.cons.injEq] at tails
    exact ne_of_holds (blank c List.mem_cons_self) (by decide) tails.1.symm

theorem expandSelfClosing_tagAt {name body rest text : List Char}
    (tagAt : TagAt name body rest text) :
    expandSelfClosing text =
      (slashTagOf name body).expand (tagChars name body) ++ expandSelfClosing rest := by
  have length : (slashTagOf name body).length = (tagChars name body).length := by
    simp [slashTagOf, tagChars]
    omega
  have found : ((slashTag? (tagChars name body ++ rest)).map fun t =>
      (t.length, t.expand ((tagChars name body ++ rest).take t.length))) =
      some ((tagChars name body).length, (slashTagOf name body).expand (tagChars name body)) := by
    rw [← tagAt.eq_append, slashTag?_of_tagAt tagAt, Option.map_some, length, tagAt.eq_append,
      List.take_left]
  rw [expandSelfClosing, tagAt.eq_append]
  exact Text.substitute_found (List.cons_ne_nil _ _) found

theorem expandSelfClosing_cons_of_none {c : Char} {cs : List Char}
    (none : slashTag? (c :: cs) = none) :
    expandSelfClosing (c :: cs) = c :: expandSelfClosing cs := by
  rw [expandSelfClosing, Text.substitute_cons, none]
  rfl

theorem holdsSplit_cons_of_none {c : Char} {cs : List Char} (none : slashTag? (c :: cs) = none) :
    HoldsSplit (c :: cs) ↔ HoldsSplit cs := by
  constructor
  · rintro ⟨text, name, body, rest, suffix, tagAt, split⟩
    rcases List.suffix_cons_iff.1 suffix with rfl | later
    · rw [slashTag?_of_tagAt tagAt] at none
      cases none
    · exact ⟨text, name, body, rest, later, tagAt, split⟩
  · rintro ⟨text, name, body, rest, suffix, found⟩
    exact ⟨text, name, body, rest, suffix.trans (List.suffix_cons c cs), found⟩

theorem holdsSplit_tagAt {name body rest text : List Char} (tagAt : TagAt name body rest text) :
    HoldsSplit text ↔ IsSplit name body ∨ HoldsSplit rest := by
  constructor
  · rintro ⟨text', name', body', rest', suffix, tagAt', split⟩
    rcases tagAt.eq_or_suffix tagAt' suffix with rfl | later
    · exact .inl ((tagAt.isSplit_iff tagAt').2 split)
    · exact .inr ⟨text', name', body', rest', later, tagAt', split⟩
  · rintro (split | ⟨text', name', body', rest', suffix, found⟩)
    · exact ⟨text, name, body, rest, List.suffix_rfl, tagAt, split⟩
    · have behind : rest <:+ text := tagAt.eq_append ▸ List.suffix_append _ _
      exact ⟨text', name', body', rest', suffix.trans behind, found⟩

theorem expandSelfClosing_eq_self_iff (cs : List Char) :
    expandSelfClosing cs = cs ↔ ¬HoldsSplit cs := by
  -- A tag is passed over as a whole, so the induction is on the length of what is left.
  induction length : cs.length using Nat.strongRecOn generalizing cs with
  | _ n ih =>
  cases cs with
  | nil =>
    have empty : ¬HoldsSplit [] := by
      rintro ⟨text, name, body, rest, suffix, tagAt, -⟩
      have starts := tagAt.head?
      rw [List.suffix_nil.1 suffix] at starts
      cases starts
    exact ⟨fun _ => empty, fun _ => rfl⟩
  | cons c cs =>
    cases found : slashTag? (c :: cs) with
    | none =>
      rw [expandSelfClosing_cons_of_none found, holdsSplit_cons_of_none found,
        ← ih cs.length (by rw [← length, List.length_cons]; omega) cs rfl, List.cons.injEq]
      exact and_iff_right rfl
    | some tag =>
      obtain ⟨name, body, rest, tagAt, -⟩ := exists_tagAt found
      have shorter : rest.length < n := by
        rw [← length, tagAt.eq_append, List.length_append, tagChars, List.length_cons]
        omega
      rw [expandSelfClosing_tagAt tagAt, holdsSplit_tagAt tagAt, slashTagOf_expand]
      by_cases split : IsSplit name body
      · simp only [split, true_or, not_true, iff_false]
        rw [if_true, tagAt.eq_append]
        exact written_ne_tagChars _ _ _ _
      · rw [if_neg split, tagAt.eq_append, List.append_cancel_left_eq,
          ih _ shorter rest rfl]
        simp only [split, false_or]

/-! ## Text in a larger text -/

theorem HoldsSplit.of_infix {xs ys : List Char} (holds : HoldsSplit xs) (inside : xs <:+: ys) :
    HoldsSplit ys := by
  obtain ⟨text, name, body, rest, suffix, tagAt, split⟩ := holds
  obtain ⟨front, back, rfl⟩ := inside
  refine ⟨text ++ back, name, body, rest ++ back, ?_, tagAt.append back, split⟩
  rw [List.append_assoc]
  exact (List.suffix_append_self_iff.2 suffix).trans (List.suffix_append front _)

theorem TagAt.exists_or_eq {name body rest xs back : List Char}
    (tagAt : TagAt name body rest (xs ++ (back ++ ['>']))) (nonempty : xs ≠ [])
    (plain : ∀ c ∈ back, isTagBracket c = false) :
    (∃ inner, TagAt name body inner xs) ∨ name ++ (body ++ ['/']) = xs.tail ++ back := by
  refine (tagAt.append_cases nonempty).imp_right ?_
  rintro ⟨more, front, behind⟩
  -- Neither text holds a bracket, so both are what stands before the first one.
  have span (cs : List Char) (inside : ∀ c ∈ cs, isTagBracket c = false) (rest : List Char) :
      (cs ++ '>' :: rest).takeWhile (!isTagBracket ·) = cs :=
    takeWhile_append_of_stops (fun c member => by rw [inside c member, Bool.not_false])
      (by simp [Stops, isTagBracket])
  have inside : ∀ c ∈ more, isTagBracket c = false := fun c member =>
    tagAt.unbracketed c (front ▸ List.mem_append_right _ member)
  rw [front, ← span more inside rest, ← behind, span back plain]

theorem holdsSplit_between (front text back : List Char) (unopened : '<' ∉ front)
    (plain : ∀ c ∈ back, isTagBracket c = false)
    (starts : ∀ name body rest, TagAt name body rest ('<' :: front ++ text) → ¬IsSplit name body)
    (ends : ∀ name body xs, (∀ c ∈ name, isTagChar c = true) →
      name ++ (body ++ ['/']) = xs ++ back → ¬IsSplit name body) :
    HoldsSplit ('<' :: front ++ (text ++ (back ++ ['>']))) ↔ HoldsSplit text := by
  refine ⟨?_, fun holds => holds.of_infix ⟨'<' :: front, back ++ ['>'], by simp⟩⟩
  rintro ⟨found, name, body, rest, suffix, tagAt, split⟩
  rw [← List.append_assoc] at suffix
  rcases suffix_append_cases suffix with within | ⟨most, some, inside, rfl⟩
  · have member := within.subset (List.mem_of_mem_head? tagAt.head?)
    rw [List.mem_append, or_iff_left (by decide)] at member
    exact absurd (plain '<' member) (by decide)
  · rcases tagAt.exists_or_eq some plain with ⟨inner, within⟩ | reaches
    · rcases suffix_append_cases inside with valued | ⟨start, some', atStart, rfl⟩
      · exact ⟨most, name, body, inner, valued, within, split⟩
      · rw [eq_of_suffix_opening unopened atStart (within.head?_of_append some')] at within
        exact absurd split (starts name body inner within)
    · exact absurd split (ends name body most.tail tagAt.named reaches)

/-! ## Comments and elements -/

theorem not_tagAt_of_not_letter {name body rest text : List Char} {c : Char}
    (other : Text.isAsciiLetter c = false) : ¬TagAt name body rest ('<' :: c :: text) := by
  intro tagAt
  obtain ⟨d, starts, isLetter⟩ := tagAt.starts
  obtain ⟨more, rfl⟩ := List.head?_eq_some_iff.1 starts
  have same := tagAt.parts
  rw [List.cons_append, List.cons.injEq, List.cons.injEq] at same
  rw [same.2.1, isLetter] at other
  cases other

def commentText (text : List Char) : List Char :=
  "<!--".toList ++ (text ++ "-->".toList)

theorem holdsSplit_comment (text : List Char) :
    HoldsSplit (commentText text) ↔ HoldsSplit text := by
  refine holdsSplit_between "!--".toList text "--".toList (by decide) (by simp [isTagBracket])
    (fun _ _ _ tagAt => ?_) fun name body xs _ reaches => ?_
  · exact absurd tagAt (not_tagAt_of_not_letter (by decide))
  · have last := congrArg List.getLast? reaches
    rw [← List.append_assoc, List.getLast?_concat] at last
    simp at last

def elementText (tag text : List Char) : List Char :=
  '<' :: (tag ++ ['>']) ++ (text ++ '<' :: '/' :: (tag ++ ['>']))

theorem holdsSplit_element {tag : List Char} (named : ∀ c ∈ tag, isTagChar c = true)
    (text : List Char) : HoldsSplit (elementText tag text) ↔ HoldsSplit text := by
  have outside {c : Char} (other : isTagChar c = false) : c ∉ tag := fun member =>
    ne_of_holds (named c member) other rfl
  have bracket : '<' ∉ tag := outside (by decide)
  refine ⟨?_, fun holds => holds.of_infix ⟨_, _, List.append_assoc _ _ _⟩⟩
  rintro ⟨found, name, body, rest, suffix, tagAt, split⟩
  rcases suffix_append_cases suffix with later | ⟨front, some, inside, rfl⟩
  · rcases suffix_append_cases later with within | ⟨front, some, inside, rfl⟩
    · rw [eq_of_suffix_opening (by simpa using bracket) within tagAt.head?] at tagAt
      exact absurd tagAt (not_tagAt_of_not_letter (by decide))
    · obtain ⟨inner, within⟩ := tagAt.exists_of_append some (.inr rfl)
      exact ⟨front, name, body, inner, inside, within, split⟩
  · have opens := tagAt.head?_of_append some
    rw [eq_of_suffix_opening (by simpa using bracket) inside opens] at tagAt
    have ends : ('<' :: (tag ++ ['>'])).getLast? = Option.some '>' := by
      rw [← List.cons_append, List.getLast?_concat]
    obtain ⟨inner, within⟩ := tagAt.exists_of_append (List.cons_ne_nil _ _) (.inl ends)
    have member : '/' ∈ '<' :: (tag ++ ['>']) := by simp [within.parts]
    simp [outside (c := '/') (by decide)] at member

/-! ## Opening tags -/

namespace AttributeState

theorem isOutside_next {s : AttributeState} {c : Char} (passed : isBlank c = true ∨ c = '/')
    (outside : s.isOutside = true) : (s.next c).isOutside = true := by
  have other : c ≠ '=' := by
    rcases passed with blank | rfl
    · exact ne_of_holds blank (by decide)
    · decide
  cases s with
  | beforeName | name | afterName => cases blank : isBlank c <;> simp [isOutside, next, other, blank]
  | beforeValue | quoted | unquoted => cases outside

theorem isOutside_foldl_next {cs : List Char} (passed : ∀ c ∈ cs, isBlank c = true ∨ c = '/')
    {s : AttributeState} (outside : s.isOutside = true) : (cs.foldl next s).isOutside = true := by
  induction cs generalizing s with
  | nil => exact outside
  | cons c cs ih =>
    simp only [List.mem_cons, forall_eq_or_imp] at passed
    exact ih passed.2 (isOutside_next passed.1 outside)

end AttributeState

theorem isOutside_of_slashCloses {body : List Char}
    (closes : slashCloses (attributesOf body) = true) :
    ((body ++ ['/']).foldl AttributeState.next .beforeName).isOutside = true := by
  obtain ⟨blanks, parts, blank⟩ := exists_attributesOf_append body
  rw [parts, List.append_assoc, List.foldl_append]
  refine AttributeState.isOutside_foldl_next (fun c member => ?_) closes
  simpa using (List.mem_append.1 member).imp (blank c) List.mem_singleton.1

namespace AttributeState

def IsMarked (s : AttributeState) : Prop :=
  ∀ q, s = .quoted q → q = '"' ∨ q = '\''

theorem isMarked_next {s : AttributeState} (marked : s.IsMarked) (c : Char) :
    (s.next c).IsMarked := by
  unfold IsMarked at *
  fun_cases next s c with grind [next]

theorem isMarked_foldl_next (cs : List Char) {s : AttributeState} (marked : s.IsMarked) :
    (cs.foldl next s).IsMarked := by
  induction cs generalizing s with
  | nil => exact marked
  | cons c cs ih => exact ih (isMarked_next marked c)

theorem next_solid {c : Char} (solid : isBlank c = false) (unsigned : c ≠ '=')
    (s : AttributeState) : (∃ q, s.next c = .quoted q) ∨ (s.next c).IsBetween := by
  cases s <;> simp only [next, solid, if_neg unsigned, IsBetween] <;> grind

end AttributeState

theorem WrittenAttribute.not_mem_chars {a : WrittenAttribute} {q : Char}
    (unquoted : a.assignment.isUnquoted = true) (isQuote : q = '"' ∨ q = '\'') : q ∉ a.chars := by
  have solid : isAsciiBlank q = false := by rcases isQuote with rfl | rfl <;> decide
  have outside {cs : List Char} (blank : ∀ c ∈ cs, isAsciiBlank c = true) : q ∉ cs :=
    fun member => ne_of_holds (blank q member) solid rfl
  have named : q ∉ a.name := fun member => by
    have allowed := a.allowed q member
    rcases isQuote with rfl | rfl <;> cases allowed
  cases form : a.assignment with
  | absent | quoted => simp [form, Assignment.isUnquoted] at unquoted
  | unquoted before after text blankBefore blankAfter nonempty allowed =>
    have valued : q ∉ text := fun member => by
      have allowed := allowed q member
      rcases isQuote with rfl | rfl <;> cases allowed
    have unsigned : q ≠ '=' := by rcases isQuote with rfl | rfl <;> decide
    simp [chars, form, Assignment.chars, outside a.blank, named, outside blankBefore,
      outside blankAfter, valued, unsigned]

theorem isOutside_foldl_next_of_isUnquoted {a : WrittenAttribute} {c : Char}
    (unquoted : a.assignment.isUnquoted = true) (solid : ∀ c ∈ a.bare, isBlank c = false)
    (entered : isBlank c = false) (unsigned : c ≠ '=') (before : List Char) :
    ((before ++ c :: a.chars).foldl AttributeState.next .beforeName).isOutside = false := by
  have marked := AttributeState.isMarked_foldl_next (before ++ [c]) (s := .beforeName) nofun
  rw [List.foldl_append, List.foldl_cons]
  rw [List.foldl_append, List.foldl_cons, List.foldl_nil] at marked
  rcases AttributeState.next_solid entered unsigned
    (before.foldl AttributeState.next .beforeName) with ⟨q, state⟩ | between
  · have absent := WrittenAttribute.not_mem_chars unquoted (marked q state)
    rw [state, AttributeState.foldl_next_of_not_mem absent]
    rfl
  · rw [foldl_next_chars solid between]
    cases form : a.assignment with
    | absent | quoted => simp [form, Assignment.isUnquoted] at unquoted
    | unquoted => rfl

theorem exists_isUnquoted_of_getLast? {attributes : List WrittenAttribute} {ending : List Char}
    (solid : ∀ a ∈ attributes, ∀ c ∈ a.bare, isBlank c = false)
    (blank : ∀ c ∈ ending, isAsciiBlank c = true)
    (last : ('"' :: (attributeText attributes ++ ending)).getLast? = some '/') :
    ∃ before c a, '"' :: (attributeText attributes ++ ending) = before ++ c :: a.chars ∧
      isBlank c = false ∧ c ≠ '=' ∧ a ∈ attributes ∧ a.assignment.isUnquoted = true := by
  have flat (before) (a : WrittenAttribute) :
      attributeText (before ++ [a]) = attributeText before ++ a.chars := by simp [attributeText]
  rcases List.eq_nil_or_concat' ending with rfl | ⟨ending, e, rfl⟩
  · rw [List.append_nil] at last ⊢
    rcases List.eq_nil_or_concat' attributes with rfl | ⟨attributes, a, rfl⟩
    · simp [attributeText] at last
    · simp only [List.mem_append, List.mem_singleton, or_imp, forall_and, forall_eq] at solid
      have slash : a.assignment.isUnquoted = true := by
        obtain ⟨front, c, parts, -, -, slash⟩ := a.exists_chars_eq_concat solid.2
        rw [flat, parts, ← List.append_assoc, ← List.cons_append, List.getLast?_concat] at last
        exact slash (Option.some.inj last)
      rcases List.eq_nil_or_concat' attributes with rfl | ⟨attributes, b, rfl⟩
      · exact ⟨[], '"', a, by simp [attributeText], by decide, by decide, by simp, slash⟩
      · obtain ⟨front, c, parts, entered, unsigned, -⟩ :=
          b.exists_chars_eq_concat (solid.1 b (by simp))
        exact ⟨'"' :: (attributeText attributes ++ front), c, a, by rw [flat, flat, parts]; simp,
          entered, unsigned, by simp, slash⟩
  · rw [← List.append_assoc, ← List.cons_append, List.getLast?_concat] at last
    exact absurd (Option.some.inj last) (ne_of_holds (blank e (by simp)) (by decide))

/-- A tag that starts before a quotation mark and takes in all attributes after it is kept: its
slash belongs to the last value. -/
theorem slashCloses_of_reaches {name body xs ending : List Char}
    {attributes : List WrittenAttribute} (named : ∀ c ∈ name, isTagChar c = true)
    (solid : ∀ a ∈ attributes, ∀ c ∈ a.bare, isBlank c = false)
    (blank : ∀ c ∈ ending, isAsciiBlank c = true)
    (reaches : name ++ (body ++ ['/']) = xs ++ '"' :: (attributeText attributes ++ ending)) :
    slashCloses (attributesOf body) = false := by
  have last : ('"' :: (attributeText attributes ++ ending)).getLast? = some '/' := by
    rw [← List.getLast?_append_of_ne_nil xs (List.cons_ne_nil _ _), ← reaches,
      ← List.append_assoc, List.getLast?_concat]
  obtain ⟨before, c, a, parts, entered, unsigned, member, unquoted⟩ :=
    exists_isUnquoted_of_getLast? solid blank last
  -- No name holds a quotation mark.
  obtain ⟨front, whole⟩ : ∃ front, body ++ ['/'] = front ++ (before ++ c :: a.chars) := by
    rw [← parts]
    rcases List.append_eq_append_iff.1 reaches with ⟨more, -, behind⟩ | ⟨more, front, behind⟩
    · exact ⟨more, behind⟩
    · cases more with
      | nil => exact ⟨[], behind.symm⟩
      | cons d more =>
        have quote : d = '"' := (List.cons.inj behind).1.symm
        exact absurd (named '"' (by simp [front, quote])) (by decide)
  have inside := isOutside_foldl_next_of_isUnquoted unquoted (solid a member) entered unsigned
    (front ++ before)
  rw [List.append_assoc, ← whole] at inside
  refine Bool.eq_false_iff.2 fun closes => ?_
  rw [isOutside_of_slashCloses closes] at inside
  cases inside

theorem foldl_next_attributeText_isBetween {attributes : List WrittenAttribute}
    (solid : ∀ a ∈ attributes, ∀ c ∈ a.bare, isBlank c = false) {s : AttributeState}
    (between : s.IsBetween) : ((attributeText attributes).foldl AttributeState.next s).IsBetween := by
  rw [foldl_next_attributeText solid between]
  cases attributes.getLast? with
  | none => exact between
  | some a => exact a.assignment.final_isBetween

def Assignment.doubleQuoted? : Assignment → Option (List Char)
  | .quoted _ _ '"' text .. => some text
  | _ => none

theorem Assignment.exists_chars_of_doubleQuoted? {a : Assignment} {text : List Char}
    (quoted : a.doubleQuoted? = some text) : ∃ before after,
      a.chars = before ++ '=' :: (after ++ '"' :: (text ++ ['"'])) ∧
      (∀ c ∈ before, isAsciiBlank c = true) ∧ (∀ c ∈ after, isAsciiBlank c = true) ∧
      '"' ∉ text := by
  revert quoted
  fun_cases doubleQuoted? a with
  | case1 before after text blankBefore blankAfter isQuote unclosed =>
    rintro ⟨⟩
    exact ⟨before, after, rfl, blankBefore, blankAfter, unclosed⟩
  | case2 => nofun

namespace WrittenTag

variable {tag : WrittenTag}

def openingText (tag : WrittenTag) : List Char :=
  '<' :: (tag.name ++ (attributeText tag.attributes ++ (tag.ending ++ ['>'])))

section QuotedValue

variable {before after : List WrittenAttribute} {a : WrittenAttribute} {text : List Char}

theorem foldl_next_opened {left right : List Char}
    (solid : ∀ b ∈ before, ∀ c ∈ b.bare, isBlank c = false)
    (solid' : ∀ c ∈ a.bare, isBlank c = false)
    (blankLeft : ∀ c ∈ left, isAsciiBlank c = true)
    (blankRight : ∀ c ∈ right, isAsciiBlank c = true) :
    (attributeText before ++ (a.gap ++ a.name ++ (left ++ '=' :: (right ++ ['"'])))).foldl
      AttributeState.next .beforeName = .quoted '"' := by
  rw [List.foldl_append, List.foldl_append,
    foldl_next_gap_name solid' (foldl_next_attributeText_isBetween solid (.inl rfl)),
    AttributeState.foldl_next_sign (forall_isBlank blankLeft) (forall_isBlank blankRight)]
  rfl

theorem slashCloses_of_opened {front name body rest : List Char}
    (tagAt : TagAt name body rest ('<' :: (tag.name ++ (front ++ text))))
    (stops : Stops isTagChar (front ++ text)) (plain : ∀ c ∈ front, isTagBracket c = false)
    (opened : front.foldl AttributeState.next .beforeName = .quoted '"') (unclosed : '"' ∉ text) :
    slashCloses (attributesOf body) = false := by
  obtain ⟨rfl, behind⟩ := tagAt.eq_of_stops (fun c => tag.isTagChar_of_mem_name) stops
  have inside : body ++ ['/'] = front ++ text.takeWhile (!isTagBracket ·) := by
    rw [← tagAt.takeWhile, ← behind, List.takeWhile_append_of_pos]
    exact fun c member => by rw [plain c member, Bool.not_false]
  have unclosed' : '"' ∉ text.takeWhile (!isTagBracket ·) := fun member =>
    unclosed ((List.takeWhile_sublist _).subset member)
  refine Bool.eq_false_iff.2 fun closes => ?_
  have outside := isOutside_of_slashCloses closes
  rw [inside, List.foldl_append, opened, AttributeState.foldl_next_of_not_mem unclosed'] at outside
  cases outside

theorem holdsSplit_openingText (parts : tag.attributes = before ++ a :: after)
    (quoted : a.assignment.doubleQuoted? = some text)
    (plain : ∀ c ∈ attributeText before ++ (a.name ++ attributeText after), isTagBracket c = false)
    (solid : ∀ b ∈ tag.attributes, ∀ c ∈ b.bare, isBlank c = false) :
    HoldsSplit tag.openingText ↔ HoldsSplit text := by
  obtain ⟨left, right, chars, blankLeft, blankRight, unclosed⟩ :=
    Assignment.exists_chars_of_doubleQuoted? quoted
  simp only [parts, List.mem_append, List.mem_cons, or_imp, forall_and, forall_eq] at solid plain
  have unbracketed {cs : List Char} (blank : ∀ c ∈ cs, isAsciiBlank c = true) :
      ∀ c ∈ cs, isTagBracket c = false := isTagBracket_of_not_mem
    (fun member => ne_of_holds (blank _ member) (by decide) rfl)
    (fun member => ne_of_holds (blank _ member) (by decide) rfl)
  -- The text up to the value, with the mark that opens it.
  obtain ⟨front, frontIs⟩ : ∃ front, front =
      attributeText before ++ (a.gap ++ a.name ++ (left ++ '=' :: (right ++ ['"']))) := ⟨_, rfl⟩
  have plainFront : ∀ c ∈ front, isTagBracket c = false := by
    simp only [frontIs, List.mem_append, List.mem_cons, List.not_mem_nil, or_imp, forall_and,
      forall_eq]
    exact ⟨plain.1, ⟨unbracketed a.blank, plain.2.1⟩, unbracketed blankLeft, rfl,
      unbracketed blankRight, rfl, fun _ => False.elim⟩
  have whole : tag.openingText =
      '<' :: (tag.name ++ front) ++
        (text ++ ('"' :: (attributeText after ++ tag.ending) ++ ['>'])) := by
    simp [openingText, parts, attributeText, WrittenAttribute.chars, chars, frontIs]
  rw [whole]
  refine holdsSplit_between _ _ _ ?_ ?_ ?_ ?_
  · intro member
    rcases List.mem_append.1 member with member | member
    · exact ne_of_holds (tag.isTagChar_of_mem_name member) (by decide) rfl
    · exact absurd (plainFront '<' member) (by decide)
  · simp only [List.mem_append, List.mem_cons, or_imp, forall_and, forall_eq]
    exact ⟨rfl, plain.2.2, unbracketed tag.blank⟩
  · rintro name body rest tagAt ⟨-, closes⟩
    have stops : Stops isTagChar (front ++ text) := fun c first => by
      refine isTagChar_eq_false_of_isBlank (tag.isBlank_of_mem_head? c ?_)
      rw [List.head?_append_of_ne_nil _ (by simp [frontIs])] at first
      simpa [parts, attributeText, WrittenAttribute.chars, chars, frontIs] using first
    have opened := foldl_next_opened solid.1 solid.2.1 blankLeft blankRight
    rw [← frontIs] at opened
    rw [List.cons_append, List.append_assoc] at tagAt
    rw [slashCloses_of_opened tagAt stops plainFront opened unclosed] at closes
    cases closes
  · rintro name body xs named reaches ⟨-, closes⟩
    rw [slashCloses_of_reaches named solid.2.2 tag.blank reaches] at closes
    cases closes

end QuotedValue

end WrittenTag

/-! ## Text that is not read as markup -/

/-- A text in a comment, in an element, or in a tag without other brackets, as the value of an
attribute. -/
inductive Quotes (text : List Char) : List Char → Prop
  | comment : Quotes text (commentText text)
  | element {tag : List Char} (named : ∀ c ∈ tag, isTagChar c = true) :
    Quotes text (elementText tag text)
  | value {tag : WrittenTag} {before after : List WrittenAttribute} {a : WrittenAttribute}
    (parts : tag.attributes = before ++ a :: after)
    (quoted : a.assignment.doubleQuoted? = some text)
    (plain : ∀ c ∈ attributeText before ++ (a.name ++ attributeText after), isTagBracket c = false)
    (solid : ∀ b ∈ tag.attributes, ∀ c ∈ b.bare, isBlank c = false) :
    Quotes text tag.openingText

theorem Quotes.holdsSplit_iff {text quoting : List Char} (quotes : Quotes text quoting) :
    HoldsSplit quoting ↔ HoldsSplit text := by
  cases quotes with
  | comment => exact holdsSplit_comment text
  | element named => exact holdsSplit_element named text
  | value parts quoted plain solid =>
    exact WrittenTag.holdsSplit_openingText parts quoted plain solid

/-- Between texts without tags a markup text is judged on its own.  It is kept exactly when it holds
no tag that is written out, and a text that it quotes decides that alone. -/
theorem expandSelfClosing_verbatim (before quoting after : List Char) (opens : '<' ∉ before)
    (starts : quoting.head? = some '<') (ends : quoting.getLast? = some '>')
    (opens' : '<' ∉ after) :
    expandSelfClosing (before ++ (quoting ++ after)) =
      before ++ (expandSelfClosing quoting ++ after) ∧
    (expandSelfClosing quoting = quoting ↔ ¬HoldsSplit quoting) ∧
    ∀ text, Quotes text quoting → (expandSelfClosing quoting = quoting ↔ ¬HoldsSplit text) := by
  have meets : (quoting ++ after).head? = some '<' := by
    rw [List.head?_append, starts, Option.some_or]
  refine ⟨?_, expandSelfClosing_eq_self_iff quoting, fun text quotes => ?_⟩
  · rw [expandSelfClosing_append (.inr meets), expandSelfClosing_append (.inl ends),
      expandSelfClosing_of_not_mem opens, expandSelfClosing_of_not_mem opens']
  · rw [expandSelfClosing_eq_self_iff, quotes.holdsSplit_iff]

theorem expandSelfClosing_script :
    let script := "if (a<b/2 && c>d) s = '<br/>';".toList
    let quoting := elementText "script".toList script
    Quotes script quoting ∧ ¬HoldsSplit script ∧
      expandSelfClosing ("a > ".toList ++ (quoting ++ " b/>".toList)) =
        "a > ".toList ++ (quoting ++ " b/>".toList) := by
  intro script quoting
  have quotes : Quotes script quoting := .element (List.all_eq_true.1 rfl)
  have free : ¬HoldsSplit script := (expandSelfClosing_eq_self_iff script).1 (by decide)
  obtain ⟨around, -, kept⟩ := expandSelfClosing_verbatim "a > ".toList quoting " b/>".toList
    (by decide) (by decide) (by decide) (by decide)
  exact ⟨quotes, free, by rw [around, (kept script quotes).2 free]⟩

theorem expandSelfClosing_quoted :
    expandSelfClosing (commentText "<a/>".toList) = "<!--<a></a>-->".toList ∧
    expandSelfClosing (elementText "script".toList "\"<a/>\"".toList) =
      "<script>\"<a></a>\"</script>".toList ∧
    expandSelfClosing (elementText "style".toList "/*<a/>*/".toList) =
      "<style>/*<a></a>*/</style>".toList ∧
    titled.openingText = "<p title=\"<a/>\">".toList ∧
    expandSelfClosing titled.openingText = "<p title=\"<a></a>\">".toList := by
  decide

end ComponentCompiler.Markup
