import ComponentCompiler.Proofs.Markup.WrittenTag

namespace ComponentCompiler.Markup

open Text (Keeps Stops dropWhile_append_of_stops isAsciiBlank isBlank ne_of_holds
  takeWhile_append_of_stops)

/-- A text that starts with a tag that ends in a slash: the name, the attributes with the white
space after them, and what follows the tag. -/
structure TagAt (name body rest text : List Char) : Prop where
  parts : text = '<' :: (name ++ (body ++ '/' :: '>' :: rest))
  starts : ∃ c ∈ name.head?, Text.isAsciiLetter c = true
  named : ∀ c ∈ name, isTagChar c = true
  plain : ∀ c ∈ body, isTagBracket c = false
  apart : ∀ c ∈ body.head?, isBlank c = true

def slashTagOf (name body : List Char) : SlashTag :=
  ⟨name, attributesOf body, name.length + body.length + 3⟩

theorem isTagChar_eq_false_of_isBlank {c : Char} (blank : isBlank c = true) :
    isTagChar c = false := by
  have code : c.toNat ≤ 0x20 ∨ 0x85 ≤ c.toNat := by
    simp only [isBlank, Bool.or_eq_true, Bool.and_eq_true, decide_eq_true_eq] at blank
    omega
  have dash : c ≠ '-' := ne_of_holds blank (by decide)
  have same : c.toNat = c.val.toNat := rfl
  simp [isTagChar, Text.isAsciiAlphanumeric, Text.isAsciiLetter, Text.isAsciiDigit, dash,
    Char.le_def, UInt32.le_iff_toNat_le]
  omega

theorem isTagBracket_of_isTagChar {c : Char} (isTag : isTagChar c = true) :
    isTagBracket c = false := by
  rw [isTagBracket, Bool.or_eq_false_iff, decide_eq_false_iff_not, decide_eq_false_iff_not]
  exact ⟨ne_of_holds isTag (by decide), ne_of_holds isTag (by decide)⟩

theorem isTagBracket_of_not_mem {cs : List Char} (opens : '<' ∉ cs) (closes : '>' ∉ cs) :
    ∀ c ∈ cs, isTagBracket c = false := by
  intro c member
  have left : c ≠ '<' := fun same => opens (same ▸ member)
  have right : c ≠ '>' := fun same => closes (same ▸ member)
  simp [isTagBracket, left, right]

theorem stops_isTagChar {body : List Char} (apart : ∀ c ∈ body.head?, isBlank c = true)
    (rest : List Char) : Stops isTagChar (body ++ '/' :: rest) := by
  cases body with
  | nil => simp [Stops, isTagChar, Text.isAsciiAlphanumeric, Text.isAsciiLetter, Text.isAsciiDigit]
  | cons b more =>
    intro d first
    cases first
    exact isTagChar_eq_false_of_isBlank (apart _ rfl)

theorem exists_tagAt {text : List Char} {tag : SlashTag} (found : slashTag? text = some tag) :
    ∃ name body rest, TagAt name body rest text ∧ tag = slashTagOf name body := by
  revert found
  fun_cases slashTag? text with
  | case1 c cs isLetter name after inside body startsWell closed =>
    simp only [Bool.and_eq_true, decide_eq_true_eq] at closed
    obtain ⟨⟨slash, bracket⟩, well⟩ := closed
    obtain ⟨rest, behind⟩ := List.head?_eq_some_iff.1 bracket
    have insideParts : inside = body ++ ['/'] := (List.dropLast_append_getLast? '/' slash).symm
    have afterParts : after = body ++ '/' :: '>' :: rest := by
      have span : inside <+: after := List.takeWhile_prefix _
      rw [List.append_cons, ← insideParts, ← behind]
      exact (List.prefix_iff_eq_append.1 span).symm
    rintro ⟨⟩
    refine ⟨name, body, rest, ⟨?_, ⟨c, rfl, isLetter⟩, ?_, ?_, ?_⟩, ?_⟩
    · rw [← afterParts, List.cons_append, List.takeWhile_append_dropWhile]
    · simpa [name, isTagChar_of_isAsciiLetter isLetter] using List.all_eq_true.1 List.all_takeWhile
    · intro d member
      have plain := List.mem_takeWhile_imp ((List.dropLast_sublist inside).subset member)
      simpa using plain
    · intro b first
      cases same : body with
      | nil => simp [same] at first
      | cons d more =>
        rw [same] at first
        cases first
        simpa only [startsWell, same] using well
    · rw [slashTagOf, insideParts, List.length_append]
      rfl
  | case2 => nofun
  | case3 => nofun
  | case4 => nofun

section TagAt

variable {name body rest text : List Char}

theorem TagAt.stops (tagAt : TagAt name body rest text) :
    Stops isTagChar (body ++ '/' :: '>' :: rest) :=
  stops_isTagChar tagAt.apart ('>' :: rest)

theorem TagAt.eq_of_stops {front more : List Char}
    (tagAt : TagAt name body rest ('<' :: (front ++ more)))
    (named : ∀ c ∈ front, isTagChar c = true) (stops : Stops isTagChar more) :
    front = name ∧ more = body ++ '/' :: '>' :: rest := by
  have parts := (List.cons.inj tagAt.parts).2
  have span := congrArg (List.takeWhile isTagChar) parts
  rw [takeWhile_append_of_stops named stops,
    takeWhile_append_of_stops tagAt.named tagAt.stops] at span
  rw [span] at parts
  exact ⟨span, List.append_cancel_left parts⟩

theorem TagAt.unbracketed (tagAt : TagAt name body rest text) :
    ∀ c ∈ name ++ (body ++ ['/']), isTagBracket c = false := by
  intro c member
  simp only [List.mem_append, List.mem_singleton] at member
  rcases member with member | member | rfl
  · exact isTagBracket_of_isTagChar (tagAt.named c member)
  · exact tagAt.plain c member
  · rfl

theorem TagAt.takeWhile (tagAt : TagAt name body rest text) :
    (body ++ '/' :: '>' :: rest).takeWhile (!isTagBracket ·) = body ++ ['/'] := by
  have inside : ∀ c ∈ body ++ ['/'], (!isTagBracket c) = true := fun c member => by
    rw [tagAt.unbracketed c (List.mem_append_right name member), Bool.not_false]
  rw [List.append_cons, takeWhile_append_of_stops inside]
  simp [Stops, isTagBracket]

theorem slashTag?_of_tagAt (tagAt : TagAt name body rest text) :
    slashTag? text = some (slashTagOf name body) := by
  have stops := tagAt.stops
  have span := tagAt.takeWhile
  obtain ⟨rfl, ⟨c, starts, isLetter⟩, named, -, apart⟩ := tagAt
  obtain ⟨more, rfl⟩ := List.head?_eq_some_iff.1 starts
  simp only [List.mem_cons, forall_eq_or_imp] at named
  have behind : (body ++ '/' :: '>' :: rest).drop (body ++ ['/']).length = '>' :: rest := by
    rw [List.append_cons body '/' ('>' :: rest), List.drop_left]
  rw [List.cons_append, slashTag?, if_pos isLetter]
  simp only [takeWhile_append_of_stops named.2 stops, dropWhile_append_of_stops named.2 stops,
    span, behind, List.dropLast_concat, List.getLast?_concat]
  cases body with
  | nil => simp [slashTagOf]
  | cons b more =>
    simp [slashTagOf, apart b rfl]
    omega

theorem TagAt.append (tagAt : TagAt name body rest text) (ys : List Char) :
    TagAt name body (rest ++ ys) (text ++ ys) :=
  ⟨by simp [tagAt.parts], tagAt.starts, tagAt.named, tagAt.plain, tagAt.apart⟩

theorem TagAt.append_cases {xs ys : List Char} (tagAt : TagAt name body rest (xs ++ ys))
    (nonempty : xs ≠ []) : (∃ inner, TagAt name body inner xs) ∨
      ∃ more, name ++ (body ++ ['/']) = xs.tail ++ more ∧ ys = more ++ '>' :: rest := by
  obtain ⟨x, xs, rfl⟩ := List.exists_cons_of_ne_nil nonempty
  have parts := tagAt.parts
  rw [List.cons_append, List.cons.injEq] at parts
  obtain ⟨rfl, parts⟩ := parts
  have joined : xs ++ ys = (name ++ (body ++ ['/'])) ++ '>' :: rest := by simp [parts]
  rcases List.append_eq_append_iff.1 joined with ⟨more, front, behind⟩ | ⟨more, front, behind⟩
  · exact .inr ⟨more, front, behind⟩
  · cases more with
    | nil => exact .inr ⟨[], by simp [front], behind.symm⟩
    | cons c more =>
      cases behind
      exact .inl ⟨more, by simp [front], tagAt.starts, tagAt.named, tagAt.plain, tagAt.apart⟩

theorem TagAt.exists_of_append {xs ys : List Char} (tagAt : TagAt name body rest (xs ++ ys))
    (nonempty : xs ≠ []) (meets : xs.getLast? = some '>' ∨ ys.head? = some '<') :
    ∃ inner, TagAt name body inner xs := by
  -- If the tag reached beyond `xs`, then `xs` would end or `ys` would start inside of it, and no
  -- bracket is there.
  refine (tagAt.append_cases nonempty).resolve_right ?_
  rintro ⟨more, front, rfl⟩
  have unbracketed := tagAt.unbracketed
  rw [front] at unbracketed
  obtain ⟨x, xs, rfl⟩ := List.exists_cons_of_ne_nil nonempty
  have opens : x = '<' := (List.cons.inj tagAt.parts).1
  rcases meets with ends | starts
  · have member : '>' ∈ xs := by simpa [opens] using List.mem_of_getLast? ends
    exact absurd (unbracketed '>' (List.mem_append_left more member)) (by decide)
  · cases more with
    | nil => simp at starts
    | cons c more =>
      cases starts
      exact absurd (unbracketed '<' (by simp)) (by decide)

end TagAt

theorem expandSelfClosing_append {xs ys : List Char}
    (meets : xs.getLast? = some '>' ∨ ys.head? = some '<') :
    expandSelfClosing (xs ++ ys) = expandSelfClosing xs ++ expandSelfClosing ys := by
  refine Text.substitute_append xs fun suffix isSuffix nonempty => ?_
  have meets' : suffix.getLast? = some '>' ∨ ys.head? = some '<' := by
    refine meets.imp_left fun ends => ?_
    obtain ⟨front, rfl⟩ := isSuffix
    rwa [List.getLast?_append_of_ne_nil _ nonempty] at ends
  cases found : slashTag? suffix with
  | none =>
    have none : slashTag? (suffix ++ ys) = none := by
      refine Option.eq_none_iff_forall_ne_some.2 fun tag found' => ?_
      obtain ⟨name, body, rest, tagAt, rfl⟩ := exists_tagAt found'
      obtain ⟨inner, within⟩ := tagAt.exists_of_append nonempty meets'
      rw [slashTag?_of_tagAt within] at found
      cases found
    simp [Keeps, found, none]
  | some tag =>
    obtain ⟨name, body, rest, tagAt, rfl⟩ := exists_tagAt found
    have within : (slashTagOf name body).length ≤ suffix.length := by
      rw [tagAt.parts]
      simp [slashTagOf]
      omega
    simp [Keeps, found, slashTag?_of_tagAt (tagAt.append ys), within, List.take_append_of_le_length within]

theorem slashTag?_cons_of_ne {c : Char} (other : c ≠ '<') (cs : List Char) :
    slashTag? (c :: cs) = none := by
  refine Option.eq_none_iff_forall_ne_some.2 fun tag found => ?_
  obtain ⟨name, body, rest, tagAt, -⟩ := exists_tagAt found
  exact other (List.cons.inj tagAt.parts).1

theorem expandSelfClosing_of_not_mem {cs : List Char} (unopened : '<' ∉ cs) :
    expandSelfClosing cs = cs := by
  induction cs with
  | nil => rfl
  | cons c cs ih =>
    simp only [List.mem_cons, not_or] at unopened
    rw [expandSelfClosing, Text.substitute_cons, slashTag?_cons_of_ne (Ne.symm unopened.1)]
    exact congrArg (c :: ·) (ih unopened.2)

theorem expandSelfClosing_cons {cs : List Char} (unopened : '<' ∉ cs) :
    expandSelfClosing ('<' :: cs) =
      match slashTag? ('<' :: cs) with
      | some tag => tag.expand (('<' :: cs).take tag.length) ++ ('<' :: cs).drop tag.length
      | none => '<' :: cs := by
  rw [expandSelfClosing, Text.substitute_cons]
  cases found : slashTag? ('<' :: cs) with
  | none => exact congrArg _ (expandSelfClosing_of_not_mem unopened)
  | some tag =>
    obtain ⟨name, body, rest, -, rfl⟩ := exists_tagAt found
    have behind : '<' ∉ ('<' :: cs).drop (slashTagOf name body).length := fun member =>
      unopened (List.mem_of_mem_drop member)
    exact congrArg _ (expandSelfClosing_of_not_mem behind)

end ComponentCompiler.Markup
