import ComponentCompiler.Markup.Render
import ComponentCompiler.Proofs.Text.Scanning
import ComponentCompiler.Proofs.Text.Words

namespace ComponentCompiler.Markup

open Text (Stops isAsciiBlank splitAll)

/-- Where a reader of tags stands; `text` is what it has read of the tag, the quoted parts left
out. -/
inductive TagState
  | outside
  | inside (quoted : Bool) (text : List Char)

def readTags : TagState → List Char → List (List Char)
  | _, [] => []
  | .outside, c :: cs => readTags (if c = '<' then .inside false [] else .outside) cs
  | .inside quoted text, c :: cs =>
    if c = '"' then readTags (.inside (!quoted) text) cs
    else if quoted then readTags (.inside true text) cs
    else if c = '>' then text :: readTags .outside cs
    else readTags (.inside false (text ++ [c])) cs

def isTagSeparator (c : Char) : Bool :=
  isAsciiBlank c || c = '/'

def isTagNameChar (c : Char) : Bool :=
  !isTagSeparator c

def attributeNames (text : List Char) : List (List Char) :=
  ((splitAll isTagSeparator text).map (·.takeWhile (· ≠ '='))).filter (!·.isEmpty)

structure TagNames where
  closing : Bool
  tag : List Char
  attributes : List (List Char)
deriving DecidableEq

def TagNames.ofBody (closing : Bool) (body : List Char) : TagNames :=
  ⟨closing, body.takeWhile isTagNameChar, attributeNames (body.dropWhile isTagNameChar)⟩

/-- The names in the text of a tag; a leading slash makes it a closing tag. -/
def TagNames.ofText : List Char → TagNames
  | '/' :: body => ofBody true body
  | body => ofBody false body

def tags (cs : List Char) : List TagNames :=
  (readTags .outside cs).map TagNames.ofText

def isPlainName (name : String) : Bool :=
  name.toList.all fun c =>
    !(isAsciiBlank c || c = '"' || c = '\'' || c = '<' || c = '>' || c = '=' || c = '/')

def isInert (text : String) : Bool :=
  text.toList.all fun c => !(c = '<' || c = '>' || c = '"')

mutual

def Node.isPlain (raw : Bool) : Node → Bool
  | .text value => !raw || isInert value
  | .comment value => isInert value
  | .doctype .. => false
  | .element tag attributes children =>
    isPlainName tag && attributes.all (isPlainName ·.name) && arePlain (isRawText tag) children

def arePlain (raw : Bool) : List Node → Bool
  | [] => true
  | node :: rest => node.isPlain raw && arePlain raw rest

end

theorem arePlain_append {raw : Bool} (xs ys : List Node) :
    arePlain raw (xs ++ ys) = (arePlain raw xs && arePlain raw ys) := by
  induction xs with
  | nil => rfl
  | cons x xs ih => rw [List.cons_append, arePlain, arePlain, ih, Bool.and_assoc]

def Attribute.names (attributes : List Attribute) : List (List Char) :=
  (attributes.map (·.name.toList)).filter (!·.isEmpty)

mutual

/-- The tags that stand for a node; a reader takes a comment for a tag. -/
def Node.tagNames : Node → List TagNames
  | .text _ => []
  | .comment value => [.ofText ("!--".toList ++ value.toList ++ "--".toList)]
  | .doctype .. => []
  | .element tag attributes children =>
    ⟨false, tag.toList, Attribute.names attributes⟩ ::
      (if isVoid tag && children.isEmpty then []
      else tagNames children ++ [⟨true, tag.toList, []⟩])

def tagNames : List Node → List TagNames
  | [] => []
  | node :: rest => node.tagNames ++ tagNames rest

end

theorem not_mem_escapeText (cs : List Char) : '<' ∉ escapeText cs := by
  intro member
  obtain ⟨c, -, image⟩ := List.mem_flatMap.1 member
  unfold escapeTextChar at image
  split_ifs at image with _ opening _
  · exact absurd image (by decide)
  · exact absurd image (by decide)
  · exact absurd image (by decide)
  · exact opening (List.mem_singleton.1 image).symm

theorem not_mem_escapeValue (cs : List Char) : '"' ∉ escapeValue cs := by
  intro member
  obtain ⟨c, -, image⟩ := List.mem_flatMap.1 member
  unfold escapeValueChar at image
  split_ifs at image with _ quote
  · exact absurd image (by decide)
  · exact absurd image (by decide)
  · exact quote (List.mem_singleton.1 image).symm

theorem isInert_iff {text : String} :
    isInert text = true ↔ ∀ c ∈ text.toList, c ≠ '<' ∧ c ≠ '>' ∧ c ≠ '"' := by
  simp [isInert, and_assoc]

section Reading

variable {text xs : List Char}

theorem readTags_outside (unopened : '<' ∉ xs) (rest : List Char) :
    readTags .outside (xs ++ rest) = readTags .outside rest := by
  induction xs with
  | nil => rfl
  | cons c xs ih =>
    rw [List.mem_cons, not_or] at unopened
    rw [List.cons_append, readTags, if_neg (Ne.symm unopened.1), ih unopened.2]

theorem readTags_inside (solid : ∀ c ∈ xs, c ≠ '"' ∧ c ≠ '>') (rest : List Char) :
    readTags (.inside false text) (xs ++ rest) = readTags (.inside false (text ++ xs)) rest := by
  induction xs generalizing text with
  | nil => rw [List.nil_append, List.append_nil]
  | cons c xs ih =>
    rw [List.forall_mem_cons] at solid
    rw [List.cons_append, readTags, if_neg solid.1.1, if_neg Bool.false_ne_true,
      if_neg solid.1.2, ih solid.2, List.append_assoc, List.singleton_append]

theorem readTags_quoted (unquoted : '"' ∉ xs) (rest : List Char) :
    readTags (.inside false text) ('"' :: (xs ++ '"' :: rest)) =
      readTags (.inside false text) rest := by
  have within : readTags (.inside true text) (xs ++ '"' :: rest) =
      readTags (.inside false text) rest := by
    induction xs with
    | nil => rw [List.nil_append, readTags, if_pos rfl, Bool.not_true]
    | cons c xs ih =>
      rw [List.mem_cons, not_or] at unquoted
      rw [List.cons_append, readTags, if_neg (Ne.symm unquoted.1), if_pos rfl, ih unquoted.2]
  rw [readTags, if_pos rfl, Bool.not_false, within]

theorem readTags_close (rest : List Char) :
    readTags (.inside false text) ('>' :: rest) = text :: readTags .outside rest := by
  rw [readTags, if_neg (by decide), if_neg Bool.false_ne_true, if_pos rfl]

theorem tags_bare (solid : ∀ c ∈ xs, c ≠ '"' ∧ c ≠ '>') (rest : List Char) :
    tags ('<' :: (xs ++ '>' :: rest)) = .ofText xs :: tags rest := by
  rw [tags, readTags, if_pos rfl, readTags_inside solid, readTags_close]
  rfl

end Reading

theorem isPlainName_iff {name : String} :
    isPlainName name = true ↔ ∀ c ∈ name.toList,
      isTagNameChar c = true ∧ c ≠ '=' ∧ c ≠ '"' ∧ c ≠ '>' ∧ c ≠ '\'' ∧ c ≠ '<' := by
  simp only [isPlainName, isTagNameChar, isTagSeparator, List.all_eq_true]
  refine forall₂_congr fun c _ => ?_
  simp only [Bool.not_eq_true', Bool.or_eq_false_iff, decide_eq_false_iff_not]
  tauto

theorem solid_of_isPlainName {name : String} (plain : isPlainName name = true) :
    ∀ c ∈ name.toList, c ≠ '"' ∧ c ≠ '>' := by
  intro c member
  obtain ⟨-, -, unquoted, unclosed, -⟩ := isPlainName_iff.1 plain c member
  exact ⟨unquoted, unclosed⟩

@[simp] theorem attributeNames_nil : attributeNames [] = [] := rfl

theorem attributeNames_append_cons {c : Char} (separator : isTagSeparator c = true)
    (xs ys : List Char) :
    attributeNames (xs ++ c :: ys) = attributeNames xs ++ attributeNames ys := by
  rw [attributeNames, Text.splitAll_append_cons separator, List.map_append, List.filter_append]
  rfl

theorem attributeNames_append {xs ys : List Char} (stops : Stops isTagNameChar ys) :
    attributeNames (xs ++ ys) = attributeNames xs ++ attributeNames ys := by
  cases ys with
  | nil => rw [List.append_nil, attributeNames_nil, List.append_nil]
  | cons c ys =>
    have separator : isTagSeparator c = true := by simpa [isTagNameChar] using stops c rfl
    have after := attributeNames_append_cons separator [] ys
    rw [List.nil_append, attributeNames_nil, List.nil_append] at after
    rw [attributeNames_append_cons separator, after]

theorem attributeNames_word {name : String} (plain : isPlainName name = true) {ending : List Char}
    (ends : ending = [] ∨ ending = ['=']) :
    attributeNames (name.toList ++ ending) = [name.toList].filter (!·.isEmpty) := by
  rw [isPlainName_iff] at plain
  have uncut : ∀ c ∈ name.toList ++ ending, isTagSeparator c = false := by
    intro c member
    rcases List.mem_append.1 member with inName | inEnding
    · simpa [isTagNameChar] using (plain c inName).1
    · rcases ends with rfl | rfl
      · cases inEnding
      · rw [List.mem_singleton.1 inEnding]
        decide
  have named : (name.toList ++ ending).takeWhile (· ≠ '=') = name.toList := by
    refine Text.takeWhile_append_of_stops (fun c member => by simpa using (plain c member).2.1) ?_
    rcases ends with rfl | rfl <;> simp [Stops]
  rw [attributeNames, Text.splitAll_of_uncut uncut, List.map_singleton, named]

theorem TagNames.ofBody_append {tag : String} (plain : isPlainName tag = true) {more : List Char}
    (stops : Stops isTagNameChar more) (closing : Bool) :
    ofBody closing (tag.toList ++ more) = ⟨closing, tag.toList, attributeNames more⟩ := by
  have inside : ∀ c ∈ tag.toList, isTagNameChar c = true := fun c member =>
    (isPlainName_iff.1 plain c member).1
  rw [ofBody, Text.takeWhile_append_of_stops inside stops,
    Text.dropWhile_append_of_stops inside stops]

theorem TagNames.ofText_append {tag : String} (plain : isPlainName tag = true) {more : List Char}
    (spaced : more.head? ≠ some '/') (stops : Stops isTagNameChar more) :
    ofText (tag.toList ++ more) = ⟨false, tag.toList, attributeNames more⟩ := by
  rw [← ofBody_append plain stops]
  -- A plain name does not start with a slash, so the tag is an opening one.
  refine ofText.eq_2 _ fun body starts => ?_
  cases name : tag.toList with
  | nil =>
    rw [name, List.nil_append] at starts
    exact spaced (by rw [starts]; rfl)
  | cons c cs =>
    rw [name, List.cons_append] at starts
    obtain ⟨rfl, -⟩ := List.cons.inj starts
    exact absurd ((isPlainName_iff.1 plain '/' (by simp [name])).1) (by decide)

def Attribute.bare (a : Attribute) : List Char :=
  ' ' :: (a.name.toList ++ if a.value.toList.isEmpty then [] else ['='])

theorem readTags_attribute {a : Attribute} (plain : isPlainName a.name = true)
    (text rest : List Char) :
    readTags (.inside false text) (a.chars ++ rest) =
      readTags (.inside false (text ++ a.bare)) rest := by
  have solid : ∀ c ∈ a.bare, c ≠ '"' ∧ c ≠ '>' := by
    rw [Attribute.bare, List.forall_mem_cons, List.forall_mem_append]
    refine ⟨by decide, solid_of_isPlainName plain, ?_⟩
    split <;> simp
  have value : a.chars = a.bare ++
      if a.value.toList.isEmpty then [] else '"' :: (escapeValue a.value.toList ++ ['"']) := by
    rw [Attribute.chars, Attribute.bare]
    split <;> simp
  rw [value, List.append_assoc, readTags_inside solid]
  split
  · rfl
  · rw [List.cons_append, List.append_assoc, List.singleton_append,
      readTags_quoted (not_mem_escapeValue _)]

theorem readTags_attributes {attributes : List Attribute}
    (plain : ∀ a ∈ attributes, isPlainName a.name = true) (text rest : List Char) :
    readTags (.inside false text) (attributes.flatMap Attribute.chars ++ rest) =
      readTags (.inside false (text ++ attributes.flatMap Attribute.bare)) rest := by
  induction attributes generalizing text with
  | nil => rw [List.flatMap_nil, List.flatMap_nil, List.nil_append, List.append_nil]
  | cons a attributes ih =>
    rw [List.forall_mem_cons] at plain
    rw [List.flatMap_cons, List.append_assoc, readTags_attribute plain.1, ih plain.2,
      List.flatMap_cons, List.append_assoc]

theorem stops_bare (attributes : List Attribute) {ending : List Char}
    (stops : Stops isTagNameChar ending) :
    Stops isTagNameChar (attributes.flatMap Attribute.bare ++ ending) := by
  cases attributes with
  | nil => exact stops
  | cons a attributes =>
    intro c first
    cases first
    decide

theorem attributeNames_bare {attributes : List Attribute}
    (plain : ∀ a ∈ attributes, isPlainName a.name = true) {ending : List Char}
    (stops : Stops isTagNameChar ending) (nameless : attributeNames ending = []) :
    attributeNames (attributes.flatMap Attribute.bare ++ ending) = Attribute.names attributes := by
  induction attributes with
  | nil => exact nameless
  | cons a attributes ih =>
    rw [List.forall_mem_cons] at plain
    have word : attributeNames (a.name.toList ++ if a.value.toList.isEmpty then [] else ['=']) =
        [a.name.toList].filter (!·.isEmpty) :=
      attributeNames_word plain.1 (by split <;> simp)
    have space := attributeNames_append_cons (c := ' ') (by decide) []
      ((a.name.toList ++ if a.value.toList.isEmpty then [] else ['=']) ++
        (attributes.flatMap Attribute.bare ++ ending))
    rw [attributeNames_append (stops_bare attributes stops), word, ih plain.2] at space
    have names : Attribute.names (a :: attributes) =
        [a.name.toList].filter (!·.isEmpty) ++ Attribute.names attributes := by
      rw [Attribute.names, Attribute.names, ← List.filter_append]
      rfl
    rw [List.flatMap_cons, List.append_assoc, names]
    exact space

-- The ending is what stands between the attributes and the bracket.
theorem tags_opening {tag : String} {attributes : List Attribute}
    (plainTag : isPlainName tag = true)
    (plain : ∀ a ∈ attributes, isPlainName a.name = true) {ending : List Char}
    (ends : ending = [] ∨ ending = [' ', '/']) (rest : List Char) :
    tags ('<' :: (tag.toList ++ (attributes.flatMap Attribute.chars ++ (ending ++ '>' :: rest)))) =
      ⟨false, tag.toList, Attribute.names attributes⟩ :: tags rest := by
  have solidEnding : ∀ c ∈ ending, c ≠ '"' ∧ c ≠ '>' := by
    rcases ends with rfl | rfl <;> simp
  have stops : Stops isTagNameChar ending := by
    rcases ends with rfl | rfl
    · simp [Stops]
    · intro c first
      cases first
      decide
  have nameless : attributeNames ending = [] := by
    rcases ends with rfl | rfl <;> rfl
  have spaced : (attributes.flatMap Attribute.bare ++ ending).head? ≠ some '/' := by
    cases attributes with
    | nil => rcases ends with rfl | rfl <;> simp
    | cons a attributes => simp [Attribute.bare]
  have text : TagNames.ofText (tag.toList ++ (attributes.flatMap Attribute.bare ++ ending)) =
      ⟨false, tag.toList, Attribute.names attributes⟩ := by
    rw [TagNames.ofText_append plainTag spaced (stops_bare attributes stops),
      attributeNames_bare plain stops nameless]
  rw [tags, readTags, if_pos rfl, readTags_inside (solid_of_isPlainName plainTag),
    readTags_attributes plain, readTags_inside solidEnding, readTags_close, List.map_cons,
    List.nil_append, List.append_assoc, text]
  rfl

theorem tags_closing {tag : String} (plain : isPlainName tag = true) (rest : List Char) :
    tags ('<' :: '/' :: (tag.toList ++ '>' :: rest)) = ⟨true, tag.toList, []⟩ :: tags rest := by
  have solid : ∀ c ∈ '/' :: tag.toList, c ≠ '"' ∧ c ≠ '>' := by
    rw [List.forall_mem_cons]
    exact ⟨by decide, solid_of_isPlainName plain⟩
  have text : TagNames.ofBody true tag.toList = ⟨true, tag.toList, []⟩ := by
    have ends : Stops isTagNameChar [] := fun _ first => by cases first
    have whole := TagNames.ofBody_append plain ends true
    rwa [List.append_nil] at whole
  rw [← List.cons_append, tags_bare solid, TagNames.ofText, text]

theorem tags_text {raw : Bool} {value : String} (plain : (!raw || isInert value) = true)
    (rest : List Char) : tags ((Node.text value).chars raw ++ rest) = tags rest := by
  have unopened : '<' ∉ (Node.text value).chars raw := by
    cases raw with
    | false => exact not_mem_escapeText value.toList
    | true => exact fun member => (isInert_iff.1 plain '<' member).1 rfl
  rw [tags, readTags_outside unopened, tags]

theorem tags_comment {raw : Bool} {value : String} (plain : isInert value = true)
    (rest : List Char) : tags ((Node.comment value).chars raw ++ rest) =
      (Node.comment value).tagNames ++ tags rest := by
  have solid : ∀ c ∈ "!--".toList ++ value.toList ++ "--".toList, c ≠ '"' ∧ c ≠ '>' := by
    rw [List.forall_mem_append, List.forall_mem_append]
    refine ⟨⟨by simp, fun c member => ?_⟩, by simp⟩
    obtain ⟨-, unclosed, unquoted⟩ := isInert_iff.1 plain c member
    exact ⟨unquoted, unclosed⟩
  have bracketed : (Node.comment value).chars raw ++ rest =
      '<' :: ("!--".toList ++ value.toList ++ "--".toList ++ '>' :: rest) := by
    simp [Node.chars]
  rw [bracketed, tags_bare solid, Node.tagNames, List.singleton_append]

mutual

theorem tags_chars : {raw : Bool} → (node : Node) → node.isPlain raw = true → (rest : List Char) →
    tags (node.chars raw ++ rest) = node.tagNames ++ tags rest
  | _, .text _, plain, rest => by
    rw [Node.isPlain] at plain
    rw [tags_text plain, Node.tagNames, List.nil_append]
  | _, .comment _, plain, rest => by
    rw [Node.isPlain] at plain
    exact tags_comment plain rest
  | _, .doctype .., plain, _ => by cases plain
  | raw, .element tag attributes children, plain, rest => by
    rw [Node.isPlain, Bool.and_eq_true, Bool.and_eq_true, List.all_eq_true] at plain
    obtain ⟨⟨plainTag, plainAttributes⟩, plainChildren⟩ := plain
    rw [Node.chars, Node.tagNames]
    split
    · -- A void element is its opening tag.
      have opening := tags_opening plainTag plainAttributes (.inr rfl) rest
      simpa using opening
    · have opening := tags_opening plainTag plainAttributes (.inl rfl)
        (renderChars (isRawText tag) children ++ '<' :: '/' :: (tag.toList ++ '>' :: rest))
      rw [tags_renderChars children plainChildren, tags_closing plainTag] at opening
      simpa using opening

theorem tags_renderChars : {raw : Bool} → (nodes : List Node) → arePlain raw nodes = true →
    (rest : List Char) → tags (renderChars raw nodes ++ rest) = tagNames nodes ++ tags rest
  | _, [], _, _ => rfl
  | _, node :: nodes, plain, rest => by
    rw [arePlain, Bool.and_eq_true] at plain
    rw [renderChars, List.append_assoc, tags_chars node plain.1, tags_renderChars nodes plain.2,
      tagNames, List.append_assoc]

end

end ComponentCompiler.Markup
