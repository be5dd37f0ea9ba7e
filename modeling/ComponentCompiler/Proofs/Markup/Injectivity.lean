import ComponentCompiler.Markup.Render
import ComponentCompiler.Markup.SelfClosing
import ComponentCompiler.Proofs.Text.Unambiguous
import Mathlib.Data.List.Infix

/-!
# Telling nodes from their text

Writing loses nothing: from the text of nodes whose names, comments and raw texts hold nothing that
markup takes for something else, the nodes can be told.

* `render_inj`: two forests that are written alike are the same.
-/

namespace ComponentCompiler.Markup

open Text (Stops Unambiguous isAsciiLetter isBlank unambiguous_span)

/-! ## Nodes that can be told from their text -/

def isTagName (tag : String) : Bool :=
  match tag.toList with
  | [] => false
  | c :: cs => isAsciiLetter c && cs.all isTagChar

def isKeyChar (c : Char) : Bool :=
  !(isBlank c || ['"', '=', '/', '<', '>'].contains c)

def isAttributeName (name : String) : Bool :=
  !name.toList.isEmpty && name.toList.all isKeyChar

def commentEnd : List Char := ['-', '-', '>']

def isRawContent : List Node → Bool
  | [] => true
  | [.text value] => !value.toList.isEmpty && !value.toList.contains '<'
  | _ => false

def Node.isText : Node → Bool
  | .text _ => true
  | _ => false

mutual

/-- Whether a node is no document type and, at any depth, names, comments and raw texts are well
formed. -/
def Node.isLegible : Node → Bool
  | .text value => !value.toList.isEmpty
  | .comment value => !decide (commentEnd <:+: value.toList)
  | .doctype .. => false
  | .element tag attributes children =>
    isTagName tag && attributes.all (isAttributeName ·.name) &&
      (if isRawText tag then isRawContent children else areLegible children)

/-- No two texts stand next to each other, at any depth. -/
def areLegible : List Node → Bool
  | [] => true
  | node :: rest =>
    node.isLegible && !(node.isText && rest.head?.any Node.isText) && areLegible rest

end

/-! ## What is escaped -/

theorem unambiguous_escapeTextChar : Unambiguous escapeTextChar (fun _ => True) (fun _ => True) := by
  intro c d r r' _ _ _ _ same
  unfold escapeTextChar at same
  split_ifs at same
  all_goals
    simp only [String.reduceToList, List.cons_append, List.nil_append, List.cons.injEq] at same
    grind

theorem unambiguous_escapeValueChar :
    Unambiguous escapeValueChar (fun _ => True) (fun _ => True) := by
  intro c d r r' _ _ _ _ same
  unfold escapeValueChar at same
  split_ifs at same
  all_goals
    simp only [String.reduceToList, List.cons_append, List.nil_append, List.cons.injEq] at same
    grind

theorem exists_head_escapeTextChar (c : Char) (r : List Char) :
    ∃ d ∈ (escapeTextChar c ++ r).head?, d ≠ '<' := by
  unfold escapeTextChar
  split_ifs <;> simp_all

theorem exists_head_escapeValueChar (c : Char) (r : List Char) :
    ∃ d ∈ (escapeValueChar c ++ r).head?, d ≠ '"' := by
  unfold escapeValueChar
  split_ifs <;> simp_all

theorem unambiguous_escapeText :
    Unambiguous escapeText (fun _ => True) (fun r => ∀ c ∈ r.head?, c = '<') := by
  have unambiguous := unambiguous_escapeTextChar.flatMap (fun _ _ _ _ => trivial)
    (E := fun r => ∀ c ∈ r.head?, c = '<') (fun _ _ => trivial) fun c r r' _ ending starts => by
      obtain ⟨d, first, other⟩ := exists_head_escapeTextChar c r'
      exact other (ending d (starts ▸ first))
  intro xs ys r r' _ _ ending ending' same
  exact unambiguous (fun _ _ => trivial) (fun _ _ => trivial) ending ending' same

theorem unambiguous_value :
    Unambiguous (fun value => escapeValue value ++ ['"']) (fun _ => True) (fun _ => True) := by
  have unambiguous := unambiguous_escapeValueChar.flatMap (fun _ _ _ _ => trivial)
    (E := fun r => r.head? = some '"') (fun _ _ => trivial) fun c r r' _ ending starts => by
      obtain ⟨d, first, other⟩ := exists_head_escapeValueChar c r'
      rw [← starts, ending] at first
      exact other (Option.some.inj first).symm
  intro xs ys r r' _ _ _ _ same
  simp only [List.append_assoc, List.singleton_append] at same
  obtain ⟨rfl, rest⟩ := unambiguous (fun _ _ => trivial) (fun _ _ => trivial) rfl rfl same
  exact ⟨rfl, (List.cons.inj rest).2⟩

/-! ## Comments -/

theorem eq_nil_of_commentEnd_append {xs t r r' : List Char} (unended : ¬commentEnd <:+: xs ++ t)
    (same : commentEnd ++ r = t ++ (commentEnd ++ r')) : t = [] := by
  match t with
  | [] => rfl
  | [a] | [a, b] => simp [commentEnd] at same
  | a :: b :: c :: t =>
    simp only [commentEnd, List.cons_append, List.cons.injEq] at same
    obtain ⟨rfl, rfl, rfl, -⟩ := same
    exact absurd ⟨xs, t, by simp [commentEnd]⟩ unended

theorem unambiguous_comment :
    Unambiguous (fun value => value ++ commentEnd) (fun value => ¬commentEnd <:+: value)
      (fun _ => True) := by
  intro xs ys r r' unended unended' _ _ same
  simp only [List.append_assoc] at same
  rcases List.append_eq_append_iff.1 same with ⟨t, rfl, rest⟩ | ⟨t, rfl, rest⟩
  · obtain rfl := eq_nil_of_commentEnd_append unended' rest
    exact ⟨(List.append_nil xs).symm, List.append_cancel_left rest⟩
  · obtain rfl := eq_nil_of_commentEnd_append unended rest
    exact ⟨List.append_nil ys, (List.append_cancel_left rest).symm⟩

/-! ## Attributes -/

def FollowsAttribute (r : List Char) : Prop :=
  ∃ c rest, r = c :: rest ∧ (c = ' ' ∨ c = '>')

theorem followsAttribute_append (a : Attribute) (r : List Char) : FollowsAttribute (a.chars ++ r) :=
  ⟨' ', _, rfl, .inl rfl⟩

theorem FollowsAttribute.stops {r : List Char} (follows : FollowsAttribute r) :
    Stops isKeyChar r := by
  obtain ⟨c, rest, rfl, rfl | rfl⟩ := follows
  all_goals
    intro d first
    cases first
    decide

theorem unambiguous_attribute :
    Unambiguous Attribute.chars (fun a => isAttributeName a.name = true) FollowsAttribute := by
  rintro ⟨name, value⟩ ⟨name', value'⟩ r r' named named' follows follows' same
  simp only [isAttributeName, Bool.and_eq_true, List.all_eq_true] at named named'
  simp only [Attribute.chars, List.cons_append, List.append_assoc, List.cons.injEq, true_and] at same
  have stops (value : List Char) {r : List Char} (follows : FollowsAttribute r) :
      Stops isKeyChar
        ((if value.isEmpty then [] else '=' :: '"' :: (escapeValue value ++ ['"'])) ++ r) := by
    cases value with
    | nil => exact follows.stops
    | cons c cs =>
      intro d first
      cases first
      decide
  obtain ⟨sameName, rest⟩ := unambiguous_span isKeyChar named.2 named'.2 (stops _ follows)
    (stops _ follows') same
  obtain rfl := String.toList_inj.1 sameName
  cases here : value.toList with
  | nil =>
    cases there : value'.toList with
    | nil =>
      obtain rfl := String.toList_inj.1 (here.trans there.symm)
      rw [here] at rest
      exact ⟨rfl, rest⟩
    | cons c cs =>
      obtain ⟨d, more, rfl, rfl | rfl⟩ := follows
      all_goals simp [here, there] at rest
  | cons c cs =>
    cases there : value'.toList with
    | nil =>
      obtain ⟨d, more, rfl, rfl | rfl⟩ := follows'
      all_goals simp [here, there] at rest
    | cons d ds =>
      simp only [here, there, List.isEmpty_cons, Bool.false_eq_true, if_false, List.cons_append,
        List.cons.injEq, true_and] at rest
      obtain ⟨sameValue, rest⟩ := unambiguous_value trivial trivial trivial trivial rest
      rw [← here, ← there] at sameValue
      obtain rfl := String.toList_inj.1 sameValue
      exact ⟨rfl, rest⟩

def EndsTag (r : List Char) : Prop :=
  ∃ rest, r = ' ' :: '/' :: rest ∨ r = '>' :: rest

theorem unambiguous_attributes :
    Unambiguous (List.flatMap Attribute.chars) (fun as => ∀ a ∈ as, isAttributeName a.name = true)
      EndsTag := by
  refine unambiguous_attribute.flatMap (fun a r _ _ => followsAttribute_append a r) ?_ ?_
  · rintro r ⟨rest, rfl | rfl⟩
    · exact ⟨' ', _, rfl, .inl rfl⟩
    · exact ⟨'>', _, rfl, .inr rfl⟩
  · rintro ⟨name, value⟩ r r' named ⟨rest, rfl | rfl⟩ starts
    · simp only [isAttributeName, Bool.and_eq_true, List.all_eq_true, Bool.not_eq_true',
        List.isEmpty_eq_false_iff] at named
      obtain ⟨c, cs, chars⟩ := List.exists_cons_of_ne_nil named.1
      have allowed := named.2 c (by simp [chars])
      simp only [Attribute.chars, chars, List.cons_append, List.cons.injEq, true_and] at starts
      rw [← starts.1] at allowed
      exact absurd allowed (by decide)
    · simp [Attribute.chars] at starts

/-! ## What a text goes on with -/

inductive Kind
  | text
  | declaration
  | element

def Node.kind : Node → Kind
  | .text _ => .text
  | .comment _ => .declaration
  | .doctype .. => .declaration
  | .element .. => .element

/-- The kind of the node that a text starts with; none at its end and where an element ends. -/
def kind? : List Char → Option Kind
  | [] => none
  | '<' :: '/' :: _ => none
  | '<' :: '!' :: _ => some .declaration
  | '<' :: _ => some .element
  | _ => some .text

theorem kind?_of_head {r : List Char} (other : ∃ c ∈ r.head?, c ≠ '<') :
    kind? r = some .text := by
  unfold kind?
  split <;> simp_all

theorem head_of_kind? {r : List Char} (kind : kind? r ≠ some .text) : ∀ c ∈ r.head?, c = '<' := by
  unfold kind? at kind
  split at kind <;> simp_all

theorem kind?_letter {c : Char} (letter : isAsciiLetter c = true) (r : List Char) :
    kind? ('<' :: c :: r) = some .element := by
  unfold kind?
  split <;> simp_all [isAsciiLetter]

theorem kind?_chars {node : Node} (legible : node.isLegible = true) (r : List Char) :
    kind? (node.chars false ++ r) = some node.kind := by
  cases node with
  | text value =>
    cases chars : value.toList with
    | nil => simp [Node.isLegible, chars] at legible
    | cons c cs =>
      rw [Node.chars, if_neg Bool.false_ne_true, chars, escapeText, List.flatMap_cons,
        List.append_assoc]
      exact kind?_of_head (exists_head_escapeTextChar c _)
  | comment value => rfl
  | doctype name publicId systemId => rfl
  | element tag attributes children =>
    simp only [Node.isLegible, Bool.and_eq_true] at legible
    obtain ⟨⟨named, -⟩, -⟩ := legible
    unfold isTagName at named
    split at named
    · cases named
    · rename_i c cs chars
      rw [Bool.and_eq_true] at named
      rw [Node.chars]
      split
      all_goals
        rw [chars]
        exact kind?_letter named.1 _

theorem kind?_renderChars {nodes : List Node} (legible : areLegible nodes = true) {r : List Char}
    (ends : kind? r = none) :
    kind? (renderChars false nodes ++ r) = nodes.head?.map Node.kind := by
  cases nodes with
  | nil => simpa [renderChars] using ends
  | cons node rest =>
    simp only [areLegible, Bool.and_eq_true] at legible
    rw [renderChars, List.append_assoc, kind?_chars legible.1.1]
    rfl

/-! ## Nodes -/

theorem isTagChar_of_isTagName {tag : String} (named : isTagName tag = true) :
    ∀ c ∈ tag.toList, isTagChar c = true := by
  unfold isTagName at named
  split at named
  · cases named
  · rename_i c cs chars
    rw [Bool.and_eq_true, List.all_eq_true] at named
    rw [chars, List.forall_mem_cons]
    exact ⟨by simp [isTagChar, Text.isAsciiAlphanumeric, named.1], named.2⟩

def rawNodes (content : List Char) : List Node :=
  if content.isEmpty then [] else [.text (String.ofList content)]

theorem eq_rawNodes {nodes : List Node} (raw : isRawContent nodes = true) :
    nodes = rawNodes (renderChars true nodes) ∧ '<' ∉ renderChars true nodes := by
  unfold isRawContent at raw
  split at raw
  · exact ⟨rfl, List.not_mem_nil⟩
  · rename_i value
    have content : renderChars true [.text value] = value.toList := by
      simp [renderChars, Node.chars]
    simp only [Bool.and_eq_true, Bool.not_eq_true', List.contains_eq_mem, decide_eq_false_iff_not]
      at raw
    rw [content, rawNodes, raw.1, String.ofList_toList]
    exact ⟨rfl, raw.2⟩
  · cases raw

theorem rawContent_append_inj {nodes nodes' : List Node} {r r' : List Char}
    (raw : isRawContent nodes = true) (raw' : isRawContent nodes' = true)
    (ends : kind? r = none) (ends' : kind? r' = none)
    (same : renderChars true nodes ++ r = renderChars true nodes' ++ r') :
    nodes = nodes' ∧ r = r' := by
  obtain ⟨nodes_eq, unopened⟩ := eq_rawNodes raw
  obtain ⟨nodes_eq', unopened'⟩ := eq_rawNodes raw'
  have inside {cs : List Char} (unopened : '<' ∉ cs) : ∀ c ∈ cs, (c != '<') = true := by
    intro c member
    exact bne_iff_ne.2 fun opens => unopened (opens ▸ member)
  have stops {r : List Char} (ends : kind? r = none) : Stops (· != '<') r := by
    intro c first
    rw [head_of_kind? (by simp [ends]) c first]
    rfl
  obtain ⟨content, rest⟩ := unambiguous_span (· != '<') (inside unopened) (inside unopened')
    (stops ends) (stops ends') same
  rw [nodes_eq, nodes_eq']
  exact ⟨congrArg rawNodes content, rest⟩

def contentChars (tag : String) (children : List Node) : List Char :=
  if isVoid tag && children.isEmpty then " />".toList
  else '>' :: (renderChars (isRawText tag) children ++ '<' :: '/' :: (tag.toList ++ ['>']))

theorem chars_element (raw : Bool) (tag : String) (attributes : List Attribute)
    (children : List Node) (r : List Char) :
    (Node.element tag attributes children).chars raw ++ r =
      '<' :: (tag.toList ++ (attributes.flatMap Attribute.chars ++
        (contentChars tag children ++ r))) := by
  rw [Node.chars, contentChars]
  split <;> simp

theorem endsTag_contentChars (tag : String) (children : List Node) (r : List Char) :
    EndsTag (contentChars tag children ++ r) := by
  rw [contentChars]
  split
  · exact ⟨'>' :: r, .inl rfl⟩
  · exact ⟨_, .inr rfl⟩

theorem stops_attributes (attributes : List Attribute) {r : List Char} (ends : EndsTag r) :
    Stops isTagChar (attributes.flatMap Attribute.chars ++ r) := by
  intro c first
  cases attributes with
  | nil =>
    obtain ⟨rest, rfl | rfl⟩ := ends
    all_goals
      cases first
      decide
  | cons a more =>
    cases first
    decide

theorem contentChars_append_inj {tag : String} {children children' : List Node} {r r' : List Char}
    (inside : ∀ {r r'}, kind? r = none → kind? r' = none →
      renderChars (isRawText tag) children ++ r = renderChars (isRawText tag) children' ++ r' →
        children = children' ∧ r = r')
    (same : contentChars tag children ++ r = contentChars tag children' ++ r') :
    children = children' ∧ r = r' := by
  unfold contentChars at same
  split at same
  next childless =>
    split at same
    next childless' =>
      rw [Bool.and_eq_true, List.isEmpty_iff] at childless childless'
      rw [childless.2, childless'.2]
      exact ⟨rfl, List.append_cancel_left same⟩
    next => simp at same
  next =>
    split at same
    next => simp at same
    next =>
      simp only [List.cons_append, List.append_assoc, List.cons.injEq, true_and] at same
      obtain ⟨rfl, rest⟩ := inside rfl rfl same
      simpa using rest

theorem element_append_inj {tag tag' : String} {attributes attributes' : List Attribute}
    {children children' : List Node} {r r' : List Char}
    (named : isTagName tag = true) (named' : isTagName tag' = true)
    (keyed : ∀ a ∈ attributes, isAttributeName a.name = true)
    (keyed' : ∀ a ∈ attributes', isAttributeName a.name = true)
    (inside : tag = tag' → ∀ {r r'}, kind? r = none → kind? r' = none →
      renderChars (isRawText tag) children ++ r = renderChars (isRawText tag) children' ++ r' →
        children = children' ∧ r = r')
    (same : (Node.element tag attributes children).chars false ++ r =
      (Node.element tag' attributes' children').chars false ++ r') :
    Node.element tag attributes children = .element tag' attributes' children' ∧ r = r' := by
  rw [chars_element, chars_element, List.cons.injEq] at same
  obtain ⟨sameTag, rest⟩ := unambiguous_span isTagChar (isTagChar_of_isTagName named)
    (isTagChar_of_isTagName named') (stops_attributes _ (endsTag_contentChars _ _ _))
    (stops_attributes _ (endsTag_contentChars _ _ _)) same.2
  obtain rfl := String.toList_inj.1 sameTag
  obtain ⟨rfl, content⟩ := unambiguous_attributes keyed keyed' (endsTag_contentChars _ _ _)
    (endsTag_contentChars _ _ _) rest
  obtain ⟨rfl, rfl⟩ := contentChars_append_inj (inside rfl) content
  exact ⟨rfl, rfl⟩

theorem head_kind_eq {nodes nodes' : List Node} {r r' : List Char}
    (legible : areLegible nodes = true) (legible' : areLegible nodes' = true)
    (ends : kind? r = none) (ends' : kind? r' = none)
    (same : renderChars false nodes ++ r = renderChars false nodes' ++ r') :
    nodes.head?.map Node.kind = nodes'.head?.map Node.kind := by
  rw [← kind?_renderChars legible ends, ← kind?_renderChars legible' ends', same]

theorem head_of_followed {nodes : List Node} {r : List Char} (legible : areLegible nodes = true)
    (apart : nodes.head?.any Node.isText = false) (ends : kind? r = none) :
    ∀ c ∈ (renderChars false nodes ++ r).head?, c = '<' := by
  apply head_of_kind?
  rw [kind?_renderChars legible ends]
  cases nodes with
  | nil => simp
  | cons node rest => cases node <;> simp_all [Node.isText, Node.kind]

theorem renderChars_append_inj : {nodes nodes' : List Node} → {r r' : List Char} →
    areLegible nodes = true → areLegible nodes' = true → kind? r = none → kind? r' = none →
    renderChars false nodes ++ r = renderChars false nodes' ++ r' → nodes = nodes' ∧ r = r'
  | [], [], _, _, _, _, _, _, same => ⟨rfl, same⟩
  | .text value :: rest, .text value' :: rest', r, r', legible, legible', ends, ends', same => by
    simp only [areLegible, Node.isText, Bool.true_and, Bool.and_eq_true, Bool.not_eq_true']
      at legible legible'
    simp only [renderChars, Node.chars, Bool.false_eq_true, if_false, List.append_assoc] at same
    obtain ⟨sameValue, after⟩ := unambiguous_escapeText trivial trivial
      (head_of_followed legible.2 legible.1.2 ends) (head_of_followed legible'.2 legible'.1.2 ends')
      same
    obtain rfl := String.toList_inj.1 sameValue
    obtain ⟨rfl, rfl⟩ := renderChars_append_inj legible.2 legible'.2 ends ends' after
    exact ⟨rfl, rfl⟩
  | .comment value :: rest, .comment value' :: rest', r, r', legible, legible', ends, ends',
      same => by
    simp only [areLegible, Node.isLegible, Bool.and_eq_true, Bool.not_eq_true',
      decide_eq_false_iff_not] at legible legible'
    simp only [renderChars, Node.chars, List.append_assoc, List.append_cancel_left_eq] at same
    obtain ⟨sameValue, after⟩ := unambiguous_comment legible.1.1 legible'.1.1 trivial trivial
      (by simpa [commentEnd] using same)
    obtain rfl := String.toList_inj.1 sameValue
    obtain ⟨rfl, rfl⟩ := renderChars_append_inj legible.2 legible'.2 ends ends' after
    exact ⟨rfl, rfl⟩
  | .element tag attributes children :: rest, .element tag' attributes' children' :: rest', r, r',
      legible, legible', ends, ends', same => by
    simp only [areLegible, Node.isLegible, Bool.and_eq_true, List.all_eq_true] at legible legible'
    simp only [renderChars, List.append_assoc] at same
    obtain ⟨⟨⟨⟨named, keyed⟩, content⟩, -⟩, legible⟩ := legible
    obtain ⟨⟨⟨⟨named', keyed'⟩, content'⟩, -⟩, legible'⟩ := legible'
    have inside (sameTag : tag = tag') {r r' : List Char} (ends : kind? r = none)
        (ends' : kind? r' = none)
        (within : renderChars (isRawText tag) children ++ r =
          renderChars (isRawText tag) children' ++ r') : children = children' ∧ r = r' := by
      subst sameTag
      cases raw : isRawText tag with
      | true =>
        rw [raw] at content content' within
        exact rawContent_append_inj content content' ends ends' within
      | false =>
        rw [raw] at content content' within
        exact renderChars_append_inj content content' ends ends' within
    obtain ⟨sameNode, after⟩ := element_append_inj named named' keyed keyed' inside same
    obtain ⟨rfl, rfl⟩ := renderChars_append_inj legible legible' ends ends' after
    exact ⟨congrArg (· :: rest) sameNode, rfl⟩
  | [], .text _ :: _, _, _, legible, legible', ends, ends', same
  | [], .comment _ :: _, _, _, legible, legible', ends, ends', same
  | [], .element .. :: _, _, _, legible, legible', ends, ends', same
  | .text _ :: _, [], _, _, legible, legible', ends, ends', same
  | .text _ :: _, .comment _ :: _, _, _, legible, legible', ends, ends', same
  | .text _ :: _, .element .. :: _, _, _, legible, legible', ends, ends', same
  | .comment _ :: _, [], _, _, legible, legible', ends, ends', same
  | .comment _ :: _, .text _ :: _, _, _, legible, legible', ends, ends', same
  | .comment _ :: _, .element .. :: _, _, _, legible, legible', ends, ends', same
  | .element .. :: _, [], _, _, legible, legible', ends, ends', same
  | .element .. :: _, .text _ :: _, _, _, legible, legible', ends, ends', same
  | .element .. :: _, .comment _ :: _, _, _, legible, legible', ends, ends', same =>
    absurd (head_kind_eq legible legible' ends ends' same) nofun
  | .doctype .. :: _, _, _, _, legible, _, _, _, _ => by cases legible
  | _, .doctype .. :: _, _, _, _, legible', _, _, _ => by cases legible'

/-- Forests that are written alike are the same. -/
theorem render_inj {nodes nodes' : List Node} (legible : areLegible nodes = true)
    (legible' : areLegible nodes' = true) : render nodes = render nodes' ↔ nodes = nodes' := by
  refine ⟨fun same => ?_, congrArg render⟩
  have chars : renderChars false nodes ++ [] = renderChars false nodes' ++ [] :=
    congrArg (· ++ []) (String.ofList_inj.1 same)
  exact (renderChars_append_inj legible legible' rfl rfl chars).1

def lookalikes (value : String) : List Node :=
  [.element "p" [⟨"title", value⟩, ⟨"hidden", ""⟩] [.text "1 < 2 &amp; 3", .comment "a--"],
    .element "br" [] [], .text ">", .element "br" [] [.comment "<br />"],
    .element "script" [] [.text "a > b && \"-->\""]]

theorem render_inj_lookalikes :
    areLegible (lookalikes "\"") = true ∧ areLegible (lookalikes "&quot;") = true ∧
      render (lookalikes "\"") ≠ render (lookalikes "&quot;") := by
  have legible : areLegible (lookalikes "\"") = true := by decide +kernel
  have legible' : areLegible (lookalikes "&quot;") = true := by decide +kernel
  refine ⟨legible, legible', fun same => ?_⟩
  have equal := (render_inj legible legible').1 same
  simp [lookalikes] at equal

end ComponentCompiler.Markup
