import ComponentCompiler.Html.Reading
import ComponentCompiler.Proofs.Markup.Attributes
import ComponentCompiler.Proofs.Markup.Forest

/-!
# Attributes under construction

The reader of tokens keeps the first attribute of each name, and nothing that the rules of tree
construction do gives an element a second one: they copy attributes, spell them as their vocabulary
does, and add only those that are missing.
-/

namespace ComponentCompiler.Html

open Markup (Attribute)
open Markup.Attribute (Once has)

/-! ## The tree -/

def Content.Once (name : String) : Content → Prop
  | .element _ attributes _ => Attribute.Once name attributes
  | _ => True

theorem once_container {name : String} : Content.container.Once name :=
  trivial

theorem once_comment {name : String} (text : String) : (Content.comment text).Once name :=
  trivial

theorem once_doctype {name : String} (declared publicId systemId : String) :
    (Content.doctype declared publicId systemId).Once name :=
  trivial

def Dom.Once (name : String) (d : Dom) : Prop :=
  ∀ v ∈ d, v.content.Once name

namespace Dom

variable {name : String} {d : Dom}

theorem Once.make (once : d.Once name) {content : Content} (new : content.Once name) :
    (d.make content).1.Once name := by
  intro v member
  rcases Array.mem_push.1 member with old | rfl
  · exact once v old
  · exact new

theorem Once.modifyVertex (once : d.Once name) (id : NodeId) {f : Vertex → Vertex}
    (kept : ∀ v, v.content.Once name → (f v).content.Once name) :
    (d.modifyVertex id f).Once name := by
  intro v member
  rw [Dom.modifyVertex, Array.mem_iff_getElem] at member
  obtain ⟨i, bound, rfl⟩ := member
  rw [Array.getElem_modify]
  split
  · exact kept _ (once _ (Array.getElem_mem _))
  · exact once _ (Array.getElem_mem _)

theorem Once.relink (once : d.Once name) (id : NodeId) {f : Vertex → Vertex}
    (same : ∀ v, (f v).content = v.content) : (d.modifyVertex id f).Once name :=
  once.modifyVertex id fun v single => by rwa [same]

theorem Once.detach (once : d.Once name) (id : NodeId) : (d.detach id).Once name := by
  unfold Dom.detach
  split
  · exact once
  · refine Once.relink ?_ _ fun _ => rfl
    exact once.relink _ fun _ => rfl

theorem Once.append (once : d.Once name) (parent id : NodeId) :
    (d.append parent id).Once name := by
  refine Once.relink ?_ _ fun _ => rfl
  exact once.relink _ fun _ => rfl

theorem Once.insertBefore (once : d.Once name) (sibling id : NodeId) :
    (d.insertBefore sibling id).Once name := by
  unfold Dom.insertBefore
  split
  · exact once
  · refine Once.relink ?_ _ fun _ => rfl
    exact (once.detach id).relink _ fun _ => rfl

theorem Once.moveChildren (once : d.Once name) (source target : NodeId) :
    (d.moveChildren source target).Once name := by
  have adopted : ∀ (moved : List NodeId) (d : Dom), d.Once name →
      Dom.Once name (moved.foldl (fun d id =>
        d.modifyVertex id fun v => { v with parent := some target }) d) := by
    intro moved
    induction moved with
    | nil => exact fun _ once => once
    | cons id rest ih => exact fun d once => ih _ (once.relink _ fun _ => rfl)
  apply adopted
  refine Once.relink ?_ _ fun _ => rfl
  exact once.relink _ fun _ => rfl

theorem Once.extendText (once : d.Once name) (id : NodeId) (c : Char) :
    (d.extendText id c).Once name := by
  apply once.modifyVertex
  intro v single
  split
  · trivial
  · exact single

theorem Once.makeText (once : d.Once name) (c : Char) : (d.make (.text [c])).1.Once name :=
  once.make trivial

theorem Once.appendCharacter (once : d.Once name) (parent : NodeId) (c : Char) :
    (d.appendCharacter parent c).Once name := by
  unfold Dom.appendCharacter
  split
  · split
    · exact once.extendText _ c
    · exact (once.makeText c).append _ _
  · exact (once.makeText c).append _ _

theorem Once.insertCharacterBefore (once : d.Once name) (sibling : NodeId) (c : Char) :
    (d.insertCharacterBefore sibling c).Once name := by
  unfold Dom.insertCharacterBefore
  split
  · split
    · exact once.extendText _ c
    · exact (once.makeText c).insertBefore _ _
  · exact (once.makeText c).insertBefore _ _

theorem Once.addMissing (once : d.Once name) (id : NodeId) {more : List Attribute}
    (single : Attribute.Once name more) : (d.addMissing id more).Once name := by
  apply once.modifyVertex
  intro v old
  split
  · rename_i attributes _ content
    rw [content] at old
    exact Markup.Attribute.once_append_missing old single
  · exact old

end Dom

/-! ## Tokens -/

def Token.Once (name : String) : Token → Prop
  | .startTag tag => Attribute.Once name tag.attributes
  | _ => True

section Tokens

variable {name : String}

theorem has_dropRepeated {seen : List Attribute} (known : has seen name = true)
    (attributes : List Attribute) : has (dropRepeated seen attributes) name = false := by
  induction attributes generalizing seen with
  | nil => rfl
  | cons a rest ih =>
    rw [dropRepeated]
    split
    · exact ih known
    · rename_i new
      have different : a.name ≠ name := by
        rintro rfl
        exact new known
      simp [different, ih, known]

theorem once_dropRepeated (seen attributes : List Attribute) :
    Attribute.Once name (dropRepeated seen attributes) := by
  induction attributes generalizing seen with
  | nil => exact Markup.Attribute.once_of_absent rfl
  | cons a rest ih =>
    rw [dropRepeated]
    split
    · exact ih seen
    · rw [Markup.Attribute.once_cons]
      split
      · rename_i same
        exact has_dropRepeated (by simp [same]) rest
      · exact ih _

theorem once_scanTag (closing : Bool) (cs : List Char) :
    ∀ token ∈ (scanTag closing cs).tokens, token.Once name := by
  unfold scanTag
  dsimp only
  split
  · simp
  · cases closing with
    | true => simp [Token.Once]
    | false => simp [Token.Once, once_dropRepeated]

theorem once_characterToken (c : Char) : (characterToken c).Once name := by
  rw [characterToken]
  split <;> trivial

theorem once_characters (cs : List Char) : ∀ token ∈ cs.map Token.character, token.Once name := by
  intro token member
  obtain ⟨c, -, rfl⟩ := List.mem_map.1 member
  trivial

theorem once_bogusComment (cs : List Char) : (bogusComment cs).1.Once name :=
  trivial

theorem once_scanDeclaration (inForeign : Bool) (cs : List Char) :
    ∀ token ∈ (scanDeclaration inForeign cs).tokens, token.Once name := by
  unfold scanDeclaration
  split
  · simp [commentToken, Token.Once]
  · split
    · simp [Token.Once]
    · split
      · simp [once_characterToken]
      · simpa using once_bogusComment cs

theorem once_scanMarkup (inForeign : Bool) (cs : List Char) :
    ∀ token ∈ (scanMarkup inForeign cs).tokens, token.Once name := by
  unfold scanMarkup
  split
  · exact once_scanDeclaration _ _
  · simpa using once_bogusComment _
  · split
    · simp [Token.Once]
    · simp [Token.Once]
    · split
      · exact once_scanTag _ _
      · simpa using once_bogusComment _
  · split
    · exact once_scanTag _ _
    · simp [Token.Once]
  · simp [Token.Once]

theorem once_scanReference (kind : TextKind) (cs : List Char) :
    ∀ token ∈ (scanReference kind cs).tokens, token.Once name := by
  unfold scanReference
  split
  · dsimp only
    split <;> simp [Token.Once]
  · simp [Token.Once]

theorem once_scanRaw (opener : String) (kind : TextKind) (c : Char) (cs : List Char) :
    ∀ token ∈ (scanRaw opener kind c cs).tokens, token.Once name := by
  unfold scanRaw
  split
  · exact once_scanTag _ _
  · simp [Token.Once]

theorem once_scanScript (opener : String) (state : ScriptText) (c : Char) (cs : List Char) :
    ∀ token ∈ (scanScript opener state c cs).tokens, token.Once name := by
  unfold scanScript
  split
  · split
    · simp [Token.Once]
    · exact once_scanRaw _ _ _ _
  · split
    · split
      · exact once_scanTag _ _
      · split
        · exact once_characters _
        · simp [Token.Once]
    · split <;> simp [Token.Once]
  · split
    · split
      · split
        · exact once_characters _
        · simp [Token.Once]
      · simp [Token.Once]
    · split <;> simp [Token.Once]

theorem once_scan (kind : TextKind) (opener : String) (inForeign : Bool) (c : Char)
    (cs : List Char) : ∀ token ∈ (scan kind opener inForeign c cs).tokens, token.Once name := by
  unfold scan
  split
  · split
    · exact once_scanMarkup _ _
    · split
      · exact once_scanReference _ _
      · simpa using once_characterToken c
  · split
    · exact once_scanReference _ _
    · exact once_scanRaw _ _ _ _
  · exact once_scanRaw _ _ _ _
  · exact once_scanScript _ _ _ _
  · simp [Token.Once]

end Tokens

/-! ## The state of tree construction -/

def FormatEntry.Once (name : String) : FormatEntry → Prop
  | .marker => True
  | .element _ tag => Attribute.Once name tag.attributes

def OnceEntries (name : String) (entries : List FormatEntry) : Prop :=
  ∀ entry ∈ entries, entry.Once name

/-- The attribute stands at most once in every element and in every tag that is kept to open an
element anew. -/
structure Builder.Once (name : String) (b : Builder) : Prop where
  dom : b.dom.Once name
  formatting : OnceEntries name b.formatting

namespace Builder

variable {name : String} {b : Builder}

theorem Once.of_same {b' : Builder} (once : b.Once name) (dom : b'.dom = b.dom)
    (formatting : b'.formatting = b.formatting) : b'.Once name :=
  ⟨dom ▸ once.dom, formatting ▸ once.formatting⟩

@[simp] theorem once_ite (p : Prop) [Decidable p] (x y : Builder) :
    (if p then x else y).Once name ↔ if p then x.Once name else y.Once name := by
  split <;> rfl

theorem onceEntries_filter {entries : List FormatEntry} (once : OnceEntries name entries)
    (p : FormatEntry → Bool) : OnceEntries name (entries.filter p) :=
  fun entry member => once entry (List.mem_filter.1 member).1

@[simp] theorem onceEntries_cons {entry : FormatEntry} {entries : List FormatEntry} :
    OnceEntries name (entry :: entries) ↔ entry.Once name ∧ OnceEntries name entries := by
  simp [OnceEntries]

/-! ### Steps that leave the tree alone -/

section Stack

variable (once : b.Once name)

include once

@[grind ←] theorem Once.pop : b.pop.Once name :=
  once.of_same rfl rfl

@[grind ←] theorem Once.closeThrough (p : QName → Bool) : (b.closeThrough p).Once name :=
  once.of_same rfl rfl

@[grind ←] theorem Once.closeThroughTag (tag : String) : (b.closeThroughTag tag).Once name :=
  once.of_same rfl rfl

@[grind ←] theorem Once.closeUntil (p : QName → Bool) : (b.closeUntil p).Once name :=
  once.of_same rfl rfl

@[grind ←] theorem Once.closeImplied (p : QName → Bool) : (b.closeImplied p).Once name :=
  once.of_same rfl rfl

@[grind ←] theorem Once.closeImpliedExcept (tag : String) : (b.closeImpliedExcept tag).Once name :=
  once.of_same rfl rfl

@[grind ←] theorem Once.removeOpened (id : NodeId) : (b.removeOpened id).Once name :=
  once.of_same rfl rfl

@[grind ←] theorem Once.forbidFrameset : b.forbidFrameset.Once name :=
  once.of_same rfl rfl

@[grind ←] theorem Once.pushMarker : b.pushMarker.Once name :=
  ⟨once.dom, onceEntries_cons.2 ⟨trivial, once.formatting⟩⟩

@[grind ←] theorem Once.removeFormatting (id : NodeId) : (b.removeFormatting id).Once name :=
  ⟨once.dom, onceEntries_filter once.formatting _⟩

@[grind ←] theorem Once.clearToMarker : b.clearToMarker.Once name :=
  ⟨once.dom, fun entry member => once.formatting entry
    ((List.dropWhile_sublist _).subset (List.mem_of_mem_tail member))⟩

@[grind ←] theorem Once.closeParagraph : b.closeParagraph.Once name := by
  unfold Builder.closeParagraph
  grind

end Stack

/-! ### Steps that insert -/

section Insert

variable {attributes : List Attribute}

@[grind ←] theorem Once.putNode (once : b.Once name) (place : Place) (id : NodeId) :
    (b.putNode place id).Once name := by
  unfold Builder.putNode
  split
  · exact ⟨once.dom.append _ _, once.formatting⟩
  · exact ⟨once.dom.insertBefore _ _, once.formatting⟩

@[grind ←] theorem Once.insertCharacter (once : b.Once name) (c : Char) :
    (b.insertCharacter c).Once name := by
  unfold Builder.insertCharacter
  split
  · exact ⟨once.dom.appendCharacter _ _, once.formatting⟩
  · exact ⟨once.dom.insertCharacterBefore _ _, once.formatting⟩

@[grind ←] theorem Once.insertComment (once : b.Once name) (text : String) :
    (b.insertComment text).Once name := by
  unfold Builder.insertComment
  have made : Builder.Once name { b with dom := (b.dom.make (.comment text)).1 } :=
    ⟨once.dom.make trivial, once.formatting⟩
  exact made.putNode _ _

@[grind ←] theorem Once.insertCommentIn (once : b.Once name) (parent : NodeId) (text : String) :
    (b.insertCommentIn parent text).Once name :=
  ⟨(once.dom.make (once_comment text)).append _ _, once.formatting⟩

@[grind ←] theorem Once.makeElement (once : b.Once name) (tag : QName)
    (single : Attribute.Once name attributes) : (b.makeElement tag attributes).1.Once name := by
  have element : ∀ contents, (Content.element tag attributes contents).Once name :=
    fun _ => single
  unfold Builder.makeElement
  by_cases template : tag.isHtml "template" = true
  · simp only [if_pos template]
    exact ⟨(once.dom.make once_container).make (element _), once.formatting⟩
  · simp only [if_neg template]
    exact ⟨once.dom.make (element _), once.formatting⟩

@[grind ←] theorem Once.insertClosed (once : b.Once name) (space : Space) (tag : String)
    (single : Attribute.Once name attributes) :
    (b.insertClosed space tag attributes).1.Once name :=
  (once.makeElement _ single).putNode _ _

@[grind ←] theorem Once.insertOpen (once : b.Once name) (space : Space) (tag : String)
    (single : Attribute.Once name attributes) :
    (b.insertOpen space tag attributes).1.Once name :=
  (once.insertClosed space tag single).of_same rfl rfl

@[grind ←] theorem Once.openTag (once : b.Once name) {tag : Tag}
    (single : Attribute.Once name tag.attributes) : (b.openTag tag).Once name :=
  once.insertOpen _ _ single

@[grind ←] theorem Once.openEmpty (once : b.Once name) (tag : String) :
    (b.openEmpty tag).Once name :=
  once.insertOpen _ _ (Markup.Attribute.once_of_absent rfl)

@[grind ←] theorem Once.insertVoid (once : b.Once name) {tag : Tag}
    (single : Attribute.Once name tag.attributes) : (b.insertVoid tag).Once name :=
  once.insertClosed _ _ single

@[grind ←] theorem Once.openRoot (once : b.Once name)
    (single : Attribute.Once name attributes) : (b.openRoot attributes).Once name := by
  have made := once.makeElement ⟨.html, "html"⟩ single
  exact ⟨made.dom.append _ _, made.formatting⟩

end Insert

/-! ### Formatting -/

theorem Once.reopen (once : b.Once name) {entries : List FormatEntry}
    (kept : OnceEntries name entries) {entry : FormatEntry} (single : entry.Once name) :
    (b.reopen entries entry).1.Once name ∧ OnceEntries name (b.reopen entries entry).2 := by
  cases entry with
  | marker => exact ⟨once, onceEntries_cons.2 ⟨trivial, kept⟩⟩
  | element id tag =>
    exact ⟨once.insertOpen _ _ single, onceEntries_cons.2 ⟨single, kept⟩⟩

@[grind ←] theorem Once.reconstruct (once : b.Once name) : b.reconstruct.Once name := by
  have opened : ∀ (closed : List FormatEntry) (state : Builder × List FormatEntry),
      OnceEntries name closed → state.1.Once name → OnceEntries name state.2 →
      (closed.foldl (fun state entry => state.1.reopen state.2 entry) state).1.Once name ∧
        OnceEntries name
          (closed.foldl (fun state entry => state.1.reopen state.2 entry) state).2 := by
    intro closed
    induction closed with
    | nil => exact fun _ _ once kept => ⟨once, kept⟩
    | cons entry rest ih =>
      intro state all once kept
      obtain ⟨single, after⟩ := onceEntries_cons.1 all
      obtain ⟨once', kept'⟩ := once.reopen kept single
      exact ih _ after once' kept'
  obtain ⟨made, entries⟩ := opened (b.formatting.takeWhile _).reverse
    (b, b.formatting.dropWhile _)
    (fun entry member => once.formatting entry
      ((List.takeWhile_sublist _).subset (List.mem_reverse.1 member)))
    once (fun entry member => once.formatting entry ((List.dropWhile_sublist _).subset member))
  exact ⟨made.dom, entries⟩

@[grind ←] theorem Once.openFormatting (once : b.Once name) {tag : Tag}
    (single : Attribute.Once name tag.attributes) : (b.openFormatting tag).Once name := by
  have opened : ∀ b : Builder, b.Once name → Builder.Once name
      { (b.insertOpen .html tag.name tag.attributes).1 with
        formatting := .element (b.insertOpen .html tag.name tag.attributes).2.id tag ::
          (b.insertOpen .html tag.name tag.attributes).1.formatting } := by
    intro b once
    have made := once.insertOpen .html tag.name single
    exact ⟨made.dom, onceEntries_cons.2 ⟨single, made.formatting⟩⟩
  apply opened
  split
  · cases List.getLast? _ with
    | none => exact once
    | some id => exact once.removeFormatting id
  · exact once

@[grind ←] theorem Once.closeOrdinary (once : b.Once name) (tag : String) :
    (b.closeOrdinary tag).Once name := by
  unfold Builder.closeOrdinary
  split
  · exact once
  · grind

theorem once_of_find? {entries : List FormatEntry} (once : OnceEntries name entries)
    {p : FormatEntry → Bool} {id : NodeId} {tag : Tag}
    (found : entries.find? p = some (.element id tag)) : Attribute.Once name tag.attributes :=
  once _ (List.mem_of_find?_eq_some found)

theorem onceEntries_map {entries : List FormatEntry} (once : OnceEntries name entries)
    {entry : FormatEntry} (single : entry.Once name) (p : FormatEntry → Bool) :
    OnceEntries name (entries.map fun f => if p f then entry else f) := by
  intro f member
  obtain ⟨old, known, rfl⟩ := List.mem_map.1 member
  split
  · exact single
  · exact once old known

theorem onceEntries_insertBeforeEntry {entry : FormatEntry} (single : entry.Once name)
    (id : NodeId) {entries : List FormatEntry} (once : OnceEntries name entries) :
    OnceEntries name (insertBeforeEntry entry id entries) := by
  induction entries with
  | nil => exact onceEntries_cons.2 ⟨single, once⟩
  | cons f rest ih =>
    rw [insertBeforeEntry]
    split
    · exact onceEntries_cons.2 ⟨single, once⟩
    · obtain ⟨here, after⟩ := onceEntries_cons.1 once
      exact onceEntries_cons.2 ⟨here, ih after⟩

theorem Once.splitStep {s : Splitting} (once : s.builder.Once name) (node : OpenElement) :
    (splitStep s node).builder.Once name := by
  unfold Builder.splitStep
  dsimp only
  split
  · rename_i id tag found
    split at found
    · cases found
    · have single := once_of_find? once.formatting found
      have made := once.makeElement ⟨.html, tag.name⟩ single
      have entry : ∀ id, (FormatEntry.element id tag).Once name := fun _ => single
      generalize s.builder.makeElement ⟨.html, tag.name⟩ tag.attributes = result at made ⊢
      exact ⟨(made.dom.detach _).append _ _, onceEntries_map made.formatting (entry _) _⟩
  · exact (once.removeFormatting _).removeOpened _

theorem Once.splitAround (once : b.Once name) (formatId : NodeId) {tag : Tag}
    (single : Attribute.Once name tag.attributes) (block ancestor : OpenElement)
    (between : List OpenElement) :
    (b.splitAround formatId tag block ancestor between).Once name := by
  have walked : ∀ (between : List OpenElement) (s : Splitting), s.builder.Once name →
      (between.foldl Builder.splitStep s).builder.Once name := by
    intro between
    induction between with
    | nil => exact fun _ once => once
    | cons node rest ih => exact fun s once => ih _ (once.splitStep node)
  have start := walked between ⟨b, block.id, none, 0⟩ once
  unfold Builder.splitAround
  dsimp only
  generalize between.foldl Builder.splitStep ⟨b, block.id, none, 0⟩ = s at start ⊢
  have detached : Builder.Once name { s.builder with dom := s.builder.dom.detach s.last } :=
    ⟨start.dom.detach _, start.formatting⟩
  generalize Builder.placeUnder _ ancestor = place
  have made := (detached.putNode place s.last).makeElement ⟨.html, tag.name⟩ single
  have entry : ∀ id, (FormatEntry.element id tag).Once name := fun _ => single
  generalize Builder.makeElement _ _ _ = result at made ⊢
  constructor
  · exact (made.dom.moveChildren _ _).append _ _
  · dsimp only
    split
    · exact onceEntries_map made.formatting (entry _) _
    · exact onceEntries_filter (onceEntries_insertBeforeEntry (entry _) _ made.formatting) _

theorem Once.adoptOnce (once : b.Once name) (tag : String) : (b.adoptOnce tag).1.Once name := by
  unfold Builder.adoptOnce
  split
  · rename_i id entry found
    have single := once_of_find? (fun f member => once.formatting f
      ((List.takeWhile_sublist _).subset member)) found
    split
    · exact once.removeFormatting id
    · split
      · exact once
      · dsimp only
        split
        · exact once.splitAround id single _ _ _
        · have closed : Builder.Once name
              { b with opened := (b.opened.dropWhile (·.id ≠ id)).tail } :=
            ⟨once.dom, once.formatting⟩
          exact closed.removeFormatting id
  · exact once.closeOrdinary tag

theorem Once.adoptRounds (tag : String) (rounds : Nat) {b : Builder} (once : b.Once name) :
    (adoptRounds tag rounds b).Once name := by
  induction rounds generalizing b with
  | zero => exact once
  | succ rounds ih =>
    have round := once.adoptOnce tag
    rw [Builder.adoptRounds]
    split
    · rename_i result
      rw [result] at round
      exact ih round
    · rename_i result
      rw [result] at round
      exact round

@[grind ←] theorem Once.adopt (once : b.Once name) (tag : String) : (b.adopt tag).Once name := by
  unfold Builder.adopt
  split
  · split
    · exact once.pop
    · exact once.adoptRounds tag 8
  · exact once

@[grind ←] theorem Once.closeLink (once : b.Once name) : b.closeLink.Once name := by
  unfold Builder.closeLink
  split
  · exact ((once.adopt "a").removeFormatting _).removeOpened _
  · exact once

end Builder

end ComponentCompiler.Html
