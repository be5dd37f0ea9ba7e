import ComponentCompiler.Proofs.Html.Construction
import ComponentCompiler.Template.Directive

namespace ComponentCompiler.Html

open Markup (Attribute Everywhere)
open Markup.Attribute (Once)

/-! ## Names -/

/-- No vocabulary spells another name as this one, or this one in another way. -/
def Stable (name : String) : Prop :=
  ∀ space other, attributeName space other = name ↔ other = name

theorem stable_of_ordinary {name : String} (declaration : name ≠ "xmlns")
    (declared : name ≠ ":xmlns") (definition : name ≠ "definitionurl")
    (defined : name ≠ "definitionURL")
    (drawing : ∀ n ∈ drawingAttributes, Text.asciiLowercase n ≠ name ∧ n ≠ name) :
    Stable name := by
  intro space other
  unfold attributeName
  by_cases isDeclaration : other = "xmlns"
  · rw [if_pos isDeclaration, isDeclaration]
    exact ⟨fun same => absurd same.symm declared, fun same => absurd same.symm declaration⟩
  · rw [if_neg isDeclaration]
    cases space with
    | html => rfl
    | mathml =>
      by_cases isDefinition : other = "definitionurl"
      · simp only [isDefinition]
        exact ⟨fun same => absurd same.symm defined, fun same => absurd same.symm definition⟩
      · simp only [if_neg isDefinition]
    | svg =>
      simp only [respell]
      cases found : drawingAttributes.find? fun n => Text.asciiLowercase n = other with
      | none => rfl
      | some n =>
        obtain ⟨lower, proper⟩ := drawing n (List.mem_of_find?_eq_some found)
        have spelled : Text.asciiLowercase n = other := by simpa using List.find?_some found
        rw [Option.getD_some]
        exact ⟨fun same => absurd same proper, fun same => absurd (spelled.trans same) lower⟩

theorem stable_class : Stable "class" :=
  stable_of_ordinary (by decide) (by decide) (by decide) (by decide) (by decide +kernel)

theorem stable_style : Stable "style" :=
  stable_of_ordinary (by decide) (by decide) (by decide) (by decide) (by decide +kernel)

theorem once_foreignAttributes {name : String} (stable : Stable name) (space : Space)
    {attributes : List Attribute} (once : Attribute.Once name attributes) :
    Attribute.Once name (foreignAttributes space attributes) := by
  have kept : ((fun a : Attribute => decide (a.name = name)) ∘ fun a : Attribute =>
      { a with name := attributeName space a.name }) = fun a => decide (a.name = name) := by
    funext a
    simp [stable space a.name]
  rw [Attribute.Once, foreignAttributes, List.countP_map, kept]
  exact once

/-! ## What a rule gives -/

def OnceAfter (name : String) (result : Builder × Outcome) : Prop :=
  result.1.Once name

@[simp, grind =] theorem once_startTag {name : String} {tag : Tag} :
    (Token.startTag tag).Once name ↔ Attribute.Once name tag.attributes :=
  .rfl

namespace Builder

attribute [grind ←] Once.dom Once.formatting

@[grind =] theorem once_mk {name : String} {dom : Dom} {page : NodeId} {isFragment : Bool}
    {mode returnMode : Mode} {templateModes : List Mode} {tableText : List Char}
    {opened : List OpenElement} {formatting : List FormatEntry} {head form : Option NodeId}
    {framesetOk skipsLineFeed fosterParenting isLegacy : Bool} :
    Once name ⟨dom, page, isFragment, mode, returnMode, templateModes, tableText, opened,
      formatting, head, form, framesetOk, skipsLineFeed, fosterParenting, isLegacy⟩ ↔
      dom.Once name ∧ OnceEntries name formatting :=
  ⟨fun once => ⟨once.dom, once.formatting⟩, fun parts => ⟨parts.1, parts.2⟩⟩

section Results

variable {name : String} {b : Builder}

@[simp, grind =] theorem onceAfter_pair (outcome : Outcome) :
    OnceAfter name (b, outcome) ↔ b.Once name :=
  .rfl

@[simp, grind =] theorem onceAfter_stay : OnceAfter name b.stay ↔ b.Once name :=
  .rfl

@[simp, grind =] theorem onceAfter_enter (mode : Mode) :
    OnceAfter name (b.enter mode) ↔ b.Once name :=
  ⟨fun once => once.of_same rfl rfl, fun once => once.of_same rfl rfl⟩

@[simp, grind =] theorem onceAfter_retry (mode : Mode) :
    OnceAfter name (b.retry mode) ↔ b.Once name :=
  ⟨fun once => once.of_same rfl rfl, fun once => once.of_same rfl rfl⟩

theorem onceAfter_ite {p : Prop} [Decidable p] {x y : Builder × Outcome}
    (first : OnceAfter name x) (second : OnceAfter name y) :
    OnceAfter name (if p then x else y) := by
  split
  · exact first
  · exact second

@[grind ←] theorem onceAfter_openText (once : b.Once name) {tag : Tag}
    (single : Attribute.Once name tag.attributes) (kind : TextKind) :
    OnceAfter name (b.openText tag kind) :=
  (once.openTag single).of_same rfl rfl

def OnceIfAny (name : String) (result : Option (Builder × Outcome)) : Prop :=
  ∀ r ∈ result, OnceAfter name r

@[simp] theorem onceIfAny_none : OnceIfAny name none := by
  simp [OnceIfAny]

@[simp] theorem onceIfAny_some (r : Builder × Outcome) :
    OnceIfAny name (some r) ↔ OnceAfter name r := by
  simp [OnceIfAny]

theorem onceIfAny_ite {p : Prop} [Decidable p] {x y : Option (Builder × Outcome)}
    (first : OnceIfAny name x) (second : OnceIfAny name y) :
    OnceIfAny name (if p then x else y) := by
  split
  · exact first
  · exact second

theorem onceAfter_getD {result : Option (Builder × Outcome)} {otherwise : Builder × Outcome}
    (rule : OnceIfAny name result) (rest : OnceAfter name otherwise) :
    OnceAfter name (result.getD otherwise) := by
  cases result with
  | none => exact rest
  | some r => exact rule r rfl

theorem onceIfAny_or {x y : Option (Builder × Outcome)} (first : OnceIfAny name x)
    (second : OnceIfAny name y) : OnceIfAny name (x.or y) := by
  cases x with
  | none => exact second
  | some r => exact first

end Results

/-! ## Rules of head and body -/

section Body

variable {name : String} {b : Builder} (once : b.Once name) {tag : Tag}
  (single : Attribute.Once name tag.attributes)

include once

@[grind ←] theorem Once.closeTemplate : b.closeTemplate.Once name := by
  unfold Builder.closeTemplate
  split
  · exact (((once.closeImplied _).closeThroughTag _).clearToMarker).of_same rfl rfl
  · exact once

@[grind ←] theorem Once.endInTemplate : OnceAfter name b.endInTemplate := by
  unfold Builder.endInTemplate
  split
  · exact ((once.closeThroughTag _).clearToMarker).of_same rfl rfl
  · exact once

@[grind ←] theorem Once.closeBlock (boundary : QName → Bool) (tag : String) :
    (b.closeBlock boundary tag).Once name := by
  unfold Builder.closeBlock
  grind

@[grind ←] theorem Once.closeForm : b.closeForm.Once name := by
  unfold Builder.closeForm
  split
  · exact once.closeBlock _ _
  · split
    · exact once
    · have forgotten : Builder.Once name { b with form := none } := once.of_same rfl rfl
      dsimp only
      split
      · exact (forgotten.closeImplied _).removeOpened _
      · exact forgotten

include single

@[grind ←] theorem Once.mergeRoot : (b.mergeRoot tag).Once name := by
  unfold Builder.mergeRoot
  split
  · exact once
  · split
    · exact ⟨once.dom.addMissing _ single, once.formatting⟩
    · exact once

@[grind ←] theorem Once.mergeBody : (b.mergeBody tag).Once name := by
  unfold Builder.mergeBody
  split
  · split
    · exact once
    · exact ⟨once.dom.addMissing _ single, once.formatting⟩
  · exact once

@[grind ←] theorem Once.replaceBody : (b.replaceBody tag).Once name := by
  unfold Builder.replaceBody
  split
  · split
    · rename_i body _ _
      have emptied : Builder.Once name
          { b with dom := b.dom.detach body.id, opened := b.opened.drop (b.opened.length - 1) } :=
        ⟨once.dom.detach _, once.formatting⟩
      exact (emptied.openTag single).of_same rfl rfl
    · exact once
  · exact once

@[grind ←] theorem Once.openItem (tags : List String) : (b.openItem tags tag).Once name := by
  unfold Builder.openItem
  grind

@[grind ←] theorem onceIfAny_headStart? : OnceIfAny name (b.headStart? tag) := by
  unfold headStart?
  repeat' apply onceIfAny_ite
  all_goals simp only [onceIfAny_some, onceIfAny_none, onceAfter_stay]
  all_goals grind

theorem onceIfAny_bodyStartBlock? : OnceIfAny name (b.bodyStartBlock? tag) := by
  unfold bodyStartBlock?
  dsimp only
  repeat' apply onceIfAny_ite
  all_goals simp only [onceIfAny_some, onceIfAny_none, onceAfter_stay, onceAfter_pair,
    onceAfter_enter]
  all_goals grind

@[grind ←] theorem Once.openForeign (stable : Stable name) (space : Space) (spelling : String) :
    (b.openForeign space spelling tag).Once name := by
  have spelled := once_foreignAttributes stable space single
  unfold Builder.openForeign
  dsimp only
  split
  · exact once.insertClosed _ _ spelled
  · exact once.insertOpen _ _ spelled

theorem onceIfAny_bodyStartInline? (stable : Stable name) :
    OnceIfAny name (b.bodyStartInline? tag) := by
  have image : Attribute.Once name (Tag.attributes { tag with name := "img" }) := single
  unfold bodyStartInline?
  dsimp only
  repeat' apply onceIfAny_ite
  all_goals simp only [onceIfAny_some, onceIfAny_none, onceAfter_stay, onceAfter_enter]
  all_goals grind

theorem onceAfter_bodyStart (stable : Stable name) : OnceAfter name (b.bodyStart tag) := by
  have ruled : OnceIfAny name ((if headTags.contains tag.name then b.headStart? tag else none).or
      ((b.bodyStartBlock? tag).or (b.bodyStartInline? tag))) :=
    onceIfAny_or (onceIfAny_ite (onceIfAny_headStart? once single) onceIfAny_none)
      (onceIfAny_or (onceIfAny_bodyStartBlock? once single)
        (onceIfAny_bodyStartInline? once single stable))
  unfold bodyStart
  refine onceAfter_ite (once.mergeRoot single) (onceAfter_ite (once.mergeBody single)
    (onceAfter_ite (once.replaceBody single) (onceAfter_ite once (onceAfter_getD ruled ?_))))
  exact once.reconstruct.openTag single

end Body

section Rules

variable {name : String} {b : Builder} (once : b.Once name)

include once

theorem onceAfter_bodyEnd (tag : String) : OnceAfter name (b.bodyEnd tag) := by
  have empty : Attribute.Once name [] := Markup.Attribute.once_of_absent rfl
  unfold bodyEnd
  dsimp only
  repeat' apply onceAfter_ite
  all_goals simp only [onceAfter_stay, onceAfter_enter, onceAfter_retry]
  all_goals grind

@[grind ←] theorem Once.bodyCharacter (c : Char) : (b.bodyCharacter c).Once name := by
  unfold Builder.bodyCharacter
  grind

variable (stable : Stable name) {token : Token} (fits : token.Once name)

include stable fits

@[grind ←] theorem onceAfter_inBody : OnceAfter name (inBody token b) := by
  unfold inBody
  split
  · exact once.bodyCharacter _
  · exact once.insertComment _
  · exact onceAfter_bodyStart once fits stable
  · exact onceAfter_bodyEnd once _
  · exact onceAfter_ite once once.endInTemplate
  · exact once

omit stable in
@[grind ←] theorem onceAfter_inHead : OnceAfter name (inHead token b) := by
  have left : OnceAfter name (b.pop.retry .afterHead) := once.pop.of_same rfl rfl
  unfold inHead
  split
  · exact onceAfter_ite (once.insertCharacter _) left
  · exact once.insertComment _
  · exact onceAfter_ite (once.mergeRoot fits)
      (onceAfter_ite once (onceAfter_getD (onceIfAny_headStart? once fits) left))
  · exact onceAfter_ite (once.pop.of_same rfl rfl)
      (onceAfter_ite left (onceAfter_ite once.closeTemplate once))
  · exact left

omit stable fits in
@[grind ←] theorem onceAfter_setTemplateMode (mode : Mode) :
    OnceAfter name (b.setTemplateMode mode) :=
  once.of_same rfl rfl

theorem onceAfter_inTemplate : OnceAfter name (inTemplate token b) := by
  unfold inTemplate
  split
  · exact onceAfter_inBody once stable fits
  · exact onceAfter_inBody once stable fits
  · refine onceAfter_ite (onceAfter_inHead once fits) ?_
    repeat' apply onceAfter_ite
    all_goals exact onceAfter_setTemplateMode once _
  · exact onceAfter_ite once.closeTemplate once
  · exact once.endInTemplate
  · exact once

/-! ## Rules of tables and selections -/

@[grind ←] theorem onceAfter_foster : OnceAfter name (foster token b) := by
  have moved : Builder.Once name { b with fosterParenting := true } := once.of_same rfl rfl
  have after := onceAfter_inBody moved stable fits
  exact Once.of_same after rfl rfl

@[grind ←] theorem onceAfter_tableCharacter : OnceAfter name (tableCharacter token b) := by
  unfold tableCharacter
  exact onceAfter_ite (once.of_same rfl rfl) (onceAfter_foster once stable fits)

@[grind ←] theorem onceAfter_tableStart {tag : Tag} (single : Attribute.Once name tag.attributes) :
    OnceAfter name (tableStart token tag b) := by
  have foster := onceAfter_foster once stable fits
  have head := onceAfter_inHead once fits
  generalize outcome : Builder.foster token b = fostered at foster
  unfold tableStart
  dsimp only
  rw [outcome]
  generalize Builder.inHead token b = headed at head ⊢
  repeat' apply onceAfter_ite
  all_goals grind

omit stable fits in
theorem Once.fold {step : Builder → Char → Builder}
    (kept : ∀ b c, Builder.Once name b → (step b c).Once name) (text : List Char) :
    (text.foldl step b).Once name := by
  induction text generalizing b with
  | nil => exact once
  | cons c rest ih => exact ih (kept b c once)

omit stable fits in
@[grind ←] theorem Once.flushTableText : b.flushTableText.Once name := by
  have waiting : Builder.Once name { b with tableText := [] } := ⟨once.dom, once.formatting⟩
  have fostered : Builder.Once name { b with tableText := [], fosterParenting := true } :=
    ⟨once.dom, once.formatting⟩
  unfold Builder.flushTableText
  dsimp only
  split
  · exact Once.fold waiting (fun _ c once => once.insertCharacter c) _
  · have moved := Once.fold fostered (fun _ c once => once.bodyCharacter c) b.tableText.reverse
    exact ⟨moved.dom, moved.formatting⟩

@[grind ←] theorem onceAfter_inTable : OnceAfter name (inTable token b) := by
  unfold inTable
  split
  · exact onceAfter_tableCharacter once stable fits
  · exact onceAfter_tableCharacter once stable fits
  · exact once.insertComment _
  · exact onceAfter_tableStart once stable fits fits
  · have foster := onceAfter_foster once stable fits
    generalize Builder.foster _ b = fostered at foster ⊢
    repeat' apply onceAfter_ite
    all_goals grind
  · exact onceAfter_inBody once stable fits
  · exact onceAfter_foster once stable fits

omit stable fits in
theorem onceAfter_inTableText : OnceAfter name (inTableText token b) := by
  unfold inTableText
  split
  · exact once
  · exact once.of_same rfl rfl
  · exact once.flushTableText.of_same rfl rfl

theorem onceAfter_inCaption : OnceAfter name (inCaption token b) := by
  have body := onceAfter_inBody once stable fits
  have closed : Builder.Once name
      (((b.closeImplied QName.hasImpliedEnd).closeThroughTag "caption").clearToMarker) := by
    grind
  generalize outcome : Builder.inBody token b = result at body
  unfold inCaption
  cases token with
  | startTag tag =>
    dsimp only
    rw [outcome]
    repeat' apply onceAfter_ite
    all_goals grind
  | endTag tag =>
    dsimp only
    rw [outcome]
    repeat' apply onceAfter_ite
    all_goals grind
  | _ =>
    dsimp only
    rw [outcome]
    exact body

theorem onceAfter_inColumnGroup : OnceAfter name (inColumnGroup token b) := by
  have left : OnceAfter name
      (if b.currentIsHtml "colgroup" then b.pop.retry .inTable else b.stay) :=
    onceAfter_ite (once.pop.of_same rfl rfl) once
  unfold inColumnGroup
  cases token with
  | character c => exact onceAfter_ite (once.insertCharacter c) left
  | comment text => exact once.insertComment text
  | startTag tag =>
    exact onceAfter_ite (once.mergeRoot fits) (onceAfter_ite (once.insertVoid fits)
      (onceAfter_ite (onceAfter_inHead once fits) left))
  | endTag tag =>
    exact onceAfter_ite (onceAfter_ite (once.pop.of_same rfl rfl) once)
      (onceAfter_ite once (onceAfter_ite once.closeTemplate left))
  | endOfInput => exact onceAfter_inBody once stable fits
  | _ => exact left

theorem onceAfter_inTableBody : OnceAfter name (inTableBody token b) := by
  have table := onceAfter_inTable once stable fits
  generalize outcome : Builder.inTable token b = result at table
  unfold inTableBody
  dsimp only
  split
  · rw [outcome]
    repeat' apply onceAfter_ite
    all_goals grind
  · rw [outcome]
    repeat' apply onceAfter_ite
    all_goals grind
  · rw [outcome]
    exact table

theorem onceAfter_inRow : OnceAfter name (inRow token b) := by
  have table := onceAfter_inTable once stable fits
  generalize outcome : Builder.inTable token b = result at table
  unfold inRow
  dsimp only
  split
  · rw [outcome]
    repeat' apply onceAfter_ite
    all_goals grind
  · rw [outcome]
    repeat' apply onceAfter_ite
    all_goals grind
  · rw [outcome]
    exact table

omit stable fits in
@[grind ←] theorem Once.closeCell : b.closeCell.Once name := by
  unfold Builder.closeCell
  grind

theorem onceAfter_inCell : OnceAfter name (inCell token b) := by
  have body := onceAfter_inBody once stable fits
  generalize outcome : Builder.inBody token b = result at body
  unfold inCell
  split
  · rw [outcome]
    repeat' apply onceAfter_ite
    all_goals grind
  · rw [outcome]
    repeat' apply onceAfter_ite
    all_goals grind
  · rw [outcome]
    exact body

omit stable fits in
@[grind ←] theorem Once.leaveSelect : b.leaveSelect.Once name :=
  (once.closeThroughTag "select").of_same rfl rfl

omit stable fits in
@[grind ←] theorem Once.closeOption : b.closeOption.Once name := by
  unfold Builder.closeOption
  grind

omit stable fits in
@[grind ←] theorem Once.closeOptionGroup : b.closeOptionGroup.Once name := by
  have closed : ∀ inGroup : Bool, Builder.Once name
      (if (if inGroup then b.closeOption else b).currentIsHtml "optgroup" then
        (if inGroup then b.closeOption else b).pop else if inGroup then b.closeOption else b) := by
    grind
  exact closed _

theorem onceAfter_inSelect : OnceAfter name (inSelect token b) := by
  have head := onceAfter_inHead once fits
  generalize outcome : Builder.inHead token b = result at head
  unfold inSelect
  dsimp only
  split
  · exact once.insertCharacter _
  · exact once.insertComment _
  · rw [outcome]
    repeat' apply onceAfter_ite
    all_goals grind
  · repeat' apply onceAfter_ite
    all_goals grind
  · exact onceAfter_inBody once stable fits
  · exact once

theorem onceAfter_inSelectInTable : OnceAfter name (inSelectInTable token b) := by
  have select := onceAfter_inSelect once stable fits
  unfold inSelectInTable
  dsimp only
  split
  · exact onceAfter_ite once.leaveSelect select
  · exact onceAfter_ite (onceAfter_ite once.leaveSelect once) select
  · exact select

/-! ## Rules around the body -/

omit stable fits in
theorem onceAfter_initial : OnceAfter name (initial token b) := by
  unfold initial
  split
  · exact onceAfter_ite once (once.of_same rfl rfl)
  · exact once.insertCommentIn _ _
  · exact once.of_same rfl rfl

omit stable in
theorem onceAfter_beforeHtml : OnceAfter name (beforeHtml token b) := by
  have rooted : OnceAfter name ((b.openRoot []).retry .beforeHead) :=
    (once.openRoot (Markup.Attribute.once_of_absent rfl)).of_same rfl rfl
  unfold beforeHtml
  cases token with
  | character c => exact onceAfter_ite once rooted
  | comment text => exact once.insertCommentIn _ _
  | startTag tag => exact onceAfter_ite ((once.openRoot fits).of_same rfl rfl) rooted
  | endTag tag => exact onceAfter_ite rooted once
  | _ => exact rooted

omit stable fits in
@[grind ←] theorem Once.openHead {tag : Tag} (single : Attribute.Once name tag.attributes) :
    (b.openHead tag).Once name :=
  (once.insertOpen .html "head" single).of_same rfl rfl

omit stable in
theorem onceAfter_beforeHead : OnceAfter name (beforeHead token b) := by
  have empty : Attribute.Once name (Tag.attributes ⟨"head", [], false⟩) :=
    Markup.Attribute.once_of_absent rfl
  have opened : OnceAfter name ((b.openHead ⟨"head", [], false⟩).retry .inHead) :=
    (once.openHead empty).of_same rfl rfl
  unfold beforeHead
  cases token with
  | character c => exact onceAfter_ite once opened
  | comment text => exact once.insertComment _
  | startTag tag =>
    exact onceAfter_ite (once.mergeRoot fits)
      (onceAfter_ite ((once.openHead fits).of_same rfl rfl) opened)
  | endTag tag => exact onceAfter_ite opened once
  | _ => exact opened

omit stable in
theorem onceAfter_lateHeadElement : OnceAfter name (lateHeadElement token b) := by
  unfold lateHeadElement
  split
  · exact once
  · rename_i id _
    have reopened : Builder.Once name
        { b with opened := ⟨id, ⟨.html, "head"⟩, false⟩ :: b.opened } :=
      ⟨once.dom, once.formatting⟩
    exact Once.removeOpened (onceAfter_inHead reopened fits) id

omit stable in
theorem onceAfter_afterHead : OnceAfter name (afterHead token b) := by
  have opened : OnceAfter name ((b.openEmpty "body").retry .inBody) :=
    (once.openEmpty "body").of_same rfl rfl
  unfold afterHead
  cases token with
  | character c => exact onceAfter_ite (once.insertCharacter c) opened
  | comment text => exact once.insertComment _
  | startTag tag =>
    exact onceAfter_ite (once.mergeRoot fits)
      (onceAfter_ite ((once.openTag fits).of_same rfl rfl)
        (onceAfter_ite ((once.openTag fits).of_same rfl rfl)
          (onceAfter_ite (onceAfter_lateHeadElement once fits) (onceAfter_ite once opened))))
  | endTag tag => exact onceAfter_ite once.closeTemplate (onceAfter_ite opened once)
  | _ => exact opened

omit stable fits in
theorem onceAfter_inText : OnceAfter name (inText token b) := by
  unfold inText
  split
  · exact once.insertCharacter _
  · exact once.pop.of_same rfl rfl
  · exact once.pop.of_same rfl rfl
  · exact once

theorem onceAfter_afterBody : OnceAfter name (afterBody token b) := by
  have back : OnceAfter name (b.retry .inBody) := once.of_same rfl rfl
  unfold afterBody
  cases token with
  | character c => exact onceAfter_ite (onceAfter_inBody once stable fits) back
  | comment text =>
    dsimp only
    split
    · exact once.insertCommentIn _ _
    · exact once
  | startTag tag => exact onceAfter_ite (once.mergeRoot fits) back
  | endTag tag => exact onceAfter_ite (onceAfter_ite once (once.of_same rfl rfl)) back
  | endOfInput => exact once
  | _ => exact back

omit stable in
theorem onceAfter_inFrameset : OnceAfter name (inFrameset token b) := by
  unfold inFrameset
  cases token with
  | character c =>
    dsimp only
    split
    · exact once.insertCharacter c
    · exact once
  | comment text => exact once.insertComment _
  | startTag tag =>
    exact onceAfter_ite (once.mergeRoot fits) (onceAfter_ite (once.openTag fits)
      (onceAfter_ite (once.insertVoid fits) (onceAfter_ite (onceAfter_inHead once fits) once)))
  | endTag tag => exact onceAfter_ite (onceAfter_ite (once.pop.of_same rfl rfl) once.pop) once
  | _ => exact once

omit stable in
theorem onceAfter_afterFrameset : OnceAfter name (afterFrameset token b) := by
  unfold afterFrameset
  cases token with
  | character c =>
    dsimp only
    split
    · exact once.insertCharacter c
    · exact once
  | comment text => exact once.insertComment _
  | startTag tag =>
    exact onceAfter_ite (once.mergeRoot fits) (onceAfter_ite (onceAfter_inHead once fits) once)
  | endTag tag => exact onceAfter_ite (once.of_same rfl rfl) once
  | _ => exact once

theorem onceAfter_afterAfterBody : OnceAfter name (afterAfterBody token b) := by
  have back : OnceAfter name (b.retry .inBody) := once.of_same rfl rfl
  unfold afterAfterBody
  cases token with
  | character c => exact onceAfter_ite (onceAfter_inBody once stable fits) back
  | comment text => exact once.insertCommentIn _ _
  | startTag tag => exact onceAfter_ite (once.mergeRoot fits) back
  | endOfInput => exact once
  | _ => exact back

theorem onceAfter_afterAfterFrameset : OnceAfter name (afterAfterFrameset token b) := by
  unfold afterAfterFrameset
  cases token with
  | character c => exact onceAfter_ite (onceAfter_inBody once stable fits) once
  | comment text => exact once.insertCommentIn _ _
  | startTag tag =>
    exact onceAfter_ite (once.mergeRoot fits) (onceAfter_ite (onceAfter_inHead once fits) once)
  | _ => exact once

theorem onceAfter_rule (mode : Mode) : OnceAfter name (rule mode token b) := by
  cases mode with
  | initial => exact onceAfter_initial once
  | beforeHtml => exact onceAfter_beforeHtml once fits
  | beforeHead => exact onceAfter_beforeHead once fits
  | inHead => exact onceAfter_inHead once fits
  | afterHead => exact onceAfter_afterHead once fits
  | inBody => exact onceAfter_inBody once stable fits
  | text => exact onceAfter_inText once
  | inTable => exact onceAfter_inTable once stable fits
  | inTableText => exact onceAfter_inTableText once
  | inCaption => exact onceAfter_inCaption once stable fits
  | inColumnGroup => exact onceAfter_inColumnGroup once stable fits
  | inTableBody => exact onceAfter_inTableBody once stable fits
  | inRow => exact onceAfter_inRow once stable fits
  | inCell => exact onceAfter_inCell once stable fits
  | inSelect => exact onceAfter_inSelect once stable fits
  | inSelectInTable => exact onceAfter_inSelectInTable once stable fits
  | inTemplate => exact onceAfter_inTemplate once stable fits
  | afterBody => exact onceAfter_afterBody once stable fits
  | inFrameset => exact onceAfter_inFrameset once fits
  | afterFrameset => exact onceAfter_afterFrameset once fits
  | afterAfterBody => exact onceAfter_afterAfterBody once stable fits
  | afterAfterFrameset => exact onceAfter_afterAfterFrameset once stable fits

/-! ## Drawings and formulas -/

theorem onceAfter_leaveForeign : OnceAfter name (leaveForeign token b) :=
  onceAfter_rule (once.closeUntil _) stable fits _

theorem onceAfter_endForeign (tag : String) (first : Bool) (opened : List OpenElement) :
    OnceAfter name (endForeign token tag b first opened) := by
  induction opened generalizing first with
  | nil => exact once
  | cons e below ih =>
    cases below with
    | nil => exact once
    | cons e' rest =>
      rw [endForeign]
      · exact onceAfter_ite (onceAfter_rule once stable fits _)
          (onceAfter_ite (once.of_same rfl rfl) (ih false))
      · simp

theorem onceAfter_inForeignContent : OnceAfter name (inForeignContent token b) := by
  unfold inForeignContent
  cases token with
  | null => exact once.insertCharacter _
  | character c =>
    dsimp only
    split
    · exact once.insertCharacter c
    · exact once.forbidFrameset.insertCharacter c
  | comment text => exact once.insertComment _
  | startTag tag =>
    exact onceAfter_ite (onceAfter_leaveForeign once stable fits)
      (once.openForeign fits stable _ _)
  | endTag tag =>
    exact onceAfter_ite (onceAfter_leaveForeign once stable fits)
      (onceAfter_endForeign once stable fits _ _ _)
  | _ => exact once

/-! ## Reading -/

theorem onceAfter_dispatch : OnceAfter name (dispatch token b) :=
  onceAfter_ite (onceAfter_inForeignContent once stable fits) (onceAfter_rule once stable fits _)

omit once in
theorem Once.offer (bound : Nat) {b : Builder} (once : b.Once name) :
    (offer token bound b).1.Once name := by
  induction bound generalizing b with
  | zero => exact once
  | succ bound ih =>
    have after := onceAfter_dispatch once stable fits
    rw [Builder.offer]
    generalize Builder.dispatch token b = result at after ⊢
    split
    · exact after
    · exact after
    · exact ih after

theorem Once.take : (take token b).1.Once name := by
  have ready : Builder.Once name { b with skipsLineFeed := false } := ⟨once.dom, once.formatting⟩
  unfold Builder.take
  dsimp only
  split
  · exact ready
  · unfold Builder.takeDoctype
    split
    · exact ⟨(ready.dom.make (once_doctype _ _ _)).append _ _, ready.formatting⟩
    · exact ready
  · split
    · exact ready
    · exact Once.offer stable fits _ ready

end Rules

end Builder

section Reading

variable {name : String}

theorem Reading.takeToken_once {r : Reading} (once : r.builder.Once name) (stable : Stable name)
    {token : Token} (fits : token.Once name) : (r.takeToken token).builder.Once name :=
  once.take stable fits

theorem Reading.run_once (stable : Stable name) (bound : Nat) (cs : List Char) {r : Reading}
    (once : r.builder.Once name) : (Reading.run bound cs r).builder.Once name := by
  induction bound generalizing cs r with
  | zero => exact once
  | succ bound ih =>
    cases cs with
    | nil => exact once
    | cons c cs =>
      rw [Reading.run]
      have taken : ∀ (tokens : List Token) (r : Reading), (∀ token ∈ tokens, token.Once name) →
          r.builder.Once name → (tokens.foldl Reading.takeToken r).builder.Once name := by
        intro tokens
        induction tokens with
        | nil => exact fun _ _ once => once
        | cons token rest ih =>
          intro r fit once
          simp only [List.mem_cons, forall_eq_or_imp] at fit
          exact ih _ fit.2 (Reading.takeToken_once once stable fit.1)
      exact ih _ (taken _ _ (once_scan _ _ _ _ _) once)

theorem readWith_once (stable : Stable name) {b : Builder} (once : b.Once name)
    (source : List Char) : (readWith b source).Once name := by
  have read := Reading.run_once (r := ⟨.data, "", b⟩) stable (prepare source).length
    (prepare source) once
  exact Reading.takeToken_once read stable trivial

theorem emptyBuilder_once (isFragment : Bool) : (emptyBuilder isFragment).Once name :=
  ⟨by simp [emptyBuilder, Dom.Once, Content.Once], by simp [emptyBuilder, OnceEntries]⟩

/-! ## Forests -/

theorem everywhere_forest {d : Dom} (once : d.Once name) (depth : Nat) (ids : List NodeId) :
    Everywhere (fun _ attributes => Attribute.Once name attributes) (d.forest depth ids) := by
  induction depth generalizing ids with
  | zero => simp [Dom.forest]
  | succ depth ih =>
    rw [Dom.forest]
    induction ids with
    | nil => simp
    | cons id rest rest_ih =>
      rw [List.flatMap_cons, Markup.everywhere_append]
      refine ⟨?_, rest_ih⟩
      split
      · rename_i tag attributes contents parent children found
        have single : Attribute.Once name attributes := once _ (Array.mem_of_getElem? found)
        exact Markup.everywhere_element_cons.2 ⟨single, ih _, Markup.everywhere_nil⟩
      all_goals simp

theorem everywhere_readFragment (stable : Stable name) (source : List Char) :
    Everywhere (fun _ attributes => Attribute.Once name attributes) (readFragment source) := by
  have empty : Attribute.Once name [] := Markup.Attribute.once_of_absent rfl
  have read := readWith_once stable ((emptyBuilder_once true).openRoot empty) source
  unfold readFragment
  dsimp only
  split
  · exact everywhere_forest read.dom _ _
  · exact Markup.everywhere_nil

end Reading

end ComponentCompiler.Html

namespace ComponentCompiler.Markup

theorem once_parseFragment {name : String} (stable : Html.Stable name) (source : String) :
    Everywhere (fun _ attributes => Attribute.Once name attributes) (parseFragment source) :=
  Html.everywhere_readFragment stable _

end ComponentCompiler.Markup
