import ComponentCompiler.Markup.SelfClosing
import ComponentCompiler.Proofs.Text.Scanning

namespace ComponentCompiler.Markup

open Text (isBlank ne_of_holds)

def AttributeState.IsBetween (s : AttributeState) : Prop :=
  s = .beforeName ∨ s = .name ∨ s = .afterName ∨ s = .unquoted

namespace AttributeState

def spaced : AttributeState → AttributeState
  | .name => .afterName
  | .unquoted => .beforeName
  | s => s

variable {s : AttributeState} {cs : List Char}

theorem IsBetween.spaced (between : s.IsBetween) : s.spaced.IsBetween := by
  rcases between with rfl | rfl | rfl | rfl <;> simp [IsBetween, AttributeState.spaced]

theorem IsBetween.isOutside_spaced (between : s.IsBetween) : s.spaced.isOutside = true := by
  rcases between with rfl | rfl | rfl | rfl <;> rfl

theorem foldl_next_of_fixed (fixed : ∀ c ∈ cs, s.next c = s) : cs.foldl next s = s := by
  induction cs with
  | nil => rfl
  | cons c cs ih =>
    simp only [List.mem_cons, forall_eq_or_imp] at fixed
    rw [List.foldl_cons, fixed.1, ih fixed.2]

theorem foldl_next_gap (between : s.IsBetween) (nonempty : cs ≠ [])
    (blank : ∀ c ∈ cs, isBlank c = true) : cs.foldl next s = s.spaced := by
  have unsigned : ∀ c ∈ cs, c ≠ '=' := fun c member => ne_of_holds (blank c member) (by decide)
  obtain ⟨c, cs, rfl⟩ := List.exists_cons_of_ne_nil nonempty
  simp only [List.mem_cons, forall_eq_or_imp] at blank unsigned
  have first : s.next c = s.spaced := by
    rcases between with rfl | rfl | rfl | rfl <;>
      simp [next, AttributeState.spaced, blank.1, unsigned.1]
  rw [List.foldl_cons, first]
  refine foldl_next_of_fixed fun d member => ?_
  rcases between with rfl | rfl | rfl | rfl <;>
    simp [next, AttributeState.spaced, blank.2 d member, unsigned.2 d member]

theorem foldl_next_name (between : s.IsBetween) (nonempty : cs ≠ [])
    (solid : ∀ c ∈ cs, isBlank c = false) (unsigned : ∀ c ∈ cs, c ≠ '=') :
    cs.foldl next s.spaced = .name := by
  obtain ⟨c, cs, rfl⟩ := List.exists_cons_of_ne_nil nonempty
  simp only [List.mem_cons, forall_eq_or_imp] at solid unsigned
  have first : s.spaced.next c = .name := by
    rcases between with rfl | rfl | rfl | rfl <;>
      simp [next, AttributeState.spaced, solid.1, unsigned.1]
  rw [List.foldl_cons, first]
  exact foldl_next_of_fixed fun d member => by simp [next, solid.2 d member, unsigned.2 d member]

theorem foldl_next_sign {before after : List Char} (blankBefore : ∀ c ∈ before, isBlank c = true)
    (blankAfter : ∀ c ∈ after, isBlank c = true) (cs : List Char) :
    (before ++ '=' :: (after ++ cs)).foldl next .name = cs.foldl next .beforeValue := by
  have signed : (before.foldl next .name).next '=' = .beforeValue := by
    by_cases nothing : before = []
    · rw [nothing]; rfl
    · rw [foldl_next_gap (.inr (.inl rfl)) nothing blankBefore]; rfl
  have waits : after.foldl next .beforeValue = .beforeValue :=
    foldl_next_of_fixed fun c member => by simp [next, blankAfter c member]
  rw [List.foldl_append, List.foldl_cons, signed, List.foldl_append, waits]

theorem foldl_next_unquoted {text : List Char} (nonempty : text ≠ [])
    (starts : ∀ c ∈ text.head?, c ≠ '"' ∧ c ≠ '\'') (solid : ∀ c ∈ text, isBlank c = false) :
    text.foldl next .beforeValue = .unquoted := by
  obtain ⟨c, more, rfl⟩ := List.exists_cons_of_ne_nil nonempty
  obtain ⟨double, single⟩ := starts c rfl
  simp only [List.mem_cons, forall_eq_or_imp] at solid
  have first : next .beforeValue c = .unquoted := by simp [next, solid.1, double, single]
  rw [List.foldl_cons, first]
  exact foldl_next_of_fixed fun d member => by simp [next, solid.2 d member]

theorem foldl_next_of_not_mem {q : Char} (unclosed : q ∉ cs) :
    cs.foldl next (.quoted q) = .quoted q := by
  refine foldl_next_of_fixed fun c member => ?_
  have other : c ≠ q := fun same => unclosed (same ▸ member)
  simp [next, other]

theorem foldl_next_quoted {q : Char} {text : List Char} (isQuote : q = '"' ∨ q = '\'')
    (unclosed : q ∉ text) : (q :: text).foldl next .beforeValue = .quoted q := by
  have first : next .beforeValue q = .quoted q := by rcases isQuote with rfl | rfl <;> rfl
  rw [List.foldl_cons, first, foldl_next_of_not_mem unclosed]

theorem foldl_next_flatMap {α : Type} {chars : α → List Char} {final : α → AttributeState}
    {attributes : List α} (between : s.IsBetween)
    (step : ∀ a ∈ attributes, (final a).IsBetween ∧
      ∀ ⦃s : AttributeState⦄, s.IsBetween → (chars a).foldl next s = final a) :
    (attributes.flatMap chars).foldl next s = (attributes.getLast?.map final).getD s := by
  induction attributes generalizing s with
  | nil => rfl
  | cons a attributes ih =>
    rw [List.forall_mem_cons] at step
    rw [List.flatMap_cons, List.foldl_append, step.1.2 between, ih step.1.1 step.2]
    cases attributes with
    | nil => rfl
    | cons b rest => rw [List.getLast?_cons_cons, List.getLast?_cons]; rfl

end AttributeState

structure SpacedName where
  gap : List Char
  name : List Char
  apart : gap ≠ [] := by simp
  blank : ∀ c ∈ gap, isBlank c = true := by simp [ComponentCompiler.Text.isBlank]
  named : name ≠ [] := by simp
  solid : ∀ c ∈ name, isBlank c = false := by simp [ComponentCompiler.Text.isBlank]
  allowed : ∀ c ∈ name, c ∉ ['=', '/', '"', '\''] := by simp

/-- What follows a name: nothing, or the sign with the white space around it and a value.  A value
without quotes may hold them, but does not start with one. -/
inductive SpacedValue
  | absent
  | unquoted (before after text : List Char)
    (blankBefore : ∀ c ∈ before, isBlank c = true := by simp [ComponentCompiler.Text.isBlank])
    (blankAfter : ∀ c ∈ after, isBlank c = true := by simp [ComponentCompiler.Text.isBlank])
    (nonempty : text ≠ [] := by simp)
    (starts : ∀ c ∈ text.head?, c ≠ '"' ∧ c ≠ '\'' := by simp)
    (solid : ∀ c ∈ text, isBlank c = false := by simp [ComponentCompiler.Text.isBlank])
  | quoted (before after : List Char) (quote : Char) (text : List Char)
    (blankBefore : ∀ c ∈ before, isBlank c = true := by simp [ComponentCompiler.Text.isBlank])
    (blankAfter : ∀ c ∈ after, isBlank c = true := by simp [ComponentCompiler.Text.isBlank])
    (isQuote : quote = '"' ∨ quote = '\'' := by simp) (unclosed : quote ∉ text := by simp)

structure SpacedAttribute extends SpacedName where
  value : SpacedValue

/-- An attribute whose value is opened by a quote and goes on without it. -/
structure OpenedAttribute extends SpacedName where
  before : List Char
  after : List Char
  quote : Char
  text : List Char
  blankBefore : ∀ c ∈ before, isBlank c = true := by simp [ComponentCompiler.Text.isBlank]
  blankAfter : ∀ c ∈ after, isBlank c = true := by simp [ComponentCompiler.Text.isBlank]
  isQuote : quote = '"' ∨ quote = '\'' := by simp
  unclosed : quote ∉ text := by simp

structure AttributeLayout where
  attributes : List SpacedAttribute
  ending : List Char
  blank : ∀ c ∈ ending, isBlank c = true := by simp [ComponentCompiler.Text.isBlank]

namespace SpacedValue

def chars : SpacedValue → List Char
  | .absent => []
  | .unquoted before after text .. => before ++ '=' :: (after ++ text)
  | .quoted before after quote text .. => before ++ '=' :: (after ++ quote :: (text ++ [quote]))

def isUnquoted : SpacedValue → Bool
  | .unquoted .. => true
  | _ => false

def final : SpacedValue → AttributeState
  | .absent => .name
  | .unquoted .. => .unquoted
  | .quoted .. => .beforeName

theorem final_isBetween (v : SpacedValue) : v.final.IsBetween := by
  cases v <;> simp [final, AttributeState.IsBetween]

theorem isOutside_final (v : SpacedValue) : v.final.isOutside = !v.isUnquoted := by
  cases v <;> rfl

end SpacedValue

def SpacedAttribute.chars (a : SpacedAttribute) : List Char :=
  a.gap ++ (a.name ++ a.value.chars)

def OpenedAttribute.chars (a : OpenedAttribute) : List Char :=
  a.gap ++ (a.name ++ (a.before ++ '=' :: (a.after ++ a.quote :: a.text)))

namespace AttributeLayout

def chars (l : AttributeLayout) : List Char :=
  l.attributes.flatMap SpacedAttribute.chars ++ l.ending

/-- Whether a value without quotes stands at the very end. -/
def EndsUnquoted (l : AttributeLayout) : Prop :=
  (∃ a, l.attributes.getLast? = some a ∧ a.value.isUnquoted = true) ∧ l.ending = []

end AttributeLayout

open AttributeState

variable {s : AttributeState}

theorem SpacedName.foldl_next (a : SpacedName) (between : s.IsBetween) (rest : List Char) :
    (a.gap ++ (a.name ++ rest)).foldl next s = rest.foldl next .name := by
  have unsigned : ∀ c ∈ a.name, c ≠ '=' := fun c member sign =>
    a.allowed c member (by simp [sign])
  rw [List.foldl_append, foldl_next_gap between a.apart a.blank, List.foldl_append,
    foldl_next_name between a.named a.solid unsigned]

theorem SpacedAttribute.foldl_next (a : SpacedAttribute) (between : s.IsBetween) :
    a.chars.foldl next s = a.value.final := by
  rw [chars, a.toSpacedName.foldl_next between]
  cases a.value with
  | absent => rfl
  | unquoted before after text blankBefore blankAfter nonempty starts solid =>
    exact (foldl_next_sign blankBefore blankAfter text).trans
      (foldl_next_unquoted nonempty starts solid)
  | quoted before after q text blankBefore blankAfter isQuote unclosed =>
    rw [SpacedValue.chars, foldl_next_sign blankBefore blankAfter, ← List.cons_append,
      List.foldl_append, foldl_next_quoted isQuote unclosed]
    simp [next, SpacedValue.final]

theorem OpenedAttribute.foldl_next (a : OpenedAttribute) (between : s.IsBetween) :
    a.chars.foldl next s = .quoted a.quote := by
  rw [chars, a.toSpacedName.foldl_next between, foldl_next_sign a.blankBefore a.blankAfter,
    foldl_next_quoted a.isQuote a.unclosed]

namespace AttributeLayout

variable (l : AttributeLayout)

def final : AttributeState :=
  (l.attributes.getLast?.map (·.value.final)).getD .beforeName

theorem final_isBetween : l.final.IsBetween := by
  rw [final]
  cases l.attributes.getLast? with
  | none => exact .inl rfl
  | some a => exact a.value.final_isBetween

theorem isOutside_final :
    l.final.isOutside = false ↔ ∃ a, l.attributes.getLast? = some a ∧ a.value.isUnquoted = true := by
  rw [final]
  cases l.attributes.getLast? with
  | none => simp [AttributeState.isOutside]
  | some a => simp [SpacedValue.isOutside_final]

theorem foldl_next_chars :
    l.chars.foldl next .beforeName = if l.ending = [] then l.final else l.final.spaced := by
  have attributes := foldl_next_flatMap (s := .beforeName) (.inl rfl) fun a (_ : a ∈ l.attributes) =>
    ⟨a.value.final_isBetween, fun _ between => a.foldl_next between⟩
  rw [chars, List.foldl_append, attributes, ← final]
  split
  next nothing => rw [nothing]; rfl
  next some_ => exact foldl_next_gap l.final_isBetween some_ l.blank

theorem foldl_next_chars_isBetween : (l.chars.foldl next .beforeName).IsBetween := by
  rw [foldl_next_chars]
  split
  · exact l.final_isBetween
  · exact l.final_isBetween.spaced

end AttributeLayout

/-- A slash after attributes belongs to a value exactly when they end in one without quotes, with no
white space after it, and it always does when one more value is opened by a quote and never closed. -/
theorem slashCloses_layout (l : AttributeLayout) :
    (slashCloses l.chars = false ↔ l.EndsUnquoted) ∧
      ∀ opened : OpenedAttribute, slashCloses (l.chars ++ opened.chars) = false := by
  refine ⟨?_, fun opened => ?_⟩
  · rw [slashCloses, l.foldl_next_chars, AttributeLayout.EndsUnquoted, ← l.isOutside_final]
    split
    next nothing => simp [nothing]
    next some_ => simp [some_, l.final_isBetween.isOutside_spaced]
  · rw [slashCloses, List.foldl_append, opened.foldl_next l.foldl_next_chars_isBetween]
    rfl

def everyForm : AttributeLayout where
  attributes := [
    { gap := ['\n'], name := ['o', 'n'], value := .absent },
    { gap := ['\n'], name := ['t'], value := .quoted [' '] [] '\'' ['x', '=', '"', '/'] },
    { gap := [' ', ' '], name := ['h'], value := .unquoted [] [' '] ['/', 'a', '?', '\'', '='] }]
  ending := []

def openedTitle : OpenedAttribute where
  gap := ['\n']
  name := ['t']
  before := []
  after := ['\t']
  quote := '\''
  text := ['"', '/', ' ']

def everyFormSpaced : AttributeLayout where
  attributes := everyForm.attributes
  ending := [' ']

theorem slashCloses_everyForm :
    slashCloses everyForm.chars = false ∧ slashCloses everyFormSpaced.chars = true ∧
      slashCloses (everyForm.chars ++ openedTitle.chars) = false := by
  have closed := slashCloses_layout everyForm
  have spaced := (slashCloses_layout everyFormSpaced).1
  refine ⟨closed.1.2 ⟨⟨_, rfl, rfl⟩, rfl⟩, ?_, closed.2 openedTitle⟩
  rw [← Bool.not_eq_false]
  intro taken
  have ended : [' '] = [] := (spaced.1 taken).2
  cases ended

end ComponentCompiler.Markup
