import ComponentCompiler.Html.Lexer
import ComponentCompiler.Proofs.Text.Scanning
import Mathlib.Data.List.DropRight

namespace ComponentCompiler.Html

open Text (Stops dropWhile_append_of_stops isAsciiBlank ne_of_holds stops_append_cons
  takeWhile_append_of_stops)

theorem normalizeNewlines_cons {c : Char} (kept : c ≠ '\r') (cs : List Char) :
    normalizeNewlines (c :: cs) = c :: normalizeNewlines cs := by
  simp [normalizeNewlines, kept]

theorem normalizeNewlines_append (xs : List Char) {ys : List Char} (stops : Stops (· = '\n') ys) :
    normalizeNewlines (xs ++ ys) = normalizeNewlines xs ++ normalizeNewlines ys := by
  fun_induction normalizeNewlines xs with
  | case1 xs ih => simp [normalizeNewlines, ih]
  | case2 xs alone ih =>
    have apart : ∀ cs, xs ++ ys ≠ '\n' :: cs := by
      intro cs same
      cases xs with
      | nil =>
        rw [List.nil_append] at same
        simpa using stops '\n' (by rw [same]; rfl)
      | cons x xs =>
        rw [List.cons_append, List.cons.injEq] at same
        exact alone xs (by rw [same.1])
    rw [List.cons_append, normalizeNewlines.eq_2 _ apart, ih, List.cons_append]
  | case3 x xs _ kept ih =>
    rw [List.cons_append, normalizeNewlines_cons kept, ih, List.cons_append]
  | case4 => rfl

theorem normalizeNewlines_append_cons (xs : List Char) {c : Char} {ys : List Char}
    (unbroken : c ≠ '\n') :
    normalizeNewlines (xs ++ c :: ys) = normalizeNewlines xs ++ normalizeNewlines (c :: ys) :=
  normalizeNewlines_append xs (by simpa [Stops] using unbroken)

theorem normalizeNewlines_append_of_not_mem {xs : List Char} (unreturned : '\r' ∉ xs)
    (ys : List Char) : normalizeNewlines (xs ++ ys) = xs ++ normalizeNewlines ys := by
  induction xs with
  | nil => rfl
  | cons x xs ih =>
    simp only [List.mem_cons, not_or] at unreturned
    rw [List.cons_append, normalizeNewlines_cons (Ne.symm unreturned.1), ih unreturned.2,
      List.cons_append]

theorem mem_normalizeNewlines {c : Char} {cs : List Char} (member : c ∈ normalizeNewlines cs) :
    c = '\n' ∨ (c ∈ cs ∧ c ≠ '\r') := by
  fun_induction normalizeNewlines cs with grind

theorem normalizeNewlines_ne_nil {cs : List Char} (nonempty : cs ≠ []) :
    normalizeNewlines cs ≠ [] := by
  fun_cases normalizeNewlines cs with simp_all

theorem length_normalizeNewlines_le_append (xs ys : List Char) :
    (normalizeNewlines ys).length ≤ (normalizeNewlines (xs ++ ys)).length := by
  have step (x : Char) (cs : List Char) :
      (normalizeNewlines cs).length ≤ (normalizeNewlines (x :: cs)).length := by
    by_cases broken : x = '\r'
    · subst broken
      rcases cs with _ | ⟨c, cs⟩
      · exact Nat.zero_le _
      · by_cases feed : c = '\n' <;> simp [normalizeNewlines, feed]
    · simp [normalizeNewlines_cons broken]
  induction xs with
  | nil => exact Nat.le_refl _
  | cons x xs ih => exact ih.trans (step x (xs ++ ys))

theorem isSpace_of_mem_normalizeNewlines {cs : List Char}
    (blank : ∀ c ∈ cs, isAsciiBlank c = true) : ∀ c ∈ normalizeNewlines cs, isSpace c = true := by
  intro c member
  obtain rfl | ⟨member, kept⟩ := mem_normalizeNewlines member
  · rfl
  · have here := blank c member
    simp only [isAsciiBlank, isSpace, Bool.or_eq_true, decide_eq_true_eq] at here ⊢
    tauto

theorem tagRest?_dropWhile (bound : Nat) (cs : List Char) :
    tagRest? bound (cs.dropWhile isSpace) = tagRest? bound cs := by
  cases bound <;> simp [tagRest?, List.dropWhile_idempotent]

theorem tagRest?_append_of_space {xs : List Char} (space : ∀ c ∈ xs, isSpace c = true)
    (bound : Nat) (cs : List Char) : tagRest? bound (xs ++ cs) = tagRest? bound cs := by
  rw [← tagRest?_dropWhile, List.dropWhile_append_of_pos space, tagRest?_dropWhile]

structure IsName (name : List Char) : Prop where
  nonempty : name ≠ []
  inside : ∀ c ∈ name, endsAttributeName c = false

variable {name before after text rest : List Char} {q : Char} {bound : Nat}

theorem IsName.cons (isName : IsName name) : ∃ c more, name = c :: more ∧
    ((isSpace c = false ∧ c ≠ '/') ∧ c ≠ '>') ∧ ∀ d ∈ more, (!endsAttributeName d) = true := by
  obtain ⟨c, more, rfl⟩ := List.exists_cons_of_ne_nil isName.nonempty
  have inside := isName.inside
  simp only [List.mem_cons, forall_eq_or_imp] at inside
  have first := inside.1
  simp only [endsAttributeName, endsTagName, Bool.or_eq_false_iff, decide_eq_false_iff_not] at first
  exact ⟨c, more, rfl, first.1, by simpa using inside.2⟩

/-- A text that ends the attribute before it: white space and no sign, or a slash. -/
def EndsAttribute (rest : List Char) : Prop :=
  ∃ gap c cs, rest = gap ++ c :: cs ∧ (∀ d ∈ gap, isSpace d = true) ∧ isSpace c = false ∧
    c ≠ '=' ∧ (gap = [] → c = '/')

theorem EndsAttribute.stopsTagName (ends : EndsAttribute rest) : Stops (!endsTagName ·) rest := by
  obtain ⟨gap, c, cs, rfl, space, -, -, slash⟩ := ends
  cases gap with
  | nil => simp [Stops, slash rfl, endsTagName]
  | cons d gap => simp [Stops, space d (by simp), endsTagName]

theorem EndsAttribute.stops (ends : EndsAttribute rest) : Stops (!endsAttributeName ·) rest := by
  intro c member
  have stops := ends.stopsTagName c member
  rw [Bool.not_eq_false'] at stops ⊢
  rw [endsAttributeName, stops, Bool.true_or]

theorem EndsAttribute.unassigned (ends : EndsAttribute rest) (text : List Char) :
    rest.dropWhile isSpace ≠ '=' :: text := by
  obtain ⟨gap, c, cs, rfl, space, solid, other, -⟩ := ends
  rw [List.dropWhile_append_of_pos space]
  simp [solid, other]

theorem tagRest?_alone (isName : IsName name) (ends : EndsAttribute rest) :
    tagRest? (bound + 1) (name ++ rest) = (tagRest? bound rest).map (TagRest.add name []) := by
  obtain ⟨c, more, rfl, first, inside⟩ := isName.cons
  simp [tagRest?, first, takeWhile_append_of_stops inside ends.stops,
    dropWhile_append_of_stops inside ends.stops, tagRest?_dropWhile, ends.unassigned]

theorem tagRest?_assigned (isName : IsName name) (spaceBefore : ∀ c ∈ before, isSpace c = true)
    (spaceAfter : ∀ c ∈ after, isSpace c = true) (starts : isSpace q = false) (holds : q ≠ '>') :
    tagRest? (bound + 1) (name ++ (before ++ '=' :: (after ++ q :: rest))) =
      if q = '"' ∨ q = '\'' then
        (tagRest? bound (rest.dropWhile (· ≠ q)).tail).map
          (TagRest.add name (rest.takeWhile (· ≠ q)))
      else
        (tagRest? bound (rest.dropWhile (!endsUnquoted ·))).map
          (TagRest.add name (q :: rest.takeWhile (!endsUnquoted ·))) := by
  obtain ⟨c, more, rfl, first, inside⟩ := isName.cons
  have stops : Stops (!endsAttributeName ·) (before ++ '=' :: (after ++ q :: rest)) :=
    stops_append_cons (fun d member => by
      simp [endsAttributeName, endsTagName, spaceBefore d member]) rfl
  have sign : isSpace '=' = false := rfl
  simp [tagRest?, first, takeWhile_append_of_stops inside stops,
    dropWhile_append_of_stops inside stops, List.dropWhile_append_of_pos spaceBefore,
    List.dropWhile_append_of_pos spaceAfter, sign, starts]

theorem tagRest?_quoted (isName : IsName name) (spaceBefore : ∀ c ∈ before, isSpace c = true)
    (spaceAfter : ∀ c ∈ after, isSpace c = true) (isQuote : q = '"' ∨ q = '\'')
    (unquoted : q ∉ text) :
    tagRest? (bound + 1) (name ++ (before ++ '=' :: (after ++ q :: (text ++ q :: rest)))) =
      (tagRest? bound rest).map (TagRest.add name text) := by
  have inside : ∀ c ∈ text, decide (c ≠ q) = true := by
    intro c member
    exact decide_eq_true fun same => unquoted (same ▸ member)
  have stops : Stops (fun c => decide (c ≠ q)) (q :: rest) := by simp [Stops]
  have kind : isSpace q = false ∧ q ≠ '>' := by obtain rfl | rfl := isQuote <;> decide
  rw [tagRest?_assigned isName spaceBefore spaceAfter kind.1 kind.2, if_pos isQuote,
    takeWhile_append_of_stops inside stops, dropWhile_append_of_stops inside stops, List.tail_cons]

theorem tagRest?_unquoted (isName : IsName name) (spaceBefore : ∀ c ∈ before, isSpace c = true)
    (spaceAfter : ∀ c ∈ after, isSpace c = true) (nonempty : text ≠ [])
    (starts : ∀ c ∈ text.head?, ¬ (c = '"' ∨ c = '\''))
    (inside : ∀ c ∈ text, (!endsUnquoted c) = true) (stops : Stops (!endsUnquoted ·) rest) :
    tagRest? (bound + 1) (name ++ (before ++ '=' :: (after ++ (text ++ rest)))) =
      (tagRest? bound rest).map (TagRest.add name text) := by
  obtain ⟨c, more, rfl⟩ := List.exists_cons_of_ne_nil nonempty
  simp only [List.mem_cons, forall_eq_or_imp] at inside
  have first := inside.1
  simp only [endsUnquoted, Bool.not_eq_true', Bool.or_eq_false_iff, decide_eq_false_iff_not] at first
  rw [List.cons_append, tagRest?_assigned isName spaceBefore spaceAfter first.1 first.2,
    if_neg (starts c rfl), takeWhile_append_of_stops inside.2 stops,
    dropWhile_append_of_stops inside.2 stops]

theorem scan_opening {c : Char} (isLetter : Text.isAsciiLetter c = true) (opener : String)
    (inForeign : Bool) (cs : List Char) :
    scan .data opener inForeign '<' (c :: cs) = scanTag false (c :: cs) := by
  have exclamation : c ≠ '!' := ne_of_holds isLetter (by decide)
  have question : c ≠ '?' := ne_of_holds isLetter (by decide)
  have slash : c ≠ '/' := ne_of_holds isLetter (by decide)
  simp [scan, scanMarkup, isLetter]

end ComponentCompiler.Html
