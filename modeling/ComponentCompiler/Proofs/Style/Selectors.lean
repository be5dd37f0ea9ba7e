import ComponentCompiler.Proofs.Style.Piece
import ComponentCompiler.Proofs.Text.Words

/-!
# Lists of selectors

The cutting of a selector list knows quotes and brackets, but neither backslashes nor comments.

* `selectors_join_iff`: which lists are cut at their commas.
* `splitsAsListed_of_simple`: lists whose strings, escapes and comments hold nothing that such a
  cutting takes for something else are among them.
* `missplit_not_underClass`: lists that are not.
-/

namespace ComponentCompiler.Style

open Text (trim trimStart isBlank)

/-! ## Selectors -/

def isSelectorFrom (depth : Nat) : List Piece → Bool
  | [] => depth = 0
  | .char c :: ps =>
    if c = '(' || c = '[' then isSelectorFrom (depth + 1) ps
    else if c = ')' || c = ']' then depth ≠ 0 && isSelectorFrom (depth - 1) ps
    else !(depth = 0 && c = ',') && isSelectorFrom depth ps
  | _ :: ps => isSelectorFrom depth ps

/-- A selector as a browser reads it. -/
structure Selector where
  pieces : List Piece
  closed : areClosed true pieces = true := by decide
  single : isSelectorFrom 0 pieces = true := by decide
  nonempty : pieces ≠ [] := by decide
  trimmed : trim (pieceChars pieces) = pieceChars pieces := by decide

def Selector.text (s : Selector) : List Char :=
  pieceChars s.pieces

def underClass (className s : List Char) : List Char :=
  '.' :: (className ++ ' ' :: s)

/-! ## How a list is cut -/

abbrev Standing := Option Char × Nat

def outermost : Standing := (none, 0)

/-- Where the splitter stands after a character; none when it cuts there.  Neither a backslash nor
the start of a comment means anything to it. -/
def Standing.next? : Standing → Char → Option Standing
  | (some q, depth), c => some (if c = q then none else some q, depth)
  | (none, depth), c =>
    if isQuote c then some (some c, depth)
    else if c = '(' || c = '[' then some (none, depth + 1)
    else if c = ')' || c = ']' then some (none, depth - 1)
    else if c = ',' && depth = 0 then none
    else some (none, depth)

def Standing.after? (s : Standing) (cs : List Char) : Option Standing :=
  cs.foldlM Standing.next? s

/-- Every text but the last leaves the splitter where it found it, and no text is cut. -/
def SplitsAsListed : List (List Char) → Prop
  | [] => True
  | [last] => (outermost.after? last).isSome = true
  | s :: t :: rest => outermost.after? s = some outermost ∧ SplitsAsListed (t :: rest)

def prepend (xs : List Char) : List (List Char) → List (List Char)
  | [] => [xs]
  | piece :: pieces => (xs ++ piece) :: pieces

theorem prepend_prepend (xs ys : List Char) (pieces : List (List Char)) :
    prepend xs (prepend ys pieces) = prepend (xs ++ ys) pieces := by
  cases pieces <;> simp [prepend]

theorem splitSelectors_cons {s s' : Standing} {c : Char} (goesOn : s.next? c = some s')
    (cs : List Char) :
    splitSelectors s.1 s.2 (c :: cs) = prepend [c] (splitSelectors s'.1 s'.2 cs) := by
  obtain ⟨quote, depth⟩ := s
  cases quote with
  | some q =>
    cases goesOn
    rfl
  | none =>
    simp only [Standing.next?] at goesOn
    simp only [splitSelectors]
    split at goesOn
    next quotes =>
      cases goesOn
      rw [if_pos quotes]
      rfl
    next plain =>
      rw [if_neg plain]
      split at goesOn
      next opens =>
        cases goesOn
        rw [if_pos opens]
        rfl
      next opens =>
        rw [if_neg opens]
        split at goesOn
        next closes =>
          cases goesOn
          rw [if_pos closes]
          rfl
        next closes =>
          rw [if_neg closes]
          split at goesOn
          next => cases goesOn
          next bare =>
            cases goesOn
            rw [if_neg bare]
            rfl

theorem next?_eq_none {s : Standing} {c : Char} (cut : s.next? c = none) :
    s = outermost ∧ c = ',' := by
  obtain ⟨quote, depth⟩ := s
  cases quote with
  | some q => cases cut
  | none =>
    simp only [Standing.next?] at cut
    grind [outermost]

theorem splitSelectors_ne_nil (quote : Option Char) (depth : Nat) (cs : List Char) :
    splitSelectors quote depth cs ≠ [] := by
  cases cs with
  | nil => simp [splitSelectors]
  | cons c cs =>
    cases goesOn : Standing.next? (quote, depth) c with
    | none =>
      obtain ⟨same, rfl⟩ := next?_eq_none goesOn
      cases same
      simp [splitSelectors, isQuote]
    | some s' =>
      rw [splitSelectors_cons (s := (quote, depth)) goesOn]
      cases splitSelectors s'.1 s'.2 cs <;> simp [prepend]

theorem splitSelectors_append {s s' : Standing} {xs : List Char} (stands : s.after? xs = some s')
    (ys : List Char) :
    splitSelectors s.1 s.2 (xs ++ ys) = prepend xs (splitSelectors s'.1 s'.2 ys) := by
  induction xs generalizing s with
  | nil =>
    cases stands
    cases pieces : splitSelectors s'.1 s'.2 ys with
    | nil => exact absurd pieces (splitSelectors_ne_nil _ _ _)
    | cons piece rest => simp [prepend, pieces]
  | cons x xs ih =>
    rw [Standing.after?, List.foldlM_cons] at stands
    obtain ⟨s₁, first, others⟩ := Option.bind_eq_some_iff.1 stands
    rw [List.cons_append, splitSelectors_cons first, ih others, prepend_prepend]
    rfl

theorem exists_cut {s : Standing} {xs : List Char} (cut : s.after? xs = none) :
    ∃ front rest, xs = front ++ ',' :: rest ∧ s.after? front = some outermost := by
  induction xs generalizing s with
  | nil => cases cut
  | cons x xs ih =>
    rw [Standing.after?, List.foldlM_cons] at cut
    cases first : s.next? x with
    | none =>
      obtain ⟨rfl, rfl⟩ := next?_eq_none first
      exact ⟨[], xs, rfl, rfl⟩
    | some s₁ =>
      rw [first] at cut
      obtain ⟨front, rest, rfl, stands⟩ := ih cut
      refine ⟨x :: front, rest, rfl, ?_⟩
      rw [Standing.after?, List.foldlM_cons, first]
      exact stands

/-! ## Trimmed texts -/

theorem length_trim_le (cs : List Char) : (trim cs).length ≤ cs.length := by
  obtain ⟨dropped, parts, -⟩ := Text.exists_dropEndWhile isBlank (trimStart cs)
  have shorter : (trimStart cs).length ≤ cs.length := (List.dropWhile_suffix _).length_le
  rw [parts, List.length_append] at shorter
  exact Nat.le_trans (Nat.le_add_right _ _) shorter

theorem trim_blank_cons {c : Char} (blank : isBlank c = true) (cs : List Char) :
    trim (c :: cs) = trim cs := by
  rw [trim, trimStart, List.dropWhile_cons_of_pos blank]
  rfl

theorem unblank_of_trimmed {c : Char} {cs : List Char} (trimmed : trim (c :: cs) = c :: cs) :
    isBlank c = false := by
  cases blank : isBlank c with
  | false => rfl
  | true =>
    have shorter := length_trim_le cs
    rw [← trim_blank_cons blank, trimmed] at shorter
    exact absurd shorter (Nat.not_succ_le_self _)

theorem isEmpty_trim_of_unblank {c : Char} (solid : isBlank c = false) (cs : List Char) :
    (trim (c :: cs)).isEmpty = false := by
  rw [trim, trimStart, List.dropWhile_cons_of_neg (by simp [solid]), Text.trimEnd,
    Text.dropEndWhile_cons, solid, Bool.and_false]
  rfl

theorem trim_append_cons_ne {s rest : List Char} {c : Char} (trimmed : trim s = s)
    (nonempty : s ≠ []) (solid : isBlank c = false) : trim (s ++ c :: rest) ≠ s := by
  obtain ⟨d, ds, rfl⟩ := List.exists_cons_of_ne_nil nonempty
  intro same
  have starts : trimStart (d :: ds ++ c :: rest) = d :: ds ++ c :: rest :=
    List.dropWhile_cons_of_neg (by simp [unblank_of_trimmed trimmed])
  obtain ⟨dropped, parts, blank⟩ :=
    Text.exists_dropEndWhile isBlank (trimStart (d :: ds ++ c :: rest))
  have kept : Text.dropEndWhile isBlank (trimStart (d :: ds ++ c :: rest)) = d :: ds := same
  rw [kept, starts, List.append_cancel_left_eq] at parts
  have blankComma := blank c (by rw [← parts]; exact List.mem_cons_self)
  rw [solid] at blankComma
  cases blankComma

/-! ## Lists of texts -/

structure IsListed (s : List Char) : Prop where
  nonempty : s ≠ []
  trimmed : trim s = s
  noComma : s.head? ≠ some ','

theorem selectors_blank_cons (cs : List Char) : selectors (' ' :: cs) = selectors cs := by
  have goesOn : outermost.next? ' ' = some outermost := rfl
  have pieces : splitSelectors none 0 (' ' :: cs) = prepend [' '] (splitSelectors none 0 cs) :=
    splitSelectors_cons goesOn cs
  rw [selectors, pieces, selectors]
  cases split : splitSelectors none 0 cs with
  | nil => exact absurd split (splitSelectors_ne_nil _ _ _)
  | cons piece rest => simp [prepend, trim_blank_cons (c := ' ') rfl]

theorem selectors_append_comma {s : List Char} (stands : outermost.after? s = some outermost)
    (rest : List Char) :
    selectors (s ++ ',' :: rest) = [trim s].filter (fun s => !s.isEmpty) ++ selectors rest := by
  have pieces : splitSelectors none 0 (s ++ ',' :: rest) = s :: splitSelectors none 0 rest := by
    refine (splitSelectors_append stands _).trans ?_
    simp [outermost, splitSelectors, isQuote, prepend]
  rw [selectors, pieces, List.map_cons, ← List.singleton_append, List.filter_append]
  rfl

theorem selectors_uncut {s : List Char} {s' : Standing} (stands : outermost.after? s = some s')
    (rest : List Char) :
    ∃ piece pieces, splitSelectors s'.1 s'.2 rest = piece :: pieces ∧
      selectors (s ++ rest) =
        [trim (s ++ piece)].filter (fun s => !s.isEmpty) ++
          (pieces.map trim).filter fun s => !s.isEmpty := by
  obtain ⟨piece, pieces, found⟩ := List.exists_cons_of_ne_nil (splitSelectors_ne_nil s'.1 s'.2 rest)
  refine ⟨piece, pieces, found, ?_⟩
  have whole := splitSelectors_append stands rest
  rw [found] at whole
  rw [selectors]
  refine (congrArg (fun pieces => (pieces.map trim).filter fun s => !s.isEmpty) whole).trans ?_
  rw [prepend, List.map_cons, ← List.singleton_append, List.filter_append]

theorem joinSelectors_cons (s t : List Char) (rest : List (List Char)) :
    joinSelectors (s :: t :: rest) = s ++ ',' :: ' ' :: joinSelectors (t :: rest) :=
  rfl

theorem IsListed.exists_cons {s : List Char} (listed : IsListed s) :
    ∃ c cs, s = c :: cs ∧ isBlank c = false ∧ c ≠ ',' := by
  obtain ⟨c, cs, rfl⟩ := List.exists_cons_of_ne_nil listed.nonempty
  have other : c ≠ ',' := fun comma => listed.noComma (by simp [comma])
  exact ⟨c, cs, rfl, unblank_of_trimmed listed.trimmed, other⟩

theorem head_ne_of_cut {s : List Char} (listed : IsListed s) (cut : outermost.after? s = none)
    (rest : List Char) (more : List (List Char)) : selectors (s ++ rest) ≠ s :: more := by
  obtain ⟨c, cs, parts, solid, noComma⟩ := listed.exists_cons
  obtain ⟨front, back, rfl, stands⟩ := exists_cut cut
  rw [List.append_assoc, List.cons_append, selectors_append_comma stands]
  intro same
  cases front with
  | nil => exact noComma (List.cons.inj parts).1.symm
  | cons d ds =>
    obtain rfl := (List.cons.inj parts).1
    rw [List.filter_cons_of_pos (by simp [isEmpty_trim_of_unblank solid])] at same
    have shorter := length_trim_le (d :: ds)
    rw [(List.cons.inj same).1, List.length_append, List.length_cons] at shorter
    exact absurd shorter (by simp)

theorem head_ne_of_stands {s : List Char} {s' : Standing} (listed : IsListed s)
    (stands : outermost.after? s = some s') (elsewhere : s' ≠ outermost) (rest : List Char)
    (more : List (List Char)) : selectors (s ++ ',' :: rest) ≠ s :: more := by
  obtain ⟨c, cs, parts, solid, -⟩ := listed.exists_cons
  obtain ⟨piece, pieces, found, whole⟩ := selectors_uncut stands (',' :: rest)
  intro same
  rw [whole] at same
  obtain ⟨s₁, goesOn⟩ : ∃ s₁, s'.next? ',' = some s₁ := by
    cases next : s'.next? ',' with
    | none => exact absurd (next?_eq_none next).1 elsewhere
    | some s₁ => exact ⟨s₁, rfl⟩
  rw [splitSelectors_cons goesOn] at found
  obtain ⟨w, rfl⟩ : ∃ w, piece = ',' :: w := by
    cases split : splitSelectors s₁.1 s₁.2 rest with
    | nil => exact absurd split (splitSelectors_ne_nil _ _ _)
    | cons p ps =>
      rw [split] at found
      exact ⟨p, (List.cons.inj found).1.symm⟩
  have kept : (trim (s ++ ',' :: w)).isEmpty = false := by
    rw [parts]
    exact isEmpty_trim_of_unblank solid _
  rw [List.filter_cons_of_pos (by simp [kept])] at same
  exact trim_append_cons_ne listed.trimmed listed.nonempty rfl (List.cons.inj same).1

theorem selectors_join_iff {ss : List (List Char)} (listed : ∀ s ∈ ss, IsListed s) :
    selectors (joinSelectors ss) = ss ↔ SplitsAsListed ss := by
  induction ss with
  | nil => exact ⟨fun _ => trivial, fun _ => rfl⟩
  | cons s ss ih =>
    obtain ⟨first, others⟩ := List.forall_mem_cons.1 listed
    obtain ⟨c, cs, parts, solid, -⟩ := first.exists_cons
    have kept : [trim s].filter (fun s => !s.isEmpty) = [s] := by
      rw [first.trimmed]
      simp [parts]
    cases stands : outermost.after? s with
    | none =>
      cases ss with
      | nil =>
        have cut := head_ne_of_cut first stands [] []
        rw [List.append_nil] at cut
        simp [joinSelectors, SplitsAsListed, stands, cut]
      | cons t rest =>
        rw [joinSelectors_cons]
        simp [SplitsAsListed, stands, head_ne_of_cut first stands]
    | some s' =>
      cases ss with
      | nil =>
        obtain ⟨piece, pieces, found, whole⟩ := selectors_uncut stands []
        cases found
        rw [List.append_nil, kept] at whole
        simp [joinSelectors, SplitsAsListed, stands, whole]
      | cons t rest =>
        rw [joinSelectors_cons]
        by_cases outer : s' = outermost
        · subst outer
          rw [selectors_append_comma stands, selectors_blank_cons, kept]
          simp [SplitsAsListed, stands, ih others]
        · simp [SplitsAsListed, stands, outer, head_ne_of_stands first stands outer]

/-! ## Lists of selectors -/

theorem Selector.isListed (s : Selector) : IsListed s.text := by
  obtain ⟨pieces, closed, single, nonempty, trimmed⟩ := s
  obtain ⟨p, ps, rfl⟩ := List.exists_cons_of_ne_nil nonempty
  refine ⟨?_, trimmed, ?_⟩
  · cases p <;> simp [Selector.text, pieceChars, Piece.chars]
  · cases p with
    | char c =>
      rintro ⟨rfl⟩
      simp [isSelectorFrom] at single
    | escape c => simp [Selector.text, pieceChars, Piece.chars]
    | string q text =>
      have isQuoted := (closed_cons closed).1
      simp only [Piece.isClosed, Bool.and_eq_true] at isQuoted
      rintro ⟨rfl⟩
      cases isQuoted.1
    | comment text => simp [Selector.text, pieceChars, Piece.chars]

def isMark (c : Char) : Bool :=
  isQuote c || ['(', ')', '[', ']', ','].contains c

def Piece.isSimple : Piece → Bool
  | .char _ => true
  | .escape c => !isMark c
  | .string quote text => !text.contains quote
  | .comment text => text.all fun c => !isMark c

theorem after?_append (s : Standing) (xs ys : List Char) :
    s.after? (xs ++ ys) = (s.after? xs).bind fun s => s.after? ys :=
  List.foldlM_append

theorem next?_of_unmarked {c : Char} (unmarked : isMark c = false) (depth : Nat) :
    Standing.next? (none, depth) c = some (none, depth) := by
  simp only [isMark, List.contains_cons, List.contains_nil, Bool.or_false, Bool.or_eq_false_iff,
    beq_eq_false_iff_ne] at unmarked
  obtain ⟨notQuote, opens, closes, opens', closes', noComma⟩ := unmarked
  simp [Standing.next?, *]

theorem after?_of_unmarked {xs : List Char} (unmarked : ∀ c ∈ xs, isMark c = false) (depth : Nat) :
    Standing.after? (none, depth) xs = some (none, depth) := by
  induction xs with
  | nil => rfl
  | cons x xs ih =>
    obtain ⟨first, others⟩ := List.forall_mem_cons.1 unmarked
    rw [Standing.after?, List.foldlM_cons, next?_of_unmarked first]
    exact ih others

theorem after?_string {quote : Char} {text : List Char} (isQuoted : isQuote quote = true)
    (simple : quote ∉ text) (depth : Nat) :
    Standing.after? (none, depth) (Piece.string quote text).chars = some (none, depth) := by
  have inside : Standing.after? (some quote, depth) text = some (some quote, depth) := by
    induction text with
    | nil => rfl
    | cons c cs ih =>
      rw [List.mem_cons, not_or] at simple
      obtain ⟨other, others⟩ := simple
      rw [Standing.after?, List.foldlM_cons, Standing.next?, if_neg (Ne.symm other)]
      exact ih others
  have opened : Standing.next? (none, depth) quote = some (some quote, depth) := by
    simp [Standing.next?, isQuoted]
  rw [Piece.chars, Standing.after?, List.foldlM_cons, opened]
  refine (after?_append _ text [quote]).trans ?_
  rw [inside]
  simp [Standing.after?, Standing.next?]

theorem next?_of_char {c : Char} {ps : List Piece} {depth : Nat} (notQuote : isQuote c = false)
    (single : isSelectorFrom depth (.char c :: ps) = true) :
    ∃ depth', Standing.next? (none, depth) c = some (none, depth') ∧
      isSelectorFrom depth' ps = true := by
  simp only [isSelectorFrom] at single
  simp only [Standing.next?, notQuote, Bool.false_eq_true, if_false]
  split at single
  next opens => exact ⟨depth + 1, if_pos opens, single⟩
  next opens =>
    rw [if_neg opens]
    split at single
    next closes => exact ⟨depth - 1, if_pos closes, (Bool.and_eq_true _ _ ▸ single).2⟩
    next closes =>
      rw [if_neg closes]
      simp only [Bool.and_eq_true, Bool.not_eq_true'] at single
      refine ⟨depth, if_neg ?_, single.2⟩
      rw [Bool.and_comm, single.1]
      exact Bool.false_ne_true

theorem after?_pieceChars {ps : List Piece} {depth : Nat} (closed : areClosed true ps = true)
    (single : isSelectorFrom depth ps = true) (simple : ∀ p ∈ ps, p.isSimple = true) :
    Standing.after? (none, depth) (pieceChars ps) = some outermost := by
  induction ps generalizing depth with
  | nil =>
    obtain rfl : depth = 0 := by simpa [isSelectorFrom] using single
    rfl
  | cons p ps ih =>
    obtain ⟨first, -, others⟩ := closed_cons closed
    obtain ⟨simple, allSimple⟩ := List.forall_mem_cons.1 simple
    rw [pieceChars_cons, after?_append]
    cases p with
    | char c =>
      simp only [Piece.isClosed, Bool.and_eq_true, Bool.not_eq_true'] at first
      obtain ⟨depth', goesOn, single⟩ := next?_of_char first.1 single
      have alone : Standing.after? (none, depth) (Piece.char c).chars = some (none, depth') := by
        rw [Piece.chars, Standing.after?, List.foldlM_cons, goesOn]
        rfl
      rw [alone]
      exact ih others single allSimple
    | escape c =>
      have unmarked : ∀ d ∈ (Piece.escape c).chars, isMark d = false := by
        simp only [Piece.chars, List.forall_mem_cons]
        exact ⟨rfl, by simpa [Piece.isSimple] using simple, by simp⟩
      rw [after?_of_unmarked unmarked]
      exact ih others single allSimple
    | string q text =>
      simp only [Piece.isClosed, Bool.and_eq_true] at first
      rw [after?_string first.1 (by simpa [Piece.isSimple] using simple)]
      exact ih others single allSimple
    | comment text =>
      have unmarked : ∀ c ∈ (Piece.comment text).chars, isMark c = false := by
        have inside : ∀ c ∈ text, isMark c = false := by simpa [Piece.isSimple] using simple
        simp only [Piece.chars, List.forall_mem_cons, List.forall_mem_append]
        exact ⟨rfl, rfl, inside, rfl, rfl, by simp⟩
      rw [after?_of_unmarked unmarked]
      exact ih others single allSimple

theorem splitsAsListed_of_simple {ss : List Selector}
    (simple : ∀ s ∈ ss, ∀ p ∈ s.pieces, p.isSimple = true) :
    SplitsAsListed (ss.map Selector.text) := by
  have stands (s : Selector) (member : s ∈ ss) : outermost.after? s.text = some outermost :=
    after?_pieceChars s.closed s.single (simple s member)
  induction ss with
  | nil => trivial
  | cons s ss ih =>
    cases ss with
    | nil => simp [SplitsAsListed, stands s]
    | cons t rest =>
      exact ⟨stands s List.mem_cons_self,
        ih (fun s member => simple s (List.mem_cons_of_mem _ member))
          fun s member => stands s (List.mem_cons_of_mem _ member)⟩

theorem scopeSelectors_join (className : List Char) (ss : List Selector) :
    (SplitsAsListed (ss.map Selector.text) →
      scopeSelectors className (joinSelectors (ss.map Selector.text)) =
        joinSelectors (ss.map fun s => underClass className s.text)) ∧
      (selectors (joinSelectors (ss.map Selector.text)) = ss.map Selector.text ↔
        SplitsAsListed (ss.map Selector.text)) ∧
      ((∀ s ∈ ss, ∀ p ∈ s.pieces, p.isSimple = true) → SplitsAsListed (ss.map Selector.text)) := by
  have exactly : selectors (joinSelectors (ss.map Selector.text)) = ss.map Selector.text ↔
      SplitsAsListed (ss.map Selector.text) := by
    refine selectors_join_iff fun s member => ?_
    obtain ⟨selector, -, rfl⟩ := List.mem_map.1 member
    exact selector.isListed
  refine ⟨fun splits => ?_, exactly, splitsAsListed_of_simple⟩
  rw [scopeSelectors, exactly.2 splits, List.map_map]
  rfl

def simpleList : List Selector := [
  { pieces := ":is(p, q) > a".toList.map .char },
  { pieces := "[b=".toList.map .char ++ [.string '\'' "x,\"y".toList, .char ']'] },
  { pieces := [.char '.', .char 'c', .escape ':', .char 'd', .comment " e ".toList] }]

theorem scopeSelectors_simpleList : simpleList ≠ [] ∧
    (∀ s ∈ simpleList, ∀ p ∈ s.pieces, p.isSimple = true) ∧
    scopeSelectors "k".toList ":is(p, q) > a, [b='x,\"y'], .c\\:d/* e */".toList =
      ".k :is(p, q) > a, .k [b='x,\"y'], .k .c\\:d/* e */".toList := by
  have simple : ∀ s ∈ simpleList, ∀ p ∈ s.pieces, p.isSimple = true := by decide
  obtain ⟨whole, -, splits⟩ := scopeSelectors_join "k".toList simpleList
  exact ⟨by decide, simple, whole (splits simple)⟩

def missplit : List (List Selector) := [
  [{ pieces := [.char '[', .char 'x', .char '=', .string '"' "a\\\"b".toList, .char ']'] },
    { pieces := [.char 'q'] }],
  [{ pieces := [.char '.', .char 'a', .escape ',', .char 'b'] }],
  [{ pieces := [.char 'a', .comment [','], .char 'b'] }]]

/-- None of these lists is cut where it should be. -/
theorem missplit_not_underClass :
    (missplit.map fun ss => String.ofList (joinSelectors (ss.map Selector.text))) =
      ["[x=\"a\\\"b\"], q", ".a\\,b", "a/*,*/b"] ∧
    ∀ ss ∈ missplit, ss ≠ [] ∧ scopeSelectors "c".toList (joinSelectors (ss.map Selector.text)) ≠
      joinSelectors (ss.map fun s => underClass "c".toList s.text) := by
  decide

end ComponentCompiler.Style
