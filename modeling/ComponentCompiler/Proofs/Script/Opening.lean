import ComponentCompiler.Proofs.Text.WholeWords
import ComponentCompiler.Script.Entry

namespace ComponentCompiler.Script

open Text (HasWord IsWhole Stops dropWhile_append_of_stops isBlank isWord trimStart)

theorem isWhole_entryName : IsWhole entryName :=
  ⟨by decide, List.all_eq_true.1 (by decide)⟩

theorem stops_of_afterName? {cs rest : List Char} (opens : afterName? cs = some rest) :
    Stops isWord cs := by
  rw [afterName?, Option.or_eq_some_iff] at opens
  rcases opens with parameters | ⟨-, assigned⟩
  · obtain ⟨more, parens, -⟩ := Option.bind_eq_some_iff.1 parameters
    rw [afterParens?.eq_def] at parens
    split at parens
    next front => exact Text.stops_of_trimStart front rfl
    next => cases parens
  · cases equals : assigned? cs with
    | none =>
      rw [equals] at assigned
      cases assigned
    | some more =>
      rw [assigned?] at equals
      split at equals
      next front => exact Text.stops_of_trimStart front rfl
      next => cases equals

section Symbol

variable {symbol : List Char} (whole : IsWhole symbol)

theorem exists_afterWord?_of_openingAt? (whole : IsWhole symbol)
    {before : Option Char} {ahead rest : List Char}
    (opening : openingAt? symbol before ahead = some rest) :
    ∃ after, Text.afterWord? symbol before ahead = some after := by
  rw [openingAt?] at opening
  split at opening
  next edge =>
    obtain ⟨after, named, opens⟩ := Option.bind_eq_some_iff.1 opening
    exact ⟨after, whole.afterWord?_of_after? edge named (stops_of_afterName? opens)⟩
  next => cases opening

theorem findOpening?_append {before : Option Char} {front : List Char}
    (rest : List Char) (missed : ∀ xs ys, front = xs ++ ys → ys ≠ [] →
      openingAt? symbol (xs.getLast?.or before) (ys ++ rest) = none) :
    findOpening? symbol before (front ++ rest) =
      (findOpening? symbol (front.getLast?.or before) rest).map
        fun (head, after) => (front ++ head, after) := by
  induction front generalizing before with
  | nil => simp
  | cons c cs ih =>
    have here : openingAt? symbol before (c :: cs ++ rest) = none :=
      missed [] (c :: cs) rfl (by simp)
    have later := @ih (some c) fun xs ys parts more => by
      have later := missed (c :: xs) ys (by simp [parts]) more
      rwa [Text.getLast?_cons_or] at later
    rw [List.cons_append] at here ⊢
    rw [findOpening?, here, later, Text.getLast?_cons_or, Option.map_map]
    rfl

include whole

theorem findOpening?_append_of_not_hasWord {front : List Char} (absent : ¬HasWord symbol front)
    (ends : ∀ c ∈ front.getLast?, isWord c = false) (rest : List Char) :
    findOpening? symbol none (front ++ rest) = (findOpening? symbol front.getLast? rest).map
      fun (head, after) => (front ++ head, after) := by
  have missed : ∀ xs ys, front = xs ++ ys → ys ≠ [] →
      openingAt? symbol (xs.getLast?.or none) (ys ++ rest) = none := by
    rintro xs ys rfl more
    rw [Option.or_none, Option.eq_none_iff_forall_ne_some]
    intro found opens
    obtain ⟨after, word⟩ := exists_afterWord?_of_openingAt? whole opens
    rw [Text.afterWord?_eq_none whole absent ends more] at word
    cases word
  rw [findOpening?_append rest missed, Option.or_none]

theorem findOpening?_eq_none {cs : List Char} (absent : ¬HasWord symbol cs) (before : Option Char) :
    findOpening? symbol before cs = none := by
  have missed : ∀ xs ys, cs = xs ++ ys → ys ≠ [] →
      openingAt? symbol (xs.getLast?.or before) (ys ++ []) = none := by
    rintro xs ys rfl -
    rw [List.append_nil, Option.eq_none_iff_forall_ne_some]
    intro found opens
    obtain ⟨after, word⟩ := exists_afterWord?_of_openingAt? whole opens
    obtain ⟨starts, edge, stops⟩ := whole.afterWord?_eq_some.1 word
    refine absent ⟨xs, after, by rw [starts], fun c last => edge c ?_, stops⟩
    rw [Option.mem_def.1 last]
    rfl
  have found := findOpening?_append [] missed
  rwa [List.append_nil, findOpening?, Option.map_none] at found

omit whole in
theorem findOpening?_append_of_isWord {c : Char} (inside : isWord c = true) {xs : List Char}
    (solid : ∀ c ∈ xs, isWord c = true) (rest : List Char) :
    findOpening? symbol (some c) (xs ++ rest) =
      (findOpening? symbol (xs.getLast?.or (some c)) rest).map
        fun (head, after) => (xs ++ head, after) := by
  induction xs generalizing c with
  | nil => simp
  | cons x xs ih =>
    obtain ⟨isPart, solid⟩ := List.forall_mem_cons.1 solid
    have here : openingAt? symbol (some c) (x :: (xs ++ rest)) = none := by
      rw [openingAt?, if_neg]
      simp [Text.isWordEdge, inside, isPart]
    rw [List.cons_append, findOpening?, here, ih isPart solid, Text.getLast?_cons_or, Option.map_map]
    rfl

end Symbol

/-- What follows the name of an entry point up to the first closing parenthesis decides alone, when it
starts with a parenthesis. -/
theorem openingAt?_declared {before : Option Char} (apart : ∀ c ∈ before, isWord c = false)
    {parameters : List Char} (unclosed : ')' ∉ parameters) (rest : List Char) :
    openingAt? entryName before (entryName ++ '(' :: (parameters ++ ')' :: rest)) =
      afterBrace? rest := by
  have edge : Text.isWordEdge before
      (entryName ++ '(' :: (parameters ++ ')' :: rest)).head? = true :=
    (Text.isWordEdge_word (c := 'R') rfl).2 apart
  have named : Text.after? entryName (entryName ++ '(' :: (parameters ++ ')' :: rest)) =
      some ('(' :: (parameters ++ ')' :: rest)) :=
    Text.after?_eq_some.2 rfl
  have inside : ∀ c ∈ parameters, decide (c ≠ ')') = true := fun c member =>
    decide_eq_true fun same => unclosed (same ▸ member)
  have closing : Stops (fun c => decide (c ≠ ')')) (')' :: rest) := by
    intro c first
    cases first
    rfl
  have parens : afterParameters? ('(' :: (parameters ++ ')' :: rest)) = afterBrace? rest := by
    rw [afterParameters?, show trimStart ('(' :: (parameters ++ ')' :: rest)) =
      '(' :: (parameters ++ ')' :: rest) from rfl, afterParens?,
      dropWhile_append_of_stops inside closing]
    rfl
  have unassigned : assigned? ('(' :: (parameters ++ ')' :: rest)) = none := rfl
  rw [openingAt?, if_pos edge, named, Option.bind_some, afterName?, parens, unassigned]
  exact Option.or_none

theorem afterBrace?_append {gap : List Char} (blank : ∀ c ∈ gap, isBlank c = true)
    (rest : List Char) : afterBrace? (gap ++ '\x7b' :: rest) = some rest := by
  rw [afterBrace?, (Text.trimStart_eq_cons rfl).2 ⟨gap, blank, rfl⟩]
  rfl

theorem afterBrace?_eq_none {cs : List Char} (braceless : (trimStart cs).head? ≠ some '\x7b')
    (rest : List Char) : afterBrace? (cs ++ ')' :: rest) = none := by
  have front : trimStart (cs ++ ')' :: rest) = trimStart cs ++ ')' :: rest := by
    have closing : (')' :: rest).dropWhile isBlank = ')' :: rest := rfl
    rw [trimStart, List.dropWhile_append, closing, trimStart]
    split
    next none_ => rw [List.isEmpty_iff.1 none_, List.nil_append]
    next => rfl
  rw [afterBrace?, front]
  cases starts : trimStart cs with
  | nil => rfl
  | cons c more =>
    rw [starts, List.head?_cons, ne_eq, Option.some.injEq] at braceless
    split
    next same => exact absurd (List.cons.inj same).1 braceless
    next => rfl

theorem inject_declared {front : List Char} (absent : ¬HasWord entryName front)
    (ends : ∀ c ∈ front.getLast?, isWord c = false) {parameters : List Char}
    (unclosed : ')' ∉ parameters) {gap : List Char} (blank : ∀ c ∈ gap, isBlank c = true)
    {block : List Char} (some_ : block ≠ []) (rest : List Char) :
    inject entryName block
        (front ++ (entryName ++ '(' :: (parameters ++ ')' :: (gap ++ '\x7b' :: rest)))) =
      front ++ (entryName ++ '(' :: (parameters ++ ')' :: (gap ++ '\x7b' :: '\n' ::
        (block ++ rest)))) := by
  obtain ⟨opening, parts, more⟩ : ∃ opening, entryName ++ '(' :: (parameters ++ ')' ::
      (gap ++ '\x7b' :: rest)) = opening ++ rest ∧ opening = entryName ++ '(' :: (parameters ++
        ')' :: (gap ++ ['\x7b'])) := ⟨_, by simp, rfl⟩
  have here : findOpening? entryName front.getLast? (opening ++ rest) = some (opening, rest) := by
    have found := openingAt?_declared ends unclosed (gap ++ '\x7b' :: rest)
    obtain ⟨tail, starts⟩ : ∃ tail, opening = 'R' :: tail := ⟨_, more⟩
    have length : tail.length + rest.length + 1 - rest.length = (opening).length := by
      rw [starts, List.length_cons]
      omega
    rw [parts, afterBrace?_append blank] at found
    rw [starts, List.cons_append] at found ⊢
    rw [findOpening?, found]
    rw [starts] at length
    simp only [List.length_append, length]
    simp
  rw [inject, if_neg (by simpa using some_), parts,
    findOpening?_append_of_not_hasWord isWhole_entryName absent ends, here, more]
  simp

theorem inject_undeclared {front : List Char} (absent : ¬HasWord entryName front)
    (ends : ∀ c ∈ front.getLast?, isWord c = false) {parameters : List Char}
    (unclosed : ')' ∉ parameters) {rest : List Char} (braceless : afterBrace? rest = none)
    (once : ¬HasWord entryName ('(' :: (parameters ++ ')' :: rest))) (block : List Char) :
    inject entryName block (front ++ (entryName ++ '(' :: (parameters ++ ')' :: rest))) =
      front ++ (entryName ++ '(' :: (parameters ++ ')' :: rest)) := by
  have nowhere : findOpening? entryName front.getLast?
      (entryName ++ '(' :: (parameters ++ ')' :: rest)) = none := by
    have here := openingAt?_declared ends unclosed rest
    obtain ⟨letters, name, solid⟩ : ∃ letters, entryName = 'R' :: letters ∧
        ∀ c ∈ letters, isWord c = true := ⟨_, rfl, List.all_eq_true.1 (by decide)⟩
    rw [braceless] at here
    have later := findOpening?_eq_none isWhole_entryName once
    rw [name] at here later ⊢
    rw [List.cons_append] at here ⊢
    rw [findOpening?, here, findOpening?_append_of_isWord rfl solid, later]
    rfl
  rw [inject, findOpening?_append_of_not_hasWord isWhole_entryName absent ends, nowhere]
  exact ite_self _

def opening (parameters : List Char) : List Char :=
  entryName ++ '(' :: (parameters ++ [')', ' ', '\x7b'])

theorem inject_opening {front : List Char} (absent : ¬HasWord entryName front)
    (ends : ∀ c ∈ front.getLast?, isWord c = false) {parameters : List Char}
    (unclosed : ')' ∉ parameters) {block : List Char} (some_ : block ≠ []) (rest : List Char) :
    inject entryName block (front ++ (opening parameters ++ rest)) =
      front ++ (opening parameters ++ '\n' :: (block ++ rest)) := by
  have space : ∀ c ∈ [' '], isBlank c = true := List.forall_mem_singleton.2 rfl
  have injected := inject_declared absent ends unclosed space some_ rest
  simpa [opening] using injected

/-- A script that names its entry point once, where a function declares it. -/
structure DeclaringScript where
  before : List Char
  parameters : List Char
  body : List Char
  once : ¬HasWord entryName (before ++ "function ".toList) ∧
    ¬HasWord entryName ('(' :: (parameters ++ ") \x7b".toList ++ body))

namespace DeclaringScript

variable (s : DeclaringScript)

def text : List Char :=
  s.before ++ "function RUNTIME(".toList ++ s.parameters ++ ") \x7b".toList ++ s.body

/-- The script with a block on a line of its own at the start of the body. -/
def filled (block : List Char) : List Char :=
  s.before ++ "function RUNTIME(".toList ++ s.parameters ++ ") \x7b\n".toList ++ block ++ s.body

theorem text_eq : s.text = (s.before ++ "function ".toList) ++
    (entryName ++ '(' :: (s.parameters ++ ") \x7b".toList ++ s.body)) := by
  unfold text entryName
  simp

theorem ends : ∀ c ∈ (s.before ++ "function ".toList).getLast?, isWord c = false := by
  simp
  decide

end DeclaringScript

/-- Only parameters without a closing parenthesis are passed over as a whole.  With one, a block goes
after a brace that follows it at once, or nowhere. -/
theorem inject_declaration (s : DeclaringScript) {block : List Char} (some_ : block ≠ []) :
    (')' ∉ s.parameters → inject entryName block s.text = s.filled block) ∧
      (∀ p gap more, s.parameters = p ++ ')' :: (gap ++ '\x7b' :: more) → ')' ∉ p →
        (∀ c ∈ gap, isBlank c = true) → inject entryName block s.text =
          s.before ++ "function RUNTIME(".toList ++ p ++ ')' :: (gap ++ "\x7b\n".toList) ++ block ++
            more ++ ") \x7b".toList ++ s.body) ∧
      (∀ p more, s.parameters = p ++ ')' :: more → ')' ∉ p → (trimStart more).head? ≠ some '\x7b' →
        inject entryName block s.text = s.text) := by
  obtain ⟨absent, once⟩ := s.once
  have ends := s.ends
  rw [s.text_eq]
  refine ⟨fun unclosed => ?_, fun p gap more parts unclosed blank => ?_,
    fun p more parts unclosed braceless => ?_⟩
  · have injected := inject_opening absent ends unclosed some_ s.body
    unfold opening at injected
    simpa [DeclaringScript.filled, entryName] using injected
  · have injected := inject_declared absent ends unclosed blank some_
      (more ++ ") \x7b".toList ++ s.body)
    rw [parts]
    simpa [entryName] using injected
  · have none_ : afterBrace? (more ++ ") \x7b".toList ++ s.body) = none := by
      simpa using afterBrace?_eq_none braceless (' ' :: '\x7b' :: s.body)
    have injected := inject_undeclared absent ends unclosed none_ (by simpa [parts] using once) block
    rw [parts]
    simpa using injected

def callbackScript : DeclaringScript where
  before := "async ".toList
  parameters := "el, f = function () \x7b return 1 \x7d".toList
  body := " f() \x7d".toList
  once := by decide

theorem inject_declaration_callback :
    inject entryName "run();".toList
        "async function RUNTIME(el, f = function () \x7b return 1 \x7d) \x7b f() \x7d".toList =
      "async function RUNTIME(el, f = function () \x7b\nrun(); return 1 \x7d) \x7b f() \x7d".toList := by
  have some_ : "run();".toList ≠ [] := by decide
  have inner := (inject_declaration callbackScript some_).2.1
    "el, f = function (".toList [' '] " return 1 \x7d".toList (by decide) (by decide)
    (List.forall_mem_singleton.2 rfl)
  refine (congrArg (inject entryName "run();".toList) ?_).trans (inner.trans ?_)
  · decide +kernel
  · decide +kernel

def isBalanced : Nat → List Char → Bool
  | depth, [] => depth == 0
  | depth, c :: cs =>
    if c = '(' then isBalanced (depth + 1) cs
    else if c = ')' then depth != 0 && isBalanced (depth - 1) cs
    else isBalanced depth cs

def callScript : DeclaringScript where
  before := []
  parameters := "el, n = f(1)".toList
  body := "\n\x7d".toList
  once := by decide

/-- Matching parentheses are not enough: the block is lost when a parameter calls a function. -/
theorem inject_loses_block :
    isBalanced 0 callScript.parameters = true ∧
      inject entryName "run();".toList callScript.text ≠ callScript.filled "run();".toList := by
  decide +kernel

end ComponentCompiler.Script
