import ComponentCompiler.Proofs.Text.Boundaries
import ComponentCompiler.Style.Scope

/-!
# Scoping by byte offsets

A sheet read in place: the scanners go from byte to byte, their counters have 32 bits and wrap, and
a slice that starts or ends inside of a character, or beyond the text, cannot be taken.

* `exists_gapEnd?`, `preludeEnd?_eq_some`, `isStop_blockEnd`: the places that the scanners give
  stand between characters.
* `exists_turn?`: each turn of the loop takes its slices and moves on.
-/

namespace ComponentCompiler.Style

open Text (IsBoundary bytes isBoundary_end isBoundary_of_ascii slice? trimStart)

section

variable (bs : List UInt8)

def commentEnd (i : Nat) : Nat :=
  if i + 1 < bs.length then
    if bs[i]? = some '*'.toUInt8 ∧ bs[i + 1]? = some '/'.toUInt8 then i + 2
    else commentEnd (i + 1)
  else bs.length
termination_by bs.length - i

/-- Where a string ends of which a place is inside.  A backslash takes one byte with it. -/
def stringEnd (quote : UInt8) (i : Nat) : Nat :=
  if inside : i < bs.length then
    if bs[i] = '\\'.toUInt8 then stringEnd quote (i + 2)
    else if bs[i] = quote then i + 1
    else stringEnd quote (i + 1)
  else bs.length
termination_by bs.length - i

def isQuoteByte (b : UInt8) : Bool :=
  b = '"'.toUInt8 || b = '\''.toUInt8

def skip? (i : Nat) : Option Nat :=
  match bs[i]? with
  | some b =>
    if isQuoteByte b then some (stringEnd bs b (i + 1))
    else if b = '/'.toUInt8 ∧ bs[i + 1]? = some '*'.toUInt8 then some (commentEnd bs (i + 2))
    else none
  | none => none

def IsStop (i : Nat) : Prop :=
  i = bs.length ∨ ∃ k b, i = k + 1 ∧ bs[k]? = some b ∧ b < 128

variable {bs} {i k : Nat} {b quote : UInt8}

theorem isStop_succ (here : bs[i]? = some b) (small : b < 128) : IsStop bs (i + 1) :=
  .inr ⟨i, b, rfl, here, small⟩

theorem IsStop.isBoundary {s : String} (stop : IsStop (bytes s) i) : IsBoundary s i := by
  rcases stop with rfl | ⟨k, b, rfl, here, small⟩
  · rw [Text.length_bytes]
    exact isBoundary_end s
  · exact (isBoundary_of_ascii here small).2

theorem isStop_commentEnd (bs : List UInt8) (i : Nat) : IsStop bs (commentEnd bs i) := by
  fun_induction commentEnd with
  | case1 i inside ends => exact isStop_succ ends.2 (by decide)
  | case2 i inside other ih => exact ih
  | case3 => exact .inl rfl

theorem min_le_commentEnd (bs : List UInt8) (i : Nat) :
    min i bs.length ≤ commentEnd bs i := by
  fun_induction commentEnd <;> omega

theorem isStop_stringEnd (small : quote < 128) (i : Nat) : IsStop bs (stringEnd bs quote i) := by
  fun_induction stringEnd bs quote i with
  | case1 i inside escape ih => exact ih
  | case2 i inside other ends => exact isStop_succ (ends ▸ List.getElem?_eq_getElem inside) small
  | case3 i inside other other' ih => exact ih
  | case4 => exact .inl rfl

theorem min_le_stringEnd (bs : List UInt8) (quote : UInt8) (i : Nat) :
    min i bs.length ≤ stringEnd bs quote i := by
  fun_induction stringEnd bs quote i <;> omega

theorem lt_of_isQuoteByte (isQuote : isQuoteByte b = true) : b < 128 := by
  simp only [isQuoteByte, Bool.or_eq_true, decide_eq_true_eq] at isQuote
  rcases isQuote with rfl | rfl <;> decide

theorem skip?_eq_some (skipped : skip? bs i = some k) : i < k ∧ IsStop bs k := by
  rw [skip?] at skipped
  split at skipped
  · next b here =>
    obtain ⟨inside, -⟩ := List.getElem?_eq_some_iff.1 here
    split at skipped
    · next isQuote =>
      obtain rfl := Option.some.inj skipped
      have past := min_le_stringEnd bs b (i + 1)
      exact ⟨by omega, isStop_stringEnd (lt_of_isQuoteByte isQuote) _⟩
    · split at skipped
      · next starts =>
        obtain rfl := Option.some.inj skipped
        obtain ⟨inside', -⟩ := List.getElem?_eq_some_iff.1 starts.2
        have past := min_le_commentEnd bs (i + 2)
        exact ⟨by omega, isStop_commentEnd bs _⟩
      · cases skipped
  · cases skipped

variable (bs)

def preludeEnd? (parens : Int32) (i : Nat) : Option Nat :=
  if inside : i < bs.length then
    match skipped : skip? bs i with
    | some next =>
      have := skip?_eq_some skipped
      preludeEnd? parens next
    | none =>
      if bs[i] = '('.toUInt8 then preludeEnd? (parens + 1) (i + 1)
      else if bs[i] = ')'.toUInt8 then preludeEnd? (max (parens - 1) 0) (i + 1)
      else if (bs[i] = '\x7b'.toUInt8 ∨ bs[i] = ';'.toUInt8) ∧ parens = 0 then some i
      else preludeEnd? parens (i + 1)
  else none
termination_by bs.length - i

def blockEnd (depth : Int32) (i : Nat) : Nat :=
  if inside : i < bs.length then
    match skipped : skip? bs i with
    | some next =>
      have := skip?_eq_some skipped
      blockEnd depth next
    | none =>
      if bs[i] = '\x7b'.toUInt8 then blockEnd (depth + 1) (i + 1)
      else if bs[i] = '\x7d'.toUInt8 then
        if depth - 1 = 0 then i + 1 else blockEnd (depth - 1) (i + 1)
      else blockEnd depth (i + 1)
  else bs.length
termination_by bs.length - i

variable {bs} {parens depth : Int32}

theorem preludeEnd?_eq_some (ended : preludeEnd? bs parens i = some k) :
    i ≤ k ∧ (bs[k]? = some '\x7b'.toUInt8 ∨ bs[k]? = some ';'.toUInt8) := by
  fun_induction preludeEnd? bs parens i with
  | case1 parens i inside next skipped after ih =>
    exact ⟨after.1.le.trans (ih ended).1, (ih ended).2⟩
  | case2 parens i inside skipped opens ih => exact ⟨by have := (ih ended).1; omega, (ih ended).2⟩
  | case3 parens i inside skipped other closes ih =>
    exact ⟨by have := (ih ended).1; omega, (ih ended).2⟩
  | case4 parens i inside skipped other other' ends =>
    obtain rfl := Option.some.inj ended
    rw [List.getElem?_eq_getElem inside, Option.some.injEq, Option.some.injEq]
    exact ⟨le_rfl, ends.1⟩
  | case5 parens i inside skipped other other' goesOn ih =>
    exact ⟨by have := (ih ended).1; omega, (ih ended).2⟩
  | case6 => cases ended

theorem isStop_blockEnd (bs : List UInt8) (depth : Int32) (i : Nat) :
    IsStop bs (blockEnd bs depth i) := by
  fun_induction blockEnd bs depth i with
  | case3 depth i inside skipped other closes last =>
    exact isStop_succ (closes ▸ List.getElem?_eq_getElem inside) (by decide)
  | case6 => exact .inl rfl
  | _ => assumption

theorem min_succ_le_blockEnd (bs : List UInt8) (depth : Int32) (i : Nat) :
    min (i + 1) bs.length ≤ blockEnd bs depth i := by
  fun_induction blockEnd bs depth i <;> omega

def isBlankByte (b : UInt8) : Bool :=
  b = ' '.toUInt8 || b = '\t'.toUInt8 || b = '\n'.toUInt8 || b = '\x0c'.toUInt8 || b = '\r'.toUInt8

theorem lt_of_isBlankByte (blank : isBlankByte b = true) : b < 128 := by
  simp only [isBlankByte, Bool.or_eq_true, decide_eq_true_eq] at blank
  rcases blank with (((rfl | rfl) | rfl) | rfl) | rfl <;> decide

variable {s : String}

theorem add_two_le_of_starts {rest : String} {last : Nat} (taken : slice? s i last = some rest)
    (starts : ['/', '*'] <+: rest.toList) : i + 2 ≤ s.utf8ByteSize := by
  obtain ⟨front, back, parts, rfl, -⟩ := Text.slice?_eq_some_iff.1 taken
  obtain ⟨comment, whole⟩ := starts
  rw [← Text.width_toList, parts, ← whole]
  simp only [Text.width_append]
  have two : Text.width ['/', '*'] = 2 := by decide
  omega

/-- Where a gap ends.  Each time that no white space follows, the rest of the text is taken to see
whether a comment starts it. -/
def gapEnd? (s : String) (i : Nat) : Option Nat :=
  if blank : (bytes s)[i]?.any isBlankByte = true then gapEnd? s (i + 1)
  else match taken : slice? s i s.utf8ByteSize with
    | none => none
    | some rest =>
      if starts : ['/', '*'] <+: rest.toList then gapEnd? s (commentEnd (bytes s) (i + 2))
      else some i
termination_by s.utf8ByteSize - i
decreasing_by
  · obtain ⟨b, here, -⟩ := (Option.any_eq_true ..).1 blank
    obtain ⟨inside, -⟩ := List.getElem?_eq_some_iff.1 here
    rw [Text.length_bytes] at inside
    omega
  · have inside := add_two_le_of_starts taken starts
    have past := min_le_commentEnd (bytes s) (i + 2)
    rw [Text.length_bytes] at past
    omega

theorem exists_gapEnd? (start : IsBoundary s i) :
    ∃ k, gapEnd? s i = some k ∧ i ≤ k ∧ IsBoundary s k := by
  fun_induction gapEnd? s i with
  | case1 i blank ih =>
    obtain ⟨b, here, isBlank⟩ := (Option.any_eq_true ..).1 blank
    obtain ⟨k, ended, le, boundary⟩ :=
      ih (isBoundary_of_ascii here (lt_of_isBlankByte isBlank)).2
    exact ⟨k, ended, by omega, boundary⟩
  | case2 i solid missing =>
    have taken := Text.slice?_isSome_iff.2 ⟨start.le, le_rfl, start, isBoundary_end s⟩
    rw [missing] at taken
    cases taken
  | case3 i solid rest taken starts ih =>
    obtain ⟨k, ended, le, boundary⟩ := ih (isStop_commentEnd _ _).isBoundary
    have inside := add_two_le_of_starts taken starts
    have past := min_le_commentEnd (bytes s) (i + 2)
    rw [Text.length_bytes] at past
    exact ⟨k, ended, by omega, boundary⟩
  | case4 i => exact ⟨i, rfl, le_rfl, start⟩

def commas : Option UInt8 → Int32 → Nat → List UInt8 → List Nat
  | _, _, _, [] => []
  | some q, depth, i, b :: bs => commas (if b = q then none else some q) depth (i + 1) bs
  | none, depth, i, b :: bs =>
    if isQuoteByte b then commas (some b) depth (i + 1) bs
    else if b = '('.toUInt8 ∨ b = '['.toUInt8 then commas none (depth + 1) (i + 1) bs
    else if b = ')'.toUInt8 ∨ b = ']'.toUInt8 then commas none (max (depth - 1) 0) (i + 1) bs
    else if b = ','.toUInt8 ∧ depth = 0 then i :: commas none depth (i + 1) bs
    else commas none depth (i + 1) bs

def pieces? (s : String) (start : Nat) : List Nat → Option (List String)
  | [] => (slice? s start s.utf8ByteSize).map fun last => [Text.trimmed last]
  | comma :: rest => do
    let piece ← slice? s start comma
    let others ← pieces? s (comma + 1) rest
    return Text.trimmed piece :: others

def splitSelectors? (s : String) : Option (List String) :=
  (pieces? s 0 (commas none 0 0 (bytes s))).map fun pieces => pieces.filter (· ≠ "")

def scopeSelectors? (className s : String) : Option String :=
  (splitSelectors? s).map fun selectors => String.ofList
    (joinSelectors (selectors.map fun s => '.' :: (className.toList ++ ' ' :: s.toList)))

theorem commas_ascend (quote : Option UInt8) (depth : Int32) (pre post : List UInt8) :
    (commas quote depth pre.length post).Pairwise (· < ·) ∧
      ∀ k ∈ commas quote depth pre.length post,
        pre.length ≤ k ∧ (pre ++ post)[k]? = some ','.toUInt8 := by
  induction post generalizing quote depth pre with
  | nil => simp [commas]
  | cons b post ih =>
    have later (quote : Option UInt8) (depth : Int32) :
        (commas quote depth (pre.length + 1) post).Pairwise (· < ·) ∧
          ∀ k ∈ commas quote depth (pre.length + 1) post,
            pre.length + 1 ≤ k ∧ (pre ++ b :: post)[k]? = some ','.toUInt8 := by
      simpa using ih quote depth (pre ++ [b])
    -- Without a cut here, what holds of the cuts from the next place on holds from here on.
    have onward (quote : Option UInt8) (depth : Int32) :
        (commas quote depth (pre.length + 1) post).Pairwise (· < ·) ∧
          ∀ k ∈ commas quote depth (pre.length + 1) post,
            pre.length ≤ k ∧ (pre ++ b :: post)[k]? = some ','.toUInt8 :=
      ⟨(later quote depth).1, fun k member =>
        ⟨Nat.le_of_succ_le ((later quote depth).2 k member).1, ((later quote depth).2 k member).2⟩⟩
    cases quote with
    | some q => exact onward ..
    | none =>
      rw [commas]
      split_ifs with isQuote opens closes cuts
      · exact onward ..
      · exact onward ..
      · exact onward ..
      · obtain ⟨ascend, atCommas⟩ := later none depth
        refine ⟨List.pairwise_cons.2 ⟨fun k member => (atCommas k member).1, ascend⟩,
          List.forall_mem_cons.2 ⟨⟨le_rfl, by simp [cuts.1]⟩, (onward none depth).2⟩⟩
      · exact onward ..

theorem exists_pieces? {start : Nat} {cuts : List Nat} (boundary : IsBoundary s start)
    (ascend : cuts.Pairwise (· < ·))
    (atCommas : ∀ i ∈ cuts, start ≤ i ∧ (bytes s)[i]? = some ','.toUInt8) :
    ∃ pieces, pieces? s start cuts = some pieces := by
  induction cuts generalizing start with
  | nil =>
    have taken := Text.slice?_isSome_iff.2 ⟨boundary.le, le_rfl, boundary, isBoundary_end s⟩
    obtain ⟨last, taken⟩ := Option.isSome_iff_exists.1 taken
    exact ⟨_, by rw [pieces?, taken]; rfl⟩
  | cons comma cuts ih =>
    obtain ⟨⟨le, here⟩, others⟩ := List.forall_mem_cons.1 atCommas
    obtain ⟨before, ascend⟩ := List.pairwise_cons.1 ascend
    obtain ⟨atComma, after⟩ := isBoundary_of_ascii here (by decide)
    have taken := Text.slice?_isSome_iff.2 ⟨le, atComma.le, boundary, atComma⟩
    obtain ⟨piece, taken⟩ := Option.isSome_iff_exists.1 taken
    obtain ⟨rest, cut⟩ := ih after ascend fun i member => ⟨before i member, (others i member).2⟩
    exact ⟨_, by rw [pieces?, taken, cut]; rfl⟩

theorem exists_scopeSelectors? (className s : String) :
    ∃ text, scopeSelectors? className s = some text := by
  obtain ⟨ascend, atCommas⟩ := commas_ascend none 0 [] (bytes s)
  obtain ⟨pieces, cut⟩ := exists_pieces? (Text.isBoundary_zero s) ascend atCommas
  rw [List.length_nil] at cut
  exact ⟨_, by rw [scopeSelectors?, splitSelectors?, cut]; rfl⟩

def rule? (s className head : String) (stop : Nat) : Option (String × Nat) := do
  let next := blockEnd (bytes s) 0 stop
  let body ← slice? s stop next
  if (trimStart head.toList).head? = some '@' then return (head ++ body, next)
  let selectors ← scopeSelectors? className (Text.trimmed head)
  return (selectors ++ " " ++ body, next)

def marked? (s className : String) (start stop : Nat) : Option (String × Nat) := do
  let head ← slice? s start stop
  let mark ← (bytes s)[stop]?
  if mark = ';'.toUInt8 then
    let statement ← slice? s start (stop + 1)
    return (statement, stop + 1)
  rule? s className head stop

def item? (s className : String) (start : Nat) : Option (String × Nat) := do
  let first ← (bytes s)[start]?
  if first = '\x7d'.toUInt8 then return ("\x7d", start + 1)
  match preludeEnd? (bytes s) 0 start with
  | none => return (← slice? s start s.utf8ByteSize, s.utf8ByteSize)
  | some stop => marked? s className start stop

/-- What one turn of the loop writes, and where the next one starts.  There is no result when a
slice cannot be taken.  A turn that breaks the loop goes to the end. -/
def turn? (s className : String) (i : Nat) : Option (String × Nat) := do
  let start ← gapEnd? s i
  let space ← slice? s i start
  if s.utf8ByteSize ≤ start then return (space, start)
  let (text, next) ← item? s className start
  return (space ++ text, next)

def turns? (s className : String) (bound i : Nat) : Option (List (String × Nat)) :=
  if s.utf8ByteSize ≤ i then some []
  else match bound with
    | 0 => none
    | bound + 1 => do
      let turn ← turn? s className i
      let rest ← turns? s className bound turn.2
      return turn :: rest

theorem exists_slice? {i j : Nat} (le : i ≤ j) (first : IsBoundary s i) (last : IsBoundary s j) :
    ∃ t, slice? s i j = some t :=
  Option.isSome_iff_exists.1 (Text.slice?_isSome_iff.2 ⟨le, last.le, first, last⟩)

theorem lt_blockEnd (depth : Int32) (inside : i < s.utf8ByteSize) :
    i < blockEnd (bytes s) depth i := by
  have past := min_succ_le_blockEnd (bytes s) depth i
  rw [Text.length_bytes] at past
  omega

theorem exists_rule? (className head : String) (here : IsBoundary s i)
    (inside : i < s.utf8ByteSize) :
    ∃ text k, rule? s className head i = some (text, k) ∧ i < k ∧ IsBoundary s k := by
  have moved := lt_blockEnd 0 inside
  have boundary := (isStop_blockEnd (bytes s) 0 i).isBoundary
  obtain ⟨body, taken⟩ := exists_slice? moved.le here boundary
  obtain ⟨selectors, listed⟩ := exists_scopeSelectors? className (Text.trimmed head)
  simp only [rule?, taken, listed, Option.bind_eq_bind, Option.bind_some]
  split
  · exact ⟨_, _, rfl, moved, boundary⟩
  · exact ⟨_, _, rfl, moved, boundary⟩

theorem exists_marked? (className : String) {start : Nat} (here : IsBoundary s start)
    (le : start ≤ i) (mark : (bytes s)[i]? = some b) (small : b < 128) :
    ∃ text k, marked? s className start i = some (text, k) ∧ i < k ∧ IsBoundary s k := by
  obtain ⟨before, after⟩ := isBoundary_of_ascii mark small
  obtain ⟨head, headTaken⟩ := exists_slice? le here before
  obtain ⟨statement, statementTaken⟩ := exists_slice? (Nat.le_succ_of_le le) here after
  simp only [marked?, headTaken, mark, statementTaken, Option.bind_eq_bind, Option.bind_some]
  split
  · exact ⟨_, _, rfl, Nat.lt_succ_self i, after⟩
  · exact exists_rule? className head before after.le

theorem exists_item? (className : String) (start : IsBoundary s i) (inside : i < s.utf8ByteSize) :
    ∃ text k, item? s className i = some (text, k) ∧ i < k ∧ IsBoundary s k := by
  obtain ⟨first, here⟩ : ∃ b, (bytes s)[i]? = some b :=
    ⟨_, List.getElem?_eq_getElem (Text.length_bytes s ▸ inside)⟩
  simp only [item?, here, Option.bind_eq_bind, Option.bind_some]
  by_cases brace : first = '\x7d'.toUInt8
  · rw [if_pos brace]
    exact ⟨_, _, rfl, Nat.lt_succ_self i, (isBoundary_of_ascii here (brace ▸ by decide)).2⟩
  rw [if_neg brace]
  cases ended : preludeEnd? (bytes s) 0 i with
  | none =>
    obtain ⟨rest, taken⟩ := exists_slice? start.le start (isBoundary_end s)
    exact ⟨rest, _, by rw [taken]; rfl, inside, isBoundary_end s⟩
  | some stop =>
    obtain ⟨le, mark⟩ := preludeEnd?_eq_some ended
    obtain ⟨b, there, small⟩ : ∃ b, (bytes s)[stop]? = some b ∧ b < 128 := by
      rcases mark with there | there
      · exact ⟨_, there, by decide⟩
      · exact ⟨_, there, by decide⟩
    obtain ⟨text, k, taken, moved, boundary⟩ := exists_marked? className start le there small
    exact ⟨text, k, taken, by omega, boundary⟩

theorem exists_turn? (className : String) (start : IsBoundary s i) (inside : i < s.utf8ByteSize) :
    ∃ text k, turn? s className i = some (text, k) ∧ i < k ∧ IsBoundary s k := by
  obtain ⟨first, gap, le, boundary⟩ := exists_gapEnd? start
  obtain ⟨space, taken⟩ := exists_slice? le start boundary
  simp only [turn?, gap, taken, Option.bind_eq_bind, Option.bind_some]
  by_cases ended : s.utf8ByteSize ≤ first
  · exact ⟨space, first, by rw [if_pos ended]; rfl, by omega, boundary⟩
  · obtain ⟨text, k, item, moved, boundary⟩ :=
      exists_item? className boundary (Nat.lt_of_not_le ended)
    rw [if_neg ended, item]
    exact ⟨_, _, rfl, by omega, boundary⟩

theorem exists_turns? (className : String) (bound : Nat) (start : IsBoundary s i)
    (enough : s.utf8ByteSize ≤ i + bound) :
    ∃ turns, turns? s className bound i = some turns ∧
      (i :: turns.map Prod.snd).Pairwise (· < ·) ∧
        (i :: turns.map Prod.snd).getLast (List.cons_ne_nil _ _) = s.utf8ByteSize := by
  induction bound generalizing i with
  | zero =>
    have ended : s.utf8ByteSize ≤ i := enough
    exact ⟨[], by rw [turns?, if_pos ended], List.pairwise_singleton .., le_antisymm start.le ended⟩
  | succ bound ih =>
    by_cases ended : s.utf8ByteSize ≤ i
    · exact ⟨[], by rw [turns?, if_pos ended], List.pairwise_singleton ..,
        le_antisymm start.le ended⟩
    obtain ⟨text, k, turned, moved, boundary⟩ :=
      exists_turn? className start (Nat.lt_of_not_le ended)
    obtain ⟨rest, others, ascend, last⟩ := ih boundary (by omega)
    refine ⟨(text, k) :: rest, ?_, ?_, ?_⟩
    · simp [turns?, if_neg ended, turned, others]
    · refine List.pairwise_cons.2 ⟨fun j member => ?_, ascend⟩
      rcases List.mem_cons.1 member with rfl | later
      · exact moved
      · exact moved.trans ((List.pairwise_cons.1 ascend).1 j later)
    · rw [← last]
      rfl

end

end ComponentCompiler.Style
