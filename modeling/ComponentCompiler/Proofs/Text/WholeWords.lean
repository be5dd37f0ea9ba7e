import ComponentCompiler.Proofs.Text.Scanning
import ComponentCompiler.Text.Trim
import ComponentCompiler.Text.Word

namespace ComponentCompiler.Text

def blankRanges : List (Nat × Nat) :=
  [(0x85, 0x85), (0xA0, 0xA0), (0x1680, 0x1680), (0x2000, 0x200A), (0x2028, 0x2029),
    (0x202F, 0x202F), (0x205F, 0x205F), (0x3000, 0x3000)]

def isApart (r s : Nat × Nat) : Bool :=
  Nat.blt r.2 s.1 || Nat.blt s.2 r.1

theorem inRanges_eq_false {ranges : List (Nat × Nat)} {r : Nat × Nat} {code : Nat}
    (apart : ranges.all (isApart r) = true) (least : r.1 ≤ code) (most : code ≤ r.2) :
    inRanges ranges code = false := by
  rw [inRanges, List.any_eq_false]
  intro s member
  have disjoint := List.all_eq_true.1 apart s member
  simp only [isApart, Bool.or_eq_true, Nat.blt_eq] at disjoint
  simp only [Bool.and_eq_true, decide_eq_true_eq, not_and]
  omega

theorem isWord_eq_false_of_isBlank {c : Char} (blank : isBlank c = true) : isWord c = false := by
  have apart : ∀ r ∈ blankRanges, wordOnlyRanges.all (isApart r) = true ∧
      identifierStartRanges.all (isApart r) = true ∧
      identifierPartRanges.all (isApart r) = true := by decide +kernel
  have ascii : ∀ n < 0x80, isBlank (Char.ofNat n) = true → isWord (Char.ofNat n) = false := by
    decide
  by_cases small : c.toNat < 0x80
  · have word := ascii _ small
    rw [Char.ofNat_toNat] at word
    exact word blank
  · obtain ⟨r, member, least, most⟩ :
        ∃ r ∈ blankRanges, r.1 ≤ c.toNat ∧ c.toNat ≤ r.2 := by
      simp only [isBlank, Bool.or_eq_true, Bool.and_eq_true, decide_eq_true_eq] at blank
      simp only [blankRanges, List.mem_cons, List.not_mem_nil, or_false, exists_eq_or_imp,
        exists_eq_left]
      omega
    obtain ⟨only, start, part⟩ := apart r member
    simp [isWord, isAscii, small, isIdentifierPart, inRanges_eq_false only least most,
      inRanges_eq_false start least most, inRanges_eq_false part least most]

theorem trimStart_eq_cons {c : Char} (apart : isBlank c = false) {cs rest : List Char} :
    trimStart cs = c :: rest ↔ ∃ gap, (∀ c ∈ gap, isBlank c = true) ∧ cs = gap ++ c :: rest := by
  constructor
  · intro front
    have parts := List.takeWhile_append_dropWhile (p := isBlank) (l := cs)
    rw [trimStart] at front
    rw [front] at parts
    exact ⟨_, List.all_eq_true.1 List.all_takeWhile, parts.symm⟩
  · rintro ⟨gap, blank, rfl⟩
    refine dropWhile_append_of_stops blank ?_
    rintro d ⟨⟩
    exact apart

structure IsWhole (word : List Char) : Prop where
  nonempty : word ≠ []
  solid : ∀ c ∈ word, isWord c = true

/-- The word stands somewhere in the text, with no word character before or after it. -/
def HasWord (word cs : List Char) : Prop :=
  ∃ xs ys, cs = xs ++ (word ++ ys) ∧ (∀ c ∈ xs.getLast?, isWord c = false) ∧ Stops isWord ys

section Edges

variable {word : List Char}

theorem after?_eq_some {cs rest : List Char} : after? word cs = some rest ↔ cs = word ++ rest := by
  induction word generalizing cs with
  | nil => simp [after?, eq_comm]
  | cons w ws ih =>
    cases cs with
    | nil => simp [after?]
    | cons c cs =>
      rw [after?]
      split
      next same => rw [ih, same, List.cons_append, List.cons.injEq, and_iff_right rfl]
      next differs => simp [Ne.symm differs]

theorem isWordEdge_word {before : Option Char} {c : Char} (isPart : isWord c = true) :
    isWordEdge before (some c) = true ↔ ∀ d ∈ before, isWord d = false := by
  cases before <;> simp [isWordEdge, isPart]

theorem word_isWordEdge {after : Option Char} {c : Char} (isPart : isWord c = true) :
    isWordEdge (some c) after = true ↔ ∀ d ∈ after, isWord d = false := by
  cases after <;> simp [isWordEdge, isPart]

theorem IsWhole.afterWord?_eq_some (whole : IsWhole word) {before : Option Char}
    {ahead rest : List Char} :
    afterWord? word before ahead = some rest ↔
      ahead = word ++ rest ∧ (∀ c ∈ before, isWord c = false) ∧ Stops isWord rest := by
  obtain ⟨w, ws, rfl⟩ := List.exists_cons_of_ne_nil whole.nonempty
  obtain ⟨init, last, ends⟩ := List.eq_nil_or_concat' (w :: ws) |>.resolve_left whole.nonempty
  have first : isWordEdge before (some w) = true ↔ _ := isWordEdge_word (whole.solid w (by simp))
  have final : isWordEdge (some last) rest.head? = true ↔ _ :=
    word_isWordEdge (whole.solid last (by simp [ends]))
  have lastOf : (w :: ws).getLast?.or before = some last := by rw [ends]; simp
  constructor
  · intro found
    rw [afterWord?] at found
    split at found
    next edge =>
      split at found
      next more matched =>
        rw [after?_eq_some] at matched
        subst matched
        split at found
        next edge' =>
          cases found
          rw [lastOf, final] at edge'
          exact ⟨rfl, first.1 edge, edge'⟩
        next => cases found
      next => cases found
    next => cases found
  · rintro ⟨rfl, before_, after_⟩
    have edge : isWordEdge before (w :: ws ++ rest).head? = true := first.2 before_
    rw [afterWord?, if_pos edge, after?_eq_some.2 rfl]
    simp only [lastOf]
    rw [if_pos (final.2 after_)]

theorem IsWhole.afterWord?_of_after? (whole : IsWhole word) {before : Option Char}
    {ahead rest : List Char} (edge : isWordEdge before ahead.head? = true)
    (after : after? word ahead = some rest) (stops : Stops isWord rest) :
    afterWord? word before ahead = some rest := by
  rw [after?_eq_some] at after
  obtain ⟨w, ws, rfl⟩ := List.exists_cons_of_ne_nil whole.nonempty
  rw [after, List.cons_append, List.head?_cons, isWordEdge_word (whole.solid w (by simp))] at edge
  exact whole.afterWord?_eq_some.2 ⟨after, edge, stops⟩

theorem stops_of_trimStart {c : Char} {cs rest : List Char} (front : trimStart cs = c :: rest)
    (apart : isWord c = false) : Stops isWord cs := by
  intro d first
  obtain ⟨ds, rfl⟩ := List.head?_eq_some_iff.1 first
  rw [trimStart, List.dropWhile_cons] at front
  split at front
  next blank => exact isWord_eq_false_of_isBlank blank
  next => rwa [(List.cons.inj front).1]

end Edges

section HasWord

variable {word xs ys : List Char}

theorem Stops.of_append {p : Char → Bool} (stops : Stops p (xs ++ ys)) : Stops p xs := by
  cases xs with
  | nil => simp [Stops]
  | cons x xs => exact stops

theorem IsWhole.within {c : Char} (whole : IsWhole word) (apart : isWord c = false)
    {rest : List Char} (parts : xs ++ c :: ys = word ++ rest) :
    ∃ left, xs = word ++ left ∧ rest = left ++ c :: ys :=
  exists_of_append_cons_eq_append
    (fun member => Bool.false_ne_true (apart.symm.trans (whole.solid c member))) parts

theorem getLast?_append_cons (xs : List Char) (c : Char) (ys : List Char) :
    (xs ++ c :: ys).getLast? = some (ys.getLast?.getD c) := by
  rw [List.getLast?_append, List.getLast?_cons]
  rfl

theorem HasWord.mem {c : Char} (has : HasWord word xs) (member : c ∈ word) : c ∈ xs := by
  obtain ⟨before, after, rfl, -⟩ := has
  simp [member]

theorem getLast?_cons_or (c : Char) (cs : List Char) (before : Option Char) :
    (c :: cs).getLast?.or before = cs.getLast?.or (some c) := by
  rw [List.getLast?_cons]
  cases cs.getLast? <;> rfl

theorem hasWord_append_cons {c : Char} (whole : IsWhole word) (apart : isWord c = false) :
    HasWord word (xs ++ c :: ys) ↔ HasWord word xs ∨ HasWord word ys := by
  constructor
  · rintro ⟨before, after, parts, edge, stops⟩
    rcases List.append_eq_append_iff.1 parts with ⟨gap, rfl, rest⟩ | ⟨gap, rfl, rest⟩
    · cases gap with
      | nil =>
        obtain ⟨w, ws, rfl⟩ := List.exists_cons_of_ne_nil whole.nonempty
        obtain ⟨rfl, -⟩ := List.cons.inj rest
        rw [whole.solid c (by simp)] at apart
        cases apart
      | cons d gap =>
        obtain ⟨rfl, rfl⟩ := List.cons.inj rest
        refine .inr ⟨gap, after, rfl, fun d last => edge d ?_, stops⟩
        rw [getLast?_append_cons, Option.mem_def.1 last]
        rfl
    · obtain ⟨left, rfl, rfl⟩ := whole.within apart rest.symm
      exact .inl ⟨before, left, rfl, edge, stops.of_append⟩
  · rintro (⟨before, after, rfl, edge, stops⟩ | ⟨before, after, rfl, edge, stops⟩)
    · refine ⟨before, after ++ c :: ys, by simp, edge, ?_⟩
      cases after with
      | nil =>
        intro d first
        cases first
        exact apart
      | cons d after => exact stops
    · refine ⟨xs ++ c :: before, after, by simp, fun d last => ?_, stops⟩
      rw [getLast?_append_cons, Option.mem_some_iff] at last
      subst last
      cases ends : before.getLast? with
      | none => exact apart
      | some e => exact edge e ends

theorem not_hasWord_nil (whole : IsWhole word) : ¬HasWord word [] := by
  rintro ⟨before, after, parts, -⟩
  have empty := List.append_eq_nil_iff.1 (List.append_eq_nil_iff.1 parts.symm).2
  exact whole.nonempty empty.1

theorem hasWord_cons {c : Char} (whole : IsWhole word) (apart : isWord c = false) :
    HasWord word (c :: xs) ↔ HasWord word xs := by
  rw [← List.nil_append (c :: xs), hasWord_append_cons whole apart]
  exact or_iff_right (not_hasWord_nil whole)

theorem hasWord_append (whole : IsWhole word) (ends : ∀ c ∈ xs.getLast?, isWord c = false) :
    HasWord word (xs ++ ys) ↔ HasWord word xs ∨ HasWord word ys := by
  rcases List.eq_nil_or_concat' xs with rfl | ⟨init, c, rfl⟩
  · exact (or_iff_right (not_hasWord_nil whole)).symm
  · have apart := ends c (by simp)
    rw [List.append_assoc, List.singleton_append, hasWord_append_cons whole apart,
      hasWord_append_cons whole apart, or_iff_left (not_hasWord_nil whole)]

theorem hasWord_iff_exists_index : HasWord word xs ↔ ∃ i < xs.length + 1,
    (∀ c ∈ (xs.take i).getLast?, isWord c = false) ∧ word <+: xs.drop i ∧
      Stops isWord (xs.drop (i + word.length)) := by
  constructor
  · rintro ⟨before, after, rfl, edge, stops⟩
    have within : before.length < (before ++ (word ++ after)).length + 1 := by
      rw [List.length_append]
      omega
    refine ⟨before.length, within, by simpa using edge, by simp, ?_⟩
    rwa [← List.append_assoc, ← List.length_append, List.drop_left]
  · rintro ⟨i, -, edge, ⟨after, found⟩, stops⟩
    refine ⟨xs.take i, after, by rw [found, List.take_append_drop], edge, ?_⟩
    rwa [← List.drop_drop, ← found, List.drop_left] at stops

instance (p : Char → Bool) (cs : List Char) : Decidable (Stops p cs) :=
  Option.decidableForallMem cs.head?

instance : Decidable (HasWord word xs) :=
  letI : ∀ i, Decidable (∀ c ∈ (xs.take i).getLast?, isWord c = false) := fun i =>
    Option.decidableForallMem (xs.take i).getLast?
  decidable_of_iff _ hasWord_iff_exists_index.symm

theorem not_hasWord_append (whole : IsWhole word) (absent : ¬HasWord word xs) (more : ys ≠ [])
    (solid : ∀ c ∈ ys, isWord c = true) (differs : word.getLast? ≠ ys.getLast?) :
    ¬HasWord word (xs ++ ys) := by
  rintro ⟨before, after, parts, edge, stops⟩
  rw [← List.append_assoc] at parts
  rcases List.append_eq_append_iff.1 parts with ⟨gap, ends, rfl⟩ | ⟨gap, rfl, rfl⟩
  · cases after with
    | nil =>
      have last := congrArg List.getLast? ends
      rw [List.append_nil] at more differs
      rw [List.getLast?_append_of_ne_nil _ whole.nonempty,
        List.getLast?_append_of_ne_nil _ more] at last
      exact differs last
    | cons d after =>
      have isPart := solid d (by simp)
      rw [stops d rfl] at isPart
      cases isPart
  · exact absent ⟨before, gap, List.append_assoc .., edge, stops.of_append⟩

theorem not_hasWord_of_append (whole : IsWhole word) (absent : ¬HasWord word ys) (more : xs ≠ [])
    (solid : ∀ c ∈ xs, isWord c = true) (differs : word.head? ≠ xs.head?) :
    ¬HasWord word (xs ++ ys) := by
  rintro ⟨before, after, parts, edge, stops⟩
  rcases List.append_eq_append_iff.1 parts with ⟨gap, rfl, rfl⟩ | ⟨gap, rfl, starts⟩
  · refine absent ⟨gap, after, rfl, fun d last => edge d ?_, stops⟩
    rw [List.getLast?_append, Option.mem_def.1 last]
    rfl
  · rcases List.eq_nil_or_concat' before with rfl | ⟨front, d, rfl⟩
    · rw [List.nil_append] at more differs
      have first := congrArg List.head? starts
      rw [List.head?_append_of_ne_nil _ whole.nonempty,
        List.head?_append_of_ne_nil _ more] at first
      exact differs first
    · have isPart := solid d (by simp)
      rw [edge d (by simp)] at isPart
      cases isPart

/-- Where a word does not stand in a text, it starts nowhere in it, provided that no word goes on
at its end. -/
theorem afterWord?_eq_none (whole : IsWhole word) (absent : ¬HasWord word (xs ++ ys))
    (ends : ∀ c ∈ (xs ++ ys).getLast?, isWord c = false) (more : ys ≠ []) (rest : List Char) :
    afterWord? word xs.getLast? (ys ++ rest) = none := by
  rw [Option.eq_none_iff_forall_ne_some]
  intro after found
  obtain ⟨starts, edge, stops⟩ := whole.afterWord?_eq_some.1 found
  obtain ⟨init, c, rfl⟩ := (List.eq_nil_or_concat' ys).resolve_left more
  have apart := ends c (by simp)
  rw [List.append_assoc, List.singleton_append] at starts
  obtain ⟨left, rfl, rfl⟩ := whole.within apart starts
  have longer : Stops isWord (left ++ [c] ++ rest) := by simpa using stops
  exact absent ⟨xs, left ++ [c], by simp, edge, longer.of_append⟩

end HasWord

section ReplaceWord

variable {word image : List Char}

def matchWord (word image : List Char) (before : Option Char) (ahead : List Char) : Option Match :=
  (afterWord? word before ahead).map fun _ => (word.length, image)

theorem replaceWord_eq (whole : IsWhole word) (image cs : List Char) :
    replaceWord word image cs = substituteFrom (matchWord word image) 0 none cs := by
  rw [replaceWord, if_neg (by simp [whole.nonempty])]
  rfl

theorem matchWord_eq_none {before : Option Char} {ahead : List Char} :
    matchWord word image before ahead = none ↔ ∀ rest, afterWord? word before ahead ≠ some rest := by
  rw [matchWord, Option.map_eq_none_iff, Option.eq_none_iff_forall_ne_some]

theorem matchWord_eq_some {before : Option Char} {ahead : List Char} {found : Match} :
    matchWord word image before ahead = some found ↔
      found = (word.length, image) ∧ ∃ rest, afterWord? word before ahead = some rest := by
  rw [matchWord, Option.map_eq_some_iff]
  exact ⟨fun ⟨rest, matched, same⟩ => ⟨same.symm, rest, matched⟩,
    fun ⟨same, rest, matched⟩ => ⟨rest, matched, same.symm⟩⟩

theorem matchWord_before (whole : IsWhole word) {c : Char} (apart : isWord c = false)
    (ahead : List Char) : matchWord word image (some c) ahead = matchWord word image none ahead := by
  ext found
  simp only [Option.mem_def, matchWord_eq_some, whole.afterWord?_eq_some]
  simp [apart]

theorem matchWord_append_cons (whole : IsWhole word) {c : Char} (apart : isWord c = false)
    (before : Option Char) (xs ys : List Char) :
    matchWord word image before (xs ++ c :: ys) = matchWord word image before xs := by
  ext found
  simp only [Option.mem_def, matchWord_eq_some, whole.afterWord?_eq_some]
  refine and_congr_right fun _ => ⟨?_, ?_⟩
  · rintro ⟨rest, parts, edge, stops⟩
    obtain ⟨left, rfl, rfl⟩ := whole.within apart parts
    exact ⟨left, rfl, edge, stops.of_append⟩
  · rintro ⟨rest, rfl, edge, stops⟩
    refine ⟨rest ++ c :: ys, by simp, edge, ?_⟩
    cases rest with
    | nil =>
      intro d first
      cases first
      exact apart
    | cons d rest => exact stops

theorem length_le_of_matchWord (whole : IsWhole word) {before : Option Char} {ahead : List Char}
    {found : Match} (matched : matchWord word image before ahead = some found) :
    found.1 ≤ ahead.length := by
  obtain ⟨rfl, rest, after⟩ := matchWord_eq_some.1 matched
  rw [(whole.afterWord?_eq_some.1 after).1, List.length_append]
  exact Nat.le_add_right ..

theorem substituteFrom_matchWord_append (whole : IsWhole word) {c : Char} (apart : isWord c = false)
    {skip : Nat} {xs : List Char} (fits : skip ≤ xs.length) (before : Option Char)
    (ys : List Char) :
    substituteFrom (matchWord word image) skip before (xs ++ c :: ys) =
      substituteFrom (matchWord word image) skip before xs ++ c :: replaceWord word image ys := by
  induction xs generalizing skip before with
  | nil =>
    have unmatched : matchWord word image before (c :: ys) = none := by
      rw [← List.nil_append (c :: ys), matchWord_append_cons whole apart, matchWord_eq_none]
      intro rest found
      exact whole.nonempty (List.append_eq_nil_iff.1 (whole.afterWord?_eq_some.1 found).1.symm).1
    obtain rfl : skip = 0 := Nat.le_zero.1 fits
    simp only [List.nil_append, substituteFrom, unmatched, replaceWord_eq whole]
    cases ys with
    | nil => rfl
    | cons y ys => simp only [substituteFrom, matchWord_before whole apart]
  | cons x xs ih =>
    rw [List.length_cons] at fits
    cases skip with
    | succ skip => exact ih (by omega) (some x)
    | zero =>
      rw [List.cons_append, substituteFrom, substituteFrom, ← List.cons_append,
        matchWord_append_cons whole apart]
      cases found : matchWord word image before (x :: xs) with
      | none =>
        simp only
        rw [ih (Nat.zero_le _), List.cons_append]
      | some found =>
        have within := length_le_of_matchWord whole (by assumption)
        rw [List.length_cons] at within
        simp only
        rw [ih (by omega), List.append_assoc]

theorem replaceWord_append_cons (whole : IsWhole word) {c : Char} (apart : isWord c = false)
    (xs ys : List Char) :
    replaceWord word image (xs ++ c :: ys) =
      replaceWord word image xs ++ c :: replaceWord word image ys := by
  rw [replaceWord_eq whole, substituteFrom_matchWord_append whole apart (Nat.zero_le _),
    ← replaceWord_eq whole]

theorem replaceWord_self (whole : IsWhole word) : replaceWord word image word = image := by
  obtain ⟨w, ws, rfl⟩ := List.exists_cons_of_ne_nil whole.nonempty
  have matched : matchWord (w :: ws) image none (w :: ws) = some ((w :: ws).length, image) := by
    refine matchWord_eq_some.2 ⟨rfl, [], whole.afterWord?_eq_some.2 ⟨?_, ?_, ?_⟩⟩
    · exact (List.append_nil _).symm
    · exact fun _ => nofun
    · exact fun _ => nofun
  have skipped : ∀ (xs : List Char) (before : Option Char),
      substituteFrom (matchWord (w :: ws) image) xs.length before xs = [] := by
    intro xs
    induction xs with
    | nil => exact fun _ => rfl
    | cons x xs ih => exact fun before => ih (some x)
  rw [replaceWord_eq whole, substituteFrom, matched]
  exact (congrArg (image ++ ·) (skipped ws (some w))).trans (List.append_nil image)

theorem replaceWord_of_not_hasWord (whole : IsWhole word) {cs : List Char}
    (absent : ¬HasWord word cs) : replaceWord word image cs = cs := by
  have copies : ∀ (front back : List Char), cs = front ++ back →
      substituteFrom (matchWord word image) 0 front.getLast? back = back := by
    intro front back
    induction back generalizing front with
    | nil => exact fun _ => rfl
    | cons c back ih =>
      intro parts
      have unmatched : matchWord word image front.getLast? (c :: back) = none := by
        rw [matchWord_eq_none]
        intro rest found
        obtain ⟨starts, edge, stops⟩ := whole.afterWord?_eq_some.1 found
        exact absent ⟨front, rest, by rw [parts, starts], edge, stops⟩
      have after := ih (front ++ [c]) (by simp [parts])
      rw [List.getLast?_concat] at after
      simp only [substituteFrom, unmatched, after]
  rw [replaceWord_eq whole]
  exact copies [] cs rfl

end ReplaceWord

end ComponentCompiler.Text
