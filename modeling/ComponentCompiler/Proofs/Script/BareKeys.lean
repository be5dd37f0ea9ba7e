import ComponentCompiler.Proofs.Expression.Path
import ComponentCompiler.Proofs.Text.WholeWords
import ComponentCompiler.Script.Defaults
import Mathlib.Data.List.Infix

namespace ComponentCompiler.Script

open Text (Stops dropWhile_append_of_stops isBlank takeWhile_append_of_stops trimStart)

def IsBareKey (key : List Char) : Prop :=
  ∃ k ks, key = k :: ks ∧ isKeyStart k = true ∧ ∀ c ∈ ks, isKeyPart c = true

/-- A bare key with the white space around it and the colon. -/
structure IsKeyed (gap key space : List Char) : Prop where
  before : ∀ c ∈ gap, isBlank c = true
  bare : IsBareKey key
  after : ∀ c ∈ space, isBlank c = true

theorem forall_isKeyStart {P : Char → Prop}
    (ascii : ∀ n < 0x80, isKeyStart (Char.ofNat n) = true → P (Char.ofNat n)) {k : Char}
    (start : isKeyStart k = true) : P k :=
  Expression.forall_isNamePart (P := fun k => isKeyStart k = true → P k) (fun n small _ => ascii n small)
    (Expression.isNamePart_of_isNameStart start) start

theorem isBlank_eq_false_of_isKeyStart {k : Char} (start : isKeyStart k = true) :
    isBlank k = false :=
  forall_isKeyStart (P := fun k => isBlank k = false) (by decide) start

theorem isKeyPart_eq_false_of_isBlank {c : Char} (blank : isBlank c = true) :
    isKeyPart c = false := by
  have dollar : c ≠ '$' := Text.ne_of_holds blank (by decide)
  simp [isKeyPart, Text.isWord_eq_false_of_isBlank blank, dollar]

section Found

variable {c : Char} {cs gap key space rest : List Char}

theorem bareKey?_found (lead : c = '\x7b' ∨ c = ',') (keyed : IsKeyed gap key space)
    (rest : List Char) : bareKey? (c :: (gap ++ (key ++ (space ++ ':' :: rest)))) =
      some (c :: gap, key, (c :: (gap ++ (key ++ (space ++ [':'])))).length) := by
  obtain ⟨before, ⟨k, ks, rfl, start, part⟩, after⟩ := keyed
  have stops : Stops isBlank (k :: ks ++ (space ++ ':' :: rest)) := by
    intro d first
    cases first
    exact isBlank_eq_false_of_isKeyStart start
  have ends : Stops isKeyPart (space ++ ':' :: rest) :=
    Text.stops_append_cons (fun d member => isKeyPart_eq_false_of_isBlank (after d member)) rfl
  have colon : Stops isBlank (':' :: rest) := by
    intro d first
    cases first
    rfl
  rw [bareKey?, if_pos (by simpa using lead), trimStart, dropWhile_append_of_stops before stops,
    takeWhile_append_of_stops before stops]
  simp only [List.cons_append, start, if_pos, takeWhile_append_of_stops part ends,
    dropWhile_append_of_stops part ends, trimStart, dropWhile_append_of_stops after colon]
  simp
  omega

theorem bareKey?_eq_some {found : List Char × List Char × Nat} :
    bareKey? (c :: cs) = some found ↔ (c = '\x7b' ∨ c = ',') ∧ ∃ gap key space rest,
      IsKeyed gap key space ∧ cs = gap ++ (key ++ (space ++ ':' :: rest)) ∧
        found = (c :: gap, key, (c :: (gap ++ (key ++ (space ++ [':'])))).length) := by
  constructor
  · intro whole
    have bare := whole
    rw [bareKey?] at bare
    split at bare
    next lead =>
      split at bare
      next k more front =>
        split at bare
        next start =>
          dsimp only at bare
          split at bare
          next after colon =>
            have keyed : IsKeyed (cs.takeWhile isBlank) (k :: more.takeWhile isKeyPart)
                ((more.dropWhile isKeyPart).takeWhile isBlank) :=
              ⟨List.all_eq_true.1 List.all_takeWhile,
                ⟨k, _, rfl, start, List.all_eq_true.1 List.all_takeWhile⟩,
                List.all_eq_true.1 List.all_takeWhile⟩
            have name := List.takeWhile_append_dropWhile (p := isKeyPart) (l := more)
            have tail := List.takeWhile_append_dropWhile (p := isBlank) (l := more.dropWhile isKeyPart)
            have parts := List.takeWhile_append_dropWhile (p := isBlank) (l := cs)
            rw [trimStart] at front colon
            rw [colon] at tail
            rw [front, ← name, ← tail] at parts
            have lead : c = '\x7b' ∨ c = ',' := by simpa using lead
            have here := bareKey?_found lead keyed after
            rw [List.cons_append, parts, whole] at here
            exact ⟨lead, _, _, _, after, keyed, parts.symm, Option.some.inj here⟩
          next => cases bare
        next => cases bare
      next => cases bare
    next => cases bare
  · rintro ⟨lead, gap, key, space, rest, keyed, rfl, rfl⟩
    exact bareKey?_found lead keyed rest

end Found

def matchBareKey (ahead : List Char) : Option Text.Match :=
  (bareKey? ahead).map fun (lead, key, length) => (length, lead ++ '"' :: (key ++ ['"', ':']))

theorem quoteKeys_eq (cs : List Char) : quoteKeys cs = Text.substitute (fun _ => matchBareKey) cs :=
  rfl

section Quotes

variable {c : Char} {gap key space : List Char}

theorem matchBareKey_eq_none {ahead : List Char} : matchBareKey ahead = none ↔ bareKey? ahead = none :=
  Option.map_eq_none_iff

theorem quoteKeys_bare (lead : c = '\x7b' ∨ c = ',') (keyed : IsKeyed gap key space)
    (rest : List Char) : quoteKeys (c :: (gap ++ (key ++ (space ++ ':' :: rest)))) =
      c :: (gap ++ '"' :: (key ++ '"' :: ':' :: quoteKeys rest)) := by
  have parts : c :: (gap ++ (key ++ (space ++ ':' :: rest))) =
      c :: (gap ++ (key ++ (space ++ [':']))) ++ rest := by simp
  have found : matchBareKey (c :: (gap ++ (key ++ (space ++ ':' :: rest)))) =
      some ((c :: (gap ++ (key ++ (space ++ [':'])))).length,
        c :: gap ++ '"' :: (key ++ ['"', ':'])) := by
    rw [matchBareKey, bareKey?_found lead keyed rest]
    rfl
  rw [parts] at found ⊢
  rw [quoteKeys_eq, Text.substitute_found (List.cons_ne_nil _ _) found]
  simp [quoteKeys_eq]

theorem quoteKeys_cons_of_none {cs : List Char} (none_ : bareKey? (c :: cs) = none) :
    quoteKeys (c :: cs) = c :: quoteKeys cs := by
  rw [quoteKeys_eq, Text.substitute_cons, matchBareKey_eq_none.2 none_]
  rfl

theorem bareKey?_append_cons {d : Char} (parts : d = '\x7d' ∨ d = ',') (cs ys : List Char) :
    bareKey? (c :: cs ++ d :: ys) = bareKey? (c :: cs) := by
  have apart : isBlank d = false ∧ isKeyStart d = false ∧ isKeyPart d = false ∧ d ≠ ':' := by
    rcases parts with rfl | rfl <;> decide
  ext found
  rw [List.cons_append, bareKey?_eq_some, bareKey?_eq_some]
  refine and_congr_right fun _ => ⟨?_, ?_⟩
  · rintro ⟨gap, key, space, rest, keyed, whole, rfl⟩
    have absent : d ∉ gap ++ (key ++ (space ++ [':'])) := by
      obtain ⟨before, ⟨k, ks, rfl, start, part⟩, after⟩ := keyed
      simp only [List.cons_append, List.mem_append, List.mem_cons, List.not_mem_nil, or_false, not_or]
      have notIn {p : Char → Bool} {xs : List Char} (refused : p d = false)
          (all : ∀ c ∈ xs, p c = true) : d ∉ xs := fun member =>
        Bool.false_ne_true (refused.symm.trans (all d member))
      exact ⟨notIn apart.1 before, (Text.ne_of_holds start apart.2.1).symm,
        notIn apart.2.2.1 part, notIn apart.1 after, apart.2.2.2⟩
    have same : gap ++ (key ++ (space ++ ':' :: rest)) = gap ++ (key ++ (space ++ [':'])) ++ rest := by
      simp
    rw [same] at whole
    obtain ⟨left, rfl, rfl⟩ := Text.exists_of_append_cons_eq_append absent whole
    exact ⟨gap, key, space, left, keyed, by simp, rfl⟩
  · rintro ⟨gap, key, space, rest, keyed, rfl, rfl⟩
    exact ⟨gap, key, space, rest ++ d :: ys, keyed, by simp, rfl⟩

theorem length_le_of_matchBareKey {ahead : List Char} {found : Text.Match}
    (matched : matchBareKey ahead = some found) : found.1 ≤ ahead.length := by
  obtain ⟨bare, key, rfl⟩ := Option.map_eq_some_iff.1 matched
  cases ahead with
  | nil => cases key
  | cons c cs =>
    obtain ⟨-, gap, name, space, rest, -, rfl, rfl⟩ := bareKey?_eq_some.1 key
    simp only [List.length_cons, List.length_append, List.length_nil]
    omega

theorem quoteKeys_append_cons {d : Char} (parts : d = '\x7d' ∨ d = ',') (cs ys : List Char) :
    quoteKeys (cs ++ d :: ys) = quoteKeys cs ++ quoteKeys (d :: ys) := by
  simp only [quoteKeys_eq]
  refine Text.substitute_append cs fun suffix _ some_ => ⟨?_, fun found matched =>
    length_le_of_matchBareKey matched⟩
  obtain ⟨c, suffix, rfl⟩ := List.exists_cons_of_ne_nil some_
  rw [matchBareKey, matchBareKey, bareKey?_append_cons parts]

end Quotes

/-- The text has a comma that a name and a colon follow, white space aside. -/
def HoldsBareKey (text : List Char) : Prop :=
  ∃ xs gap key space ys, IsKeyed gap key space ∧
    text = xs ++ ',' :: (gap ++ (key ++ (space ++ ':' :: ys)))

theorem holdsBareKey_iff {text : List Char} : HoldsBareKey text ↔
    ∃ tail ∈ text.tails, tail.head? = some ',' ∧ (bareKey? tail).isSome = true := by
  constructor
  · rintro ⟨xs, gap, key, space, ys, keyed, rfl⟩
    refine ⟨_, (List.mem_tails _ _).2 ⟨xs, rfl⟩, rfl, ?_⟩
    rw [bareKey?_found (.inr rfl) keyed]
    rfl
  · rintro ⟨tail, isTail, comma, some_⟩
    obtain ⟨xs, rfl⟩ := (List.mem_tails _ _).1 isTail
    obtain ⟨cs, rfl⟩ := List.head?_eq_some_iff.1 comma
    obtain ⟨found, bare⟩ := Option.isSome_iff_exists.1 some_
    obtain ⟨-, gap, key, space, rest, keyed, rfl, -⟩ := bareKey?_eq_some.1 bare
    exact ⟨xs, gap, key, space, rest, keyed, rfl⟩

instance (text : List Char) : Decidable (HoldsBareKey text) :=
  decidable_of_iff _ holdsBareKey_iff.symm

theorem quoteKeys_cases {text : List Char} (braceless : '\x7b' ∉ text) :
    ¬HoldsBareKey text ∧ quoteKeys text = text ∨
      ∃ xs gap key space ys, IsKeyed gap key space ∧
        text = xs ++ ',' :: (gap ++ (key ++ (space ++ ':' :: ys))) ∧
        quoteKeys text = xs ++ ',' :: (gap ++ '"' :: (key ++ '"' :: ':' :: quoteKeys ys)) := by
  -- Matches are looked for from the left, so the first place that matches is the first bare key.
  induction text with
  | nil =>
    refine .inl ⟨?_, rfl⟩
    rintro ⟨xs, gap, key, space, ys, -, parts⟩
    simp at parts
  | cons c cs ih =>
    rw [List.mem_cons, not_or] at braceless
    cases bare : bareKey? (c :: cs) with
    | some found =>
      obtain ⟨lead, gap, key, space, rest, keyed, rfl, -⟩ := bareKey?_eq_some.1 bare
      obtain rfl := lead.resolve_left (Ne.symm braceless.1)
      exact .inr ⟨[], gap, key, space, rest, keyed, rfl, quoteKeys_bare (.inr rfl) keyed rest⟩
    | none =>
      rw [quoteKeys_cons_of_none bare]
      rcases ih braceless.2 with ⟨absent, same⟩ | ⟨xs, gap, key, space, ys, keyed, rfl, quoted⟩
      · refine .inl ⟨?_, by rw [same]⟩
        rintro ⟨xs, gap, key, space, ys, keyed, parts⟩
        cases xs with
        | nil =>
          rw [List.nil_append] at parts
          rw [parts, bareKey?_found (.inr rfl) keyed] at bare
          cases bare
        | cons x xs => exact absent ⟨xs, gap, key, space, ys, keyed, (List.cons.inj parts).2⟩
      · exact .inr ⟨c :: xs, gap, key, space, ys, keyed, rfl, by rw [quoted]; rfl⟩

theorem quoteKeys_eq_self {text : List Char} (braceless : '\x7b' ∉ text)
    (absent : ¬HoldsBareKey text) : quoteKeys text = text := by
  rcases quoteKeys_cases braceless with ⟨-, same⟩ | ⟨xs, gap, key, space, ys, keyed, parts, -⟩
  · exact same
  · exact absurd ⟨xs, gap, key, space, ys, keyed, parts⟩ absent

end ComponentCompiler.Script
