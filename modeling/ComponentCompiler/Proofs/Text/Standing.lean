import ComponentCompiler.Proofs.Text.WholeWords
import Mathlib.Data.List.SplitBy
import Mathlib.Tactic.SplitIfs

/-!
# Where a word stands

A text is cut into stretches: its word characters as long as they go on, and every other character
alone.  A word stands where it is such a stretch.

* `standsAt_iff_stretches`, `wordCount_eq_count`: where a word stands, and how often.
* `replaceWord_eq_flatMap`, `stretches_replaceWord`: replacing a word replaces these stretches.
-/

namespace ComponentCompiler.Text

def StandsAt (word cs : List Char) (i : Nat) : Prop :=
  ∃ xs ys, cs = xs ++ (word ++ ys) ∧ xs.length = i ∧
    isWordEdge xs.getLast? (word ++ ys).head? = true ∧
    isWordEdge (xs ++ word).getLast? ys.head? = true

section Places

variable {word cs xs ys : List Char} {i : Nat}

theorem afterWord?_isSome {ahead : List Char} :
    (afterWord? word xs.getLast? ahead).isSome = true ↔
      ∃ ys, ahead = word ++ ys ∧ isWordEdge xs.getLast? (word ++ ys).head? = true ∧
        isWordEdge (xs ++ word).getLast? ys.head? = true := by
  rw [afterWord?, List.getLast?_append]
  cases found : after? word ahead with
  | none =>
    have missing : ∀ ys, ahead ≠ word ++ ys := by
      rintro ys rfl
      rw [after?_eq_some.2 rfl] at found
      cases found
    simp [missing]
  | some rest =>
    obtain rfl := after?_eq_some.1 found
    simp only [List.append_cancel_left_eq, exists_eq_left']
    split_ifs with before after
    · exact iff_of_true rfl ⟨before, after⟩
    · exact iff_of_false Bool.false_ne_true fun edges => after edges.2
    · exact iff_of_false Bool.false_ne_true fun edges => before edges.1

theorem standsAt_append {ahead : List Char} :
    StandsAt word (xs ++ ahead) xs.length ↔
      (afterWord? word xs.getLast? ahead).isSome = true := by
  rw [afterWord?_isSome]
  constructor
  · rintro ⟨front, ys, parts, length, before, after⟩
    obtain ⟨rfl, rfl⟩ := List.append_inj parts length.symm
    exact ⟨ys, rfl, before, after⟩
  · rintro ⟨ys, rfl, before, after⟩
    exact ⟨xs, ys, rfl, rfl, before, after⟩

theorem StandsAt.le_length (stands : StandsAt word cs i) : i ≤ cs.length := by
  obtain ⟨xs, ys, rfl, rfl, -⟩ := stands
  simp

theorem standsAt_iff_afterWord? : StandsAt word cs i ↔
    i ≤ cs.length ∧ (afterWord? word (cs.take i).getLast? (cs.drop i)).isSome = true := by
  have at_ (within : i ≤ cs.length) : StandsAt word cs i ↔
      (afterWord? word (cs.take i).getLast? (cs.drop i)).isSome = true := by
    rw [← standsAt_append, List.take_append_drop, List.length_take_of_le within]
  constructor
  · intro stands
    exact ⟨stands.le_length, (at_ stands.le_length).1 stands⟩
  · rintro ⟨within, found⟩
    exact (at_ within).2 found

instance : Decidable (StandsAt word cs i) :=
  decidable_of_iff _ standsAt_iff_afterWord?.symm

theorem IsWhole.standsAt_iff (whole : IsWhole word) : StandsAt word cs i ↔
    ∃ xs ys, cs = xs ++ (word ++ ys) ∧ xs.length = i ∧ (∀ c ∈ xs.getLast?, isWord c = false) ∧
      Stops isWord ys := by
  constructor
  · rintro ⟨xs, ys, rfl, rfl, before, after⟩
    have isSome := afterWord?_isSome.2 ⟨ys, rfl, before, after⟩
    obtain ⟨rest, found⟩ := Option.isSome_iff_exists.1 isSome
    obtain ⟨parts, edge, stops⟩ := whole.afterWord?_eq_some.1 found
    exact ⟨xs, rest, by rw [parts], rfl, edge, stops⟩
  · rintro ⟨xs, ys, rfl, rfl, edge, stops⟩
    rw [standsAt_append, whole.afterWord?_eq_some.2 ⟨rfl, edge, stops⟩]
    rfl

theorem IsWhole.hasWord_iff (whole : IsWhole word) : HasWord word cs ↔ ∃ i, StandsAt word cs i := by
  simp only [whole.standsAt_iff, HasWord]
  exact ⟨fun ⟨xs, ys, parts, edges⟩ => ⟨xs.length, xs, ys, parts, rfl, edges⟩,
    fun ⟨_, xs, ys, parts, _, edges⟩ => ⟨xs, ys, parts, edges⟩⟩

theorem standsAt_of_solid (whole : IsWhole word) (solid : ∀ c ∈ cs, isWord c = true) :
    StandsAt word cs i ↔ i = 0 ∧ cs = word := by
  rw [whole.standsAt_iff]
  constructor
  · rintro ⟨xs, ys, rfl, rfl, edge, stops⟩
    have front : xs = [] := by
      rcases List.eq_nil_or_concat' xs with rfl | ⟨init, c, rfl⟩
      · rfl
      · have part := solid c (by simp)
        rw [edge c (by simp)] at part
        cases part
    have back : ys = [] := by
      cases ys with
      | nil => rfl
      | cons c ys =>
        have part := solid c (by simp)
        rw [stops c rfl] at part
        cases part
    simp [front, back]
  · rintro ⟨rfl, rfl⟩
    exact ⟨[], [], by simp, rfl, fun _ => nofun, fun _ => nofun⟩

section Cut

variable {c : Char} (whole : IsWhole word) (apart : isWord c = false)

include whole apart

theorem standsAt_append_cons_left (within : i ≤ xs.length) :
    StandsAt word (xs ++ c :: ys) i ↔ StandsAt word xs i := by
  have local_ : (afterWord? word (xs.take i).getLast? (xs.drop i ++ c :: ys)).isSome =
      (afterWord? word (xs.take i).getLast? (xs.drop i)).isSome := by
    have same : matchWord word [] (xs.take i).getLast? (xs.drop i ++ c :: ys) =
        matchWord word [] (xs.take i).getLast? (xs.drop i) :=
      matchWord_append_cons whole apart _ _ _
    simpa [matchWord] using congrArg Option.isSome same
  have longer : i ≤ (xs ++ c :: ys).length := by
    rw [List.length_append]
    omega
  rw [standsAt_iff_afterWord?, standsAt_iff_afterWord?, List.take_append_of_le_length within,
    List.drop_append_of_le_length within, local_, and_iff_right within, and_iff_right longer]

theorem standsAt_append_cons_right :
    StandsAt word (xs ++ c :: ys) (xs.length + 1 + i) ↔ StandsAt word ys i := by
  have front : (xs ++ c :: ys).take (xs.length + 1 + i) = xs ++ c :: ys.take i := by
    rw [Nat.add_assoc, List.take_length_add_append, Nat.add_comm 1, List.take_succ_cons]
  have back : (xs ++ c :: ys).drop (xs.length + 1 + i) = ys.drop i := by
    rw [Nat.add_assoc, List.drop_length_add_append, Nat.add_comm 1, List.drop_succ_cons]
  have local_ : (afterWord? word (some ((ys.take i).getLast?.getD c)) (ys.drop i)).isSome =
      (afterWord? word (ys.take i).getLast? (ys.drop i)).isSome := by
    cases (ys.take i).getLast? with
    | some d => rfl
    | none =>
      have same : matchWord word [] (some c) (ys.drop i) = matchWord word [] none (ys.drop i) :=
        matchWord_before whole apart _
      simpa [matchWord] using congrArg Option.isSome same
  rw [standsAt_iff_afterWord?, standsAt_iff_afterWord?, front, back, getLast?_append_cons, local_,
    List.length_append, List.length_cons]
  exact and_congr_left fun _ => by omega

theorem standsAt_append_cons : StandsAt word (xs ++ c :: ys) i ↔
    StandsAt word xs i ∨ ∃ j, i = xs.length + 1 + j ∧ StandsAt word ys j := by
  rcases Nat.lt_or_ge xs.length i with later | within
  · obtain ⟨j, rfl⟩ : ∃ j, i = xs.length + 1 + j := ⟨i - (xs.length + 1), by omega⟩
    have beyond : ¬StandsAt word xs (xs.length + 1 + j) := fun stands => by
      have := stands.le_length
      omega
    rw [standsAt_append_cons_right whole apart, or_iff_right beyond]
    constructor
    · exact fun stands => ⟨j, rfl, stands⟩
    · rintro ⟨j', same, stands⟩
      rwa [Nat.add_left_cancel same]
  · rw [standsAt_append_cons_left whole apart within, or_iff_left]
    rintro ⟨j, rfl, -⟩
    omega

end Cut

end Places

theorem insertAtEdges_of_not_standsAt {cs image : List Char} (nowhere : ∀ i, ¬StandsAt [] cs i) :
    insertAtEdges image none cs = cs := by
  have inside (xs ys : List Char) (parts : cs = xs ++ ys) :
      isWordEdge xs.getLast? ys.head? = false := by
    rw [Bool.eq_false_iff]
    intro edge
    refine nowhere xs.length ⟨xs, ys, by rw [parts, List.nil_append], rfl, ?_, ?_⟩
    · rwa [List.nil_append]
    · rwa [List.append_nil]
  have copied (ys : List Char) : ∀ xs, cs = xs ++ ys →
      insertAtEdges image xs.getLast? ys = ys := by
    induction ys with
    | nil =>
      intro xs parts
      have here := inside xs [] parts
      simp_all [insertAtEdges]
    | cons c ys ih =>
      intro xs parts
      have here : isWordEdge xs.getLast? (some c) = false := inside xs (c :: ys) parts
      have later := ih (xs ++ [c]) (by rw [parts, List.append_assoc, List.singleton_append])
      rw [List.getLast?_concat] at later
      rw [insertAtEdges, here, later]
      rfl
  exact copied cs [] rfl

/-- The text cut between any two characters that are not both word characters. -/
def stretches (cs : List Char) : List (List Char) :=
  cs.splitBy fun c d => isWord c && isWord d

/-- What holds of texts of word characters, and of two texts with another character between them
when it holds of each, holds of all texts. -/
theorem stretch_induction {P : List Char → Prop} (solid : ∀ xs, (∀ c ∈ xs, isWord c = true) → P xs)
    (cut : ∀ xs c ys, isWord c = false → P xs → P ys → P (xs ++ c :: ys))
    (cs : List Char) : P cs := by
  induction length : cs.length using Nat.strongRecOn generalizing cs with
  | _ n ih =>
  have parts := List.takeWhile_append_dropWhile (p := isWord) (l := cs)
  have front : ∀ c ∈ cs.takeWhile isWord, isWord c = true := List.all_eq_true.1 List.all_takeWhile
  cases rest : cs.dropWhile isWord with
  | nil =>
    rw [rest, List.append_nil] at parts
    exact parts ▸ solid _ front
  | cons c ys =>
    have apart : isWord c = false := stops_dropWhile isWord cs c (by rw [rest]; rfl)
    rw [rest] at parts
    have shorter : ys.length < n := by
      rw [← length, ← parts, List.length_append, List.length_cons]
      omega
    exact parts ▸ cut _ c ys apart (solid _ front) (ih _ shorter ys rfl)

section Stretches

variable {word image cs xs ys : List Char} {c : Char}

theorem stretches_of_solid (solid : ∀ c ∈ xs, isWord c = true) :
    stretches xs = if xs = [] then [] else [xs] := by
  split
  next empty => rw [empty, stretches, List.splitBy_nil]
  next nonempty =>
    refine List.splitBy_of_isChain nonempty (List.Pairwise.isChain ?_)
    refine List.pairwise_of_forall_mem_list fun c member d member' => ?_
    simp [solid c member, solid d member']

theorem stretches_append_cons (apart : isWord c = false) (xs ys : List Char) :
    stretches (xs ++ c :: ys) = stretches xs ++ [c] :: stretches ys := by
  have alone : stretches (c :: ys) = [c] :: stretches ys := by
    rw [stretches, ← List.singleton_append, List.splitBy_append (by simp [apart])]
    rfl
  rw [stretches, List.splitBy_append_cons ys (by simp [apart]), ← stretches, ← stretches, alone]

@[simp] theorem flatten_stretches (cs : List Char) : (stretches cs).flatten = cs :=
  List.flatten_splitBy _ cs

theorem IsWhole.ne_singleton (whole : IsWhole word) (apart : isWord c = false) : word ≠ [c] := by
  rintro rfl
  rw [whole.solid c (by simp)] at apart
  cases apart

def IsStretchAt (word : List Char) (all : List (List Char)) (i : Nat) : Prop :=
  ∃ before after, all = before ++ word :: after ∧ before.flatten.length = i

theorem isStretchAt_append {xs ys : List (List Char)} {i : Nat} : IsStretchAt word (xs ++ ys) i ↔
    IsStretchAt word xs i ∨ ∃ j, i = xs.flatten.length + j ∧ IsStretchAt word ys j := by
  constructor
  · rintro ⟨before, after, parts, rfl⟩
    rcases List.append_eq_append_iff.1 parts with ⟨gap, rfl, rest⟩ | ⟨gap, rfl, rest⟩
    · exact .inr ⟨gap.flatten.length, by simp, gap, after, rest, rfl⟩
    · cases gap with
      | nil => exact .inr ⟨0, by simp, [], after, rest.symm, rfl⟩
      | cons s gap =>
        obtain ⟨rfl, rfl⟩ := List.cons.inj rest
        exact .inl ⟨before, gap, rfl, rfl⟩
  · rintro (⟨before, after, rfl, rfl⟩ | ⟨j, rfl, before, after, rfl, rfl⟩)
    · exact ⟨before, after ++ ys, by simp, rfl⟩
    · exact ⟨xs ++ before, after, by simp, by simp⟩

theorem isStretchAt_singleton {s : List Char} {i : Nat} :
    IsStretchAt word [s] i ↔ i = 0 ∧ s = word := by
  constructor
  · rintro ⟨before, after, parts, rfl⟩
    cases before with
    | nil => exact ⟨rfl, (List.cons.inj parts).1⟩
    | cons s before => simp at parts
  · rintro ⟨rfl, rfl⟩
    exact ⟨[], [], rfl, rfl⟩

theorem not_isStretchAt_nil {i : Nat} : ¬IsStretchAt word [] i := by
  rintro ⟨before, after, parts, -⟩
  simp at parts

theorem isStretchAt_cons {s : List Char} {all : List (List Char)} {i : Nat} :
    IsStretchAt word (s :: all) i ↔
      i = 0 ∧ s = word ∨ ∃ j, i = s.length + j ∧ IsStretchAt word all j := by
  rw [← List.singleton_append, isStretchAt_append, isStretchAt_singleton, List.flatten_singleton]

theorem standsAt_iff_stretches (whole : IsWhole word) {i : Nat} :
    StandsAt word cs i ↔ IsStretchAt word (stretches cs) i := by
  induction cs using stretch_induction generalizing i with
  | solid xs solid =>
    rw [standsAt_of_solid whole solid, stretches_of_solid solid]
    split
    next empty => simp [empty, whole.nonempty.symm, not_isStretchAt_nil]
    next => exact isStretchAt_singleton.symm
  | cut xs c ys apart first second =>
    have single := whole.ne_singleton apart
    rw [standsAt_append_cons whole apart, stretches_append_cons apart, isStretchAt_append,
      flatten_stretches, first]
    refine or_congr_right ?_
    simp only [isStretchAt_cons, single.symm, and_false, false_or, ← second]
    constructor
    · rintro ⟨j, rfl, stands⟩
      exact ⟨1 + j, Nat.add_assoc .., j, rfl, stands⟩
    · rintro ⟨_, rfl, j, rfl, stands⟩
      exact ⟨j, (Nat.add_assoc ..).symm, stands⟩

theorem substituteFrom_congr {find find' : Option Char → List Char → Option Match} (skip : Nat)
    (before : List Char) (agree : ∀ front ahead, before ++ cs = front ++ ahead → ahead ≠ [] →
      find front.getLast? ahead = find' front.getLast? ahead) :
    substituteFrom find skip before.getLast? cs = substituteFrom find' skip before.getLast? cs := by
  induction cs generalizing skip before with
  | nil => simp [substituteFrom]
  | cons c cs ih =>
    have here := agree before (c :: cs) rfl (List.cons_ne_nil c cs)
    have later (skip : Nat) :
        substituteFrom find skip (some c) cs = substituteFrom find' skip (some c) cs := by
      have rest := ih skip (before ++ [c]) fun front ahead parts =>
        agree front ahead (by rw [← parts, List.append_assoc, List.singleton_append])
      rwa [List.getLast?_concat] at rest
    cases skip with
    | succ skip => rw [substituteFrom, substituteFrom, later]
    | zero => simp only [substituteFrom, here, later]

theorem replaceWord_eq_substitute {find : List Char → Option Match} (nonempty : word ≠ [])
    (agree : ∀ front ahead, cs = front ++ ahead → ahead ≠ [] →
      find ahead = matchWord word image front.getLast? ahead) :
    replaceWord word image cs = substitute (fun _ => find) cs := by
  rw [replaceWord, if_neg (by simp [nonempty])]
  refine Eq.symm (substituteFrom_congr 0 [] fun front ahead parts => ?_)
  exact agree front ahead parts

theorem replaceWord_of_solid (whole : IsWhole word) (solid : ∀ c ∈ xs, isWord c = true)
    (image : List Char) : replaceWord word image xs = if xs = word then image else xs := by
  split
  next same => rw [same, replaceWord_self whole]
  next different =>
    refine replaceWord_of_not_hasWord whole fun has => ?_
    obtain ⟨i, stands⟩ := whole.hasWord_iff.1 has
    exact different ((standsAt_of_solid whole solid).1 stands).2

theorem replaceWord_eq_flatMap (whole : IsWhole word) (image cs : List Char) :
    replaceWord word image cs = (stretches cs).flatMap fun s => if s = word then image else s := by
  induction cs using stretch_induction with
  | solid xs solid =>
    rw [replaceWord_of_solid whole solid, stretches_of_solid solid]
    by_cases same : xs = word
    · subst same
      simp [whole.nonempty]
    · by_cases empty : xs = [] <;> simp [same, empty, whole.nonempty.symm]
  | cut xs c ys apart first second =>
    rw [replaceWord_append_cons whole apart, stretches_append_cons apart, List.flatMap_append,
      List.flatMap_cons, ← first, ← second, if_neg (whole.ne_singleton apart).symm]
    rfl

theorem stretches_replaceWord (whole : IsWhole word) (image_ : IsWhole image) (cs : List Char) :
    stretches (replaceWord word image cs) =
      (stretches cs).map fun s => if s = word then image else s := by
  induction cs using stretch_induction with
  | solid xs solid =>
    rw [replaceWord_of_solid whole solid, stretches_of_solid solid]
    by_cases same : xs = word
    · subst same
      rw [if_pos rfl, stretches_of_solid image_.solid, if_neg image_.nonempty,
        if_neg whole.nonempty, List.map_singleton, if_pos rfl]
    · rw [if_neg same, stretches_of_solid solid]
      split <;> simp [same]
  | cut xs c ys apart first second =>
    rw [replaceWord_append_cons whole apart, stretches_append_cons apart, first, second,
      stretches_append_cons apart, List.map_append, List.map_cons,
      if_neg (whole.ne_singleton apart).symm]

end Stretches

def wordCount (word cs : List Char) : Nat :=
  (List.range (cs.length + 1)).countP fun i => StandsAt word cs i

section Count

variable {word : List Char}

theorem wordCount_append_cons {c : Char} (whole : IsWhole word) (apart : isWord c = false)
    (xs ys : List Char) :
    wordCount word (xs ++ c :: ys) = wordCount word xs + wordCount word ys := by
  have length : (xs ++ c :: ys).length + 1 = (xs.length + 1) + (ys.length + 1) := by
    rw [List.length_append, List.length_cons]
    omega
  rw [wordCount, length, List.range_add, List.countP_append, List.countP_map, wordCount, wordCount]
  congr 1
  · refine List.countP_congr fun i member => ?_
    have within := List.mem_range.1 member
    simp only [decide_eq_true_eq]
    exact standsAt_append_cons_left whole apart (by omega)
  · refine List.countP_congr fun i _ => ?_
    simp only [Function.comp_apply, decide_eq_true_eq]
    exact standsAt_append_cons_right whole apart

theorem wordCount_eq_count (whole : IsWhole word) (cs : List Char) :
    wordCount word cs = (stretches cs).count word := by
  induction cs using stretch_induction with
  | solid xs solid =>
    rw [wordCount, List.range_succ_eq_map, List.countP_cons, List.countP_map,
      stretches_of_solid solid]
    simp only [standsAt_of_solid whole solid]
    by_cases same : xs = word
    · subst same
      simp [whole.nonempty]
    · by_cases empty : xs = [] <;> simp [same, empty, whole.nonempty.symm]
  | cut xs c ys apart first second =>
    rw [wordCount_append_cons whole apart, stretches_append_cons apart, List.count_append,
      List.count_cons_of_ne (whole.ne_singleton apart).symm, first, second]

variable {image : List Char} (whole : IsWhole word) (image_ : IsWhole image)
  (different : image ≠ word) (cs : List Char)

include whole image_ different

theorem not_standsAt_replaceWord (i : Nat) : ¬StandsAt word (replaceWord word image cs) i := by
  rw [standsAt_iff_stretches whole, stretches_replaceWord whole image_]
  rintro ⟨before, after, parts, -⟩
  obtain ⟨s, -, same⟩ := List.mem_map.1 (parts ▸ List.mem_append_right before List.mem_cons_self)
  split at same
  next => exact different same
  next other => exact other same

theorem wordCount_replaceWord :
    wordCount image (replaceWord word image cs) = wordCount word cs + wordCount image cs := by
  rw [wordCount_eq_count image_, wordCount_eq_count image_, wordCount_eq_count whole,
    stretches_replaceWord whole image_]
  induction stretches cs with
  | nil => rfl
  | cons s rest ih =>
    rw [List.map_cons, List.count_cons, List.count_cons, List.count_cons, ih]
    by_cases named : s = word
    · simp [named, different.symm]
      omega
    · simp [named]
      omega

theorem replaceWord_replaceWord :
    replaceWord word image (replaceWord word image cs) = replaceWord word image cs := by
  refine replaceWord_of_not_hasWord whole fun has => ?_
  obtain ⟨i, stands⟩ := whole.hasWord_iff.1 has
  exact not_standsAt_replaceWord whole image_ different cs i stands

end Count

end ComponentCompiler.Text
