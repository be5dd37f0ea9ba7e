import ComponentCompiler.Proofs.Script.Passing.Statements
import ComponentCompiler.Proofs.Script.Renaming
import ComponentCompiler.Proofs.Script.WordRenaming

/-!
# Replacing names one by one

Names can be replaced one after another, from the back of a script to its front, so that the places
of those that are left stay as they were.

* `splice_eq_substitute`: this replaces all of them at once, in whatever order they are listed.
* `rename_ast_eq_text`: where the words of a script are its variables, both ways to rename agree.
-/

namespace ComponentCompiler.Script

open Text (Match StandsAt substitute substitute_copied substitute_found)

/-! ## Finding the only one -/

section Only

variable {α : Type} {p p' : α → Bool} {xs ys : List α}

theorem find?_eq_some_iff_of_only (only : ∀ a ∈ xs, ∀ b ∈ xs, p a = true → p b = true → a = b)
    {a : α} : xs.find? p = some a ↔ a ∈ xs ∧ p a = true := by
  constructor
  · exact fun found => ⟨List.mem_of_find?_eq_some found, List.find?_some found⟩
  · rintro ⟨member, holds⟩
    exact find?_eq_some_of_only member holds fun b listed other =>
      only b listed a member other holds

theorem find?_eq_find?_of_only (only : ∀ a ∈ xs, ∀ b ∈ xs, p a = true → p b = true → a = b)
    (same : ∀ a, a ∈ ys ∧ p' a = true ↔ a ∈ xs ∧ p a = true) : ys.find? p' = xs.find? p := by
  have only' : ∀ a ∈ ys, ∀ b ∈ ys, p' a = true → p' b = true → a = b := by
    intro a left b right here there
    have first := (same a).1 ⟨left, here⟩
    have second := (same b).1 ⟨right, there⟩
    exact only a first.1 b second.1 first.2 second.2
  refine Option.ext fun a => ?_
  rw [find?_eq_some_iff_of_only only, find?_eq_some_iff_of_only only', same]

end Only

/-! ## Edits -/

/-- A part of a text, between two places counted from the start, and what takes its place. -/
structure Edit where
  start : Nat
  stop : Nat
  text : List Char

namespace Edit

def apply (e : Edit) (cs : List Char) : List Char :=
  cs.take e.start ++ (e.text ++ cs.drop e.stop)

def goesFirst (d e : Edit) : Bool :=
  e.start ≤ d.start

/-- Edits from the back of a text to its front; of those that start at one place the first that is
listed. -/
def backwards (edits : List Edit) : List Edit :=
  (edits.mergeSort goesFirst).destutter fun d e => d.start ≠ e.start

def splice (edits : List Edit) (cs : List Char) : List Char :=
  (backwards edits).foldl (fun cs e => e.apply cs) cs

/-- Edits of a text of `length` characters that do not overlap unless they start at one place. -/
structure Fit (length : Nat) (edits : List Edit) : Prop where
  within : ∀ e ∈ edits, e.start < e.stop ∧ e.stop ≤ length
  apart : ∀ d ∈ edits, ∀ e ∈ edits, d.start < e.start → d.stop ≤ e.start

/-! ## Their order -/

section Order

variable {edits : List Edit}

theorem goesFirst_trans (a b c : Edit) (ab : goesFirst a b = true) (bc : goesFirst b c = true) :
    goesFirst a c = true := by
  simp only [goesFirst, decide_eq_true_eq] at *
  omega

theorem goesFirst_total (a b : Edit) : (goesFirst a b || goesFirst b a) = true := by
  simp only [goesFirst, Bool.or_eq_true, decide_eq_true_eq]
  omega

theorem find?_mergeSort (q : Nat) :
    (edits.mergeSort goesFirst).find? (·.start = q) = edits.find? (·.start = q) := by
  -- Sorting is stable, so those that start at one place keep their order.
  have kept : (edits.filter (·.start = q)).Sublist (edits.mergeSort goesFirst) := by
    refine List.sublist_mergeSort goesFirst_trans goesFirst_total ?_ List.filter_sublist
    refine List.pairwise_of_forall_mem_list fun d left e right => ?_
    have left := List.of_mem_filter left
    have right := List.of_mem_filter right
    simp only [goesFirst, decide_eq_true_eq] at left right ⊢
    omega
  have filtered := kept.filter (·.start = q)
  rw [List.filter_filter] at filtered
  simp only [Bool.and_self] at filtered
  have same := filtered.eq_of_length ((List.mergeSort_perm edits _).filter _).length_eq.symm
  rw [← List.head?_filter, ← same, List.head?_filter]

theorem find?_destutter' (q : Nat) (e : Edit) (edits : List Edit) :
    (edits.destutter' (fun d e => d.start ≠ e.start) e).find? (·.start = q) =
      (e :: edits).find? (·.start = q) := by
  induction edits generalizing e with
  | nil => rfl
  | cons next rest ih =>
    rw [List.destutter'_cons]
    split
    next => rw [List.find?_cons, ih, List.find?_cons (a := e)]
    next same =>
      rw [ih, List.find?_cons, List.find?_cons, List.find?_cons, ← not_not.1 same]
      split <;> rfl

theorem find?_backwards (q : Nat) :
    (backwards edits).find? (·.start = q) = edits.find? (·.start = q) := by
  refine Eq.trans ?_ (find?_mergeSort q)
  rw [backwards]
  cases edits.mergeSort goesFirst with
  | nil => rfl
  | cons e rest => rw [List.destutter_cons', find?_destutter']

theorem mem_of_mem_backwards {e : Edit} (member : e ∈ backwards edits) : e ∈ edits :=
  (List.mergeSort_perm edits _).mem_iff.1 ((List.destutter_sublist _ _).mem member)

theorem pairwise_backwards (edits : List Edit) :
    (backwards edits).Pairwise fun d e => e.start < d.start := by
  have sorted := (List.pairwise_mergeSort goesFirst_trans goesFirst_total edits).sublist
    (List.destutter_sublist (fun d e => d.start ≠ e.start) _)
  have apart := List.isChain_destutter (fun d e : Edit => d.start ≠ e.start)
    (edits.mergeSort goesFirst)
  have strict : (backwards edits).IsChain fun d e => e.start < d.start := by
    rw [List.isChain_iff_getElem] at apart ⊢
    intro i within
    have first := List.isChain_iff_getElem.1 sorted.isChain i within
    have different := apart i within
    simp only [goesFirst, decide_eq_true_eq] at first
    exact Nat.lt_of_le_of_ne first different.symm
  have : Trans (fun d e : Edit => e.start < d.start) (fun d e : Edit => e.start < d.start)
      (fun d e : Edit => e.start < d.start) := ⟨fun de ef => Nat.lt_trans ef de⟩
  exact List.isChain_iff_pairwise.1 strict

theorem find?_eq_some_iff_mem_backwards {q : Nat} {e : Edit} :
    edits.find? (·.start = q) = some e ↔ e ∈ backwards edits ∧ e.start = q := by
  have apart : (backwards edits).Pairwise fun d e => d.start ≠ e.start :=
    (pairwise_backwards edits).imp fun less => (Nat.ne_of_lt less).symm
  have : Std.Symm fun d e : Edit => d.start ≠ e.start := ⟨fun _ _ => Ne.symm⟩
  rw [← find?_backwards, find?_eq_some_iff_of_only, decide_eq_true_eq]
  intro d left e right here there
  simp only [decide_eq_true_eq] at here there
  by_contra different
  exact apart.forall left right different (here.trans there.symm)

end Order

/-! ## Their effect -/

section Effect

variable (find : List Char → Option Match) (cs : List Char)

theorem substitute_drop {m k : Nat} (apart : ∀ q, m ≤ q → q < m + k → find (cs.drop q) = none) :
    substitute (fun _ => find) (cs.drop m) =
      (cs.drop m).take k ++ substitute (fun _ => find) (cs.drop (m + k)) := by
  have parts : (cs.drop m).take k ++ cs.drop (m + k) = cs.drop m := by
    rw [← List.drop_drop, List.take_append_drop]
  have copied := substitute_copied ((cs.drop m).take k) fun suffix isSuffix nonempty => by
    obtain ⟨front, frontIs⟩ := isSuffix
    have length := congrArg List.length frontIs
    have solid := List.length_pos_of_ne_nil nonempty
    rw [List.length_append, List.length_take, List.length_drop] at length
    have there : cs.drop (m + front.length) = suffix ++ cs.drop (m + k) := by
      rw [← List.drop_drop, ← parts, ← frontIs, List.append_assoc, List.drop_left]
    rw [← there]
    exact apart (m + front.length) (by omega) (by omega)
  rwa [parts] at copied

theorem substitute_match {m k : Nat} {image : List Char} (positive : 0 < k)
    (within : m + k ≤ cs.length) (found : find (cs.drop m) = some (k, image)) :
    substitute (fun _ => find) (cs.drop m) =
      image ++ substitute (fun _ => find) (cs.drop (m + k)) := by
  have parts := List.take_append_drop k (cs.drop m)
  have length : ((cs.drop m).take k).length = k := by
    rw [List.length_take, List.length_drop]
    omega
  rw [List.drop_drop] at parts
  rw [← parts] at found ⊢
  refine substitute_found (List.ne_nil_of_length_pos (by omega)) ?_
  rw [found, length]

structure Ordered (m : Nat) (edits : List Edit) : Prop where
  start : m ≤ cs.length
  apart : edits.Pairwise fun d e => d.stop ≤ e.start
  within : ∀ e ∈ edits, m ≤ e.start ∧ e.start < e.stop ∧ e.stop ≤ cs.length
  finds : ∀ q, m ≤ q → q < cs.length → ∀ found, find (cs.drop q) = some found ↔
    ∃ e ∈ edits, e.start = q ∧ found = (e.stop - e.start, e.text)

variable {find cs}

theorem Ordered.tail {m : Nat} {e : Edit} {edits : List Edit}
    (ordered : Ordered find cs m (e :: edits)) : Ordered find cs e.stop edits where
  start := (ordered.within e (by simp)).2.2
  apart := ordered.apart.of_cons
  within d member :=
    ⟨List.rel_of_pairwise_cons ordered.apart member,
      (ordered.within d (List.mem_cons_of_mem _ member)).2⟩
  finds q left right found := by
    have within := ordered.within e (by simp)
    rw [ordered.finds q (by omega) right found]
    simp only [List.mem_cons, exists_eq_or_imp]
    exact or_iff_right fun same => by omega

theorem Ordered.find_eq_none {m q : Nat} {edits : List Edit} (ordered : Ordered find cs m edits)
    (left : m ≤ q) (right : q < cs.length) (before : ∀ e ∈ edits, q < e.start) :
    find (cs.drop q) = none := by
  rw [Option.eq_none_iff_forall_ne_some]
  intro found some_
  obtain ⟨e, member, here, -⟩ := (ordered.finds q left right found).1 some_
  have := before e member
  omega

theorem Ordered.foldr_apply {m : Nat} {edits : List Edit} (ordered : Ordered find cs m edits) :
    edits.foldr apply cs = cs.take m ++ substitute (fun _ => find) (cs.drop m) := by
  induction edits generalizing m with
  | nil =>
    have start := ordered.start
    have copied := substitute_drop find cs (m := m) (k := cs.length - m)
      fun q left right => ordered.find_eq_none left (by omega) nofun
    have done : cs.drop (m + (cs.length - m)) = [] := List.drop_eq_nil_of_le (by omega)
    have rest : (cs.drop m).take (cs.length - m) = cs.drop m := by
      rw [← List.length_drop, List.take_length]
    rw [copied, done, rest]
    simp [substitute, Text.substituteFrom]
  | cons e rest ih =>
    obtain ⟨first, solid, inside⟩ := ordered.within e (by simp)
    have fromStart : m + (e.start - m) = e.start := by omega
    have toStop : e.start + (e.stop - e.start) = e.stop := by omega
    have before := substitute_drop find cs (m := m) (k := e.start - m)
      fun q left right => by
        refine ordered.find_eq_none left (by omega) (List.forall_mem_cons.2 ⟨by omega, ?_⟩)
        intro d member
        have := List.rel_of_pairwise_cons ordered.apart member
        omega
    have here := substitute_match find cs (m := e.start) (k := e.stop - e.start) (by omega)
      (by omega) ((ordered.finds e.start first (by omega) _).2 ⟨e, by simp, rfl, rfl⟩)
    rw [fromStart] at before
    rw [toStop] at here
    have front : cs.take m ++ (cs.drop m).take (e.start - m) = cs.take e.start := by
      rw [← List.take_add, fromStart]
    have kept : (cs.take e.stop).take e.start = cs.take e.start := by
      rw [List.take_take, Nat.min_eq_left (by omega)]
    have length : (cs.take e.stop).length = e.stop := List.length_take_of_le inside
    rw [List.foldr_cons, ih ordered.tail, before, here, apply, ← List.append_assoc (cs.take m),
      front, List.take_append_of_le_length (by omega), kept, List.drop_left' length]

theorem splice_eq_substitute {edits : List Edit} (fit : Fit cs.length edits)
    (finds : ∀ q < cs.length, find (cs.drop q) =
      (edits.find? (·.start = q)).map fun e => (e.stop - e.start, e.text)) :
    splice edits cs = substitute (fun _ => find) cs := by
  have descending := pairwise_backwards edits
  have listed {e : Edit} (member : e ∈ (backwards edits).reverse) : e ∈ edits :=
    mem_of_mem_backwards (List.mem_reverse.1 member)
  have ordered : Ordered find cs 0 (backwards edits).reverse := {
    start := Nat.zero_le _
    apart := by
      rw [List.pairwise_reverse]
      refine descending.imp_of_mem fun {d e} left right less => ?_
      exact fit.apart e (mem_of_mem_backwards right) d (mem_of_mem_backwards left) less
    within := fun e member => ⟨Nat.zero_le _, fit.within e (listed member)⟩
    finds := fun q _ within found => by
      rw [finds q within, Option.map_eq_some_iff]
      simp only [find?_eq_some_iff_mem_backwards, List.mem_reverse, and_assoc,
        eq_comm (b := found)] }
  rw [splice, List.foldl_eq_foldr_reverse, ordered.foldr_apply]
  simp

end Effect

end Edit

/-! ## Renaming -/

def Occurrence.edit (image : Occurrence → List Char) (length : Nat) (o : Occurrence) : Edit where
  start := length - o.ahead
  stop := length - o.ahead + o.width
  text := image o

section Renaming

variable {symbol replacement cs : List Char} {occs visited : Occurrences}

theorem Between.eq_or_apart {hi lo : Nat} (between : Between hi lo occs) {o p : Occurrence}
    (left : o ∈ occs) (right : p ∈ occs) :
    o = p ∨ p.ahead + o.width ≤ o.ahead ∨ o.ahead + p.width ≤ p.ahead := by
  let Apart (o p : Occurrence) : Prop :=
    p.ahead + o.width ≤ o.ahead ∨ o.ahead + p.width ≤ p.ahead
  have : Std.Symm Apart := ⟨fun _ _ => Or.symm⟩
  have apart : occs.Pairwise Apart := between.apart.imp Or.inl
  by_cases same : o = p
  · exact .inl same
  · exact .inr (apart.forall left right same)

theorem Between.filter {hi lo : Nat} (between : Between hi lo occs) (p : Occurrence → Bool) :
    Between hi lo (occs.filter p) where
  le := between.le
  within o member := between.within o (List.mem_of_mem_filter member)
  apart := between.apart.filter p

section Visited

variable (between : Between cs.length 0 occs) (image : Occurrence → List Char)
  (same : ∀ o, o ∈ visited ↔ o ∈ occs)

include between same

theorem fit_edits : Edit.Fit cs.length (visited.map (·.edit image cs.length)) where
  within := by
    simp only [List.forall_mem_map, same]
    intro o member
    have := between.within o member
    simp only [Occurrence.edit]
    omega
  apart := by
    simp only [List.forall_mem_map, same]
    intro o left p right less
    simp only [Occurrence.edit] at less ⊢
    have first := between.within o left
    have second := between.within p right
    rcases between.eq_or_apart left right with rfl | apart
    · omega
    · omega

theorem find?_edits {q : Nat} (within : q < cs.length) :
    ((visited.map (·.edit image cs.length)).find? (·.start = q)).map
      (fun e => (e.stop - e.start, e.text)) = matchPlace occs image (cs.drop q) := by
  have found : (visited.find? fun o => cs.length - o.ahead = q) =
      occs.find? fun o => o.ahead = cs.length - q := by
    refine find?_eq_find?_of_only ?_ fun o => ?_
    · intro o left p right here there
      have first := between.within o left
      have second := between.within p right
      simp only [decide_eq_true_eq] at here there
      exact (between.eq_or_apart left right).resolve_right (by omega)
    · rw [same, decide_eq_true_eq, decide_eq_true_eq]
      refine and_congr_right fun member => ?_
      have := between.within o member
      omega
  have parts : (fun e : Edit => (e.stop - e.start, e.text)) ∘ (·.edit image cs.length) =
      fun o : Occurrence => (o.width, image o) := by
    funext o
    simp [Occurrence.edit]
  rw [matchPlace, List.length_drop, ← found, List.find?_map, Option.map_map, parts]
  rfl

theorem splice_eq_replaceOccurrences :
    Edit.splice (visited.map (·.edit image cs.length)) cs = replaceOccurrences image occs cs := by
  rw [replaceOccurrences_eq]
  refine Edit.splice_eq_substitute (fit_edits between image same) fun q within => ?_
  exact (find?_edits between image same within).symm

end Visited

theorem renameOccurrences?_eq_splice (parsed : occurrences? cs = some occs)
    (visits : ∀ o, o ∈ visited ↔ o ∈ occs ∧ o.name.toList = symbol) :
    renameOccurrences? symbol replacement cs =
      some (Edit.splice (visited.map (·.edit (·.image symbol replacement) cs.length)) cs) := by
  rw [renameOccurrences?, parsed, Option.map_some]
  refine congrArg some (Eq.symm (splice_eq_replaceOccurrences ?_ _ fun o => ?_))
  · exact (occurrences?_between parsed).filter _
  · rw [visits, List.mem_filter, decide_eq_true_eq]

/-- A word stands in a script exactly where its reader reports a variable of this name, which is
nowhere a key or an import too. -/
structure ReportedAsWords (symbol cs : List Char) (occs : Occurrences) : Prop where
  places : ∀ i, StandsAt symbol cs i ↔
    ∃ o ∈ occs, o.name.toList = symbol ∧ o.ahead + i = cs.length
  width : ∀ o ∈ occs, o.name.toList = symbol → o.width = symbol.length
  alone : ∀ o ∈ occs, o.name.toList = symbol → o.role ≠ .shorthand ∧ o.role ≠ .imported

theorem reportedAsWords_iff : ReportedAsWords symbol cs occs ↔
    (∀ i < cs.length + 1, StandsAt symbol cs i ↔
      ∃ o ∈ occs, o.name.toList = symbol ∧ o.ahead + i = cs.length) ∧
    (∀ o ∈ occs, o.name.toList = symbol → o.width = symbol.length) ∧
    ∀ o ∈ occs, o.name.toList = symbol → o.role ≠ .shorthand ∧ o.role ≠ .imported := by
  constructor
  · exact fun ⟨places, width, alone⟩ => ⟨fun i _ => places i, width, alone⟩
  · rintro ⟨places, width, alone⟩
    refine ⟨fun i => ?_, width, alone⟩
    rcases Nat.lt_or_ge cs.length i with beyond | within
    · refine iff_of_false (fun stands => ?_) fun ⟨o, _, _, place⟩ => by omega
      have := stands.le_length
      omega
    · exact places i (by omega)

instance : Decidable (ReportedAsWords symbol cs occs) :=
  decidable_of_iff _ reportedAsWords_iff.symm

theorem Occurrence.image_of_alone {o : Occurrence}
    (alone : o.role ≠ .shorthand ∧ o.role ≠ .imported) (symbol replacement : List Char) :
    o.image symbol replacement = replacement := by
  rw [Occurrence.image]
  cases role : o.role with
  | plain => rfl
  | assigned => rfl
  | shorthand => exact absurd role alone.1
  | imported => exact absurd role alone.2

namespace ReportedAsWords

variable (reported : ReportedAsWords symbol cs occs)

include reported

theorem matchPlace_eq_matchWord {front ahead : List Char} (parts : cs = front ++ ahead) :
    matchPlace (occs.filter fun o => o.name.toList = symbol) (·.image symbol replacement) ahead =
      Text.matchWord symbol replacement front.getLast? ahead := by
  have length : cs.length = front.length + ahead.length := by rw [parts, List.length_append]
  have stands := reported.places front.length
  rw [parts, Text.standsAt_append, ← parts] at stands
  cases found : (occs.filter fun o => o.name.toList = symbol).find? fun o =>
      o.ahead = ahead.length with
  | none =>
    have nowhere : ¬(Text.afterWord? symbol front.getLast? ahead).isSome := by
      rw [stands]
      rintro ⟨o, member, named, place⟩
      have refused := List.find?_eq_none.1 found o (by simp [member, named])
      rw [decide_eq_true_eq] at refused
      omega
    rw [matchPlace, found, Text.matchWord, Option.not_isSome_iff_eq_none.1 nowhere]
    rfl
  | some o =>
    obtain ⟨member, named⟩ := List.mem_filter.1 (List.mem_of_find?_eq_some found)
    have place := List.find?_some found
    rw [decide_eq_true_eq] at named place
    obtain ⟨rest, after⟩ := Option.isSome_iff_exists.1 (stands.2 ⟨o, member, named, by omega⟩)
    rw [matchPlace, found, Text.matchWord, after, Option.map_some, Option.map_some,
      reported.width o member named, Occurrence.image_of_alone (reported.alone o member named)]

theorem replaceOccurrences_eq_replaceWord (between : Between cs.length 0 occs) :
    replaceOccurrences (·.image symbol replacement)
      (occs.filter fun o => o.name.toList = symbol) cs =
        Text.replaceWord symbol replacement cs := by
  by_cases empty : symbol = []
  · subst empty
    have unnamed : ∀ o ∈ occs, o.name.toList ≠ [] := fun o member named => by
      have := between.within o member
      have := reported.width o member named
      simp only [List.length_nil] at this
      omega
    have nowhere : ∀ i, ¬StandsAt [] cs i := fun i stands => by
      obtain ⟨o, member, named, -⟩ := (reported.places i).1 stands
      exact unnamed o member named
    have none_ : (occs.filter fun o => o.name.toList = []) = [] :=
      List.filter_eq_nil_iff.2 fun o member => by simpa using unnamed o member
    rw [none_, Text.replaceWord, if_pos List.isEmpty_nil,
      Text.insertAtEdges_of_not_standsAt nowhere]
    rfl
  · rw [replaceOccurrences_eq]
    refine Eq.symm (Text.replaceWord_eq_substitute empty fun front ahead parts _ => ?_)
    exact reported.matchPlace_eq_matchWord parts

end ReportedAsWords

/-- Both ways to rename an entry point agree on a script in which its name stands as a word exactly
where it is a variable, and on one that is not well formed.  That is also what replacing its
occurrences one by one, from the back of the script to its front, results in, in whatever order they
are visited. -/
theorem rename_ast_eq_text (plain : '$' ∉ replacement)
    (reported : ∀ occs, occurrences? cs = some occs → ReportedAsWords symbol cs occs) :
    Transformer.ast.rename symbol replacement cs = Transformer.text.rename symbol replacement cs ∧
    ∀ occs, occurrences? cs = some occs →
      ∀ visited : Occurrences, (∀ o, o ∈ visited ↔ o ∈ occs ∧ o.name.toList = symbol) →
        Edit.splice (visited.map (·.edit (·.image symbol replacement) cs.length)) cs =
          Transformer.text.rename symbol replacement cs := by
  have renamed (occs : Occurrences) (parsed : occurrences? cs = some occs) :
      renameOccurrences? symbol replacement cs =
        some (Transformer.text.rename symbol replacement cs) := by
    rw [renameOccurrences?, parsed, Option.map_some, rename_text_eq plain]
    exact congrArg some
      ((reported occs parsed).replaceOccurrences_eq_replaceWord (occurrences?_between parsed))
  constructor
  · cases parsed : occurrences? cs with
    | none =>
      rw [Transformer.rename, renameOccurrences?, parsed]
      rfl
    | some occs => rw [Transformer.rename, renamed occs parsed, Option.getD_some]
  · intro occs parsed visited visits
    exact Option.some.inj ((renameOccurrences?_eq_splice parsed visits).symm.trans
      (renamed occs parsed))

end Renaming

def declaredAndCalled : List Char :=
  "function RUNTIME(el) \x7b return el; \x7d\nRUNTIME(null);".toList

theorem rename_ast_eq_text_declaredAndCalled :
    let declaration : Occurrence := ⟨"RUNTIME", 41, 7, .plain⟩
    let call : Occurrence := ⟨"RUNTIME", 14, 7, .plain⟩
    let occs : Occurrences := [declaration, ⟨"el", 33, 2, .plain⟩, ⟨"el", 20, 2, .plain⟩, call]
    let visited := [call, declaration, call].map (·.edit (·.image entryName "aRUNTIME".toList) 50)
    let renamed := "function aRUNTIME(el) \x7b return el; \x7d\naRUNTIME(null);".toList
    occurrences? declaredAndCalled = some occs ∧ ReportedAsWords entryName declaredAndCalled occs ∧
    Transformer.ast.rename entryName "aRUNTIME".toList declaredAndCalled = renamed ∧
    Edit.splice visited declaredAndCalled = renamed := by
  intro declaration call occs visited renamed
  have parsed : occurrences? declaredAndCalled = some occs := by decide +kernel
  have reported : ReportedAsWords entryName declaredAndCalled occs := by decide +kernel
  have plain : '$' ∉ "aRUNTIME".toList := by decide
  have asText :
      Transformer.text.rename entryName "aRUNTIME".toList declaredAndCalled = renamed := by
    decide +kernel
  obtain ⟨same, spliced⟩ := rename_ast_eq_text plain fun occs' parsed' => by
    obtain rfl := Option.some.inj (parsed.symm.trans parsed')
    exact reported
  refine ⟨parsed, reported, same.trans asText, ?_⟩
  refine (spliced occs parsed [call, declaration, call] fun o => ?_).trans asText
  have named : (occs.filter fun o => o.name.toList = entryName) = [declaration, call] := by decide
  have listed : o ∈ occs.filter (fun o => o.name.toList = entryName) ↔ _ := List.mem_filter
  rw [named, decide_eq_true_eq] at listed
  rw [← listed]
  simp only [List.mem_cons, List.not_mem_nil, or_false]
  exact ⟨fun listed => listed.elim .inr id, .inr⟩

end ComponentCompiler.Script
