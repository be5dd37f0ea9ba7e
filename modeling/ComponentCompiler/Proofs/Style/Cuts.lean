import ComponentCompiler.Proofs.Style.Sheet

namespace ComponentCompiler.Style

variable {cs : List Char} {c q : Char}

def commentCut : List Char → List Char × List Char
  | [] => ([], [])
  | '*' :: '/' :: cs => (['*', '/'], cs)
  | c :: cs => keep c (commentCut cs)

def stringCut (q : Char) : List Char → List Char × List Char
  | [] => ([], [])
  | '\\' :: c :: cs => keep '\\' (keep c (stringCut q cs))
  | c :: cs => if c = q then ([c], cs) else keep c (stringCut q cs)

def skipCut? : List Char → Option (List Char × List Char)
  | '/' :: '*' :: cs => some (before ['/', '*'] (commentCut cs))
  | c :: cs => if isQuote c then some (before [c] (stringCut c cs)) else none
  | [] => none

theorem commentCut_parts (cs : List Char) : (commentCut cs).1 ++ (commentCut cs).2 = cs := by
  fun_induction commentCut cs <;> simp_all [keep]

theorem stringCut_parts (q : Char) (cs : List Char) :
    (stringCut q cs).1 ++ (stringCut q cs).2 = cs := by
  fun_induction stringCut q cs <;> simp_all [keep]

theorem skipCut?_parts {cut : List Char × List Char} (skipped : skipCut? cs = some cut) :
    cut.1 ++ cut.2 = cs ∧ cut.1 ≠ [] := by
  unfold skipCut? at skipped
  split at skipped
  · obtain rfl := Option.some.inj skipped
    simp [before, commentCut_parts]
  · split at skipped
    · obtain rfl := Option.some.inj skipped
      simp [before, stringCut_parts]
    · cases skipped
  · cases skipped

theorem length_skipCut?_lt {cut : List Char × List Char} (skipped : skipCut? cs = some cut) :
    cut.2.length < cs.length := by
  obtain ⟨parts, some_⟩ := skipCut?_parts skipped
  have positive := List.length_pos_iff.2 some_
  rw [← parts, List.length_append]
  omega

section

variable {β : Type} {scan : Inside → List Char → β} {kept : List Char → β → β}

/-- A scanner for which the end of a text is the same wherever it comes. -/
structure EndsAnywhere (scan : Inside → List Char → β) (kept : List Char → β → β) : Prop where
  kept_nil : ∀ b, kept [] b = b
  atEnd : ∀ inside, scan inside [] = scan .plain []

theorem PassesComments.commentCut (passes : PassesComments scan kept)
    (ends : EndsAnywhere scan kept) (cs : List Char) :
    scan .comment cs = kept (Style.commentCut cs).1 (scan .plain (Style.commentCut cs).2) := by
  fun_induction Style.commentCut cs with
  | case1 => rw [ends.kept_nil, ends.atEnd]
  | case2 cs => exact passes.stop cs
  | case3 c cs other ih =>
    rw [passes.inside, ih, passes.kept_kept]
    · rfl
    · rintro rfl first
      cases cs with
      | nil => cases first
      | cons d cs =>
        cases first
        exact other cs rfl rfl

variable (passes : PassesStrings scan kept) (ends : EndsAnywhere scan kept)
  (escapesEnd : ∀ q, scan (.quoted q) ['\\'] = kept ['\\'] (scan .plain []))

include passes ends escapesEnd

theorem PassesStrings.stringCut (isQuoted : isQuote q = true) (cs : List Char) :
    scan (.quoted q) cs = kept (Style.stringCut q cs).1 (scan .plain (Style.stringCut q cs).2) := by
  fun_induction Style.stringCut q cs with
  | case1 => rw [ends.kept_nil, ends.atEnd]
  | case2 c cs ih =>
    rw [passes.escaped, ih, passes.kept_kept]
    rfl
  | case3 cs other =>
    have solid : q ≠ '\\' := by
      rintro rfl
      cases isQuoted
    rw [passes.quoted _ _ _ solid, if_pos rfl]
  | case4 c cs other differ ih =>
    by_cases escape : c = '\\'
    · subst escape
      cases cs with
      | nil => exact escapesEnd q
      | cons d cs => exact (other d cs rfl rfl).elim
    · rw [passes.quoted _ _ _ escape, if_neg differ, ih, passes.kept_kept]
      rfl

theorem PassesStrings.skip {cut : List Char × List Char} (skipped : skipCut? cs = some cut) :
    scan .plain cs = kept cut.1 (scan .plain cut.2) := by
  unfold skipCut? at skipped
  split at skipped
  · obtain rfl := Option.some.inj skipped
    rw [passes.start, passes.toPassesComments.commentCut ends, passes.kept_kept]
    rfl
  · split at skipped
    · next isQuoted =>
      obtain rfl := Option.some.inj skipped
      rw [passes.quote _ _ isQuoted, passes.stringCut ends escapesEnd isQuoted, passes.kept_kept]
      rfl
    · cases skipped
  · cases skipped

end

theorem endsAnywhere_gap : EndsAnywhere gap before where
  kept_nil _ := rfl
  atEnd inside := by cases inside <;> rfl

theorem prelude?_skip {parens : Nat} {cut : List Char × List Char}
    (skipped : skipCut? cs = some cut) :
    prelude? .plain parens cs = (prelude? .plain parens cut.2).map (before cut.1) := by
  refine (passes_prelude parens).skip ⟨fun b => ?_, fun inside => ?_⟩ (fun q => ?_) skipped
  · cases b <;> rfl
  · cases inside <;> simp [prelude?]
  · simp [prelude?]

theorem block_skip {depth : Nat} {cut : List Char × List Char} (skipped : skipCut? cs = some cut) :
    block .plain depth cs = before cut.1 (block .plain depth cut.2) := by
  refine (passes_block depth).skip ⟨fun _ => rfl, fun inside => ?_⟩ (fun q => ?_) skipped
  · cases inside <;> simp [block]
  · simp [block, keep, before]

theorem skipCut?_eq_none_iff :
    skipCut? (c :: cs) = none ↔
      isQuote c = false ∧ ∀ rest, c = '/' → cs = '*' :: rest → False := by
  by_cases starts : ∃ rest, c = '/' ∧ cs = '*' :: rest
  · obtain ⟨rest, rfl, rfl⟩ := starts
    exact iff_of_false nofun fun plain => plain.2 rest rfl rfl
  · have apart : ∀ rest, c = '/' → cs = '*' :: rest → False := fun rest slash star =>
      starts ⟨rest, slash, star⟩
    rw [skipCut?.eq_2 _ _ apart, and_iff_left apart]
    split <;> simp_all

theorem skip_induction {P : List Char → Prop} (nil : P [])
    (skip : ∀ cs cut, skipCut? cs = some cut → P cut.2 → P cs)
    (step : ∀ c cs, skipCut? (c :: cs) = none → P cs → P (c :: cs)) (cs : List Char) : P cs := by
  induction long : cs.length using Nat.strongRecOn generalizing cs with
  | _ _ ih =>
    subst long
    cases skipped : skipCut? cs with
    | some cut => exact skip cs cut skipped (ih _ (length_skipCut?_lt skipped) cut.2 rfl)
    | none =>
      cases cs with
      | nil => exact nil
      | cons c cs => exact step c cs skipped (ih _ (Nat.lt_succ_self _) cs rfl)

theorem gap_parts (inside : Inside) (cs : List Char) :
    (gap inside cs).1 ++ (gap inside cs).2 = cs := by
  fun_induction gap inside cs <;> simp_all [keep]

theorem block_parts (inside : Inside) (depth : Nat) (cs : List Char) :
    (block inside depth cs).1 ++ (block inside depth cs).2 = cs := by
  fun_induction block inside depth cs <;> simp_all [keep]

def CutsAtMark (cs : List Char) (cut : List Char × List Char) : Prop :=
  cut.1 ++ cut.2 = cs ∧ (cut.2.head? = some '\x7b' ∨ cut.2.head? = some ';')

theorem cutsAtMark_keep {found : Option (List Char × List Char)}
    (cuts : ∀ cut ∈ found, CutsAtMark cs cut) :
    ∀ cut ∈ found.map (keep c), CutsAtMark (c :: cs) cut := by
  intro cut member
  obtain ⟨cut, inner, rfl⟩ := Option.map_eq_some_iff.1 member
  obtain ⟨parts, mark⟩ := cuts cut inner
  exact ⟨congrArg (c :: ·) parts, mark⟩

theorem cutsAtMark_prelude? (inside : Inside) (parens : Nat) (cs : List Char) :
    ∀ cut ∈ prelude? inside parens cs, CutsAtMark cs cut := by
  fun_induction prelude? inside parens cs with
  | case1 => exact nofun
  | case2 parens cs ih | case4 q parens c cs ih | case6 parens cs ih =>
    rw [← Option.map_map]
    exact cutsAtMark_keep (cutsAtMark_keep ih)
  | case10 parens c cs _ _ _ _ mark =>
    rintro cut ⟨rfl⟩
    simp only [Bool.and_eq_true, Bool.or_eq_true, decide_eq_true_eq] at mark
    refine ⟨rfl, mark.2.imp ?_ ?_⟩
    · rintro rfl
      rfl
    · rintro rfl
      rfl
  | _ => exact cutsAtMark_keep (by assumption)

def scopeMarked (className head tail : List Char) : List Char × List Char :=
  if tail.head? = some ';' then (head ++ [';'], tail.tail)
  else (scopeRule className head (block .plain 0 tail).1, (block .plain 0 tail).2)

def scopeItem (className : List Char) : List Char → List Char × List Char
  | [] => ([], [])
  | c :: after =>
    if c = '\x7d' then ([c], after)
    else match prelude? .plain 0 (c :: after) with
      | none => (c :: after, [])
      | some (head, tail) => scopeMarked className head tail

theorem scopeItems_nil (className : List Char) (bound : Nat) :
    scopeItems className bound [] = [] := by
  cases bound <;> simp [scopeItems, gap]

theorem scopeItems_succ (className : List Char) (bound : Nat) (cs : List Char) :
    scopeItems className (bound + 1) cs =
      (gap .plain cs).1 ++ ((scopeItem className (gap .plain cs).2).1 ++
        scopeItems className bound (scopeItem className (gap .plain cs).2).2) := by
  rw [scopeItems]
  cases next : (gap .plain cs).2 with
  | nil => simp [next, scopeItem, scopeItems_nil]
  | cons c after =>
    simp only [next, scopeItem]
    split
    · rfl
    · cases found : prelude? .plain 0 (c :: after) with
      | none => simp [scopeItems_nil]
      | some cut =>
        dsimp only [scopeMarked]
        split
        · simp
        · rfl

end ComponentCompiler.Style
