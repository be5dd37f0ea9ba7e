import ComponentCompiler.Proofs.Style.Agreement
import ComponentCompiler.Proofs.Style.Selectors

namespace ComponentCompiler.Style

open Text (bytes encode getElem?_width getElem?_width_iff trim width width_append width_concat
  width_lt)

variable {front cs : List Char} {c : Char}

theorem commas_of_high {b : UInt8} (high : 128 ≤ b) {quote : Option UInt8}
    (small : ∀ q ∈ quote, q < 128) (depth : Int32) (i : Nat) (bs : List UInt8) :
    commas quote depth i (b :: bs) = commas quote depth (i + 1) bs := by
  cases quote with
  | some q => rw [commas, if_neg (Text.ne_of_high high (small q rfl))]
  | none => simp (disch := decide) [commas, isQuoteByte, Text.ne_of_high high]

theorem commas_wide {wide : List UInt8} (high : ∀ b ∈ wide, 128 ≤ b) {quote : Option UInt8}
    (small : ∀ q ∈ quote, q < 128) (depth : Int32) (i : Nat) (bs : List UInt8) :
    commas quote depth i (wide ++ bs) = commas quote depth (i + wide.length) bs := by
  induction wide generalizing i with
  | nil => rfl
  | cons b wide ih =>
    obtain ⟨first, others⟩ := List.forall_mem_cons.1 high
    rw [List.cons_append, commas_of_high first small, ih others, List.length_cons, Nat.add_assoc,
      Nat.add_comm 1]

namespace Standing

def IsSound (s : Standing) : Prop :=
  ∀ q ∈ s.1, isQuote q = true

theorem isSound_outside (depth : Nat) : IsSound (none, depth) := by
  intro q inside
  cases inside

theorem isSound_outermost : outermost.IsSound :=
  isSound_outside 0

def quoteByte (s : Standing) : Option UInt8 :=
  s.1.map Char.toUInt8

variable {s s' : Standing}

theorem IsSound.next? (sound : s.IsSound) (goesOn : s.next? c = some s') :
    s'.IsSound ∧ s'.2 ≤ s.2 + 1 := by
  obtain ⟨quote, depth⟩ := s
  cases quote with
  | some q =>
    cases goesOn
    refine ⟨fun p inside => ?_, Nat.le_succ _⟩
    by_cases closes : c = q
    · simp [closes] at inside
    · exact sound p (by simpa [closes] using inside)
  | none =>
    simp only [Standing.next?] at goesOn
    split_ifs at goesOn with quotes opens closes cuts
    · cases goesOn
      exact ⟨fun p inside => Option.some.inj inside ▸ quotes, Nat.le_succ _⟩
    · cases goesOn
      exact ⟨isSound_outside _, le_rfl⟩
    · cases goesOn
      exact ⟨isSound_outside _, (Nat.sub_le depth 1).trans (Nat.le_succ _)⟩
    · cases goesOn
      exact ⟨isSound_outside _, Nat.le_succ _⟩

theorem IsSound.quoteByte_lt (sound : s.IsSound) : ∀ q ∈ s.quoteByte, q < 128 := by
  intro b member
  obtain ⟨q, inside, rfl⟩ := Option.map_eq_some_iff.1 member
  exact Text.toUInt8_lt (isQuote_ascii (sound q inside)).1

theorem next?_of_wide (sound : s.IsSound) (wide : 128 ≤ c.toNat) : s.next? c = some s := by
  obtain ⟨quote, depth⟩ := s
  cases quote with
  | some q => rw [Standing.next?, if_neg (Text.ne_of_wide wide (isQuote_ascii (sound q rfl)).1)]
  | none => simp (disch := decide) [Standing.next?, isQuote, Text.ne_of_wide wide]

end Standing

theorem commas_next {s s' : Standing} (sound : s.IsSound) (goesOn : s.next? c = some s')
    (short : s.2 < 2 ^ 31) (i : Nat) (bs : List UInt8) :
    commas s.quoteByte (Int32.ofNat s.2) i (String.utf8EncodeChar c ++ bs) =
      commas s'.quoteByte (Int32.ofNat s'.2) (i + width [c]) bs := by
  by_cases ascii : c.toNat < 128
  · rw [Text.utf8EncodeChar_of_ascii ascii, Text.width_of_ascii ascii, List.singleton_append]
    obtain ⟨quote, depth⟩ := s
    cases quote with
    | some q =>
      cases goesOn
      have small := (isQuote_ascii (sound q rfl)).1
      simp only [Standing.quoteByte, Option.map_some, commas, Text.toUInt8_inj ascii small]
      split <;> rfl
    | none =>
      have quotes : isQuoteByte c.toUInt8 = true ↔ isQuote c = true := by
        simp (disch := decide) only [isQuoteByte, isQuote, Bool.or_eq_true, decide_eq_true_eq,
          Text.toUInt8_inj ascii]
      simp only [Standing.next?, Bool.or_eq_true, Bool.and_eq_true, decide_eq_true_eq] at goesOn
      simp (disch := decide) only [Standing.quoteByte, Option.map_none, commas, quotes,
        Text.toUInt8_inj ascii, max_ofNat_sub_one short, ofNat_succ, ofNat_eq_zero_iff short]
      split_ifs at goesOn ⊢ <;> cases goesOn <;> rfl
  · have wide := Nat.le_of_not_lt ascii
    rw [Standing.next?_of_wide sound wide] at goesOn
    obtain rfl := Option.some.inj goesOn
    rw [commas_wide (fun b => Text.le_of_mem_utf8EncodeChar wide) sound.quoteByte_lt,
      Text.width_cons]
    rfl

theorem commas_cut {s : Standing} (cut : s.next? c = none) (i : Nat) (bs : List UInt8) :
    commas s.quoteByte (Int32.ofNat s.2) i (String.utf8EncodeChar c ++ bs) =
      i :: commas outermost.quoteByte (Int32.ofNat outermost.2) (i + 1) bs := by
  obtain ⟨rfl, rfl⟩ := next?_eq_none cut
  rfl

theorem prepend_nil_splitSelectors (quote : Option Char) (depth : Nat) (cs : List Char) :
    prepend [] (splitSelectors quote depth cs) = splitSelectors quote depth cs := by
  cases pieces : splitSelectors quote depth cs with
  | nil => exact (splitSelectors_ne_nil _ _ _ pieces).elim
  | cons piece rest => rfl

theorem pieces?_eq {s : String} {standing : Standing} (sound : standing.IsSound)
    (short : standing.2 + cs.length < 2 ^ 31) {seg : List Char}
    (parts : s.toList = front ++ seg ++ cs) :
    pieces? s (width front) (commas standing.quoteByte (Int32.ofNat standing.2)
        (width (front ++ seg)) (encode cs)) =
      some ((prepend seg (splitSelectors standing.1 standing.2 cs)).map
        fun piece => String.ofList (trim piece)) := by
  induction cs generalizing front seg standing with
  | nil =>
    have whole : s.utf8ByteSize = width (front ++ seg) := by
      rw [← Text.width_toList, parts, List.append_nil]
    rw [encode, List.flatMap_nil, commas, pieces?, whole, Text.slice?_of_parts parts,
      splitSelectors]
    simp [prepend, Text.trimmed]
  | cons c cs ih =>
    rw [List.length_cons] at short
    rw [Text.encode_cons]
    cases goesOn : standing.next? c with
    | some s' =>
      obtain ⟨sound', deeper⟩ := sound.next? goesOn
      have next : width (front ++ seg) + width [c] = width (front ++ (seg ++ [c])) := by
        rw [← width_append, List.append_assoc]
      rw [commas_next sound goesOn (by omega), next, ih sound' (by omega) (by simp [parts]),
        splitSelectors_cons goesOn, prepend_prepend]
    | none =>
      obtain ⟨rfl, rfl⟩ := next?_eq_none goesOn
      have after : width (front ++ seg) + 1 = width (front ++ seg ++ [','] ++ []) := by
        rw [List.append_nil, width_concat (by decide)]
      have rest : pieces? s (width (front ++ seg ++ [','])) (commas outermost.quoteByte
          (Int32.ofNat outermost.2) (width (front ++ seg ++ [','] ++ [])) (encode cs)) = _ :=
        ih Standing.isSound_outermost (by omega) (by simp [parts])
      rw [List.append_nil] at rest after
      have cut : splitSelectors outermost.1 outermost.2 (',' :: cs) =
          [] :: splitSelectors outermost.1 outermost.2 cs := rfl
      rw [commas_cut goesOn, pieces?, Text.slice?_of_parts parts, after, rest,
        prepend_nil_splitSelectors, cut]
      simp [prepend, Text.trimmed]

theorem scopeSelectors?_eq (className s : String) (short : s.toList.length < 2 ^ 31) :
    scopeSelectors? className s =
      some (String.ofList (scopeSelectors className.toList s.toList)) := by
  have cut : pieces? s (width []) (commas outermost.quoteByte (Int32.ofNat outermost.2)
      (width ([] ++ [])) (encode s.toList)) = _ :=
    pieces?_eq Standing.isSound_outermost (by simpa [outermost] using short) rfl
  have whole : splitSelectors? s = some ((selectors s.toList).map String.ofList) := by
    have cut' : pieces? s 0 (commas none 0 0 (bytes s)) =
        some ((splitSelectors none 0 s.toList).map fun piece => String.ofList (trim piece)) := by
      rw [Text.bytes_eq_encode, ← prepend_nil_splitSelectors]
      exact cut
    rw [splitSelectors?, cut', selectors]
    simp [List.filter_map, Function.comp_def, ← List.isEmpty_iff]
  rw [scopeSelectors?, whole, scopeSelectors]
  simp [Function.comp_def]

theorem rule?_eq {s : String} (className : String) {head tail : List Char}
    (opens : tail.head? = some '\x7b') (short : head.length + tail.length < 2 ^ 31)
    (parts : s.toList = front ++ tail) :
    rule? s className (String.ofList head) (width front) =
      some (String.ofList (scopeRule className.toList head (block .plain 0 tail).1),
        width (front ++ (block .plain 0 tail).1)) := by
  obtain ⟨rest, rfl⟩ : ∃ rest, tail = '\x7b' :: rest := by
    cases tail with
    | nil => cases opens
    | cons c rest => exact ⟨rest, by rw [Option.some.inj opens]⟩
  have inside := block_parts .plain 0 ('\x7b' :: rest)
  have ended : blockEnd (bytes s) 0 (width front) =
      width (front ++ (block .plain 0 ('\x7b' :: rest)).1) := by
    rw [Text.bytes_of_toList parts, blockEnd_openBrace (by simp at short; omega)]
  have parts' : s.toList = front ++ (block .plain 0 ('\x7b' :: rest)).1 ++
      (block .plain 0 ('\x7b' :: rest)).2 := by
    rw [List.append_assoc, inside, parts]
  have taken := Text.slice?_of_parts parts'
  have selectors := scopeSelectors?_eq className (Text.trimmed (String.ofList head))
    (by
      have trimmed := length_trim_le head
      simp only [Text.trimmed, String.toList_ofList]
      omega)
  simp only [rule?, ended, taken, selectors, scopeRule, String.toList_ofList, Option.bind_eq_bind,
    Option.bind_some]
  split
  · simp
  · simp [Text.trimmed, String.append_assoc]

theorem marked?_eq {s : String} (className : String) {head tail : List Char}
    (mark : tail.head? = some '\x7b' ∨ tail.head? = some ';')
    (short : head.length + tail.length < 2 ^ 31) (parts : s.toList = front ++ head ++ tail) :
    ∃ taken, taken ++ (scopeMarked className.toList head tail).2 = head ++ tail ∧
      marked? s className (width front) (width (front ++ head)) =
        some (String.ofList (scopeMarked className.toList head tail).1,
          width (front ++ taken)) := by
  have whole := Text.bytes_of_toList parts
  simp only [marked?, Text.slice?_of_parts parts, whole, Option.bind_eq_bind, Option.bind_some,
    scopeMarked]
  rcases mark with opens | ends
  · rw [(getElem?_width_iff (by decide)).2 opens, opens, if_neg (by decide)]
    refine ⟨head ++ (block .plain 0 tail).1, ?_, ?_⟩
    · rw [List.append_assoc, block_parts]
    · rw [Option.bind_some, if_neg (by decide), rule?_eq className opens short parts,
        List.append_assoc]
  · rw [(getElem?_width_iff (by decide)).2 ends, if_pos ends]
    obtain ⟨rest, rfl⟩ : ∃ rest, tail = ';' :: rest := by
      cases tail with
      | nil => cases ends
      | cons c rest => exact ⟨rest, by rw [Option.some.inj ends]⟩
    have next : width (front ++ head) + 1 = width (front ++ (head ++ [';'])) := by
      rw [← List.append_assoc, width_concat (by decide)]
    have taken := Text.slice?_of_parts
      (show s.toList = front ++ (head ++ [';']) ++ rest by simp [parts])
    refine ⟨head ++ [';'], by simp, ?_⟩
    rw [Option.bind_some, if_pos rfl, next, taken]
    rfl

theorem item?_eq {s : String} (className : String) (short : cs.length < 2 ^ 31) (some_ : cs ≠ [])
    (parts : s.toList = front ++ cs) :
    ∃ taken, taken ++ (scopeItem className.toList cs).2 = cs ∧
      item? s className (width front) =
        some (String.ofList (scopeItem className.toList cs).1, width (front ++ taken)) := by
  obtain ⟨c, after, rfl⟩ := List.exists_cons_of_ne_nil some_
  have whole := Text.bytes_of_toList parts
  obtain ⟨b, here⟩ : ∃ b, (encode (front ++ c :: after))[width front]? = some b :=
    ⟨_, List.getElem?_eq_getElem (width_lt front c after)⟩
  have found : preludeEnd? (encode (front ++ c :: after)) 0 (width front) =
      (prelude? .plain 0 (c :: after)).map fun cut => width (front ++ cut.1) :=
    preludeEnd?_eq (by simpa using short) front
  simp only [item?, whole, here, found, Option.bind_eq_bind, Option.bind_some,
    byte_eq_iff here (show '\x7d'.toNat < 128 by decide), scopeItem]
  by_cases brace : c = '\x7d'
  · subst brace
    refine ⟨['\x7d'], rfl, ?_⟩
    rw [if_pos rfl, if_pos rfl, width_concat (by decide)]
    rfl
  simp only [if_neg brace]
  cases cut : prelude? .plain 0 (c :: after) with
  | none =>
    refine ⟨c :: after, List.append_nil _, ?_⟩
    have ended : s.utf8ByteSize = width (front ++ c :: after) := by
      rw [← Text.width_toList, parts]
    rw [Option.map_none, Text.slice?_rest parts, ended]
    rfl
  | some halves =>
    obtain ⟨head, tail⟩ := halves
    obtain ⟨both, mark⟩ := cutsAtMark_prelude? _ _ _ _ cut
    dsimp only at both mark
    have long := congrArg List.length both
    rw [List.length_append] at long
    obtain ⟨taken, cover, text⟩ := marked?_eq className mark (by omega)
      (show s.toList = front ++ head ++ tail by rw [parts, ← both, List.append_assoc])
    exact ⟨taken, cover.trans both, text⟩

theorem utf8ByteSize_le_iff {s : String} (parts : s.toList = front ++ cs) :
    s.utf8ByteSize ≤ width front ↔ cs = [] := by
  rw [← Text.width_toList, parts, width_append, ← Text.width_eq_zero_iff]
  omega

theorem turn?_eq {s : String} (className : String) (short : cs.length < 2 ^ 31)
    (parts : s.toList = front ++ cs) :
    ∃ taken, taken ++ (scopeItem className.toList (gap .plain cs).2).2 = cs ∧
      turn? s className (width front) =
        some (String.ofList ((gap .plain cs).1 ++
          (scopeItem className.toList (gap .plain cs).2).1), width (front ++ taken)) := by
  have halves := gap_parts .plain cs
  have ended := gapEnd?_eq parts
  generalize (gap .plain cs).1 = space at halves ended ⊢
  generalize (gap .plain cs).2 = rest at halves ⊢
  subst halves
  have parts' : s.toList = front ++ space ++ rest := by rw [parts, List.append_assoc]
  simp only [turn?, ended, Text.slice?_of_parts parts', utf8ByteSize_le_iff parts',
    Option.bind_eq_bind, Option.bind_some]
  by_cases none_ : rest = []
  · subst none_
    refine ⟨space, rfl, ?_⟩
    rw [if_pos rfl, scopeItem, List.append_nil]
    rfl
  · rw [List.length_append] at short
    obtain ⟨taken, cover, item⟩ := item?_eq className (by omega) none_ parts'
    refine ⟨space ++ taken, by rw [List.append_assoc, cover], ?_⟩
    rw [if_neg none_, item, Option.bind_some, String.ofList_append, List.append_assoc]
    rfl

theorem turns?_text {s className : String} {bound limit : Nat} {turns : List (String × Nat)}
    (short : cs.length < 2 ^ 31) (enough : cs.length ≤ limit) (parts : s.toList = front ++ cs)
    (done : turns? s className bound (width front) = some turns) :
    String.join (turns.map Prod.fst) = String.ofList (scopeItems className.toList limit cs) := by
  induction bound generalizing cs front limit turns with
  | zero =>
    rw [turns?] at done
    simp only [utf8ByteSize_le_iff parts] at done
    split at done
    · next none_ =>
      obtain rfl := Option.some.inj done
      rw [none_, scopeItems_nil]
      rfl
    · cases done
  | succ bound ih =>
    rw [turns?] at done
    simp only [utf8ByteSize_le_iff parts] at done
    split at done
    · next none_ =>
      obtain rfl := Option.some.inj done
      rw [none_, scopeItems_nil]
      rfl
    · next some_ =>
      obtain ⟨limit, rfl⟩ : ∃ n, limit = n + 1 :=
        ⟨limit - 1, by have := List.length_pos_iff.2 some_; omega⟩
      obtain ⟨taken, cover, turn⟩ := turn?_eq className short parts
      obtain ⟨text, k, turned, moved, -⟩ := exists_turn? className (Text.isBoundary_width parts)
        (Nat.lt_of_not_le (mt (utf8ByteSize_le_iff parts).1 some_))
      -- A turn that moves on takes at least one character.
      have longer : taken ≠ [] := by
        rintro rfl
        rw [turn, List.append_nil] at turned
        cases turned
        exact Nat.lt_irrefl _ moved
      have parts' :
          s.toList = front ++ taken ++ (scopeItem className.toList (gap .plain cs).2).2 := by
        rw [List.append_assoc, cover, parts]
      have shorter := congrArg List.length cover
      have positive := List.length_pos_iff.2 longer
      rw [List.length_append] at shorter
      rw [turn, Option.bind_eq_bind, Option.bind_some] at done
      obtain ⟨rest, others, same⟩ := Option.bind_eq_some_iff.1 done
      obtain rfl := Option.some.inj same
      have written := @ih (front ++ taken) _ limit rest (by omega) (by omega) parts' others
      rw [List.map_cons, String.join_cons, written, ← String.ofList_append, scopeItems_succ,
        List.append_assoc]

/-- Scoping a text in place, as a list of selectors and as a sheet.  Each slice can be taken, each
turn of the loop starts at a later place than the one before it, and the last one ends with the
sheet.  Where the counters of 32 bits are large enough for all of the sheet's bytes, what the turns
write is the scoped sheet. -/
theorem scope_in_place (sheet className : String) :
    (scopeSelectors? className sheet).isSome = true ∧
    ∃ turns, turns? sheet (String.ofList (className.toList.dropWhile (· = '.')))
        sheet.utf8ByteSize 0 = some turns ∧
      (0 :: turns.map Prod.snd).Pairwise (· < ·) ∧
        (0 :: turns.map Prod.snd).getLast (List.cons_ne_nil _ _) = sheet.utf8ByteSize ∧
          (sheet.utf8ByteSize < 2 ^ 31 →
            String.join (turns.map Prod.fst) = scope sheet className) := by
  refine ⟨Option.isSome_iff_exists.2 (exists_scopeSelectors? className sheet), ?_⟩
  obtain ⟨turns, done, ascend, last⟩ := exists_turns?
    (String.ofList (className.toList.dropWhile (· = '.'))) sheet.utf8ByteSize
    (Text.isBoundary_zero sheet) (Nat.le_of_eq (Nat.zero_add _).symm)
  refine ⟨turns, done, ascend, last, fun short => ?_⟩
  have fewer := Text.length_le_width sheet.toList
  rw [Text.width_toList] at fewer
  rw [@turns?_text [] sheet.toList sheet _ _ _ _ (by omega) le_rfl rfl done, String.toList_ofList]
  rfl

def tornSheet : String :=
  "\x7d é,ü\x7b a: \"\\é\x7d"

theorem scope_in_place_tornSheet :
    tornSheet.utf8ByteSize < 2 ^ 31 ∧
      ∃ turns, turns? tornSheet "c" tornSheet.utf8ByteSize 0 = some turns ∧
        (0 :: turns.map Prod.snd).Pairwise (· < ·) ∧
          String.join (turns.map Prod.fst) = "\x7d .c é, .c ü \x7b a: \"\\é\x7d" := by
  have short : tornSheet.utf8ByteSize < 2 ^ 31 := by decide
  have written : scope tornSheet ".c" = "\x7d .c é, .c ü \x7b a: \"\\é\x7d" := by decide +kernel
  obtain ⟨-, turns, done, ascend, -, same⟩ := scope_in_place tornSheet ".c"
  exact ⟨short, turns, done, ascend, (same short).trans written⟩

end ComponentCompiler.Style
