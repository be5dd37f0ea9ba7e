import ComponentCompiler.Proofs.Style.Cuts
import ComponentCompiler.Proofs.Style.Offsets

namespace ComponentCompiler.Style

open Text (bytes encode encode_concat getElem?_width getElem?_width_iff isAsciiBlank ne_of_high
  ne_of_wide not_width_lt_nil scan_wide width width_append width_concat width_lt)

variable {front cs : List Char} {c q : Char}

/-! ## From bytes to characters -/

theorem commentEnd_succ {bs : List UInt8} {i : Nat} (inside : i < bs.length)
    (goesOn : ¬(bs[i]? = some '*'.toUInt8 ∧ bs[i + 1]? = some '/'.toUInt8)) :
    commentEnd bs i = commentEnd bs (i + 1) := by
  rw [commentEnd]
  split_ifs with more
  · rfl
  · rw [commentEnd, if_neg (by omega)]

theorem commentEnd_eq (front cs : List Char) :
    commentEnd (encode (front ++ cs)) (width front) = width (front ++ (commentCut cs).1) := by
  fun_induction commentCut cs generalizing front with
  | case1 =>
    rw [commentEnd, if_neg fun more => not_width_lt_nil front (Nat.lt_of_succ_lt more)]
    rfl
  | case2 cs =>
    have star := getElem?_width (c := '*') (by decide) front ('/' :: cs)
    have slash := getElem?_width (c := '/') (by decide) (front ++ ['*']) cs
    have inside := width_lt (front ++ ['*']) '/' cs
    rw [← encode_concat, width_concat (by decide)] at slash inside
    rw [commentEnd, if_pos inside, if_pos ⟨star, slash⟩, width_append]
    rfl
  | case3 c cs other ih =>
    have inside := width_lt front c cs
    have step : commentEnd (encode (front ++ c :: cs)) (width front) =
        commentEnd (encode (front ++ c :: cs)) (width (front ++ [c])) := by
      by_cases ascii : c.toNat < 128
      · rw [width_concat ascii]
        refine commentEnd_succ inside ?_
        rintro ⟨star, slash⟩
        rw [getElem?_width_iff (by decide)] at star
        rw [encode_concat, ← width_concat ascii, getElem?_width_iff (by decide)] at slash
        cases cs with
        | nil => cases slash
        | cons d cs =>
          cases star
          cases slash
          exact other cs rfl rfl
      · refine (scan_wide front c cs (Nat.le_of_not_lt ascii) fun i b here high => ?_).1
        refine commentEnd_succ (List.getElem?_eq_some_iff.1 here).1 ?_
        rintro ⟨star, -⟩
        exact ne_of_high high (by decide) (Option.some.inj (here.symm.trans star))
    rw [step, encode_concat, ih]
    simp [keep]

theorem commentEnd_opened (front cs : List Char) :
    commentEnd (encode (front ++ '/' :: '*' :: cs)) (width front + 2) =
      width (front ++ ['/'] ++ ['*'] ++ (commentCut cs).1) := by
  have opened : width front + 2 = width (front ++ ['/'] ++ ['*']) := by
    rw [width_append, width_append]
    rfl
  rw [encode_concat, encode_concat, opened, commentEnd_eq]

theorem stringEnd_of_getElem? {bs : List UInt8} {quote b : UInt8} {i : Nat}
    (here : bs[i]? = some b) :
    stringEnd bs quote i =
      if b = '\\'.toUInt8 then stringEnd bs quote (i + 2)
      else if b = quote then i + 1 else stringEnd bs quote (i + 1) := by
  obtain ⟨inside, rfl⟩ := List.getElem?_eq_some_iff.1 here
  rw [stringEnd, dif_pos inside]

theorem stringEnd_of_le {bs : List UInt8} {i : Nat} (outside : bs.length ≤ i) (quote : UInt8) :
    stringEnd bs quote i = bs.length := by
  rw [stringEnd, dif_neg (Nat.not_lt.2 outside)]

theorem isQuote_ascii (isQuoted : isQuote q = true) : q.toNat < 128 ∧ q ≠ '\\' := by
  simp only [isQuote, Bool.or_eq_true, decide_eq_true_eq] at isQuoted
  rcases isQuoted with rfl | rfl <;> decide

theorem stringEnd_eq (isQuoted : isQuote q = true) (front cs : List Char) :
    stringEnd (encode (front ++ cs)) q.toUInt8 (width front) =
      width (front ++ (stringCut q cs).1) := by
  obtain ⟨small, solid⟩ := isQuote_ascii isQuoted
  have passes (bs : List UInt8) (i : Nat) (b : UInt8) (here : bs[i]? = some b) (high : 128 ≤ b) :
      stringEnd bs q.toUInt8 i = stringEnd bs q.toUInt8 (i + 1) := by
    rw [stringEnd_of_getElem? here, if_neg (ne_of_high high (by decide)),
      if_neg (ne_of_high high (Text.toUInt8_lt small))]
  fun_induction stringCut q cs generalizing front with
  | case1 =>
    rw [List.append_nil]
    exact stringEnd_of_le le_rfl _
  | case2 c cs ih =>
    have next : stringEnd (encode (front ++ '\\' :: c :: cs)) q.toUInt8 (width front + 2) =
        stringEnd (encode (front ++ '\\' :: c :: cs)) q.toUInt8
          (width (front ++ ['\\'] ++ [c])) := by
      have escape : width (front ++ ['\\']) = width front + 1 := width_concat (by decide) front
      rw [encode_concat]
      -- The backslash takes the first byte of the character; the scan passes over the others.
      by_cases ascii : c.toNat < 128
      · rw [width_concat ascii, escape]
      · rw [← (scan_wide _ c cs (Nat.le_of_not_lt ascii) (passes _)).2, escape]
    rw [stringEnd_of_getElem? (getElem?_width (by decide) front _), if_pos rfl, next, encode_concat,
      encode_concat, ih]
    simp [keep]
  | case3 cs other =>
    rw [stringEnd_of_getElem? (getElem?_width small front cs), if_neg, if_pos rfl,
      width_concat small]
    rwa [Text.toUInt8_inj small (by decide)]
  | case4 c cs other differ ih =>
    have next : stringEnd (encode (front ++ c :: cs)) q.toUInt8 (width front) =
        stringEnd (encode (front ++ c :: cs)) q.toUInt8 (width (front ++ [c])) := by
      by_cases ascii : c.toNat < 128
      · have here := getElem?_width ascii front cs
        rw [width_concat ascii, stringEnd_of_getElem? here,
          if_neg (mt (Text.toUInt8_inj ascii small).1 differ)]
        split_ifs with escape
        · -- A backslash is at the end of the text, or it would take a character with it.
          rw [Text.toUInt8_inj ascii (by decide)] at escape
          cases cs with
          | nil =>
            have size : (encode (front ++ [c])).length = width front + 1 := width_concat ascii front
            rw [stringEnd_of_le (by omega), stringEnd_of_le (by omega)]
          | cons d cs => exact (other d cs escape rfl).elim
        · rfl
      · exact (scan_wide front c cs (Nat.le_of_not_lt ascii) (passes _)).1
    rw [next, encode_concat, ih]
    simp [keep]

theorem byte_eq_iff {b : UInt8} {d : Char}
    (here : (encode (front ++ c :: cs))[width front]? = some b) (small : d.toNat < 128) :
    b = d.toUInt8 ↔ c = d := by
  have same : (encode (front ++ c :: cs))[width front]? = some d.toUInt8 ↔
      (c :: cs).head? = some d := getElem?_width_iff small
  rwa [here, List.head?_cons, Option.some.injEq, Option.some.injEq] at same

theorem isQuoteByte_iff {b : UInt8} (here : (encode (front ++ c :: cs))[width front]? = some b) :
    isQuoteByte b = true ↔ isQuote c = true := by
  simp (disch := decide) only [isQuoteByte, isQuote, Bool.or_eq_true, decide_eq_true_eq,
    byte_eq_iff here]

theorem startsComment_iff (front : List Char) (c : Char) (cs : List Char) :
    (encode (front ++ c :: cs))[width front]? = some '/'.toUInt8 ∧
        (encode (front ++ c :: cs))[width front + 1]? = some '*'.toUInt8 ↔
      ∃ rest, c = '/' ∧ cs = '*' :: rest := by
  rw [getElem?_width_iff (by decide), List.head?_cons, Option.some.injEq]
  constructor
  · rintro ⟨rfl, star⟩
    rw [encode_concat, ← width_concat (c := '/') (by decide),
      getElem?_width_iff (by decide)] at star
    cases cs with
    | nil => cases star
    | cons d cs =>
      cases star
      exact ⟨cs, rfl, rfl⟩
  · rintro ⟨rest, rfl, rfl⟩
    rw [encode_concat, ← width_concat (c := '/') (by decide)]
    exact ⟨rfl, getElem?_width (by decide) (front ++ ['/']) rest⟩

theorem skip?_eq (front cs : List Char) :
    skip? (encode (front ++ cs)) (width front) =
      (skipCut? cs).map fun cut => width (front ++ cut.1) := by
  cases cs with
  | nil =>
    have ended : (encode (front ++ []))[width front]? = none :=
      List.getElem?_eq_none (by rw [List.append_nil, width])
    rw [skip?, ended]
    rfl
  | cons c cs =>
    obtain ⟨b, here⟩ : ∃ b, (encode (front ++ c :: cs))[width front]? = some b :=
      ⟨_, List.getElem?_eq_getElem (width_lt front c cs)⟩
    have comment := startsComment_iff front c cs
    rw [here, Option.some.injEq] at comment
    rw [skip?, here]
    dsimp only
    by_cases starts : ∃ rest, c = '/' ∧ cs = '*' :: rest
    · obtain ⟨first, second⟩ := comment.2 starts
      obtain ⟨rest, rfl, rfl⟩ := starts
      rw [if_neg (first ▸ by decide), if_pos ⟨first, second⟩, commentEnd_opened]
      simp [skipCut?, before]
    · rw [skipCut?.eq_2 _ _ fun rest slash star => starts ⟨rest, slash, star⟩,
        if_neg (mt comment.1 starts)]
      by_cases isQuoted : isQuote c = true
      · obtain ⟨small, -⟩ := isQuote_ascii isQuoted
        obtain rfl : c.toUInt8 = b :=
          Option.some.inj ((getElem?_width small front cs).symm.trans here)
        rw [if_pos ((isQuoteByte_iff here).2 isQuoted), if_pos isQuoted, encode_concat,
          ← width_concat small, stringEnd_eq isQuoted]
        simp [before]
      · rw [if_neg (mt (isQuoteByte_iff here).1 isQuoted), if_neg isQuoted]
        rfl

theorem skip?_of_skipCut? {cut : List Char × List Char} (skipped : skipCut? cs = some cut)
    (front : List Char) :
    skip? (encode (front ++ cs)) (width front) = some (width (front ++ cut.1)) := by
  rw [skip?_eq, skipped, Option.map_some]

theorem skip?_of_plain (plain : skipCut? cs = none) (front : List Char) :
    skip? (encode (front ++ cs)) (width front) = none := by
  rw [skip?_eq, plain, Option.map_none]

/-! ## Counters -/

section

variable {n : Nat}

theorem ofNat_eq_zero_iff (short : n < 2 ^ 31) : Int32.ofNat n = 0 ↔ n = 0 := by
  rw [← Int32.toInt_inj, Int32.toInt_ofNat_of_lt short]
  exact Int.natCast_eq_zero

theorem ofNat_succ (n : Nat) : Int32.ofNat n + 1 = Int32.ofNat (n + 1) :=
  (Int32.ofNat_add n 1).symm

theorem ofNat_sub_one (some_ : n ≠ 0) : Int32.ofNat n - 1 = Int32.ofNat (n - 1) :=
  (Int32.ofNat_sub n 1 (Nat.one_le_iff_ne_zero.2 some_)).symm

theorem max_ofNat_sub_one (short : n < 2 ^ 31) :
    max (Int32.ofNat n - 1) 0 = Int32.ofNat (n - 1) := by
  by_cases none_ : n = 0
  · subst none_
    decide
  rw [ofNat_sub_one none_]
  change (if Int32.ofNat (n - 1) ≤ Int32.ofNat 0 then Int32.ofNat 0 else _) = _
  split
  · next le =>
    have zero := Nat.le_zero.1 ((Int32.ofNat_le_iff_le (by omega) (by decide)).1 le)
    rw [zero]
  · rfl

end

/-! ## Preludes and blocks -/

section

variable {bs : List UInt8} {i k : Nat} {b : UInt8}

theorem lt_of_skip? (skipped : skip? bs i = some k) : i < bs.length := by
  by_contra outside
  rw [skip?, List.getElem?_eq_none (Nat.le_of_not_lt outside)] at skipped
  cases skipped

theorem skip?_of_wide (here : bs[i]? = some b) (high : 128 ≤ b) : skip? bs i = none := by
  have noQuote : ¬isQuoteByte b = true := fun isQuote =>
    absurd (lt_of_isQuoteByte isQuote) (UInt8.not_lt.2 high)
  rw [skip?, here]
  dsimp only
  rw [if_neg noQuote, if_neg fun starts => ne_of_high high (by decide) starts.1]

theorem preludeEnd?_of_skip (skipped : skip? bs i = some k) (parens : Int32) :
    preludeEnd? bs parens i = preludeEnd? bs parens k := by
  rw [preludeEnd?, dif_pos (lt_of_skip? skipped)]
  split
  · next next same => rw [Option.some.inj (skipped.symm.trans same)]
  · next none_ => cases skipped.symm.trans none_

theorem preludeEnd?_of_plain (here : bs[i]? = some b) (plain : skip? bs i = none)
    (parens : Int32) :
    preludeEnd? bs parens i =
      if b = '('.toUInt8 then preludeEnd? bs (parens + 1) (i + 1)
      else if b = ')'.toUInt8 then preludeEnd? bs (max (parens - 1) 0) (i + 1)
      else if (b = '\x7b'.toUInt8 ∨ b = ';'.toUInt8) ∧ parens = 0 then some i
      else preludeEnd? bs parens (i + 1) := by
  obtain ⟨inside, rfl⟩ := List.getElem?_eq_some_iff.1 here
  rw [preludeEnd?, dif_pos inside]
  split
  · next next skipped => cases plain.symm.trans skipped
  · rfl

theorem preludeEnd?_of_wide (here : bs[i]? = some b) (high : 128 ≤ b) (parens : Int32) :
    preludeEnd? bs parens i = preludeEnd? bs parens (i + 1) := by
  rw [preludeEnd?_of_plain here (skip?_of_wide here high)]
  simp (disch := decide) [ne_of_high high]

theorem blockEnd_of_skip (skipped : skip? bs i = some k) (depth : Int32) :
    blockEnd bs depth i = blockEnd bs depth k := by
  rw [blockEnd, dif_pos (lt_of_skip? skipped)]
  split
  · next next same => rw [Option.some.inj (skipped.symm.trans same)]
  · next none_ => cases skipped.symm.trans none_

theorem blockEnd_of_plain (here : bs[i]? = some b) (plain : skip? bs i = none) (depth : Int32) :
    blockEnd bs depth i =
      if b = '\x7b'.toUInt8 then blockEnd bs (depth + 1) (i + 1)
      else if b = '\x7d'.toUInt8 then
        if depth - 1 = 0 then i + 1 else blockEnd bs (depth - 1) (i + 1)
      else blockEnd bs depth (i + 1) := by
  obtain ⟨inside, rfl⟩ := List.getElem?_eq_some_iff.1 here
  rw [blockEnd, dif_pos inside]
  split
  · next next skipped => cases plain.symm.trans skipped
  · rfl

theorem blockEnd_of_wide (here : bs[i]? = some b) (high : 128 ≤ b) (depth : Int32) :
    blockEnd bs depth i = blockEnd bs depth (i + 1) := by
  rw [blockEnd_of_plain here (skip?_of_wide here high)]
  simp (disch := decide) [ne_of_high high]

end

theorem preludeEnd?_eq {n : Nat} (short : n + cs.length < 2 ^ 31) (front : List Char) :
    preludeEnd? (encode (front ++ cs)) (Int32.ofNat n) (width front) =
      (prelude? .plain n cs).map fun cut => width (front ++ cut.1) := by
  -- With each character that may be counted the text gets shorter, so the counter stays small.
  induction cs using skip_induction generalizing n front with
  | nil =>
    rw [preludeEnd?, dif_neg (not_width_lt_nil front), prelude?]
    rfl
  | skip cs cut skipped ih =>
    obtain ⟨parts, -⟩ := skipCut?_parts skipped
    have shorter := length_skipCut?_lt skipped
    rw [preludeEnd?_of_skip (skip?_of_skipCut? skipped front), prelude?_skip skipped,
      Option.map_map]
    rw [← parts, ← List.append_assoc, ih (by omega)]
    simp [before, Function.comp_def]
  | step c cs plain ih =>
    obtain ⟨notQuote, apart⟩ := skipCut?_eq_none_iff.1 plain
    rw [List.length_cons] at short
    rw [prelude?.eq_7 _ _ _ apart, notQuote, if_neg Bool.false_ne_true]
    have kept (n : Nat) : (prelude? .plain n cs).map (fun cut => width (front ++ [c] ++ cut.1)) =
        ((prelude? .plain n cs).map (keep c)).map fun cut => width (front ++ cut.1) := by
      simp [keep, Function.comp_def]
    by_cases ascii : c.toNat < 128
    · rw [preludeEnd?_of_plain (getElem?_width ascii front cs) (skip?_of_plain plain front),
        encode_concat, ← width_concat ascii, max_ofNat_sub_one (by omega), ofNat_succ,
        ih (by omega), ih (by omega), ih (by omega), kept, kept, kept]
      simp (disch := decide) only [Text.toUInt8_inj ascii]
      simp only [ofNat_eq_zero_iff (show n < 2 ^ 31 by omega), Bool.and_eq_true, Bool.or_eq_true,
        decide_eq_true_eq, and_comm (a := n = 0)]
      split_ifs <;> simp
    · have wide := Nat.le_of_not_lt ascii
      rw [(scan_wide front c cs wide fun i b here high =>
        preludeEnd?_of_wide here high _).1, encode_concat, ih (by omega), kept]
      simp (disch := decide) [ne_of_wide wide]

theorem blockEnd_eq {n : Nat} (opened : n ≠ 0) (short : n + cs.length < 2 ^ 31)
    (front : List Char) :
    blockEnd (encode (front ++ cs)) (Int32.ofNat n) (width front) =
      width (front ++ (block .plain n cs).1) := by
  induction cs using skip_induction generalizing n front with
  | nil =>
    rw [blockEnd, dif_neg (not_width_lt_nil front), block]
    rfl
  | skip cs cut skipped ih =>
    obtain ⟨parts, -⟩ := skipCut?_parts skipped
    have shorter := length_skipCut?_lt skipped
    rw [blockEnd_of_skip (skip?_of_skipCut? skipped front), block_skip skipped]
    rw [← parts, ← List.append_assoc, ih opened (by omega)]
    simp [before]
  | step c cs plain ih =>
    obtain ⟨notQuote, apart⟩ := skipCut?_eq_none_iff.1 plain
    rw [List.length_cons] at short
    rw [block.eq_7 _ _ _ apart, notQuote, if_neg Bool.false_ne_true]
    have kept (n : Nat) : width (front ++ [c] ++ (block .plain n cs).1) =
        width (front ++ (keep c (block .plain n cs)).1) := by
      simp [keep]
    by_cases ascii : c.toNat < 128
    · rw [blockEnd_of_plain (getElem?_width ascii front cs) (skip?_of_plain plain front),
        encode_concat, ← width_concat ascii, ofNat_sub_one opened, ofNat_succ]
      simp (disch := decide) only [Text.toUInt8_inj ascii]
      simp only [ofNat_eq_zero_iff (show n - 1 < 2 ^ 31 by omega), Nat.sub_eq_zero_iff_le]
      split_ifs with opens closes last
      · rw [ih (Nat.succ_ne_zero n) (by omega), kept]
      · rfl
      · rw [ih (by omega) (by omega), kept]
      · rw [ih opened (by omega), kept]
    · have wide := Nat.le_of_not_lt ascii
      rw [(scan_wide front c cs wide fun i b here high =>
        blockEnd_of_wide here high _).1, encode_concat, ih opened (by omega), kept]
      simp (disch := decide) [ne_of_wide wide]

theorem blockEnd_openBrace (short : cs.length + 1 < 2 ^ 31) (front : List Char) :
    blockEnd (encode (front ++ '\x7b' :: cs)) 0 (width front) =
      width (front ++ (block .plain 0 ('\x7b' :: cs)).1) := by
  have plain : skipCut? ('\x7b' :: cs) = none :=
    skipCut?_eq_none_iff.2 ⟨by decide, fun _ slash => absurd slash (by decide)⟩
  have first : (0 : Int32) + 1 = Int32.ofNat 1 := rfl
  rw [blockEnd_of_plain (getElem?_width (by decide) front cs) (skip?_of_plain plain front),
    if_pos rfl, encode_concat, ← width_concat (c := '\x7b') (by decide), first,
    blockEnd_eq Nat.one_ne_zero (by omega)]
  simp [block, keep, isQuote]

/-! ## Gaps -/

theorem isBlankByte_iff :
    (encode (front ++ c :: cs))[width front]?.any isBlankByte = true ↔ isAsciiBlank c = true := by
  obtain ⟨b, here⟩ : ∃ b, (encode (front ++ c :: cs))[width front]? = some b :=
    ⟨_, List.getElem?_eq_getElem (width_lt front c cs)⟩
  rw [here, Option.any_some]
  simp (disch := decide) only [isBlankByte, isAsciiBlank, Bool.or_eq_true, decide_eq_true_eq,
    byte_eq_iff here]

theorem isAsciiBlank_ascii (blank : isAsciiBlank c = true) : c.toNat < 128 ∧ c ≠ '/' := by
  simp only [isAsciiBlank, Bool.or_eq_true, decide_eq_true_eq] at blank
  rcases blank with (((rfl | rfl) | rfl) | rfl) | rfl <;> decide

section

variable {s : String}

theorem gapEnd?_of_blank (parts : s.toList = front ++ c :: cs) (blank : isAsciiBlank c = true) :
    gapEnd? s (width front) = gapEnd? s (width (front ++ [c])) := by
  have here : (bytes s)[width front]?.any isBlankByte = true := by
    rw [Text.bytes_of_toList parts, isBlankByte_iff, blank]
  rw [gapEnd?, dif_pos here, width_concat (isAsciiBlank_ascii blank).1]

theorem gapEnd?_of_solid (parts : s.toList = front ++ cs)
    (solid : ¬(bytes s)[width front]?.any isBlankByte = true) :
    gapEnd? s (width front) =
      if ['/', '*'] <+: cs then gapEnd? s (commentEnd (bytes s) (width front + 2))
      else some (width front) := by
  have taken := Text.slice?_rest parts
  rw [gapEnd?, dif_neg solid]
  split
  · next missing => cases missing.symm.trans taken
  · next rest taken' =>
    obtain rfl : rest = String.ofList cs := Option.some.inj (taken'.symm.trans taken)
    rw [String.toList_ofList]
    rfl

theorem gapEnd?_of_comment (parts : s.toList = front ++ '/' :: '*' :: cs) :
    gapEnd? s (width front) = gapEnd? s (width (front ++ ['/'] ++ ['*'] ++ (commentCut cs).1)) := by
  have solid : ¬(bytes s)[width front]?.any isBlankByte = true := by
    rw [Text.bytes_of_toList parts, isBlankByte_iff]
    decide
  rw [gapEnd?_of_solid parts solid, if_pos ⟨cs, rfl⟩, Text.bytes_of_toList parts,
    commentEnd_opened]

theorem gapEnd?_of_next (parts : s.toList = front ++ c :: cs)
    (solid : isAsciiBlank c = false) (apart : c = '/' → cs.head? ≠ some '*') :
    gapEnd? s (width front) = some (width (front ++ (gap .plain (c :: cs)).1)) := by
  rw [gapEnd?_of_solid parts, if_neg, gap_of_solid solid apart, List.append_nil]
  · rintro ⟨rest, starts⟩
    obtain ⟨rfl, rfl⟩ : '/' = c ∧ '*' :: rest = cs := List.cons.inj starts
    exact apart rfl rfl
  · rw [Text.bytes_of_toList parts, isBlankByte_iff, solid]
    exact Bool.false_ne_true

theorem gapEnd?_eq (parts : s.toList = front ++ cs) :
    gapEnd? s (width front) = some (width (front ++ (gap .plain cs).1)) := by
  induction cs using skip_induction generalizing front with
  | nil =>
    rw [gapEnd?_of_solid parts, if_neg (by decide)]
    · simp [gap]
    · have ended : (encode front).length ≤ width front := le_rfl
      rw [Text.bytes_of_toList parts, List.append_nil, List.getElem?_eq_none ended]
      exact Bool.false_ne_true
  | skip cs cut skipped ih =>
    unfold skipCut? at skipped
    split at skipped
    · next rest =>
      obtain rfl := Option.some.inj skipped
      have again : s.toList = front ++ ['/'] ++ ['*'] ++ (commentCut rest).1 ++
          (commentCut rest).2 := by
        rw [List.append_assoc _ (commentCut rest).1, commentCut_parts, parts]
        simp
      rw [gapEnd?_of_comment parts, ih again, passes_gap.start,
        passes_gap.commentCut endsAnywhere_gap]
      simp [before]
    · next q rest _ =>
      split at skipped
      · next isQuoted =>
        simp only [isQuote, Bool.or_eq_true, decide_eq_true_eq] at isQuoted
        rcases isQuoted with rfl | rfl
        · exact gapEnd?_of_next parts rfl fun slash => absurd slash (by decide)
        · exact gapEnd?_of_next parts rfl fun slash => absurd slash (by decide)
      · cases skipped
    · cases skipped
  | step c cs plain ih =>
    obtain ⟨-, apart⟩ := skipCut?_eq_none_iff.1 plain
    cases blank : isAsciiBlank c with
    | true =>
      have next : s.toList = front ++ [c] ++ cs := by simp [parts]
      have kept : gap .plain (c :: cs) = keep c (gap .plain cs) := by
        rw [gap.eq_5 _ _ _ (fun _ slash => absurd slash (isAsciiBlank_ascii blank).2)
          (fun _ inside => by cases inside) (fun inside => by cases inside), if_pos blank]
      rw [gapEnd?_of_blank parts blank, ih next, kept]
      simp [keep]
    | false =>
      refine gapEnd?_of_next parts blank fun slash star => ?_
      cases cs with
      | nil => cases star
      | cons d cs =>
        cases star
        exact apart cs slash rfl

end

end ComponentCompiler.Style
