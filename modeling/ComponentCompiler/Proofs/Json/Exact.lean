import ComponentCompiler.Proofs.Json.Decimals

namespace ComponentCompiler.Json

open Number (DecimalStyle)
open Text (isAsciiDigit)

mutual

def Raw.exactValue? : Raw → Option Value
  | .null => some .null
  | .bool b => some (.bool b)
  | .number n => some n.exact
  | .string units => (Json.string? units).map .string
  | .array items => (Raw.exactValues? items).map .array
  | .object members => (Raw.exactMembers? members).map .object

def Raw.exactValues? : List Raw → Option (List Value)
  | [] => some []
  | raw :: rest => do
    let v ← raw.exactValue?
    let vs ← Raw.exactValues? rest
    some (v :: vs)

def Raw.exactMembers? : List (List Nat × Raw) → Option (List (String × Value))
  | [] => some []
  | (key, raw) :: rest => do
    let key ← Json.string? key
    let v ← raw.exactValue?
    let members ← Raw.exactMembers? rest
    some ((key, v) :: members)

end

/-- The values that JSON has: a number is an integer or a finite double. -/
inductive Value.IsJson : Value → Prop
  | null : IsJson .null
  | bool (b : Bool) : IsJson (.bool b)
  | integer (n : Int) : IsJson (.integer n)
  | float {x : Number.Binary64} (finite : x.IsFinite) : IsJson (.float x)
  | string (s : String) : IsJson (.string s)
  | array {items : List Value} (each : ∀ v ∈ items, v.IsJson) : IsJson (.array items)
  | object {members : List (String × Value)} (each : ∀ m ∈ members, m.2.IsJson) :
    IsJson (.object members)

theorem texts_eq_map (items : List Value) : Value.texts items = items.map Value.text := by
  induction items with
  | nil => rfl
  | cons v items ih => rw [Value.texts, ih, List.map_cons]

def Value.memberText (m : String × Value) : List Char :=
  Member.written [] ⟨m.1, m.2.text, m.2⟩

theorem memberTexts_eq_map (members : List (String × Value)) :
    Value.memberTexts members = members.map Value.memberText := by
  induction members with
  | nil => rfl
  | cons m members ih =>
    rw [Value.memberTexts, ih, List.map_cons]
    rfl

theorem length_le_memberText (m : String × Value) :
    m.2.text.length ≤ (Value.memberText m).length := by
  simp only [Value.memberText, Member.written, List.nil_append, List.length_append,
    List.length_cons]
  omega

theorem length_le_joinWith_of_mem (separator : List Char) {text : List Char}
    {texts : List (List Char)} (member : text ∈ texts) :
    text.length ≤ (joinWith separator texts).length := by
  induction texts with
  | nil => cases member
  | cons first texts ih =>
    cases texts with
    | nil =>
      obtain rfl := List.mem_singleton.1 member
      rfl
    | cons next texts =>
      rw [joinWith_cons_cons, List.length_append, List.length_append]
      rcases List.mem_cons.1 member with rfl | later
      · omega
      · have shorter := ih later
        omega

theorem length_le_joinWith (text : List Char) (texts : List (List Char)) :
    texts.length ≤ (joinWith [','] (text :: texts)).length := by
  induction texts generalizing text with
  | nil => exact Nat.zero_le _
  | cons next texts ih =>
    have shorter := ih next
    simp only [joinWith_cons_cons, List.length_append, List.length_cons, List.length_nil]
    omega

/-- The text of an item: it is read off wherever it stands. -/
structure ReadsItem {α : Type} (item : List Char → Option (α × List Char)) (close : Char)
    (text : List Char) (x : α) : Prop where
  starts : ∃ c cs, text = c :: cs ∧ Raw.isGap c = false ∧ c ≠ close
  read : ∀ rest, EndsNumber rest → item (text ++ rest) = some (x, rest)

section Items

variable {α : Type} {item : List Char → Option (α × List Char)} {close : Char} {text : List Char}
  {x : α} {texts : List (List Char)} {xs : List α}

theorem ReadsItem.skipGap (reads : ReadsItem item close text x) (rest : List Char) :
    Raw.skipGap (text ++ rest) = text ++ rest := by
  obtain ⟨c, cs, rfl, apart, -⟩ := reads.starts
  exact skipGap_cons apart _

theorem endsNumber_comma (rest : List Char) : EndsNumber (',' :: rest) := by
  rintro c ⟨⟩
  decide

variable (bracket : close = ']' ∨ close = '\x7d') (rest : List Char)

include bracket

theorem endsNumber_bracket : EndsNumber (close :: rest) := by
  rintro c ⟨⟩
  rcases bracket with rfl | rfl <;> decide

theorem skipGap_bracket : Raw.skipGap (close :: rest) = close :: rest := by
  rcases bracket with rfl | rfl <;> rfl

theorem items?_joinWith (first : ReadsItem item close text x)
    (reads : List.Forall₂ (ReadsItem item close) texts xs) {bound : Nat}
    (fits : texts.length < bound) :
    Raw.items? item close bound (joinWith [','] (text :: texts) ++ close :: rest) =
      some (x :: xs, rest) := by
  induction reads generalizing text x bound with
  | nil =>
    obtain ⟨bound, rfl⟩ := Nat.exists_eq_add_of_lt fits
    have last : item (Raw.skipGap (text ++ close :: rest)) = some (x, close :: rest) := by
      rw [first.skipGap, first.read _ (endsNumber_bracket bracket rest)]
    exact items?_last (by rcases bracket with rfl | rfl <;> decide) last
      (skipGap_bracket bracket rest)
  | @cons next y texts xs nextReads _ ih =>
    obtain ⟨bound, rfl⟩ := Nat.exists_eq_add_of_lt fits
    rw [joinWith_cons_cons, List.append_assoc, List.append_assoc, List.singleton_append]
    have read := first.read _
      (endsNumber_comma (joinWith [','] (next :: texts) ++ close :: rest))
    rw [← first.skipGap] at read
    rw [items?_cons read (skipGap_cons rfl _),
      ih nextReads (by rw [List.length_cons]; omega)]
    rfl

theorem bracketed?_joinWith (reads : List.Forall₂ (ReadsItem item close) texts xs) :
    Raw.bracketed? item close (joinWith [','] texts ++ close :: rest) = some (xs, rest) := by
  cases reads with
  | nil =>
    have front := skipGap_bracket bracket rest
    rw [joinWith, List.nil_append, Raw.bracketed?, front]
    exact if_pos rfl
  | @cons text x texts xs first others =>
    obtain ⟨c, cs, front, apart, opens⟩ : ∃ c cs,
        joinWith [','] (text :: texts) ++ close :: rest = c :: cs ∧ Raw.isGap c = false ∧
          c ≠ close := by
      obtain ⟨c, cs, rfl, start⟩ := first.starts
      cases texts with
      | nil => exact ⟨c, _, rfl, start⟩
      | cons next texts => exact ⟨c, _, rfl, start⟩
    have many : texts.length < cs.length + 1 := by
      have commas := length_le_joinWith text texts
      have length := congrArg List.length front
      rw [List.length_append, List.length_cons, List.length_cons] at length
      omega
    rw [front, bracketed?_eq_items? apart opens, ← front]
    exact items?_joinWith bracket rest first others many

end Items

def ReadsExactly (v : Value) : Prop :=
  ∃ raw : Raw, raw.exactValue? = some v ∧ ∀ bound rest, v.text.length ≤ bound → EndsNumber rest →
    Raw.value? (bound + 1) (v.text ++ rest) = some (raw, rest)

theorem starts_of_value? {bound : Nat} {cs rest : List Char} {raw : Raw}
    (read : Raw.value? bound cs = some (raw, rest)) :
    ∃ c more, cs = c :: more ∧ Raw.isGap c = false ∧ c ≠ ']' := by
  match bound, cs with
  | 0, _ => cases read
  | _ + 1, [] => cases read
  | bound + 1, c :: more =>
    refine ⟨c, more, rfl, ?_, ?_⟩
    · rw [← Bool.not_eq_true]
      intro isGap
      rw [value?_gap isGap] at read
      cases read
    · rintro rfl
      cases read

section Lists

variable {items : List Value} {members : List (String × Value)}

theorem exists_exacts (each : ∀ v ∈ items, ReadsExactly v) :
    ∃ raws, Raw.exactValues? raws = some items ∧ ∀ bound, (∀ v ∈ items, v.text.length ≤ bound) →
      List.Forall₂ (ReadsItem (Raw.value? (bound + 1)) ']') (items.map Value.text) raws := by
  induction items with
  | nil => exact ⟨[], rfl, fun _ _ => .nil⟩
  | cons v items ih =>
    obtain ⟨⟨raw, exact, read⟩, others⟩ := List.forall_mem_cons.1 each
    obtain ⟨raws, exacts, reads⟩ := ih others
    refine ⟨raw :: raws, by simp [Raw.exactValues?, exact, exacts], fun bound fits => ?_⟩
    obtain ⟨fits, othersFit⟩ := List.forall_mem_cons.1 fits
    have alone := read bound [] fits (by simp [EndsNumber])
    rw [List.append_nil] at alone
    exact .cons ⟨starts_of_value? alone, fun rest => read bound rest fits⟩ (reads bound othersFit)

theorem exists_exactMembers (each : ∀ m ∈ members, ReadsExactly m.2) :
    ∃ raws, Raw.exactMembers? raws = some members ∧
      ∀ bound, (∀ m ∈ members, m.2.text.length ≤ bound) →
        List.Forall₂ (ReadsItem (Raw.member? (Raw.value? (bound + 1))) '\x7d')
          (members.map Value.memberText) raws := by
  induction members with
  | nil => exact ⟨[], rfl, fun _ _ => .nil⟩
  | cons m members ih =>
    obtain ⟨⟨raw, exact, read⟩, others⟩ := List.forall_mem_cons.1 each
    obtain ⟨raws, exacts, reads⟩ := ih others
    refine ⟨(m.1.toList.map Char.toNat, raw) :: raws,
      by simp [Raw.exactMembers?, string?_toNat, exact, exacts], fun bound fits => ?_⟩
    obtain ⟨fits, othersFit⟩ := List.forall_mem_cons.1 fits
    refine .cons ⟨⟨'"', _, rfl, rfl, by decide⟩, fun rest ends => ?_⟩ (reads bound othersFit)
    have member := member?_written (List.forall_mem_nil _) (Raw.value? (bound + 1))
      ⟨m.1, m.2.text, m.2⟩ rest
    have value := read bound rest fits ends
    obtain ⟨c, more, front, apart, -⟩ := starts_of_value? value
    rw [front, skipGap_cons apart, ← front, value] at member
    exact member

theorem readsExactly_array (each : ∀ v ∈ items, ReadsExactly v) : ReadsExactly (.array items) := by
  obtain ⟨raws, exacts, reads⟩ := exists_exacts each
  refine ⟨.array raws, by rw [Raw.exactValue?, exacts]; rfl, fun bound rest fits _ => ?_⟩
  rw [Value.text, List.length_cons, List.length_append, List.length_singleton] at fits
  obtain ⟨bound, rfl⟩ := Nat.exists_eq_add_one.2 (Nat.lt_of_lt_of_le (Nat.succ_pos _) fits)
  have inside (v : Value) (member : v ∈ items) : v.text.length ≤ bound := by
    have shorter := length_le_joinWith_of_mem [','] (List.mem_map_of_mem (f := Value.text) member)
    rw [← texts_eq_map] at shorter
    omega
  have value (cs : List Char) : Raw.value? (bound + 1 + 1) ('[' :: cs) =
      (Raw.bracketed? (Raw.value? (bound + 1)) ']' cs).map
        fun found => (.array found.1, found.2) := rfl
  rw [Value.text, texts_eq_map, List.cons_append, List.append_assoc, List.singleton_append, value,
    bracketed?_joinWith (.inl rfl) rest (reads _ inside)]
  rfl

theorem readsExactly_object (each : ∀ m ∈ members, ReadsExactly m.2) :
    ReadsExactly (.object members) := by
  obtain ⟨raws, exacts, reads⟩ := exists_exactMembers each
  refine ⟨.object raws, by rw [Raw.exactValue?, exacts]; rfl, fun bound rest fits _ => ?_⟩
  rw [Value.text, List.length_cons, List.length_append, List.length_singleton] at fits
  obtain ⟨bound, rfl⟩ := Nat.exists_eq_add_one.2 (Nat.lt_of_lt_of_le (Nat.succ_pos _) fits)
  have inside (m : String × Value) (member : m ∈ members) : m.2.text.length ≤ bound := by
    have shorter := length_le_joinWith_of_mem [','] (List.mem_map_of_mem (f := Value.memberText) member)
    rw [← memberTexts_eq_map] at shorter
    have value := length_le_memberText m
    omega
  have value (cs : List Char) : Raw.value? (bound + 1 + 1) ('\x7b' :: cs) =
      (Raw.bracketed? (Raw.member? (Raw.value? (bound + 1))) '\x7d' cs).map
        fun found => (.object found.1, found.2) := rfl
  rw [Value.text, memberTexts_eq_map, List.cons_append, List.append_assoc, List.singleton_append,
    value, bracketed?_joinWith (.inr rfl) rest (reads _ inside)]
  rfl

end Lists

theorem Value.IsJson.readsExactly {v : Value} (isJson : v.IsJson) : ReadsExactly v := by
  induction isJson with
  | null => exact ⟨.null, rfl, fun _ _ _ _ => rfl⟩
  | bool b => cases b <;> exact ⟨.bool _, rfl, fun _ _ _ _ => rfl⟩
  | integer n =>
    refine ⟨.number _, ?_, fun bound rest _ ends => value?_integerText n ends bound⟩
    rw [Raw.exactValue?, Numeral.exact_integer]
  | float finite =>
    obtain ⟨n, exact, read⟩ := exists_exact finite
    exact ⟨.number n, by rw [Raw.exactValue?, exact], fun bound rest _ ends => read bound rest ends⟩
  | string s =>
    refine ⟨.string (s.toList.map Char.toNat), by rw [Raw.exactValue?, string?_toNat]; rfl,
      fun bound rest _ _ => ?_⟩
    rw [Value.text, quote, List.cons_append, List.append_assoc, value?_string,
      List.singleton_append, units?_escaped]
    rfl
  | array _ each => exact readsExactly_array each
  | object _ each => exact readsExactly_object each

theorem isNumeralChar_digitsOf (n : Nat) : ∀ c ∈ Number.digitsOf n, isNumeralChar c = true :=
  fun c member => by simp [isNumeralChar, isAsciiDigit_digitsOf n c member]

theorem isNumeralChar_integerText (n : Int) :
    ∀ c ∈ Number.integerText n, isNumeralChar c = true := by
  rw [Number.integerText]
  split
  next => exact List.forall_mem_cons.2 ⟨rfl, isNumeralChar_digitsOf _⟩
  next => exact isNumeralChar_digitsOf _

theorem isNumeralChar_write {ds : List Char} (digit : ∀ c ∈ ds, isNumeralChar c = true) (e : Int) :
    ∀ c ∈ numberStyle.write ds e, isNumeralChar c = true := by
  have zeros (n : Nat) : ∀ c ∈ List.replicate n '0', isNumeralChar c = true := fun c member => by
    rw [List.eq_of_mem_replicate member]
    rfl
  have padded (n : Nat) : ∀ c ∈ ds ++ List.replicate n '0', isNumeralChar c = true :=
    List.forall_mem_append.2 ⟨digit, zeros n⟩
  have mark {c : Char} (isMark : isNumeralChar c = true) : ∀ d ∈ [c], isNumeralChar d = true :=
    List.forall_mem_singleton.2 isMark
  rw [DecimalStyle.write]
  split
  next =>
    split
    next =>
      exact List.forall_mem_append.2 ⟨List.forall_mem_append.2
        ⟨List.forall_mem_cons.2 ⟨rfl, mark rfl⟩, zeros _⟩, digit⟩
    next =>
      refine List.forall_mem_append.2 ⟨List.forall_mem_append.2
        ⟨fun c member => padded _ c (List.mem_of_mem_take member), mark rfl⟩, ?_⟩
      split
      next => exact mark rfl
      next => exact fun c member => padded _ c (List.mem_of_mem_drop member)
  next =>
    refine List.forall_mem_append.2 ⟨List.forall_mem_append.2 ⟨List.forall_mem_append.2
      ⟨List.forall_mem_append.2 ⟨fun c member => digit c (List.mem_of_mem_take member), ?_⟩,
        mark rfl⟩, ?_⟩, isNumeralChar_integerText e⟩
    · split
      next => exact List.forall_mem_nil _
      next =>
        exact List.forall_mem_cons.2 ⟨rfl, fun c member => digit c (List.mem_of_mem_drop member)⟩
    · split
      next => exact mark rfl
      next => exact List.forall_mem_nil _

theorem isNumeralChar_text (negative : Bool) (m : Nat) (q : Int) :
    ∀ c ∈ numberStyle.text (.finite negative m q), isNumeralChar c = true := by
  have sign : ∀ c ∈ (if negative then ['-'] else []), isNumeralChar c = true := by
    cases negative <;> simp [isNumeralChar]
  rw [DecimalStyle.text]
  split
  next => exact List.forall_mem_append.2 ⟨sign, List.all_eq_true.1 rfl⟩
  next =>
    refine List.forall_mem_append.2 ⟨sign, isNumeralChar_write (fun c member => ?_) _⟩
    obtain ⟨dropped, parts, -⟩ :=
      Text.exists_dropEndWhile (· = '0') (Number.digitsOf (Number.shortestDecimal m q).1)
    refine isNumeralChar_digitsOf (Number.shortestDecimal m q).1 c ?_
    rw [parts]
    exact List.mem_append_left dropped member

def isVisible (c : Char) : Bool :=
  32 ≤ c.toNat

theorem isVisible_of_isNumeralChar {c : Char} (numeral : isNumeralChar c = true) :
    isVisible c = true := by
  simp only [isNumeralChar, isAsciiDigit, Bool.or_eq_true, Bool.and_eq_true, decide_eq_true_eq]
    at numeral
  rcases numeral with ((((⟨least, -⟩ | rfl) | rfl) | rfl) | rfl) | rfl
  · have least' : '0'.toNat ≤ c.toNat := least
    exact decide_eq_true (Nat.le_trans (by decide) least')
  all_goals rfl

theorem isVisible_hexDigit {n : Nat} (small : n < 16) : isVisible (hexDigit n) = true := by
  revert n
  decide

theorem isVisible_escapeChar (c : Char) : ∀ d ∈ escapeChar c, isVisible d = true := by
  unfold escapeChar
  split_ifs with _ _ _ _ _ _ _ control
  any_goals exact List.all_eq_true.1 rfl
  · have high := isVisible_hexDigit (n := c.toNat / 16) (by omega)
    have low := isVisible_hexDigit (n := c.toNat % 16) (by omega)
    have letters : ∀ d ∈ ['\\', 'u', '0', '0'], isVisible d = true := List.all_eq_true.1 rfl
    exact List.forall_mem_append.2 ⟨letters,
      List.forall_mem_cons.2 ⟨high, List.forall_mem_singleton.2 low⟩⟩
  · exact List.forall_mem_singleton.2 (decide_eq_true (by omega))

theorem isVisible_quote (s : String) : ∀ c ∈ quote s, isVisible c = true := by
  refine List.forall_mem_cons.2 ⟨rfl, List.forall_mem_append.2 ⟨fun d member => ?_,
    List.forall_mem_singleton.2 rfl⟩⟩
  obtain ⟨c, -, inside⟩ := List.mem_flatMap.1 member
  exact isVisible_escapeChar c d inside

theorem isVisible_joinWith {texts : List (List Char)}
    (each : ∀ text ∈ texts, ∀ c ∈ text, isVisible c = true) :
    ∀ c ∈ joinWith [','] texts, isVisible c = true := by
  intro c member
  rcases mem_joinWith member with comma | ⟨text, isText, inside⟩
  · rw [List.mem_singleton.1 comma]
    rfl
  · exact each text isText c inside

mutual

theorem isVisible_text (v : Value) : ∀ c ∈ v.text, isVisible c = true := by
  cases v with
  | null => exact List.all_eq_true.1 rfl
  | bool b => cases b <;> exact List.all_eq_true.1 rfl
  | integer n =>
    exact fun c member => isVisible_of_isNumeralChar (isNumeralChar_integerText n c member)
  | float x =>
    cases x with
    | infinite => exact List.all_eq_true.1 rfl
    | finite negative m q =>
      exact fun c member => isVisible_of_isNumeralChar (isNumeralChar_text negative m q c member)
  | string s => exact isVisible_quote s
  | array items =>
    exact List.forall_mem_cons.2 ⟨rfl, List.forall_mem_append.2
      ⟨isVisible_joinWith (isVisible_texts items), List.forall_mem_singleton.2 rfl⟩⟩
  | object members =>
    exact List.forall_mem_cons.2 ⟨rfl, List.forall_mem_append.2
      ⟨isVisible_joinWith (isVisible_memberTexts members), List.forall_mem_singleton.2 rfl⟩⟩

theorem isVisible_texts (items : List Value) :
    ∀ text ∈ Value.texts items, ∀ c ∈ text, isVisible c = true := by
  cases items with
  | nil => exact List.forall_mem_nil _
  | cons v items => exact List.forall_mem_cons.2 ⟨isVisible_text v, isVisible_texts items⟩

theorem isVisible_memberTexts (members : List (String × Value)) :
    ∀ text ∈ Value.memberTexts members, ∀ c ∈ text, isVisible c = true := by
  cases members with
  | nil => exact List.forall_mem_nil _
  | cons m members =>
    obtain ⟨key, v⟩ := m
    exact List.forall_mem_cons.2 ⟨List.forall_mem_append.2
      ⟨isVisible_quote key, List.forall_mem_cons.2 ⟨rfl, isVisible_text v⟩⟩,
      isVisible_memberTexts members⟩

end

end ComponentCompiler.Json
