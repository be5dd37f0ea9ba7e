import ComponentCompiler.Proofs.Text.Bytes

namespace ComponentCompiler.Text

def encode (cs : List Char) : List UInt8 :=
  cs.flatMap String.utf8EncodeChar

def width (cs : List Char) : Nat :=
  (encode cs).length

section

variable {cs ds front mid back : List Char} {c : Char} {s : String} {i j : Nat} {b : UInt8}

theorem bytes_eq_encode (s : String) : bytes s = encode s.toList :=
  bytes_eq_flatMap s

theorem bytes_of_toList (parts : s.toList = cs) : bytes s = encode cs := by
  rw [bytes_eq_encode, parts]

theorem encode_append (cs ds : List Char) : encode (cs ++ ds) = encode cs ++ encode ds :=
  List.flatMap_append

theorem encode_concat (front : List Char) (c : Char) (cs : List Char) :
    encode (front ++ c :: cs) = encode (front ++ [c] ++ cs) := by
  rw [List.append_assoc, List.singleton_append]

theorem encode_cons (c : Char) (cs : List Char) :
    encode (c :: cs) = String.utf8EncodeChar c ++ encode cs :=
  List.flatMap_cons

theorem width_append (cs ds : List Char) : width (cs ++ ds) = width cs + width ds := by
  rw [width, encode_append, List.length_append, width, width]

theorem width_cons (c : Char) (cs : List Char) :
    width (c :: cs) = (String.utf8EncodeChar c).length + width cs := by
  rw [width, encode_cons, List.length_append, width]

theorem length_le_width (cs : List Char) : cs.length ≤ width cs := by
  induction cs with
  | nil => exact Nat.le_refl 0
  | cons c cs ih =>
    have some_ := List.length_pos_iff.2 (String.utf8EncodeChar_ne_nil (c := c))
    rw [width_cons, List.length_cons]
    omega

theorem width_eq_zero_iff : width cs = 0 ↔ cs = [] := by
  constructor
  · intro none_
    exact List.length_eq_zero_iff.1 (Nat.le_zero.1 (none_ ▸ length_le_width cs))
  · rintro rfl
    rfl

theorem width_toList (s : String) : width s.toList = s.utf8ByteSize := by
  rw [width, ← bytes_eq_encode, bytes, Array.length_toList]
  rfl

theorem length_bytes (s : String) : (bytes s).length = s.utf8ByteSize := by
  rw [bytes_eq_encode, ← width_toList, width]

theorem utf8EncodeChar_of_ascii (small : c.toNat < 128) :
    String.utf8EncodeChar c = [c.toUInt8] := by
  refine String.utf8EncodeChar_eq_singleton (Char.utf8Size_eq_one_iff.2 ?_)
  rw [UInt32.le_iff_toNat_le]
  exact Nat.le_of_lt_succ small

theorem width_of_ascii (small : c.toNat < 128) : width [c] = 1 := by
  rw [width_cons, utf8EncodeChar_of_ascii small]
  rfl

theorem toUInt8_lt (small : c.toNat < 128) : c.toUInt8 < 128 := by
  rw [UInt8.lt_iff_toNat_lt, Char.toUInt8, UInt32.toNat_toUInt8]
  exact Nat.lt_of_le_of_lt (Nat.mod_le ..) small

theorem toUInt8_inj {d : Char} (small : c.toNat < 128) (small' : d.toNat < 128) :
    c.toUInt8 = d.toUInt8 ↔ c = d := by
  rw [← UInt8.toNat_inj, Char.toUInt8, Char.toUInt8, UInt32.toNat_toUInt8, UInt32.toNat_toUInt8,
    ← Char.toNat_inj]
  change c.toNat % 256 = d.toNat % 256 ↔ _
  omega

theorem le_of_mem_utf8EncodeChar (wide : 128 ≤ c.toNat) (member : b ∈ String.utf8EncodeChar c) :
    128 ≤ b := by
  have last := val_toNat_lt c
  have marked (n : Nat) (low : 128 ≤ n) (high : n < 256) : 128 ≤ UInt8.ofNat n := by
    rw [UInt8.le_iff_toNat_le, UInt8.toNat_ofNat_of_lt' high]
    exact low
  change 128 ≤ c.val.toNat at wide
  unfold String.utf8EncodeChar at member
  generalize c.val.toNat = n at wide last member
  dsimp only at member
  split_ifs at member <;> simp only [List.mem_cons, List.not_mem_nil, or_false] at member
  · omega
  · rcases member with rfl | rfl <;> exact marked _ (by omega) (by omega)
  · rcases member with rfl | rfl | rfl <;> exact marked _ (by omega) (by omega)
  · rcases member with rfl | rfl | rfl | rfl <;> exact marked _ (by omega) (by omega)

theorem ne_of_high {d : UInt8} (high : 128 ≤ b) (small : d < 128) : b ≠ d := by
  rintro rfl
  exact absurd small (UInt8.not_lt.2 high)

theorem ne_of_wide {d : Char} (wide : 128 ≤ c.toNat) (small : d.toNat < 128) : c ≠ d := by
  rintro rfl
  exact absurd small (Nat.not_lt.2 wide)

theorem exists_of_getElem?_encode (here : (encode cs)[i]? = some b) (small : b < 128) :
    ∃ front c back, cs = front ++ c :: back ∧ i = width front ∧ c.toNat < 128 ∧ c.toUInt8 = b := by
  induction cs generalizing i with
  | nil => simp [encode] at here
  | cons c cs ih =>
    rw [encode_cons] at here
    by_cases within : i < (String.utf8EncodeChar c).length
    · rw [List.getElem?_append_left within] at here
      have ascii : c.toNat < 128 := by
        by_contra wide
        have high := le_of_mem_utf8EncodeChar (Nat.le_of_not_lt wide) (List.mem_of_getElem? here)
        exact absurd small (UInt8.not_lt.2 high)
      rw [utf8EncodeChar_of_ascii ascii] at here within
      obtain rfl : i = 0 := by simpa using within
      exact ⟨[], c, cs, rfl, rfl, ascii, by simpa using here⟩
    · rw [List.getElem?_append_right (Nat.le_of_not_lt within)] at here
      obtain ⟨front, d, back, rfl, place, ascii, same⟩ := ih here
      refine ⟨c :: front, d, back, rfl, ?_, ascii, same⟩
      rw [width_cons, ← place]
      omega

/-- A place among the bytes of a text that stands between two characters or at an end. -/
def IsBoundary (s : String) (i : Nat) : Prop :=
  String.Pos.Raw.IsValid s ⟨i⟩

instance : Decidable (IsBoundary s i) :=
  inferInstanceAs (Decidable (String.Pos.Raw.IsValid s ⟨i⟩))

theorem isBoundary_iff :
    IsBoundary s i ↔ ∃ front back, s.toList = front ++ back ∧ i = width front := by
  rw [IsBoundary, String.Pos.Raw.isValid_iff_exists_append]
  constructor
  · rintro ⟨front, back, rfl, place⟩
    refine ⟨front.toList, back.toList, String.toList_append, ?_⟩
    rw [width_toList]
    exact congrArg String.Pos.Raw.byteIdx place
  · rintro ⟨front, back, parts, rfl⟩
    refine ⟨String.ofList front, String.ofList back, ?_, ?_⟩
    · rw [← String.ofList_append, ← parts, String.ofList_toList]
    · rw [← String.toList_ofList (l := front), width_toList, String.toList_ofList]
      rfl

theorem isBoundary_width (parts : s.toList = front ++ back) : IsBoundary s (width front) :=
  isBoundary_iff.2 ⟨front, back, parts, rfl⟩

theorem isBoundary_zero (s : String) : IsBoundary s 0 :=
  isBoundary_iff.2 ⟨[], s.toList, rfl, rfl⟩

theorem isBoundary_end (s : String) : IsBoundary s s.utf8ByteSize :=
  isBoundary_iff.2 ⟨s.toList, [], (List.append_nil _).symm, (width_toList s).symm⟩

theorem IsBoundary.le (boundary : IsBoundary s i) : i ≤ s.utf8ByteSize := by
  obtain ⟨front, back, parts, rfl⟩ := isBoundary_iff.1 boundary
  rw [← width_toList, parts, width_append]
  exact Nat.le_add_right ..

theorem isBoundary_of_ascii (here : (bytes s)[i]? = some b) (small : b < 128) :
    IsBoundary s i ∧ IsBoundary s (i + 1) := by
  rw [bytes_eq_encode] at here
  obtain ⟨front, c, back, parts, rfl, ascii, -⟩ := exists_of_getElem?_encode here small
  refine ⟨isBoundary_width parts, ?_⟩
  have next : IsBoundary s (width (front ++ [c])) :=
    isBoundary_iff.2 ⟨front ++ [c], back, by simp [parts], rfl⟩
  rwa [width_append, width_of_ascii ascii] at next

def slice? (s : String) (first last : Nat) : Option String :=
  if cut : first ≤ last ∧ IsBoundary s first ∧ IsBoundary s last then
    some (s.extract ⟨⟨first⟩, cut.2.1⟩ ⟨⟨last⟩, cut.2.2⟩)
  else none

theorem slice?_isSome_iff :
    (slice? s i j).isSome = true ↔
      i ≤ j ∧ j ≤ s.utf8ByteSize ∧ IsBoundary s i ∧ IsBoundary s j := by
  rw [slice?]
  split
  · next cut => exact iff_of_true rfl ⟨cut.1, cut.2.2.le, cut.2⟩
  · next cut => exact iff_of_false Bool.false_ne_true fun inside => cut ⟨inside.1, inside.2.2⟩

theorem slice?_of_parts (parts : s.toList = front ++ mid ++ back) :
    slice? s (width front) (width (front ++ mid)) = some (String.ofList mid) := by
  have boundary : IsBoundary s (width front) :=
    isBoundary_width (parts.trans (List.append_assoc ..))
  rw [slice?, dif_pos ⟨by rw [width_append]; exact Nat.le_add_right .., boundary,
    isBoundary_width parts⟩]
  have size (cs : List Char) : width cs = (String.ofList cs).toByteArray.size := by
    rw [← String.toList_ofList (l := cs), width_toList, String.toList_ofList]
    rfl
  have whole : s.toByteArray =
      (String.ofList (front ++ mid)).toByteArray ++ (String.ofList back).toByteArray := by
    rw [← String.toByteArray_append, ← String.ofList_append, ← parts, String.ofList_toList]
  have both : (String.ofList (front ++ mid)).toByteArray =
      (String.ofList front).toByteArray ++ (String.ofList mid).toByteArray := by
    rw [← String.toByteArray_append, ← String.ofList_append]
  -- Texts are the same when their bytes are.
  refine congrArg some (String.toByteArray_inj.1 ?_)
  calc s.toByteArray.extract (width front) (width (front ++ mid))
    _ = (String.ofList (front ++ mid)).toByteArray.extract (width front)
        (width (front ++ mid)) := by
      rw [whole, size (front ++ mid), ByteArray.extract_append_size_left]
    _ = (String.ofList mid).toByteArray := by
      rw [both]
      refine ByteArray.extract_append_eq_right (size front) ?_
      rw [width_append, size, size]

theorem slice?_rest (parts : s.toList = front ++ back) :
    slice? s (width front) s.utf8ByteSize = some (String.ofList back) := by
  rw [← width_toList, parts]
  exact slice?_of_parts (parts.trans (List.append_nil _).symm)

theorem exists_parts (le : i ≤ j) (first : IsBoundary s i) (last : IsBoundary s j) :
    ∃ front mid back, s.toList = front ++ mid ++ back ∧ i = width front ∧
      j = width (front ++ mid) := by
  obtain ⟨front, rest, parts, rfl⟩ := isBoundary_iff.1 first
  obtain ⟨front', back, parts', rfl⟩ := isBoundary_iff.1 last
  have isPrefix : front <+: front' ∨ front' <+: front :=
    List.prefix_or_prefix_of_prefix (parts ▸ List.prefix_append ..)
      (parts' ▸ List.prefix_append ..)
  rcases isPrefix with ⟨mid, rfl⟩ | ⟨mid, rfl⟩
  · exact ⟨front, mid, back, parts', rfl, rfl⟩
  · rw [width_append] at le
    obtain rfl : mid = [] := width_eq_zero_iff.1 (by omega)
    exact ⟨front', [], back, by simpa using parts', by rw [List.append_nil],
      by rw [List.append_nil]⟩

theorem slice?_eq_some_iff {t : String} :
    slice? s i j = some t ↔ ∃ front back, s.toList = front ++ t.toList ++ back ∧
      i = width front ∧ j = width (front ++ t.toList) := by
  constructor
  · intro taken
    obtain ⟨le, -, first, last⟩ := slice?_isSome_iff.1 (Option.isSome_of_eq_some taken)
    obtain ⟨front, mid, back, parts, rfl, rfl⟩ := exists_parts le first last
    obtain rfl := Option.some.inj ((slice?_of_parts parts).symm.trans taken)
    exact ⟨front, back, by simpa using parts, rfl, by simp⟩
  · rintro ⟨front, back, parts, rfl, rfl⟩
    rw [slice?_of_parts parts, String.ofList_toList]

theorem getElem?_encode (front back : List Char) (k : Nat) :
    (encode (front ++ back))[width front + k]? = (encode back)[k]? := by
  rw [encode_append, width, List.getElem?_append_right (Nat.le_add_right ..),
    Nat.add_sub_cancel_left]

theorem getElem?_width_append (front : List Char) (c : Char) (back : List Char) :
    (encode (front ++ c :: back))[width front]? = (String.utf8EncodeChar c).head? := by
  have first := getElem?_encode front (c :: back) 0
  rw [Nat.add_zero] at first
  rw [first, encode_cons, ← List.head?_eq_getElem?, List.head?_append_of_ne_nil]
  exact String.utf8EncodeChar_ne_nil

theorem getElem?_width_iff {d : Char} (small : d.toNat < 128) :
    (encode (front ++ cs))[width front]? = some d.toUInt8 ↔ cs.head? = some d := by
  cases cs with
  | nil => simp [width]
  | cons c cs =>
    rw [getElem?_width_append, List.head?_cons, Option.some.injEq]
    by_cases ascii : c.toNat < 128
    · rw [utf8EncodeChar_of_ascii ascii, List.head?_cons, Option.some.injEq,
        toUInt8_inj ascii small]
    · refine iff_of_false (fun here => ?_) (fun same => ascii (same ▸ small))
      have high := le_of_mem_utf8EncodeChar (Nat.le_of_not_lt ascii) (List.mem_of_mem_head? here)
      exact absurd (toUInt8_lt small) (UInt8.not_lt.2 high)

theorem getElem?_width {c : Char} (small : c.toNat < 128) (front back : List Char) :
    (encode (front ++ c :: back))[width front]? = some c.toUInt8 :=
  (getElem?_width_iff small).2 rfl

theorem width_concat (small : c.toNat < 128) (front : List Char) :
    width (front ++ [c]) = width front + 1 := by
  rw [width_append, width_of_ascii small]

theorem width_lt (front : List Char) (c : Char) (back : List Char) :
    width front < (encode (front ++ c :: back)).length := by
  have some_ : width (c :: back) ≠ 0 := mt width_eq_zero_iff.1 (List.cons_ne_nil _ _)
  rw [← width, width_append]
  omega

theorem not_width_lt_nil (front : List Char) : ¬width front < (encode (front ++ [])).length := by
  rw [List.append_nil, width]
  exact Nat.lt_irrefl _

theorem scan_bytes {α : Type} {scan : Nat → α} {bs : List UInt8} (pre wide post : List UInt8)
    (parts : bs = pre ++ wide ++ post) (high : ∀ b ∈ wide, 128 ≤ b)
    (passes : ∀ i b, bs[i]? = some b → 128 ≤ b → scan i = scan (i + 1)) :
    scan pre.length = scan (pre ++ wide).length := by
  induction wide generalizing pre with
  | nil => rw [List.append_nil]
  | cons b wide ih =>
    obtain ⟨first, others⟩ := List.forall_mem_cons.1 high
    have here : bs[pre.length]? = some b := by simp [parts]
    have next := ih (pre ++ [b]) (by simp [parts]) others
    calc scan pre.length
      _ = scan (pre ++ [b]).length := by rw [passes _ _ here first]; simp
      _ = scan (pre ++ b :: wide).length := by rw [next]; simp

theorem scan_wide {α : Type} {scan : Nat → α} (front : List Char) (c : Char) (back : List Char)
    (big : 128 ≤ c.toNat)
    (passes : ∀ i b, (encode (front ++ c :: back))[i]? = some b → 128 ≤ b →
      scan i = scan (i + 1)) :
    scan (width front) = scan (width (front ++ [c])) ∧
      scan (width front + 1) = scan (width (front ++ [c])) := by
  obtain ⟨b, rest, code⟩ := List.exists_cons_of_ne_nil (String.utf8EncodeChar_ne_nil (c := c))
  have high : ∀ x ∈ b :: rest, 128 ≤ x := fun x member =>
    le_of_mem_utf8EncodeChar big (code ▸ member)
  have parts : encode (front ++ c :: back) = encode front ++ (b :: rest) ++ encode back := by
    rw [encode_append, encode_cons, code, List.append_assoc]
  have whole : (encode front ++ (b :: rest)).length = width (front ++ [c]) := by
    rw [width, encode_append, encode_cons, code]
    simp [encode]
  have second := scan_bytes (encode front ++ [b]) rest (encode back) (by simpa using parts)
    (List.forall_mem_cons.1 high).2 passes
  refine ⟨whole ▸ scan_bytes _ _ _ parts high passes, ?_⟩
  rw [← whole, width]
  simpa using second

end

end ComponentCompiler.Text
