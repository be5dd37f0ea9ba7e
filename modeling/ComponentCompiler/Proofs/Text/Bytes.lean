import Mathlib.Data.String.Basic
import Mathlib.Tactic.SplitIfs

namespace ComponentCompiler.Text

def bytes (s : String) : List UInt8 :=
  s.toUTF8.data.toList

theorem bytes_eq_flatMap (s : String) : bytes s = s.toList.flatMap String.utf8EncodeChar := by
  rw [bytes, String.toUTF8_eq_toByteArray, ← String.utf8Encode_toList, List.utf8Encode,
    List.data_toByteArray]

section Order

variable {m n : Nat} (left : m < 256) (right : n < 256)

include left right

theorem ofNat_lt_ofNat : UInt8.ofNat m < UInt8.ofNat n ↔ m < n := by
  rw [UInt8.lt_iff_toNat_lt, UInt8.toNat_ofNat_of_lt' left, UInt8.toNat_ofNat_of_lt' right]

theorem ofNat_eq_ofNat : UInt8.ofNat m = UInt8.ofNat n ↔ m = n := by
  rw [← UInt8.toNat_inj, UInt8.toNat_ofNat_of_lt' left, UInt8.toNat_ofNat_of_lt' right]

end Order

theorem val_toNat_lt (c : Char) : c.val.toNat < 1114112 := by
  have valid := c.valid
  simp only [UInt32.isValidChar, Nat.isValidChar] at valid
  omega

theorem utf8EncodeChar_lt {c d : Char} (less : c < d) (xs ys : List UInt8) :
    String.utf8EncodeChar c ++ xs < String.utf8EncodeChar d ++ ys := by
  have codes : c.val.toNat < d.val.toNat := by
    rwa [Char.lt_def, UInt32.lt_iff_toNat_lt] at less
  have last := val_toNat_lt d
  unfold String.utf8EncodeChar
  generalize c.val.toNat = m at codes ⊢
  generalize d.val.toNat = n at codes last ⊢
  -- The bytes are the digits of a code in base 64, marked with their number.
  have digits (m n : Nat) (less : m < n) :
      m / 64 < n / 64 ∨ m / 64 = n / 64 ∧ m % 64 < n % 64 := by omega
  have places (k : Nat) : k / 4096 = k / 64 / 64 ∧ k / 262144 = k / 64 / 64 / 64 := by omega
  have units := digits m n codes
  have second := digits (m / 64) (n / 64)
  have third := digits (m / 64 / 64) (n / 64 / 64)
  clear less
  simp only [places]
  split_ifs <;> simp (disch := omega) only [List.cons_append, List.nil_append,
    List.cons_lt_cons_iff, ofNat_lt_ofNat, ofNat_eq_ofNat] <;> omega

theorem flatMap_utf8EncodeChar_lt {cs ds : List Char} (less : cs < ds) :
    cs.flatMap String.utf8EncodeChar < ds.flatMap String.utf8EncodeChar := by
  induction less with
  | @nil d ds =>
    rw [List.flatMap_cons]
    obtain ⟨b, bs, first⟩ := List.exists_cons_of_ne_nil (String.utf8EncodeChar_ne_nil (c := d))
    rw [first]
    exact List.nil_lt_cons ..
  | rel less => exact utf8EncodeChar_lt less _ _
  | @cons c cs ds _ ih =>
    rw [List.flatMap_cons, List.flatMap_cons]
    induction String.utf8EncodeChar c with
    | nil => exact ih
    | cons b bs ih => exact List.cons_lt_cons_iff.2 (.inr ⟨rfl, ih⟩)

theorem bytes_lt_bytes {s t : String} (less : s < t) : bytes s < bytes t := by
  rw [bytes_eq_flatMap, bytes_eq_flatMap]
  exact flatMap_utf8EncodeChar_lt (String.lt_iff_toList_lt.1 less)

end ComponentCompiler.Text
