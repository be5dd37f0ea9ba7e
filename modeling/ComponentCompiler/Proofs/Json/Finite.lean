import ComponentCompiler.Proofs.Json.Exact
import ComponentCompiler.Proofs.Number.Finite

namespace ComponentCompiler.Json

open Number (Binary64 IsNear isFinite_mul isNear_div isNear_ofNat limit)

theorem accumulate_lt {acc : Nat} (fits : acc < 2 ^ 64) (ds : List Nat) :
    (accumulate acc ds).1 < 2 ^ 64 := by
  induction ds generalizing acc with
  | nil => exact fits
  | cons d ds ih =>
    rw [accumulate]
    split
    next more => exact ih more
    next => exact fits

theorem pow_lt_limit {k : Nat} (small : k ≤ 308) : 10 ^ k < limit :=
  (Nat.pow_le_pow_right (by norm_num) small).trans_lt (by decide +kernel)

theorem isNear_powerOfTen {k : Nat} (small : k ≤ 308) :
    (powerOfTen k).IsFinite ∧ 1 ≤ 2 * (powerOfTen k).magnitude := by
  have near : IsNear (powerOfTen k) (10 ^ k : Nat) :=
    isNear_ofNat (Nat.cast_lt.2 (pow_lt_limit small))
  have one : (1 : ℚ) ≤ (10 ^ k : Nat) := by exact_mod_cast Nat.one_le_pow _ _ (by norm_num)
  exact ⟨near.isFinite, one.trans (near.le_magnitude one)⟩

theorem isFinite_div_powerOfTen {x : Binary64} (finite : x.IsFinite) {bound : ℚ}
    (small : x.magnitude ≤ bound) (fits : 2 * bound < limit) {k : Nat} (inRange : k ≤ 308) :
    (x.div (powerOfTen k)).IsFinite ∧ (x.div (powerOfTen k)).magnitude ≤ 4 * bound := by
  obtain ⟨finite', one⟩ := isNear_powerOfTen inRange
  have positive : 0 < (powerOfTen k).magnitude := by linarith
  have nonneg := x.magnitude_nonneg
  have ratio : x.magnitude / (powerOfTen k).magnitude ≤ 2 * bound := by
    rw [div_le_iff₀ positive]
    nlinarith
  have near := isNear_div finite finite' positive (ratio.trans_lt fits)
  exact ⟨near.isFinite, near.magnitude_le.trans (by linarith)⟩

theorem isNear_significand {n : Nat} (fits : n < 2 ^ 64) :
    (2 * (8 * 2 ^ 64) : ℚ) < limit ∧ IsNear (Binary64.ofNat n) n ∧
      (Binary64.ofNat n).magnitude ≤ 2 * 2 ^ 64 := by
  have bound : (2 * (8 * 2 ^ 64) : ℚ) < limit := by
    have below : 2 * (8 * 2 ^ 64) < limit := by decide +kernel
    exact_mod_cast below
  have small : (n : ℚ) < 2 ^ 64 := by exact_mod_cast fits
  have near : IsNear (Binary64.ofNat n) n := isNear_ofNat (by linarith)
  exact ⟨bound, near, by linarith [near.magnitude_le]⟩

theorem isFinite_scaled? {significand : Nat} (fits : significand < 2 ^ 64) {e : Int} {x : Binary64}
    (found : scaled? significand e = some x) : x.IsFinite := by
  obtain ⟨bound, near, small⟩ := isNear_significand fits
  simp only [scaled?] at found
  split at found
  next up =>
    split at found
    next inRange =>
      split at found
      next => cases found
      next finite =>
        cases found
        rw [Bool.not_eq_true] at finite
        exact isFinite_mul near.isFinite (isNear_powerOfTen (by omega)).1 finite
    next =>
      split at found
      next =>
        cases found
        exact near.isFinite
      next => cases found
  next down =>
    split at found
    next inRange =>
      cases found
      exact (isFinite_div_powerOfTen near.isFinite small (by linarith) inRange).1
    next =>
      split at found
      next inRange =>
        cases found
        obtain ⟨finite, small⟩ := isFinite_div_powerOfTen near.isFinite small (by linarith) le_rfl
        exact (isFinite_div_powerOfTen finite small (by linarith) (by omega)).1
      next =>
        cases found
        exact Number.isFinite_zero false

theorem isFinite_float? {n : Numeral} {x : Binary64} (found : n.float? = some x) : x.IsFinite := by
  simp only [Numeral.float?] at found
  obtain ⟨y, scaled, rfl⟩ := Option.map_eq_some_iff.1 found
  have fits : (accumulate (accumulate 0 n.whole).1 n.fraction).1 < 2 ^ 64 :=
    accumulate_lt (accumulate_lt (by norm_num) _) _
  have finite : y.IsFinite := by
    split at scaled
    next => exact isFinite_scaled? fits scaled
    next =>
      split at scaled
      next =>
        split at scaled
        next => cases scaled
        next =>
          cases scaled
          exact Number.isFinite_zero false
      next => exact isFinite_scaled? fits scaled
  split
  next => exact finite.negate
  next => exact finite

theorem isJson_value? {n : Numeral} {v : Value} (found : n.value? = some v) : v.IsJson := by
  have float {v : Value} (found : n.float?.map .float = some v) : v.IsJson := by
    obtain ⟨x, read, rfl⟩ := Option.map_eq_some_iff.1 found
    exact .float (isFinite_float? read)
  rw [Numeral.value?] at found
  split at found
  next =>
    split at found
    next m whole =>
      split at found
      next =>
        cases found
        exact .integer _
      next =>
        split at found
        next =>
          cases found
          exact .integer _
        next =>
          cases found
          have fits : (accumulate 0 n.whole).1 < 2 ^ 64 := accumulate_lt (by norm_num) _
          rw [whole] at fits
          exact .float (isNear_significand fits).2.1.isFinite.negate
    next => exact float found
  next => exact float found

mutual

theorem isJson_toValue? (raw : Raw) {depth : Nat} {v : Value}
    (found : raw.toValue? depth = some v) : v.IsJson := by
  cases raw with
  | null =>
    cases found
    exact .null
  | bool b =>
    cases found
    exact .bool b
  | number n => exact isJson_value? found
  | string units =>
    obtain ⟨s, -, rfl⟩ := Option.map_eq_some_iff.1 found
    exact .string s
  | array items =>
    rw [Raw.toValue?] at found
    split at found
    next => cases found
    next =>
      obtain ⟨vs, values, rfl⟩ := Option.map_eq_some_iff.1 found
      exact .array (isJson_toValues? items values)
  | object members =>
    rw [Raw.toValue?] at found
    split at found
    next => cases found
    next =>
      obtain ⟨ms, values, rfl⟩ := Option.map_eq_some_iff.1 found
      exact .object (isJson_toMembers? members (List.forall_mem_nil _) values)

theorem isJson_toValues? (raws : List Raw) {depth : Nat} {items : List Value}
    (found : Raw.toValues? depth raws = some items) : ∀ v ∈ items, v.IsJson := by
  cases raws with
  | nil =>
    cases found
    exact List.forall_mem_nil _
  | cons raw raws =>
    simp only [Raw.toValues?, Option.bind_eq_bind, Option.bind_eq_some_iff] at found
    obtain ⟨v, value, vs, values, same⟩ := found
    cases same
    exact List.forall_mem_cons.2 ⟨isJson_toValue? raw value, isJson_toValues? raws values⟩

theorem isJson_toMembers? (raws : List (List Nat × Raw)) {depth : Nat}
    {acc members : List (String × Value)} (each : ∀ m ∈ acc, m.2.IsJson)
    (found : Raw.toMembers? depth acc raws = some members) : ∀ m ∈ members, m.2.IsJson := by
  match raws with
  | [] =>
    cases found
    exact each
  | (units, raw) :: raws =>
    simp only [Raw.toMembers?, Option.bind_eq_bind, Option.bind_eq_some_iff] at found
    obtain ⟨key, -, v, value, rest⟩ := found
    refine isJson_toMembers? raws (fun m member => ?_) rest
    rcases mem_putMember member with rfl | earlier
    · exact isJson_toValue? raw value
    · exact each m earlier

end

theorem isJson_of_read? {cs : List Char} {v : Value} (read : Value.read? cs = some v) :
    v.IsJson := by
  obtain ⟨raw, -, value⟩ := Option.bind_eq_some_iff.1 read
  exact isJson_toValue? raw value

theorem isJson_of_readObject? {cs : List Char} {members : List (String × Value)}
    (read : readObject? cs = some members) : ∀ m ∈ members, m.2.IsJson := by
  rw [readObject?] at read
  split at read
  next found =>
    cases read
    cases isJson_of_read? found with
    | object each => exact each
  next => cases read

end ComponentCompiler.Json
