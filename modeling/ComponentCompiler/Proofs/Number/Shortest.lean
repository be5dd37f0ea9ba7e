import ComponentCompiler.Number.Shortest
import ComponentCompiler.Proofs.Number.Rounding

namespace ComponentCompiler.Number

section Scaled

variable {a n up den scale : Nat} (divisor : 0 < den) (scaled : 0 < scale)

include divisor scaled

theorem scaled_le_iff : a * scale ≤ n * up * den ↔ (a : ℚ) / den ≤ n * (up / scale) := by
  have divisor' : (0 : ℚ) < den := by exact_mod_cast divisor
  have scaled' : (0 : ℚ) < scale := by exact_mod_cast scaled
  rw [← mul_div_assoc, div_le_div_iff₀ divisor' scaled']
  norm_cast

theorem le_scaled_iff : n * up * den ≤ a * scale ↔ (n : ℚ) * (up / scale) ≤ a / den := by
  have divisor' : (0 : ℚ) < den := by exact_mod_cast divisor
  have scaled' : (0 : ℚ) < scale := by exact_mod_cast scaled
  rw [← mul_div_assoc, div_le_div_iff₀ scaled' divisor']
  norm_cast

end Scaled

namespace Rounding

variable {m : Nat} {q : Int}

theorem den_pos (m : Nat) (q : Int) : 0 < (ofDouble m q).den :=
  Nat.pow_pos two_pos

theorem quarter_eq (a : Nat) (m : Nat) (q : Int) :
    ((a * Nat.pow 2 (q - 2).toNat : Nat) : ℚ) / (ofDouble m q).den = a / 4 * 2 ^ q := by
  have unit := zpow_eq_div 2 two_pos (q - 2)
  have whole : (2 : ℚ) ^ q = 4 * 2 ^ (q - 2) := by
    rw [zpow_sub₀ two_ne_zero]
    norm_num
    ring
  rw [Nat.cast_two] at unit
  simp only [whole, unit, ofDouble, Nat.cast_mul, Nat.pow_eq]
  ring

theorem low_div_den (positive : 0 < m) (q : Int) :
    ((ofDouble m q).low : ℚ) / (ofDouble m q).den = lowEnd m q := by
  have below : (if m = Nat.pow 2 52 && q > -1074 then 1 else 2 : Nat) ≤ 4 * m := by
    split <;> omega
  have reach : reachDown m q = ((if m = Nat.pow 2 52 && q > -1074 then 1 else 2 : Nat) : ℚ) / 4 := by
    simp only [reachDown, Bool.and_eq_true, decide_eq_true_eq, Nat.pow_eq]
    split <;> norm_num
  rw [lowEnd, reach]
  refine (quarter_eq _ m q).trans ?_
  rw [Nat.cast_sub below]
  push_cast
  ring

theorem value_div_den (m : Nat) (q : Int) :
    ((ofDouble m q).value : ℚ) / (ofDouble m q).den = m * 2 ^ q := by
  refine (quarter_eq _ m q).trans ?_
  push_cast
  ring

theorem high_div_den (m : Nat) (q : Int) :
    ((ofDouble m q).high : ℚ) / (ofDouble m q).den = highEnd m q := by
  refine (quarter_eq _ m q).trans ?_
  rw [highEnd]
  push_cast
  ring

theorem holds_iff (positive : 0 < m) (n : Nat) (k : Int) :
    (ofDouble m q).holds n k = true ↔ Rounds (n * 10 ^ k) m q := by
  have divisor := den_pos m q
  have scaled : 0 < Nat.pow 10 (-k).toNat := Nat.pow_pos (by norm_num)
  have power : (10 : ℚ) ^ k = (Nat.pow 10 k.toNat : Nat) / (Nat.pow 10 (-k).toNat : Nat) := by
    exact_mod_cast zpow_eq_div 10 (by norm_num) k
  have closed : (ofDouble m q).closed = decide (m % 2 = 0) := rfl
  rw [holds, closed]
  by_cases even : m % 2 = 0
  · simp only [even, decide_true, if_true, Bool.and_eq_true, decide_eq_true_eq,
      scaled_le_iff divisor scaled, le_scaled_iff divisor scaled, ← power, low_div_den positive,
      high_div_den]
    exact ⟨fun ⟨low, high⟩ => ⟨low, high, fun _ => even⟩, fun rounds => ⟨rounds.low, rounds.high⟩⟩
  · simp only [even, decide_false, Bool.false_eq_true, if_false, Bool.and_eq_true,
      decide_eq_true_eq, ← not_le, scaled_le_iff divisor scaled, le_scaled_iff divisor scaled,
      ← power, low_div_den positive, high_div_den]
    refine ⟨fun ⟨low, high⟩ => ?_, fun rounds => ⟨fun low => ?_, fun high => ?_⟩⟩
    · exact ⟨le_of_not_ge low, le_of_not_ge high,
        fun tie => (tie.elim (fun same => low same.le) fun same => high same.ge).elim⟩
    · exact even (rounds.even (.inl (le_antisymm low rounds.low)))
    · exact even (rounds.even (.inr (le_antisymm rounds.high high)))

theorem holds_of_onGrid? {r : Rounding} {k : Int} {n : Nat} (found : r.onGrid? k = some n) :
    0 < n ∧ r.holds n k = true := by
  simp only [onGrid?] at found
  split at found
  next below =>
    simp only [Bool.and_eq_true, decide_eq_true_eq] at below
    split at found
    next above =>
      simp only [Bool.and_eq_true] at above
      cases found
      exact ⟨Nat.succ_pos _, above.1⟩
    next =>
      cases found
      exact below
  next =>
    split at found
    next above =>
      cases found
      exact ⟨Nat.succ_pos _, above⟩
    next => cases found

theorem isSome_onGrid? (positive : 0 < m) {k : Int} (fine : (10 : ℚ) ^ k ≤ 2 ^ q / 4) :
    ((ofDouble m q).onGrid? k).isSome = true := by
  have unit : (0 : ℚ) < 2 ^ q := by positivity
  have step : (0 : ℚ) < 10 ^ k := by positivity
  have above : (ofDouble m q).holds ((ofDouble m q).value * Nat.pow 10 (-k).toNat /
      ((ofDouble m q).den * Nat.pow 10 k.toNat) + 1) k = true := by
    have bounds := div_zpow_bounds (ofDouble m q).value (den_pos m q) k
      (show 0 < 10 by norm_num)
    rw [holds_iff positive]
    generalize (ofDouble m q).value * Nat.pow 10 (-k).toNat /
      ((ofDouble m q).den * Nat.pow 10 k.toNat) = point at bounds
    rw [value_div_den, Nat.cast_ofNat, le_div_iff₀ step, div_lt_iff₀ step] at bounds
    have low : lowEnd m q < ((point + 1 : Nat) : ℚ) * 10 ^ k := by
      have reach : 0 < reachDown m q := by
        rw [reachDown]
        split <;> norm_num
      have below : lowEnd m q < m * 2 ^ q := mul_lt_mul_of_pos_right (by linarith) unit
      push_cast
      linarith
    have high : ((point + 1 : Nat) : ℚ) * 10 ^ k < highEnd m q := by
      rw [highEnd]
      push_cast
      linarith
    exact ⟨low.le, high.le, fun tie => (tie.elim low.ne' high.ne).elim⟩
  simp only [onGrid?, above]
  split
  · split <;> rfl
  · rfl

end Rounding

/-- With `10 ^ 28` between `2 ^ 93` and `2 ^ 94`, powers of ten stay close to the powers of two whose
exponent is `100000 / 30103` times as large. -/
theorem ten_zpow_le {j l : Int} (scale : 100000 * j ≤ 30103 * l) (least : -1074 ≤ l)
    (greatest : l ≤ 1023) : (10 : ℚ) ^ j ≤ 2 ^ (l + 15) := by
  have swap (base : ℚ) (n : Nat) (i : Int) : (base ^ i) ^ n = (base ^ n) ^ i := by
    rw [← zpow_natCast, ← zpow_natCast, ← zpow_mul, ← zpow_mul, mul_comm]
  have power (n : Nat) (i : Int) : ((2 : ℚ) ^ n) ^ i = 2 ^ (n * i) := by
    rw [← zpow_natCast, ← zpow_mul]
  have inverse (base : ℚ) : base ^ j = (base ^ (-j))⁻¹ := by rw [zpow_neg, inv_inv]
  refine le_of_pow_le_pow_left₀ (n := 28) (by norm_num) (by positivity) ?_
  rw [swap, swap]
  rcases le_total 0 j with up | down
  · calc ((10 : ℚ) ^ 28) ^ j ≤ (2 ^ 94) ^ j := zpow_le_zpow_left₀ up (by norm_num) (by norm_num)
      _ ≤ (2 ^ 28) ^ (l + 15) := by
        rw [power, power]
        exact zpow_le_zpow_right₀ (by norm_num) (by omega)
  · calc ((10 : ℚ) ^ 28) ^ j = ((10 ^ 28) ^ (-j))⁻¹ := inverse _
      _ ≤ ((2 ^ 93) ^ (-j))⁻¹ :=
        inv_anti₀ (by positivity) (zpow_le_zpow_left₀ (by omega) (by norm_num) (by norm_num))
      _ = (2 ^ 93) ^ j := (inverse _).symm
      _ ≤ (2 ^ 28) ^ (l + 15) := by
        rw [power, power]
        exact zpow_le_zpow_right₀ (by norm_num) (by omega)

variable {m : Nat} {q : Int}

def topExponent (m : Nat) (q : Int) : Int :=
  ((m.log2 : Int) + q) * 30103 / 100000 + 2

theorem finest_le (positive : 0 < m) (normal : IsNormal m q) (finite : q ≤ 971) :
    (10 : ℚ) ^ (topExponent m q - 23) ≤ 2 ^ q / 4 := by
  have size : m.log2 ≤ 52 := by
    have := (Nat.log2_lt positive.ne').2 normal.bound
    omega
  have least := normal.least
  have grid := ten_zpow_le (j := ((m.log2 : Int) + q) * 30103 / 100000) (l := m.log2 + q) (by omega)
    (by omega) (by omega)
  have shift : topExponent m q - 23 = ((m.log2 : Int) + q) * 30103 / 100000 - 21 := by
    rw [topExponent]
    omega
  have unit : (2 : ℚ) ^ ((m.log2 : Int) + q + 15) ≤ 2 ^ 67 * 2 ^ q := by
    rw [← zpow_natCast, ← zpow_add₀ two_ne_zero]
    exact zpow_le_zpow_right₀ (by norm_num) (by push_cast; omega)
  have positive' : (0 : ℚ) < 2 ^ q := by positivity
  rw [shift, zpow_sub₀ (by norm_num), div_le_iff₀ (by positivity)]
  calc (10 : ℚ) ^ (((m.log2 : Int) + q) * 30103 / 100000) ≤ 2 ^ 67 * 2 ^ q := grid.trans unit
    _ ≤ 2 ^ q / 4 * 10 ^ (21 : Int) := by norm_num; linarith

theorem exists_onGrid? (positive : 0 < m) (normal : IsNormal m q) (finite : q ≤ 971) :
    ∃ n k, shortestDecimal m q = (n, k) ∧ (Rounding.ofDouble m q).onGrid? k = some n := by
  have some_ := Rounding.isSome_onGrid? positive (finest_le positive normal finite)
  rw [shortestDecimal, ← topExponent]
  cases search : (List.range 24).findSome? fun (i : Nat) =>
      ((Rounding.ofDouble m q).onGrid? (topExponent m q - i)).map fun digits =>
        (digits, topExponent m q - (i : Int)) with
  | none =>
    rw [List.findSome?_eq_none_iff] at search
    have last := search 23 (by simp)
    rw [Option.map_eq_none_iff] at last
    exact absurd last (Option.isSome_iff_ne_none.1 some_)
  | some found =>
    obtain ⟨i, -, here⟩ := List.exists_of_findSome?_eq_some search
    obtain ⟨n, onGrid, rfl⟩ := Option.map_eq_some_iff.1 here
    exact ⟨n, _, rfl, onGrid⟩

theorem rounds_shortestDecimal (positive : 0 < m) (normal : IsNormal m q) (finite : q ≤ 971) :
    0 < (shortestDecimal m q).1 ∧
      Rounds ((shortestDecimal m q).1 * 10 ^ (shortestDecimal m q).2) m q := by
  obtain ⟨n, k, found, onGrid⟩ := exists_onGrid? positive normal finite
  obtain ⟨some_, holds⟩ := Rounding.holds_of_onGrid? onGrid
  rw [found]
  exact ⟨some_, (Rounding.holds_iff positive n k).1 holds⟩

end ComponentCompiler.Number
