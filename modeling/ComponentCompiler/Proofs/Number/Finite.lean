import ComponentCompiler.Proofs.Number.Rounding

namespace ComponentCompiler.Number

open Binary64 (ofNat ofRatio)

def Binary64.magnitude : Binary64 → ℚ
  | .finite _ m q => m * 2 ^ q
  | .infinite _ => 0

theorem Binary64.IsFinite.negate {x : Binary64} (finite : x.IsFinite) : x.negate.IsFinite := by
  cases x <;> exact finite

theorem Binary64.magnitude_nonneg (x : Binary64) : 0 ≤ x.magnitude := by
  cases x with
  | finite negative m q => exact mul_nonneg (Nat.cast_nonneg m) (by positivity)
  | infinite => exact le_rfl

@[irreducible] def limit : Nat :=
  (2 ^ 52 - 1) * 2 ^ 972

theorem limit_eq : limit = (2 ^ 52 - 1) * 2 ^ 972 := by
  unfold limit
  exact Eq.refl _

theorem cast_mul_two_pow (m n : Nat) : ((m * 2 ^ n : Nat) : ℚ) = m * 2 ^ (n : Int) := by
  rw [Nat.cast_mul, Nat.cast_pow, zpow_natCast, Nat.cast_ofNat]

theorem cast_limit : (limit : ℚ) = (2 ^ 52 - 1 : Nat) * 2 ^ ((972 : Nat) : Int) :=
  (congrArg Nat.cast limit_eq).trans (cast_mul_two_pow (2 ^ 52 - 1) 972)

section Rounds

variable {x : ℚ} {m : Nat} {q : Int}

theorem Rounds.low_half (rounds : Rounds x m q) : (m - 1 / 2) * 2 ^ q ≤ x := by
  have reach := reachDown_le m q
  have low := rounds.low
  rw [lowEnd] at low
  refine le_trans ?_ low
  gcongr

theorem Rounds.magnitude_le (rounds : Rounds x m q) (nonneg : 0 ≤ x) : m * 2 ^ q ≤ 2 * x := by
  have unit : (0 : ℚ) < 2 ^ q := by positivity
  have low := rounds.low_half
  rcases Nat.eq_zero_or_pos m with rfl | positive
  · simpa using nonneg
  · have one : (1 : ℚ) ≤ m := by exact_mod_cast positive
    nlinarith

theorem Rounds.le_magnitude (rounds : Rounds x m q) (positive : 0 < m) : x ≤ 2 * (m * 2 ^ q) := by
  have unit : (0 : ℚ) < 2 ^ q := by positivity
  have one : (1 : ℚ) ≤ m := by exact_mod_cast positive
  have high := rounds.high
  rw [highEnd] at high
  nlinarith

theorem Rounds.positive (rounds : Rounds x m q) (normal : IsNormal m q) (one : 1 ≤ x) : 0 < m := by
  rcases Nat.eq_zero_or_pos m with rfl | positive
  · have isLeast := normal.full.resolve_left (by norm_num)
    have high := rounds.high
    have unit : (2 : ℚ) ^ (-1074 : Int) ≤ 1 := zpow_le_one_of_nonpos₀ (by norm_num) (by norm_num)
    rw [isLeast, highEnd, Nat.cast_zero, zero_add] at high
    linarith
  · exact positive

theorem Rounds.exponent_le (rounds : Rounds x m q) (normal : IsNormal m q) (small : x < limit) :
    q ≤ 971 := by
  by_contra! large
  have full : 2 ^ 52 ≤ m := normal.full.resolve_right (by omega)
  have mantissa : ((2 ^ 52 - 1 : Nat) : ℚ) ≤ m - 1 / 2 := by
    have next : ((2 ^ 52 - 1 : Nat) : ℚ) + 1 ≤ m := by exact_mod_cast full
    exact le_sub_iff_add_le.2 ((add_le_add le_rfl (by norm_num)).trans next)
  have unit : (2 : ℚ) ^ ((972 : Nat) : Int) ≤ 2 ^ q :=
    zpow_le_zpow_right₀ (by norm_num) (by omega)
  have grows : ((2 ^ 52 - 1 : Nat) : ℚ) * 2 ^ ((972 : Nat) : Int) ≤ (m - 1 / 2) * 2 ^ q :=
    mul_le_mul mantissa unit (zpow_nonneg zero_le_two _) ((Nat.cast_nonneg _).trans mantissa)
  rw [cast_limit] at small
  exact absurd (grows.trans rounds.low_half) (not_le.2 small)

end Rounds

structure IsNear (x : Binary64) (t : ℚ) : Prop where
  isFinite : x.IsFinite
  magnitude_le : x.magnitude ≤ 2 * t
  le_magnitude : 1 ≤ t → t ≤ 2 * x.magnitude

section OfRatio

variable {num den : Nat} (positive : 0 < den) (negative : Bool)

include positive

theorem isFinite_ofRatio (num : Nat) (finite : (ofRatio negative num den).isInfinite = false) :
    (ofRatio negative num den).IsFinite := by
  by_cases none_ : num = 0
  · rw [ofRatio, if_pos none_]
    exact isFinite_zero negative
  · obtain ⟨m, q, normal, -, same⟩ := exists_rounds none_ positive negative
    rw [same] at finite ⊢
    split at finite
    next => cases finite
    next inRange =>
      rw [if_neg inRange]
      exact ⟨normal, not_lt.1 inRange⟩

theorem isNear_ofRatio (small : (num : ℚ) / den < limit) :
    IsNear (ofRatio negative num den) (num / den) := by
  have nonneg : (0 : ℚ) ≤ num / den := by positivity
  by_cases none_ : num = 0
  · rw [ofRatio, if_pos none_, none_, Nat.cast_zero, zero_div]
    exact ⟨isFinite_zero negative, by simp [Binary64.magnitude], fun one => absurd one (by norm_num)⟩
  · obtain ⟨m, q, normal, rounds, same⟩ := exists_rounds none_ positive negative
    have inRange := rounds.exponent_le normal small
    rw [same, if_neg (not_lt.2 inRange)]
    exact ⟨⟨normal, inRange⟩, rounds.magnitude_le nonneg,
      fun one => rounds.le_magnitude (rounds.positive normal one)⟩

end OfRatio

theorem isNear_ofNat {n : Nat} (small : (n : ℚ) < limit) : IsNear (ofNat n) n := by
  have near : IsNear (ofRatio false n 1) (n / (1 : Nat)) :=
    isNear_ofRatio one_pos false (by rwa [Nat.cast_one, div_one])
  rwa [Nat.cast_one, div_one] at near

theorem isFinite_mul {x y : Binary64} (finite : x.IsFinite) (finite' : y.IsFinite)
    (inRange : (x.mul y).isInfinite = false) : (x.mul y).IsFinite := by
  match x, y with
  | .infinite _, _ => exact finite.elim
  | _, .infinite _ => exact finite'.elim
  | .finite .., .finite .. => exact isFinite_ofRatio (Nat.pow_pos two_pos) _ _ inRange

theorem isNear_div {x y : Binary64} (finite : x.IsFinite) (finite' : y.IsFinite)
    (positive : 0 < y.magnitude) (small : x.magnitude / y.magnitude < limit) :
    IsNear (x.div y) (x.magnitude / y.magnitude) := by
  match x, y with
  | .infinite _, _ => exact finite.elim
  | _, .infinite _ => exact finite'.elim
  | .finite s m p, .finite t n q =>
    have some_ : 0 < n := by
      rcases Nat.eq_zero_or_pos n with rfl | some_
      · simp [Binary64.magnitude] at positive
      · exact some_
    have divisor : 0 < n * Nat.pow 2 (-(p - q)).toNat := Nat.mul_pos some_ (Nat.pow_pos two_pos)
    have ratio : ((m * Nat.pow 2 (p - q).toNat : Nat) : ℚ) / (n * Nat.pow 2 (-(p - q)).toNat : Nat) =
        m * 2 ^ p / (n * 2 ^ q) := by
      have power := zpow_eq_div 2 two_pos (p - q)
      rw [Nat.cast_two] at power
      rw [Nat.cast_mul, Nat.cast_mul, mul_div_mul_comm, Nat.pow_eq, Nat.pow_eq, ← power,
        zpow_sub₀ two_ne_zero, mul_div_mul_comm]
    have near := isNear_ofRatio divisor (s != t) (by rw [ratio]; exact small)
    rw [ratio] at near
    exact near

end ComponentCompiler.Number
