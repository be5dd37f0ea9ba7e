import ComponentCompiler.Number.Binary64
import Mathlib.Algebra.Order.Field.Power
import Mathlib.Algebra.Order.Field.Rat
import Mathlib.Tactic.FieldSimp
import Mathlib.Tactic.Linarith
import Mathlib.Tactic.NormNum
import Mathlib.Tactic.Positivity
import Mathlib.Tactic.Ring

namespace ComponentCompiler.Number

structure IsNormal (m : Nat) (q : Int) : Prop where
  least : -1074 ≤ q
  bound : m < 2 ^ 53
  full : 2 ^ 52 ≤ m ∨ q = -1074

def Binary64.IsFinite : Binary64 → Prop
  | .finite _ m q => IsNormal m q ∧ q ≤ 971
  | .infinite _ => False

/-- How far the interval of a double reaches down, in units of its last place.  Below a power of two
the next double is half as far away as above it. -/
def reachDown (m : Nat) (q : Int) : ℚ :=
  if m = 2 ^ 52 ∧ -1074 < q then 1 / 4 else 1 / 2

def lowEnd (m : Nat) (q : Int) : ℚ :=
  (m - reachDown m q) * 2 ^ q

def highEnd (m : Nat) (q : Int) : ℚ :=
  (m + 1 / 2) * 2 ^ q

/-- The number rounds to `m * 2 ^ q`; half way between two doubles it rounds to the even one. -/
structure Rounds (x : ℚ) (m : Nat) (q : Int) : Prop where
  low : lowEnd m q ≤ x
  high : x ≤ highEnd m q
  even : x = lowEnd m q ∨ x = highEnd m q → m % 2 = 0

section Unique

variable {x : ℚ} {m n : Nat} {q p : Int}

theorem reachDown_le (m : Nat) (q : Int) : reachDown m q ≤ 1 / 2 := by
  rw [reachDown]
  split <;> norm_num

theorem highEnd_le_lowEnd_of_mantissa (below : m < n) (q : Int) :
    highEnd m q ≤ lowEnd n q ∧ (highEnd m q = lowEnd n q → m % 2 = 1 ∨ n % 2 = 1) := by
  have unit : (0 : ℚ) < 2 ^ q := by positivity
  have reach := reachDown_le n q
  have next : (m : ℚ) + 1 ≤ n := by exact_mod_cast below
  refine ⟨mul_le_mul_of_nonneg_right (by linarith) unit.le, fun same => ?_⟩
  have ends := mul_right_cancel₀ unit.ne' same
  have neighbours : n = m + 1 := by
    have : (n : ℚ) ≤ m + 1 := by linarith
    have : n ≤ m + 1 := by exact_mod_cast this
    omega
  omega

theorem highEnd_le_lowEnd_of_exponent (normal : IsNormal m q) (normal' : IsNormal n p)
    (below : q < p) :
    highEnd m q ≤ lowEnd n p ∧ (highEnd m q = lowEnd n p → m % 2 = 1 ∨ n % 2 = 1) := by
  have least := normal.least
  have unit : (0 : ℚ) < 2 ^ q := by positivity
  have double : (2 : ℚ) * 2 ^ q ≤ 2 ^ p := by
    rw [← zpow_one_add₀ two_ne_zero]
    exact zpow_le_zpow_right₀ (by norm_num) (by omega)
  have full : 2 ^ 52 ≤ n := normal'.full.resolve_right (by omega)
  have mantissa : (2 : ℚ) ^ 52 - 1 / 4 ≤ n - reachDown n p := by
    rw [reachDown]
    split
    next power => rw [power.1]; norm_num
    next other =>
      have above : 2 ^ 52 + 1 ≤ n := by omega
      have : (2 : ℚ) ^ 52 + 1 ≤ n := by exact_mod_cast above
      linarith
  have low : ((2 : ℚ) ^ 53 - 1 / 2) * 2 ^ q ≤ lowEnd n p :=
    calc ((2 : ℚ) ^ 53 - 1 / 2) * 2 ^ q = (2 ^ 52 - 1 / 4) * (2 * 2 ^ q) := by ring
      _ ≤ (n - reachDown n p) * 2 ^ p :=
        mul_le_mul mantissa double (by positivity) (le_trans (by norm_num) mantissa)
  have bound := normal.bound
  have last : (m : ℚ) + 1 ≤ 2 ^ 53 := by exact_mod_cast bound
  have high : highEnd m q ≤ (2 ^ 53 - 1 / 2) * 2 ^ q :=
    mul_le_mul_of_nonneg_right (by linarith) unit.le
  refine ⟨high.trans low, fun same => .inl ?_⟩
  have top := mul_right_cancel₀ unit.ne' (le_antisymm high (low.trans same.ge))
  have : (m : ℚ) + 1 = 2 ^ 53 := by linarith
  have : m + 1 = 2 ^ 53 := by exact_mod_cast this
  omega

theorem Rounds.not_below (rounds : Rounds x m q) (rounds' : Rounds x n p)
    (apart : highEnd m q ≤ lowEnd n p ∧ (highEnd m q = lowEnd n p → m % 2 = 1 ∨ n % 2 = 1)) :
    False := by
  have high : x = highEnd m q := le_antisymm rounds.high (apart.1.trans rounds'.low)
  have low : x = lowEnd n p := le_antisymm (rounds.high.trans apart.1) rounds'.low
  have even := rounds.even (.inr high)
  have even' := rounds'.even (.inl low)
  have odd := apart.2 (high.symm.trans low)
  omega

theorem Rounds.unique (normal : IsNormal m q) (normal' : IsNormal n p) (rounds : Rounds x m q)
    (rounds' : Rounds x n p) : m = n ∧ q = p := by
  rcases lt_trichotomy q p with below | rfl | above
  · exact (rounds.not_below rounds' (highEnd_le_lowEnd_of_exponent normal normal' below)).elim
  · refine ⟨?_, rfl⟩
    rcases lt_trichotomy m n with below | same | above
    · exact (rounds.not_below rounds' (highEnd_le_lowEnd_of_mantissa below q)).elim
    · exact same
    · exact (rounds'.not_below rounds (highEnd_le_lowEnd_of_mantissa above q)).elim
  · exact (rounds'.not_below rounds (highEnd_le_lowEnd_of_exponent normal' normal above)).elim

end Unique

structure IsNearest (t : ℚ) (n : Nat) : Prop where
  low : n - 1 / 2 ≤ t
  high : t ≤ n + 1 / 2
  even : t = n - 1 / 2 ∨ t = n + 1 / 2 → n % 2 = 0

theorem zpow_eq_div (base : Nat) (positive : 0 < base) (k : Int) :
    (base : ℚ) ^ k = (base ^ k.toNat : Nat) / (base ^ (-k).toNat : Nat) := by
  have nonzero : (base : ℚ) ≠ 0 := by positivity
  rcases Int.le_total 0 k with up | down
  · have none_ : (-k).toNat = 0 := by omega
    obtain ⟨n, rfl⟩ := Int.eq_ofNat_of_zero_le up
    simp [none_]
  · have none_ : k.toNat = 0 := by omega
    obtain ⟨n, same⟩ := Int.eq_ofNat_of_zero_le (Int.neg_nonneg.2 down)
    rw [none_, same, show k = -(n : Int) by omega]
    simp

open Binary64 (ofRatio quotientAt)

def roundedAt (num den : Nat) (q : Int) : Nat :=
  if (quotientAt num den q).2 then (quotientAt num den q).1 + 1 else (quotientAt num den q).1

section Quotient

variable {num den : Nat} (positive : 0 < den) (q : Int)

include positive

theorem div_zpow_eq {base : Nat} (some_ : 0 < base) : (num : ℚ) / den / base ^ q =
    (num * Nat.pow base (-q).toNat : Nat) / (den * Nat.pow base q.toNat : Nat) := by
  have nonzero : (den : ℚ) ≠ 0 := by positivity
  have base' : (base : ℚ) ≠ 0 := by positivity
  rw [zpow_eq_div base some_, Nat.cast_mul, Nat.cast_mul, Nat.pow_eq, Nat.pow_eq]
  push_cast
  field_simp

variable (num) in
theorem div_zpow_bounds {base : Nat} (some_ : 0 < base) :
    ((num * Nat.pow base (-q).toNat / (den * Nat.pow base q.toNat) : Nat) : ℚ) ≤
        num / den / base ^ q ∧
      (num : ℚ) / den / base ^ q <
        (num * Nat.pow base (-q).toNat / (den * Nat.pow base q.toNat) : Nat) + 1 := by
  have divisor : 0 < den * Nat.pow base q.toNat := Nat.mul_pos positive (Nat.pow_pos some_)
  have divisor' : (0 : ℚ) < (den * Nat.pow base q.toNat : Nat) := by exact_mod_cast divisor
  rw [div_zpow_eq positive q some_, le_div_iff₀ divisor', div_lt_iff₀ divisor']
  refine ⟨by exact_mod_cast Nat.div_mul_le_self _ _, ?_⟩
  exact_mod_cast Nat.lt_mul_of_div_lt (Nat.lt_succ_self _) divisor

theorem quotientAt_bounds : ((quotientAt num den q).1 : ℚ) ≤ num / den / 2 ^ q ∧
    (num : ℚ) / den / 2 ^ q < (quotientAt num den q).1 + 1 := by
  have bounds := div_zpow_bounds num positive q two_pos
  rwa [Nat.cast_two] at bounds

theorem isNearest_roundedAt : IsNearest ((num : ℚ) / den / 2 ^ q) (roundedAt num den q) := by
  have divisor : 0 < den * Nat.pow 2 q.toNat := Nat.mul_pos positive (Nat.pow_pos two_pos)
  rw [← Nat.cast_two, div_zpow_eq positive q two_pos, roundedAt, quotientAt]
  generalize num * Nat.pow 2 (-q).toNat = n
  generalize den * Nat.pow 2 q.toNat = d at divisor
  have divisor' : (0 : ℚ) < d := by exact_mod_cast divisor
  have parts : (n : ℚ) = d * (n / d : Nat) + (n % d : Nat) := by
    exact_mod_cast (Nat.div_add_mod n d).symm
  have cut : ((n % d : Nat) : ℚ) < d := by exact_mod_cast Nat.mod_lt n divisor
  have cut' : (0 : ℚ) ≤ (n % d : Nat) := Nat.cast_nonneg _
  generalize n / d = whole at parts
  generalize n % d = rest at parts cut cut'
  simp only [Bool.or_eq_true, Bool.and_eq_true, decide_eq_true_eq]
  have half : 2 * (rest : ℚ) = d → 2 * rest = d := fun same => by exact_mod_cast same
  split
  next up =>
    have above : (d : ℚ) ≤ 2 * rest := by
      exact_mod_cast up.elim le_of_lt fun tie => tie.1.ge
    refine ⟨?_, ?_, ?_⟩
    · rw [le_div_iff₀ divisor']; push_cast; linarith
    · rw [div_le_iff₀ divisor']; push_cast; linarith
    · rw [div_eq_iff divisor'.ne', div_eq_iff divisor'.ne']
      push_cast
      rintro (low | high)
      · have := half (by linarith)
        omega
      · linarith
  next down =>
    rw [not_or, not_lt] at down
    have below : 2 * (rest : ℚ) ≤ d := by exact_mod_cast down.1
    refine ⟨?_, ?_, ?_⟩
    · rw [le_div_iff₀ divisor']; linarith
    · rw [div_le_iff₀ divisor']; linarith
    · rw [div_eq_iff divisor'.ne', div_eq_iff divisor'.ne']
      rintro (low | high)
      · linarith
      · have := half (by linarith)
        omega

end Quotient

section Nearest

variable {x : ℚ} {n : Nat} {q : Int}

theorem IsNearest.rounds (nearest : IsNearest (x / 2 ^ q) n)
    (power : n = 2 ^ 52 → -1074 < q → (2 : ℚ) ^ 52 ≤ x / 2 ^ q) : Rounds x n q := by
  have unit : (0 : ℚ) < 2 ^ q := by positivity
  obtain ⟨low, high, even⟩ := nearest
  rw [le_div_iff₀ unit] at low
  rw [div_le_iff₀ unit] at high
  rw [div_eq_iff unit.ne', div_eq_iff unit.ne'] at even
  by_cases lower : n = 2 ^ 52 ∧ -1074 < q
  · have above := power lower.1 lower.2
    rw [le_div_iff₀ unit] at above
    have strict : lowEnd n q < x := by
      rw [lowEnd, reachDown, if_pos lower, lower.1]
      push_cast
      linarith
    exact ⟨strict.le, high, fun tie => even (.inr (tie.resolve_left strict.ne'))⟩
  · have reach : lowEnd n q = (n - 1 / 2) * 2 ^ q := by rw [lowEnd, reachDown, if_neg lower]
    exact ⟨reach.trans_le low, high, by rwa [reach]⟩

theorem IsNearest.rounds_carry (nearest : IsNearest (x / 2 ^ q) (2 ^ 53))
    (below : x / 2 ^ q < 2 ^ 53) (least : -1074 ≤ q) : Rounds x (2 ^ 52) (q + 1) := by
  have unit : (0 : ℚ) < 2 ^ q := by positivity
  have next : (2 : ℚ) ^ (q + 1) = 2 * 2 ^ q := by rw [add_comm, zpow_one_add₀ two_ne_zero]
  have low := nearest.low
  rw [le_div_iff₀ unit] at low
  rw [div_lt_iff₀ unit] at below
  push_cast at low
  refine ⟨?_, ?_, fun _ => by norm_num⟩
  · rw [lowEnd, reachDown, if_pos ⟨rfl, by omega⟩, next]
    push_cast
    linarith
  · rw [highEnd, next]
    push_cast
    linarith

end Nearest

section OfRatio

variable {num den : Nat}

def lowExponent (num den : Nat) : Int :=
  num.log2 - den.log2 - 53

theorem lowExponent_spec (some_ : num ≠ 0) (positive : 0 < den) :
    (2 : ℚ) ^ 52 ≤ num / den / 2 ^ lowExponent num den ∧
      (num : ℚ) / den / 2 ^ lowExponent num den < 2 ^ 54 := by
  have unit : (0 : ℚ) < 2 ^ lowExponent num den := by positivity
  have divisor : (0 : ℚ) < den := by exact_mod_cast positive
  have scale : (2 : ℚ) ^ lowExponent num den * 2 ^ (den.log2 + 53) = 2 ^ num.log2 := by
    rw [← zpow_natCast, ← zpow_natCast, ← zpow_add₀ two_ne_zero, lowExponent]
    congr 1
    push_cast
    ring
  have numLow : (2 : ℚ) ^ num.log2 ≤ num := by exact_mod_cast Nat.log2_self_le some_
  have numHigh : (num : ℚ) < 2 ^ (num.log2 + 1) := by exact_mod_cast Nat.lt_log2_self
  have denLow : (2 : ℚ) ^ den.log2 ≤ den := by exact_mod_cast Nat.log2_self_le positive.ne'
  have denHigh : (den : ℚ) ≤ 2 ^ (den.log2 + 1) := by exact_mod_cast Nat.lt_log2_self.le
  rw [le_div_iff₀ unit, le_div_iff₀ divisor, div_lt_iff₀ unit, div_lt_iff₀ divisor]
  constructor
  · calc (2 : ℚ) ^ 52 * 2 ^ lowExponent num den * den
        ≤ 2 ^ 52 * 2 ^ lowExponent num den * 2 ^ (den.log2 + 1) := by gcongr
      _ = 2 ^ num.log2 := by rw [← scale]; ring
      _ ≤ num := numLow
  · calc (num : ℚ) < 2 ^ (num.log2 + 1) := numHigh
      _ = 2 ^ 54 * 2 ^ lowExponent num den * 2 ^ den.log2 := by rw [pow_succ, ← scale]; ring
      _ ≤ 2 ^ 54 * 2 ^ lowExponent num den * den := by gcongr

def fullExponent (num den : Nat) : Int :=
  if (quotientAt num den (lowExponent num den)).1 < Nat.pow 2 53 then lowExponent num den
  else lowExponent num den + 1

theorem fullExponent_spec (some_ : num ≠ 0) (positive : 0 < den) :
    (2 : ℚ) ^ 52 ≤ num / den / 2 ^ fullExponent num den ∧
      (num : ℚ) / den / 2 ^ fullExponent num den < 2 ^ 53 := by
  obtain ⟨low, high⟩ := lowExponent_spec some_ positive
  obtain ⟨whole, cut⟩ := quotientAt_bounds positive (lowExponent num den)
  rw [fullExponent]
  split
  next short =>
    have below : ((quotientAt num den (lowExponent num den)).1 : ℚ) + 1 ≤ 2 ^ 53 := by
      exact_mod_cast short
    exact ⟨low, cut.trans_le below⟩
  next long =>
    have above : (2 : ℚ) ^ 53 ≤ (quotientAt num den (lowExponent num den)).1 := by
      exact_mod_cast not_lt.1 long
    have half : (num : ℚ) / den / 2 ^ (lowExponent num den + 1) =
        num / den / 2 ^ lowExponent num den / 2 := by
      rw [zpow_add_one₀ two_ne_zero, div_mul_eq_div_div]
    rw [half]
    constructor <;> linarith

def roundingExponent (num den : Nat) : Int :=
  max (fullExponent num den) (-1074)

theorem roundingExponent_spec (some_ : num ≠ 0) (positive : 0 < den) :
    (num : ℚ) / den / 2 ^ roundingExponent num den < 2 ^ 53 ∧
      ((2 : ℚ) ^ 52 ≤ num / den / 2 ^ roundingExponent num den ∨
        roundingExponent num den = -1074) := by
  obtain ⟨full, bound⟩ := fullExponent_spec some_ positive
  rcases le_total (-1074) (fullExponent num den) with normal | subnormal
  · rw [roundingExponent, max_eq_left normal]
    exact ⟨bound, .inl full⟩
  · rw [roundingExponent, max_eq_right subnormal]
    refine ⟨lt_of_le_of_lt ?_ bound, .inr rfl⟩
    gcongr
    norm_num

theorem ofRatio_eq (some_ : num ≠ 0) (negative : Bool) : ofRatio negative num den =
    Binary64.normalize negative (roundedAt num den (roundingExponent num den))
      (roundingExponent num den) := by
  rw [ofRatio, if_neg some_]
  rfl

theorem exists_rounds (some_ : num ≠ 0) (positive : 0 < den) (negative : Bool) :
    ∃ m q, IsNormal m q ∧ Rounds (num / den) m q ∧
      ofRatio negative num den = if q > 971 then .infinite negative else .finite negative m q := by
  obtain ⟨bound, full⟩ := roundingExponent_spec some_ positive
  have least : -1074 ≤ roundingExponent num den := le_max_right _ _
  have nearest : IsNearest ((num : ℚ) / den / 2 ^ roundingExponent num den)
      (roundedAt num den (roundingExponent num den)) := isNearest_roundedAt positive _
  rw [ofRatio_eq some_, Binary64.normalize]
  simp only [Nat.pow_eq]
  generalize roundingExponent num den = q at bound full least nearest
  generalize roundedAt num den q = n at nearest
  have carry : n ≤ 2 ^ 53 := by
    have near := nearest.low
    have : (n : ℚ) < 2 ^ 53 + 1 := by linarith
    have : n < 2 ^ 53 + 1 := by exact_mod_cast this
    omega
  by_cases top : n = 2 ^ 53
  · rw [top] at nearest
    refine ⟨2 ^ 52, q + 1, ⟨by omega, by norm_num, .inl le_rfl⟩, nearest.rounds_carry bound least, ?_⟩
    rw [if_pos top]
  · have full' : 2 ^ 52 ≤ n ∨ q = -1074 := full.imp_left fun above => by
      have near := nearest.high
      have : (2 : ℚ) ^ 52 < n + 1 := by linarith
      have : 2 ^ 52 < n + 1 := by exact_mod_cast this
      omega
    refine ⟨n, q, ⟨least, by omega, full'⟩, nearest.rounds fun _ apart => ?_, ?_⟩
    · exact full.resolve_right (by omega)
    · rw [if_neg top]

theorem isNormal_zero : IsNormal 0 (-1074) :=
  ⟨le_rfl, by norm_num, .inr rfl⟩

theorem isFinite_zero (negative : Bool) : (Binary64.finite negative 0 (-1074)).IsFinite :=
  ⟨isNormal_zero, by norm_num⟩

theorem rounds_zero : Rounds 0 0 (-1074) := by
  have unit : (0 : ℚ) < 2 ^ (-1074 : Int) := by positivity
  refine ⟨?_, ?_, fun _ => rfl⟩
  · rw [lowEnd, reachDown, if_neg (by norm_num)]
    exact mul_nonpos_of_nonpos_of_nonneg (by norm_num) unit.le
  · exact mul_nonneg (by norm_num) unit.le

theorem ofRatio_eq_of_rounds {m : Nat} {q : Int} (positive : 0 < den) (normal : IsNormal m q)
    (finite : q ≤ 971) (rounds : Rounds (num / den) m q) (negative : Bool) :
    ofRatio negative num den = .finite negative m q := by
  by_cases none_ : num = 0
  · rw [none_, Nat.cast_zero, zero_div] at rounds
    obtain ⟨rfl, rfl⟩ := rounds.unique normal isNormal_zero rounds_zero
    rw [ofRatio, if_pos none_]
  · obtain ⟨n, p, normal', rounds', same⟩ := exists_rounds none_ positive negative
    obtain ⟨rfl, rfl⟩ := rounds.unique normal normal' rounds'
    rw [same, if_neg (by omega)]

end OfRatio

end ComponentCompiler.Number
