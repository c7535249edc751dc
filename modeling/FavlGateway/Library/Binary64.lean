/-
  The doubles among the rationals, and rounding to them.

  `roundToDouble` is the correctly rounded result of an operation, as IEEE 754 has it: the nearest
  double, ties to even, an infinity beyond the largest.  It works on the number directly: the
  exponent of the leading bit gives the spacing of the doubles there, and the number is rounded to a
  multiple of it.

  A double is what rounding leaves alone, and what rounding gives is a double
  (`isDouble_of_round`): the multiple has at most 53 bits, and a number of 53 bits is a multiple of
  its spacing.
-/
import FavlGateway.Library.Json
import FavlGateway.Library.Time
import Mathlib.Algebra.Order.Field.Power
import Mathlib.Algebra.Order.Field.Rat
import Mathlib.Tactic.Linarith
import Mathlib.Tactic.Ring

namespace FavlGateway.Library

/-! ## Rounding -/

/-- The exponent of the leading bit. -/
def leadingExponent (q : ℚ) : Int :=
  let estimate : Int := (q.num.natAbs.log2 : Int) - (q.den.log2 : Int)
  if |q| < (2 : ℚ) ^ estimate then estimate - 1 else estimate

/-- The exponent of the spacing of the doubles around a number: 53 bits, and no less than the
    smallest double. -/
def spacingExponent (q : ℚ) : Int := max (leadingExponent q - 52) (-1074)

/-- The nearest multiple of the spacing, ties to even. -/
def roundToSpacing (q : ℚ) : ℚ :=
  let unit : ℚ := (2 : ℚ) ^ spacingExponent q
  roundHalfEven (q / unit) * unit

/-- The double nearest to a rational, ties to even. -/
def roundToDouble (q : ℚ) : Number :=
  if q = 0 then .float 0
  else
    let rounded := roundToSpacing q
    if (2 : ℚ) ^ (1024 : Int) ≤ |rounded| then .inf (q < 0)
    else if rounded = 0 ∧ q < 0 then .negZero
    else .float rounded

/-- The rational is a double. -/
def isDouble (q : ℚ) : Bool := roundToDouble q = .float q

/-- The largest double. -/
def largestDouble : ℚ := (2 ^ 53 - 1) * 2 ^ (971 : Int)

/-- The nearest finite double, as a number.  A zero is a zero, of either sign. -/
def nearestDouble (q : ℚ) : ℚ :=
  match roundToDouble q with
  | .float y => y
  | .inf true => -largestDouble
  | .inf false => largestDouble
  | _ => 0

/-- `round(x, n)` -/
def roundDigits (x : ℚ) (n : Nat) : ℚ := nearestDouble (roundHalfEven (x * 10 ^ n) / 10 ^ n)

/-- `timedelta.total_seconds()`, of a number of microseconds. -/
def totalSeconds (micros : Int) : ℚ := nearestDouble (micros / 1000000)

/-! ## The leading bit -/

section Leading

variable {q : ℚ}

theorem abs_eq_div (q : ℚ) : |q| = (q.num.natAbs : ℚ) / q.den := by
  conv_lhs => rw [← Rat.num_div_den q]
  rw [abs_div, Nat.abs_cast, Nat.cast_natAbs, Int.cast_abs]

theorem den_pos (q : ℚ) : (0 : ℚ) < q.den := by exact_mod_cast q.den_pos

/-- The quotient of two numbers has the quotient of their leading bits for its own, or half of
    it. -/
theorem abs_bounds (h : q ≠ 0) :
    (2 : ℚ) ^ ((q.num.natAbs.log2 : Int) - (q.den.log2 : Int) - 1) ≤ |q| ∧
      |q| < (2 : ℚ) ^ ((q.num.natAbs.log2 : Int) - (q.den.log2 : Int) + 1) := by
  have htwo : (2 : ℚ) ≠ 0 := by norm_num
  have hnum : q.num.natAbs ≠ 0 := by
    rw [Int.natAbs_ne_zero]
    exact Rat.num_ne_zero.mpr h
  have hbelow : ((2 : ℚ) ^ q.num.natAbs.log2) ≤ q.num.natAbs := by
    exact_mod_cast Nat.log2_self_le hnum
  have habove : (q.num.natAbs : ℚ) < 2 ^ (q.num.natAbs.log2 + 1) := by
    exact_mod_cast Nat.lt_log2_self
  have hden : ((2 : ℚ) ^ q.den.log2) ≤ q.den := by exact_mod_cast Nat.log2_self_le q.den_nz
  have hden' : (q.den : ℚ) < 2 ^ (q.den.log2 + 1) := by exact_mod_cast Nat.lt_log2_self
  rw [abs_eq_div]
  constructor
  · rw [show (q.num.natAbs.log2 : Int) - (q.den.log2 : Int) - 1 =
        (q.num.natAbs.log2 : Int) - ((q.den.log2 + 1 : Nat) : Int) by push_cast; ring,
      zpow_sub₀ htwo, zpow_natCast, zpow_natCast]
    exact div_le_div₀ (by positivity) hbelow (den_pos q) hden'.le
  · rw [show (q.num.natAbs.log2 : Int) - (q.den.log2 : Int) + 1 =
        ((q.num.natAbs.log2 + 1 : Nat) : Int) - (q.den.log2 : Int) by push_cast; ring,
      zpow_sub₀ htwo, zpow_natCast, zpow_natCast]
    exact div_lt_div₀ habove hden (by positivity) (by positivity)

theorem leadingExponent_le (h : q ≠ 0) : (2 : ℚ) ^ leadingExponent q ≤ |q| := by
  unfold leadingExponent
  dsimp only
  split
  · exact (abs_bounds h).1
  · rename_i hge
    exact not_lt.mp hge

theorem lt_leadingExponent (h : q ≠ 0) : |q| < (2 : ℚ) ^ (leadingExponent q + 1) := by
  unfold leadingExponent
  dsimp only
  split
  · rename_i hlt
    rwa [Int.sub_add_cancel]
  · exact (abs_bounds h).2

end Leading

/-! ## Numbers of 53 bits -/

/-- The number is a whole number of 53 bits, scaled by a power of two that a double can have. -/
def Representable (q : ℚ) : Prop :=
  ∃ m e : Int, |m| ≤ 2 ^ 53 ∧ -1074 ≤ e ∧ q = m * (2 : ℚ) ^ e

theorem roundHalfEven_cast (n : Int) : roundHalfEven (n : ℚ) = n := by
  simp [roundHalfEven]

/-- Rounding does not go beyond a whole number. -/
theorem abs_roundHalfEven_le {x : ℚ} {n : Int} (h : |x| < n) : |roundHalfEven x| ≤ n := by
  obtain ⟨hbelow, habove⟩ := abs_lt.mp h
  have hfloor : x.floor < n := by
    have hle : (x.floor : ℚ) ≤ x := Rat.floor_le x
    exact_mod_cast lt_of_le_of_lt hle habove
  have hfloor' : -n ≤ x.floor := by
    rw [← Int.neg_le_neg_iff, Int.neg_neg]
    have hlt : x < ((x.floor + 1 : Int) : ℚ) := Rat.lt_floor_add_one x
    have : ((-x.floor : Int) : ℚ) < n + 1 := by
      push_cast at hlt ⊢
      linarith
    have : -x.floor < n + 1 := by exact_mod_cast this
    omega
  rw [abs_le]
  unfold roundHalfEven
  dsimp only
  split
  · omega
  · split
    · omega
    · split
      · omega
      · omega

/-- What rounding gives has 53 bits. -/
theorem representable_roundToSpacing {q : ℚ} (h : q ≠ 0) : Representable (roundToSpacing q) := by
  refine ⟨roundHalfEven (q / (2 : ℚ) ^ spacingExponent q), spacingExponent q, ?_,
    le_max_right _ _, rfl⟩
  apply abs_roundHalfEven_le
  have hunit : (0 : ℚ) < 2 ^ spacingExponent q := by positivity
  rw [abs_div, abs_of_pos hunit, div_lt_iff₀ hunit]
  have hspacing : leadingExponent q + 1 ≤ 53 + spacingExponent q := by
    have := le_max_left (leadingExponent q - 52) (-1074)
    unfold spacingExponent
    omega
  calc |q| < (2 : ℚ) ^ (leadingExponent q + 1) := lt_leadingExponent h
    _ ≤ (2 : ℚ) ^ (53 + spacingExponent q) := zpow_le_zpow_right₀ (by norm_num) hspacing
    _ = ((2 ^ 53 : Int) : ℚ) * 2 ^ spacingExponent q := by
      rw [zpow_add₀ (by norm_num)]
      norm_num

/-- A number of 53 bits is a multiple of the spacing around it. -/
theorem multiple_of_spacing {q : ℚ} (h : q ≠ 0) (hrep : Representable q) :
    ∃ k : Int, q / (2 : ℚ) ^ spacingExponent q = k := by
  have htwo : (2 : ℚ) ≠ 0 := by norm_num
  obtain ⟨m, e, hm, he, hq⟩ := hrep
  rcases le_or_gt (spacingExponent q) e with hle | hlt
  · obtain ⟨d, hd⟩ := Int.le.dest hle
    refine ⟨m * 2 ^ d, ?_⟩
    rw [div_eq_iff (zpow_ne_zero _ htwo)]
    conv_lhs => rw [hq, ← hd, zpow_add₀ htwo, zpow_natCast]
    push_cast
    ring
  · -- the spacing is wider than the last bit only if the number is a power of two
    have hspacing : spacingExponent q = leadingExponent q - 52 := by
      unfold spacingExponent at hlt ⊢
      omega
    have hscale : (0 : ℚ) < 2 ^ e := by positivity
    have habs : |q| ≤ (2 : ℚ) ^ (e + 53) := by
      rw [hq, abs_mul, abs_of_pos hscale, zpow_add₀ htwo, mul_comm ((2 : ℚ) ^ e)]
      refine mul_le_mul_of_nonneg_right ?_ hscale.le
      exact_mod_cast hm
    have hpower : (2 : ℚ) ^ (e + 53) ≤ 2 ^ leadingExponent q :=
      zpow_le_zpow_right₀ (by norm_num) (by omega)
    have hexact : |q| = (2 : ℚ) ^ leadingExponent q :=
      le_antisymm (habs.trans hpower) (leadingExponent_le h)
    have hquotient : (2 : ℚ) ^ leadingExponent q / 2 ^ spacingExponent q = ((2 ^ 52 : Int) : ℚ) := by
      rw [← zpow_sub₀ htwo, hspacing, Int.sub_sub_self]
      norm_num
    rcases abs_choice q with hpos | hneg
    · exact ⟨2 ^ 52, by rw [← hquotient, ← hexact, hpos]⟩
    · refine ⟨-2 ^ 52, ?_⟩
      rw [Int.cast_neg, ← hquotient, ← hexact, hneg, neg_div, neg_neg]

/-- Rounding leaves a number of 53 bits alone. -/
theorem roundToSpacing_eq {q : ℚ} (h : q ≠ 0) (hrep : Representable q) : roundToSpacing q = q := by
  obtain ⟨k, hk⟩ := multiple_of_spacing h hrep
  unfold roundToSpacing
  dsimp only
  rw [hk, roundHalfEven_cast, ← hk, div_mul_cancel₀ _ (zpow_ne_zero _ (by norm_num))]

/-! ## Doubles -/

theorem isDouble_iff {q : ℚ} : isDouble q = true ↔ roundToDouble q = .float q := decide_eq_true_iff

/-- A number of 53 bits below the bound is a double. -/
theorem isDouble_of_representable {q : ℚ} (hrep : Representable q)
    (hbound : |q| < (2 : ℚ) ^ (1024 : Int)) : isDouble q = true := by
  rw [isDouble_iff, roundToDouble]
  split
  · rename_i hzero
    rw [hzero]
  · rename_i hne
    simp only [roundToSpacing_eq hne hrep, if_neg (not_le.mpr hbound), hne, false_and, if_false]

/-- **What rounding gives is a double.** -/
theorem isDouble_of_round {q y : ℚ} (h : roundToDouble q = .float y) : isDouble y = true := by
  unfold roundToDouble at h
  split at h
  · cases h
    decide +kernel
  · rename_i hne
    dsimp only at h
    split at h
    · cases h
    · rename_i hbound
      split at h
      · cases h
      · cases h
        exact isDouble_of_representable (representable_roundToSpacing hne) (not_le.mp hbound)

theorem abs_largestDouble_lt : |largestDouble| < (2 : ℚ) ^ (1024 : Int) := by
  have hscale : (0 : ℚ) < 2 ^ (971 : Int) := by positivity
  have hsplit : (2 : ℚ) ^ (1024 : Int) = 2 ^ 53 * 2 ^ (971 : Int) := by
    rw [show (1024 : Int) = ((53 : Nat) : Int) + 971 by rfl, zpow_add₀ (by norm_num), zpow_natCast]
  unfold largestDouble
  rw [hsplit, abs_mul, abs_of_pos hscale]
  exact mul_lt_mul_of_pos_right (by norm_num) hscale

theorem representable_largestDouble : Representable largestDouble := by
  refine ⟨2 ^ 53 - 1, 971, by norm_num, by norm_num, ?_⟩
  have hcast : ((2 ^ 53 - 1 : Int) : ℚ) = 2 ^ 53 - 1 := by norm_num
  rw [hcast, largestDouble]

theorem Representable.neg {q : ℚ} (h : Representable q) : Representable (-q) := by
  obtain ⟨m, e, hm, he, rfl⟩ := h
  exact ⟨-m, e, by rwa [abs_neg], he, by push_cast; ring⟩

/-- **The nearest double is one.** -/
theorem isDouble_nearestDouble (q : ℚ) : isDouble (nearestDouble q) = true := by
  unfold nearestDouble
  split
  · rename_i y h
    exact isDouble_of_round h
  · exact isDouble_of_representable representable_largestDouble.neg
      (by rw [abs_neg]; exact abs_largestDouble_lt)
  · exact isDouble_of_representable representable_largestDouble abs_largestDouble_lt
  · decide +kernel

-- 617 / 1000 in Python
example : nearestDouble (617 / 1000) = 694680242521899 / 1125899906842624 := by decide +kernel

end FavlGateway.Library
