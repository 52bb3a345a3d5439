import Mathlib.Data.Int.Log
import Mathlib.Data.Rat.Floor
import Mathlib.Tactic.Linarith
import Mathlib.Tactic.Positivity
import Mathlib.Tactic.Ring

/-!
# Rounding to double precision

A double is a rational with 53 significant bits whose last bit is worth at least
`2 ^ (-1074)`.  Whoever can reach the largest double says so.
-/

/-- Round to the nearest integer, a tie to the even one. -/
def roundHalfEven (x : Rat) : Int :=
  if x - x.floor < 1 / 2 then x.floor
  else if 1 / 2 < x - x.floor then x.floor + 1
  else if x.floor % 2 = 0 then x.floor
  else x.floor + 1

section Integers

variable {x y : Rat}

/-- Rounding stays between the integers around `x`. -/
theorem roundHalfEven_cases (x : Rat) :
    x.floor ≤ roundHalfEven x ∧ roundHalfEven x ≤ x.floor + 1 := by
  unfold roundHalfEven
  split_ifs <;> omega

theorem roundHalfEven_mono (hle : x ≤ y) : roundHalfEven x ≤ roundHalfEven y := by
  have hx := (roundHalfEven_cases x).2
  have hy := (roundHalfEven_cases y).1
  rcases (Rat.floor_monotone hle).lt_or_eq with hlt | hsame
  · omega
  · -- the same integer part: compare the fractions
    unfold roundHalfEven
    rw [hsame]
    split_ifs <;> first | omega | (exfalso; linarith)

@[simp] theorem roundHalfEven_intCast (n : Int) : roundHalfEven n = n := by
  simp [roundHalfEven]

@[simp] theorem roundHalfEven_zero : roundHalfEven 0 = 0 := roundHalfEven_intCast 0

/-- Rounding does not pass an integer. -/
theorem roundHalfEven_mem {a b : Int} (ha : (a : Rat) ≤ x) (hb : x ≤ b) :
    a ≤ roundHalfEven x ∧ roundHalfEven x ≤ b := by
  have hlow := roundHalfEven_mono ha
  have hhigh := roundHalfEven_mono hb
  rw [roundHalfEven_intCast] at hlow hhigh
  exact ⟨hlow, hhigh⟩

end Integers

namespace Binary64

/-- The exponent of the last bit of the doubles around `x`. -/
def exponent (x : ℚ) : ℤ := max (Int.log 2 |x|) (-1022) - 52

/-- The double nearest to `x`. -/
def round (x : ℚ) : ℚ := roundHalfEven (x / 2 ^ exponent x) * 2 ^ exponent x

/-- The float `0.1`. -/
example : round (1 / 10) = 3602879701896397 / 36028797018963968 := by decide +kernel

variable {x y : ℚ}

theorem ulp_pos (x : ℚ) : (0 : ℚ) < 2 ^ exponent x := zpow_pos (by norm_num) _

theorem lt_two_zpow (x : ℚ) : |x| < 2 ^ (exponent x + 53) := by
  have hlog := Int.lt_zpow_succ_log_self (b := 2) (by norm_num) |x|
  refine hlog.trans_le (zpow_le_zpow_right₀ (by norm_num) ?_)
  unfold exponent
  omega

theorem exponent_mono (hx : 0 < x) (hle : x ≤ y) : exponent x ≤ exponent y := by
  have hlog := Int.log_mono_right (b := 2) (abs_pos.mpr hx.ne')
    (abs_le_abs_of_nonneg hx.le hle)
  unfold exponent
  omega

theorem round_of_multiple {n : ℤ} (hx : x = n * 2 ^ exponent x) : round x = x := by
  have hdiv : x / 2 ^ exponent x = n := (div_eq_iff (ulp_pos x).ne').mpr hx
  rw [round, hdiv, roundHalfEven_intCast]
  exact hx.symm

/-- A 53-bit significand is exact. -/
private theorem round_eq_self_of_lt {n e : ℤ} (hn : |n| < 2 ^ 53) (he : -1074 ≤ e) :
    round (n * 2 ^ e) = n * 2 ^ e := by
  rcases eq_or_ne n 0 with rfl | hne
  · simp [round]
  have hbit : (0 : ℚ) < 2 ^ e := zpow_pos (by norm_num) _
  have hpos : 0 < |(n : ℚ) * 2 ^ e| := abs_pos.mpr (mul_ne_zero (by exact_mod_cast hne) hbit.ne')
  have hlt : |(n : ℚ) * 2 ^ e| < ((2 : ℕ) : ℚ) ^ (53 + e) := by
    have hcast : |(n : ℚ)| < 2 ^ (53 : ℤ) := by exact_mod_cast hn
    rw [abs_mul, abs_of_pos hbit, Nat.cast_ofNat, zpow_add₀ two_ne_zero]
    exact mul_lt_mul_of_pos_right hcast hbit
  have hlog := (Int.lt_zpow_iff_log_lt (b := 2) (by norm_num) hpos).mp hlt
  have hexp : exponent (n * 2 ^ e) ≤ e := by unfold exponent; omega
  obtain ⟨k, hk⟩ := Int.le.dest hexp
  apply round_of_multiple (n := n * 2 ^ k)
  conv_lhs => rw [← hk, zpow_add₀ two_ne_zero, zpow_natCast]
  push_cast
  ring

/-- An integer of at most 53 bits, scaled, is a double. -/
theorem round_eq_self {n e : ℤ} (hn : |n| ≤ 2 ^ 53) (he : -1074 ≤ e) :
    round (n * 2 ^ e) = n * 2 ^ e := by
  rcases hn.lt_or_eq with hlt | heq
  · exact round_eq_self_of_lt hlt he
  · -- one bit too many, but the last one is 0
    obtain ⟨half, rfl⟩ : ∃ half, n = half * 2 := by
      rcases abs_eq_abs.mp (heq.trans (abs_of_nonneg (by norm_num)).symm) with h | h
      · exact ⟨2 ^ 52, by rw [h]; norm_num⟩
      · exact ⟨-2 ^ 52, by rw [h]; norm_num⟩
    have hhalf := round_eq_self_of_lt (n := half) (e := 1 + e) (by rw [abs_mul, abs_two] at heq; omega)
      (by omega)
    rw [zpow_add₀ two_ne_zero, zpow_one, ← mul_assoc] at hhalf
    exact_mod_cast hhalf

/-- The rounded multiple of the last bit still has 53 bits. -/
theorem scaled_bits (x : ℚ) : |roundHalfEven (x / 2 ^ exponent x)| ≤ 2 ^ 53 := by
  have hbound : |x / 2 ^ exponent x| < 2 ^ (53 : ℕ) := by
    rw [abs_div, abs_of_pos (ulp_pos x), div_lt_iff₀ (ulp_pos x), ← zpow_natCast,
      ← zpow_add₀ two_ne_zero, add_comm]
    exact lt_two_zpow x
  obtain ⟨hlow, hhigh⟩ := abs_lt.mp hbound
  have hmem := roundHalfEven_mem (x := x / 2 ^ exponent x) (a := -2 ^ 53) (b := 2 ^ 53)
    (by exact_mod_cast hlow.le) (by exact_mod_cast hhigh.le)
  exact abs_le.mpr hmem

theorem round_round (x : ℚ) : round (round x) = round x :=
  round_eq_self (scaled_bits x) (by unfold exponent; omega)

@[simp] theorem round_zero : round 0 = 0 := by simp [round]

@[simp] theorem round_one : round 1 = 1 := by
  have hone := round_eq_self (n := 1) (e := 0) (by norm_num) (by norm_num)
  simpa using hone

theorem round_nonpos (hx : x ≤ 0) : round x ≤ 0 := by
  have hround := roundHalfEven_mono (div_nonpos_of_nonpos_of_nonneg hx (ulp_pos x).le)
  rw [roundHalfEven_zero] at hround
  exact mul_nonpos_of_nonpos_of_nonneg (by exact_mod_cast hround) (ulp_pos x).le

theorem round_nonneg (hx : 0 ≤ x) : 0 ≤ round x := by
  have hround := roundHalfEven_mono (div_nonneg hx (ulp_pos x).le)
  rw [roundHalfEven_zero] at hround
  exact mul_nonneg (by exact_mod_cast hround) (ulp_pos x).le

/-- **Rounding is monotone.**  Between numbers with different last bits lies a
power of two, which neither rounding passes. -/
theorem round_mono (hx : 0 ≤ x) (hle : x ≤ y) : round x ≤ round y := by
  rcases hx.eq_or_lt with rfl | hpos
  · exact round_zero.trans_le (round_nonneg hle)
  rcases (exponent_mono hpos hle).lt_or_eq with hlt | hsame
  · have hlow : round x ≤ 2 ^ (exponent x + 53) := by
      have hbits : (roundHalfEven (x / 2 ^ exponent x) : ℚ) ≤ 2 ^ (53 : ℤ) := by
        exact_mod_cast (abs_le.mp (scaled_bits x)).2
      rw [add_comm, zpow_add₀ two_ne_zero]
      exact mul_le_mul_of_nonneg_right hbits (ulp_pos x).le
    have hnormal : (2 : ℚ) ^ (52 + exponent y) ≤ y := by
      have hlog := Int.zpow_log_le_self (b := 2) (by norm_num) (hpos.trans_le hle)
      have habs : |y| = y := abs_of_nonneg (hx.trans hle)
      have hexp : 52 + exponent y = Int.log 2 y := by
        unfold exponent at hlt ⊢
        rw [habs] at hlt ⊢
        omega
      rw [hexp]
      exact_mod_cast hlog
    have hhigh : (2 : ℚ) ^ (52 + exponent y) ≤ round y := by
      rw [zpow_add₀ two_ne_zero] at hnormal ⊢
      have hbits := roundHalfEven_mono ((le_div_iff₀ (ulp_pos y)).mpr hnormal)
      have hpow : roundHalfEven (2 ^ (52 : ℤ)) = 2 ^ 52 := roundHalfEven_intCast (2 ^ 52)
      rw [hpow] at hbits
      exact mul_le_mul_of_nonneg_right (by exact_mod_cast hbits) (ulp_pos y).le
    refine hlow.trans (le_trans (zpow_le_zpow_right₀ (by norm_num) ?_) hhigh)
    omega
  · unfold round
    rw [hsame]
    have hround := roundHalfEven_mono (div_le_div_of_nonneg_right hle (ulp_pos y).le)
    exact mul_le_mul_of_nonneg_right (by exact_mod_cast hround) (ulp_pos y).le

end Binary64
