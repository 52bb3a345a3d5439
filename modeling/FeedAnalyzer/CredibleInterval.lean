import Mathlib.Algebra.Order.Archimedean.Real.Basic
import Mathlib.Tactic.Linarith
import Mathlib.Tactic.NormNum

/-!
# Credible intervals

`_beta_ppf` inverts the Beta distribution by bisection.  The bisection is right for any
function in place of the distribution: two searches run side by side until a midpoint
lies between their probabilities.
-/

namespace Credibility

variable {K : Type} [Field K] [LinearOrder K] [IsStrictOrderedRing K]

def tolerance : K := 1 / 10 ^ 12

/-- One round of the bisection. -/
def halve (F : K → K) (p : K) (b : K × K) : K × K :=
  let mid := (b.1 + b.2) / 2
  if F mid < p then (mid, b.2) else (b.1, mid)

/-- The loop of `_beta_ppf`, with the rounds that are left. -/
def bisect (F : K → K) (p : K) : Nat → K × K → K × K
  | 0, b => b
  | n + 1, b =>
    let b := halve F p b
    if b.2 - b.1 < tolerance then b else bisect F p n b

/-- The bracket at the end of the loop: `_MAX_ITERATIONS` is 200. -/
def bracket (F : K → K) (p : K) : K × K := bisect F p 200 (0, 1)

/-- `_beta_ppf`, with `F` for the Beta distribution. -/
def betaPpf (F : K → K) (p : K) : K := ((bracket F p).1 + (bracket F p).2) / 2

def betaCredibleInterval (cdf : K → K → K → K) (alpha beta : K) (confidence : K := 95 / 100) :
    Except String (K × K) :=
  if alpha ≤ 0 ∨ beta ≤ 0 then
    .error "alpha and beta must be positive to form a Beta credible interval"
  else
    let tail := (1 - confidence) / 2
    .ok (betaPpf (cdf alpha beta) tail, betaPpf (cdf alpha beta) (1 - tail))

section Bisection

variable {F : K → K} {p q lo hi c : K} {n : Nat} {b : K × K}

omit [IsStrictOrderedRing K] in
theorem bisect_induct {Q : K × K → Prop} (hstep : ∀ b, Q b → Q (halve F p b)) (hb : Q b) :
    Q (bisect F p n b) := by
  induction n generalizing b with
  | zero => exact hb
  | succ n ih =>
    rw [bisect]
    split
    · exact hstep b hb
    · exact ih (hstep b hb)

/-- A bracket within `lo` and `hi`. -/
def Within (lo hi : K) (b : K × K) : Prop := lo ≤ b.1 ∧ b.1 ≤ b.2 ∧ b.2 ≤ hi

theorem Within.halve (hb : Within lo hi b) : Within lo hi (Credibility.halve F p b) := by
  obtain ⟨hlo, hle, hhi⟩ := hb
  unfold Credibility.halve
  dsimp only
  split
  · exact ⟨by linarith, by linarith, hhi⟩
  · exact ⟨hlo, by linarith, by linarith⟩

theorem bisect_within (hb : Within lo hi b) : Within lo hi (bisect F p n b) :=
  bisect_induct (fun _ => Within.halve) hb

theorem bisect_succ_within (hb : Within lo hi (halve F p b)) :
    Within lo hi (bisect F p (n + 1) b) := by
  rw [bisect]
  split
  · exact hb
  · exact bisect_within hb

/-- **Two searches.**  With a greater probability the bracket is the same, or it lies
above. -/
theorem bisect_mono (hpq : p ≤ q) (hb : b.1 ≤ b.2) :
    bisect F p n b = bisect F q n b ∨ (bisect F p n b).2 ≤ (bisect F q n b).1 := by
  induction n generalizing b with
  | zero => exact Or.inl rfl
  | succ n ih =>
    by_cases hsame : halve F p b = halve F q b
    · have hle := (Within.halve (F := F) (p := q) ⟨le_refl b.1, hb, le_refl b.2⟩).2.1
      simp only [bisect, hsame]
      split
      · exact Or.inl rfl
      · exact ih hle
    · -- the value at the midpoint lies between the probabilities
      have hvalue : p ≤ F ((b.1 + b.2) / 2) ∧ F ((b.1 + b.2) / 2) < q := by
        grind [halve]
      have hlow : Within b.1 ((b.1 + b.2) / 2) (halve F p b) := by
        simp only [halve, not_lt.mpr hvalue.1, if_false]
        exact ⟨le_refl _, by linarith, le_refl _⟩
      have hhigh : Within ((b.1 + b.2) / 2) b.2 (halve F q b) := by
        simp only [halve, hvalue.2, if_true]
        exact ⟨le_refl _, by linarith, le_refl _⟩
      exact Or.inr (le_trans (bisect_succ_within hlow).2.2 (bisect_succ_within hhigh).1)

/-- The loop ends by its width test: each round halves the bracket. -/
theorem bisect_width (hb : b.2 - b.1 < 2 ^ n * tolerance) :
    (bisect F p n b).2 - (bisect F p n b).1 < tolerance := by
  induction n generalizing b with
  | zero => simpa [bisect] using hb
  | succ n ih =>
    have hhalf : (halve F p b).2 - (halve F p b).1 < 2 ^ n * tolerance := by
      rw [pow_succ] at hb
      unfold halve
      dsimp only
      split <;> dsimp only <;> linarith
    rw [bisect]
    split
    · assumption
    · exact ih hhalf

/-- `F` passes `p` at `c`. -/
def Crosses (F : K → K) (p c : K) : Prop :=
  ∀ x, 0 ≤ x → x ≤ 1 → (x < c → F x < p) ∧ (c < x → p ≤ F x)

theorem bracket_crosses (hcross : Crosses F p c) (hc : 0 ≤ c ∧ c ≤ 1) :
    (bracket F p).1 ≤ c ∧ c ≤ (bracket F p).2 := by
  have hstep : ∀ b, Within 0 1 b ∧ b.1 ≤ c ∧ c ≤ b.2 →
      Within 0 1 (halve F p b) ∧ (halve F p b).1 ≤ c ∧ c ≤ (halve F p b).2 := by
    rintro b ⟨hb, hlo, hhi⟩
    refine ⟨hb.halve, ?_⟩
    obtain ⟨hzero, hle, hone⟩ := hb
    have hmid := hcross ((b.1 + b.2) / 2) (by linarith) (by linarith)
    unfold halve
    dsimp only
    split
    · next hbelow => exact ⟨not_lt.mp fun hlt => absurd (hmid.2 hlt) (not_le.mpr hbelow), hhi⟩
    · next habove => exact ⟨hlo, not_lt.mp fun hlt => habove (hmid.1 hlt)⟩
  exact (bisect_induct hstep ⟨⟨le_refl _, zero_le_one, le_refl _⟩, hc⟩).2

theorem bracket_within (F : K → K) (p : K) : Within 0 1 (bracket F p) :=
  bisect_within ⟨le_refl _, zero_le_one, le_refl _⟩

theorem betaPpf_mono (F : K → K) (hpq : p ≤ q) : betaPpf F p ≤ betaPpf F q := by
  have hp := (bracket_within F p).2.1
  have hq := (bracket_within F q).2.1
  unfold betaPpf
  have hb : ((0, 1) : K × K).1 ≤ ((0, 1) : K × K).2 := zero_le_one
  rcases bisect_mono hpq hb with hsame | hapart
  · rw [bracket, bracket, hsame]
  · unfold bracket at *
    linarith

/-- The result is in the middle of its bracket. -/
theorem abs_betaPpf_sub_le (hlo : (bracket F p).1 ≤ c) (hhi : c ≤ (bracket F p).2) :
    |betaPpf F p - c| ≤ (bracket F p).2 - (bracket F p).1 := by
  unfold betaPpf
  rw [abs_le]
  constructor <;> linarith

end Bisection

theorem exists_crosses {F : ℝ → ℝ} {p x : ℝ} (hF : MonotoneOn F (Set.Icc 0 1))
    (hx : x ∈ Set.Icc 0 1) (hbelow : F x < p) : ∃ c, (0 ≤ c ∧ c ≤ 1) ∧ Crosses F p c := by
  let below := {z : ℝ | z ∈ Set.Icc 0 1 ∧ F z < p}
  have hbound : BddAbove below := ⟨1, fun z hz => hz.1.2⟩
  have hmem : x ∈ below := ⟨hx, hbelow⟩
  refine ⟨sSup below, ⟨le_trans hx.1 (le_csSup hbound hmem), csSup_le ⟨x, hmem⟩ fun z hz => hz.1.2⟩,
    fun z hzero hone => ⟨fun hlt => ?_, fun hlt => ?_⟩⟩
  · obtain ⟨u, hu, hzu⟩ := exists_lt_of_lt_csSup ⟨x, hmem⟩ hlt
    exact lt_of_le_of_lt (hF ⟨hzero, hone⟩ hu.1 (le_of_lt hzu)) hu.2
  · by_contra hnot
    exact absurd (le_csSup hbound ⟨⟨hzero, hone⟩, not_le.mp hnot⟩) (not_le.mpr hlt)

/-- **Quantiles by bisection.**  Whatever function stands for the distribution, the
quantiles lie in the unit interval in the order of their probabilities, and so do the ends
of every credible interval; where a monotone function passes `p`, the quantile is within its
bracket, narrower than the tolerance. -/
theorem betaPpf_ordered (F : ℝ → ℝ) :
    (∀ p q, p ≤ q → 0 ≤ betaPpf F p ∧ betaPpf F p ≤ betaPpf F q ∧ betaPpf F q ≤ 1) ∧
    (∀ (cdf : ℝ → ℝ → ℝ → ℝ) alpha beta lower upper,
      betaCredibleInterval cdf alpha beta = .ok (lower, upper) → lower ≤ upper) ∧
    ∀ p, MonotoneOn F (Set.Icc 0 1) → (∃ x ∈ Set.Icc 0 1, F x < p) →
      (∃ x ∈ Set.Icc 0 1, p ≤ F x) →
      (bracket F p).2 - (bracket F p).1 < tolerance ∧ ∃ c, (0 ≤ c ∧ c ≤ 1) ∧ Crosses F p c ∧
        |betaPpf F p - c| ≤ (bracket F p).2 - (bracket F p).1 := by
  refine ⟨fun p q hpq => ?_, fun cdf alpha beta lower upper hok => ?_, fun p hF hbelow _ => ?_⟩
  · obtain ⟨hzero, hle, _⟩ := bracket_within F p
    obtain ⟨_, hle', hone⟩ := bracket_within F q
    refine ⟨?_, betaPpf_mono F hpq, ?_⟩
    · unfold betaPpf
      linarith
    · unfold betaPpf
      linarith
  · unfold betaCredibleInterval at hok
    split at hok
    · cases hok
    · cases hok
      exact betaPpf_mono _ (by norm_num)
  · have hwidth : (1 : ℝ) - 0 < 2 ^ 200 * tolerance := by norm_num [tolerance]
    obtain ⟨x, hx, hlow⟩ := hbelow
    obtain ⟨c, hc, hcross⟩ := exists_crosses hF hx hlow
    obtain ⟨hlo, hhi⟩ := bracket_crosses hcross hc
    exact ⟨bisect_width hwidth, c, hc, hcross, abs_betaPpf_sub_le hlo hhi⟩

end Credibility
