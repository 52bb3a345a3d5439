import FeedAnalyzer.Binary64
import FeedAnalyzer.MarketCalendar
import FeedAnalyzer.MarketDataStore
import Mathlib.Order.WithBot

/-!
# The bounded backoff of a deferred request

A missing close defers its request by `min(base * 2**attempts, max)` seconds.  The settings
are positive floats, infinity included, and nothing bounds the attempts.  Multiplying a
float by a power of two is exact; a `timedelta` multiplies the fraction of a second out as
a float and rounds it to microseconds, and it has a largest value.
-/

namespace MarketData

open Calendar

/-- `datetime.min`, in microseconds since the epoch. -/
def firstInstant : Int := -62135596800000000

/-- `datetime.max`. -/
def lastInstant : Int := 253402300799999999

/-- `date.max`, in days since the epoch. -/
def lastDay : Int := 2932896

/-- A moment that a `datetime` can hold. -/
def datetimeOf (moment : Int) : Except MarketDataError Int :=
  if firstInstant ≤ moment ∧ moment ≤ lastInstant then .ok moment
  else .error (.overflow "date value out of range")

/-- A duration that a `timedelta` can hold. -/
def timedeltaOf (wait : Int) : Except MarketDataError Int :=
  if wait / microsPerDay ≤ 999999999 then .ok wait
  else if wait / microsPerDay < 2 ^ 31 then
    .error (.overflow s!"days={wait / microsPerDay}; must have magnitude <= 999999999")
  else .error (.overflow "Python int too large to convert to C int")

variable {e : MarketDataError}

/-- Too long a duration is not invalid data. -/
theorem isInvalid_timedeltaOf {wait : Int} (herror : timedeltaOf wait = .error e) :
    e.isInvalid = false := by
  unfold timedeltaOf at herror
  split_ifs at herror
  · cases herror
    rfl
  · cases herror
    rfl

/-- The microseconds of a float: whole seconds exactly, the rest as a product of floats. -/
def micros (seconds : ℚ) : Int :=
  ⌊seconds⌋ * 1000000 + roundHalfEven (Binary64.round (1000000 * Int.fract seconds))

/-- A tie of the float product: `timedelta(seconds=2.5e-06)` is two microseconds. -/
example : micros (Binary64.round (25 / 10000000)) = 2 := by decide +kernel

/-- `timedelta(seconds=seconds)`. -/
def timedelta : WithTop ℚ → Except MarketDataError Int
  | none => .error (.overflow "cannot convert float infinity to integer")
  | some seconds => timedeltaOf (micros seconds)

/-- `total_seconds()` of a duration. -/
def totalSeconds (wait : Int) : ℚ := Binary64.round (wait / 1000000)

/-- A longer time has no fewer microseconds. -/
theorem micros_mono {x y : ℚ} (hle : x ≤ y) : micros x ≤ micros y := by
  have hscaled : ∀ z : ℚ, 0 ≤ 1000000 * Int.fract z := fun z =>
    mul_nonneg (by norm_num) (Int.fract_nonneg z)
  unfold micros
  rcases (Int.floor_mono hle).lt_or_eq with hlt | hsame
  · -- the fraction of `x` makes one second at most
    have hmillion : Binary64.round 1000000 = 1000000 := by
      simpa using Binary64.round_eq_self (n := 1000000) (e := 0) (by norm_num) (by norm_num)
    have hx := Binary64.round_mono (hscaled x) (y := 1000000)
      (by linarith [Int.fract_lt_one x])
    have hwhole := roundHalfEven_mono (hx.trans_eq hmillion)
    have hsecond : roundHalfEven 1000000 = 1000000 := roundHalfEven_intCast 1000000
    have hy := roundHalfEven_mono (Binary64.round_nonneg (hscaled y))
    rw [roundHalfEven_zero] at hy
    omega
  · have hfract : Int.fract x ≤ Int.fract y := by
      unfold Int.fract
      rw [hsame]
      linarith
    have hround := roundHalfEven_mono
      (Binary64.round_mono (hscaled x) (mul_le_mul_of_nonneg_left hfract (by norm_num)))
    omega

structure BackoffSettings where
  retryBackoffBaseSeconds : WithTop ℚ
  retryBackoffMaxSeconds : WithTop ℚ
  base_pos : 0 < retryBackoffBaseSeconds
  max_pos : 0 < retryBackoffMaxSeconds

namespace BackoffSettings

variable (settings : BackoffSettings)

/-- `self._backoff_base * (2**attempts)`; too large a product is infinite. -/
def scaled (attempts : Nat) : WithTop ℚ :=
  match settings.retryBackoffBaseSeconds with
  | none => ⊤
  | some base => if base * 2 ^ attempts < 2 ^ 1024 then (base * 2 ^ attempts : ℚ) else ⊤

def seconds (attempts : Nat) : WithTop ℚ :=
  min (settings.scaled attempts) settings.retryBackoffMaxSeconds

/-- `2**attempts` as a float raises from `2**1024` on. -/
def backoff (attempts : Nat) : Except MarketDataError Int :=
  if attempts < 1024 then timedelta (settings.seconds attempts)
  else .error (.overflow "int too large to convert to float")

/-- `datetime.now(UTC) + self._backoff(attempts)`. -/
def nextAttempt (now : Int) (attempts : Nat) : Except MarketDataError Int := do
  let wait ← settings.backoff attempts
  if now + wait ≤ lastInstant then .ok (now + wait) else .error (.overflow "date value out of range")

/-- The next attempt exists, its delay is within the settings, and no smaller number of
attempts waits longer. -/
def Regular (now : Int) (attempts : Nat) : Prop :=
  ∃ wait, settings.nextAttempt now attempts = .ok (now + wait) ∧
    min settings.retryBackoffBaseSeconds settings.retryBackoffMaxSeconds ≤ totalSeconds wait ∧
    totalSeconds wait ≤ settings.retryBackoffMaxSeconds ∧
    ∀ fewer ≤ attempts, ∃ shorter,
      settings.nextAttempt now fewer = .ok (now + shorter) ∧ shorter ≤ wait

/-- Nor is one of the backoff. -/
theorem isInvalid_nextAttempt {now : Int} {attempts : Nat}
    (herror : settings.nextAttempt now attempts = .error e) : e.isInvalid = false := by
  unfold nextAttempt at herror
  cases hwait : settings.backoff attempts with
  | error e' =>
    rw [hwait] at herror
    cases herror
    unfold backoff at hwait
    split at hwait
    · cases hseconds : settings.seconds attempts with
      | top => rw [hseconds] at hwait; cases hwait; rfl
      | coe x => rw [hseconds] at hwait; exact isInvalid_timedeltaOf hwait
    · cases hwait
      rfl
  | ok wait =>
    rw [hwait] at herror
    simp only [bind, Except.bind] at herror
    split at herror
    · cases herror
    · cases herror
      rfl

/-- When the next attempt can be computed, and what it is. -/
theorem nextAttempt_eq_ok {now wait : Int} {attempts : Nat} :
    settings.nextAttempt now attempts = .ok (now + wait) ↔
      attempts < 1024 ∧ ∃ x : ℚ, settings.seconds attempts = x ∧ micros x = wait ∧
        micros x / microsPerDay ≤ 999999999 ∧ now + micros x ≤ lastInstant := by
  unfold nextAttempt backoff
  by_cases hfew : attempts < 1024
  · cases hseconds : settings.seconds attempts with
    | top => simp [hfew, timedelta, bind, Except.bind]
    | coe x =>
      have hdelta : timedelta x = timedeltaOf (micros x) := rfl
      by_cases hdays : micros x / microsPerDay ≤ 999999999
      · by_cases hlast : now + micros x ≤ lastInstant
        · simp [hfew, hdelta, timedeltaOf, hdays, hlast, bind, Except.bind]
        · simp [hfew, hdelta, timedeltaOf, hdays, hlast, bind, Except.bind]
      · have hover : ∃ e, timedeltaOf (micros x) = .error e := by
          unfold timedeltaOf
          rw [if_neg hdays]
          split <;> exact ⟨_, rfl⟩
        obtain ⟨e, he⟩ := hover
        simp [hfew, hdelta, he, hdays, bind, Except.bind]
  · simp [hfew, bind, Except.bind]

/-- More attempts wait no less. -/
theorem seconds_mono {fewer attempts : Nat} (hle : fewer ≤ attempts) :
    settings.seconds fewer ≤ settings.seconds attempts := by
  refine min_le_min_right _ ?_
  unfold scaled
  cases hbase : settings.retryBackoffBaseSeconds with
  | top => exact le_rfl
  | coe base =>
    have hpos : (0 : ℚ) < base := WithTop.coe_pos.mp (hbase ▸ settings.base_pos)
    have hpow : (2 : ℚ) ^ fewer ≤ 2 ^ attempts := pow_le_pow_right₀ (by norm_num) hle
    have hscaled := mul_le_mul_of_nonneg_left hpow hpos.le
    by_cases hfinite : base * 2 ^ attempts < 2 ^ 1024
    · simp only [if_pos hfinite, if_pos (hscaled.trans_lt hfinite)]
      exact WithTop.coe_le_coe.mpr hscaled
    · simp only [if_neg hfinite]
      exact le_top

/-- The default settings: two seconds, doubled up to eight. -/
def standard : BackoffSettings := ⟨(2 : ℚ), 8, by decide, by decide⟩

end BackoffSettings

end MarketData
