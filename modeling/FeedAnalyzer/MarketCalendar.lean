import FeedAnalyzer.Messages

/-!
# Market sessions

A trading session is a weekday, complete at its market's closing wall-clock.  A
prediction's baseline is the latest session that is complete at its decision, and its
settlement is the one after that.

A `Zone` converts between UTC and a wall-clock.  `Zone.Regular` is what the calendar
needs of it: local dates never run backwards, and a closing time falls on its own date.
What the loops compute where a clock skips a closing time is the subject of
`resolved_sessions_iff`.  Python's dates end at 9999-12-31; the days here go on.
-/

namespace Calendar

open Feed

/-- The wall-clock of a UTC instant, and the UTC instant of a wall-clock, in microseconds.
-/
structure Zone where
  toLocal : Int → Int
  ofLocal : Int → Int

/-- `ZoneInfo(name)`; `none` is an unknown name. -/
abbrev TimeZones : Type := String → Option Zone

inductive CalendarError where
  | unsupportedTimezone (message : String)
  deriving DecidableEq

def microsPerMinute : Int := 60000000

def microsPerDay : Int := 86400000000

/-- A market on UTC, and the database that knows only this one. -/
def utc : Zone where
  toLocal := id
  ofLocal := id

def utcOnly : TimeZones := fun name => if name = "UTC" then some utc else none

/-- `_zone`: reject an unknown name rather than mishandle it. -/
def zone (tz : TimeZones) (timezoneName : String) : Except CalendarError Zone :=
  match tz timezoneName with
  | some z => .ok z
  | none => .error (.unsupportedTimezone s!"unknown timezone: '{timezoneName}'")

/-- Monday is 0; day 0 of the epoch was a Thursday. -/
def weekday (day : Int) : Int := (day + 3) % 7

def isTradingDay (day : Int) : Bool := weekday day < 5

/-- `while not is_trading_day(cursor): cursor -= 1`; two turns are enough
(`walkBack_isTradingDay`). -/
def walkBack : Nat → Int → Int
  | 0, cursor => cursor
  | fuel+1, cursor => if isTradingDay cursor then cursor else walkBack fuel (cursor - 1)

/-- `while not is_trading_day(cursor): cursor += 1`. -/
def walkForward : Nat → Int → Int
  | 0, cursor => cursor
  | fuel+1, cursor => if isTradingDay cursor then cursor else walkForward fuel (cursor + 1)

/-- The trading session strictly before `day`. -/
def previousSession (day : Int) : Int := walkBack 2 (day - 1)

/-- The trading session strictly after `day`. -/
def nextSession (day : Int) : Int := walkForward 2 (day + 1)

namespace Zone

variable (z : Zone)

/-- The calendar date an instant falls on in the market's own zone. -/
def localDateIn (moment : Int) : Int := z.toLocal moment / microsPerDay

/-- The UTC instant at which a local session is complete. -/
def sessionCompletedAt (session : Int) (hour minute : Nat) : Int :=
  z.ofLocal (session * microsPerDay + (hour * 60 + minute : Nat) * microsPerMinute)

def isSessionComplete (session : Int) (now : Int) (hour minute : Nat) : Bool :=
  z.sessionCompletedAt session hour minute ≤ now

/-- The most recent trading session already complete at the decision. -/
def baselineSession (decisionAt : Int) (hour minute : Nat) : Int :=
  let candidate := walkBack 2 (z.localDateIn decisionAt)
  if z.isSessionComplete candidate decisionAt hour minute then candidate
  else previousSession candidate

end Zone

/-- `(baseline_session, settlement_session)` without look-ahead. -/
def resolveBaselineSettlement (tz : TimeZones) (decisionAt : Int)
    (timezoneName : String) (hour minute : Nat) : Except CalendarError (Int × Int) := do
  let z ← zone tz timezoneName
  let baseline := z.baselineSession decisionAt hour minute
  pure (baseline, nextSession baseline)

/-- What resolving the sessions returns, once the zone is known. -/
theorem resolveBaselineSettlement_of_zone {tz : TimeZones} {name : String} {z : Zone}
    (hz : tz name = some z) (decisionAt : Int) (hour minute : Nat) :
    resolveBaselineSettlement tz decisionAt name hour minute =
      .ok (z.baselineSession decisionAt hour minute,
        nextSession (z.baselineSession decisionAt hour minute)) := by
  simp only [resolveBaselineSettlement, zone, hz]
  rfl

variable {day : Int}

theorem isTradingDay_iff : isTradingDay day ↔ weekday day < 5 :=
  decide_eq_true_iff

/-- Walking back from a day that is `fuel` days past a Friday at most ends on
a session, and skips none. -/
theorem walkBack_spec (fuel : Nat) (day : Int) (hfuel : weekday day < 5 + fuel) :
    isTradingDay (walkBack fuel day) ∧ walkBack fuel day ≤ day ∧
      ∀ s, walkBack fuel day < s → s ≤ day → isTradingDay s = false := by
  induction fuel generalizing day with
  | zero =>
    refine ⟨isTradingDay_iff.mpr (by simpa [walkBack] using hfuel), Int.le_refl _, ?_⟩
    intro s hlt hle
    exact absurd hlt (Int.not_lt.mpr hle)
  | succ fuel ih =>
    by_cases htrading : isTradingDay day
    · simp only [walkBack, htrading, if_true]
      exact ⟨trivial, Int.le_refl _, fun s hlt hle => absurd hlt (Int.not_lt.mpr hle)⟩
    · have hweekend : ¬ weekday day < 5 := fun hlt => htrading (isTradingDay_iff.mpr hlt)
      have hprev : weekday (day - 1) < 5 + fuel := by
        unfold weekday at *
        omega
      obtain ⟨hsession, hle, hskip⟩ := ih (day - 1) hprev
      simp only [walkBack, htrading, if_false, Bool.false_eq_true]
      refine ⟨hsession, by omega, ?_⟩
      intro s hlt hs
      rcases Int.lt_or_le (day - 1) s with hlast | hearlier
      · have hday : s = day := by omega
        simpa [hday] using htrading
      · exact hskip s hlt hearlier

/-- The first trading day from `day` on. -/
theorem walkForward_spec (fuel : Nat) (day : Int)
    (hfuel : weekday day < 5 ∨ 7 ≤ weekday day + fuel) :
    isTradingDay (walkForward fuel day) ∧ day ≤ walkForward fuel day ∧
      ∀ s, day ≤ s → s < walkForward fuel day → isTradingDay s = false := by
  induction fuel generalizing day with
  | zero =>
    have htrading : weekday day < 5 := by
      unfold weekday at *
      omega
    refine ⟨isTradingDay_iff.mpr htrading, Int.le_refl _, ?_⟩
    intro s hle hlt
    exact absurd hlt (Int.not_lt.mpr hle)
  | succ fuel ih =>
    by_cases htrading : isTradingDay day
    · simp only [walkForward, htrading, if_true]
      exact ⟨trivial, Int.le_refl _, fun s hle hlt => absurd hlt (Int.not_lt.mpr hle)⟩
    · have hweekend : ¬ weekday day < 5 := fun hlt => htrading (isTradingDay_iff.mpr hlt)
      have hnext : weekday (day + 1) < 5 ∨ 7 ≤ weekday (day + 1) + fuel := by
        unfold weekday at *
        omega
      obtain ⟨hsession, hle, hskip⟩ := ih (day + 1) hnext
      simp only [walkForward, htrading, if_false, Bool.false_eq_true]
      refine ⟨hsession, by omega, ?_⟩
      intro s hs hlt
      rcases Int.lt_or_le s (day + 1) with hfirst | hlater
      · have hday : s = day := by omega
        simpa [hday] using htrading
      · exact hskip s hlater hlt

/-- The loop that looks for the last session on or before a day ends there. -/
theorem walkBack_two (day : Int) : isTradingDay (walkBack 2 day) ∧ walkBack 2 day ≤ day ∧
      ∀ s, walkBack 2 day < s → s ≤ day → isTradingDay s = false :=
  walkBack_spec 2 day (by unfold weekday; omega)

/-- `previous_session` returns the last session before a day. -/
theorem previousSession_spec (day : Int) :
    isTradingDay (previousSession day) ∧ previousSession day < day ∧
      ∀ s, previousSession day < s → s < day → isTradingDay s = false := by
  obtain ⟨hsession, hle, hskip⟩ := walkBack_two (day - 1)
  exact ⟨hsession, by unfold previousSession; omega, fun s hlt hs => hskip s hlt (by omega)⟩

/-- `next_session` returns the first session after a day. -/
theorem nextSession_spec (day : Int) :
    isTradingDay (nextSession day) ∧ day < nextSession day ∧
      ∀ s, day < s → s < nextSession day → isTradingDay s = false := by
  obtain ⟨hsession, hle, hskip⟩ := walkForward_spec 2 (day + 1) (by unfold weekday; omega)
  exact ⟨hsession, by unfold nextSession; omega, fun s hs hlt => hskip s (by omega) hlt⟩

theorem nextSession_mono {day' : Int} (hle : day ≤ day') : nextSession day ≤ nextSession day' := by
  obtain ⟨hsession, hlt, _⟩ := nextSession_spec day'
  obtain ⟨_, _, hskip⟩ := nextSession_spec day
  apply Int.not_lt.mp
  intro hbefore
  have hnot := hskip (nextSession day') (by omega) hbefore
  rw [hsession] at hnot
  cases hnot

def Zone.lastSession (z : Zone) (t : Int) : Int := walkBack 2 (z.localDateIn t)

/-- The latest complete session, and the one after it, which is not complete. -/
structure Zone.SessionsAround (z : Zone) (hour minute : Nat) (t baseline settlement : Int) :
    Prop where
  baseline_trades : isTradingDay baseline = true
  baseline_complete : z.isSessionComplete baseline t hour minute = true
  baseline_latest : ∀ s, isTradingDay s = true → z.isSessionComplete s t hour minute = true →
    s ≤ baseline
  settlement_trades : isTradingDay settlement = true
  settlement_after : baseline < settlement
  settlement_first : ∀ s, baseline < s → s < settlement → isTradingDay s = false
  settlement_incomplete : z.isSessionComplete settlement t hour minute = false

section Around

variable {z : Zone} {hour minute : Nat} {t : Int}

/-- Once the baseline is complete and none complete is later, its successor is
the settlement. -/
theorem Zone.SessionsAround.of_latest {baseline : Int} (htrades : isTradingDay baseline)
    (hcomplete : z.isSessionComplete baseline t hour minute)
    (hlatest : ∀ s, isTradingDay s → z.isSessionComplete s t hour minute →
      s ≤ baseline) : z.SessionsAround hour minute t baseline (nextSession baseline) := by
  obtain ⟨hsession, hafter, hskip⟩ := nextSession_spec baseline
  have hnot : z.isSessionComplete (nextSession baseline) t hour minute = false := by
    apply Bool.eq_false_iff.mpr
    intro hdone
    have hle := hlatest _ hsession hdone
    omega
  exact ⟨htrades, hcomplete, hlatest, hsession, hafter, hskip, hnot⟩

/-- Where no session of a later date is complete, the two loops find the
sessions around the decision exactly when one of the last two sessions is
complete. -/
theorem sessionsAround_iff
    (hpast : ∀ s, z.isSessionComplete s t hour minute → s ≤ z.localDateIn t) :
    z.SessionsAround hour minute t (z.baselineSession t hour minute)
        (nextSession (z.baselineSession t hour minute)) ↔
      z.isSessionComplete (z.lastSession t) t hour minute ∨
        z.isSessionComplete (previousSession (z.lastSession t)) t hour minute := by
  obtain ⟨hsession, _, hskip⟩ := walkBack_two (z.localDateIn t)
  have hlast : ∀ s, isTradingDay s → z.isSessionComplete s t hour minute →
      s ≤ z.lastSession t := by
    intro s hs hcomplete
    apply Int.not_lt.mp
    intro hlt
    have hnot := hskip s hlt (hpast s hcomplete)
    rw [hs] at hnot
    cases hnot
  by_cases hdone : z.isSessionComplete (z.lastSession t) t hour minute
  · have hbase : z.baselineSession t hour minute = z.lastSession t := if_pos hdone
    rw [hbase]
    exact ⟨fun _ => Or.inl hdone, fun _ => .of_latest hsession hdone hlast⟩
  · have hbase : z.baselineSession t hour minute = previousSession (z.lastSession t) :=
      if_neg hdone
    obtain ⟨hprev, _, hbetween⟩ := previousSession_spec (z.lastSession t)
    rw [hbase]
    constructor
    · intro haround
      exact Or.inr haround.baseline_complete
    · intro hcomplete
      refine .of_latest hprev (hcomplete.resolve_left hdone) ?_
      intro s hs hs_complete
      have hs_le := hlast s hs hs_complete
      have hs_ne : s ≠ z.lastSession t := by
        intro hs_eq
        exact hdone (hs_eq ▸ hs_complete)
      apply Int.not_lt.mp
      intro hafter
      have hnot := hbetween s hafter (by omega)
      rw [hs] at hnot
      cases hnot

end Around

/-- Local dates never run backwards, and each session closes on its own date. -/
structure Zone.Regular (z : Zone) (hour minute : Nat) : Prop where
  localDate_mono : ∀ {t t' : Int}, t ≤ t' → z.localDateIn t ≤ z.localDateIn t'
  closes_on_date : ∀ s : Int, z.localDateIn (z.sessionCompletedAt s hour minute) = s

variable {s t : Int}

section Baseline

variable {z : Zone} {hour minute : Nat}

section

variable (hz : z.Regular hour minute)

include hz

theorem Zone.Regular.session_le_of_complete (hcomplete : z.sessionCompletedAt s hour minute ≤ t) :
    s ≤ z.localDateIn t := by
  have hmono := hz.localDate_mono hcomplete
  rwa [hz.closes_on_date] at hmono

theorem Zone.Regular.complete_of_lt (hpast : s < z.localDateIn t) :
    z.sessionCompletedAt s hour minute ≤ t := by
  rcases Int.le_total (z.sessionCompletedAt s hour minute) t with hle | hle
  · exact hle
  · have hmono := hz.localDate_mono hle
    rw [hz.closes_on_date] at hmono
    omega

theorem Zone.Regular.sessionsAround (t : Int) :
    z.SessionsAround hour minute t (z.baselineSession t hour minute)
      (nextSession (z.baselineSession t hour minute)) := by
  have hpast : ∀ s, z.isSessionComplete s t hour minute → s ≤ z.localDateIn t :=
    fun s hcomplete => hz.session_le_of_complete (of_decide_eq_true hcomplete)
  have hlast : z.lastSession t ≤ z.localDateIn t := (walkBack_two (z.localDateIn t)).2.1
  have hprev : previousSession (z.lastSession t) < z.lastSession t :=
    (previousSession_spec _).2.1
  exact (sessionsAround_iff hpast).mpr
    (Or.inr (decide_eq_true (hz.complete_of_lt (Int.lt_of_lt_of_le hprev hlast))))

/-- **The baseline is the latest complete session.** -/
theorem baseline_isLatest (t : Int) :
    isTradingDay (z.baselineSession t hour minute) ∧
      z.sessionCompletedAt (z.baselineSession t hour minute) hour minute ≤ t ∧
      ∀ s, isTradingDay s → z.sessionCompletedAt s hour minute ≤ t →
        s ≤ z.baselineSession t hour minute := by
  have haround := hz.sessionsAround t
  exact ⟨haround.baseline_trades, of_decide_eq_true haround.baseline_complete,
    fun s hs hcomplete => haround.baseline_latest s hs (decide_eq_true hcomplete)⟩

end

/-- Some trading session becomes complete after `t` and by `t'`. -/
def SessionCompletesIn (z : Zone) (hour minute : Nat) (t t' : Int) : Prop :=
  ∃ s, isTradingDay s = true ∧ t < z.sessionCompletedAt s hour minute ∧
    z.sessionCompletedAt s hour minute ≤ t'

variable {t' : Int}

/-- Same baseline: no session ended between. -/
theorem baseline_eq_iff_of_le (hz : z.Regular hour minute) (hle : t ≤ t') :
    z.baselineSession t hour minute = z.baselineSession t' hour minute ↔
      ¬ SessionCompletesIn z hour minute t t' := by
  obtain ⟨hday, hdone, hlatest⟩ := baseline_isLatest hz t
  obtain ⟨hday', hdone', hlatest'⟩ := baseline_isLatest hz t'
  constructor
  · rintro hsame ⟨s, hs, hafter, hby⟩
    have hs_le := hlatest' s hs hby
    rw [← hsame] at hs_le
    -- `s` is at most a complete session, so its date is past or it is that session
    rcases Int.lt_or_eq_of_le hs_le with hlt | heq
    · have hpast := hz.complete_of_lt (Int.lt_of_lt_of_le hlt (hz.session_le_of_complete hdone))
      omega
    · rw [heq] at hafter
      omega
  · intro hnone
    have hle' := hlatest' _ hday (Int.le_trans hdone hle)
    have hge : z.baselineSession t' hour minute ≤ z.baselineSession t hour minute := by
      apply hlatest _ hday'
      apply Int.not_lt.mp
      intro hafter
      exact hnone ⟨_, hday', hafter, hdone'⟩
    omega

theorem baseline_mono (hz : z.Regular hour minute) (hle : t ≤ t') :
    z.baselineSession t hour minute ≤ z.baselineSession t' hour minute := by
  obtain ⟨hday, hdone, _⟩ := baseline_isLatest hz t
  exact (baseline_isLatest hz t').2.2 _ hday (Int.le_trans hdone hle)

end Baseline

theorem utc_regular {hour minute : Nat} (hhour : hour < 24) (hminute : minute < 60) :
    utc.Regular hour minute where
  localDate_mono hle := Int.ediv_le_ediv (by decide) hle
  closes_on_date s := by
    simp only [Zone.localDateIn, Zone.sessionCompletedAt, utc, id, microsPerDay, microsPerMinute]
    omega

/-- A local clock that is monotone in UTC.  Converting back is exact for the wall-clocks
that occur; a skipped one lies after every earlier wall-clock. -/
structure Zone.Forward (z : Zone) : Prop where
  toLocal_mono : ∀ {t t' : Int}, t ≤ t' → z.toLocal t ≤ z.toLocal t'
  ofLocal_exact : ∀ t : Int, z.toLocal (z.ofLocal (z.toLocal t)) = z.toLocal t
  ofLocal_after : ∀ {t w : Int}, z.toLocal t < w → t < z.ofLocal w

section Forward

variable {z : Zone} {hour minute : Nat}

theorem Zone.Forward.session_le_of_complete (hz : z.Forward)
    (hcomplete : z.isSessionComplete s t hour minute) : s ≤ z.localDateIn t := by
  have hle : z.sessionCompletedAt s hour minute ≤ t := of_decide_eq_true hcomplete
  have hwall : ¬ z.toLocal t < s * microsPerDay + (hour * 60 + minute : Nat) * microsPerMinute :=
    fun hlt => Int.not_lt.mpr hle (hz.ofLocal_after hlt)
  unfold Zone.localDateIn
  simp only [microsPerDay, microsPerMinute] at *
  omega

/-- A forward clock that skips no closing time is regular. -/
theorem Zone.Forward.regular (hz : z.Forward) (hhour : hour < 24) (hminute : minute < 60)
    (hoccurs : ∀ s : Int, ∃ t, z.toLocal t =
      s * microsPerDay + (hour * 60 + minute : Nat) * microsPerMinute) : z.Regular hour minute where
  localDate_mono hle := Int.ediv_le_ediv (by decide) (hz.toLocal_mono hle)
  closes_on_date s := by
    obtain ⟨t, ht⟩ := hoccurs s
    have hexact := hz.ofLocal_exact t
    rw [ht] at hexact
    unfold Zone.localDateIn Zone.sessionCompletedAt
    rw [hexact]
    simp only [microsPerDay, microsPerMinute]
    omega

end Forward

/-- **What `resolve_baseline_settlement` resolves.**  The baseline is the latest complete
session and the settlement the first one after it, not yet complete, exactly when one of the
last two sessions up to the decision's local date is complete, as always where no closing
time is skipped (`Zone.Forward.regular`). -/
theorem resolved_sessions_iff (tz : TimeZones) (name : String) (z : Zone) (hz : tz name = some z)
    (hforward : z.Forward) (decisionAt : Int) (hour minute : Nat) :
    ∃ baseline settlement,
      resolveBaselineSettlement tz decisionAt name hour minute = .ok (baseline, settlement) ∧
      (z.SessionsAround hour minute decisionAt baseline settlement ↔
        z.isSessionComplete (z.lastSession decisionAt) decisionAt hour minute = true ∨
          z.isSessionComplete (previousSession (z.lastSession decisionAt)) decisionAt hour minute =
            true) :=
  ⟨_, _, resolveBaselineSettlement_of_zone hz decisionAt hour minute,
    sessionsAround_iff fun _ hcomplete => hforward.session_le_of_complete hcomplete⟩

theorem utc_forward : utc.Forward where
  toLocal_mono hle := hle
  ofLocal_exact _ := rfl
  ofLocal_after hlt := hlt

/-- On Monday morning, UTC, the sessions are Friday's and Monday's. -/
theorem monday_resolves_friday :
    resolveBaselineSettlement utcOnly (4 * microsPerDay) "UTC" 17 0 = .ok (1, 4) ∧
      utc.SessionsAround 17 0 (4 * microsPerDay) 1 4 := by
  obtain ⟨baseline, settlement, hok, hiff⟩ :=
    resolved_sessions_iff utcOnly "UTC" utc rfl utc_forward (4 * microsPerDay) 17 0
  have hresolved : resolveBaselineSettlement utcOnly (4 * microsPerDay) "UTC" 17 0 = .ok (1, 4) := by
    decide +kernel
  have hsame := hok.symm.trans hresolved
  obtain ⟨rfl, rfl⟩ := hsame
  exact ⟨hresolved, hiff.mpr (by decide +kernel)⟩

/-- Singapore from 1970 on: half an hour was skipped at 23:30 of 31 December 1981, day 4382.
-/
def singapore : Zone where
  toLocal t :=
    if t < 4382 * microsPerDay + 960 * microsPerMinute then t + 450 * microsPerMinute
    else t + 480 * microsPerMinute
  ofLocal w :=
    if w < 4383 * microsPerDay then w - 450 * microsPerMinute else w - 480 * microsPerMinute

theorem singapore_forward : singapore.Forward where
  toLocal_mono hle := by
    simp only [singapore, microsPerDay, microsPerMinute]
    grind
  ofLocal_exact t := by
    simp only [singapore, microsPerDay, microsPerMinute]
    grind
  ofLocal_after hlt := by
    simp only [singapore, microsPerDay, microsPerMinute] at *
    grind

/-- **A skipped closing time is looked past.**  Sessions close at 23:45.  Five minutes after
the jump the baseline is Thursday's session, which completes ten minutes later. -/
theorem late_jump_looks_ahead : singapore.Forward ∧
      resolveBaselineSettlement (fun _ => some singapore)
        (4382 * microsPerDay + 965 * microsPerMinute) "Asia/Singapore" 23 45 = .ok (4382, 4383) ∧
      singapore.isSessionComplete 4382 (4382 * microsPerDay + 965 * microsPerMinute) 23 45 =
        false :=
  ⟨singapore_forward, by decide +kernel, by decide +kernel⟩

end Calendar
