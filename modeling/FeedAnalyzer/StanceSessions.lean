import FeedAnalyzer.StanceManagement

/-!
# Stances and the sessions they settle on

The closed path takes the latest pending prediction for the stance of the upcoming session.
It may belong to an earlier session (`superseded_sessions_iff`), and there may be more than
one (`closed_store_collapses_iff`).
-/

namespace Prediction

open Feed Transact Calendar PredictionPipeline List Table Option PredictionRow

variable {reg : Registry}

/-- The sessions Verification resolves for a prediction of the asset. -/
def sessionsAt (tz : TimeZones) (assetId : AssetId reg) (decisionAt : Int) : Option (Int × Int) :=
  match reg.resolve assetId.value with
  | .error _ => none
  | .ok series =>
    (resolveBaselineSettlement tz decisionAt series.timezone series.sessionCompletionHour
      series.sessionCompletionMinute).toOption

/-- The asset's market: its zone and its closing time. -/
structure MarketOf (tz : TimeZones) (assetId : AssetId reg) (z : Zone) (hour minute : Nat) :
    Prop where
  series : ∃ series, reg.resolve assetId.value = .ok series ∧ tz series.timezone = some z ∧
    series.sessionCompletionHour = hour ∧ series.sessionCompletionMinute = minute
  regular : z.Regular hour minute

section Sessions

variable {tz : TimeZones} {assetId : AssetId reg} {z : Zone} {hour minute : Nat}

theorem MarketOf.sessionsAt_eq (hmarket : MarketOf tz assetId z hour minute) (t : Int) :
    sessionsAt tz assetId t =
      some (z.baselineSession t hour minute, nextSession (z.baselineSession t hour minute)) := by
  obtain ⟨series, hresolve, hz, rfl, rfl⟩ := hmarket.series
  simp only [sessionsAt, hresolve, resolveBaselineSettlement_of_zone hz]
  rfl

/-- Two decisions have the same sessions exactly when no session completes
between them. -/
theorem MarketOf.sessions_eq_iff (hmarket : MarketOf tz assetId z hour minute) {t t' : Int}
    (hle : t ≤ t') :
    sessionsAt tz assetId t = sessionsAt tz assetId t' ↔
      ¬ SessionCompletesIn z hour minute t t' := by
  rw [hmarket.sessionsAt_eq, hmarket.sessionsAt_eq, ← baseline_eq_iff_of_le hmarket.regular hle]
  constructor
  · intro hsame
    exact (Prod.mk.injEq _ _ _ _ ▸ some.inj hsame).1
  · intro hsame
    rw [hsame]

end Sessions

/-- A withdrawn prediction of the same asset, decided no later. -/
def Superseding (predictions : Table PredictionRow.predictionId) : Prop :=
  ∀ q ∈ predictions, ∀ id, q.supersedesPredictionId = some id →
    ∃ p ∈ predictions, p.predictionId = id ∧ p.assetId = q.assetId ∧ p.status = .withdrawn ∧
      p.decisionAt ≤ q.decisionAt

section Superseding

variable {P : PredictionPipeline} {A : Admits reg} {record : ContextRecord reg}
  {decision : Decision} {now : Int} {depth : Nat} {active : Option PredictionRow}
  {marketOpen : Bool} {s s' : Store reg}

theorem Superseding.stored (hread : P.StanceRead A record.assetId now s active marketOpen)
    (houtcome : P.StoreOutcome record decision now depth active marketOpen s true s')
    (hdated : Dated now s.predictions) (hsuperseding : Superseding s.predictions) :
    Superseding s'.predictions := by
  obtain ⟨row, hinserts, hsupersedes, hrows⟩ := stored_rows hread houtcome
  have hkept : ∀ p ∈ s.predictions, p.withdrawnBy row.supersedesPredictionId ∈ s'.predictions := by
    intro p hp
    rw [← mem_rows, hrows]
    exact mem_append_left _ (mem_map_of_mem hp)
  intro q hq id hid
  rw [← mem_rows, hrows] at hq
  rcases mem_append.mp hq with hold | hnew
  · obtain ⟨q₀, hq₀, rfl⟩ := mem_map.mp hold
    obtain ⟨_, hasset, _, hdecision, hsup, _⟩ :=
      @PredictionRow.withdrawnBy_columns row.supersedesPredictionId q₀
    rw [hsup] at hid
    obtain ⟨p, hp, hpid, hpasset, hstatus, hle⟩ := hsuperseding q₀ hq₀ id hid
    have hsame : p.withdrawnBy row.supersedesPredictionId = p := by
      simp [withdrawnBy, hstatus]
    rw [hasset, hdecision]
    exact ⟨p, hsame ▸ hkept p hp, hpid, hpasset, hstatus, hle⟩
  · obtain rfl := mem_singleton.mp hnew
    rw [hsupersedes] at hid
    split at hid
    · cases hid
    · obtain ⟨a, hactive, rfl⟩ := map_eq_some_iff.mp hid
      obtain ⟨ha, hasset, hpending⟩ := (hread.pending hactive).1
      have hwithdrawn : a.withdrawnBy q.supersedesPredictionId = a.withdrawn := by
        rw [hsupersedes, if_neg ‹_›, hactive]
        exact withdrawnBy_self hpending
      refine ⟨a.withdrawn, hwithdrawn ▸ hkept a ha, rfl, hasset.trans hinserts.asset.symm, rfl, ?_⟩
      rw [hinserts.decisionAt]
      exact hdated a ha

end Superseding

theorem Reaches.superseding {P : PredictionPipeline} {now : Int} {s : Store reg}
    (hreached : Reaches P now s) : Dated now s.predictions ∧ Superseding s.predictions := by
  have hkeeps : RunKeeps P (fun _ _ _ => True) (fun t (s : Store reg) =>
      Dated t s.predictions ∧ Superseding s.predictions) :=
    runKeeps_of_predictions (fun t predictions => Dated t predictions ∧ Superseding predictions)
      (fun hle hinv => ⟨hinv.1.mono hle, hinv.2⟩)
      (fun hread houtcome _ hinv =>
        ⟨hinv.1.stored hread houtcome, hinv.2.stored hread houtcome hinv.1⟩)
  exact hreached.invariant hkeeps fun t =>
    ⟨fun row hrow => absurd hrow (not_mem_empty row),
      fun row hrow => absurd hrow (not_mem_empty row)⟩

/-- **The withdrawn prediction and the one that supersedes it** resolve to the
same sessions exactly when no session of their market completes between their
decisions. -/
theorem superseded_sessions_iff (P : PredictionPipeline) (now : Int) (s : Store reg)
    (hreached : Reaches P now s) (assetId : AssetId reg) (z : Zone) (hour minute : Nat)
    (hmarket : MarketOf P.tz assetId z hour minute) (p q : PredictionRow)
    (hp : p ∈ s.predictions) (hq : q ∈ s.predictions) (hasset : q.assetId = assetId.value)
    (hsupersedes : q.supersedesPredictionId = some p.predictionId) :
    p.status = .withdrawn ∧ p.assetId = assetId.value ∧
      (sessionsAt P.tz assetId p.decisionAt = sessionsAt P.tz assetId q.decisionAt ↔
        ¬ SessionCompletesIn z hour minute p.decisionAt q.decisionAt) := by
  obtain ⟨p', hp', hid, hpasset, hstatus, hle⟩ :=
    hreached.superseding.2 q hq p.predictionId hsupersedes
  obtain rfl := eq_of_key hp' hp hid
  exact ⟨hstatus, hpasset.trans hasset, hmarket.sessions_eq_iff hle⟩

theorem gold_market : MarketOf utcPipeline.tz gold utc 17 0 where
  series := ⟨goldRegistry.toSeries goldEntry, by decide +kernel, rfl, rfl, rfl⟩
  regular := utc_regular (by decide) (by decide)

/-- Up on Saturday, down on Sunday, with the market closed. -/
def turnedWeekend : List (Job goldRegistry × List (Answer goldRegistry)) :=
  [goldDelivery 1 (atHour 2 9), goldSweep (atHour 2 10) [goldDecision .up 1 []],
    goldDelivery 2 (atHour 3 9), goldSweep (atHour 3 10) [goldDecision .down 2 []]]

theorem weekend_completes_none : ¬ SessionCompletesIn utc 17 0 (atHour 2 10) (atHour 3 10) := by
  rintro ⟨session, hsession, hafter, hby⟩
  rw [isTradingDay_iff] at hsession
  simp only [weekday, atHour, Zone.sessionCompletedAt, utc, id, microsPerDay, microsPerMinute]
    at hsession hafter hby
  omega

/-- Sunday's prediction takes the place of Saturday's, for the same sessions. -/
theorem weekend_same_sessions : (goldRun turnedWeekend).predictions.rows.map (fun row =>
        (row.predictionId, row.decisionAt, row.status, row.supersedesPredictionId)) =
      [(1, atHour 2 10, .withdrawn, none), (2, atHour 3 10, .pending, some 1)] ∧
    sessionsAt utcPipeline.tz gold (atHour 2 10) = sessionsAt utcPipeline.tz gold (atHour 3 10) := by
  refine ⟨by decide +kernel, ?_⟩
  obtain ⟨p, hp, q, hq, hpAt, hqAt, hasset, hsupersedes⟩ :
      ∃ p ∈ (goldRun turnedWeekend).predictions.rows,
        ∃ q ∈ (goldRun turnedWeekend).predictions.rows, p.decisionAt = atHour 2 10 ∧
          q.decisionAt = atHour 3 10 ∧ q.assetId = gold.value ∧
            q.supersedesPredictionId = some p.predictionId := by decide +kernel
  have hreached : Reaches utcPipeline (atHour 3 10) (goldRun turnedWeekend) :=
    ⟨turnedWeekend, by decide +kernel, by decide +kernel, rfl⟩
  have hiff := (superseded_sessions_iff utcPipeline (atHour 3 10) (goldRun turnedWeekend) hreached
    gold utc 17 0 gold_market p q hp hq hasset hsupersedes).2.2
  rw [hpAt, hqAt] at hiff
  exact hiff.mpr weekend_completes_none

/-- Gold rises on Friday morning, and on Saturday it falls. -/
def turnedSaturday : List (Job goldRegistry × List (Answer goldRegistry)) :=
  [goldDelivery 1 (atHour 1 9), goldSweep (atHour 1 10) [goldDecision .up 1 openMarket],
    goldDelivery 2 (atHour 2 9), goldSweep (atHour 2 10) [goldDecision .down 2 []]]

/-- **Friday's prediction is withdrawn after it has settled**, at 17:00, by Saturday's
prediction for Monday. -/
theorem settled_prediction_withdrawn : (goldRun turnedSaturday).predictions.rows.map (fun row =>
        (row.predictionId, row.decisionAt, row.status, row.supersedesPredictionId)) =
      [(1, atHour 1 10, .withdrawn, none), (2, atHour 2 10, .pending, some 1)] ∧
    sessionsAt utcPipeline.tz gold (atHour 1 10) = some (0, 1) ∧
    utc.isSessionComplete 1 (atHour 2 10) 17 0 = true ∧
    sessionsAt utcPipeline.tz gold (atHour 2 10) = some (1, 4) := by
  refine ⟨?_, ?_, ?_, ?_⟩ <;> decide +kernel

def settlesOn (tz : TimeZones) (assetId : AssetId reg) (session : Int) (row : PredictionRow) :
    Bool :=
  row.assetId = assetId.value ∧ row.status = .pending ∧
    (sessionsAt tz assetId row.decisionAt).map Prod.snd = some session

/-- How many pending predictions of the asset settle on the session. -/
def pendingFor (tz : TimeZones) (assetId : AssetId reg) (session : Int) (s : Store reg) : Nat :=
  s.predictions.rows.countP (settlesOn tz assetId session)

/-- No price can be read. -/
def NoPrice (w : Answer reg) (c : Call reg) (_ : Store reg) : Prop :=
  match c with
  | .recentCloses _ => w.closesRead = .ok []
  | _ => True

instance (w : Answer reg) (c : Call reg) (s : Store reg) : Decidable (NoPrice w c s) := by
  apply @Call.casesOn reg (fun c => Decidable (NoPrice w c s)) c <;> intros
  all_goals
    delta NoPrice
    infer_instance

section Collapse

variable {P : PredictionPipeline} {record : ContextRecord reg} {decision : Decision} {now : Int}
  {depth : Nat} {active : Option PredictionRow} {marketOpen : Bool} {s s' : Store reg}
  {z : Zone} {hour minute : Nat}

/-- Without a price the market counts as closed, as it does on a weekend. -/
theorem closed_of_noPrice
    (hread : P.StanceRead (fun w c x => NoPrice w c x.1) record.assetId now s active marketOpen) :
    marketOpen = false := by
  obtain ⟨z, _, ⟨_, hclosed⟩ | ⟨_, w, closes, hprice, hcloses, hopen⟩⟩ := hread.market
  · exact hclosed
  · have hempty : w.closesRead = .ok [] := hprice
    rw [hempty] at hcloses
    cases hcloses
    exact hopen

variable {A : Admits reg} {session : Int}
  (hmarket : MarketOf P.tz record.assetId z hour minute) (hdated : Dated now s.predictions)
  (hsession : (sessionsAt P.tz record.assetId now).map Prod.snd = some session)

include hmarket hdated hsession

/-- A pending prediction of the upcoming session makes the standing one of this
session, too: it was decided no earlier. -/
theorem standing_settlesOn (hread : P.StanceRead A record.assetId now s active marketOpen)
    {r : PredictionRow} (hr : r ∈ s.predictions)
    (hsettles : settlesOn P.tz record.assetId session r) :
    ∃ a, active = some a ∧ settlesOn P.tz record.assetId session a := by
  simp only [settlesOn, decide_eq_true_eq] at hsettles ⊢
  obtain ⟨hasset, hpending, hsettlement⟩ := hsettles
  cases hactive : active with
  | none => exact absurd ⟨hr, hasset, hpending⟩ (hread.none_pending hactive)
  | some a =>
    obtain ⟨ha, hlatest⟩ := hread.pending hactive
    refine ⟨a, rfl, ha.2.1, ha.2.2, ?_⟩
    have hfrom := nextSession_mono
      (baseline_mono hmarket.regular (hlatest r ⟨hr, hasset, hpending⟩))
    have hto := nextSession_mono (baseline_mono hmarket.regular (hdated a ha.1))
    rw [hmarket.sessionsAt_eq] at hsettlement hsession ⊢
    simp only [map_some, some.injEq] at hsettlement hsession ⊢
    omega

/-- What the closed path does to the count of the upcoming session: the first
stance is added, and a later one takes the place of the standing one. -/
theorem pendingFor_stored (hread : P.StanceRead A record.assetId now s active false)
    (houtcome : P.StoreOutcome record decision now depth active false s true s') :
    pendingFor P.tz record.assetId session s' = max 1 (pendingFor P.tz record.assetId session s) := by
  obtain ⟨row, hinserts, hsupersedes, hrows⟩ := stored_rows hread houtcome
  have hnew : settlesOn P.tz record.assetId session row := by
    simp only [settlesOn, decide_eq_true_eq]
    exact ⟨hinserts.asset, hinserts.pending, by rw [hinserts.decisionAt]; exact hsession⟩
  have hsum : pendingFor P.tz record.assetId session s' =
      (s.predictions.rows.map (withdrawnBy row.supersedesPredictionId)).countP
        (settlesOn P.tz record.assetId session) + 1 := by
    unfold pendingFor
    rw [hrows, countP_append, countP_singleton, if_pos hnew]
  unfold pendingFor at hsum ⊢
  rw [hsum]
  by_cases hnone : s.predictions.rows.countP (settlesOn P.tz record.assetId session) = 0
  · have hstands : ∀ r, settlesOn P.tz record.assetId session r →
        r.status ≠ .withdrawn := by
      intro r hsettles
      rw [(of_decide_eq_true hsettles).2.1]
      exact nofun
    have hle := countP_withdrawnBy_le hstands row.supersedesPredictionId s.predictions.rows
    omega
  · obtain ⟨r, hr, hsettles⟩ := countP_pos_iff.mp (Nat.pos_of_ne_zero hnone)
    obtain ⟨a, hactive, hstands⟩ := standing_settlesOn hmarket hdated hsession hread hr hsettles
    have hpending := (hread.pending hactive).1
    have hsup : row.supersedesPredictionId = some a.predictionId := by
      rw [hsupersedes, hactive]
      rfl
    have hcount := countP_withdrawn hpending.1 hpending.2.2 hstands (by simp [settlesOn, withdrawn])
    rw [hsup]
    omega

end Collapse

/-- **The collapse of a closed market.**  After a store without a price, at most one pending
prediction of the asset settles on the upcoming session exactly when this was so before. -/
theorem closed_store_collapses_iff (P : PredictionPipeline) (now : Int) (s : Store reg)
    (hreached : Reaches P now s) (record : ContextRecord reg) (decision : Decision)
    (events : List ContextEvent) (depth : Nat) (chain : List (PropagationHop (AssetId reg)))
    (z : Zone) (hour minute : Nat) (hmarket : MarketOf P.tz record.assetId z hour minute)
    (session : Int) (hsession : (sessionsAt P.tz record.assetId now).map Prod.snd = some session)
    (answers : List (Answer reg))
    (hclosed : (P.storePrediction record decision now events depth chain).Admitted (handle P.tz)
      NoPrice answers s)
    (hstored : ((P.storePrediction record decision now events depth chain).advance (handle P.tz)
      answers s).1.returned = some true) :
    pendingFor P.tz record.assetId session ((P.storePrediction record decision now events depth
        chain).advance (handle P.tz) answers s).2 ≤ 1 ↔
      pendingFor P.tz record.assetId session s ≤ 1 := by
  have hmeets : (P.storePrediction record decision now events depth chain).Meets (handle P.tz)
      NoPrice (fun _ => True) (fun r s' => r = .ok true →
        pendingFor P.tz record.assetId session s' =
          max 1 (pendingFor P.tz record.assetId session s)) s := by
    refine Proc.Meets.of_logged none (((storePrediction_meets record decision now events depth
      chain).mono_cut (fun _ _ => trivial)).mono ?_)
    intro r y hy hr
    obtain ⟨active, marketOpen, hread, houtcome, _⟩ := hy.2 true hr
    obtain rfl : marketOpen = false := closed_of_noPrice hread
    exact pendingFor_stored hmarket hreached.superseding.1 hsession hread houtcome
  have hcount := hmeets.of_returned hclosed hstored rfl
  omega

/-- On Sunday there is one prediction for Monday, and after the store still
one. -/
theorem weekend_collapses : pendingFor utcPipeline.tz gold 4
        (goldRun (turnedWeekend.take 3 ++ [(.closeSweep, [{ now := atHour 3 10 }, noFault])])) = 1 ∧
      pendingFor utcPipeline.tz gold 4 ((utcPipeline.storePrediction
        { thursdayRecord with contextId := 2, windowStart := atHour 3 9 } goldRise (atHour 3 10) []
          0 []).advance (handle utcPipeline.tz)
        [noFault, { stamp := ⟨2, 2, 2⟩ }, noFault]
        (goldRun (turnedWeekend.take 3 ++
          [(.closeSweep, [{ now := atHour 3 10 }, noFault])]))).2 ≤ 1 := by
  refine ⟨by decide +kernel, ?_⟩
  have hreached : Reaches utcPipeline (atHour 3 10)
      (goldRun (turnedWeekend.take 3 ++ [(.closeSweep, [{ now := atHour 3 10 }, noFault])])) :=
    ⟨_, by decide +kernel, by decide +kernel, rfl⟩
  exact (closed_store_collapses_iff utcPipeline (atHour 3 10) _ hreached
    { thursdayRecord with contextId := 2, windowStart := atHour 3 9 } goldRise [] 0 [] utc 17 0
    gold_market 4 (by decide +kernel) [noFault, { stamp := ⟨2, 2, 2⟩ }, noFault]
    (by decide +kernel) (by decide +kernel)).mpr (by decide +kernel)

/-- Up and down on Friday evening, and up again on Saturday. -/
def turnedFriday : List (Job goldRegistry × List (Answer goldRegistry)) :=
  [goldDelivery 1 (atHour 1 18), goldSweep (atHour 1 19) [goldDecision .up 1 openMarket],
    goldDelivery 2 (atHour 1 20), goldSweep (atHour 1 21) [goldDecision .down 2 openMarket],
    goldDelivery 3 (atHour 2 9), goldSweep (atHour 2 10) [goldDecision .up 3 []]]

/-- **Two predictions are left for Monday.**  Saturday's prediction withdraws
the second of Friday's, and the first one still stands. -/
theorem closed_market_leaves_two : (goldRun turnedFriday).predictions.rows.map (fun row =>
        (row.predictionId, row.status, row.supersedesPredictionId)) =
      [(1, .pending, none), (2, .withdrawn, none), (3, .pending, some 2)] ∧
    (sessionsAt utcPipeline.tz gold (atHour 2 10)).map Prod.snd = some 4 ∧
    pendingFor utcPipeline.tz gold 4 (goldRun turnedFriday) = 2 := by
  refine ⟨?_, ?_, ?_⟩ <;> decide +kernel

end Prediction
