import FeedAnalyzer.EventRedelivery
import FeedAnalyzer.StanceRuns

/-!
# The stances of an asset

On an open market a stance is added to the ones that stand; on a closed market it takes the
place of the latest one.  `daily_limit_kept` is the daily limit, which the closed path keeps
without looking at it.
-/

namespace Prediction

open Feed Transact Calendar PredictionPipeline Proc List Store Table

variable {reg : Registry} {P : PredictionPipeline} {A : Admits reg} {record : ContextRecord reg}
  {decision : Decision} {now : Int} {depth : Nat} {active : Option PredictionRow}
  {marketOpen : Bool} {s s' : Store reg}

def PredictionRow.withdrawnBy (superseded : Option Uuid) (row : PredictionRow) : PredictionRow :=
  if superseded = some row.predictionId ∧ row.status = .pending then row.withdrawn else row

namespace PredictionRow

variable {superseded : Option Uuid} {row : PredictionRow}

theorem withdrawnBy_of_ne (hne : superseded ≠ some row.predictionId) :
    row.withdrawnBy superseded = row := by
  simp [withdrawnBy, hne]

theorem withdrawnBy_self (hpending : row.status = .pending) :
    row.withdrawnBy (some row.predictionId) = row.withdrawn := by
  simp [withdrawnBy, hpending]

theorem withdrawnBy_columns : (row.withdrawnBy superseded).predictionId = row.predictionId ∧
      (row.withdrawnBy superseded).assetId = row.assetId ∧
      (row.withdrawnBy superseded).direction = row.direction ∧
      (row.withdrawnBy superseded).decisionAt = row.decisionAt ∧
      (row.withdrawnBy superseded).supersedesPredictionId = row.supersedesPredictionId ∧
      (row.withdrawnBy superseded).idempotencyKey = row.idempotencyKey := by
  unfold withdrawnBy
  split <;> exact ⟨rfl, rfl, rfl, rfl, rfl, rfl⟩

theorem status_of_withdrawnBy (hstatus : (row.withdrawnBy superseded).status ≠ .withdrawn) :
    row.withdrawnBy superseded = row := by
  unfold withdrawnBy at hstatus ⊢
  split at hstatus
  · exact absurd rfl hstatus
  · next hnot => exact if_neg hnot

theorem status_cases (row : PredictionRow) : row.status = .pending ∨ row.status = .withdrawn := by
  cases row.status with
  | pending => exact Or.inl rfl
  | withdrawn => exact Or.inr rfl

end PredictionRow

variable {p : PredictionRow → Bool} {predictions : Table PredictionRow.predictionId}
  {row r last : PredictionRow} {z : Zone} {assetId : String} {now : Int}

theorem countP_withdrawn {a : PredictionRow} (ha : a ∈ predictions) (hpending : a.status = .pending)
    (hin : p a) (hout : p a.withdrawn = false) :
    (predictions.rows.map (PredictionRow.withdrawnBy (some a.predictionId))).countP p + 1 =
      predictions.rows.countP p := by
  refine countP_map_out predictions.nodup ha (fun r _ hne => ?_) hin ?_
  · exact PredictionRow.withdrawnBy_of_ne (by simpa using Ne.symm hne)
  · rw [PredictionRow.withdrawnBy_self hpending]
    exact hout

/-- Withdrawals add nothing to a count that leaves withdrawn rows out. -/
theorem countP_withdrawnBy_le (hp : ∀ r, p r → r.status ≠ .withdrawn)
    (superseded : Option Uuid) (rows : List PredictionRow) :
    (rows.map (PredictionRow.withdrawnBy superseded)).countP p ≤ rows.countP p := by
  refine countP_map_le (fun r hr => ?_) rows
  rwa [PredictionRow.status_of_withdrawnBy (hp _ hr)] at hr

section Stored

variable (hread : P.StanceRead A record.assetId now s active marketOpen)

include hread

theorem PredictionPipeline.StanceRead.pending (hactive : active = some row) :
    s.Pending record.assetId.value row ∧
      ∀ r, s.Pending record.assetId.value r → r.decisionAt ≤ row.decisionAt := by
  obtain ⟨w, last, _, hrow⟩ := hread.active
  exact activeRow_eq_some (hrow.symm.trans hactive)

theorem PredictionPipeline.StanceRead.none_pending (hactive : active = none) :
    ¬ s.Pending record.assetId.value r := by
  obtain ⟨w, last, _, hrow⟩ := hread.active
  exact not_pending_of_activeRow (hrow.symm.trans hactive)

/-- **A stored prediction.**  The table gets one row, and what it supersedes is withdrawn:
none on an open market, the standing prediction on a closed one. -/
theorem stored_rows
    (houtcome : P.StoreOutcome record decision now depth active marketOpen s true s') :
    ∃ row, Inserts record decision now depth s s' row ∧ row.supersedesPredictionId =
        (if marketOpen then none else active.map PredictionRow.predictionId) ∧
      s'.predictions.rows =
        s.predictions.rows.map (PredictionRow.withdrawnBy row.supersedesPredictionId) ++ [row] := by
  cases houtcome with
  | @stored row _ hinserts hagrees hturned hlimit hsupersedes =>
    refine ⟨row, hinserts, hsupersedes, ?_⟩
    have hself : row.supersedesPredictionId ≠ some row.predictionId := by
      rw [hsupersedes]
      intro hself
      split at hself
      · cases hself
      · obtain ⟨a, hactive, hid⟩ := Option.map_eq_some_iff.mp hself
        have hhas : s.predictions.has a.predictionId :=
          has_eq_true_iff.mpr ⟨a, (hread.pending hactive).1.1, rfl⟩
        rw [hid, hinserts.fresh] at hhas
        cases hhas
    have hrows : s'.predictions.rows = (s.predictions.rows ++ [row]).map
        (PredictionRow.withdrawnBy row.supersedesPredictionId) := by
      rw [hinserts.predictions, ← rows_insertNew_of_fresh hinserts.fresh]
      refine map_congr_left fun r _ => ?_
      simp [PredictionRow.withdrawnBy]
    rw [hrows, map_append, map_singleton, PredictionRow.withdrawnBy_of_ne hself]

end Stored

/-- Every prediction was decided by the time `t`. -/
def Dated (t : Int) (predictions : Table PredictionRow.predictionId) : Prop :=
  ∀ row ∈ predictions, row.decisionAt ≤ t

theorem Dated.mono {t t' : Int} (hle : t ≤ t') (hdated : Dated t predictions) :
    Dated t' predictions :=
  fun row hrow => Int.le_trans (hdated row hrow) hle

/-- The dates of the registry's markets never run backwards. -/
def PredictionPipeline.DatesForward (P : PredictionPipeline) (reg : Registry) : Prop :=
  ∀ (assetId : AssetId reg) z, P.zoneOf assetId = some z →
    ∀ t t', t ≤ t' → z.localDateIn t ≤ z.localDateIn t'

def onDay (z : Zone) (assetId : String) (localDate : Int) (row : PredictionRow) : Bool :=
  row.assetId = assetId ∧ row.status ≠ .withdrawn ∧ z.localDateIn row.decisionAt = localDate

/-- No asset has more predictions of one day than the limit. -/
def WithinLimit (P : PredictionPipeline) (reg : Registry)
    (predictions : Table PredictionRow.predictionId) : Prop :=
  ∀ (assetId : AssetId reg) z, P.zoneOf assetId = some z → ∀ localDate,
    predictions.rows.countP (onDay z assetId.value localDate) ≤
      P.settings.maxDailyPredictionsPerAsset

theorem length_predictionsOn (z : Zone) (assetId : String) (localDate : Int) (s : Store reg) :
    (s.predictionsOn z assetId localDate).length =
      s.predictions.rows.countP (onDay z assetId localDate) :=
  countP_eq_length_filter.symm

theorem Dated.stored (hread : P.StanceRead A record.assetId now s active marketOpen)
    (houtcome : P.StoreOutcome record decision now depth active marketOpen s true s')
    (hdated : Dated now s.predictions) : Dated now s'.predictions := by
  obtain ⟨row, hinserts, _, hrows⟩ := stored_rows hread houtcome
  intro r hr
  rw [← mem_rows, hrows] at hr
  rcases mem_append.mp hr with hold | hnew
  · obtain ⟨r₀, hr₀, rfl⟩ := mem_map.mp hold
    rw [PredictionRow.withdrawnBy_columns.2.2.2.1]
    exact hdated r₀ hr₀
  · rw [mem_singleton.mp hnew, hinserts.decisionAt]

theorem pending_of_onDay {localDate : Int} (hr : r ∈ s.predictions)
    (hday : onDay z assetId localDate r) :
    s.Pending assetId r ∧ z.localDateIn r.decisionAt = localDate := by
  simp only [onDay, decide_eq_true_eq] at hday
  rcases r.status_cases with hpending | hwithdrawn
  · exact ⟨⟨hr, hday.1, hpending⟩, hday.2.2⟩
  · exact absurd hwithdrawn hday.2.1

/-- On a closed market, the standing prediction is of the day of the decision,
or the day has none yet. -/
theorem closed_day (hdates : ∀ t t', t ≤ t' → z.localDateIn t ≤ z.localDateIn t')
    (hread : P.StanceRead A record.assetId now s active marketOpen)
    (hdated : Dated now s.predictions) :
    s.predictions.rows.countP (onDay z record.assetId.value (z.localDateIn now)) = 0 ∨
      ∃ a, active = some a ∧ onDay z record.assetId.value (z.localDateIn now) a := by
  by_cases hnone : s.predictions.rows.countP (onDay z record.assetId.value (z.localDateIn now)) = 0
  · exact Or.inl hnone
  right
  obtain ⟨r, hr, hday⟩ := countP_pos_iff.mp (Nat.pos_of_ne_zero hnone)
  obtain ⟨hpending, hdate⟩ := pending_of_onDay hr hday
  cases hactive : active with
  | none => exact absurd hpending (hread.none_pending hactive)
  | some a =>
    obtain ⟨ha, hlatest⟩ := hread.pending hactive
    refine ⟨a, rfl, ?_⟩
    have hfrom := hdates _ _ (hlatest r hpending)
    have hto := hdates _ _ (hdated a ha.1)
    have hsame : z.localDateIn a.decisionAt = z.localDateIn now := by omega
    simp [onDay, ha.2.1, ha.2.2, hsame]

/-- **The limit is kept by every store.**  On an open market it is checked; on a
closed one the withdrawn stance makes room for the new one. -/
theorem WithinLimit.stored (hdates : P.DatesForward reg)
    (hread : P.StanceRead A record.assetId now s active marketOpen)
    (houtcome : P.StoreOutcome record decision now depth active marketOpen s true s')
    (hdated : Dated now s.predictions) (hlimit : WithinLimit P reg s.predictions) :
    WithinLimit P reg s'.predictions := by
  obtain ⟨row, hinserts, hsupersedes, hrows⟩ := stored_rows hread houtcome
  intro assetId z hz localDate
  have hbefore := hlimit assetId z hz localDate
  have hstands : ∀ r, onDay z assetId.value localDate r → r.status ≠ .withdrawn :=
    fun r hr => (of_decide_eq_true hr).2.1
  have hkept := countP_withdrawnBy_le hstands row.supersedesPredictionId s.predictions.rows
  rw [hrows, countP_append, countP_singleton]
  by_cases hnew : onDay z assetId.value localDate row
  · simp only [hnew, if_true]
    have hcolumns := hnew
    simp only [onDay, decide_eq_true_eq] at hcolumns
    obtain ⟨hasset, _, hdate⟩ := hcolumns
    obtain rfl : record.assetId = assetId := Subtype.ext (hinserts.asset.symm.trans hasset)
    rw [hinserts.decisionAt] at hdate
    subst hdate
    cases hmarket : marketOpen with
    | true =>
      -- the open path has counted
      cases houtcome with
      | stored _ _ _ hcounted _ =>
        obtain ⟨z', hz', hless⟩ := hcounted hmarket
        rw [hz] at hz'
        cases hz'
        rw [length_predictionsOn] at hless
        omega
    | false =>
      rcases closed_day (hdates _ z hz) hread hdated with hnone | ⟨a, hactive, hday⟩
      · have hpos := P.settings.daily_pos
        omega
      · have hpending := (hread.pending hactive).1
        have hsup : row.supersedesPredictionId = some a.predictionId := by
          rw [hsupersedes, hmarket, hactive]
          rfl
        have hcount := countP_withdrawn hpending.1 hpending.2.2 hday
          (by simp [onDay, PredictionRow.withdrawn])
        rw [hsup]
        omega
  · simp only [hnew, Bool.false_eq_true, if_false]
    omega

/-- **The daily limit.**  At every point of every run whose sweeps' times do not
decrease, no asset has more predictions of one local day than the limit. -/
theorem daily_limit_kept (P : PredictionPipeline) (hdates : P.DatesForward reg) (now : Int)
    (s : Store reg) (hreached : Reaches P now s) (assetId : AssetId reg) (z : Zone)
    (hz : P.zoneOf assetId = some z) (localDate : Int) :
    (s.predictionsOn z assetId.value localDate).length ≤
      P.settings.maxDailyPredictionsPerAsset := by
  have hkeeps : RunKeeps P (fun _ _ _ => True) (fun t (s : Store reg) =>
      Dated t s.predictions ∧ WithinLimit P reg s.predictions) :=
    runKeeps_of_predictions
      (fun t predictions => Dated t predictions ∧ WithinLimit P reg predictions)
      (fun hle hinv => ⟨hinv.1.mono hle, hinv.2⟩)
      (fun hread houtcome _ hinv =>
        ⟨hinv.1.stored hread houtcome, hinv.2.stored hdates hread houtcome hinv.1⟩)
  have hempty : ∀ t, Dated t (∅ : Store reg).predictions ∧
      WithinLimit P reg (∅ : Store reg).predictions :=
    fun t => ⟨fun row hrow => (by cases hrow), fun _ _ _ _ => Nat.zero_le _⟩
  rw [length_predictionsOn]
  exact (hreached.invariant hkeeps hempty).2 assetId z hz localDate

theorem utcPipeline_zoneOf (assetId : AssetId goldRegistry) :
    utcPipeline.zoneOf assetId = some utc := by
  obtain ⟨entry, hentry, _, hresolve⟩ := assetId.resolve_eq_ok
  rw [eq_goldEntry hentry] at hresolve
  rw [zoneOf_of_resolve hresolve]
  rfl

theorem utcPipeline_datesForward : utcPipeline.DatesForward goldRegistry := by
  intro assetId z hz t t' hle
  rw [utcPipeline_zoneOf] at hz
  cases hz
  exact Int.ediv_le_ediv (by decide) hle

/-- A Thursday on which gold rises at ten and falls at noon. -/
def turnedThursday : List (Job goldRegistry × List (Answer goldRegistry)) :=
  [goldDelivery 1 (atHour 0 9), goldSweep (atHour 0 10) [goldDecision .up 1 openMarket],
    goldDelivery 2 (atHour 0 11), goldSweep (atHour 0 12) [goldDecision .down 2 openMarket]]

theorem turned_thursday_limit :
    ((goldRun turnedThursday).predictionsOn utc gold.value 0).map PredictionRow.predictionId =
        [1, 2] ∧
      ((goldRun turnedThursday).predictionsOn utc gold.value 0).length ≤ 2 :=
  ⟨by decide +kernel, daily_limit_kept utcPipeline utcPipeline_datesForward (atHour 0 12)
    (goldRun turnedThursday) ⟨turnedThursday, by decide +kernel, by decide +kernel, rfl⟩ gold utc
    (utcPipeline_zoneOf gold) 0⟩

/-- The work on the context is over. -/
def ContextState.done : ContextState → Bool
  | .predicted => true
  | .errorRetryable => true
  | _ => false

/-- The context version a key is about. -/
def IdempotencyKey.version (key : IdempotencyKey) : String × Int × Nat :=
  (key.assetId, key.windowStart, key.contextVersion)

namespace Store

variable {s s' s'' : Store reg} {claimed : List (ContextRecord reg)}

/-- Contexts stay, and those that are done stay done. -/
def Advances (s s' : Store reg) : Prop :=
  ∀ c ∈ s.contexts, ∃ c' ∈ s'.contexts, c'.contextId = c.contextId ∧ c'.version = c.version ∧
    (c.state.done = true → c'.state.done = true)

theorem Advances.of_contexts (hcontexts : s'.contexts = s.contexts) : s.Advances s' := by
  intro c hc
  rw [hcontexts]
  exact ⟨c, hc, rfl, rfl, id⟩

theorem Advances.trans (hfirst : s.Advances s') (hsecond : s'.Advances s'') : s.Advances s'' := by
  intro c hc
  obtain ⟨c', hc', hid, hversion, hdone⟩ := hfirst c hc
  obtain ⟨c'', hc'', hid', hversion', hdone'⟩ := hsecond c' hc'
  exact ⟨c'', hc'', hid'.trans hid, hversion'.trans hversion, fun h => hdone' (hdone h)⟩

theorem Advances.update {p : ContextRow → Bool} {f : ContextRow → ContextRow}
    (hf : ∀ r, (f r).contextId = r.contextId) (hversion : ∀ r, (f r).version = r.version)
    (hdone : ∀ r ∈ s.contexts, p r → r.state.done → (f r).state.done)
    (hcontexts : s'.contexts = s.contexts.updateWhere p f hf) : s.Advances s' := by
  intro c hc
  refine ⟨if p c then f c else c, ?_, ?_, ?_, ?_⟩
  · rw [hcontexts]
    exact mem_updateWhere.mpr ⟨c, hc, rfl⟩
  · split
    · exact hf c
    · rfl
  · split
    · exact hversion c
    · rfl
  · intro hstate
    split
    · next hp => exact hdone c hc hp hstate
    · exact hstate

theorem advances_setStateWhere (p : ContextRow → Bool) {state : ContextState}
    (hstate : state.done) : s.Advances (s.setStateWhere p state) :=
  Advances.update (fun row => row.contextId_withState state) (fun _ => rfl) (fun _ _ _ _ => hstate)
    rfl

theorem advances_assignEvent {fresh : Uuid} {assetId : AssetId reg} {event : ContextEvent}
    {windowStart windowEnd : Int} {u : Unit}
    (hok : s.assignEvent fresh assetId event windowStart windowEnd = .ok (u, s')) :
    s.Advances s' := by
  obtain ⟨contextId, s₁, hopening, hmember⟩ := assignEvent_eq_ok hok
  have hlast : s₁.Advances s' := Advances.of_contexts (insertMember_eq_ok hmember).2.1
  refine Advances.trans ?_ hlast
  rcases hopening.joins_or_supersedes with ⟨latest, _, _, _, rfl⟩ | ⟨new, _, _, _, hsup, _⟩
  · exact Advances.update (fun row => row.contextId_withWatermark event.firstSeenAt) (fun _ => rfl)
      (fun _ _ _ hdone => hdone) rfl
  · intro c hc
    rw [hsup.contexts]
    exact ⟨c, mem_insertNew_of_mem hc, rfl, rfl, id⟩

variable {tie : Uuid → Nat} {locked : Uuid → Bool} {graceMinutes : Nat}

theorem advances_claimReadyContexts
    (hok : s.claimReadyContexts tie locked now graceMinutes = .ok (claimed, s')) :
    s.Advances s' := by
  obtain ⟨p, hset⟩ := (claimReadyContexts_eq_ok hok).2.2.2.2.2
  refine Advances.update (fun row => row.contextId_withState .predicting) (fun _ => rfl) ?_
    (congrArg contexts hset)
  intro c hc hp hdone
  -- a context that changes becomes `PREDICTING`, so it was claimed
  have hpredicting : s'.stateOf c.contextId = some .predicting := by
    have hmem : c.withState .predicting ∈ s'.contexts := by
      simp only [hset, setStateWhere, mem_updateWhere]
      exact ⟨c, hc, if_pos hp⟩
    exact stateOf_of_mem hmem
  have hstate : s.stateOf c.contextId = some c.state := stateOf_of_mem hc
  by_cases hclaimed : c.contextId ∈ claimed.map ContextRecord.contextId
  · obtain ⟨state, hbefore, hjoinable⟩ := stateOf_of_claimed hok hclaimed
    rw [hstate] at hbefore
    cases hbefore
    cases hcase : c.state <;> simp [hcase, ContextState.done, ContextState.joinable] at hdone hjoinable
  · rw [(claimReadyContexts_eq_ok hok).2.2.1, if_neg hclaimed, hstate] at hpredicting
    rw [Option.some.inj hpredicting] at hdone
    cases hdone

/-- The context of each direct prediction is done. -/
def DirectDone (s : Store reg) : Prop :=
  ∀ row ∈ s.predictions, row.idempotencyKey.depth = 0 →
    ∃ c ∈ s.contexts, c.version = row.idempotencyKey.version ∧ c.state.done = true

def Matches (s : Store reg) (claimed : List (ContextRecord reg)) : Prop :=
  ∀ record ∈ claimed, ∃ c ∈ s.contexts, c.contextId = record.contextId ∧
    c.version = (idempotencyKey record 0).version

theorem DirectDone.advance (hdone : s.DirectDone) (hpredictions : s'.predictions = s.predictions)
    (hadvances : s.Advances s') : s'.DirectDone := by
  intro row hrow hdepth
  rw [hpredictions] at hrow
  obtain ⟨c, hc, hversion, hstate⟩ := hdone row hrow hdepth
  obtain ⟨c', hc', _, hversion', hstate'⟩ := hadvances c hc
  exact ⟨c', hc', hversion'.trans hversion, hstate' hstate⟩

theorem Matches.advance (hmatches : s.Matches claimed) (hadvances : s.Advances s') :
    s'.Matches claimed := by
  intro record hrecord
  obtain ⟨c, hc, hid, hversion⟩ := hmatches record hrecord
  obtain ⟨c', hc', hid', hversion', _⟩ := hadvances c hc
  exact ⟨c', hc', hid'.trans hid, hversion'.trans hversion⟩

theorem matches_of_claim
    (hok : s.claimReadyContexts tie locked now graceMinutes = .ok (claimed, s')) :
    s.Matches claimed := by
  intro record hrecord
  obtain ⟨row, hrow, hread, _⟩ := (claimReadyContexts_eq_ok hok).2.1 record hrecord
  obtain ⟨hid, hasset, hversion, hwindow⟩ := recordOf_eq_ok hread
  refine ⟨row, hrow, hid.symm, ?_⟩
  simp only [ContextRow.version, IdempotencyKey.version, idempotencyKey, hasset, hversion, hwindow]

end Store

variable {s : Store reg} {record : ContextRecord reg}

section DirectKeys

variable {A : Answer reg → Call reg → Store reg → Prop}

theorem directDone_sweep (now : Int) (claimed : List (ContextRecord reg)) :
    SweepKeeps P A (fun s : Store reg => s.DirectDone ∧ s.Matches claimed) now claimed where
  set := by
    intro s record state _ hstate hs
    have hdone : state.done := by rcases hstate with rfl | rfl <;> rfl
    have hadvances := advances_setStateWhere (s := s)
      (fun row => row.contextId = record.contextId) hdone
    exact ⟨hs.1.advance rfl hadvances, hs.2.advance hadvances⟩
  store := by
    intro s s' record decision depth active marketOpen stored hbatch hread houtcome _ hs
    have hadvances : ∀ {s' : Store reg}, s'.contexts = (s.setStateWhere
        (fun r => r.contextId = record.contextId) .predicted).contexts → s.Advances s' :=
      fun hcontexts => (advances_setStateWhere _ rfl).trans (.of_contexts hcontexts)
    cases stored with
    | false =>
      cases houtcome with
      | duplicate _ _ hsame hcontexts =>
        exact ⟨hs.1.advance hsame.predictions (hadvances hcontexts),
          hs.2.advance (hadvances hcontexts)⟩
      | _ => exact hs
    | true =>
      obtain ⟨row, hinserts, _, hrows⟩ := stored_rows hread houtcome
      refine ⟨fun r hr hdepth => ?_, hs.2.advance (hadvances hinserts.contexts)⟩
      rw [← mem_rows, hrows] at hr
      rcases mem_append.mp hr with hold | hnew
      · obtain ⟨r₀, hr₀, rfl⟩ := mem_map.mp hold
        rw [PredictionRow.withdrawnBy_columns.2.2.2.2.2] at hdepth ⊢
        obtain ⟨c, hc, hversion, hdone⟩ := hs.1 r₀ hr₀ hdepth
        obtain ⟨c', hc', _, hversion', hdone'⟩ := hadvances hinserts.contexts c hc
        exact ⟨c', hc', hversion'.trans hversion, hdone' hdone⟩
      · obtain rfl := mem_singleton.mp hnew
        rw [hinserts.key] at hdepth ⊢
        rcases hbatch with ⟨rfl, hrecord⟩ | ⟨hpos, _⟩
        · obtain ⟨c, hc, hid, hversion⟩ := hs.2 record hrecord
          refine ⟨c.withState .predicted, ?_, hversion, rfl⟩
          simp only [hinserts.contexts, setStateWhere, mem_updateWhere]
          exact ⟨c, hc, if_pos (by simpa using hid)⟩
        · have hzero : depth = 0 := hdepth
          omega

theorem directDone_runKeeps : RunKeeps P A (fun _ (s : Store reg) => s.DirectDone) where
  mono _ hs := hs
  assign w assetId event windowStart windowEnd hs := by
    refine commit_rule hs fun u s' hok => ?_
    exact hs.advance (assignEvent_opensOnly hok).2.predictions (advances_assignEvent hok)
  sweep now := by
    intro s hs
    refine meets_perform hs (fun w claimed _ hok => ?_) fun w e _ herror => ?_
    · have hclaim := (commit_eq_ok hok).2
      have hadvances := advances_claimReadyContexts hclaim
      have hsame := (claimReadyContexts_eq_ok hclaim).2.2.2.2.1
      have hstart : (handle P.tz w (.claimReadyContexts now P.settings.closeGraceMinutes)
            s).2.DirectDone ∧ (handle P.tz w (.claimReadyContexts now
            P.settings.closeGraceMinutes) s).2.Matches claimed :=
        ⟨hs.advance hsame.predictions hadvances, (matches_of_claim hclaim).advance hadvances⟩
      exact ((closeClaimed_maintains (directDone_sweep now claimed) _ hstart).mono_cut
        fun _ hinv => hinv.1).mono fun _ _ hinv => hinv.1
    · rw [handle_eq_error herror]
      exact hs

/-- A context that is being worked on has no direct prediction yet. -/
theorem direct_key_new (hreached : Reaches P now s) {c : ContextRow} (hc : c ∈ s.contexts)
    (hversion : c.version = (idempotencyKey record 0).version) (hstate : c.state = .predicting) :
    ∀ r ∈ s.predictions, r.idempotencyKey ≠ idempotencyKey record 0 := by
  intro r hr hkey
  have hdone : s.DirectDone := hreached.invariant directDone_runKeeps
    fun _ row hrow => absurd hrow (not_mem_empty row)
  obtain ⟨c', hc', hversion', hstate'⟩ := hdone r hr (by rw [hkey]; rfl)
  rw [hkey] at hversion'
  obtain rfl := eq_of_version hc hc' (hversion.trans hversion'.symm)
  rw [hstate] at hstate'
  cases hstate'

end DirectKeys

/-- The first decision of a trading day: the context is being worked on, and no prediction
of the day stands. -/
structure FirstOfDay (P : PredictionPipeline) (now : Int) (s : Store reg)
    (record : ContextRecord reg) : Prop where
  reached : Reaches P now s
  context : ∃ c ∈ s.contexts, c.contextId = record.contextId ∧
    c.version = (idempotencyKey record 0).version ∧ c.state = .predicting
  day : ∃ z, P.zoneOf record.assetId = some z ∧ isTradingDay (z.localDateIn now) = true ∧
    s.predictionsOn z record.assetId.value (z.localDateIn now) = []

/-- A price is available and nothing fails. -/
structure PriceAvailable (s : Store reg) (lookup market count stamp store : Answer reg) : Prop where
  lookup : lookup.fault = none
  price : market.fault = none ∧ 1 ≤ market.closes.length
  count : count.fault = none
  prediction : s.predictions.has stamp.stamp.predictionId = false
  message : s.outbox.has stamp.stamp.messageId = false
  store : store.fault = none

theorem advance_ask_ok {tz : TimeZones} {β : Type} {w : Answer reg} {c : Call reg}
    {f : c.Ret → Service reg β} {ws : List (Answer reg)} {s' : Store reg} {a : c.Ret}
    (hok : handle tz w c s = (.ok a, s')) :
    ((ask c).bind f).advance (handle tz) (w :: ws) s = (f a).advance (handle tz) ws s' := by
  rw [ask_bind, advance_call, hok]
  rfl

/-- A free key lets the write through. -/
theorem writePrediction_returns {P : PredictionPipeline} {decision : Decision}
    {events : List ContextEvent} {depth : Nat} {chain : Chain reg} {supersedes : Option Uuid}
    {stamp store : Answer reg}
    (hkey : ∀ r ∈ s.predictions, r.idempotencyKey ≠ idempotencyKey record depth)
    (hcontext : s.contexts.has record.contextId)
    (hprediction : s.predictions.has stamp.stamp.predictionId = false)
    (hmessage : s.outbox.has stamp.stamp.messageId = false) (hstore : store.fault = none) :
    ((writePrediction record decision now events depth chain supersedes).advance (handle P.tz)
      [stamp, store] s).1.returned = some true := by
  unfold writePrediction
  simp only [bind_eq]
  rw [advance_ask_ok (show handle P.tz stamp .newPrediction s = (.ok stamp.stamp, s) from rfl)]
  generalize hmade : predictionMade record decision now events depth chain supersedes stamp.stamp =
    made
  have hmade' : made.predictionId = stamp.stamp.predictionId ∧
      made.messageId = stamp.stamp.messageId ∧ made.contextId = record.contextId := by
    rw [← hmade]
    exact ⟨rfl, rfl, rfl⟩
  obtain ⟨⟨stored, s'⟩, hresult⟩ := storePredictionWithOutbox_ok made
    (idempotencyKey record depth) supersedes.isSome (by rw [hmade'.1]; exact hprediction)
    (by rw [hmade'.2.2]; exact hcontext) (by rw [hmade'.2.1]; exact hmessage)
  have hhandle : handle P.tz store (.storePredictionWithOutbox made (idempotencyKey record depth)
      supersedes.isSome) s = (.ok stored, s') := by
    simp [handle, commit, hstore, hresult]
  unfold ask Proc.perform
  rw [advance_call, hhandle, onOk_ok, advance_ret]
  rcases (storePredictionWithOutbox_eq_ok hresult).2.2.2 with
    ⟨_, _, r, hr, hknown⟩ | ⟨htrue, _⟩
  · exact absurd hknown (hkey r hr)
  · rw [htrue]
    rfl

/-- **The first direct decision of a day** is stored unless the latest pending
prediction of the asset, of whatever day, has its direction. -/
theorem first_decision_stored_iff (P : PredictionPipeline) (now : Int) (s : Store reg)
    (record : ContextRecord reg) (decision : Decision) (events : List ContextEvent)
    (lookup market count stamp store : Answer reg) (hfirst : FirstOfDay P now s record)
    (hprice : PriceAvailable s lookup market count stamp store) :
    ((P.storePrediction record decision now events 0 []).advance (handle P.tz)
        [lookup, market, count, stamp, store] s).1.returned =
      some ((s.activeRow lookup.tie record.assetId.value).all
        (fun active => active.direction ≠ decision.direction)) := by
  obtain ⟨z, hz, htrading, hnone⟩ := hfirst.day
  obtain ⟨c, hc, hid, hversion, hstate⟩ := hfirst.context
  obtain ⟨entry, _, _, hresolve⟩ := record.assetId.resolve_eq_ok
  have htz : P.tz (reg.toSeries entry).timezone = some z := (zoneOf_of_resolve hresolve).symm.trans hz
  have hkey := direct_key_new hfirst.reached hc hversion hstate
  have hlookup : handle P.tz lookup (.latestActivePrediction record.assetId) s =
      (.ok ((s.activeRow lookup.tie record.assetId.value).map fun row =>
        ⟨row.predictionId, row.direction, row.magnitude⟩), s) := by
    simp [handle, hprice.lookup, commit, latestActivePrediction]
  have hmarket : handle P.tz market (.recentCloses record.assetId) s = (.ok market.closes, s) := by
    simp [handle, Answer.closesRead, hprice.price.1]
  have hcount : handle P.tz count (.countPredictionsOn record.assetId (z.localDateIn now)
      (reg.toSeries entry).timezone) s = (.ok 0, s) := by
    simp [handle, hprice.count, commit, countPredictionsOn, htz, hnone]
  have hopen : P.isMarketOpen record.assetId now =
      (ask (.recentCloses record.assetId)).bind fun closes => .ret (1 ≤ closes.length : Bool) := by
    unfold isMarketOpen marketZone zone
    simp only [hresolve, htz, bind_eq, pure_eq, ret_bind, htrading, if_true]
  have hlimit : P.withinDailyLimit record.assetId now =
      (ask (.countPredictionsOn record.assetId (z.localDateIn now)
        (reg.toSeries entry).timezone)).bind fun count =>
          .ret (count < P.settings.maxDailyPredictionsPerAsset : Bool) := by
    unfold withinDailyLimit marketZone zone
    simp only [hresolve, htz, bind_eq, pure_eq, ret_bind]
  have hlength : (1 ≤ market.closes.length : Bool) := decide_eq_true hprice.price.2
  have hpos : (0 < P.settings.maxDailyPredictionsPerAsset : Bool) :=
    decide_eq_true P.settings.daily_pos
  unfold storePrediction
  simp only [hopen, bind_eq, pure_eq, bind_assoc, ret_bind]
  rw [advance_ask_ok hlookup, advance_ask_ok hmarket, if_neg (by simp), if_pos hlength]
  have hcontext : s.contexts.has record.contextId :=
    has_eq_true_iff.mpr ⟨c, hc, hid⟩
  have hstored : (((P.withinDailyLimit record.assetId now).bind fun within =>
      if within then writePrediction record decision now events 0 [] none
      else .ret false).advance (handle P.tz) [count, stamp, store] s).1.returned = some true := by
    rw [hlimit, bind_assoc, advance_ask_ok hcount, ret_bind, if_pos hpos]
    exact writePrediction_returns hkey hcontext hprice.prediction hprice.message hprice.store
  unfold storeIfTurned
  cases s.activeRow lookup.tie record.assetId.value with
  | none => exact hstored
  | some a =>
    by_cases hdirection : a.direction = decision.direction
    · simp [hdirection, returned]
    · simpa [hdirection] using hstored

/-- A sweep on Thursday has claimed gold's first context. -/
def claimedThursday : List (Job goldRegistry × List (Answer goldRegistry)) :=
  [goldDelivery 1 (atHour 0 9), (.closeSweep, [{ now := atHour 0 10 }, noFault])]

/-- The record that the sweep has claimed. -/
def thursdayRecord : ContextRecord goldRegistry where
  contextId := 1
  assetId := gold
  contextVersion := 1
  windowStart := atHour 0 9
  windowEnd := atHour 0 9 + 15 * microsPerMinute
  state := .predicting

def goldRise : Decision where
  direction := .up
  magnitude := .large
  confidence := ⟨1 / 2, half_range⟩
  rationale := "rationale"
  contributingEdges := []
  contributingFactors := []

/-- With no prediction before, the first decision is stored. -/
theorem first_rise_stored :
    ((utcPipeline.storePrediction thursdayRecord goldRise (atHour 0 10) [] 0 []).advance
        (handle utcPipeline.tz) [noFault, { closes := [1] }, noFault, noFault, noFault]
        (goldRun claimedThursday)).1.returned = some true := by
  have hreached : Reaches utcPipeline (atHour 0 10) (goldRun claimedThursday) :=
    ⟨claimedThursday, by decide +kernel, by decide +kernel, rfl⟩
  refine (first_decision_stored_iff utcPipeline (atHour 0 10) (goldRun claimedThursday)
    thursdayRecord goldRise [] noFault { closes := [1] } noFault noFault noFault
    ⟨hreached, ?_, utc, utcPipeline_zoneOf gold, by decide +kernel, by decide +kernel⟩
    ⟨rfl, ⟨rfl, by decide⟩, rfl, by decide +kernel, by decide +kernel, rfl⟩).trans
      (by decide +kernel)
  refine ⟨⟨1, "GOLD", atHour 0 9, atHour 0 9 + 15 * microsPerMinute, 1, .predicting, atHour 0 9⟩,
    ?_, rfl, rfl, rfl⟩
  rw [← mem_rows]
  decide +kernel

/-- Gold rises on Thursday, and on Friday an event comes. -/
def risenThursday : List (Job goldRegistry × List (Answer goldRegistry)) :=
  [goldDelivery 1 (atHour 0 9), goldSweep (atHour 0 10) [goldDecision .up 1 openMarket],
    goldDelivery 2 (atHour 1 9)]

/-- On Friday a price is available, and gold rises. -/
def fridayRise : List (Answer goldRegistry) :=
  [{ now := atHour 1 10 }, noFault, noFault, noFault, { edges := [goldEdge .up] }, noFault,
    { closes := [1] }, noFault, noFault]

/-- **Yesterday's rise stands.**  Thursday's prediction has settled; Friday's first decision
goes in the same direction, and is not stored. -/
theorem standing_rise_suppresses_friday :
    (goldRun risenThursday).predictionsOn utc gold.value 1 = [] ∧
      (goldRun risenThursday).predictions.rows.map
        (fun row => (row.predictionId, row.decisionAt)) = [(1, atHour 0 10)] ∧
      utc.isSessionComplete (nextSession (utc.baselineSession (atHour 0 10) 17 0)) (atHour 1 10)
        17 0 = true ∧
      isTradingDay (utc.localDateIn (atHour 1 10)) = true ∧
      (Prediction.decide utcPipeline.settings.policy gold [goldEdge .up]
        [(.sanctions, .occurrence)] false).map (Option.map Decision.direction) = .ok (some .up) ∧
      ((utcPipeline.perform .closeSweep).advance (handle utcPipeline.tz) fridayRise
        (goldRun risenThursday)).1.returned = some 0 ∧
      (goldRun (risenThursday ++ [(.closeSweep, fridayRise)])).stateOf 2 = some .predicted ∧
      (goldRun (risenThursday ++ [(.closeSweep, fridayRise)])).predictionsOn utc gold.value 1 =
        [] := by
  refine ⟨?_, ?_, ?_, ?_, ?_, ?_, ?_, ?_⟩ <;> decide +kernel

/-- The directions of the asset's predictions that supersede none, as stored.  A closed
market stores one only as an asset's first. -/
def openStances (predictions : Table PredictionRow.predictionId) (assetId : String) :
    List Direction :=
  (predictions.rows.filter (fun row =>
    row.assetId = assetId ∧ row.supersedesPredictionId = none)).map PredictionRow.direction

/-- The asset's pending predictions of the latest decision time, any of which the lookup may
return. -/
def latestPending (s : Store reg) (assetId : String) : List PredictionRow :=
  s.predictions.rows.filter (fun row => row.assetId = assetId ∧ row.status = .pending ∧
    ∀ r ∈ s.predictions.rows, r.assetId = assetId → r.status = .pending →
      r.decisionAt ≤ row.decisionAt)

/-- When a prediction is stored that supersedes none, each row that the lookup may return
has the direction of the last one stored so. -/
def LastOpenStands (_ : Answer reg) (c : Call reg) (s : Store reg) : Prop :=
  match c with
  | .storePredictionWithOutbox message _ _ => message.supersedesPredictionId = none →
    ∀ row ∈ latestPending s message.assetId.value,
      ∀ direction ∈ (openStances s.predictions message.assetId.value).getLast?,
        row.direction = direction
  | _ => True

instance (w : Answer reg) (c : Call reg) (s : Store reg) : Decidable (LastOpenStands w c s) := by
  apply @Call.casesOn reg (fun c => Decidable (LastOpenStands w c s)) c <;> intros
  all_goals
    delta LastOpenStands
    infer_instance

/-- An asset with predictions has one that stands. -/
def Standing (predictions : Table PredictionRow.predictionId) : Prop :=
  ∀ r ∈ predictions, ∃ r' ∈ predictions, r'.assetId = r.assetId ∧ r'.status = .pending

theorem mem_latestPending (hpending : s.Pending assetId row)
    (hlatest : ∀ r, s.Pending assetId r → r.decisionAt ≤ row.decisionAt) :
    row ∈ latestPending s assetId := by
  refine mem_filter.mpr ⟨hpending.1, decide_eq_true ⟨hpending.2.1, hpending.2.2, ?_⟩⟩
  exact fun r hr hasset hstatus => hlatest r ⟨hr, hasset, hstatus⟩

/-- Where nothing is pending, the asset has no predictions. -/
theorem openStances_eq_nil (hstanding : Standing s.predictions)
    (hnone : ∀ r, ¬ s.Pending assetId r) : openStances s.predictions assetId = [] := by
  refine map_eq_nil_iff.mpr (filter_eq_nil_iff.mpr fun r hr hasset => ?_)
  obtain ⟨r', hr', hsame, hstatus⟩ := hstanding r hr
  exact hnone r' ⟨hr', hsame.trans (of_decide_eq_true hasset).1, hstatus⟩

section Alternation

variable
  (hread : P.StanceRead (fun w c x => LastOpenStands w c x.1) record.assetId now s active marketOpen)
  (houtcome : P.StoreOutcome record decision now depth active marketOpen s true s')

include hread houtcome

/-- A store keeps one that stands. -/
theorem Standing.stored (hstanding : Standing s.predictions) : Standing s'.predictions := by
  obtain ⟨row, hinserts, hsupersedes, hrows⟩ := stored_rows hread houtcome
  have hmem : ∀ r, r ∈ s'.predictions ↔ r ∈ s.predictions.rows.map
      (PredictionRow.withdrawnBy row.supersedesPredictionId) ++ [row] := by
    intro r
    rw [← mem_rows, hrows]
  intro r hr
  by_cases hasset : r.assetId = row.assetId
  · exact ⟨row, (hmem row).mpr mem_concat_self, hasset.symm, hinserts.pending⟩
  rcases mem_append.mp ((hmem r).mp hr) with hold | hnew
  · obtain ⟨r₀, hr₀, rfl⟩ := mem_map.mp hold
    rw [PredictionRow.withdrawnBy_columns.2.1] at hasset ⊢
    obtain ⟨r', hr', hsame, hstatus⟩ := hstanding r₀ hr₀
    refine ⟨r', (hmem r').mpr (mem_append_left _ (mem_map.mpr ⟨r', hr', ?_⟩)), hsame, hstatus⟩
    -- what is withdrawn is a prediction of the record's own asset
    refine PredictionRow.withdrawnBy_of_ne fun hself => ?_
    rw [hsupersedes] at hself
    split at hself
    · cases hself
    · obtain ⟨a, hactive, hid⟩ := Option.map_eq_some_iff.mp hself
      have ha := (hread.pending hactive).1
      have hsame' : a = r' := inj_on_of_nodup_map s.predictions.nodup ha.1 hr' hid
      exact hasset (hsame.symm.trans (hsame' ▸ ha.2.1.trans hinserts.asset.symm))
  · exact absurd (congrArg PredictionRow.assetId (mem_singleton.mp hnew)) hasset

/-- A stored prediction that supersedes none is the asset's first, or turns away from the
last one stored so. -/
theorem openStances_stored
    (hwritten : WriteAdmitted (fun w c x => LastOpenStands w c x.1) record.assetId s active
      marketOpen) (hstanding : Standing s.predictions) (assetId : String) :
    openStances s'.predictions assetId = openStances s.predictions assetId ∨
      (∀ direction ∈ (openStances s.predictions assetId).getLast?,
        direction ≠ decision.direction) ∧
      openStances s'.predictions assetId =
        openStances s.predictions assetId ++ [decision.direction] := by
  obtain ⟨row, hinserts, hsupersedes, hrows⟩ := stored_rows hread houtcome
  have hstored : openStances s'.predictions assetId = openStances s.predictions assetId ++
      if row.assetId = assetId ∧ row.supersedesPredictionId = none then [row.direction]
      else [] := by
    unfold openStances
    rw [hrows, filter_append, filter_map, map_append, map_map]
    congr 1
    · have hdirection : PredictionRow.direction ∘
          PredictionRow.withdrawnBy row.supersedesPredictionId = PredictionRow.direction :=
        funext fun r => PredictionRow.withdrawnBy_columns.2.2.1
      rw [hdirection]
      refine congrArg _ (filter_congr fun r _ => ?_)
      simp [PredictionRow.withdrawnBy_columns.2.1, PredictionRow.withdrawnBy_columns.2.2.2.2.1]
    · by_cases hown : row.assetId = assetId ∧ row.supersedesPredictionId = none <;> simp [hown]
  by_cases hown : row.assetId = assetId ∧ row.supersedesPredictionId = none
  · refine Or.inr ⟨fun direction hlast => ?_, by rw [hstored, if_pos hown, hinserts.direction]⟩
    obtain ⟨hasset, hnone⟩ := hown
    obtain rfl : record.assetId.value = assetId := hinserts.asset.symm.trans hasset
    cases hactive : active with
    | none =>
      rw [openStances_eq_nil hstanding fun r => hread.none_pending hactive] at hlast
      cases hlast
    | some a =>
      have hopen : marketOpen := by
        rw [hsupersedes, hactive] at hnone
        cases marketOpen with
        | true => rfl
        | false => cases hnone
      obtain ⟨w, message, _, _, _, hstands, hmessage, hfree⟩ := hwritten
      obtain ⟨ha, hlatest⟩ := hread.pending hactive
      have hsame : a.direction = direction := by
        refine hstands (hfree.trans (if_pos hopen)) a ?_ direction ?_ <;> rw [hmessage]
        · exact mem_latestPending ha hlatest
        · exact hlast
      rw [← hsame]
      cases houtcome with
      | stored _ _ hturned _ _ => exact hturned hopen a hactive
  · exact Or.inl (by rw [hstored, if_neg hown, append_nil])

end Alternation

/-- **Stances alternate on an open market** in every run in which, whenever a prediction is
stored there, each row that the lookup may return has the direction of the last one stored
there. -/
theorem open_stances_alternate (P : PredictionPipeline) (jobs : List (Job reg × List (Answer reg)))
    (hstands : JobsAdmitted (handle P.tz) P.perform LastOpenStands jobs ∅)
    (assetId : AssetId reg) :
    (openStances (runJobs (handle P.tz) P.perform jobs ∅).predictions assetId.value).IsChain
      (· ≠ ·) := by
  have hkeeps : RunKeeps P LastOpenStands (fun _ (s : Store reg) => Standing s.predictions ∧
      ∀ assetId, (openStances s.predictions assetId).IsChain (· ≠ ·)) := by
    refine runKeeps_of_predictions (fun _ predictions => Standing predictions ∧
      ∀ assetId, (openStances predictions assetId).IsChain (· ≠ ·)) (fun _ hs => hs) ?_
    rintro now s s' record decision depth active marketOpen hread houtcome hwritten ⟨hs, hchain⟩
    refine ⟨hs.stored hread houtcome, fun assetId => ?_⟩
    rcases openStances_stored hread houtcome hwritten hs assetId with hsame | ⟨hturned, hmore⟩
    · rw [hsame]
      exact hchain assetId
    · rw [hmore]
      refine isChain_append.mpr ⟨hchain assetId, isChain_singleton _, ?_⟩
      rintro direction hlast next hnext
      exact Option.some.inj hnext ▸ hturned direction hlast
  have hempty : Standing (∅ : Store reg).predictions ∧
      ∀ assetId, (openStances (∅ : Store reg).predictions assetId).IsChain (· ≠ ·) :=
    ⟨fun r hr => absurd hr (not_mem_empty r), fun _ => isChain_nil⟩
  exact (run_invariant_untimed hkeeps hempty hstands).2 assetId.value

theorem turned_thursday_alternates :
    openStances (goldRun turnedThursday).predictions gold.value = [.up, .down] ∧
      (openStances (goldRun turnedThursday).predictions gold.value).IsChain (· ≠ ·) :=
  ⟨by decide +kernel,
    open_stances_alternate utcPipeline turnedThursday (by decide +kernel) gold⟩

/-- One sweep stores two predictions of gold; on Friday the lookup returns the first. -/
def tiedThursday : List (Job goldRegistry × List (Answer goldRegistry)) :=
  [goldDelivery 1 (atHour 0 9), goldDelivery 2 (atHour 0 10),
    goldSweep (atHour 0 11) [goldDecision .up 1 openMarket, goldDecision .down 2 openMarket],
    goldDelivery 3 (atHour 1 9),
    goldSweep (atHour 1 10) [goldDecision .down 3 openMarket (fun predictionId => predictionId)]]

/-- **A tie repeats a direction.**  All three predictions are stored on the open
market, and the last two of them go the same way. -/
theorem tie_repeats_direction : (goldRun tiedThursday).predictions.rows.map
        (fun row => (row.direction, row.decisionAt, row.supersedesPredictionId)) =
      [(.up, atHour 0 11, none), (.down, atHour 0 11, none), (.down, atHour 1 10, none)] ∧
    ¬ (openStances (goldRun tiedThursday).predictions gold.value).IsChain (· ≠ ·) := by
  refine ⟨?_, ?_⟩ <;> decide +kernel

/-- Gold rises on Thursday, falls on Saturday and rises on Monday. -/
def risenMonday : List (Job goldRegistry × List (Answer goldRegistry)) :=
  [goldDelivery 1 (atHour 0 9), goldSweep (atHour 0 10) [goldDecision .up 1 openMarket],
    goldDelivery 2 (atHour 2 9), goldSweep (atHour 2 10) [goldDecision .down 2 []],
    goldDelivery 3 (atHour 4 9), goldSweep (atHour 4 10) [goldDecision .up 3 openMarket]]

/-- **A weekend repeats a direction.**  Saturday's prediction withdraws Thursday's, and
Monday's goes the same way as Thursday's. -/
theorem weekend_repeats_direction : (goldRun risenMonday).predictions.rows.map
        (fun row => (row.direction, row.decisionAt, row.supersedesPredictionId)) =
      [(.up, atHour 0 10, none), (.down, atHour 2 10, some 1), (.up, atHour 4 10, none)] ∧
    openStances (goldRun risenMonday).predictions gold.value = [.up, .up] := by
  refine ⟨?_, ?_⟩ <;> decide +kernel

end Prediction
