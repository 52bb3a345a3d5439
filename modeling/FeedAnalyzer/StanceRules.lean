import FeedAnalyzer.PredictionCalls

/-!
# What becomes of a decision

`StoreOutcome` lists what `_store_prediction` can do, and `storePrediction_meets` says that
it does nothing else.  The specification is over the handler that logs the last call: only
the call that follows the lookup of the standing prediction tells whether the market is open.
-/

namespace Prediction

open Feed Transact Calendar Proc Store

variable {reg : Registry}

namespace Store

variable {s : Store reg} {tie : Uuid → Nat} {assetId : String} {row : PredictionRow}

def Pending (s : Store reg) (assetId : String) (row : PredictionRow) : Prop :=
  row ∈ s.predictions ∧ row.assetId = assetId ∧ row.status = .pending

theorem activeRow_eq_some (hactive : s.activeRow tie assetId = some row) :
    s.Pending assetId row ∧ ∀ r, s.Pending assetId r → r.decisionAt ≤ row.decisionAt := by
  obtain ⟨hrow, hp, hfirst⟩ := head?_selectOrdered hactive
  simp only [decide_eq_true_eq] at hp
  refine ⟨⟨hrow, hp.1, hp.2⟩, fun r hr => ?_⟩
  have hle := hfirst r hr.1 (by simp [hr.2.1, hr.2.2])
  omega

theorem not_pending_of_activeRow (hnone : s.activeRow tie assetId = none) :
    ¬ s.Pending assetId row := by
  rintro ⟨hrow, hasset, hstatus⟩
  have hp := head?_selectOrdered_eq_none hnone hrow
  simp [hasset, hstatus] at hp

end Store

/-- What the environment admits, at a store and the call before. -/
abbrev Admits (reg : Registry) : Type :=
  Answer reg → Call reg → Store reg × Option (Call reg) → Prop

namespace PredictionPipeline

variable (P : PredictionPipeline)

/-- The zone of the asset's market, when it is known. -/
def zoneOf (assetId : AssetId reg) : Option Zone :=
  match reg.resolve assetId.value with
  | .error _ => none
  | .ok series => P.tz series.timezone

/-- On a trading day, whether a price could be read. -/
def MarketRead (A : Admits reg) (assetId : AssetId reg) (now : Int) (s : Store reg)
    (marketOpen : Bool) : Prop :=
  ∃ z, P.zoneOf assetId = some z ∧
    ((isTradingDay (z.localDateIn now) = false ∧ marketOpen = false) ∨
      (isTradingDay (z.localDateIn now) = true ∧ ∃ w closes,
        A w (.recentCloses assetId) (s, some (.latestActivePrediction assetId)) ∧
        w.closesRead = .ok closes ∧ marketOpen = (1 ≤ closes.length : Bool)))

/-- What the two reads of `_store_prediction` return. -/
structure StanceRead (A : Admits reg) (assetId : AssetId reg) (now : Int) (s : Store reg)
    (active : Option PredictionRow) (marketOpen : Bool) : Prop where
  active : ∃ w last, A w (.latestActivePrediction assetId) (s, last) ∧
    active = s.activeRow w.tie assetId.value
  market : P.MarketRead A assetId now s marketOpen

/-- The write supersedes none on an open market, and the standing prediction otherwise. -/
def WriteAdmitted (A : Admits reg) (assetId : AssetId reg) (s : Store reg)
    (active : Option PredictionRow) (marketOpen : Bool) : Prop :=
  ∃ w message key withdraws last,
    A w (.storePredictionWithOutbox message key withdraws) (s, last) ∧
      message.assetId = assetId ∧ message.supersedesPredictionId =
        if marketOpen then none else active.map PredictionRow.predictionId

/-- The prediction is inserted, and the one it supersedes withdrawn. -/
structure Inserts (record : ContextRecord reg) (decision : Decision) (now : Int) (depth : Nat)
    (s s' : Store reg) (row : PredictionRow) : Prop where
  asset : row.assetId = record.assetId.value
  context : row.contextId = record.contextId
  direction : row.direction = decision.direction
  magnitude : row.magnitude = decision.magnitude
  confidence : row.confidence = decision.confidence.1
  decisionAt : row.decisionAt = now
  key : row.idempotencyKey = idempotencyKey record depth
  pending : row.status = .pending
  fresh : s.predictions.has row.predictionId = false
  new_key : ∀ r ∈ s.predictions, r.idempotencyKey ≠ idempotencyKey record depth
  predictions : s'.predictions = (s.predictions.insertNew row).updateWhere
    (fun r => row.supersedesPredictionId = some r.predictionId ∧ r.status = .pending)
    PredictionRow.withdrawn PredictionRow.predictionId_withdrawn
  contexts : s'.contexts =
    (s.setStateWhere (fun r => r.contextId = record.contextId) .predicted).contexts

/-- **What becomes of a decision**, given the standing prediction and the
market. -/
inductive StoreOutcome (record : ContextRecord reg) (decision : Decision) (now : Int)
    (depth : Nat) (active : Option PredictionRow) (marketOpen : Bool) (s : Store reg) :
    Bool → Store reg → Prop where
  /-- A propagated decision does not overturn the standing prediction. -/
  | contradicts {a : PredictionRow} (hdepth : 0 < depth) (hactive : active = some a)
      (hdirection : a.direction ≠ decision.direction) :
      StoreOutcome record decision now depth active marketOpen s false s
  /-- The open market keeps a direction that stands. -/
  | unchanged {a : PredictionRow} (hopen : marketOpen = true) (hactive : active = some a)
      (hdirection : a.direction = decision.direction) :
      StoreOutcome record decision now depth active marketOpen s false s
  /-- The daily limit is reached. -/
  | limited {z : Zone} (hopen : marketOpen = true) (hz : P.zoneOf record.assetId = some z)
      (hcount : P.settings.maxDailyPredictionsPerAsset ≤
        (s.predictionsOn z record.assetId.value (z.localDateIn now)).length) :
      StoreOutcome record decision now depth active marketOpen s false s
  /-- The idempotency key is known. -/
  | duplicate {r : PredictionRow} {s' : Store reg} (hr : r ∈ s.predictions)
      (hkey : r.idempotencyKey = idempotencyKey record depth) (hsame : s.SamePredictions s')
      (hcontexts : s'.contexts =
        (s.setStateWhere (fun r => r.contextId = record.contextId) .predicted).contexts) :
      StoreOutcome record decision now depth active marketOpen s false s'
  /-- The prediction is stored. -/
  | stored {row : PredictionRow} {s' : Store reg}
      (hinserts : Inserts record decision now depth s s' row)
      (hagrees : 0 < depth → ∀ a, active = some a → a.direction = decision.direction)
      (hturned : marketOpen = true → ∀ a, active = some a → a.direction ≠ decision.direction)
      (hlimit : marketOpen = true → ∃ z, P.zoneOf record.assetId = some z ∧
        (s.predictionsOn z record.assetId.value (z.localDateIn now)).length <
          P.settings.maxDailyPredictionsPerAsset)
      (hsupersedes : row.supersedesPredictionId =
        if marketOpen then none else active.map PredictionRow.predictionId) :
      StoreOutcome record decision now depth active marketOpen s true s'

section Procedure

variable {P} {A : Admits reg} {s : Store reg} {last : Option (Call reg)}

/-- The store is still the one the procedure started from. -/
abbrev At (s : Store reg) (x : Store reg × Option (Call reg)) : Prop := x.1 = s

theorem zoneOf_of_resolve {assetId : AssetId reg} {series : AssetReferenceSeries}
    (hresolve : reg.resolve assetId.value = .ok series) :
    P.zoneOf assetId = P.tz series.timezone := by
  simp only [zoneOf, hresolve]

theorem marketZone_meets (timezoneName : String) (x : Store reg × Option (Call reg)) :
    (P.marketZone timezoneName : Service reg Zone).Meets
      (logged (handle P.tz)) A (At s)
      (fun r y => y = x ∧ ∀ z, r = .ok z → P.tz timezoneName = some z) x := by
  unfold marketZone zone
  cases htz : P.tz timezoneName with
  | none => exact ⟨rfl, fun z hz => by cases hz⟩
  | some z => exact ⟨rfl, fun z' hz' => congrArg some (Except.ok.inj hz')⟩

theorem isMarketOpen_meets (assetId : AssetId reg) (now : Int) :
    (P.isMarketOpen assetId now).Meets (logged (handle P.tz)) A (At s)
      (fun r y => At s y ∧ ∀ b, r = .ok b → P.MarketRead A assetId now s b)
      (s, some (.latestActivePrediction assetId)) := by
  obtain ⟨entry, _, _, hresolve⟩ := assetId.resolve_eq_ok
  unfold isMarketOpen
  rw [hresolve]
  refine Meets.bind ((marketZone_meets _ _).mono ?_)
  rintro (e | z) y ⟨rfl, hz⟩
  · exact ⟨rfl, fun b hb => by cases hb⟩
  have hzone : P.zoneOf assetId = some z := (zoneOf_of_resolve hresolve).trans (hz z rfl)
  change Meets _ _ _ _ (if isTradingDay (z.localDateIn now) then _ else _) _
  split
  · next htrading =>
    refine meets_perform rfl (fun w closes hw hok => ?_)
      fun w e _ _ => ⟨rfl, fun b hb => by cases hb⟩
    refine ⟨rfl, fun b hb => ⟨z, hzone, Or.inr ⟨htrading, w, closes, hw, hok, ?_⟩⟩⟩
    exact (Except.ok.inj hb).symm
  · next hclosed =>
    refine ⟨rfl, fun b hb => ⟨z, hzone, Or.inl ⟨by simpa using hclosed, ?_⟩⟩⟩
    exact (Except.ok.inj hb).symm

theorem withinDailyLimit_meets (assetId : AssetId reg) (now : Int) :
    (P.withinDailyLimit assetId now).Meets (logged (handle P.tz)) A (At s)
      (fun r y => At s y ∧ ∀ b, r = .ok b → ∃ z, P.zoneOf assetId = some z ∧
        b = ((s.predictionsOn z assetId.value (z.localDateIn now)).length <
          P.settings.maxDailyPredictionsPerAsset : Bool)) (s, last) := by
  obtain ⟨entry, _, _, hresolve⟩ := assetId.resolve_eq_ok
  unfold withinDailyLimit
  rw [hresolve]
  refine Meets.bind ((marketZone_meets _ _).mono ?_)
  rintro (e | z) y ⟨rfl, hz⟩
  · exact ⟨rfl, fun b hb => by cases hb⟩
  have hzone : P.zoneOf assetId = some z := (zoneOf_of_resolve hresolve).trans (hz z rfl)
  refine meets_perform rfl (fun w count _ hok => ?_)
    fun w e _ herror => ⟨?_, fun b hb => by cases hb⟩
  · change (handle P.tz w (.countPredictionsOn assetId (z.localDateIn now) _) s).1 = _ at hok
    have hcount := (commit_eq_ok hok).2
    simp only [countPredictionsOn, hz z rfl, Except.ok.injEq, Prod.mk.injEq] at hcount
    refine ⟨hcount.2.symm, fun b hb => ⟨z, hzone, ?_⟩⟩
    rw [hcount.1]
    exact (Except.ok.inj hb).symm
  · exact handle_eq_error herror

variable (record : ContextRecord reg) (decision : Decision) (now : Int)
  (events : List ContextEvent) (depth : Nat) (chain : Chain reg)

/-- Writing the prediction: a known key, or the insertion. -/
theorem writePrediction_meets (supersedes : Option Uuid) :
    (writePrediction record decision now events depth chain supersedes).Meets
      (logged (handle P.tz)) A (At s)
      (fun r y => (∀ e, r = .error e → At s y) ∧ (r = .ok false → (∃ row ∈ s.predictions,
          row.idempotencyKey = idempotencyKey record depth) ∧ s.SamePredictions y.1 ∧
          y.1.contexts =
            (s.setStateWhere (fun r => r.contextId = record.contextId) .predicted).contexts) ∧
        (r = .ok true → (∃ row, Inserts record decision now depth s y.1 row ∧
          row.supersedesPredictionId = supersedes) ∧ ∃ w message key withdraws last,
            A w (.storePredictionWithOutbox message key withdraws) (s, last) ∧
              message.assetId = record.assetId ∧
              message.supersedesPredictionId = supersedes)) (s, last) := by
  refine meets_perform (I := Surroundings reg) rfl
    (fun w stamp _ _ => ?_) fun w e _ herror => by cases herror
  refine meets_call (I := Surroundings reg) rfl fun w' hw' => ?_
  refine ⟨fun e herror => handle_eq_error herror, fun hok => ?_, fun hok => ?_⟩
  all_goals
    change (handle P.tz w' (.storePredictionWithOutbox _ _ _) s).1 = _ at hok
  · obtain ⟨hcontexts, _, _, hcases⟩ := storePredictionWithOutbox_eq_ok (commit_eq_ok hok).2
    rcases hcases with ⟨_, hsame, hkey⟩ | ⟨htrue, _⟩
    · exact ⟨hkey, hsame, hcontexts⟩
    · cases htrue
  · obtain ⟨hcontexts, _, _, hcases⟩ := storePredictionWithOutbox_eq_ok (commit_eq_ok hok).2
    rcases hcases with ⟨hfalse, _⟩ | ⟨_, hnew, hfresh, _, hpredictions⟩
    · cases hfalse
    · refine ⟨⟨predictionRow (predictionMade record decision now events depth chain supersedes
        stamp) (idempotencyKey record depth), ⟨rfl, rfl, rfl, rfl, rfl, rfl, rfl, rfl, hfresh,
          hnew, ?_, hcontexts⟩, rfl⟩, w', _, _, _, _, hw', rfl, rfl⟩
      refine hpredictions.trans ?_
      -- the flag is set exactly when there is something to supersede
      congr 1
      funext r
      cases supersedes with
      | _ => simp [predictionMade, predictionRow]

variable (P A) in
/-- An exception leaves the store untouched. -/
def StoreAnswer (decision : Decision) (now : Int) (depth : Nat) (s : Store reg)
    (r : Except PredictionError Bool) (y : Store reg × Option (Call reg)) : Prop :=
  (∀ e, r = .error e → At s y) ∧ ∀ stored, r = .ok stored → ∃ active marketOpen,
    P.StanceRead A record.assetId now s active marketOpen ∧
      P.StoreOutcome record decision now depth active marketOpen s stored y.1 ∧
      (stored = true → WriteAdmitted A record.assetId s active marketOpen)

section Stance

variable {record decision now events depth chain} {active : Option PredictionRow}
  {marketOpen : Bool} {y : Store reg × Option (Call reg)}

theorem storeAnswer_error {e : PredictionError} (hat : At s y) :
    P.StoreAnswer A record decision now depth s (.error e) y :=
  ⟨fun _ _ => hat, fun b hb => by cases hb⟩

variable (hstance : P.StanceRead A record.assetId now s active marketOpen)
  (hagrees : 0 < depth → ∀ a, active = some a → a.direction = decision.direction)

include hstance

theorem storeAnswer_ok {stored : Bool}
    (houtcome : P.StoreOutcome record decision now depth active marketOpen s stored y.1)
    (hwritten : stored = true → WriteAdmitted A record.assetId s active marketOpen) :
    P.StoreAnswer A record decision now depth s (.ok stored) y := by
  refine ⟨fun e he => (by cases he), fun b hb => ⟨active, marketOpen, hstance, ?_⟩⟩
  obtain rfl := Except.ok.inj hb
  exact ⟨houtcome, hwritten⟩

/-- A write that meets its own key changes nothing, whatever it supersedes. -/
theorem writePrediction_answers {supersedes : Option Uuid} (hsupersedes : supersedes =
      if marketOpen then none else active.map PredictionRow.predictionId)
    (hout : ∀ {row s'}, Inserts record decision now depth s s' row →
      row.supersedesPredictionId = supersedes →
      P.StoreOutcome record decision now depth active marketOpen s true s') :
    (writePrediction record decision now events depth chain supersedes).Meets
      (logged (handle P.tz)) A (At s) (P.StoreAnswer A record decision now depth s)
      (s, last) := by
  refine (writePrediction_meets record decision now events depth chain supersedes).mono ?_
  rintro (e | stored) y ⟨herror, hfalse, hstored⟩
  · exact storeAnswer_error (herror e rfl)
  cases stored with
  | false =>
    obtain ⟨⟨r, hr, hkey⟩, hsame, hcontexts⟩ := hfalse rfl
    exact storeAnswer_ok hstance (.duplicate hr hkey hsame hcontexts) nofun
  | true =>
    obtain ⟨⟨row, hinserts, hrow⟩, w, message, key, withdraws, last, hw, hasset, hmessage⟩ :=
      hstored rfl
    exact storeAnswer_ok hstance (hout hinserts hrow) fun _ =>
      ⟨w, message, key, withdraws, last, hw, hasset, hmessage.trans hsupersedes⟩

include hagrees

theorem storeIfTurned_answers (hopen : marketOpen = true) :
    (P.storeIfTurned record decision now events depth chain
      (active.map fun a => ⟨a.predictionId, a.direction, a.magnitude⟩)).Meets
      (logged (handle P.tz)) A (At s) (P.StoreAnswer A record decision now depth s)
      (s, last) := by
  unfold storeIfTurned
  split
  · next hsame =>
    cases active with
    | none => cases hsame
    | some a => exact storeAnswer_ok hstance (.unchanged hopen rfl (by simpa using hsame)) nofun
  next hturned =>
  refine Meets.bind ((withinDailyLimit_meets record.assetId now).mono ?_)
  rintro (e | within) ⟨s₁, last₁⟩ ⟨hs, hlimit⟩
  · exact storeAnswer_error hs
  obtain rfl : s₁ = s := hs
  obtain ⟨z, hz, hwithin⟩ := hlimit within rfl
  change Meets _ _ _ _ (if within then _ else _) _
  split
  · next htrue =>
    refine writePrediction_answers hstance (by rw [if_pos hopen]) fun hinserts hnone =>
      .stored hinserts hagrees (fun _ a hactive heq => ?_) (fun _ => ⟨z, hz, ?_⟩)
        (by rw [hnone, if_pos hopen])
    · exact hturned (by simp [hactive, heq])
    · simpa [htrue] using hwithin
  · next hfull =>
    refine storeAnswer_ok hstance (.limited hopen hz ?_) nofun
    simpa [hfull] using hwithin

end Stance

/-- **The specification of `_store_prediction`**: up to its last call, and after an
exception, the store is untouched. -/
theorem storePrediction_meets : (P.storePrediction record decision now events depth chain).Meets
    (logged (handle P.tz)) A (At s) (P.StoreAnswer A record decision now depth s)
    (s, last) := by
  refine meets_perform rfl (fun w found hw hok => ?_)
    fun w e _ herror => storeAnswer_error (handle_eq_error herror)
  change (handle P.tz w (.latestActivePrediction record.assetId) s).1 = _ at hok
  have hread := (commit_eq_ok hok).2
  simp only [latestActivePrediction, Except.ok.injEq, Prod.mk.injEq] at hread
  obtain ⟨rfl, hsame⟩ := hread
  change Meets _ _ _ _ _ ((handle P.tz w (.latestActivePrediction record.assetId) s).2, _)
  rw [show (handle P.tz w (.latestActivePrediction record.assetId) s).2 = s from hsame.symm]
  refine Meets.bind ((isMarketOpen_meets record.assetId now).mono ?_)
  rintro (e | marketOpen) ⟨s₁, last₁⟩ ⟨hs, hmarket⟩
  · exact storeAnswer_error hs
  obtain rfl : s₁ = s := hs
  have hstance : P.StanceRead A record.assetId now s₁
      (s₁.activeRow w.tie record.assetId.value) marketOpen :=
    ⟨⟨w, last, hw, rfl⟩, hmarket marketOpen rfl⟩
  generalize s₁.activeRow w.tie record.assetId.value = active at hstance
  change Meets _ _ _ _ (if _ then _ else if _ then _ else _) _
  split
  · next hcontra =>
    obtain ⟨hdepth, hany⟩ := hcontra
    cases active with
    | none => cases hany
    | some a =>
      exact storeAnswer_ok hstance (.contradicts hdepth rfl (by simpa using hany)) nofun
  next hnot =>
  have hagrees : 0 < depth → ∀ a, active = some a → a.direction = decision.direction := by
    intro hdepth a hactive
    by_contra hdirection
    exact hnot ⟨hdepth, by simp [hactive, hdirection]⟩
  split
  · next hopen => exact storeIfTurned_answers hstance hagrees hopen
  · next hclosed =>
    have hactive : (active.map fun a => (⟨a.predictionId, a.direction, a.magnitude⟩ :
        ActivePrediction)).map ActivePrediction.predictionId =
          if marketOpen then none else active.map PredictionRow.predictionId := by
      rw [if_neg hclosed, Option.map_map]
      rfl
    exact writePrediction_answers hstance hactive fun hinserts hsupersedes =>
      .stored hinserts hagrees (fun hopen => absurd hopen hclosed)
        (fun hopen => absurd hopen hclosed) (hsupersedes.trans hactive)

end Procedure

end PredictionPipeline

end Prediction
