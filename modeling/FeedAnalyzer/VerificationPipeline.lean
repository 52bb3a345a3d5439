import FeedAnalyzer.VerificationStore

/-!
# The Verification pipeline

`process_prediction` creates a prediction's evaluation and withdraws the superseded one;
`process_price` validates an observation against its evaluation and writes the score.
Nothing ties the check of a status to the write that follows it.
-/

namespace Verification

open Feed Transact Calendar Proc Store

/-- The scoring policy. -/
structure VerificationSettings where
  deadband : Rat := 3 / 1000
  magnitudeMediumMin : Rat := 1 / 100
  magnitudeLargeMin : Rat := 3 / 100
  deadband_range : 0 ≤ deadband ∧ deadband < 1 := by decide +kernel
  medium_range : 0 < magnitudeMediumMin ∧ magnitudeMediumMin < 1 := by decide +kernel
  large_range : 0 < magnitudeLargeMin ∧ magnitudeLargeMin ≤ 1 := by decide +kernel

/-- The service's collaborators besides the repository. -/
structure VerificationPipeline where
  settings : VerificationSettings := {}
  timeZones : TimeZones
  uuid5 : Uuid → String → Uuid

/-- The deterministic close-to-close score of one evaluation. -/
structure ScoreOutcome where
  actualReturn : Rat
  actualDirection : Direction
  actualMagnitude : Magnitude
  isCorrect : Bool
  score : Rat

/-- Score one evaluation from its two immutable closes. -/
def score (settings : VerificationSettings) (baselineClose settlementClose : Rat)
    (predictedDirection : Direction) : ScoreOutcome :=
  let actualReturn := (settlementClose - baselineClose) / baselineClose
  let magnitudeAbs := if actualReturn < 0 then -actualReturn else actualReturn
  let actualDirection : Direction :=
    if magnitudeAbs < settings.deadband then .neutral
    else if 0 < actualReturn then .up
    else .down
  let actualMagnitude : Magnitude :=
    if magnitudeAbs < settings.magnitudeMediumMin then .small
    else if magnitudeAbs < settings.magnitudeLargeMin then .medium
    else .large
  let isCorrect := decide (predictedDirection = actualDirection)
  { actualReturn, actualDirection, actualMagnitude, isCorrect, score := if isCorrect then 1 else 0 }

def namespaceUrl : Uuid := 0x6ba7b8119dad11d180b400c04fd430c8

variable {reg : Registry}

/-- `_validate_observation`, for one of the two closes. -/
def validateClose (series : AssetReferenceSeries) (evaluation : Evaluation reg)
    (observation : CloseObservation) : Except VerificationError Unit := do
  if observation.registryVersion ≠ evaluation.registryVersion then
    throw (.priceValidation "registry version mismatch")
  if observation.priceKind.value = "AVANZA_SAMPLED_CLOSE" then
    if observation.sample.map SampleProvenance.currency ≠ some series.currency then
      throw (.priceValidation "sampled currency/provenance mismatch")
  else if observation.priceKind.value ≠ series.priceKind then
    throw (.priceValidation "price kind mismatch")
  if observation.isAdjusted ≠ series.isAdjusted then
    throw (.priceValidation "adjustment flag mismatch")

/-- The observation agrees with the frozen policy and sessions. -/
def validateObservation (message : PriceObserved reg)
    (evaluation : Evaluation reg) : Except VerificationError Unit := do
  let series ← (reg.resolve evaluation.assetId.value).mapError .ofRegistry
  if message.assetId ≠ evaluation.assetId then
    throw (.priceValidation "asset mismatch")
  if message.baseline.session ≠ evaluation.baselineSession then
    throw (.priceValidation "baseline session mismatch")
  if message.settlement.session ≠ evaluation.settlementSession then
    throw (.priceValidation "settlement session mismatch")
  validateClose series evaluation message.baseline
  validateClose series evaluation message.settlement

namespace VerificationPipeline

variable (P : VerificationPipeline)

def requestNamespace : Uuid := P.uuid5 namespaceUrl "feed.verification.price-request"

def deterministicRequestId (predictionId : Uuid) (registryVersion : String) : Uuid :=
  P.uuid5 P.requestNamespace s!"{predictionId}|{registryVersion}"

/-- The prediction's series, and its sessions on the asset's own calendar. -/
def newEvaluation (message : PredictionMade reg) : Except VerificationError (Evaluation reg) :=
  match reg.resolve message.assetId.value with
  | .error (.unknownAsset e) =>
    .error (.invalidPrediction s!"unknown asset {message.assetId.value}: {e}")
  | .error (.valueError e) => .error (.valueError e)
  | .ok series =>
    match resolveBaselineSettlement P.timeZones message.decisionAt series.timezone
        series.sessionCompletionHour series.sessionCompletionMinute with
    | .error (.unsupportedTimezone e) => .error (.unsupportedTimezone e)
    | .ok (baselineSession, settlementSession) =>
      .ok
        { predictionId := message.predictionId
          contextId := message.contextId
          assetId := message.assetId
          predictedDirection := message.direction
          predictedMagnitude := message.magnitude
          confidence := message.confidence
          decisionAt := message.decisionAt
          baselineSession := baselineSession
          settlementSession := settlementSession
          marketCalendar := series.timezone
          registryVersion := series.registryVersion
          requestId := P.deterministicRequestId message.predictionId series.registryVersion
          correlationId := message.correlationId
          contributingEdges := message.contributingEdges
          sourceIds := []
          propagationChain := message.propagationChain }

def newPriceRequested (message : PredictionMade reg)
    (evaluation : Evaluation reg) (envelope : Envelope) : PriceRequested reg where
  messageId := envelope.messageId
  correlationId := message.correlationId
  causationId := some message.messageId
  occurredAt := envelope.now
  requestId := evaluation.requestId
  predictionId := message.predictionId
  assetId := message.assetId
  baselineSession := evaluation.baselineSession
  settlementSession := evaluation.settlementSession
  marketCalendar := evaluation.marketCalendar

/-- Resolve the sessions, request the prices once, and withdraw the superseded evaluation.
-/
def processPrediction (message : PredictionMade reg) :
    Proc (Repository reg) VerificationError Unit :=
  match P.newEvaluation message with
  | .error e => .fail e
  | .ok evaluation => do
    let envelope ← ask .newEnvelope
    let _created ← ask (.createEvaluationWithOutbox evaluation
        (newPriceRequested message evaluation envelope))
    match message.supersedesPredictionId with
    | none => pure ()
    | some superseded =>
      let _withdrawn ← ask (.withdrawEvaluation superseded)
      pure ()

/-- The `PredictionScored` of a validated observation. -/
def newPredictionScored (message : PriceObserved reg) (evaluation : Evaluation reg)
    (envelope : Envelope) : PredictionScored reg :=
  let outcome := score P.settings message.baseline.close message.settlement.close
    evaluation.predictedDirection
  { messageId := envelope.messageId
    correlationId := evaluation.correlationId
    causationId := some message.messageId
    occurredAt := envelope.now
    predictionId := evaluation.predictionId
    contextId := evaluation.contextId
    assetId := evaluation.assetId
    predictedDirection := evaluation.predictedDirection
    actualDirection := outcome.actualDirection
    predictedMagnitude := evaluation.predictedMagnitude
    actualMagnitude := outcome.actualMagnitude
    confidence := evaluation.confidence
    actualReturn := outcome.actualReturn
    isCorrect := outcome.isCorrect
    score := outcome.score
    contributingEdges := evaluation.contributingEdges
    sourceIds := evaluation.sourceIds
    baseline := message.baseline
    settlement := message.settlement
    scoredAt := envelope.now
    pricePolicy :=
      if message.baseline.sample.isSome then .avanzaSampledCloseV1 else .dailyCloseV1
    propagationChain := evaluation.propagationChain }

/-- Validate the observation, store it and write the score. -/
def scoreEvaluation (message : PriceObserved reg) (evaluation : Evaluation reg) :
    Proc (Repository reg) VerificationError Unit :=
  match validateObservation message evaluation with
  | .error e => .fail e
  | .ok () => do
    let _stored ← ask (.storePriceObservation message)
    let envelope ← ask .newEnvelope
    let _produced ← ask (.storeScoreWithOutbox (P.newPredictionScored message evaluation envelope))
    pure ()

/-- What `process_price` does with the evaluation it loaded. -/
def processLoaded (message : PriceObserved reg) :
    Option (Evaluation reg) → Proc (Repository reg) VerificationError Unit
  | none =>
    .fail (.orphanedObservation
      s!"no evaluation for request {message.requestId} (prediction {message.predictionId}, asset {message.assetId.value})")
  | some evaluation =>
    if evaluation.status = .withdrawn then pure ()
    else P.scoreEvaluation message evaluation

/-- Validate the observation and publish one `PredictionScored`. -/
def processPrice (message : PriceObserved reg) : Proc (Repository reg) VerificationError Unit := do
  let loaded ← ask (.loadEvaluationByRequestId message.requestId)
  P.processLoaded message loaded

end VerificationPipeline

/-- A message one of the two consumers receives. -/
inductive Delivery (reg : Registry) where
  | prediction (message : PredictionMade reg)
  | price (message : PriceObserved reg)

/-- The handler of a delivery. -/
def VerificationPipeline.process (P : VerificationPipeline) :
    Delivery reg → Proc (Repository reg) VerificationError Unit
  | .prediction message => P.processPrediction message
  | .price message => P.processPrice message

/-! ### Settled deliveries

The consumers finish a message that was handled, and those whose exception
they acknowledge or dead-letter.  Any other exception has the message
delivered again. -/

def settles : Except VerificationError Unit → Bool
  | .ok () => true
  | .error (.invalidPrediction _) => true
  | .error (.priceValidation _) => true
  | .error (.orphanedObservation _) => true
  | .error _ => false

variable {w : Answer} {e : VerificationError} {c : Call reg} {s s' : Store reg}
  {r : Except VerificationError Unit}

theorem settles_of_fault (hfault : w.error = some e) : settles (.error e) = false := by
  obtain ⟨message, _, rfl⟩ := Option.map_eq_some_iff.mp hfault
  rfl

theorem settles_of_handle_error (herror : (handle w c s).1 = .error e) :
    settles (.error e) = false := by
  cases c with
  | newEnvelope => simp [handle] at herror
  | createEvaluationWithOutbox evaluation request =>
    rcases (commit_eq_error herror).2 with hfault | hraise
    · exact settles_of_fault hfault
    · unfold createEvaluationWithOutbox at hraise
      split at hraise
      · cases hraise
      · split at hraise
        · cases hraise
          rfl
        · split at hraise
          · cases hraise
            rfl
          · cases hraise
  | storePriceObservation message =>
    rcases (commit_eq_error herror).2 with hfault | hraise
    · exact settles_of_fault hfault
    · cases hraise
  | loadEvaluationByRequestId requestId =>
    rcases (commit_eq_error herror).2 with hfault | hraise
    · exact settles_of_fault hfault
    · unfold loadEvaluationByRequestId at hraise
      split at hraise
      · cases hraise
      · split at hraise
        · cases hraise
        · next e' _ =>
          cases hraise
          cases e' <;> rfl
  | storeScoreWithOutbox scored =>
    rcases (commit_eq_error herror).2 with hfault | hraise
    · exact settles_of_fault hfault
    · unfold storeScoreWithOutbox at hraise
      split at hraise
      · cases hraise
      · split at hraise
        · cases hraise
          rfl
        · cases hraise
  | withdrawEvaluation predictionId =>
    rcases (commit_eq_error herror).2 with hfault | hraise
    · exact settles_of_fault hfault
    · cases hraise

theorem ends_ask {f : c.Ret → Proc (Repository reg) VerificationError Unit}
    (hends : ((ask c).bind f).Ends handle s r s') (hsettles : settles r) :
    ∃ w a, (handle w c s).1 = .ok a ∧ (f a).Ends handle (handle w c s).2 r s' := by
  rw [ask_bind] at hends
  rcases ends_call_onOk hends with ⟨w, a, hok, hrest⟩ | ⟨w, e, herror, rfl⟩
  · exact ⟨w, a, hok, hrest⟩
  · rw [settles_of_handle_error herror] at hsettles
    cases hsettles

namespace VerificationPipeline

variable {P : VerificationPipeline} {message : PredictionMade reg}

theorem newEvaluation_eq_ok {e : Evaluation reg} (hok : P.newEvaluation message = .ok e) :
    e.predictionId = message.predictionId ∧
      e.requestId = P.deterministicRequestId message.predictionId reg.registryVersion := by
  obtain ⟨entry, _, _, hresolve⟩ := message.assetId.resolve_eq_ok
  unfold newEvaluation at hok
  rw [hresolve] at hok
  dsimp only at hok
  split at hok
  · cases hok
  · cases hok
    exact ⟨rfl, rfl⟩

theorem settles_of_newEvaluation_error (herror : P.newEvaluation message = .error e) :
    settles (.error e) = false := by
  obtain ⟨entry, _, _, hresolve⟩ := message.assetId.resolve_eq_ok
  unfold newEvaluation at herror
  rw [hresolve] at herror
  dsimp only at herror
  split at herror
  · cases herror
    rfl
  · cases herror

/-- **What a settled prediction does**: it creates its evaluation, then
withdraws the one it supersedes. -/
theorem processPrediction_settled (hends : (P.processPrediction message).Ends handle s r s')
    (hsettles : settles r) :
    ∃ evaluation request created s₁, P.newEvaluation message = .ok evaluation ∧
      createEvaluationWithOutbox evaluation request s = .ok (created, s₁) ∧
      match message.supersedesPredictionId with
      | none => s' = s₁
      | some superseded =>
        ∃ withdrawn, withdrawEvaluation superseded s₁ = .ok (withdrawn, s') := by
  unfold processPrediction at hends
  cases hnew : P.newEvaluation message with
  | error e =>
    rw [hnew] at hends
    obtain ⟨rfl, _⟩ := hends
    rw [settles_of_newEvaluation_error hnew] at hsettles
    cases hsettles
  | ok evaluation =>
    simp only [hnew, bind_eq] at hends
    obtain ⟨w, envelope, henvelope, hends⟩ := ends_ask hends hsettles
    obtain ⟨w₁, created, hcreate, hends⟩ := ends_ask hends hsettles
    refine ⟨evaluation, _, created, _, rfl, (commit_eq_ok hcreate).2, ?_⟩
    cases hsup : message.supersedesPredictionId with
    | none =>
      rw [hsup] at hends
      exact hends.2
    | some superseded =>
      rw [hsup] at hends
      obtain ⟨w₂, withdrawn, hwithdraw, hends⟩ := ends_ask hends hsettles
      refine ⟨withdrawn, ?_⟩
      rw [hends.2]
      exact (commit_eq_ok hwithdraw).2

/-- **What a settled price observation does**: it scores the evaluation that it loads, if
that is not withdrawn and passes its validation. -/
theorem processPrice_settled {message : PriceObserved reg}
    (hends : (P.processPrice message).Ends handle s r s') (hsettles : settles r) :
    ∃ loaded, loadEvaluationByRequestId message.requestId s = .ok (loaded, s) ∧
      ((s' = s ∧ ∀ e, loaded = some e → e.status = .withdrawn ∨
          validateObservation message e ≠ .ok ()) ∨
        ∃ e envelope produced stored s₁, loaded = some e ∧ e.status ≠ .withdrawn ∧
          validateObservation message e = .ok () ∧
          storePriceObservation message s = .ok (stored, s₁) ∧
          storeScoreWithOutbox (P.newPredictionScored message e envelope) s₁ =
            .ok (produced, s')) := by
  obtain ⟨w, loaded, hload, hends⟩ := ends_ask hends hsettles
  have hloaded := (commit_eq_ok hload).2
  have hsame := (loadEvaluationByRequestId_eq_ok hloaded).1
  rw [show (handle w (.loadEvaluationByRequestId message.requestId) s).2 = s from hsame]
    at hends
  rw [hsame] at hloaded
  refine ⟨loaded, hloaded, ?_⟩
  cases loaded with
  | none => exact Or.inl ⟨hends.2, by simp⟩
  | some e =>
    by_cases hstatus : e.status = .withdrawn
    · simp only [processLoaded, hstatus, if_true] at hends
      exact Or.inl ⟨hends.2, by simp [hstatus]⟩
    · simp only [processLoaded, hstatus, if_false, scoreEvaluation] at hends
      cases hvalid : validateObservation message e with
      | error err =>
        rw [hvalid] at hends
        exact Or.inl ⟨hends.2, by simp [hvalid]⟩
      | ok u =>
        simp only [hvalid, bind_eq] at hends
        obtain ⟨w₁, stored, hstore, hends⟩ := ends_ask hends hsettles
        obtain ⟨w₂, envelope, henvelope, hends⟩ := ends_ask hends hsettles
        obtain ⟨w₃, produced, hscore, hends⟩ := ends_ask hends hsettles
        refine Or.inr ⟨e, envelope, produced, stored, _, rfl, hstatus, hvalid,
          (commit_eq_ok hstore).2, ?_⟩
        rw [hends.2]
        exact (commit_eq_ok hscore).2

end VerificationPipeline

end Verification
