import FeedAnalyzer.MarketCalendar
import FeedAnalyzer.TransactionProc

/-!
# The Verification database

The tables of the `verification` schema and the repository methods, each one transaction.
The second half says what each does to the status of an evaluation and to the
`PredictionScored` rows.
-/

namespace Verification

open Feed Transact List Table Option

inductive EvaluationStatus where
  | pending | awaitingPrice | scored | withdrawn
  deriving DecidableEq

/-- An evaluation of one prediction; its asset is a text in a row and an `AssetId` in the
record. -/
structure EvaluationRecord (A : Type) where
  predictionId : Uuid
  contextId : Uuid
  assetId : A
  predictedDirection : Direction
  predictedMagnitude : Magnitude
  confidence : Confidence
  decisionAt : Int
  baselineSession : Int
  settlementSession : Int
  marketCalendar : String
  registryVersion : String
  requestId : Uuid
  correlationId : Uuid
  contributingEdges : List ContributingEdge
  sourceIds : List String
  propagationChain : List (PropagationHop A)
  status : EvaluationStatus := .pending

abbrev Evaluation (reg : Registry) : Type := EvaluationRecord (AssetId reg)

def EvaluationRecord.withStatus {A : Type} (e : EvaluationRecord A)
    (status : EvaluationStatus) : EvaluationRecord A :=
  { e with status := status }

section

variable {A : Type} (e : EvaluationRecord A) (status : EvaluationStatus)

@[simp] theorem EvaluationRecord.predictionId_withStatus :
    (e.withStatus status).predictionId = e.predictionId := rfl

@[simp] theorem EvaluationRecord.requestId_withStatus :
    (e.withStatus status).requestId = e.requestId := rfl

@[simp] theorem EvaluationRecord.status_withStatus : (e.withStatus status).status = status := rfl

end

inductive VerificationError where
  | invalidPrediction (message : String)
  | priceValidation (message : String)
  | orphanedObservation (message : String)
  | unknownAsset (message : String)
  | valueError (message : String)
  | unsupportedTimezone (message : String)
  | uniqueViolation (constraint : String)
  | database (message : String)
  deriving DecidableEq

/-- An error of the registry, as it passes through the service. -/
def VerificationError.ofRegistry : RegistryError → VerificationError
  | .unknownAsset message => .unknownAsset message
  | .valueError message => .valueError message

section Rows

variable {reg : Registry}

def hopToRow (hop : PropagationHop (AssetId reg)) : PropagationHop String :=
  { hop with
    sourceAssetId := hop.sourceAssetId.value
    targetAssetId := hop.targetAssetId.value }

/-- `PropagationHop.model_validate`. -/
def hopFromRow (reg : Registry) (hop : PropagationHop String) :
    Except RegistryError (PropagationHop (AssetId reg)) := do
  let source ← AssetId.parse reg hop.sourceAssetId
  let target ← AssetId.parse reg hop.targetAssetId
  pure { hop with sourceAssetId := source, targetAssetId := target }

/-- Every insertion writes `'PENDING'`. -/
def EvaluationRecord.toRow (e : Evaluation reg) : EvaluationRecord String :=
  { e with
    assetId := e.assetId.value
    propagationChain := e.propagationChain.map hopToRow
    status := .pending }

/-- Read a row back, which raises for an undeclared asset. -/
def EvaluationRecord.fromRow (reg : Registry) (row : EvaluationRecord String) :
    Except RegistryError (Evaluation reg) := do
  let asset ← AssetId.parse reg row.assetId
  let chain ← row.propagationChain.mapM (hopFromRow reg)
  pure { row with assetId := asset, propagationChain := chain }

theorem hopFromRow_hopToRow (hop : PropagationHop (AssetId reg)) :
    hopFromRow reg (hopToRow hop) = .ok hop := by
  simp only [hopFromRow, hopToRow, AssetId.parse_value]
  rfl

theorem mapM_hopFromRow (chain : Chain reg) :
    (chain.map hopToRow).mapM (hopFromRow reg) = .ok chain := by
  induction chain with
  | nil => rfl
  | cons hop chain ih =>
    rw [map_cons, mapM_cons, hopFromRow_hopToRow, ih]
    rfl

/-- A stored evaluation is read back with the status its row has by then. -/
theorem fromRow_toRow (e : Evaluation reg) (status : EvaluationStatus) :
    EvaluationRecord.fromRow reg (e.toRow.withStatus status) = .ok (e.withStatus status) := by
  simp only [EvaluationRecord.fromRow, EvaluationRecord.toRow, EvaluationRecord.withStatus,
    AssetId.parse_value, mapM_hopFromRow]
  rfl

theorem fromRow_eq_ok {row : EvaluationRecord String} {e : Evaluation reg}
    (hread : EvaluationRecord.fromRow reg row = .ok e) :
    e.predictionId = row.predictionId ∧ e.status = row.status := by
  unfold EvaluationRecord.fromRow at hread
  cases hasset : AssetId.parse reg row.assetId with
  | error err =>
    rw [hasset] at hread
    cases hread
  | ok asset =>
    cases hchain : row.propagationChain.mapM (hopFromRow reg) with
    | error err =>
      rw [hasset, hchain] at hread
      cases hread
    | ok chain =>
      rw [hasset, hchain] at hread
      cases hread
      exact ⟨rfl, rfl⟩

end Rows

/-- A row of `price_observations`. -/
structure PriceObservationRow where
  requestId : Uuid
  predictionId : Uuid
  assetId : String
  baseline : CloseObservation
  settlement : CloseObservation

/-- A row of `scores`. -/
structure ScoreRow where
  predictionId : Uuid
  assetId : String
  predictedDirection : Direction
  actualDirection : Direction
  predictedMagnitude : Magnitude
  actualMagnitude : Magnitude
  confidence : Confidence
  actualReturn : Rat
  isCorrect : Bool
  score : Rat
  scoredAt : Int

inductive OutboxPayload (reg : Registry) where
  | priceRequested (message : PriceRequested reg)
  | predictionScored (message : PredictionScored reg)

/-- A row of `outbox_events`; the payload carries the message type. -/
structure OutboxRow (reg : Registry) where
  messageId : Uuid
  aggregateId : Uuid
  payload : OutboxPayload reg

/-- The row carries the `PredictionScored` of a prediction. -/
def OutboxRow.isScoreOf {reg : Registry} (predictionId : Uuid) (row : OutboxRow reg) : Bool :=
  match row.payload with
  | .predictionScored message => message.predictionId = predictionId
  | .priceRequested _ => false

/-- The tables.  `request_id` is unique besides the primary key. -/
structure Store (reg : Registry) where
  evaluations : Table (EvaluationRecord.predictionId (A := String))
  requestId_nodup : (evaluations.rows.map EvaluationRecord.requestId).Nodup
  priceObservations : Table PriceObservationRow.requestId
  scores : Table ScoreRow.predictionId
  outboxEvents : Table (@OutboxRow.messageId reg)

namespace Store

variable {reg : Registry}

instance : EmptyCollection (Store reg) where
  emptyCollection := ⟨∅, List.nodup_nil, ∅, ∅, ∅⟩

/-- `UPDATE evaluations SET status = … WHERE p`. -/
def setStatus (s : Store reg) (p : EvaluationRecord String → Bool)
    (status : EvaluationStatus) : Store reg :=
  { s with
    evaluations := s.evaluations.updateWhere p (fun row => row.withStatus status)
      (fun row => row.predictionId_withStatus status)
    requestId_nodup := by
      rw [Table.map_rows_updateWhere]
      · exact s.requestId_nodup
      · exact fun row => row.requestId_withStatus status }

/-- Insert the evaluation and the `PriceRequested`; `false` when it is there already. -/
def createEvaluationWithOutbox (evaluation : Evaluation reg) (request : PriceRequested reg)
    (s : Store reg) : Except VerificationError (Bool × Store reg) :=
  if s.evaluations.has evaluation.predictionId then .ok (false, s)
  else if hrequest : s.evaluations.rows.any
      (fun row => row.requestId = evaluation.requestId) = true then
    .error (.uniqueViolation "evaluations_request_id_key")
  else if s.outboxEvents.has request.messageId then
    .error (.uniqueViolation "outbox_events_pkey")
  else
    .ok (true, { s with
        evaluations := s.evaluations.insertNew evaluation.toRow
        requestId_nodup := by
          apply Table.nodup_map_insertNew s.requestId_nodup
          intro row hrow heq
          exact hrequest (List.any_eq_true.mpr ⟨row, hrow, decide_eq_true heq⟩)
        outboxEvents := s.outboxEvents.insertNew
          { messageId := request.messageId
            aggregateId := evaluation.predictionId
            payload := .priceRequested request } })

/-- Persist the dual-close observation, once for each request. -/
def storePriceObservation (message : PriceObserved reg) (s : Store reg) :
    Except VerificationError (Bool × Store reg) :=
  .ok (!s.priceObservations.has message.requestId, { s with
      priceObservations := s.priceObservations.insertNew
        { requestId := message.requestId
          predictionId := message.predictionId
          assetId := message.assetId.value
          baseline := message.baseline
          settlement := message.settlement } })

def loadEvaluationByRequestId (requestId : Uuid) (s : Store reg) :
    Except VerificationError (Option (Evaluation reg) × Store reg) :=
  match s.evaluations.rows.find? (fun row => row.requestId = requestId) with
  | none => .ok (none, s)
  | some row =>
    match EvaluationRecord.fromRow reg row with
    | .ok evaluation => .ok (some evaluation, s)
    | .error e => .error (.ofRegistry e)

/-- Mark a pending evaluation `WITHDRAWN`.  The method answers whether the tag `UPDATE n`
ends in the digit 1. -/
def withdrawEvaluation (predictionId : Uuid) (s : Store reg) :
    Except VerificationError (Bool × Store reg) :=
  let target (row : EvaluationRecord String) : Bool :=
    row.predictionId = predictionId ∧ row.status = .pending
  .ok (s.evaluations.rows.countP target % 10 = 1, s.setStatus target .withdrawn)

/-- Insert the score and the `PredictionScored`; `false` when it is there already.  Either
way the evaluation becomes `SCORED`, whatever it was. -/
def storeScoreWithOutbox (scored : PredictionScored reg) (s : Store reg) :
    Except VerificationError (Bool × Store reg) :=
  let target (row : EvaluationRecord String) : Bool := row.predictionId = scored.predictionId
  if s.scores.has scored.predictionId then .ok (false, s.setStatus target .scored)
  else if s.outboxEvents.has scored.messageId then
    .error (.uniqueViolation "outbox_events_pkey")
  else
    .ok (true, { s.setStatus target .scored with
        scores := s.scores.insertNew
          { predictionId := scored.predictionId
            assetId := scored.assetId.value
            predictedDirection := scored.predictedDirection
            actualDirection := scored.actualDirection
            predictedMagnitude := scored.predictedMagnitude
            actualMagnitude := scored.actualMagnitude
            confidence := scored.confidence
            actualReturn := scored.actualReturn
            isCorrect := scored.isCorrect
            score := scored.score
            scoredAt := scored.scoredAt }
        outboxEvents := s.outboxEvents.insertNew
          { messageId := scored.messageId
            aggregateId := scored.predictionId
            payload := .predictionScored scored } })

end Store

/-- The repository methods, and a fresh message id with the clock. -/
inductive Call (reg : Registry) where
  | createEvaluationWithOutbox (evaluation : Evaluation reg)
      (request : PriceRequested reg)
  | storePriceObservation (message : PriceObserved reg)
  | loadEvaluationByRequestId (requestId : Uuid)
  | storeScoreWithOutbox (scored : PredictionScored reg)
  | withdrawEvaluation (predictionId : Uuid)
  | newEnvelope

@[reducible] def Call.Ret {reg : Registry} : Call reg → Type
  | .createEvaluationWithOutbox _ _ => Bool
  | .storePriceObservation _ => Bool
  | .loadEvaluationByRequestId _ => Option (Evaluation reg)
  | .storeScoreWithOutbox _ => Bool
  | .withdrawEvaluation _ => Bool
  | .newEnvelope => Envelope

@[reducible] def Repository (reg : Registry) : Interface where
  Call := Call reg
  Ret := Call.Ret

/-- One call of the service. -/
abbrev ask {reg : Registry} (c : Call reg) : Proc (Repository reg) VerificationError c.Ret :=
  Proc.perform (I := Repository reg) c

theorem ask_bind {reg : Registry} {β : Type} (c : Call reg)
    (f : c.Ret → Proc (Repository reg) VerificationError β) :
    (ask c).bind f = .call c (Proc.onOk f) :=
  Proc.perform_bind (I := Repository reg) c f

/-- A database fault, or the id and the clock of a new message. -/
structure Answer where
  fault : Option String := none
  envelope : Envelope := ⟨0, 0⟩

/-- The exception of a fault. -/
def Answer.error (w : Answer) : Option VerificationError := w.fault.map .database

def handle {reg : Registry} : Handler (Repository reg) (Store reg) Answer VerificationError :=
  fun w c s =>
    match c with
    | .createEvaluationWithOutbox evaluation request =>
      commit w.error (Store.createEvaluationWithOutbox evaluation request) s
    | .storePriceObservation message => commit w.error (Store.storePriceObservation message) s
    | .loadEvaluationByRequestId requestId =>
      commit w.error (Store.loadEvaluationByRequestId requestId) s
    | .storeScoreWithOutbox scored => commit w.error (Store.storeScoreWithOutbox scored) s
    | .withdrawEvaluation predictionId => commit w.error (Store.withdrawEvaluation predictionId) s
    | .newEnvelope => (.ok w.envelope, s)

namespace Store

variable {reg : Registry} {s s' : Store reg}

def statusOf (s : Store reg) (predictionId : Uuid) : Option EvaluationStatus :=
  (s.evaluations.find? predictionId).map EvaluationRecord.status

/-- The outbox rows that carry a prediction's `PredictionScored`. -/
def scoreRows (s : Store reg) (predictionId : Uuid) : List (OutboxRow reg) :=
  s.outboxEvents.rows.filter (OutboxRow.isScoreOf predictionId)

theorem statusOf_setStatus (s : Store reg) (p : EvaluationRecord String → Bool)
    (status : EvaluationStatus) (predictionId : Uuid) :
    (s.setStatus p status).statusOf predictionId = (s.evaluations.find? predictionId).map
        (fun row => if p row then status else row.status) := by
  simp only [statusOf, setStatus, find?_updateWhere, Option.map_map]
  congr 1
  funext row
  by_cases hp : p row <;> simp [hp]

section Create

variable {evaluation : Evaluation reg} {request : PriceRequested reg} {created : Bool}
  (hok : createEvaluationWithOutbox evaluation request s = .ok (created, s'))

include hok

/-- A creation that commits inserts the evaluation and its request, or finds it there. -/
theorem create_cases :
    s'.evaluations = s.evaluations.insertNew evaluation.toRow ∧
      (s' = s ∨ s.evaluations.has evaluation.predictionId = false ∧
        s.outboxEvents.has request.messageId = false ∧ s'.scores = s.scores ∧
        s'.outboxEvents = s.outboxEvents.insertNew
          ⟨request.messageId, evaluation.predictionId, .priceRequested request⟩) := by
  unfold createEvaluationWithOutbox at hok
  split at hok
  · next hhas =>
    cases hok
    exact ⟨(insertNew_of_has hhas).symm, Or.inl rfl⟩
  · next hnew =>
    split at hok
    · cases hok
    · split at hok
      · cases hok
      · next hfresh =>
        cases hok
        exact ⟨rfl, Or.inr ⟨Bool.eq_false_iff.mpr hnew, Bool.eq_false_iff.mpr hfresh, rfl, rfl⟩⟩

theorem createEvaluationWithOutbox_eq_ok (predictionId : Uuid) :
    s'.statusOf predictionId = (s.statusOf predictionId).or
        (if evaluation.predictionId = predictionId then some .pending else none) ∧
    s'.scoreRows predictionId = s.scoreRows predictionId := by
  obtain ⟨hevaluations, hcases⟩ := create_cases hok
  constructor
  · simp only [statusOf, hevaluations, find?_insertNew, map_or]
    congr 1
    by_cases hid : evaluation.predictionId = predictionId <;> simp [EvaluationRecord.toRow, hid]
  · rcases hcases with rfl | ⟨_, _, _, houtbox⟩
    · rfl
    · rw [scoreRows, houtbox]
      exact filter_insertNew s.outboxEvents rfl

/-- The rows after a creation are those before it, and the new one. -/
theorem find?_createEvaluationWithOutbox (predictionId : Uuid) (row : EvaluationRecord String)
    (hrow : s'.evaluations.find? predictionId = some row) :
    s.evaluations.find? predictionId = some row ∨
      (evaluation.predictionId = predictionId ∧ row = evaluation.toRow) := by
  rw [(create_cases hok).1, find?_insertNew, or_eq_some_iff] at hrow
  rcases hrow with hold | ⟨_, hnew⟩
  · exact Or.inl hold
  · by_cases hid : evaluation.predictionId = predictionId
    · simp only [EvaluationRecord.toRow, hid, if_true, some.injEq] at hnew
      exact Or.inr ⟨hid, by rw [← hnew, EvaluationRecord.toRow, hid]⟩
    · simp [EvaluationRecord.toRow, hid] at hnew

end Create

theorem withdrawEvaluation_eq_ok {target : Uuid} {withdrawn : Bool}
    (hok : withdrawEvaluation target s = .ok (withdrawn, s')) (predictionId : Uuid) :
    s'.statusOf predictionId =
      (if predictionId = target ∧ s.statusOf predictionId = some .pending then
        some .withdrawn else s.statusOf predictionId) ∧
    s'.scoreRows predictionId = s.scoreRows predictionId := by
  obtain ⟨_, rfl⟩ := hok
  refine ⟨?_, rfl⟩
  rw [statusOf_setStatus, statusOf]
  cases hfind : s.evaluations.find? predictionId with
  | none => simp
  | some row =>
    have hid : row.predictionId = predictionId := (find?_eq_some_iff.mp hfind).2
    by_cases htarget : predictionId = target <;>
      by_cases hpending : row.status = .pending <;> simp [hid, htarget, hpending]

variable {scored : PredictionScored reg} {produced : Bool} {requestId : Uuid}

section

variable (hok : storeScoreWithOutbox scored s = .ok (produced, s'))

include hok

theorem evaluations_of_score :
    s'.evaluations =
      (s.setStatus (fun row => row.predictionId = scored.predictionId) .scored).evaluations := by
  unfold storeScoreWithOutbox at hok
  split at hok
  · cases hok
    rfl
  · split at hok
    · cases hok
    · cases hok
      rfl

/-- A committed score makes the evaluation `SCORED`, and leaves the others
alone. -/
theorem storeScoreWithOutbox_eq_ok (predictionId : Uuid) :
    s'.statusOf predictionId = (if predictionId = scored.predictionId then
        (s.statusOf predictionId).map (fun _ => .scored) else s.statusOf predictionId) ∧
    (predictionId ≠ scored.predictionId →
      s'.scoreRows predictionId = s.scoreRows predictionId) := by
  constructor
  · rw [statusOf, evaluations_of_score hok]
    exact column_updateKey (g := EvaluationRecord.status) s.evaluations
      (fun row => row.predictionId_withStatus .scored) (fun _ => rfl) scored.predictionId
      predictionId
  · intro hne
    unfold storeScoreWithOutbox at hok
    split at hok
    · cases hok
      rfl
    · split at hok
      · cases hok
      · cases hok
        exact filter_insertNew s.outboxEvents (decide_eq_false (Ne.symm hne))

end

theorem loadEvaluationByRequestId_eq_ok {evaluation : Option (Evaluation reg)}
    (hok : loadEvaluationByRequestId requestId s = .ok (evaluation, s')) :
    s' = s ∧ ∀ e, evaluation = some e → ∃ row ∈ s.evaluations, row.requestId = requestId ∧
        EvaluationRecord.fromRow reg row = .ok e := by
  unfold loadEvaluationByRequestId at hok
  split at hok
  · cases hok
    exact ⟨rfl, by simp⟩
  · next row hrow =>
    split at hok
    · next e hread =>
      cases hok
      refine ⟨rfl, ?_⟩
      rintro e' ⟨⟩
      exact ⟨row, mem_of_find?_eq_some hrow, by simpa using find?_some hrow, hread⟩
    · cases hok

theorem statusOf_of_loaded {e : Evaluation reg}
    (hok : loadEvaluationByRequestId requestId s = .ok (some e, s')) :
    s.statusOf e.predictionId = some e.status := by
  obtain ⟨row, hrow, _, hread⟩ := (loadEvaluationByRequestId_eq_ok hok).2 e rfl
  obtain ⟨hid, hstatus⟩ := fromRow_eq_ok hread
  have hfind := find?_eq_some_iff.mpr ⟨hrow, hid.symm⟩
  simp [statusOf, hfind, hstatus]

end Store

end Verification
