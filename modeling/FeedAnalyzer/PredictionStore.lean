import FeedAnalyzer.MarketCalendar
import FeedAnalyzer.PredictionDecision
import FeedAnalyzer.TransactionProc

/-!
# The Prediction database

The tables of the `prediction` schema, and the repository methods as transactions.  Events
join the latest version of a context while it is `OPEN` or `READY` and open a new one after
that.  `claim_ready_contexts` reads the assets of the batch back inside its transaction.
-/

namespace Prediction

open Feed Transact Calendar

inductive ContextState where
  | opened | ready | predicting | predicted | errorRetryable
  deriving DecidableEq

def ContextState.joinable : ContextState → Bool
  | .opened => true
  | .ready => true
  | _ => false

/-- A row of `contexts`; the asset is plain text here. -/
structure ContextRow where
  contextId : Uuid
  assetId : String
  windowStart : Int
  windowEnd : Int
  contextVersion : Nat
  state : ContextState
  watermark : Int
  deriving DecidableEq

def ContextRow.withState (row : ContextRow) (state : ContextState) : ContextRow :=
  { row with state := state }

variable (row : ContextRow)

@[simp] theorem ContextRow.contextId_withState (state : ContextState) :
    (row.withState state).contextId = row.contextId := rfl

@[simp] theorem ContextRow.state_withState (state : ContextState) :
    (row.withState state).state = state := rfl

def ContextRow.withWatermark (row : ContextRow) (seenAt : Int) : ContextRow :=
  { row with watermark := max row.watermark seenAt }

@[simp] theorem ContextRow.contextId_withWatermark (seenAt : Int) :
    (row.withWatermark seenAt).contextId = row.contextId := rfl

/-- The columns of the table's second unique constraint. -/
def ContextRow.version (row : ContextRow) : String × Int × Nat :=
  (row.assetId, row.windowStart, row.contextVersion)

/-- One distinct event that is a member of a context. -/
structure ContextEvent where
  eventId : Uuid
  eventType : EventType
  firstSeenAt : Int
  polarity : EventPolarity := .occurrence
  contextTags : List ConditionCode := []

/-- A row of `context_events`. -/
structure MemberRow where
  contextId : Uuid
  event : ContextEvent

def MemberRow.key (row : MemberRow) : Uuid × Uuid := (row.contextId, row.event.eventId)

inductive PredictionStatus where
  | pending | withdrawn
  deriving DecidableEq

/-- Depth 0 is a direct prediction. -/
structure IdempotencyKey where
  assetId : String
  windowStart : Int
  horizon : Horizon
  contextVersion : Nat
  depth : Nat
  deriving DecidableEq

structure PredictionRow where
  predictionId : Uuid
  contextId : Uuid
  contextVersion : Nat
  assetId : String
  direction : Direction
  magnitude : Magnitude
  confidence : Rat
  horizon : Horizon
  rationale : String
  decisionMethod : DecisionMethod
  decisionAt : Int
  supersedesPredictionId : Option Uuid
  idempotencyKey : IdempotencyKey
  status : PredictionStatus

def PredictionRow.withdrawn (row : PredictionRow) : PredictionRow :=
  { row with status := .withdrawn }

@[simp] theorem PredictionRow.predictionId_withdrawn (row : PredictionRow) :
    row.withdrawn.predictionId = row.predictionId := rfl

@[simp] theorem PredictionRow.idempotencyKey_withdrawn (row : PredictionRow) :
    row.withdrawn.idempotencyKey = row.idempotencyKey := rfl

/-- A row of `contributing_edges`, which has no key. -/
structure EdgeRow where
  predictionId : Uuid
  edge : ContributingEdge

structure OutboxRow (reg : Registry) where
  messageId : Uuid
  aggregateId : Uuid
  payload : PredictionMade reg

/-- A context's version and a prediction's key are unique besides their ids. -/
structure Store (reg : Registry) where
  contexts : Table ContextRow.contextId
  version_nodup : (contexts.rows.map ContextRow.version).Nodup
  members : Table MemberRow.key
  predictions : Table PredictionRow.predictionId
  key_nodup : (predictions.rows.map PredictionRow.idempotencyKey).Nodup
  edges : List EdgeRow
  outbox : Table (@OutboxRow.messageId reg)

instance {reg : Registry} : EmptyCollection (Store reg) where
  emptyCollection := ⟨∅, List.nodup_nil, ∅, ∅, List.nodup_nil, [], ∅⟩

/-- A claimed context version. -/
structure ContextRecord (reg : Registry) where
  contextId : Uuid
  assetId : AssetId reg
  contextVersion : Nat
  windowStart : Int
  windowEnd : Int
  state : ContextState

/-- The asset's most recent `PENDING` prediction. -/
structure ActivePrediction where
  predictionId : Uuid
  direction : Direction
  magnitude : Magnitude

inductive PredictionError where
  | graph (message : String)
  | valueError (message : String)
  | unsupportedTimezone (message : String)
  | zeroDivision (message : String)
  | uniqueViolation (constraint : String)
  | foreignKeyViolation (constraint : String)
  | database (message : String)
  | unexpected (message : String)
  deriving DecidableEq

namespace Store

variable {reg : Registry}

def latestContext (assetId : String) (windowStart : Int) (s : Store reg) : Option ContextRow :=
  (selectOrdered (fun row => row.assetId = assetId ∧ row.windowStart = windowStart)
    (fun row => -(row.contextVersion : Int)) (fun _ => 0) 1 s.contexts.rows).head?

/-- `INSERT INTO contexts … ON CONFLICT (asset_id, window_start,
context_version) DO NOTHING`. -/
def insertContext (row : ContextRow) (s : Store reg) : Except PredictionError (Store reg) :=
  if hversion : s.contexts.rows.any (fun r => r.version = row.version) = true then .ok s
  else if s.contexts.has row.contextId then .error (.uniqueViolation "contexts_pkey")
  else
    .ok { s with
      contexts := s.contexts.insertNew row
      version_nodup := by
        apply Table.nodup_map_insertNew s.version_nodup
        intro r hr heq
        exact hversion (List.any_eq_true.mpr ⟨r, hr, decide_eq_true heq⟩) }

/-- `INSERT INTO context_events … ON CONFLICT DO NOTHING`. -/
def insertMember (contextId : Uuid) (event : ContextEvent) (s : Store reg) :
    Except PredictionError (Store reg) :=
  if s.contexts.has contextId = false then
    .error (.foreignKeyViolation "context_events_context_id_fkey")
  else .ok { s with members := s.members.insertNew ⟨contextId, event⟩ }

/-- The members of a context, in the order of the table. -/
def membersOf (contextId : Uuid) (s : Store reg) : List ContextEvent :=
  (s.members.rows.filter (fun row => row.contextId = contextId)).map MemberRow.event

/-- Carry the members of one context forward into another. -/
def carryMembers (target source : Uuid) (s : Store reg) : Except PredictionError (Store reg) :=
  (s.membersOf source).foldlM (fun s event => s.insertMember target event) s

def setWatermark (contextId : Uuid) (seenAt : Int) (s : Store reg) : Store reg :=
  { s with
    contexts := s.contexts.updateWhere (fun row => row.contextId = contextId)
      (fun row => row.withWatermark seenAt) (fun row => row.contextId_withWatermark seenAt)
    version_nodup := by
      rw [Table.map_rows_updateWhere]
      · exact s.version_nodup
      · exact fun _ => rfl }

/-- The latest version while it is joinable, else a new one. -/
def openContext (fresh : Uuid) (assetId : String) (firstSeenAt windowStart windowEnd : Int)
    (s : Store reg) : Except PredictionError (Uuid × Store reg) :=
  match s.latestContext assetId windowStart with
  | none => do
    let s ← s.insertContext ⟨fresh, assetId, windowStart, windowEnd, 1, .opened, firstSeenAt⟩
    .ok (fresh, s)
  | some latest =>
    if latest.state.joinable then .ok (latest.contextId, s.setWatermark latest.contextId firstSeenAt)
    else do
      let s ← s.insertContext ⟨fresh, assetId, windowStart, windowEnd,
        latest.contextVersion + 1, .opened, firstSeenAt⟩
      let s ← s.carryMembers fresh latest.contextId
      .ok (fresh, s)

/-- Add a distinct event to the asset's context version. -/
def assignEvent (fresh : Uuid) (assetId : AssetId reg) (event : ContextEvent)
    (windowStart windowEnd : Int) (s : Store reg) : Except PredictionError (Unit × Store reg) := do
  let (contextId, s) ← s.openContext fresh assetId.value event.firstSeenAt windowStart windowEnd
  let s ← s.insertMember contextId event
  .ok ((), s)

/-- `UPDATE contexts SET state = … WHERE p`. -/
def setStateWhere (s : Store reg) (p : ContextRow → Bool) (state : ContextState) : Store reg :=
  { s with
    contexts := s.contexts.updateWhere p (fun row => row.withState state)
      (fun row => row.contextId_withState state)
    version_nodup := by
      rw [Table.map_rows_updateWhere]
      · exact s.version_nodup
      · exact fun _ => rfl }

def dueAt (cutoff : Int) (row : ContextRow) : Bool :=
  row.state.joinable ∧ row.windowEnd ≤ cutoff

/-- At most twenty due contexts, the oldest windows first, and none that is locked. -/
def dueContexts (tie : Uuid → Nat) (locked : Uuid → Bool) (cutoff : Int) (s : Store reg) :
    List ContextRow :=
  selectOrdered (fun row => dueAt cutoff row ∧ locked row.contextId = false)
    ContextRow.windowEnd (fun row => tie row.contextId) 20 s.contexts.rows

/-- A claimed row; an asset that has left the registry raises. -/
def recordOf (row : ContextRow) : Except PredictionError (ContextRecord reg) :=
  match AssetId.parse reg row.assetId with
  | .error (.valueError message) => .error (.valueError message)
  | .error (.unknownAsset message) => .error (.valueError message)
  | .ok assetId =>
    .ok { contextId := row.contextId
          assetId
          contextVersion := row.contextVersion
          windowStart := row.windowStart
          windowEnd := row.windowEnd
          state := .predicting }

/-- Make the due contexts `PREDICTING`; a row that cannot be read back undoes the claim. -/
def claimReadyContexts (tie : Uuid → Nat) (locked : Uuid → Bool) (now : Int) (graceMinutes : Nat)
    (s : Store reg) : Except PredictionError (List (ContextRecord reg) × Store reg) := do
  let rows := s.dueContexts tie locked (now - graceMinutes * microsPerMinute)
  let records ← rows.mapM recordOf
  .ok (records,
    s.setStateWhere (fun row => rows.any (fun r => r.contextId = row.contextId)) .predicting)

def loadContextEvents (tie : Uuid → Nat) (contextId : Uuid) (s : Store reg) :
    Except PredictionError (List ContextEvent × Store reg) :=
  .ok ((selectOrdered (fun row => row.contextId = contextId)
    (fun row : MemberRow => row.event.firstSeenAt) (fun row => tie row.event.eventId)
    s.members.rows.length s.members.rows).map MemberRow.event, s)

def setContextState (contextId : Uuid) (state : ContextState) (s : Store reg) :
    Except PredictionError (Unit × Store reg) :=
  .ok ((), s.setStateWhere (fun row => row.contextId = contextId) state)

/-- The asset's most recent `PENDING` prediction. -/
def activeRow (tie : Uuid → Nat) (assetId : String) (s : Store reg) : Option PredictionRow :=
  (selectOrdered (fun row => row.assetId = assetId ∧ row.status = .pending)
    (fun row : PredictionRow => -row.decisionAt) (fun row => tie row.predictionId) 1
    s.predictions.rows).head?

def latestActivePrediction (tie : Uuid → Nat) (assetId : AssetId reg) (s : Store reg) :
    Except PredictionError (Option ActivePrediction × Store reg) :=
  .ok ((s.activeRow tie assetId.value).map (fun row =>
    { predictionId := row.predictionId
      direction := row.direction
      magnitude := row.magnitude }), s)

def predictionsOn (z : Zone) (assetId : String) (localDate : Int) (s : Store reg) :
    List PredictionRow :=
  s.predictions.rows.filter (fun row =>
    row.assetId = assetId ∧ row.status ≠ .withdrawn ∧ z.localDateIn row.decisionAt = localDate)

def countPredictionsOn (tz : TimeZones) (assetId : AssetId reg) (localDate : Int)
    (timezoneName : String) (s : Store reg) : Except PredictionError (Nat × Store reg) :=
  match tz timezoneName with
  | none => .error (.database "time zone not recognized")
  | some z => .ok ((s.predictionsOn z assetId.value localDate).length, s)

def predictionRow (message : PredictionMade reg) (key : IdempotencyKey) : PredictionRow where
  predictionId := message.predictionId
  contextId := message.contextId
  contextVersion := message.contextVersion
  assetId := message.assetId.value
  direction := message.direction
  magnitude := message.magnitude
  confidence := message.confidence.1
  horizon := message.horizon
  rationale := message.rationale
  decisionMethod := message.decisionMethod
  decisionAt := message.decisionAt
  supersedesPredictionId := message.supersedesPredictionId
  idempotencyKey := key
  status := .pending

/-- Mark a pending prediction `WITHDRAWN`. -/
def withdraw (target : Uuid) (s : Store reg) : Store reg :=
  { s with
    predictions := s.predictions.updateWhere
      (fun row => row.predictionId = target ∧ row.status = .pending) PredictionRow.withdrawn
      PredictionRow.predictionId_withdrawn
    key_nodup := by
      rw [Table.map_rows_updateWhere]
      · exact s.key_nodup
      · exact PredictionRow.idempotencyKey_withdrawn }

/-- `status = 'WITHDRAWN'`, if it is to be withdrawn. -/
def withdrawSuperseded (withdraws : Bool) (superseded : Option Uuid) (s : Store reg) : Store reg :=
  match withdraws, superseded with
  | true, some target => s.withdraw target
  | _, _ => s

/-- Insert the prediction, its edges and an outbox row, and mark its context `PREDICTED`; a
known key only marks the context. -/
def storePredictionWithOutbox (message : PredictionMade reg) (key : IdempotencyKey)
    (withdrawSuperseded : Bool) (s : Store reg) : Except PredictionError (Bool × Store reg) :=
  let predicted := fun s : Store reg =>
    s.setStateWhere (fun row => row.contextId = message.contextId) .predicted
  if hkey : s.predictions.rows.any (fun row => row.idempotencyKey = key) = true then
    .ok (false, predicted s)
  else if s.predictions.has message.predictionId then
    .error (.uniqueViolation "predictions_pkey")
  else if s.contexts.has message.contextId = false then
    .error (.foreignKeyViolation "predictions_context_id_fkey")
  else if s.outbox.has message.messageId then .error (.uniqueViolation "outbox_events_pkey")
  else
    let inserted : Store reg := { s with
      predictions := s.predictions.insertNew (predictionRow message key)
      key_nodup := by
        apply Table.nodup_map_insertNew s.key_nodup
        intro row hrow heq
        exact hkey (List.any_eq_true.mpr ⟨row, hrow, decide_eq_true heq⟩)
      edges := s.edges ++ message.contributingEdges.map (fun edge => ⟨message.predictionId, edge⟩)
      outbox := s.outbox.insertNew
        { messageId := message.messageId, aggregateId := message.predictionId,
          payload := message } }
    .ok (true, predicted
      (inserted.withdrawSuperseded withdrawSuperseded message.supersedesPredictionId))

end Store

/-- An active correlation edge between two assets. -/
structure CorrelationEdge (reg : Registry) where
  targetAssetId : AssetId reg
  direction : Direction
  weight : Rat
  alpha : Rat
  beta : Rat
  weight_range : 0 ≤ weight ∧ weight ≤ 1
  alpha_pos : 0 < alpha
  beta_pos : 0 < beta

/-- The ids of a new message and its prediction. -/
structure PredictionStamp where
  messageId : Uuid := 0
  correlationId : Uuid := 0
  predictionId : Uuid := 0

inductive Call (reg : Registry) where
  | assignEvent (assetId : AssetId reg) (event : ContextEvent) (windowStart windowEnd : Int)
  | claimReadyContexts (now : Int) (graceMinutes : Nat)
  | loadContextEvents (contextId : Uuid)
  | latestActivePrediction (assetId : AssetId reg)
  | countPredictionsOn (assetId : AssetId reg) (localDate : Int) (timezoneName : String)
  | setContextState (contextId : Uuid) (state : ContextState)
  | storePredictionWithOutbox (message : PredictionMade reg) (idempotencyKey : IdempotencyKey)
      (withdrawSuperseded : Bool)
  | getFiringEdges (eventType : EventType) (assetId : AssetId reg) (conditions : List ConditionCode)
  | getCorrelationEdges (sourceAssetId : AssetId reg) (condition : ConditionCode)
  | recentCloses (assetId : AssetId reg)
  | recordEvent (eventId : Uuid)
  | capture (contextId : Uuid)
  | currentTime
  | newPrediction

@[reducible] def Call.Ret {reg : Registry} : Call reg → Type
  | .assignEvent _ _ _ _ => Unit
  | .claimReadyContexts _ _ => List (ContextRecord reg)
  | .loadContextEvents _ => List ContextEvent
  | .latestActivePrediction _ => Option ActivePrediction
  | .countPredictionsOn _ _ _ => Nat
  | .setContextState _ _ => Unit
  | .storePredictionWithOutbox _ _ _ => Bool
  | .getFiringEdges _ _ _ => List (FiringEdge reg)
  | .getCorrelationEdges _ _ => List (CorrelationEdge reg)
  | .recentCloses _ => List Rat
  | .recordEvent _ => Unit
  | .capture _ => Unit
  | .currentTime => Int
  | .newPrediction => PredictionStamp

@[reducible] def Surroundings (reg : Registry) : Interface where
  Call := Call reg
  Ret := Call.Ret

abbrev Service (reg : Registry) (α : Type) : Type := Proc (Surroundings reg) PredictionError α

abbrev ask {reg : Registry} (c : Call reg) : Service reg c.Ret :=
  Proc.perform (I := Surroundings reg) c

theorem ask_bind {reg : Registry} {β : Type} (c : Call reg) (f : c.Ret → Service reg β) :
    (ask c).bind f = .call c (Proc.onOk f) :=
  Proc.perform_bind (I := Surroundings reg) c f

/-- The collaborator reports that it failed, or something else is raised. -/
inductive Fault where
  | unavailable (message : String)
  | unexpected (message : String)
  deriving DecidableEq

/-- The exception of a call, given how its collaborator reports failures. -/
def Fault.raised (reported : String → PredictionError) : Fault → PredictionError
  | .unavailable message => reported message
  | .unexpected message => .unexpected message

/-- A fault, or what the call asks for.  `tie` orders rows that `ORDER BY` leaves equal, and
`locked` are rows of other transactions. -/
structure Answer (reg : Registry) where
  fault : Option Fault := none
  now : Int := 0
  contextId : Uuid := 0
  stamp : PredictionStamp := {}
  edges : List (FiringEdge reg) := []
  correlations : List (CorrelationEdge reg) := []
  closes : List Rat := []
  tie : Uuid → Nat := fun _ => 0
  locked : Uuid → Bool := fun _ => false

/-- The price reader turns a transport failure into an empty list. -/
def Answer.closesRead {reg : Registry} (w : Answer reg) : Except PredictionError (List Rat) :=
  match w.fault with
  | none => .ok w.closes
  | some (.unavailable _) => .ok []
  | some (.unexpected message) => .error (.unexpected message)

/-- Run one call. -/
def handle {reg : Registry} (tz : TimeZones) :
    Handler (Surroundings reg) (Store reg) (Answer reg) PredictionError :=
  fun w c s =>
    match c with
    | .assignEvent assetId event windowStart windowEnd =>
      commit (w.fault.map (Fault.raised .database))
        (Store.assignEvent w.contextId assetId event windowStart windowEnd) s
    | .claimReadyContexts now graceMinutes =>
      commit (w.fault.map (Fault.raised .database))
        (Store.claimReadyContexts w.tie w.locked now graceMinutes) s
    | .loadContextEvents contextId =>
      commit (w.fault.map (Fault.raised .database)) (Store.loadContextEvents w.tie contextId) s
    | .latestActivePrediction assetId =>
      commit (w.fault.map (Fault.raised .database)) (Store.latestActivePrediction w.tie assetId) s
    | .countPredictionsOn assetId localDate timezoneName =>
      commit (w.fault.map (Fault.raised .database))
        (Store.countPredictionsOn tz assetId localDate timezoneName) s
    | .setContextState contextId state =>
      commit (w.fault.map (Fault.raised .database)) (Store.setContextState contextId state) s
    | .storePredictionWithOutbox message key withdrawSuperseded =>
      commit (w.fault.map (Fault.raised .database))
        (Store.storePredictionWithOutbox message key withdrawSuperseded) s
    | .getFiringEdges _ _ _ =>
      commit (w.fault.map (Fault.raised .graph)) (fun s => .ok (w.edges, s)) s
    | .getCorrelationEdges _ _ =>
      commit (w.fault.map (Fault.raised .graph)) (fun s => .ok (w.correlations, s)) s
    | .recentCloses _ => (w.closesRead, s)
    | .recordEvent _ => (.ok (), s)
    | .capture _ => (.ok (), s)
    | .currentTime => (.ok w.now, s)
    | .newPrediction => (.ok w.stamp, s)

end Prediction
