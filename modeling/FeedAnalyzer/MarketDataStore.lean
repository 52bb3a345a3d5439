import FeedAnalyzer.RegistryLoader
import FeedAnalyzer.TransactionProc

/-!
# The Market Data database

The tables of the `market_data` schema and the repository methods, each one transaction.
Providers, sampled closes, the clock and the broker are calls of the same interface; an
`Env` answers them, and each call names the request and the close it is made for.
-/

namespace MarketData

open Feed Transact

inductive RequestState where
  | pending | baselineObserved | completed | abandoned
  deriving DecidableEq

/-- `OPEN_STATES`: the states a scheduler tick may still act on. -/
def RequestState.isOpen : RequestState → Bool
  | .pending | .baselineObserved => true
  | .completed | .abandoned => false

/-- `avanzaPending` is a `PriceNotYetAvailableError` of its own class. -/
inductive MarketDataError where
  | priceNotYetAvailable (message : String)
  | avanzaPending (message : String)
  | adapterUnavailable (message : String)
  | invalidObservation (message : String)
  | avanzaUnavailable (message : String)
  | unknownAsset (message : String)
  | overflow (message : String)
  | valueError (message : String)
  | uniqueViolation (constraint : String)
  | database (message : String)
  | messagePoison (message : String)
  deriving DecidableEq

namespace MarketDataError

/-- `str(exc)`. -/
def text : MarketDataError → String
  | .priceNotYetAvailable message | .avanzaPending message | .adapterUnavailable message
  | .invalidObservation message | .avanzaUnavailable message | .unknownAsset message
  | .overflow message | .valueError message | .uniqueViolation message | .database message
  | .messagePoison message => message

/-- An error of the registry, as it passes through the service. -/
def ofRegistry : RegistryError → MarketDataError
  | .unknownAsset message => .unknownAsset message
  | .valueError message => .valueError message

/-- `except PriceNotYetAvailableError`. -/
def isPending : MarketDataError → Bool
  | .priceNotYetAvailable _ | .avanzaPending _ => true
  | _ => false

/-- `except InvalidObservationError`. -/
def isInvalid : MarketDataError → Bool
  | .invalidObservation _ => true
  | _ => false

end MarketDataError

/-- A row of `price_requests`. -/
structure PriceRequestRow where
  requestId : Uuid
  predictionId : Uuid
  assetId : String
  baselineSession : Int
  settlementSession : Int
  marketCalendar : String
  correlationId : Uuid
  state : RequestState := .pending
  attempts : Nat := 0
  nextAttemptAt : Option Int
  lastError : Option String := none
  createdAt : Int

/-- The `WHERE` clause of `load_open_requests`. -/
def PriceRequestRow.isDue (now : Int) (row : PriceRequestRow) : Bool :=
  row.state.isOpen &&
    match row.nextAttemptAt with
    | none => true
    | some at_ => at_ ≤ now

namespace PriceRequestRow

/-- The columns that each update of a request sets. -/
def toBaselineObserved (now : Int) (row : PriceRequestRow) : PriceRequestRow :=
  { row with
    state := .baselineObserved
    attempts := row.attempts + 1
    nextAttemptAt := some now
    lastError := none }

def toCompleted (row : PriceRequestRow) : PriceRequestRow :=
  { row with
    state := .completed
    attempts := row.attempts + 1
    lastError := none }

def toDeferred (error : String) (nextAttemptAt : Int) (row : PriceRequestRow) : PriceRequestRow :=
  { row with
    attempts := row.attempts + 1
    lastError := some error
    nextAttemptAt := some nextAttemptAt }

def toAbandoned (reason : String) (row : PriceRequestRow) : PriceRequestRow :=
  { row with
    state := .abandoned
    lastError := some reason
    nextAttemptAt := none }

@[simp] theorem requestId_toBaselineObserved (now : Int) (row : PriceRequestRow) :
    (row.toBaselineObserved now).requestId = row.requestId := rfl

@[simp] theorem requestId_toCompleted (row : PriceRequestRow) :
    row.toCompleted.requestId = row.requestId := rfl

@[simp] theorem requestId_toDeferred (error : String) (nextAttemptAt : Int)
    (row : PriceRequestRow) : (row.toDeferred error nextAttemptAt).requestId = row.requestId := rfl

@[simp] theorem requestId_toAbandoned (reason : String) (row : PriceRequestRow) :
    (row.toAbandoned reason).requestId = row.requestId := rfl

end PriceRequestRow

/-- A row of `close_observations`. -/
structure CloseRow where
  assetId : String
  observation : CloseObservation

/-- `UNIQUE (asset_id, session, registry_version)`. -/
def CloseRow.key (row : CloseRow) : String × Int × String :=
  (row.assetId, row.observation.session, row.observation.registryVersion)

/-- A row of `sampled_closes`. -/
structure SampledRow where
  assetId : String
  mappingVersion : String
  payload : CloseObservation

def SampledRow.key (row : SampledRow) : String × Int × String × String :=
  (row.assetId, row.payload.session, row.payload.registryVersion, row.mappingVersion)

/-- A row of `outbox`. -/
structure OutboxRow (reg : Registry) where
  messageId : Uuid
  aggregateId : Uuid
  payload : PriceObserved reg
  createdAt : Int
  delivered : Bool := false
  attempts : Nat := 0
  lastError : Option String := none

/-- In the outbox `message_id` is unique besides `aggregate_id`. -/
structure Store (reg : Registry) where
  priceRequests : Table PriceRequestRow.requestId
  closeObservations : Table CloseRow.key
  sampledCloses : Table SampledRow.key
  outbox : Table (@OutboxRow.aggregateId reg)
  messageId_nodup : (outbox.rows.map OutboxRow.messageId).Nodup

/-- A price request awaiting its closes. -/
structure PendingRequest (reg : Registry) where
  requestId : Uuid
  predictionId : Uuid
  assetId : AssetId reg
  baselineSession : Int
  settlementSession : Int
  marketCalendar : String
  correlationId : Uuid
  state : RequestState
  attempts : Nat
  deriving DecidableEq

/-- A row whose asset has left the registry is skipped. -/
def PendingRequest.ofRow (reg : Registry) (row : PriceRequestRow) : Option (PendingRequest reg) :=
  if h : reg.isKnownAsset row.assetId = true then
    some
      { requestId := row.requestId
        predictionId := row.predictionId
        assetId := ⟨row.assetId, h⟩
        baselineSession := row.baselineSession
        settlementSession := row.settlementSession
        marketCalendar := row.marketCalendar
        correlationId := row.correlationId
        state := row.state
        attempts := row.attempts }
  else none

namespace Store

variable {reg : Registry}

instance : EmptyCollection (Store reg) where
  emptyCollection := ⟨∅, ∅, ∅, ∅, List.nodup_nil⟩

/-- The row of a message, as `register_request` writes it. -/
def newRow (message : PriceRequested reg) (now : Int) : PriceRequestRow where
  requestId := message.requestId
  predictionId := message.predictionId
  assetId := message.assetId.value
  baselineSession := message.baselineSession
  settlementSession := message.settlementSession
  marketCalendar := message.marketCalendar
  correlationId := message.correlationId
  nextAttemptAt := some now
  createdAt := now

/-- Insert as `PENDING`; `false` when the id is already there. -/
def registerRequest (message : PriceRequested reg) (now : Int) (s : Store reg) :
    Except MarketDataError (Bool × Store reg) :=
  .ok (!s.priceRequests.has message.requestId,
    { s with priceRequests := s.priceRequests.insertNew (newRow message now) })

/-- The requests due for another attempt, oldest first. -/
def openRequests (now : Int) (tie : Uuid → Nat) (s : Store reg) : List (PendingRequest reg) :=
  (selectOrdered (PriceRequestRow.isDue now) PriceRequestRow.createdAt
    (fun row => tie row.requestId) s.priceRequests.rows.length s.priceRequests.rows).filterMap
    (PendingRequest.ofRow reg)

def loadOpenRequests (now : Int) (tie : Uuid → Nat) (s : Store reg) :
    Except MarketDataError (List (PendingRequest reg) × Store reg) :=
  .ok (s.openRequests now tie, s)

/-- `_upsert_observation`: the first close of a key stays. -/
def upsertObservation (s : Store reg) (assetId : AssetId reg) (observation : CloseObservation) :
    Store reg :=
  match observation.sample with
  | some sample =>
    { s with
      sampledCloses :=
        s.sampledCloses.insertNew ⟨assetId.value, sample.mappingVersion, observation⟩ }
  | none =>
    { s with closeObservations := s.closeObservations.insertNew ⟨assetId.value, observation⟩ }

/-- `UPDATE price_requests SET … WHERE p`. -/
def updateRequests (s : Store reg) (p : PriceRequestRow → Bool)
    (f : PriceRequestRow → PriceRequestRow) (hf : ∀ row, (f row).requestId = row.requestId) :
    Store reg :=
  { s with priceRequests := s.priceRequests.updateWhere p f hf }

/-- Store the baseline, and advance to `BASELINE_OBSERVED`. -/
def markBaselineObserved (requestId : Uuid) (assetId : AssetId reg) (baseline : CloseObservation)
    (now : Int) (s : Store reg) : Except MarketDataError (Unit × Store reg) :=
  .ok ((), (s.upsertObservation assetId baseline).updateRequests
    (fun row => row.requestId = requestId ∧ row.state = .pending)
    (PriceRequestRow.toBaselineObserved now) (PriceRequestRow.requestId_toBaselineObserved now))

/-- Store both closes, enqueue the `PriceObserved` and mark `COMPLETED`; `false` when its
outbox row is there already. -/
def completeRequest (message : PriceObserved reg) (now : Int) (s : Store reg) :
    Except MarketDataError (Bool × Store reg) :=
  let stored := (s.upsertObservation message.assetId message.baseline).upsertObservation
    message.assetId message.settlement
  if s.outbox.has message.requestId then .ok (false, stored)
  else if hid : s.outbox.rows.any (fun row => row.messageId = message.messageId) = true then
    .error (.uniqueViolation "outbox_message_id_key")
  else
    .ok (true, { stored with
        outbox := s.outbox.insertNew
          { messageId := message.messageId
            aggregateId := message.requestId
            payload := message
            createdAt := now }
        messageId_nodup := by
          apply Table.nodup_map_insertNew s.messageId_nodup
          intro row hrow heq
          exact hid (List.any_eq_true.mpr ⟨row, hrow, decide_eq_true heq⟩)
        priceRequests := s.priceRequests.updateWhere
          (fun row => row.requestId = message.requestId) PriceRequestRow.toCompleted
          PriceRequestRow.requestId_toCompleted })

def recordFailure (requestId : Uuid) (error : String) (nextAttemptAt : Int) (s : Store reg) :
    Except MarketDataError (Unit × Store reg) :=
  .ok ((), s.updateRequests (fun row => row.requestId = requestId)
    (PriceRequestRow.toDeferred error nextAttemptAt)
    (PriceRequestRow.requestId_toDeferred error nextAttemptAt))

/-- Move a request to `ABANDONED`, whatever its state. -/
def abandonRequest (requestId : Uuid) (reason : String) (s : Store reg) :
    Except MarketDataError (Unit × Store reg) :=
  .ok ((), s.updateRequests (fun row => row.requestId = requestId)
    (PriceRequestRow.toAbandoned reason) (PriceRequestRow.requestId_toAbandoned reason))

/-- The rows that `publish_pending` reads. -/
def pendingOutbox (batchSize : Nat) (tie : Uuid → Nat) (s : Store reg) :
    Except MarketDataError (List (OutboxRow reg) × Store reg) :=
  .ok (selectOrdered (fun row => !row.delivered) OutboxRow.createdAt
    (fun row => tie row.messageId) batchSize s.outbox.rows, s)

/-- `UPDATE outbox SET … WHERE message_id = …`. -/
def updateOutbox (s : Store reg) (messageId : Uuid) (f : OutboxRow reg → OutboxRow reg)
    (hf : ∀ row, (f row).aggregateId = row.aggregateId)
    (hid : ∀ row, (f row).messageId = row.messageId) : Store reg :=
  { s with
    outbox := s.outbox.updateWhere (fun row => row.messageId = messageId) f hf
    messageId_nodup := by
      rw [Table.map_rows_updateWhere _ _ hf hid]
      exact s.messageId_nodup }

def recordPublishError (messageId : Uuid) (error : String) (s : Store reg) :
    Except MarketDataError (Unit × Store reg) :=
  .ok ((), s.updateOutbox messageId
    (fun row => { row with attempts := row.attempts + 1, lastError := some error })
    (fun _ => rfl) (fun _ => rfl))

def markDelivered (messageId : Uuid) (s : Store reg) : Except MarketDataError (Unit × Store reg) :=
  .ok ((), s.updateOutbox messageId (fun row => { row with delivered := true, lastError := none })
    (fun _ => rfl) (fun _ => rfl))

end Store

/-- Which of a request's two closes. -/
inductive Leg where
  | baseline | settlement
  deriving DecidableEq

/-- The asset itself, or its fallback. -/
inductive Role where
  | primary | fallback
  deriving DecidableEq

/-- What a provider is asked for, which it is not told. -/
structure Purpose where
  requestId : Uuid
  assetId : String
  leg : Leg
  role : Role
  deriving DecidableEq

/-- One daily bar that passed the provider's validation. -/
structure Bar where
  session : Int
  close : Rat
  time : Int
  close_pos : 0 < close

/-- Where the clock is read. -/
inductive ClockUse where
  | tick
  | attempt (requestId : Uuid)
  | deferral (requestId : Uuid)
  deriving DecidableEq

variable (reg : Registry)

inductive Call where
  | registerRequest (message : PriceRequested reg)
  | loadOpenRequests
  | markBaselineObserved (requestId : Uuid) (assetId : AssetId reg) (baseline : CloseObservation)
  | completeRequest (message : PriceObserved reg)
  | recordFailure (requestId : Uuid) (error : String) (nextAttemptAt : Int)
  | abandonRequest (requestId : Uuid) (reason : String)
  | fetchBars (purpose : Purpose) (asset : ProviderSeries) (session : Int)
  | sessionWindow (requestId : Uuid) (assetId : AssetId reg) (session : Int)
  | sampledClose (requestId : Uuid) (leg : Leg) (assetId : AssetId reg) (session now : Int)
  | currentTime (use : ClockUse)
  | newMessage (requestId : Uuid)
  | pendingOutbox (batchSize : Nat)
  | publish (message : PriceObserved reg)
  | recordPublishError (messageId : Uuid) (error : String)
  | markDelivered (messageId : Uuid)

variable {reg}

/-- A provider answers with its bars and the time of the fetch. -/
@[reducible] def Call.Ret : Call reg → Type
  | .registerRequest _ => Bool
  | .loadOpenRequests => List (PendingRequest reg)
  | .markBaselineObserved _ _ _ => Unit
  | .completeRequest _ => Bool
  | .recordFailure _ _ _ => Unit
  | .abandonRequest _ _ => Unit
  | .fetchBars _ _ _ => List Bar × Int
  | .sessionWindow _ _ _ => Int
  | .sampledClose _ _ _ _ _ => CloseObservation
  | .currentTime _ => Int
  | .newMessage _ => Envelope
  | .pendingOutbox _ => List (OutboxRow reg)
  | .publish _ => Unit
  | .recordPublishError _ _ => Unit
  | .markDelivered _ => Unit

@[reducible] def Repository (reg : Registry) : Interface where
  Call := Call reg
  Ret := Call.Ret

/-- One call of the service. -/
abbrev ask (c : Call reg) : Proc (Repository reg) MarketDataError c.Ret :=
  Proc.perform (I := Repository reg) c

theorem ask_bind {β : Type} (c : Call reg) (f : c.Ret → Proc (Repository reg) MarketDataError β) :
    (ask c).bind f = .call c (Proc.onOk f) :=
  Proc.perform_bind (I := Repository reg) c f

/-- **The surroundings**: faults of the database, the clocks, what providers and the sample
reader answer, and whether the broker takes a message. -/
structure Env (reg : Registry) where
  fault : Call reg → Option String := fun _ => none
  clock : Call reg → Int := fun _ => 0
  tie : Uuid → Nat := fun _ => 0
  messageId : Uuid → Uuid := id
  bars : Purpose → Except MarketDataError (List Bar × Int)
  window : Uuid → Except MarketDataError Int := fun _ => .error (.avanzaUnavailable "no listing")
  sampled : Uuid → Leg → Except MarketDataError CloseObservation :=
    fun _ _ => .error (.avanzaUnavailable "no samples")
  publishError : Uuid → Option String := fun _ => none

def Env.error (w : Env reg) (c : Call reg) : Option MarketDataError :=
  (w.fault c).map .database

def handle : Handler (Repository reg) (Store reg) (Env reg) MarketDataError :=
  fun w c s =>
    match c with
    | .registerRequest message =>
      commit (w.error (.registerRequest message))
        (Store.registerRequest message (w.clock (.registerRequest message))) s
    | .loadOpenRequests =>
      commit (w.error .loadOpenRequests)
        (Store.loadOpenRequests (w.clock .loadOpenRequests) w.tie) s
    | .markBaselineObserved requestId assetId baseline =>
      commit (w.error (.markBaselineObserved requestId assetId baseline))
        (Store.markBaselineObserved requestId assetId baseline
          (w.clock (.markBaselineObserved requestId assetId baseline))) s
    | .completeRequest message =>
      commit (w.error (.completeRequest message))
        (Store.completeRequest message (w.clock (.completeRequest message))) s
    | .recordFailure requestId error nextAttemptAt =>
      commit (w.error (.recordFailure requestId error nextAttemptAt))
        (Store.recordFailure requestId error nextAttemptAt) s
    | .abandonRequest requestId reason =>
      commit (w.error (.abandonRequest requestId reason)) (Store.abandonRequest requestId reason) s
    | .fetchBars purpose _ _ => (w.bars purpose, s)
    | .sessionWindow requestId _ _ => (w.window requestId, s)
    | .sampledClose requestId leg _ _ _ => (w.sampled requestId leg, s)
    | .currentTime use => (.ok (w.clock (.currentTime use)), s)
    | .newMessage requestId =>
      (.ok ⟨w.messageId requestId, w.clock (.newMessage requestId)⟩, s)
    | .pendingOutbox batchSize =>
      commit (w.error (.pendingOutbox batchSize)) (Store.pendingOutbox batchSize w.tie) s
    | .publish message =>
      match w.publishError message.messageId with
      | some text => (.error (.valueError text), s)
      | none => (.ok (), s)
    | .recordPublishError messageId error =>
      commit (w.error (.recordPublishError messageId error))
        (Store.recordPublishError messageId error) s
    | .markDelivered messageId =>
      commit (w.error (.markDelivered messageId)) (Store.markDelivered messageId) s

end MarketData
