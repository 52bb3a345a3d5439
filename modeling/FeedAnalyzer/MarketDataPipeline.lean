import Mathlib.Algebra.Group.Nat.Defs
import FeedAnalyzer.RetryBackoff

/-!
# The Market Data service

A request is driven by the consumer and by every scheduler tick after that.  One attempt
fetches the baseline close, waits for the settlement session, fetches its close and
completes the request; a missing close defers it, or abandons it once the grace window
is over.  Closes come from the provider that the registry names (`getClose`), or with
`avanzaFirst` from samples (`getPair`).

The clock is read as an unbounded time; what the service computes from it has the range
of Python's dates and times, and raises `OverflowError` past it.
-/

namespace MarketData

open Feed Transact Calendar

/-- How the adapter of a provider labels what it fetched. -/
structure Adapter where
  source : String
  priceKind : ProviderSeries → Option PriceKind
  /-- What a missing bar is reported as, for an asset and a session. -/
  missing : String → String → String

/-- The enum member of a text. -/
def priceKindOf (text : String) : Option PriceKind :=
  [PriceKind.providerDailyClose, .officialSettlement, .avanzaSampledClose].find?
    (fun kind => kind.value = text)

def yahooAdapter : Adapter where
  source := "yahoo"
  priceKind := fun _ => some .providerDailyClose
  missing := fun asset session => s!"no settled Yahoo bar for {asset} session {session}"

def biquoteAdapter : Adapter where
  source := "biquote.io"
  priceKind := fun series => priceKindOf series.priceKind
  missing := fun asset session => s!"no provider bar for {asset} session {session}"

/-- One adapter for each provider. -/
def adapters : List (String × Adapter) :=
  [("biquote.io", biquoteAdapter), ("yahoo", yahooAdapter)]

/-- `CloseObservation(…)` for one bar; a provider close carries no sample. -/
def Adapter.observe (adapter : Adapter) (series : ProviderSeries) (fetchedAt : Int) (bar : Bar) :
    Except MarketDataError CloseObservation :=
  match adapter.priceKind series with
  | none => .error (.valueError "price_kind")
  | some kind =>
    if hkind : kind = .avanzaSampledClose then
      .error (.valueError "sampled close requires unadjusted Avanza provenance")
    else
      .ok
        { session := bar.session
          close := bar.close
          providerBarTime := some bar.time
          fetchedAt := fetchedAt
          source := adapter.source
          providerSymbol := series.providerSymbol
          priceKind := kind
          isAdjusted := series.isAdjusted
          registryVersion := series.registryVersion
          close_pos := bar.close_pos
          valid_sampled_close := by
            cases kind with
            | providerDailyClose => rfl
            | officialSettlement => rfl
            | avanzaSampledClose => exact absurd rfl hkind }

structure PriceRequestProcessor where
  reg : PriceRegistry
  tz : TimeZones
  /-- `date.isoformat`. -/
  isoformat : Int → String := fun day => toString day
  backoff : BackoffSettings := .standard
  abandonAfterDays : Nat := 7
  /-- Whether sampled closes come first (`avanza_first`) or not (`finance`). -/
  avanzaFirst : Bool := false
  abandon_pos : 1 ≤ abandonAfterDays := by decide

/-- Result of one processing attempt. -/
structure ProcessOutcome where
  completed : Bool
  published : Bool
  pendingReason : Option String := none

/-- What a finished tick records of itself. -/
structure PollState where
  lastPollAt : Int
  dueRequests : Nat
  lastPublished : Nat
  deriving DecidableEq

/-- Two minutes after its close a session is final. -/
def graceMicros : Int := 120000000

/-- Only the texts of the service's own exception are shown. -/
def fallbackReason : MarketDataError → String
  | .avanzaUnavailable message => message
  | _ => "AVANZA_READ_ERROR"

/-- Assemble the `PriceObserved` of a request. -/
def buildPriceObserved {reg : Registry} (request : PendingRequest reg) (envelope : Envelope)
    (baseline settlement : CloseObservation) : Except MarketDataError (PriceObserved reg) :=
  if h : (baseline.priceKind = .avanzaSampledClose ∨
      settlement.priceKind = .avanzaSampledClose) →
      baseline.priceKind = settlement.priceKind ∧
        baseline.sample.map (fun p => (p.currency, p.mappingVersion)) =
          settlement.sample.map (fun p => (p.currency, p.mappingVersion)) then
    .ok
      { messageId := envelope.messageId
        requestId := request.requestId
        predictionId := request.predictionId
        assetId := request.assetId
        baseline := baseline
        settlement := settlement
        consistent_sampled_pair := h }
  else if baseline.priceKind ≠ settlement.priceKind then
    .error (.valueError "cannot mix sampled and provider closes")
  else .error (.valueError "sampled pair currency/mapping mismatch")

namespace PriceRequestProcessor

variable (P : PriceRequestProcessor)

abbrev registry : Registry := P.reg.toLoadedRegistry.registry

/-- A request as the tables load it. -/
abbrev Pending : Type := PendingRequest P.registry

abbrev Service (α : Type) : Type := Proc (Repository P.registry) MarketDataError α

/-- `except PriceNotYetAvailableError`: the text of such an exception. -/
def unlessPending {α : Type} (p : P.Service α) : P.Service (Except String α) :=
  (p.bind (fun a => .ret (.ok a))).catchWith
    (fun e => if e.isPending then .ret (.error e.text) else .fail e)

def adapterFor (assetId : String) : Except MarketDataError (ProviderSeries × Adapter) :=
  match P.reg.resolve assetId with
  | .error e =>
    let text := (MarketDataError.ofRegistry e).text
    .error (.invalidObservation s!"unknown asset {assetId}: {text}")
  | .ok series =>
    match adapters.lookup series.provider with
    | none =>
      let configured := ", ".intercalate (adapters.map Prod.fst)
      .error (.invalidObservation (s!"no adapter configured for provider '{series.provider}' " ++
        s!"(asset {assetId}); configured: {configured}"))
    | some adapter => .ok (series, adapter)

/-- One adapter's `get_close`: the first bar of the session. -/
def closeFrom (purpose : Purpose) (series : ProviderSeries) (adapter : Adapter) (session : Int) :
    P.Service CloseObservation := do
  let fetched ← ask (.fetchBars purpose series session)
  let observations ← Proc.onOk .ret (fetched.1.mapM (adapter.observe series fetched.2))
  match observations.find? (fun observation => observation.session = session) with
  | some observation => .ret observation
  | none =>
    .fail (.priceNotYetAvailable (adapter.missing series.assetId (P.isoformat session)))

/-- `adapter_for(asset_id).get_close(asset_id, session)`. -/
def adapterClose (purpose : Purpose) (assetId : String) (session : Int) :
    P.Service CloseObservation :=
  Proc.onOk (fun served => P.closeFrom purpose served.1 served.2 session) (P.adapterFor assetId)

/-- The asset's own provider or, when its bar is missing, its fallback's. -/
def getClose (requestId : Uuid) (leg : Leg) (assetId : String) (session : Int) :
    P.Service CloseObservation :=
  (P.adapterClose ⟨requestId, assetId, leg, .primary⟩ assetId session).catchWith (fun e =>
    if e.isPending then
      match P.reg.resolve assetId with
      | .error unknown => .fail (.ofRegistry unknown)
      | .ok series =>
        match series.fallback with
        | none => .fail e
        | some fallback => P.adapterClose ⟨requestId, assetId, leg, .fallback⟩ fallback session
    else .fail e)

/-- `is_session_complete`, with an unknown time zone as invalid data. -/
def sessionComplete (series : ProviderSeries) (session now : Int) : Except MarketDataError Bool :=
  match zone P.tz series.timezone with
  | .error (.unsupportedTimezone message) => .error (.invalidObservation message)
  | .ok z => do
    let completedAt ← datetimeOf (z.sessionCompletedAt session series.sessionCompletionHour
      series.sessionCompletionMinute)
    return completedAt ≤ now

/-- An open market is never a provider failure. -/
def awaitSettlement (request : P.Pending) (now : Int) : P.Service Unit :=
  ((ask (.sessionWindow request.requestId request.assetId request.settlementSession)).bind
    (fun closesAt =>
      if now < closesAt + graceMicros then
        .fail (.avanzaPending "SESSION_STILL_OPEN_OR_FINALIZING")
      else .ret ())).catchWith (fun e =>
    match e with
    | .avanzaPending message => .fail (.avanzaPending message)
    | _ =>
      match P.reg.resolve request.assetId.value with
      | .error unknown => .fail (.ofRegistry unknown)
      | .ok series =>
        Proc.onOk (fun complete =>
            if complete then .ret () else .fail (.avanzaPending "SESSION_STILL_OPEN"))
          (P.sessionComplete series request.settlementSession now))

/-- Both closes from the samples, of one mapping version. -/
def sampledPair (request : P.Pending) (now : Int) :
    P.Service (CloseObservation × CloseObservation) := do
  let first ← ask (.sampledClose request.requestId .baseline request.assetId
    request.baselineSession now)
  let last ← ask (.sampledClose request.requestId .settlement request.assetId
    request.settlementSession now)
  if first.sample.isSome ∧ last.sample.isSome ∧
      first.sample.map SampleProvenance.mappingVersion =
        last.sample.map SampleProvenance.mappingVersion then
    .ret (first, last)
  else .fail (.avanzaUnavailable "PAIR_MAPPING_CHANGED")

/-- What the two provider closes must agree on. -/
def samePair (first last : CloseObservation) : Bool :=
  first.source = last.source ∧ first.priceKind = last.priceKind ∧
    first.isAdjusted = last.isAdjusted ∧ first.registryVersion = last.registryVersion

/-- Both closes from the providers, of the asset's own listing. -/
def financePair (request : P.Pending) (reason : String) :
    P.Service (CloseObservation × CloseObservation) := do
  let first ← P.getClose request.requestId .baseline request.assetId.value request.baselineSession
  let last ← P.getClose request.requestId .settlement request.assetId.value
    request.settlementSession
  match P.reg.resolve request.assetId.value with
  | .error unknown => .fail (.ofRegistry unknown)
  | .ok series =>
    if first.providerSymbol ≠ series.providerSymbol ∨
        last.providerSymbol ≠ series.providerSymbol then
      .fail (.avanzaUnavailable "FINANCE_FALLBACK_LISTING_MISMATCH")
    else if samePair first last then
      .ret ({ first with fallbackReason := some reason },
        { last with fallbackReason := some reason })
    else .fail (.avanzaUnavailable "FINANCE_FALLBACK_PAIR_MISMATCH")

def getPair (request : P.Pending) (now : Int) :
    P.Service (CloseObservation × CloseObservation) := do
  P.awaitSettlement request now
  (P.sampledPair request now).catchWith (fun e =>
    match e with
    | .avanzaPending message => .fail (.avanzaPending message)
    | _ => P.financePair request (fallbackReason e))

def defer (request : P.Pending) (reason : String) : P.Service Unit := do
  let now ← ask (.currentTime (.deferral request.requestId))
  let nextAttempt ← Proc.onOk .ret (P.backoff.nextAttempt now request.attempts)
  ask (.recordFailure request.requestId reason nextAttempt)

/-- `settlement_session + timedelta(days=…)`. -/
def graceEnds (settlementSession : Int) : Except MarketDataError Int := do
  let _ ← timedeltaOf (P.abandonAfterDays * microsPerDay)
  if settlementSession + P.abandonAfterDays ≤ lastDay then
    .ok (settlementSession + P.abandonAfterDays)
  else .error (.overflow "date value out of range")

/-- Defer a missing bar, or abandon it after the grace window. -/
def deferOrAbandon (request : P.Pending) (reason : String) (now : Int) : P.Service Bool := do
  let graceEnds ← Proc.onOk .ret (P.graceEnds request.settlementSession)
  if now / microsPerDay ≤ graceEnds then do
    P.defer request reason
    .ret false
  else do
    ask (.abandonRequest request.requestId
      (s!"abandoned after {P.abandonAfterDays} days past settlement " ++
        P.isoformat request.settlementSession ++ ": " ++ reason))
    .ret true

def observeBaseline (request : P.Pending) : P.Service CloseObservation := do
  let baseline ← P.getClose request.requestId .baseline request.assetId.value
    request.baselineSession
  if request.state = .pending then do
    ask (.markBaselineObserved request.requestId request.assetId baseline)
    .ret baseline
  else .ret baseline

/-- Build the message and complete the request. -/
def complete (request : P.Pending) (baseline settlement : CloseObservation) :
    P.Service ProcessOutcome := do
  let envelope ← ask (.newMessage request.requestId)
  let message ← Proc.onOk .ret (buildPriceObserved request envelope baseline settlement)
  let published ← ask (.completeRequest message)
  .ret { completed := true, published := published }

/-- What an attempt reports that completed nothing. -/
def unfinished (reason : String) : ProcessOutcome :=
  { completed := false, published := false, pendingReason := some reason }

def processAvanzaFirst (request : P.Pending) (now : Int) : P.Service ProcessOutcome := do
  match ← P.unlessPending (P.getPair request now) with
  | .error text =>
    let abandoned ← P.deferOrAbandon request text now
    .ret (unfinished (if abandoned then "abandoned" else "pending_price"))
  | .ok pair => P.complete request pair.1 pair.2

/-- The settlement half of an attempt. -/
def settle (request : P.Pending) (series : ProviderSeries)
    (baseline : CloseObservation) (now : Int) : P.Service ProcessOutcome := do
  let complete ← Proc.onOk .ret (P.sessionComplete series request.settlementSession now)
  if complete then
    match ← P.unlessPending (P.getClose request.requestId .settlement request.assetId.value
        request.settlementSession) with
    | .error text =>
      let abandoned ← P.deferOrAbandon request ("settlement pending: " ++ text) now
      .ret (unfinished (if abandoned then "abandoned" else "settlement_lag"))
    | .ok settlement => P.complete request baseline settlement
  else do
    P.defer request "settlement session not yet complete"
    .ret (unfinished "settlement_not_complete")

def processFinance (request : P.Pending) (now : Int) : P.Service ProcessOutcome :=
  match P.reg.resolve request.assetId.value with
  | .error unknown => .fail (.ofRegistry unknown)
  | .ok series => do
    match ← P.unlessPending (P.observeBaseline request) with
    | .error text =>
      let abandoned ← P.deferOrAbandon request ("baseline pending: " ++ text) now
      .ret (unfinished (if abandoned then "abandoned" else "baseline"))
    | .ok baseline => P.settle request series baseline now

/-- Advance a request as far as possible. -/
def process (request : P.Pending) (now : Int) : P.Service ProcessOutcome :=
  if P.avanzaFirst then P.processAvanzaFirst request now else P.processFinance request now

/-- A row that fails is recorded and left. -/
def relay : List (OutboxRow P.registry) → P.Service Nat
  | [] => .ret 0
  | row :: rest => do
    let error ← ((ask (.publish row.payload)).bind (fun _ => .ret none)).catchWith
      (fun e => .ret (some e.text))
    match error with
    | some text => do
      ask (.recordPublishError row.messageId text)
      relay rest
    | none => do
      ask (.markDelivered row.messageId)
      let delivered ← relay rest
      .ret (delivered + 1)

def publishPending : P.Service Nat := do
  let rows ← ask (.pendingOutbox 100)
  P.relay rows

/-- Persist the request, then attempt processing. -/
def handlePriceRequest (message : PriceRequested P.registry) : P.Service Unit := do
  let _ ← ask (.registerRequest message)
  let openRequests ← ask .loadOpenRequests
  match openRequests.find? (fun request => request.requestId = message.requestId) with
  | none => .ret ()
  | some target => do
    let now ← ask (.currentTime (.attempt target.requestId))
    let outcome ← (P.process target now).catchWith (fun e =>
      if e.isInvalid then .fail (.messagePoison e.text) else .fail e)
    if outcome.published then do
      let _ ← P.publishPending
      .ret ()
    else .ret ()

/-- Re-drive the requests; only invalid data is caught here. -/
def reDrive (now : Int) : List P.Pending → P.Service Unit
  | [] => .ret ()
  | request :: rest => do
    let _ ← ((P.process request now).bind (fun _ => .ret ())).catchWith (fun e =>
      if e.isInvalid then .ret () else .fail e)
    reDrive now rest

/-- What a tick does with the requests it loaded. -/
def drive (openRequests : List P.Pending) : P.Service PollState := do
  let now ← ask (.currentTime .tick)
  P.reDrive now openRequests
  let published ← P.publishPending
  .ret { lastPollAt := now, dueRequests := openRequests.length, lastPublished := published }

/-- Re-drive open requests and relay the outbox; `none` is a tick that failed. -/
def runSchedulerTick : P.Service (Option PollState) :=
  (do
    let openRequests ← ask .loadOpenRequests
    let state ← P.drive openRequests
    .ret (some state)).catchWith (fun _ => .ret none)

/-- What the service runs: a delivery of the consumer, or a tick. -/
inductive Job (reg : Registry) where
  | deliver (message : PriceRequested reg)
  | tick

def run : Job P.registry → P.Service Unit
  | .deliver message => P.handlePriceRequest message
  | .tick => P.runSchedulerTick.bind (fun _ => .ret ())

end PriceRequestProcessor

/-- An asset on a UTC market that closes at five. -/
def declaredMetal (assetId providerSymbol : String) (fallback : Option String) : DeclaredAsset where
  assetId := assetId
  timezone := "UTC"
  currency := "USD"
  sessionCompleteAt := goldEntry.sessionCompleteAt
  name := assetId
  code := assetId
  provider := "yahoo"
  providerSymbol := providerSymbol
  economicIdentity := assetId
  expectedExchange := "COMEX"
  keywords := []
  fallback := fallback
  groupId := "METALS"

/-- Gold futures fall back to a gold fund; silver has no fallback. -/
def metalPrices : PriceRegistry where
  registryVersion := "v1"
  rolloverPolicy := "PROVIDER_MANAGED_CONTINUOUS_INCLUDE_ALL_V1"
  assets :=
    ⟨[declaredMetal "GOLD" "GC=F" (some "GOLD_FUND"), declaredMetal "GOLD_FUND" "GLD" none,
      declaredMetal "SILVER" "SI=F" none], by decide⟩
  groups := ∅
  provider_known := by
    intro entry hentry
    rcases List.mem_cons.mp hentry with rfl | hentry
    · decide
    · rcases List.mem_cons.mp hentry with rfl | hentry
      · decide
      · rcases List.mem_cons.mp hentry with rfl | hentry
        · decide
        · cases hentry
  fallback_known := by
    intro entry hentry fallback hfallback
    rcases List.mem_cons.mp hentry with rfl | hentry
    · cases hfallback
      decide
    · rcases List.mem_cons.mp hentry with rfl | hentry
      · cases hfallback
      · rcases List.mem_cons.mp hentry with rfl | hentry
        · cases hfallback
        · cases hentry

def metalProcessor : PriceRequestProcessor where
  reg := metalPrices
  tz := utcOnly

def barOf (session : Int) (close : Rat) (hclose : 0 < close) : Bar :=
  ⟨session, close, session * microsPerDay, hclose⟩

def requestFor (requestId : Uuid) (assetId : AssetId metalProcessor.registry) :
    PriceRequested metalProcessor.registry where
  messageId := requestId
  correlationId := requestId
  causationId := none
  occurredAt := 0
  requestId := requestId
  predictionId := requestId
  assetId := assetId
  baselineSession := 0
  settlementSession := 1
  marketCalendar := "weekdays"

def silverAsset : AssetId metalProcessor.registry := ⟨"SILVER", by decide⟩

def goldAsset : AssetId metalProcessor.registry := ⟨"GOLD", by decide⟩

/-- Surroundings on one day in which every provider has these bars. -/
def envOn (day : Int) (bars : List Bar) : Env metalProcessor.registry where
  clock := fun _ => day * microsPerDay
  bars := fun _ => .ok (bars, day * microsPerDay)

end MarketData
