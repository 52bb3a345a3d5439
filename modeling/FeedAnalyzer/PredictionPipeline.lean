import FeedAnalyzer.PredictionStore

/-!
# The Prediction pipeline

`process_event` adds an event to the window of each asset it affects.
`close_ready_contexts` decides the due contexts from the causal graph and propagates the
directions along correlation edges.  `_store_prediction` settles whether a decision
becomes a prediction.
-/

namespace Prediction

open Feed Transact Calendar

structure PredictionSettings where
  contextWindowMinutes : Nat := 15
  closeGraceMinutes : Nat := 5
  policy : DecisionPolicy := {}
  maxDailyPredictionsPerAsset : Nat := 2
  maxPropagationDepth : Nat := 3
  propagationMinConfidence : Rat := 30 / 100
  priceElevatedThresholdPct : Rat := 1 / 100
  window_pos : 0 < contextWindowMinutes := by decide
  daily_pos : 1 ≤ maxDailyPredictionsPerAsset := by decide
  depth_range : 1 ≤ maxPropagationDepth ∧ maxPropagationDepth ≤ 10 := by decide

structure PredictionPipeline where
  settings : PredictionSettings := {}
  tz : TimeZones
  /-- Whether evidence capture is switched on. -/
  research : Bool := false

/-- The window, aligned to the UTC day, that covers an instant. -/
def windowBounds (eventTime : Int) (windowMinutes : Nat) : Int × Int :=
  let dayStart := eventTime - eventTime % microsPerDay
  let bucket := eventTime % microsPerDay / (windowMinutes * microsPerMinute)
  let start := dayStart + bucket * (windowMinutes * microsPerMinute)
  (start, start + windowMinutes * microsPerMinute)

/-- The latest close exceeds the mean of the earlier ones by the threshold. -/
def isElevated (threshold : Rat) : List Rat → Bool
  | [] => false
  | [_] => false
  | latest :: earlier =>
    let mean := earlier.sum / earlier.length
    if mean ≤ 0 then false else mean * (1 + threshold) < latest

variable {reg : Registry}

/-- The tags of each event type, in the order the types come. -/
def conditionsByType (events : List ContextEvent) : List (EventType × List ConditionCode) :=
  (events.map ContextEvent.eventType).eraseDups.map (fun eventType =>
    (eventType, ((events.filter (fun event => event.eventType = eventType)).flatMap
      ContextEvent.contextTags).eraseDups))

/-- A factor is resolved only when every event of its type is. -/
def polarityByType (events : List ContextEvent) : Polarities :=
  (events.map ContextEvent.eventType).eraseDups.map (fun eventType =>
    (eventType, if (events.filter (fun event => event.eventType = eventType)).all
        (fun event => event.polarity = .resolution) then .resolution else .occurrence))

/-- The events whose factor fired; all of them when none did. -/
def contributingEvents (decision : Decision) (events : List ContextEvent) : List ContextEvent :=
  let filtered := events.filter (fun event => event.eventType ∈ decision.contributingFactors)
  if decision.contributingFactors = [] ∨ filtered = [] then events else filtered

namespace PredictionPipeline

variable (P : PredictionPipeline)

def assignEvents (event : ContextEvent) (windowStart windowEnd : Int) :
    List (AssetId reg) → Service reg Unit
  | [] => pure ()
  | assetId :: rest => do
    ask (.assignEvent assetId event windowStart windowEnd)
    assignEvents event windowStart windowEnd rest

def recordEvent (eventId : Uuid) : Service reg Unit :=
  if P.research then ask (.recordEvent eventId) else pure ()

def capture (contextId : Uuid) : Service reg Unit :=
  if P.research then ask (.capture contextId) else pure ()

def contextEvent (event : EventDetected reg) : ContextEvent where
  eventId := event.eventId
  eventType := event.eventType
  firstSeenAt := event.firstSeenAt
  polarity := event.polarity
  contextTags := event.contextTags

/-- Add an event to each affected asset's window. -/
def processEvent (event : EventDetected reg) : Service reg Unit := do
  P.recordEvent event.eventId
  let bounds := windowBounds event.firstSeenAt P.settings.contextWindowMinutes
  assignEvents (contextEvent event) bounds.1 bounds.2 event.affectedAssetIds

/-- The conditions that gate a factor's edges. -/
def gate (elevated : Bool) (conditions : List ConditionCode) : List ConditionCode :=
  if elevated ∧ ConditionCode.riskPremiumElevated ∉ conditions then
    conditions ++ [.riskPremiumElevated]
  else conditions

/-- Each event type is asked once, whatever the number of its events. -/
def firingEdges (assetId : AssetId reg) (elevated : Bool) :
    List (EventType × List ConditionCode) → List (FiringEdge reg) →
      Service reg (List (FiringEdge reg))
  | [], edges => pure edges
  | (eventType, conditions) :: rest, edges => do
    let fired ← ask (.getFiringEdges eventType assetId (gate elevated conditions))
    firingEdges assetId elevated rest (edges ++ fired)

/-- The `except GraphError` clause of the sweep. -/
def deferInference (contextId : Uuid) :
    PredictionError → Service reg (Option (List (FiringEdge reg)))
  | .graph _ => do
    P.capture contextId
    ask (.setContextState contextId .errorRetryable)
    pure none
  | e => .fail e

/-- The firing edges, or `none` when inference is deferred. -/
def edgesOrDefer (record : ContextRecord reg) (events : List ContextEvent) (elevated : Bool) :
    Service reg (Option (List (FiringEdge reg))) :=
  ((firingEdges record.assetId elevated (conditionsByType events) []).bind
    (fun edges => .ret (some edges))).catchWith (P.deferInference record.contextId)

/-- `local_date_in` in the asset's own zone. -/
def marketZone (timezoneName : String) : Service reg Zone :=
  match zone P.tz timezoneName with
  | .ok z => pure z
  | .error (.unsupportedTimezone message) => .fail (.unsupportedTimezone message)

/-- A trading day of the asset's own calendar on which a price can be read. -/
def isMarketOpen (assetId : AssetId reg) (now : Int) : Service reg Bool :=
  match reg.resolve assetId.value with
  | .error _ => pure false
  | .ok series => do
    let z ← P.marketZone series.timezone
    if isTradingDay (z.localDateIn now) then
      let closes ← ask (.recentCloses assetId)
      pure (1 ≤ closes.length : Bool)
    else pure false

def withinDailyLimit (assetId : AssetId reg) (now : Int) : Service reg Bool :=
  match reg.resolve assetId.value with
  | .error _ => pure true
  | .ok series => do
    let z ← P.marketZone series.timezone
    let count ← ask (.countPredictionsOn assetId (z.localDateIn now) series.timezone)
    pure (count < P.settings.maxDailyPredictionsPerAsset : Bool)

def idempotencyKey (record : ContextRecord reg) (depth : Nat) : IdempotencyKey where
  assetId := record.assetId.value
  windowStart := record.windowStart
  horizon := .oneTradingDay
  contextVersion := record.contextVersion
  depth := depth

def predictionMade (record : ContextRecord reg) (decision : Decision) (now : Int)
    (events : List ContextEvent) (depth : Nat) (chain : Chain reg)
    (supersedes : Option Uuid) (stamp : PredictionStamp) : PredictionMade reg where
  messageId := stamp.messageId
  correlationId := stamp.correlationId
  causationId := none
  occurredAt := now
  predictionId := stamp.predictionId
  contextId := record.contextId
  contextVersion := record.contextVersion
  eventIds := (contributingEvents decision events).map ContextEvent.eventId
  assetId := record.assetId
  direction := decision.direction
  magnitude := decision.magnitude
  confidence := decision.confidence
  horizon := .oneTradingDay
  rationale := decision.rationale
  contributingEdges := decision.contributingEdges
  decisionAt := now
  supersedesPredictionId := supersedes
  decisionMethod := .graphOnly
  propagationDepth := depth
  propagationChain := chain

def writePrediction (record : ContextRecord reg) (decision : Decision) (now : Int)
    (events : List ContextEvent) (depth : Nat) (chain : Chain reg)
    (supersedes : Option Uuid) : Service reg Bool := do
  let stamp ← ask .newPrediction
  ask (.storePredictionWithOutbox
    (predictionMade record decision now events depth chain supersedes stamp)
    (idempotencyKey record depth) supersedes.isSome)

/-- On an open market: a new direction, within the daily limit. -/
def storeIfTurned (record : ContextRecord reg) (decision : Decision) (now : Int)
    (events : List ContextEvent) (depth : Nat) (chain : Chain reg)
    (active : Option ActivePrediction) : Service reg Bool :=
  if active.map ActivePrediction.direction = some decision.direction then pure false
  else do
    if ← P.withinDailyLimit record.assetId now then
      writePrediction record decision now events depth chain none
    else pure false

/-- Persist one prediction; true when it is stored. -/
def storePrediction (record : ContextRecord reg) (decision : Decision) (now : Int)
    (events : List ContextEvent) (depth : Nat) (chain : Chain reg) : Service reg Bool := do
  let active ← ask (.latestActivePrediction record.assetId)
  let marketOpen ← P.isMarketOpen record.assetId now
  if 0 < depth ∧ active.any (fun a => a.direction ≠ decision.direction) then pure false
  else if marketOpen then P.storeIfTurned record decision now events depth chain active
  else
    -- collapse to one stance: supersede and withdraw the standing one
    writePrediction record decision now events depth chain
      (active.map ActivePrediction.predictionId)

/-- An asset of this level, and how it was reached. -/
structure PassEntry (reg : Registry) where
  assetId : AssetId reg
  direction : Direction
  chain : Chain reg

/-- A correlation edge to a target, with the chain of its source. -/
structure Arrival (reg : Registry) where
  firing : FiringEdge reg
  source : AssetId reg
  chain : Chain reg

/-- The arrivals of each target. -/
abbrev Inbound (reg : Registry) : Type := List (AssetId reg × List (Arrival reg))

def upstreamCondition : Direction → ConditionCode
  | .up => .upstreamUp
  | _ => .upstreamDown

def asFiringEdge (source : AssetId reg) (condition : ConditionCode) (edge : CorrelationEdge reg) :
    FiringEdge reg where
  assetId := edge.targetAssetId
  direction := edge.direction
  weight := edge.weight
  alpha := edge.alpha
  beta := edge.beta
  condition := some condition
  correlationSourceId := some source
  weight_range := edge.weight_range
  alpha_pos := edge.alpha_pos
  beta_pos := edge.beta_pos

def addArrival (target : AssetId reg) (arrival : Arrival reg) : Inbound reg → Inbound reg
  | [] => [(target, [arrival])]
  | (known, arrivals) :: rest =>
    if known = target then (known, arrivals ++ [arrival]) :: rest
    else (known, arrivals) :: addArrival target arrival rest

/-- A graph failure at one source skips this source. -/
def skipGraphError : PredictionError → Service reg (List (CorrelationEdge reg))
  | .graph _ => pure []
  | e => .fail e

/-- Gather the edges that reach each target not visited yet. -/
def collectInbound (visited : List (AssetId reg)) :
    List (PassEntry reg) → Inbound reg → Service reg (Inbound reg)
  | [], inbound => pure inbound
  | entry :: rest, inbound => do
    let condition := upstreamCondition entry.direction
    let edges ← (ask (.getCorrelationEdges entry.assetId condition)).catchWith skipGraphError
    collectInbound visited rest (edges.foldl (fun inbound edge =>
      if edge.targetAssetId ∈ visited then inbound
      else addArrival edge.targetAssetId
        ⟨asFiringEdge entry.assetId condition edge, entry.assetId, entry.chain⟩ inbound) inbound)

def longestChain (arrivals : List (Arrival reg)) : Chain reg :=
  arrivals.foldl (fun longest arrival =>
    if longest.length < arrival.chain.length then arrival.chain else longest) []

def hops (target : AssetId reg) (direction : Direction) (arrivals : List (Arrival reg)) :
    Chain reg :=
  arrivals.map (fun arrival =>
    { sourceAssetId := arrival.source
      targetAssetId := target
      condition := arrival.firing.condition.getD .upstreamUp
      direction := direction
      edgeWeight := arrival.firing.weight })

/-- The source context, re-targeted to another asset. -/
def proxyRecord (source : ContextRecord reg) (assetId : AssetId reg) : ContextRecord reg :=
  { source with assetId := assetId }

/-- Decide each target once, with every edge that reaches it. -/
def decideTargets (record : ContextRecord reg) (now : Int) (events : List ContextEvent)
    (depth : Nat) :
    Inbound reg → List (PassEntry reg) →
      Service reg (List (PassEntry reg))
  | [], stored => pure stored
  | (target, arrivals) :: rest, stored =>
    match Prediction.decide P.settings.policy target (arrivals.map Arrival.firing) [] false with
    | .error (.zeroDivision message) => .fail (.zeroDivision message)
    | .ok none => decideTargets record now events depth rest stored
    | .ok (some decision) =>
      if decision.direction = .neutral then
        decideTargets record now events depth rest stored
      else do
        let chain := longestChain arrivals ++ hops target decision.direction arrivals
        if ← P.storePrediction (proxyRecord record target) decision now events depth chain then
          decideTargets record now events depth rest
            (stored ++ [⟨target, decision.direction, chain⟩])
        else decideTargets record now events depth rest stored

/-- `while current_pass and depth < max_propagation_depth`; the levels left are the fuel. -/
def propagateLevels (record : ContextRecord reg) (now : Int) (events : List ContextEvent) :
    Nat → Nat → List (PassEntry reg) → List (AssetId reg) → Nat →
      Service reg Nat
  | 0, _, _, _, produced => pure produced
  | left+1, depth, pass, visited, produced => do
    if pass.isEmpty then pure produced
    else
      let inbound ← collectInbound visited pass []
      let stored ← P.decideTargets record now events (depth + 1) inbound []
      propagateLevels record now events left (depth + 1) stored
        (visited ++ inbound.map Prod.fst) (produced + stored.length)

def runPropagation (record : ContextRecord reg) (direction : Direction)
    (visited : List (AssetId reg)) (now : Int) (events : List ContextEvent) : Service reg Nat :=
  P.propagateLevels record now events P.settings.maxPropagationDepth 0
    [⟨record.assetId, direction, []⟩] visited 0

/-- A direct decision that waits for the propagation pass. -/
structure Deferred (reg : Registry) where
  record : ContextRecord reg
  decision : Decision
  events : List ContextEvent

/-- What the first pass has gathered. -/
structure SweepState (reg : Registry) where
  produced : Nat := 0
  directAssets : List (AssetId reg) := []
  deferred : List (Deferred reg) := []

/-- Store the direct prediction of one decided context. -/
def closeDecided (record : ContextRecord reg) (decision : Decision) (now : Int)
    (events : List ContextEvent) (st : SweepState reg) : Service reg (SweepState reg) := do
  let stored ← P.storePrediction record decision now events 0 []
  let produced := st.produced + (if stored then 1 else 0)
  if decision.direction = .neutral then
    ask (.setContextState record.contextId .predicted)
    pure { st with produced := produced }
  else
    pure { produced := produced
           directAssets := st.directAssets ++ [record.assetId]
           deferred := st.deferred ++ [⟨record, decision, events⟩] }

/-- Decide one context whose edges are known. -/
def closeInferred (record : ContextRecord reg) (now : Int) (events : List ContextEvent)
    (elevated : Bool) (edges : List (FiringEdge reg)) (st : SweepState reg) :
    Service reg (SweepState reg) :=
  match Prediction.decide P.settings.policy record.assetId edges (polarityByType events)
      elevated with
  | .error (.zeroDivision message) => .fail (.zeroDivision message)
  | .ok none => do
    P.capture record.contextId
    ask (.setContextState record.contextId .predicted)
    pure st
  | .ok (some decision) => do
    P.capture record.contextId
    P.closeDecided record decision now events st

/-- One turn of the first pass. -/
def closeRecord (now : Int) (record : ContextRecord reg) (st : SweepState reg) :
    Service reg (SweepState reg) := do
  let events ← ask (.loadContextEvents record.contextId)
  let closes ← ask (.recentCloses record.assetId)
  let elevated := isElevated P.settings.priceElevatedThresholdPct closes
  match ← P.edgesOrDefer record events elevated with
  | none => pure st
  | some edges => P.closeInferred record now events elevated edges st

def closeRecords (now : Int) : List (ContextRecord reg) → SweepState reg →
    Service reg (SweepState reg)
  | [], st => pure st
  | record :: rest, st => do
    let st ← P.closeRecord now record st
    closeRecords now rest st

/-- Propagate one direct decision, unless its confidence is too low. -/
def propagateRecord (now : Int) (directAssets : List (AssetId reg)) (d : Deferred reg) :
    Service reg Nat :=
  if d.decision.confidence.1 < P.settings.propagationMinConfidence then pure 0
  else P.runPropagation d.record d.decision.direction (d.record.assetId :: directAssets) now d.events

/-- The second pass, over the direct decisions. -/
def propagateDeferred (now : Int) (directAssets : List (AssetId reg)) :
    List (Deferred reg) → Nat → Service reg Nat
  | [], produced => pure produced
  | d :: rest, produced => do
    let stored ← P.propagateRecord now directAssets d
    ask (.setContextState d.record.contextId .predicted)
    propagateDeferred now directAssets rest (produced + stored)

def closeClaimed (now : Int) (claimed : List (ContextRecord reg)) : Service reg Nat := do
  let st ← P.closeRecords now claimed {}
  P.propagateDeferred now st.directAssets st.deferred st.produced

/-- Close all due contexts into predictions. -/
def closeReadyContexts : Service reg Nat := do
  let now ← ask .currentTime
  let claimed ← ask (.claimReadyContexts now P.settings.closeGraceMinutes)
  P.closeClaimed now claimed

end PredictionPipeline

/-- A unit of work of the service: an event of the queue, or a sweep. -/
inductive Job (reg : Registry) where
  | event (message : EventDetected reg)
  | closeSweep

def PredictionPipeline.perform (P : PredictionPipeline) : Job reg → Service reg Nat
  | .event message => (P.processEvent message).bind (fun _ => .ret 0)
  | .closeSweep => P.closeReadyContexts

def utcPipeline : PredictionPipeline where
  settings := { policy := { halfpoint_pos := rat_half_pos } }
  tz := utcOnly

/-- Sanctions that affect gold. -/
def goldEvent (eventId : Uuid) (firstSeenAt : Int) : EventDetected goldRegistry where
  messageId := eventId
  correlationId := eventId
  occurredAt := firstSeenAt
  eventId := eventId
  clusterId := eventId
  canonicalSummary := "summary"
  eventType := .sanctions
  actor := none
  action := none
  object := none
  affectedAssetIds := [gold]
  polarity := .occurrence
  contextTags := []
  firstSeenAt := firstSeenAt
  lastSeenAt := firstSeenAt
  sources := []
  factConflicts := []
  extractionMethod := .localOnly
  llmMetadata := none

/-- A sweep that claims one context and finds no edge. -/
def quietSweep : List (Answer goldRegistry) :=
  [{ now := 20 * microsPerMinute }, {}, {}, {}, {}, {}]

end Prediction
