import FeedAnalyzer.CredibilityStore

/-!
# The Credibility pipeline

`process` moves the weight of every edge that contributed to a scored prediction,
credits the sources, and claims the guard row.  The ids of the edges are parsed in
the same loop that reads and writes the weights.
-/

namespace Credibility

open Feed Transact CausalGraph Prediction

/-- `EventType(text)`. -/
def eventTypes : List EventType :=
  [.militaryConflict, .straitClosure, .supplyDisruption, .sanctions, .rateDecision,
    .inflationChange, .recessionSignal, .corporateEarnings, .politicalTransition,
    .naturalDisaster, .corporateAcquisition, .executiveChange, .regulatoryAction, .debtCrisis,
    .restructuring, .legalDispute, .productRecall, .dividendChange, .contractWin, .shareBuyback,
    .ipoListing, .cybersecurityIncident, .tradePolicy, .fiscalPolicy, .currencyCrisis,
    .sovereignDebt, .geopoliticalTension, .commodityPriceShock, .economicDataRelease,
    .pandemicOutbreak, .energyPolicy, .other, .sport, .entertainment, .lifestyle]

def parseEventType (text : String) : Option EventType :=
  eventTypes.find? fun eventType => eventType.value = text

def conditionCodes : List ConditionCode :=
  [.transportAffected, .safeHavenOnly, .riskPremiumElevated, .upstreamUp, .upstreamDown]

/-- `ConditionCode(text)`. -/
def parseCondition (text : String) : Option ConditionCode :=
  conditionCodes.find? fun condition => condition.value = text

/-- `text.partition(sep)`. -/
def partitionAt (sep text : String) : String × Bool × String :=
  let cut := Text.partition sep.toList text.toList
  (String.ofList cut.1, cut.2.1, String.ofList cut.2.2)

/-- `SOURCE|UPSTREAM_*->TARGET`; `none` for any other id. -/
def parseCorrelationEdgeId (reg : Registry) (edgeId : String) :
    Except CredibilityError (Option (AssetId reg × ConditionCode × AssetId reg)) :=
  let (left, sep, targetStr) := partitionAt "->" edgeId
  if sep = false then .ok none
  else
    let (sourceStr, condSep, conditionStr) := partitionAt "|" left
    match parseCondition conditionStr with
    | some condition =>
      if condSep = true ∧ condition ∈ [.upstreamUp, .upstreamDown] then
        match AssetId.parse reg sourceStr, AssetId.parse reg targetStr with
        | .ok source, .ok target => .ok (some (source, condition, target))
        | _, _ => .error (.invalidScoredMessage
            s!"correlation edge_id '{edgeId}' names an unknown asset")
      else .ok none
    | none => .ok none

/-- What an id of a causal edge points at. -/
inductive ParsedTarget (reg : Registry) where
  | asset (assetId : AssetId reg)
  | group (groupId : String)

/-- `FACTOR->TARGET` or `FACTOR|CONDITION->TARGET`, with an asset or a group as target. -/
def parseEdgeId (loaded : LoadedRegistry) (edgeId : String) : Except CredibilityError
      (EventType × Option ConditionCode × ParsedTarget loaded.registry) :=
  let (left, sep, targetStr) := partitionAt "->" edgeId
  if sep = false ∨ left = "" ∨ targetStr = "" then
    .error (.invalidScoredMessage
      s!"malformed edge_id '{edgeId}' (expected 'FACTOR->TARGET' or 'FACTOR|CONDITION->TARGET')")
  else
    let (factorStr, condSep, conditionStr) := partitionAt "|" left
    match parseEventType factorStr, condSep, parseCondition conditionStr with
    | some factor, false, _ => target factor none targetStr
    | some factor, true, some condition => target factor (some condition) targetStr
    | _, _, _ => .error (.invalidScoredMessage s!"unknown factor/condition in edge_id '{edgeId}'")
where
  target (factor : EventType) (condition : Option ConditionCode) (targetStr : String) :
      Except CredibilityError (EventType × Option ConditionCode × ParsedTarget loaded.registry) :=
    match AssetId.parse loaded.registry targetStr with
    | .ok assetId => .ok (factor, condition, .asset assetId)
    | .error _ =>
      -- not an asset: the only other legal target is a group
      if loaded.groups.has targetStr then .ok (factor, condition, .group targetStr)
      else .error (.invalidScoredMessage
        s!"target '{targetStr}' in edge_id '{edgeId}' is neither a known asset nor a known asset group")

/-- Python's `sum` over floats, which adds up what each addition loses beside the total. -/
def floatSum : List Rat → Rat
  | [] => 0
  | first :: rest =>
    let sums := rest.foldl step (first, 0)
    Binary64.round (sums.1 + sums.2)
where
  step (sums : Rat × Rat) (x : Rat) : Rat × Rat :=
    let total := Binary64.round (sums.1 + x)
    let lost := if |x| ≤ |sums.1| then Binary64.round (Binary64.round (sums.1 - total) + x)
      else Binary64.round (Binary64.round (x - total) + sums.1)
    (total, Binary64.round (sums.2 + lost))

/-- The share of each id in the total influence; the last occurrence of an id counts. -/
def computeProportionalCredits (edges : List ContributingEdge) : List (String × Rat) :=
  let total := floatSum (edges.map ContributingEdge.influenceWeight)
  if total ≤ 0 then
    edges.reverse.map fun edge => (edge.edgeId, Binary64.round (1 / (edges.length : Rat)))
  else edges.reverse.map fun edge => (edge.edgeId, Binary64.round (edge.influenceWeight / total))

/-- `credits[edge_id]`. -/
def creditOf (edges : List ContributingEdge) (edgeId : String) : Rat :=
  ((computeProportionalCredits edges).lookup edgeId).getD 0

/-- Python's own `strip` and `lower`, for the names of sources. -/
structure SourceText where
  normalise : String → String

/-- Equal credit for each source, once for a name that repeats. -/
def computeSourceCredits (text : SourceText) (sources : List String) : List (String × Rat) :=
  let normalised := sources.map text.normalise
  normalised.eraseDups.map fun domain => (domain, Binary64.round (1 / (normalised.length : Rat)))

def applyBernoulli (alpha beta credit : Rat) (isCorrect : Bool) (floor : Rat) : Rat × Rat :=
  if isCorrect then (max (Binary64.round (alpha + credit)) floor, max beta floor)
  else (max alpha floor, max (Binary64.round (beta + credit)) floor)

/-- Move a weight by its share of one step, between the floor and 1. -/
def applyWeightDelta (weight credit : Rat) (isCorrect : Bool) (step floor : Rat) : Rat :=
  let delta := Binary64.round (step * credit)
  let moved := Binary64.round (if isCorrect then weight + delta else weight - delta)
  min (max moved floor) 1

structure CredibilitySettings where
  priorFloor : Rat := 1
  weightStep : Rat := Binary64.round (2 / 100)
  weightFloor : Rat := Binary64.round (5 / 100)
  prior_pos : 0 < priorFloor := by decide +kernel
  step_range : 0 < weightStep ∧ weightStep ≤ 1 := by decide +kernel
  floor_range : 0 ≤ weightFloor ∧ weightFloor < 1 := by decide +kernel
  floor_float : Binary64.round weightFloor = weightFloor := by decide +kernel

theorem applyWeightDelta_mem (settings : CredibilitySettings) (weight credit : Rat)
    (isCorrect : Bool) :
    0 ≤ applyWeightDelta weight credit isCorrect settings.weightStep settings.weightFloor ∧
      applyWeightDelta weight credit isCorrect settings.weightStep settings.weightFloor ≤ 1 := by
  exact ⟨le_min (le_trans settings.floor_range.1 (le_max_right _ _)) zero_le_one, min_le_right _ _⟩

structure CredibilityPipeline where
  settings : CredibilitySettings := { prior_pos := rat_one_pos }
  loaded : LoadedRegistry
  text : SourceText

namespace CredibilityPipeline

variable (P : CredibilityPipeline)

/-- The registry of the service. -/
abbrev reg : Registry := P.loaded.registry

abbrev Scored : Type := PredictionScored P.reg

/-- The weight after one outcome. -/
def moved (isCorrect : Bool) (credit : Rat) (weight : Confidence) : Confidence :=
  ⟨applyWeightDelta weight.1 credit isCorrect P.settings.weightStep P.settings.weightFloor,
    applyWeightDelta_mem P.settings weight.1 credit isCorrect⟩

/-- Reliability is frozen, the weight moves. -/
def edgeUpdate (entityId : String) (counts : EdgeCounts) (weightAfter : Confidence) :
    WeightUpdate where
  entityId := entityId
  entityType := .edge
  alphaBefore := counts.alpha
  betaBefore := counts.beta
  alphaAfter := counts.alpha
  betaAfter := counts.beta
  weightBefore := some counts.weight.1
  weightAfter := some weightAfter.1

def updateCorrelationEdge (source target : AssetId P.reg) (condition : ConditionCode) (credit : Rat)
    (isCorrect : Bool) : Service P.reg (Option WeightUpdate) := do
  match ← ask (.getCorrelationEdgeCounts source target condition) with
  | none => pure none
  | some counts =>
    let weightAfter := P.moved isCorrect credit counts.weight
    ask (.updateCorrelationWeight source target condition weightAfter)
    pure (some (edgeUpdate
      (EdgeKey.correlates source.value condition target.value).text counts weightAfter))

/-- The correlation edges of a propagated prediction; an unknown asset raises before
anything is written. -/
def correlationEdges : List ContributingEdge → Except CredibilityError
      (List (ContributingEdge × AssetId P.reg × ConditionCode × AssetId P.reg))
  | [] => .ok []
  | edge :: rest =>
    match parseCorrelationEdgeId P.reg edge.edgeId with
    | .error e => .error e
    | .ok none => correlationEdges rest
    | .ok (some parsed) =>
      match correlationEdges rest with
      | .error e => .error e
      | .ok edges => .ok ((edge, parsed) :: edges)

def updateCorrelationLoop (isCorrect : Bool) (edges : List ContributingEdge) :
    List (ContributingEdge × AssetId P.reg × ConditionCode × AssetId P.reg) → List WeightUpdate →
      Service P.reg (List WeightUpdate)
  | [], updates => pure updates
  | (edge, source, condition, target) :: rest, updates => do
    let update ← P.updateCorrelationEdge source target condition (creditOf edges edge.edgeId)
      isCorrect
    updateCorrelationLoop isCorrect edges rest (updates ++ update.toList)

def updateCorrelationEdges (message : P.Scored) : Service P.reg (List WeightUpdate) :=
  match P.correlationEdges message.contributingEdges with
  | .error e => .fail e
  | .ok parsed =>
    P.updateCorrelationLoop message.isCorrect (parsed.map Prod.fst) parsed []

/-- An asset's own edge is found among those that fire for it, a group's is read directly.
-/
def edgeState (edgeId : String) (factor : EventType) (condition : Option ConditionCode) :
    ParsedTarget P.reg → Service P.reg (Option EdgeCounts)
  | .asset assetId => do
    let firing ← ask (.getFiringEdges factor assetId)
    pure ((firing.find? (fun e => e.edgeId = edgeId)).map
      (fun e => ⟨e.alpha, e.beta, ⟨e.weight, e.weight_range⟩⟩))
  | .group groupId => ask (.getGroupEdgeCounts factor groupId condition)

def targetNode : ParsedTarget P.reg → Target
  | .asset assetId => .asset assetId.value
  | .group groupId => .group groupId

/-- One turn of the loop over the edges of a direct prediction. -/
def updateEdge (isCorrect : Bool) (credit : Rat) (edgeId : String) :
    Service P.reg (Option WeightUpdate) :=
  match parseEdgeId P.loaded edgeId with
  | .error e => .fail e
  | .ok (factor, condition, target) => do
    match ← P.edgeState edgeId factor condition target with
    | none => pure none
    | some counts =>
      let weightAfter := P.moved isCorrect credit counts.weight
      ask (.updateEdgeWeight factor (P.targetNode target) condition weightAfter)
      pure (some (edgeUpdate edgeId counts weightAfter))

def updateEdgeLoop (isCorrect : Bool) (edges : List ContributingEdge) :
    List ContributingEdge → List WeightUpdate →
      Service P.reg (List WeightUpdate)
  | [], updates => pure updates
  | edge :: rest, updates => do
    let update ← P.updateEdge isCorrect (creditOf edges edge.edgeId) edge.edgeId
    updateEdgeLoop isCorrect edges rest (updates ++ update.toList)

/-- Credit goes to the correlation edges of a propagated prediction, and to the causal edges
of a direct one. -/
def updateEdges (message : P.Scored) : Service P.reg (List WeightUpdate) :=
  if message.propagationChain.isEmpty then
    P.updateEdgeLoop message.isCorrect message.contributingEdges message.contributingEdges []
  else P.updateCorrelationEdges message

def updateSourceLoop (isCorrect : Bool) : List (String × Rat) → List WeightUpdate →
    Service P.reg (List WeightUpdate)
  | [], updates => pure updates
  | (sourceId, credit) :: rest, updates => do
    let state ← ask (.getSourceState sourceId)
    let before := state.getD (P.settings.priorFloor, P.settings.priorFloor)
    let after := applyBernoulli before.1 before.2 credit isCorrect P.settings.priorFloor
    updateSourceLoop isCorrect rest (updates ++
      [{ entityId := sourceId
         entityType := .source
         alphaBefore := before.1
         betaBefore := before.2
         alphaAfter := after.1
         betaAfter := after.2 }])

def updateSources (message : P.Scored) : Service P.reg (List WeightUpdate) :=
  P.updateSourceLoop message.isCorrect (computeSourceCredits P.text message.sourceIds) []

/-- What is left once the prediction is new and stands. -/
def applyOutcome (message : P.Scored) : Service P.reg Bool := do
  let edgeUpdates ← P.updateEdges message
  let sourceUpdates ← P.updateSources message
  ask (.commitUpdates message.predictionId (edgeUpdates ++ sourceUpdates))

/-- Apply a scored prediction; false for a processed or withdrawn one. -/
def process (message : P.Scored) : Service P.reg Bool := do
  if ← ask (.alreadyProcessed message.predictionId) then pure false
  else
    let status ← ask (.predictionStatus message.predictionId)
    if status = some .withdrawn then
      let _claimed ← ask (.commitUpdates message.predictionId [])
      pure false
    else P.applyOutcome message

end CredibilityPipeline

/-- The pipeline over the two metals, with its default settings. -/
def metalsPipeline : CredibilityPipeline where
  loaded := metals
  text := ⟨id⟩

def metal (id : String) (hknown : metals.registry.isKnownAsset id = true := by decide +kernel) :
    AssetId metalsPipeline.reg := ⟨id, hknown⟩

theorem gold_known : metals.registry.isKnownAsset "GOLD" = true := by decide +kernel

/-- An edge that contributed with an influence of one half. -/
def contributed (edgeId : String) : ContributingEdge where
  edgeId := edgeId
  direction := .up
  currentWeight := 1 / 2
  influenceWeight := 1 / 2
  path := edgeId
  current_range := by decide +kernel
  influence_range := by decide +kernel

/-- A relationship of weight one half. -/
def relationship (key : EdgeKey) : GraphEdge where
  key := key
  direction := .up
  weight := ⟨1 / 2, by decide +kernel⟩
  alpha := 1
  beta := 1
  alpha_pos := rat_one_pos
  beta_pos := rat_one_pos

def metalClose : CloseObservation where
  session := 0
  close := 1
  fetchedAt := 0
  source := "yahoo"
  providerSymbol := "GC=F"
  priceKind := .providerDailyClose
  isAdjusted := false
  registryVersion := "1"
  close_pos := rat_one_pos
  valid_sampled_close := rfl

def scoredGold (predictionId : Uuid) (edges : List ContributingEdge)
    (chain : List (PropagationHop (AssetId metalsPipeline.reg)) := []) :
    PredictionScored metalsPipeline.reg where
  messageId := predictionId
  correlationId := predictionId
  causationId := none
  occurredAt := 0
  predictionId := predictionId
  contextId := predictionId
  assetId := metal "GOLD"
  predictedDirection := .up
  actualDirection := .up
  predictedMagnitude := .small
  actualMagnitude := .small
  confidence := ⟨1, one_range⟩
  actualReturn := 1 / 100
  isCorrect := true
  score := 1
  contributingEdges := edges
  sourceIds := []
  baseline := metalClose
  settlement := metalClose
  scoredAt := 0
  pricePolicy := .dailyCloseV1
  propagationChain := chain

def goldUnderSanctions : EdgeKey := .causes .sanctions none (.asset "GOLD")

/-- A graph in which sanctions move gold. -/
def sanctionsStore : Store where
  graph := { edges := (∅ : Table GraphEdge.key).insertNew (relationship goldUnderSanctions)
             memberOf := ∅ }
  processedPredictions := ∅
  sources := ∅
  history := []
  predictionStatuses := fun _ => none

end Credibility
