import FeedAnalyzer.CausalGraph
import FeedAnalyzer.PredictionStore

/-!
# What Credibility reads and writes

The tables of the `credibility` schema, the status column of the `prediction` schema,
and the causal graph.  Each method is a transaction of its own: nothing ties a weight
that was read to the write that follows.
-/

namespace Credibility

open Feed Transact CausalGraph Prediction

inductive EntityType where
  | edge | source
  deriving DecidableEq

/-- Sources move `alpha` and `beta`, edges move `weight`. -/
structure WeightUpdate where
  entityId : String
  entityType : EntityType
  alphaBefore : Rat
  betaBefore : Rat
  alphaAfter : Rat
  betaAfter : Rat
  weightBefore : Option Rat := none
  weightAfter : Option Rat := none

namespace WeightUpdate

variable (update : WeightUpdate)

def credibilityBefore : Rat :=
  Binary64.round (update.alphaBefore / Binary64.round (update.alphaBefore + update.betaBefore))

def credibilityAfter : Rat :=
  Binary64.round (update.alphaAfter / Binary64.round (update.alphaAfter + update.betaAfter))

end WeightUpdate

/-- A row of `credibility`; the service stores sources only. -/
structure SourceRow where
  entityId : String
  alpha : Rat
  beta : Rat
  credibilityScore : Rat

/-- A row of `credibility_history`. -/
structure HistoryRow where
  predictionId : Uuid
  update : WeightUpdate
  credibilityBefore : Rat
  credibilityAfter : Rat

structure Store where
  graph : Graph
  processedPredictions : Table (id : Uuid → Uuid)
  sources : Table SourceRow.entityId
  history : List HistoryRow
  /-- `prediction.predictions.status`, which this service only reads. -/
  predictionStatuses : Uuid → Option PredictionStatus

namespace Store

variable (s : Store)

def getSourceState (sourceId : String) : Option (Rat × Rat) :=
  (s.sources.find? sourceId).map fun row => (row.alpha, row.beta)

/-- `INSERT … ON CONFLICT DO UPDATE` of a source's state. -/
def upsertSource (update : WeightUpdate) : Store :=
  let row : SourceRow :=
    { entityId := update.entityId
      alpha := update.alphaAfter
      beta := update.betaAfter
      credibilityScore := update.credibilityAfter }
  { s with
    sources := (s.sources.updateWhere (fun old => old.entityId = row.entityId)
      (fun old => { row with entityId := old.entityId }) (fun _ => rfl)).insertNew row }

/-- The state of a source, and a history row. -/
def applyUpdate (predictionId : Uuid) (s : Store) (update : WeightUpdate) : Store :=
  let s' := if update.entityType = .source then s.upsertSource update else s
  { s' with
    history := s'.history ++
      [{ predictionId := predictionId
         update := update
         credibilityBefore := update.credibilityBefore
         credibilityAfter := update.credibilityAfter }] }

/-- The guard row, the source states and the history; `false` when the prediction was
already applied. -/
def commitUpdates (predictionId : Uuid) (updates : List WeightUpdate) (s : Store) : Bool × Store :=
  if s.processedPredictions.has predictionId then (false, s)
  else
    (true, updates.foldl (applyUpdate predictionId)
      { s with processedPredictions := s.processedPredictions.insertNew predictionId })

end Store

inductive CredibilityError where
  | invalidScoredMessage (message : String)
  | graphTransport (message : String)
  | database (message : String)
  deriving DecidableEq

variable {reg : Registry}

/-- What the service asks of its surroundings. -/
inductive Call (reg : Registry) where
  | alreadyProcessed (predictionId : Uuid)
  | predictionStatus (predictionId : Uuid)
  | getSourceState (sourceId : String)
  | commitUpdates (predictionId : Uuid) (updates : List WeightUpdate)
  | getFiringEdges (factor : EventType) (assetId : AssetId reg)
  | getGroupEdgeCounts (factor : EventType) (groupId : String) (condition : Option ConditionCode)
  | updateEdgeWeight (factor : EventType) (target : Target) (condition : Option ConditionCode)
      (weight : Confidence)
  | getCorrelationEdgeCounts (source target : AssetId reg) (condition : ConditionCode)
  | updateCorrelationWeight (source target : AssetId reg) (condition : ConditionCode)
      (weight : Confidence)

@[reducible] def Call.Ret : Call reg → Type
  | .alreadyProcessed _ => Bool
  | .predictionStatus _ => Option PredictionStatus
  | .getSourceState _ => Option (Rat × Rat)
  | .commitUpdates _ _ => Bool
  | .getFiringEdges _ _ => List (FiringEdge reg)
  | .getGroupEdgeCounts _ _ _ => Option EdgeCounts
  | .updateEdgeWeight _ _ _ _ => Unit
  | .getCorrelationEdgeCounts _ _ _ => Option EdgeCounts
  | .updateCorrelationWeight _ _ _ _ => Unit

@[reducible] def Surroundings (reg : Registry) : Interface where
  Call := Call reg
  Ret := Call.Ret

abbrev Service (reg : Registry) (α : Type) : Type := Proc (Surroundings reg) CredibilityError α

abbrev ask (c : Call reg) : Service reg c.Ret :=
  Proc.perform (I := Surroundings reg) c

/-- The environment's answer to one call: whether it fails. -/
structure Answer where
  fault : Option String := none
  deriving DecidableEq

def Answer.databaseError (w : Answer) : Option CredibilityError := w.fault.map .database

def Answer.graphError (w : Answer) : Option CredibilityError := w.fault.map .graphTransport

def Store.writeWeight (key : EdgeKey) (weight : Confidence) (missing : String) (s : Store) :
    Except CredibilityError (Unit × Store) :=
  match s.graph.updateWeight key weight missing with
  | .ok graph => .ok ((), { s with graph := graph })
  | .error (.transport message) => .error (.graphTransport message)
  | .error (.valueError message) => .error (.graphTransport message)

/-- The name of a target's kind, in an error text. -/
def targetKind : Target → String
  | .asset _ => "Asset"
  | .group _ => "AssetGroup"

def handle : Handler (Surroundings reg) Store Answer CredibilityError :=
  fun w c s =>
    match c with
    | .alreadyProcessed predictionId =>
      commit w.databaseError (fun s => .ok (s.processedPredictions.has predictionId, s)) s
    | .predictionStatus predictionId =>
      commit w.databaseError (fun s => .ok (s.predictionStatuses predictionId, s)) s
    | .getSourceState sourceId =>
      commit w.databaseError (fun s => .ok (s.getSourceState sourceId, s)) s
    | .commitUpdates predictionId updates =>
      commit w.databaseError (fun s => .ok (s.commitUpdates predictionId updates)) s
    | .getFiringEdges factor assetId =>
      commit w.graphError (fun s => .ok (s.graph.getFiringEdges factor assetId none, s)) s
    | .getGroupEdgeCounts factor groupId condition =>
      commit w.graphError
        (fun s => .ok (s.graph.countsOf (.causes factor condition (.group groupId)), s)) s
    | .updateEdgeWeight factor target condition weight =>
      let key := EdgeKey.causes factor condition target
      commit w.graphError (Store.writeWeight key weight
        ("no CAUSES edge for " ++ key.text ++ " (target " ++ targetKind target ++ ")")) s
    | .getCorrelationEdgeCounts source target condition =>
      commit w.graphError
        (fun s => .ok (s.graph.countsOf (.correlates source.value condition target.value), s)) s
    | .updateCorrelationWeight source target condition weight =>
      let key := EdgeKey.correlates source.value condition target.value
      commit w.graphError (Store.writeWeight key weight
        ("no CORRELATES_WITH edge for " ++ key.text)) s

end Credibility
