import FeedAnalyzer.PredictionDecision
import FeedAnalyzer.RegistryLoader

/-!
# The causal graph

Factors point at assets and groups (`CAUSES`), assets at assets (`CORRELATES_WITH`).
A relationship is identified by its ends and its condition, its `EdgeKey`.  A
prediction reports it by the text of its key, which Credibility reads back.
-/

namespace CausalGraph

open Feed Transact Prediction List Table Option

/-- An asset, or the group it inherits from. -/
inductive Target where
  | asset (id : String)
  | group (id : String)
  deriving DecidableEq

def Target.id : Target → String
  | .asset id => id
  | .group id => id

/-- The identity of a relationship. -/
inductive EdgeKey where
  | causes (factor : EventType) (condition : Option ConditionCode) (target : Target)
  | correlates (source : String) (condition : ConditionCode) (target : String)
  deriving DecidableEq

/-- The business key of a relationship, as `edge_id` writes it. -/
def keyText (source : String) (condition : Option ConditionCode) (target : String) : String :=
  match condition with
  | none => source ++ "->" ++ target
  | some condition => source ++ "|" ++ condition.value ++ "->" ++ target

def EdgeKey.text : EdgeKey → String
  | .causes factor condition target => keyText factor.value condition target.id
  | .correlates source condition target => keyText source (some condition) target

/-- A relationship with its properties. -/
structure GraphEdge where
  key : EdgeKey
  direction : Direction
  weight : Confidence
  alpha : Rat
  beta : Rat
  alpha_pos : 0 < alpha
  beta_pos : 0 < beta

/-- The same relationship with another weight. -/
def GraphEdge.withWeight (edge : GraphEdge) (weight : Confidence) : GraphEdge :=
  { edge with weight := weight }

@[simp] theorem GraphEdge.key_withWeight (edge : GraphEdge) (weight : Confidence) :
    (edge.withWeight weight).key = edge.key := rfl

/-- The relationships, and who is a member of which group (`MEMBER_OF`). -/
structure Graph where
  edges : Table GraphEdge.key
  memberOf : Table (id : String × String → String × String)

inductive GraphError where
  | transport (message : String)
  | valueError (message : String)
  deriving DecidableEq

/-- `r.condition IS NULL OR $conditions IS NULL OR r.condition IN $conditions`. -/
def eligible (conditions : Option (List ConditionCode)) (condition : Option ConditionCode) : Bool :=
  match condition, conditions with
  | none, _ => true
  | _, none => true
  | some c, some active => c ∈ active

def GraphEdge.firing {reg : Registry} (edge : GraphEdge) (factor : EventType)
    (condition : Option ConditionCode) (assetId : AssetId reg) (inheritedFrom : Option String) :
    FiringEdge reg where
  factorId := some factor
  assetId := assetId
  direction := edge.direction
  weight := edge.weight.1
  alpha := edge.alpha
  beta := edge.beta
  condition := condition
  inheritedFrom := inheritedFrom
  weight_range := edge.weight.2
  alpha_pos := edge.alpha_pos
  beta_pos := edge.beta_pos

/-- The counts and the weight of one relationship. -/
structure EdgeCounts where
  alpha : Rat
  beta : Rat
  weight : Confidence

def GraphEdge.counts (edge : GraphEdge) : EdgeCounts := ⟨edge.alpha, edge.beta, edge.weight⟩

namespace Graph

variable {reg : Registry} (graph : Graph)

/-- `_FIRING_EDGES_CYPHER`, for one asset. -/
def ownEdges (factor : EventType) (assetId : AssetId reg)
    (conditions : Option (List ConditionCode)) : List (FiringEdge reg) :=
  graph.edges.rows.filterMap (fun edge =>
    match edge.key with
    | .causes factor' condition (.asset id) =>
      if factor' = factor ∧ id = assetId.value ∧ eligible conditions condition then
        some (edge.firing factor condition assetId none)
      else none
    | _ => none)

/-- `_GROUP_FIRING_EDGES_CYPHER`: the edges of the asset's groups, unless it has an eligible
one of its own. -/
def groupEdges (factor : EventType) (assetId : AssetId reg)
    (conditions : Option (List ConditionCode)) : List (FiringEdge reg) :=
  if graph.ownEdges factor assetId conditions = [] then
    graph.edges.rows.flatMap (fun edge =>
      match edge.key with
      | .causes factor' condition (.group id) =>
        if factor' = factor ∧ eligible conditions condition then
          ((graph.memberOf.find? (assetId.value, id)).map (fun _ =>
            edge.firing factor condition assetId (some id))).toList
        else []
      | _ => [])
  else []

/-- `get_firing_edges` for one asset. -/
def getFiringEdges (factor : EventType) (assetId : AssetId reg)
    (conditions : Option (List ConditionCode)) : List (FiringEdge reg) :=
  graph.ownEdges factor assetId conditions ++ graph.groupEdges factor assetId conditions

def countsOf (key : EdgeKey) : Option EdgeCounts := (graph.edges.find? key).map GraphEdge.counts

/-- `SET r.weight = $weight`. -/
def setWeight (key : EdgeKey) (weight : Confidence) : Graph :=
  { graph with
    edges := graph.edges.updateWhere (fun edge => edge.key = key)
      (fun edge => edge.withWeight weight) (fun edge => edge.key_withWeight weight) }

/-- `update_edge_weight` and `update_correlation_weight`. -/
def updateWeight (key : EdgeKey) (weight : Confidence) (missing : String) :
    Except GraphError Graph :=
  if graph.edges.has key then .ok (graph.setWeight key weight)
  else .error (.transport missing)

/-- The weight of a relationship, if there is one. -/
def weightOf (key : EdgeKey) : Option Confidence := (graph.countsOf key).map EdgeCounts.weight

end Graph

theorem toList_keyText (source : String) (condition : Option ConditionCode) (target : String) :
    (keyText source condition target).toList =
      source.toList ++ (condition.elim [] (fun c => '|' :: c.value.toList)) ++ ['-', '>'] ++
        target.toList := by
  cases condition <;> simp [keyText]

/-- With the same ends, the text tells the conditions apart. -/
theorem keyText_condition_inj {source target : String} {c c' : Option ConditionCode}
    (htext : keyText source c target = keyText source c' target) : c = c' := by
  have hlist := congrArg String.toList htext
  simp only [toList_keyText, append_assoc, append_cancel_left_eq] at hlist
  rw [← append_assoc, ← append_assoc, append_cancel_right_eq, append_cancel_right_eq] at hlist
  cases c with
  | none =>
    cases c' with
    | none => rfl
    | some d => cases hlist
  | some d =>
    cases c' with
    | none => cases hlist
    | some d' =>
      simp only [elim_some, List.cons.injEq, true_and] at hlist
      have hvalue := String.toList_injective hlist
      revert hvalue
      cases d <;> cases d' <;> decide

namespace Graph

variable {reg : Registry} {graph : Graph} {key : EdgeKey}

/-- Move the weight of a relationship; a missing one is left out. -/
def mapWeight (graph : Graph) (key : EdgeKey) (f : Confidence → Confidence) : Graph :=
  { graph with
    edges := graph.edges.updateWhere (fun edge => edge.key = key)
      (fun edge => edge.withWeight (f edge.weight))
      (fun edge => edge.key_withWeight (f edge.weight)) }

theorem countsOf_eq_none_iff : graph.countsOf key = none ↔ graph.edges.has key = false := by
  rw [has_eq_false_iff, ← find?_eq_none_iff]
  simp [countsOf]

theorem mapWeight_of_missing (hmissing : graph.countsOf key = none) (f : Confidence → Confidence) :
    graph.mapWeight key f = graph := by
  have hnone := has_eq_false_iff.mp (countsOf_eq_none_iff.mp hmissing)
  unfold mapWeight
  rw [updateWhere_of_forall_not graph.edges (fun edge hedge => decide_eq_false (hnone edge hedge))]

theorem setWeight_eq_mapWeight {counts : EdgeCounts} (hcounts : graph.countsOf key = some counts)
    (f : Confidence → Confidence) :
    graph.setWeight key (f counts.weight) = graph.mapWeight key f := by
  obtain ⟨edge, hfind, rfl⟩ := map_eq_some_iff.mp hcounts
  obtain ⟨hedge, hkey⟩ := find?_eq_some_iff.mp hfind
  have hsame : (graph.setWeight key (f edge.counts.weight)).edges =
      (graph.mapWeight key f).edges := by
    refine updateWhere_congr graph.edges (fun edge' => edge'.key_withWeight (f edge.counts.weight))
      (fun edge' => edge'.key_withWeight (f edge'.weight)) fun edge' hedge' hkey' => ?_
    obtain rfl := eq_of_key hedge' hedge ((of_decide_eq_true hkey').trans hkey.symm)
    rfl
  exact congrArg (fun edges => { graph with edges := edges }) hsame

variable {key' : EdgeKey} {f : Confidence → Confidence} {factor : EventType} {assetId : AssetId reg}

theorem countsOf_mapWeight_eq_none :
    (graph.mapWeight key f).countsOf key' = none ↔ graph.countsOf key' = none := by
  rw [countsOf_eq_none_iff, countsOf_eq_none_iff]
  unfold mapWeight
  rw [has_updateWhere]

theorem find?_mapWeight (graph : Graph) (key key' : EdgeKey) (f : Confidence → Confidence) :
    (graph.mapWeight key f).edges.find? key' = (graph.edges.find? key').map (fun edge =>
        if key = key' then edge.withWeight (f edge.weight) else edge) := by
  simp only [mapWeight, find?_updateWhere]
  cases hfind : graph.edges.find? key' with
  | none => rfl
  | some edge =>
    have hkey : edge.key = key' := (find?_eq_some_iff.mp hfind).2
    simp [hkey, eq_comm]

/-- A relationship, and how its weight moves. -/
abbrev Move : Type := EdgeKey × (Confidence → Confidence)

/-- Carry out moves one after another. -/
def moveAll (graph : Graph) (moves : List Move) : Graph :=
  moves.foldl (fun graph move => graph.mapWeight move.1 move.2) graph

def moveAt (key : EdgeKey) (moves : List Move) (weight : Confidence) : Confidence :=
  moves.foldl (fun weight move => if move.1 = key then move.2 weight else weight) weight

theorem moveAt_cons (key : EdgeKey) (move : Move) (rest : List Move) (weight : Confidence) :
    moveAt key (move :: rest) weight =
      moveAt key rest (if move.1 = key then move.2 weight else weight) := rfl

theorem moveAt_append (key : EdgeKey) (moves moves' : List Move) (weight : Confidence) :
    moveAt key (moves ++ moves') weight = moveAt key moves' (moveAt key moves weight) :=
  foldl_append

variable {moves : List Move}

theorem moveAt_of_not_mem (hkey : key ∉ moves.map Prod.fst) (weight : Confidence) :
    moveAt key moves weight = weight := by
  induction moves with
  | nil => rfl
  | cons move rest ih =>
    rw [map_cons, mem_cons, not_or] at hkey
    rw [moveAt_cons, if_neg (Ne.symm hkey.1)]
    exact ih hkey.2

/-- **Moves act on each relationship by itself**, and on its weight only. -/
theorem find?_moveAll (graph : Graph) (moves : List Move) (key : EdgeKey) :
    (graph.moveAll moves).edges.find? key =
      (graph.edges.find? key).map (fun edge => edge.withWeight (moveAt key moves edge.weight)) := by
  induction moves generalizing graph with
  | nil =>
    show graph.edges.find? key = _
    cases graph.edges.find? key <;> rfl
  | cons move rest ih =>
    show ((graph.mapWeight move.1 move.2).moveAll rest).edges.find? key = _
    rw [ih, find?_mapWeight, Option.map_map]
    cases graph.edges.find? key with
    | none => rfl
    | some edge =>
      by_cases hkey : move.1 = key <;> simp [moveAt_cons, hkey, GraphEdge.withWeight]

@[simp] theorem memberOf_moveAll (graph : Graph) (moves : List Move) :
    (graph.moveAll moves).memberOf = graph.memberOf := by
  induction moves generalizing graph with
  | nil => rfl
  | cons move rest ih => exact ih (graph.mapWeight move.1 move.2)

theorem weightOf_eq (graph : Graph) (key : EdgeKey) :
    graph.weightOf key = (graph.edges.find? key).map GraphEdge.weight := by
  unfold weightOf countsOf
  rw [Option.map_map]
  rfl

theorem weightOf_moveAll (graph : Graph) (moves : List Move) (key : EdgeKey) :
    (graph.moveAll moves).weightOf key = (graph.weightOf key).map (moveAt key moves) := by
  rw [weightOf_eq, weightOf_eq, find?_moveAll, Option.map_map, Option.map_map]
  rfl

/-- The asset's own eligible edges. -/
theorem mem_ownEdges {edge : FiringEdge reg} {conditions : Option (List ConditionCode)} :
    edge ∈ graph.ownEdges factor assetId conditions ↔ ∃ row ∈ graph.edges, ∃ condition,
        row.key = .causes factor condition (.asset assetId.value) ∧
          eligible conditions condition ∧ edge = row.firing factor condition assetId none := by
  unfold ownEdges
  rw [mem_filterMap]
  constructor
  · rintro ⟨row, hrow, hedge⟩
    split at hedge
    · next factor' condition id hkey =>
      split at hedge
      · next hmatch =>
        cases hedge
        refine ⟨row, hrow, condition, ?_, hmatch.2.2, rfl⟩
        rw [hkey, hmatch.1, hmatch.2.1]
      · cases hedge
    · cases hedge
  · rintro ⟨row, hrow, condition, hkey, heligible, rfl⟩
    refine ⟨row, hrow, ?_⟩
    rw [hkey]
    simp [heligible]

/-- **The full business key finds the relationship** among all that fire for
the asset. -/
theorem find?_getFiringEdges {condition : Option ConditionCode} {row : GraphEdge}
    (hrow : row ∈ graph.edges) (hkey : row.key = .causes factor condition (.asset assetId.value)) :
    (graph.getFiringEdges factor assetId none).find?
        (fun e => e.edgeId = (EdgeKey.causes factor condition (.asset assetId.value)).text) =
      some (row.firing factor condition assetId none) := by
  have hmem : row.firing factor condition assetId none ∈ graph.ownEdges factor assetId none :=
    mem_ownEdges.mpr ⟨row, hrow, condition, hkey, by cases condition <;> rfl, rfl⟩
  have hgroup : graph.groupEdges factor assetId none = [] := by
    unfold groupEdges
    rw [if_neg (ne_nil_of_mem hmem)]
  unfold getFiringEdges
  rw [hgroup, append_nil]
  cases hfound : (graph.ownEdges factor assetId none).find?
      (fun e => e.edgeId = (EdgeKey.causes factor condition (.asset assetId.value)).text) with
  | none =>
    have hnot := find?_eq_none.mp hfound _ hmem
    exact absurd (decide_eq_true rfl) hnot
  | some edge =>
    obtain ⟨row', hrow', condition', hkey', _, rfl⟩ :=
      mem_ownEdges.mp (mem_of_find?_eq_some hfound)
    have hmatch := find?_some hfound
    have htext := of_decide_eq_true hmatch
    obtain rfl := keyText_condition_inj htext
    obtain rfl := eq_of_key hrow' hrow (hkey'.trans hkey.symm)
    rfl

/-- The ids that an asset's edges report do not depend on the weights. -/
theorem edgeIds_mapWeight (key : EdgeKey) (f : Confidence → Confidence) (factor : EventType)
    (assetId : AssetId reg) (conditions : Option (List ConditionCode)) :
    ((graph.mapWeight key f).getFiringEdges factor assetId conditions).map FiringEdge.edgeId =
      (graph.getFiringEdges factor assetId conditions).map FiringEdge.edgeId := by
  have hown : ((graph.mapWeight key f).ownEdges factor assetId conditions).map FiringEdge.edgeId =
      (graph.ownEdges factor assetId conditions).map FiringEdge.edgeId := by
    unfold ownEdges mapWeight updateWhere
    rw [filterMap_map, map_filterMap, map_filterMap]
    apply filterMap_congr
    intro row _
    by_cases hrow : row.key = key
    · simp only [Function.comp_apply, hrow, decide_true, if_true, GraphEdge.key_withWeight]
      split
      · split <;> rfl
      · rfl
    · simp only [Function.comp_apply, hrow, decide_false, Bool.false_eq_true, if_false]
  have hnone : (graph.mapWeight key f).ownEdges factor assetId conditions = [] ↔
      graph.ownEdges factor assetId conditions = [] := by
    rw [← map_eq_nil_iff, hown, map_eq_nil_iff]
  have hgroup : ((graph.mapWeight key f).groupEdges factor assetId conditions).map
        FiringEdge.edgeId =
      (graph.groupEdges factor assetId conditions).map FiringEdge.edgeId := by
    unfold groupEdges
    by_cases hempty : graph.ownEdges factor assetId conditions = []
    · rw [if_pos hempty, if_pos (hnone.mpr hempty)]
      unfold mapWeight updateWhere
      rw [flatMap_map, map_flatMap, map_flatMap]
      apply flatMap_congr
      intro row _
      by_cases hrow : row.key = key
      · simp only [hrow, decide_true, if_true, GraphEdge.key_withWeight]
        split
        · split
          · cases graph.memberOf.find? _ <;> rfl
          · rfl
        · rfl
      · simp only [hrow, decide_false, Bool.false_eq_true, if_false]
    · rw [if_neg hempty, if_neg (fun h => hempty (hnone.mp h))]
  unfold getFiringEdges
  rw [map_append, map_append, hown, hgroup]

/-- The relationship is missing, but an inherited edge reports its id: its group has the id
of the asset, or an empty one. -/
def Stray (reg : Registry) (graph : Graph) (key : EdgeKey) : Prop :=
  graph.countsOf key = none ∧ ∃ factor condition, ∃ assetId : AssetId reg,
    key = .causes factor condition (.asset assetId.value) ∧
      key.text ∈ (graph.getFiringEdges factor assetId none).map FiringEdge.edgeId

theorem stray_mapWeight : Stray reg (graph.mapWeight key f) key' ↔ Stray reg graph key' := by
  unfold Stray
  rw [countsOf_mapWeight_eq_none]
  simp only [edgeIds_mapWeight]

theorem stray_moveAll : Stray reg (graph.moveAll moves) key ↔ Stray reg graph key := by
  induction moves generalizing graph with
  | nil => exact Iff.rfl
  | cons move rest ih => exact (@ih (graph.mapWeight move.1 move.2)).trans stray_mapWeight

end Graph

end CausalGraph
