import FeedAnalyzer.CreditRouting

/-!
# The edges handed to `decide`

A context asks the graph once for each type of its events, under the tags of all
events of the type.  So events of one type count as one event with all their tags.
-/

namespace Prediction

open Feed Transact Calendar CausalGraph PredictionPipeline Proc List Table Graph

variable {reg : Registry}

def mergedEvent (events : List ContextEvent) (eventType : EventType) (tags : List ConditionCode) :
    ContextEvent where
  eventId := ((events.filter (fun event => event.eventType = eventType)).map
    ContextEvent.eventId).headD 0
  eventType := eventType
  firstSeenAt := ((events.filter (fun event => event.eventType = eventType)).map
    ContextEvent.firstSeenAt).headD 0
  polarity := if (events.filter (fun event => event.eventType = eventType)).all
    (fun event => event.polarity = .resolution) then .resolution else .occurrence
  contextTags := tags

def mergeDuplicates (events : List ContextEvent) : List ContextEvent :=
  (conditionsByType events).map fun entry => mergedEvent events entry.1 entry.2

variable (events : List ContextEvent)

theorem conditionsByType_mergeDuplicates :
    conditionsByType (mergeDuplicates events) = conditionsByType events := by
  have htypes : (mergeDuplicates events).map ContextEvent.eventType =
      (events.map ContextEvent.eventType).eraseDups := by
    simp [mergeDuplicates, conditionsByType, mergedEvent, Function.comp_def]
  have hnodup := nodup_eraseDups (events.map ContextEvent.eventType)
  conv_lhs => unfold conditionsByType
  rw [htypes, eraseDups_of_nodup hnodup]
  conv_rhs => unfold conditionsByType
  refine map_congr_left fun eventType htype => ?_
  have hone : (events.map ContextEvent.eventType).eraseDups.filter (fun t => t = eventType) =
      [eventType] := by
    rw [filter_eq, count_eq_one_of_mem hnodup htype]
    rfl
  have hmerged : (mergeDuplicates events).filter (fun event => event.eventType = eventType) =
      [mergedEvent events eventType ((events.filter (fun event =>
        event.eventType = eventType)).flatMap ContextEvent.contextTags).eraseDups] := by
    unfold mergeDuplicates conditionsByType
    rw [List.map_map, filter_map]
    simp only [Function.comp_def, mergedEvent]
    rw [hone]
    rfl
  rw [hmerged, flatMap_singleton]
  exact congrArg (Prod.mk eventType) (eraseDups_of_nodup (nodup_eraseDups _))

/-- An event of the type carries the condition, or an elevated price adds it. -/
def Active (events : List ContextEvent) (elevated : Bool) (eventType : EventType)
    (condition : ConditionCode) : Prop :=
  (∃ event ∈ events, event.eventType = eventType ∧ condition ∈ event.contextTags) ∨
    (elevated = true ∧ condition = .riskPremiumElevated)

/-- A relationship may fire: it has no condition, or an active one. -/
def Eligible (events : List ContextEvent) (elevated : Bool) (eventType : EventType)
    (condition : Option ConditionCode) : Prop :=
  ∀ code, condition = some code → Active events elevated eventType code

variable {elevated : Bool} {conditions : List ConditionCode} {graph : Graph} {factor : EventType}
  {assetId : AssetId reg}

theorem mem_gate {code : ConditionCode} :
    code ∈ gate elevated conditions ↔
      code ∈ conditions ∨ (elevated ∧ code = .riskPremiumElevated) := by
  unfold gate
  split
  · next h => simp [h.1]
  · next h =>
    constructor
    · exact Or.inl
    · rintro (hmem | ⟨helevated, rfl⟩)
      · exact hmem
      · exact not_not.mp fun hnot => h ⟨helevated, hnot⟩

theorem eligible_gate_iff {events : List ContextEvent} {eventType : EventType}
    (hentry : (eventType, conditions) ∈ conditionsByType events) (condition : Option ConditionCode) :
    eligible (some (gate elevated conditions)) condition ↔
      Eligible events elevated eventType condition := by
  obtain ⟨t, _, hsame⟩ := mem_map.mp hentry
  obtain ⟨rfl, rfl⟩ := Prod.mk.inj hsame
  cases condition with
  | none => simp [eligible, Eligible]
  | some code =>
    simp only [eligible, Eligible, Active, decide_eq_true_eq, mem_gate, mem_eraseDups,
      mem_flatMap, mem_filter, Option.some.injEq, forall_eq', and_assoc]

/-- The edges of the asset's group. -/
theorem mem_groupEdges {conditions : Option (List ConditionCode)} {group : String}
    (hgroup : ∀ g, (assetId.value, g) ∈ graph.memberOf ↔ g = group) {edge : FiringEdge reg} :
    edge ∈ graph.groupEdges factor assetId conditions ↔
      graph.ownEdges factor assetId conditions = [] ∧ ∃ row ∈ graph.edges, ∃ condition,
        row.key = .causes factor condition (.group group) ∧ eligible conditions condition ∧
          edge = row.firing factor condition assetId (some group) := by
  unfold groupEdges
  split
  · next hnone =>
    simp only [hnone, true_and]
    rw [mem_flatMap]
    constructor
    · rintro ⟨row, hrow, hedge⟩
      split at hedge
      · next factor' condition id hkey =>
        split at hedge
        · next hmatch =>
          obtain ⟨pair, hfind, rfl⟩ := Option.map_eq_some_iff.mp (Option.mem_toList.mp hedge)
          obtain ⟨hpair, hsame⟩ := find?_eq_some_iff.mp hfind
          obtain rfl := (hgroup id).mp (hsame ▸ hpair)
          exact ⟨row, hrow, condition, by rw [hkey, hmatch.1], hmatch.2, rfl⟩
        · cases hedge
      · cases hedge
    · rintro ⟨row, hrow, condition, hkey, heligible, rfl⟩
      have hfind : graph.memberOf.find? (assetId.value, group) = some (assetId.value, group) :=
        find?_eq_some_iff.mpr ⟨(hgroup group).mpr rfl, rfl⟩
      refine ⟨row, hrow, ?_⟩
      rw [hkey]
      simp [heligible, hfind]
  · next hsome => simp [hsome]

theorem ownEdges_eq_nil_iff {conditions : Option (List ConditionCode)} :
    graph.ownEdges factor assetId conditions = [] ↔ ∀ own ∈ graph.edges, ∀ condition,
      own.key = .causes factor condition (.asset assetId.value) →
        ¬ eligible conditions condition := by
  rw [eq_nil_iff_forall_not_mem]
  constructor
  · intro hnone own hown condition hkey heligible
    exact hnone _ (mem_ownEdges.mpr ⟨own, hown, condition, hkey, heligible, rfl⟩)
  · intro hnone edge hedge
    obtain ⟨own, hown, condition, hkey, heligible, _⟩ := mem_ownEdges.mp hedge
    exact hnone own hown condition hkey heligible

def contextFiring (assetId : AssetId reg) (elevated : Bool) (events : List ContextEvent) :
    Credibility.Firing reg :=
  .direct assetId ((conditionsByType events).map (fun entry => (entry.1, gate elevated entry.2))) (by
    have htypes : ((conditionsByType events).map
        (fun entry => (entry.1, gate elevated entry.2))).map Prod.fst =
          (events.map ContextEvent.eventType).eraseDups := by
      simp [conditionsByType, Function.comp_def]
    rw [htypes]
    exact nodup_eraseDups _)

/-- The answer of the environment with the firing edges of the graph. -/
def Answer.over (graph : Graph) (w : Answer reg) : Call reg → Answer reg
  | .getFiringEdges eventType assetId conditions =>
    { w with edges := graph.getFiringEdges eventType assetId (some conditions) }
  | _ => w

/-- Run one call over the graph as it is then. -/
def handleOver (tz : TimeZones) :
    Handler (Surroundings reg) (Store reg) (Graph × Answer reg) PredictionError :=
  fun w c s => handle tz (w.2.over w.1 c) c s

/-- The graph is the given one; if `failing`, it may be out of reach. -/
def FromGraph (graph : Graph) (failing : Bool) (w : Graph × Answer reg) (_ : Call reg)
    (_ : Store reg) : Prop :=
  w.1 = graph ∧ (failing = false → w.2.fault = none)

section Gathering

variable {P : PredictionPipeline} {graph : Graph} {failing : Bool} {record : ContextRecord reg}

/-- The edges read are the graph's. -/
theorem firingEdges_meets (tz : TimeZones) (assetId : AssetId reg) (elevated : Bool)
    (types : List (EventType × List ConditionCode)) (edges : List (FiringEdge reg))
    (s : Store reg) :
    (firingEdges assetId elevated types edges).Meets (handleOver tz) (FromGraph graph failing)
      (fun _ => True) (fun r _ => r = .ok (edges ++ types.flatMap (fun entry =>
        graph.getFiringEdges entry.1 assetId (some (gate elevated entry.2)))) ∨
          (failing ∧ ∃ e, r = .error e)) s := by
  induction types generalizing edges s with
  | nil => exact Or.inl (by simp)
  | cons entry rest ih =>
    refine meets_perform trivial ?_ ?_
    · intro w fired hw hfired
      obtain ⟨_, hresult⟩ := commit_eq_ok hfired
      obtain ⟨hedges, _⟩ := Prod.mk.inj (Except.ok.inj hresult)
      have hanswer : fired = graph.getFiringEdges entry.1 assetId
          (some (gate elevated entry.2)) := by
        rw [← hw.1]
        exact hedges.symm
      subst hanswer
      rw [flatMap_cons, ← append_assoc]
      exact ih _ _
    · intro w e hw herror
      refine Or.inr ⟨?_, e, rfl⟩
      cases failing with
      | true => rfl
      | false =>
        rcases (commit_eq_error herror).2 with hfault | hnever
        · have hnone : w.2.fault.map (Fault.raised .graph) = none := by rw [hw.2 rfl]; rfl
          exact absurd (hnone.symm.trans hfault) nofun
        · cases hnever

theorem deferInference_meets (contextId : Uuid) (e : PredictionError) (s : Store reg) :
    (P.deferInference contextId e).Meets (handleOver P.tz) (FromGraph graph failing) (fun _ => True)
      (fun r _ => ∀ found, r ≠ .ok (some found)) s := by
  have hset : ∀ s : Store reg, ((ask (.setContextState contextId .errorRetryable)).bind
      (fun _ => Proc.ret (none : Option (List (FiringEdge reg))))).Meets (handleOver P.tz)
        (FromGraph graph failing) (fun _ => True) (fun r _ => ∀ found, r ≠ .ok (some found)) s := by
    intro s
    refine meets_perform trivial ?_ ?_
    · intro w u _ _ found
      simp
    · intro w e _ _ found
      simp
  cases e with
  | graph message =>
    show ((P.capture contextId).bind (fun _ => (ask (.setContextState contextId
      .errorRetryable)).bind (fun _ => Proc.ret none))).Meets _ _ _ _ s
    unfold capture
    split
    · refine meets_perform trivial (fun w u _ _ => hset _) ?_
      intro w e _ _ found
      simp
    · exact hset s
  | _ =>
    intro found
    simp

theorem edgesOrDefer_meets (elevated : Bool) (s : Store reg) :
    (P.edgesOrDefer record events elevated).Meets (handleOver P.tz) (FromGraph graph failing)
      (fun _ => True) (fun r _ =>
        r = .ok (some ((contextFiring record.assetId elevated events).edges graph)) ∨
          (failing ∧ ∀ found, r ≠ .ok (some found))) s := by
  have hedges : (contextFiring record.assetId elevated events).edges graph =
      [] ++ (conditionsByType events).flatMap (fun entry =>
        graph.getFiringEdges entry.1 record.assetId (some (gate elevated entry.2))) := by
    simp [contextFiring, Credibility.Firing.edges, flatMap_map]
  rw [hedges]
  refine Meets.catchWith (Meets.bind ((firingEdges_meets P.tz record.assetId elevated
    (conditionsByType events) [] s).mono ?_))
  rintro r s' (rfl | ⟨hfailing, e, rfl⟩)
  · exact Or.inl rfl
  · exact (deferInference_meets record.contextId e s').mono fun _ _ hnone => Or.inr ⟨hfailing, hnone⟩

end Gathering

/-- **No causal factor counts twice.**  The edges of a context are those with the events of
each type merged; none is there twice; and they are, for each type, the asset's own eligible
edges or, exactly when there are none, its group's. -/
theorem context_edges_exact (P : PredictionPipeline) (graph : Graph) (record : ContextRecord reg)
    (events : List ContextEvent) (elevated : Bool) (group : String)
    (hgroup : ∀ g, (record.assetId.value, g) ∈ graph.memberOf ↔ g = group) :
    ∃ edges : List (FiringEdge reg),
      (∀ context ∈ [events, mergeDuplicates events], ∀ (failing : Bool) (s : Store reg),
        (P.edgesOrDefer record context elevated).Meets (handleOver P.tz) (FromGraph graph failing)
          (fun _ => True) (fun r _ => r = .ok (some edges) ∨
            (failing = true ∧ ∀ found, r ≠ .ok (some found))) s) ∧
      (edges.map Credibility.firedKey).Nodup ∧
      ∀ edge, edge ∈ edges ↔ ∃ eventType ∈ events.map ContextEvent.eventType,
        ∃ row ∈ graph.edges, ∃ condition, Eligible events elevated eventType condition ∧
          ((row.key = .causes eventType condition (.asset record.assetId.value) ∧
              edge = row.firing eventType condition record.assetId none) ∨
            (row.key = .causes eventType condition (.group group) ∧
              edge = row.firing eventType condition record.assetId (some group) ∧
              ∀ own ∈ graph.edges, ∀ condition',
                own.key = .causes eventType condition' (.asset record.assetId.value) →
                  ¬ Eligible events elevated eventType condition')) := by
  refine ⟨(contextFiring record.assetId elevated events).edges graph, ?_,
    Credibility.Firing.nodup_edges _ graph, ?_⟩
  · intro context hcontext failing s
    have hsame : contextFiring record.assetId elevated context =
        contextFiring record.assetId elevated events := by
      unfold contextFiring
      congr 2
      rcases mem_cons.mp hcontext with rfl | hmerged
      · rfl
      · rw [mem_singleton.mp hmerged, conditionsByType_mergeDuplicates]
    rw [← hsame]
    exact edgesOrDefer_meets context elevated s
  · intro edge
    have hmem : edge ∈ (contextFiring record.assetId elevated events).edges graph ↔
        ∃ entry ∈ conditionsByType events, edge ∈ graph.getFiringEdges entry.1 record.assetId
          (some (gate elevated entry.2)) := by
      simp [contextFiring, Credibility.Firing.edges]
    rw [hmem]
    constructor
    · rintro ⟨⟨eventType, conditions⟩, hentry, hedge⟩
      obtain ⟨t, ht, hsame⟩ := mem_map.mp hentry
      obtain ⟨rfl, _⟩ := Prod.mk.inj hsame
      refine ⟨t, mem_eraseDups.mp ht, ?_⟩
      rcases mem_append.mp hedge with hown | hinherited
      · obtain ⟨row, hrow, condition, hkey, heligible, hfiring⟩ := mem_ownEdges.mp hown
        exact ⟨row, hrow, condition, (eligible_gate_iff hentry condition).mp heligible,
          Or.inl ⟨hkey, hfiring⟩⟩
      · obtain ⟨hnone, row, hrow, condition, hkey, heligible, hfiring⟩ :=
          (mem_groupEdges hgroup).mp hinherited
        refine ⟨row, hrow, condition, (eligible_gate_iff hentry condition).mp heligible,
          Or.inr ⟨hkey, hfiring, ?_⟩⟩
        intro own hown condition' hkey' heligible'
        exact ownEdges_eq_nil_iff.mp hnone own hown condition' hkey'
          ((eligible_gate_iff hentry condition').mpr heligible')
    · rintro ⟨eventType, htype, row, hrow, condition, heligible, hcase⟩
      have hentry := mem_map_of_mem (f := fun eventType => (eventType,
        ((events.filter (fun event => event.eventType = eventType)).flatMap
          ContextEvent.contextTags).eraseDups)) (mem_eraseDups.mpr htype)
      refine ⟨_, hentry, mem_append.mpr ?_⟩
      have hadmitted : eligible (some (gate elevated _)) condition :=
        (eligible_gate_iff hentry condition).mpr heligible
      rcases hcase with ⟨hkey, rfl⟩ | ⟨hkey, rfl, hnone⟩
      · exact Or.inl (mem_ownEdges.mpr ⟨row, hrow, condition, hkey, hadmitted, rfl⟩)
      · refine Or.inr ((mem_groupEdges hgroup).mpr ⟨ownEdges_eq_nil_iff.mpr ?_, row, hrow,
          condition, hkey, hadmitted, rfl⟩)
        intro own hown condition' hkey' hadmitted'
        exact hnone own hown condition' hkey' ((eligible_gate_iff hentry condition').mp hadmitted')

/-- Gold under two sanctions, one of them tagged, in a graph in which it inherits
from the precious metals. -/
theorem gold_inherits_once :
    ∃ edges : List (FiringEdge goldRegistry), (edges.map Credibility.firedKey).Nodup ∧
      ∀ edge ∈ edges, edge.inheritedFrom = some "PRECIOUS_METALS" := by
  have hgroup : ∀ g, (gold.value, g) ∈ Credibility.metalsGraph.memberOf ↔ g = "PRECIOUS_METALS" := by
    intro g
    refine (mem_insertNew_of_fresh rfl).trans ?_
    simp [show gold.value = "GOLD" from rfl]
  obtain ⟨edges, _, hnodup, hmem⟩ := context_edges_exact utcPipeline Credibility.metalsGraph
    ⟨1, gold, 1, 0, 15 * microsPerMinute, .predicting⟩ [⟨1, .sanctions, 0, .occurrence, []⟩,
      ⟨2, .sanctions, 0, .occurrence, [.riskPremiumElevated]⟩] false "PRECIOUS_METALS" hgroup
  refine ⟨edges, hnodup, ?_⟩
  intro edge hedge
  obtain ⟨_, _, row, hrow, _, _, ⟨hkey, _⟩ | ⟨_, rfl, _⟩⟩ := (hmem edge).mp hedge
  · rcases (mem_insertNew_of_fresh rfl).mp hrow with hnever | rfl
    · simp at hnever
    · cases hkey
  · rfl

end Prediction
