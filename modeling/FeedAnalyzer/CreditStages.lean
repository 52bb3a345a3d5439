import FeedAnalyzer.CreditEffects

/-!
# The stages of a call on a scored prediction

Where a call of `process` can stand between two of its steps, what it relies on there,
what one step of it does, and that calls about different predictions and edges leave
each other alone.
-/

namespace Credibility

open Feed Transact CausalGraph Prediction Proc List Store Table Graph

/-- Where a call stands. -/
inductive Stage where
  | arrived
  | checked
  | withdrawing
  | applying (rest : List Graph.Move)
  | writing (weight : Confidence) (move : Graph.Move) (rest : List Graph.Move)
  | finished (applied : Bool)

/-- The moves that are still to be made. -/
def Stage.rest : Stage → List Graph.Move
  | .applying rest => rest
  | .writing _ move rest => move :: rest
  | _ => []

/-- The call has begun to apply the outcome. -/
def Stage.applies : Stage → Bool
  | .applying _ => true
  | .writing _ _ _ => true
  | .finished applied => applied
  | _ => false

namespace CredibilityPipeline

variable (P : CredibilityPipeline) {move : Graph.Move} {rest : List Graph.Move} {key : EdgeKey}

/-- What is left of a withdrawn prediction's call. -/
def claimWithdrawn (message : P.Scored) : Service P.reg Bool :=
  (ask (.commitUpdates message.predictionId [])).bind fun _ => .ret false

/-- What is left once the prediction is known to be new. -/
def afterCheck (message : P.Scored) : Service P.reg Bool :=
  (ask (.predictionStatus message.predictionId)).bind (fun status =>
    if status = some .withdrawn then P.claimWithdrawn message else P.applyOutcome message)

theorem process_eq (message : P.Scored) :
    P.process message = (ask (.alreadyProcessed message.predictionId)).bind (fun processed =>
      if processed then .ret false else P.afterCheck message) := rfl

/-- The moves made so far found what they looked for. -/
def Underway (start : Store) (message : P.Scored) (rest : List Graph.Move) : Prop :=
  ∃ made, P.moves message = made ++ rest ∧ ∀ move ∈ made, ¬ Graph.Stray P.reg start.graph move.1

def Processable (start : Store) (message : P.Scored) : Prop :=
  (P.plan message).invalid = none ∧ ∀ move ∈ P.moves message, ¬ Graph.Stray P.reg start.graph move.1

/-- What is left of a call at each stage, and what it relies on. -/
def Holds (start : Store) (order : List P.Scored) (s : Store) (message : P.Scored) :
    Stage → Service P.reg Bool → Prop
  | .arrived, p => p = P.process message
  | .checked, p =>
    p = P.afterCheck message ∧ s.processedPredictions.has message.predictionId = false
  | .withdrawing, p =>
    p = P.claimWithdrawn message ∧ start.predictionStatuses message.predictionId = some .withdrawn
  | .applying rest, p =>
    P.Crediting (P.Outcome message) rest p ∧ P.Underway start message rest
  | .writing weight move rest, p =>
    P.Writing move.1 (move.2 weight) (P.Crediting (P.Outcome message) rest) p ∧
      (s.graph.weightOf move.1 = some weight ∨ Graph.Stray P.reg s.graph move.1) ∧
        P.Underway start message (move :: rest)
  | .finished true, p =>
    (∃ b, p = .ret b) ∧ s.processedPredictions.has message.predictionId = true ∧
      P.Processable start message
  | .finished false, p =>
    (∃ b, p = .ret b) ∧ (start.processedPredictions.has message.predictionId = true ∨
        start.predictionStatuses message.predictionId = some .withdrawn ∨
          ∃ message' ∈ order, message'.predictionId = message.predictionId)

/-- One step of a call; `begun` is the message if its outcome begins to be applied. -/
structure StepOf (start : Store) (message : P.Scored)
    (begun : List P.Scored) (stage stage' : Stage) (s s' : Store) : Prop where
  begins : begun = [] ∨ (begun = [message] ∧ stage = .checked ∧
    start.predictionStatuses message.predictionId ≠ some .withdrawn)
  weights : ∀ key, (s'.graph.weightOf key).map (Graph.moveAt key stage'.rest) =
    ((s.graph.weightOf key).map (Graph.moveAt key stage.rest)).map
      (Graph.moveAt key (begun.flatMap P.moves))
  others : ∀ key, key ∉ (P.moves message).map Prod.fst →
    s'.graph.weightOf key = s.graph.weightOf key
  graph : ∃ moves, s'.graph = s.graph.moveAll moves
  statuses : s'.predictionStatuses = s.predictionStatuses
  processed : s'.processedPredictions = s.processedPredictions ∨
    (s'.processedPredictions = s.processedPredictions.insertNew message.predictionId ∧
      (start.predictionStatuses message.predictionId = some .withdrawn ∨ stage.applies = true))
  applies : stage'.applies = true ↔ stage.applies = true ∨ begun = [message]

variable {P} {start s s' : Store} {order : List P.Scored}
  {message : P.Scored} {p : Service P.reg Bool}
  {stage stage' : Stage}

private theorem map_moveAt_nil (weight : Option Confidence) (key : EdgeKey) :
    weight.map (moveAt key []) = weight := by
  cases weight <;> rfl

theorem stepOf_read (hrest : ∀ key, (s.graph.weightOf key).map (moveAt key stage'.rest) =
      (s.graph.weightOf key).map (moveAt key stage.rest))
    (happlies : stage'.applies = stage.applies) : P.StepOf start message [] stage stage' s s where
  begins := Or.inl rfl
  weights := by
    intro key
    rw [hrest key]
    exact (map_moveAt_nil _ key).symm
  others := fun _ _ => rfl
  graph := ⟨[], rfl⟩
  statuses := rfl
  processed := Or.inl rfl
  applies := by simp [happlies]

theorem stepOf_claim (hclaim : Claimed message.predictionId s s' ∨ s' = s) (hrest : stage.rest = [])
    (hrest' : stage'.rest = []) (happlies : stage'.applies = stage.applies)
    (hreason : start.predictionStatuses message.predictionId = some .withdrawn ∨
      stage.applies) : P.StepOf start message [] stage stage' s s' := by
  rcases hclaim with hclaimed | rfl
  · constructor
    · exact Or.inl rfl
    · intro key
      rw [hclaimed.graph, hrest, hrest']
      exact (map_moveAt_nil _ key).symm
    · intro key _
      rw [hclaimed.graph]
    · exact ⟨[], hclaimed.graph⟩
    · exact hclaimed.statuses
    · exact Or.inr ⟨hclaimed.processed, hreason⟩
    · simp [happlies]
  · exact stepOf_read (fun key => by rw [hrest, hrest']) happlies

theorem commitUpdates_cases (predictionId : Uuid) (updates : List WeightUpdate) (s : Store) :
    (Claimed predictionId s (s.commitUpdates predictionId updates).2 ∨
        (s.commitUpdates predictionId updates).2 = s) ∧
      (s.commitUpdates predictionId updates).2.processedPredictions.has predictionId := by
  cases hprocessed : s.processedPredictions.has predictionId with
  | true =>
    have hsame : s.commitUpdates predictionId updates = (false, s) := by
      unfold commitUpdates
      rw [hprocessed, if_pos rfl]
    rw [hsame]
    exact ⟨Or.inr rfl, hprocessed⟩
  | false =>
    obtain ⟨s', hcommit, hclaimed⟩ := claimed_commitUpdates updates hprocessed
    rw [hcommit]
    refine ⟨Or.inl hclaimed, ?_⟩
    rw [hclaimed.processed]
    exact has_insertNew_self _ predictionId

/-- What holds of the store at every point of a run. -/
structure Kept (P : CredibilityPipeline) (start : Store) (order : List P.Scored)
    (s : Store) : Prop where
  graph : ∃ moves, s.graph = start.graph.moveAll moves
  statuses : s.predictionStatuses = start.predictionStatuses
  processed : ∀ predictionId, s.processedPredictions.has predictionId = true →
    start.processedPredictions.has predictionId = true ∨
      start.predictionStatuses predictionId = some .withdrawn ∨
        ∃ message ∈ order, message.predictionId = predictionId
  keeps : ∀ predictionId, start.processedPredictions.has predictionId = true →
    s.processedPredictions.has predictionId = true

theorem Kept.stray_iff (hkept : P.Kept start order s) (key : EdgeKey) :
    Stray P.reg s.graph key ↔ Stray P.reg start.graph key := by
  obtain ⟨moves, hgraph⟩ := hkept.graph
  rw [hgraph]
  exact stray_moveAll

theorem Underway.next (hunderway : P.Underway start message (move :: rest))
    (hmove : ¬ Stray P.reg start.graph move.1) : P.Underway start message rest := by
  obtain ⟨made, hmoves, hmade⟩ := hunderway
  refine ⟨made ++ [move], by simp [hmoves], ?_⟩
  intro move' hmove'
  rcases mem_append.mp hmove' with hold | hnew
  · exact hmade move' hold
  · rw [mem_singleton.mp hnew]
    exact hmove

theorem Underway.mem (hunderway : P.Underway start message rest) (hmove : move ∈ rest) :
    move ∈ P.moves message := by
  obtain ⟨made, hmoves, _⟩ := hunderway
  rw [hmoves]
  exact mem_append_right made hmove

theorem advance_one {c : Call P.reg} {f : c.Ret → Service P.reg Bool}
    {a : c.Ret} (hanswer : handle {} c s = (.ok a, s')) :
    ((ask c).bind f).advance handle [{}] s = (f a, s') := by
  rw [perform_bind, advance_call, hanswer, advance_nil]
  rfl

/-- The next step of a call leads to a stage that holds again. -/
def Advances (P : CredibilityPipeline) (start : Store) (order : List P.Scored) (s : Store)
    (message : P.Scored) (stage : Stage) (p : Service P.reg Bool) : Prop :=
  ∃ stage' begun, P.StepOf start message begun stage stage' s (p.advance handle [{}] s).2 ∧
      P.Holds start (order ++ begun) (p.advance handle [{}] s).2 message stage'
        (p.advance handle [{}] s).1

theorem advances_arrived (hkept : P.Kept start order s) :
    P.Advances start order s message .arrived (P.process message) := by
  have hanswer : handle {} (.alreadyProcessed message.predictionId : Call P.reg) s =
      (.ok (s.processedPredictions.has message.predictionId), s) := rfl
  have hstep := advance_one
    (f := fun processed => if processed then .ret false else P.afterCheck message) hanswer
  unfold Advances
  rw [P.process_eq, hstep]
  cases hprocessed : s.processedPredictions.has message.predictionId with
  | true =>
    refine ⟨.finished false, [], stepOf_read (fun _ => rfl) rfl, ⟨false, rfl⟩, ?_⟩
    rw [append_nil]
    exact hkept.processed message.predictionId hprocessed
  | false => exact ⟨.checked, [], stepOf_read (fun _ => rfl) rfl, rfl, hprocessed⟩

/-- The step after the check. -/
theorem advances_checked (hkept : P.Kept start order s) :
    P.Advances start order s message .checked (P.afterCheck message) := by
  have hanswer : handle {} (.predictionStatus message.predictionId : Call P.reg) s =
      (.ok (s.predictionStatuses message.predictionId), s) := rfl
  have hstep := advance_one (f := fun status =>
      if status = some .withdrawn then P.claimWithdrawn message else P.applyOutcome message) hanswer
  unfold Advances
  rw [show P.afterCheck message = (ask (.predictionStatus message.predictionId)).bind _ from rfl,
    hstep, hkept.statuses]
  by_cases hwithdrawn : start.predictionStatuses message.predictionId = some .withdrawn
  · rw [if_pos hwithdrawn]
    exact ⟨.withdrawing, [], stepOf_read (fun _ => rfl) rfl, rfl, hwithdrawn⟩
  · rw [if_neg hwithdrawn]
    refine ⟨.applying (P.moves message), [message], ?_, P.crediting_applyOutcome message,
      [], rfl, fun move hmove => by cases hmove⟩
    constructor
    · exact Or.inr ⟨rfl, rfl, hwithdrawn⟩
    · intro key
      rw [flatMap_singleton, show Stage.checked.rest = [] from rfl, map_moveAt_nil]
      rfl
    · intro key _
      rfl
    · exact ⟨[], rfl⟩
    · rfl
    · exact Or.inl rfl
    · simp [Stage.applies]

theorem advances_withdrawing
    (hwithdrawn : start.predictionStatuses message.predictionId = some .withdrawn) :
    P.Advances start order s message .withdrawing (P.claimWithdrawn message) := by
  have hanswer : handle {} (.commitUpdates message.predictionId [] : Call P.reg) s =
      (.ok (s.commitUpdates message.predictionId []).1,
        (s.commitUpdates message.predictionId []).2) := rfl
  have hstep := advance_one (f := fun _ => .ret false) hanswer
  unfold Advances
  exact ⟨.finished false, [], stepOf_claim (commitUpdates_cases _ _ s).1 rfl rfl rfl
    (Or.inl hwithdrawn), ⟨false, rfl⟩, Or.inr (Or.inl hwithdrawn)⟩

theorem weightOf_of_countsOf {graph : Graph} {counts : EdgeCounts}
    (hcounts : graph.countsOf key = some counts) : graph.weightOf key = some counts.weight := by
  unfold weightOf
  rw [hcounts]
  rfl

/-- The step that reads a weight. -/
theorem advances_reading (hkept : P.Kept start order s)
    (hcrediting : P.Crediting (P.Outcome message) (move :: rest) p)
    (hunderway : P.Underway start message (move :: rest)) :
    P.Advances start order s message (.applying (move :: rest)) p := by
  obtain ⟨c, f, rfl, hread, hnext⟩ := hcrediting
  obtain ⟨a, hanswer⟩ := hread.done s
  unfold Advances
  rw [advance_one hanswer]
  rcases hnext s a hanswer with ⟨hmissing, hstray, hrest⟩ | ⟨counts, hcounts, hwriting⟩
  · refine ⟨.applying rest, [], stepOf_read ?_ rfl, hrest,
      hunderway.next (fun hstart => hstray ((hkept.stray_iff move.1).mpr hstart))⟩
    intro key
    show _ = (s.graph.weightOf key).map (moveAt key (move :: rest))
    by_cases hkey : move.1 = key
    · have hnone : s.graph.weightOf key = none := by
        unfold weightOf
        rw [← hkey, hmissing]
        rfl
      rw [hnone]
      rfl
    · congr 1
      funext weight
      rw [moveAt_cons, if_neg hkey]
      rfl
  · refine ⟨.writing counts.weight move rest, [], stepOf_read (fun _ => rfl) rfl, hwriting, ?_,
      hunderway⟩
    exact hcounts.imp weightOf_of_countsOf id

/-- The step that writes a weight. -/
theorem advances_writing (hkept : P.Kept start order s) {weight : Confidence}
    (hwriting : P.Writing move.1 (move.2 weight) (P.Crediting (P.Outcome message) rest) p)
    (hweight : s.graph.weightOf move.1 = some weight ∨ Stray P.reg s.graph move.1)
    (hunderway : P.Underway start message (move :: rest))
    (hfine : ∀ e, (p.advance handle [{}] s).1 ≠ .fail e) :
    P.Advances start order s message (.writing weight move rest) p := by
  obtain ⟨c, f, rfl, hwrite, hnext⟩ := hwriting
  cases hcounts : s.graph.countsOf move.1 with
  | none =>
    obtain ⟨text, hraised⟩ := hwrite.raised {} s (Or.inr hcounts)
    refine absurd ?_ (hfine (.graphTransport text))
    rw [perform_bind, advance_call, hraised, advance_nil]
    rfl
  | some counts =>
    have hfound : s.graph.countsOf move.1 ≠ none := by
      rw [hcounts]
      exact Option.some_ne_none counts
    have hread : s.graph.weightOf move.1 = some weight :=
      hweight.resolve_right fun hstray => hfound hstray.1
    have hsame : counts.weight = weight := by
      rw [weightOf_of_countsOf hcounts] at hread
      exact Option.some.inj hread
    obtain ⟨a, hdone⟩ := hwrite.done s hfound
    rw [← hsame, setWeight_eq_mapWeight hcounts] at hdone
    unfold Advances
    rw [advance_one hdone]
    refine ⟨.applying rest, [], ?_, hnext a, hunderway.next
      (fun hstart => hfound ((hkept.stray_iff move.1).mpr hstart).1)⟩
    have hweightOf : ∀ key, (s.graph.mapWeight move.1 move.2).weightOf key =
        (s.graph.weightOf key).map (moveAt key [move]) :=
      weightOf_moveAll s.graph [move]
    constructor
    · exact Or.inl rfl
    · intro key
      rw [hweightOf, Option.map_map]
      exact (map_moveAt_nil _ key).symm
    · intro key hkey
      have hstays : moveAt key [move] = id := by
        funext weight
        apply moveAt_of_not_mem
        rw [map_singleton, mem_singleton]
        intro heq
        exact hkey (heq ▸ mem_map_of_mem (hunderway.mem mem_cons_self))
      rw [hweightOf, hstays, Option.map_id]
      rfl
    · exact ⟨[move], rfl⟩
    · rfl
    · exact Or.inl rfl
    · simp [Stage.applies]

/-- The step that records the updates. -/
theorem advances_recording (houtcome : P.Outcome message p)
    (hunderway : P.Underway start message []) (hended : p.ended = false) :
    P.Advances start order s message (.applying []) p := by
  unfold Outcome at houtcome
  cases hvalid : (P.plan message).invalid with
  | some e =>
    rw [hvalid] at houtcome
    subst houtcome
    cases hended
  | none =>
    rw [hvalid] at houtcome
    cases houtcome with
    | read sourceId f hp hnext =>
      have hread : handle {} (.getSourceState sourceId : Call P.reg) s =
          (.ok (s.getSourceState sourceId), s) := rfl
      unfold Advances
      rw [hp, advance_one hread]
      refine ⟨.applying [], [], stepOf_read (fun _ => rfl) rfl, ?_, hunderway⟩
      unfold Outcome
      rw [hvalid]
      exact hnext _
    | guard updates hp =>
      subst hp
      obtain ⟨hclaim, hclaimed⟩ := commitUpdates_cases message.predictionId updates s
      obtain ⟨made, hmoves, hmade⟩ := hunderway
      rw [append_nil] at hmoves
      refine ⟨.finished true, [], stepOf_claim hclaim rfl rfl rfl (Or.inr rfl), ⟨_, rfl⟩,
        hclaimed, hvalid, ?_⟩
      rw [hmoves]
      exact hmade

/-- **One step of a call.**  Unless it fails, the call comes to the next stage. -/
theorem Holds.advances (hholds : P.Holds start order s message stage p)
    (hkept : P.Kept start order s) (hended : p.ended = false)
    (hfine : ∀ e, (p.advance handle [{}] s).1 ≠ .fail e) :
    P.Advances start order s message stage p := by
  cases stage with
  | arrived =>
    obtain rfl : p = P.process message := hholds
    exact advances_arrived hkept
  | checked =>
    obtain ⟨rfl, _⟩ := hholds
    exact advances_checked hkept
  | withdrawing =>
    obtain ⟨rfl, hwithdrawn⟩ := hholds
    exact advances_withdrawing hwithdrawn
  | applying rest =>
    obtain ⟨hcrediting, hunderway⟩ := hholds
    cases rest with
    | nil => exact advances_recording hcrediting hunderway hended
    | cons move rest => exact advances_reading hkept hcrediting hunderway
  | writing weight move rest =>
    obtain ⟨hwriting, hweight, hunderway⟩ := hholds
    exact advances_writing hkept hwriting hweight hunderway hfine
  | finished applied =>
    have hret : ∃ b, p = .ret b := by
      cases applied with
      | _ => exact hholds.1
    obtain ⟨b, rfl⟩ := hret
    cases hended

/-- Different predictions, and no common edge. -/
def Apart {reg : Registry} (message message' : PredictionScored reg) : Prop :=
  message.predictionId ≠ message'.predictionId ∧
    ∀ edge ∈ message.contributingEdges, ∀ edge' ∈ message'.contributingEdges,
      edge.edgeId ≠ edge'.edgeId

theorem Apart.symm {reg : Registry} {message message' : PredictionScored reg}
    (hapart : Apart message message') : Apart message' message :=
  ⟨Ne.symm hapart.1, fun edge hedge edge' hedge' heq =>
    hapart.2 edge' hedge' edge hedge heq.symm⟩

theorem text_of_directKeys {edges : List ContributingEdge} (hkey : key ∈ (P.directKeys edges).1) :
    ∃ edge ∈ edges, edge.edgeId = key.text := by
  induction edges with
  | nil => cases hkey
  | cons edge rest ih =>
    cases hparse : P.causalKey edge.edgeId with
    | error e =>
      simp only [directKeys, hparse] at hkey
      cases hkey
    | ok key' =>
      simp only [directKeys, hparse] at hkey
      rcases mem_cons.mp hkey with rfl | hlater
      · exact ⟨edge, mem_cons_self, text_of_causalKey hparse⟩
      · obtain ⟨edge', hmem, htext⟩ := ih hlater
        exact ⟨edge', mem_cons_of_mem edge hmem, htext⟩

/-- **A message moves what its edges name.** -/
theorem text_of_moves (hkey : key ∈ (P.moves message).map Prod.fst) :
    ∃ edge ∈ message.contributingEdges, edge.edgeId = key.text := by
  unfold moves at hkey
  rw [map_fst_creditMove] at hkey
  unfold plan at hkey
  split at hkey
  · exact text_of_directKeys hkey
  · split at hkey
    · cases hkey
    next parsed hparsed =>
      obtain ⟨pair, hpair, rfl⟩ := mem_map.mp hkey
      exact ⟨pair.1, P.text_of_correlationEdges hparsed pair hpair⟩

variable {message' : P.Scored}

theorem Apart.not_mem (hapart : Apart message message')
    (hkey : key ∈ (P.moves message').map Prod.fst) : key ∉ (P.moves message).map Prod.fst := by
  intro hkey'
  obtain ⟨edge, hedge, htext⟩ := text_of_moves hkey'
  obtain ⟨edge', hedge', htext'⟩ := text_of_moves hkey
  exact hapart.2 edge hedge edge' hedge' (htext.trans htext'.symm)

section

variable (hholds : P.Holds start order s message stage p)

include hholds

theorem Holds.mem_moves (hkey : key ∈ stage.rest.map Prod.fst) :
    key ∈ (P.moves message).map Prod.fst := by
  obtain ⟨move, hmove, rfl⟩ := mem_map.mp hkey
  apply mem_map_of_mem
  cases stage with
  | applying rest => exact hholds.2.mem hmove
  | writing weight move' rest => exact hholds.2.2.mem hmove
  | _ => cases hmove

/-- and a call that still has something to do is in progress. -/
theorem Holds.not_ended (hkey : key ∈ stage.rest.map Prod.fst) : p.ended = false := by
  obtain ⟨move, hmove, rfl⟩ := mem_map.mp hkey
  cases stage with
  | applying rest =>
    cases rest with
    | nil => cases hmove
    | cons move' rest =>
      obtain ⟨c, f, rfl, _⟩ := hholds.1
      rfl
  | writing weight move' rest =>
    obtain ⟨c, f, rfl, _⟩ := hholds.1
    rfl
  | _ => cases hmove

omit hholds in
/-- **The frame rule.**  A step of one call leaves what another relies on, while the two
have nothing to do with each other. -/
theorem Holds.frame {begun : List P.Scored} {stage₁ stage₂ : Stage}
    (hholds : P.Holds start order s message' stage p)
    (hstep : P.StepOf start message begun stage₁ stage₂ s s')
    (hapart : p.ended = false → Apart message message') :
    P.Holds start (order ++ begun) s' message' stage p := by
  cases stage with
  | checked =>
    obtain ⟨rfl, hnew⟩ := hholds
    refine ⟨rfl, ?_⟩
    rcases hstep.processed with hsame | ⟨hclaimed, _⟩
    · rw [hsame]
      exact hnew
    · rw [hclaimed, has_insertNew, hnew]
      exact decide_eq_false (hapart rfl).1
  | writing weight move rest =>
    have hfirst : move.1 ∈ (Stage.writing weight move rest).rest.map Prod.fst :=
      mem_cons_self
    have hended : p.ended = false := hholds.not_ended hfirst
    have hmove : move.1 ∈ (P.moves message').map Prod.fst := hholds.mem_moves hfirst
    obtain ⟨hwriting, hweight, hunderway⟩ := hholds
    refine ⟨hwriting, hweight.imp ?_ ?_, hunderway⟩
    · rw [hstep.others move.1 ((hapart hended).not_mem hmove)]
      exact id
    · obtain ⟨moves, hgraph⟩ := hstep.graph
      rw [hgraph]
      exact stray_moveAll.mpr
  | finished applied =>
    cases applied with
    | true =>
      obtain ⟨hret, hclaimed, hprocessable⟩ := hholds
      refine ⟨hret, ?_, hprocessable⟩
      rcases hstep.processed with hsame | ⟨hmore, _⟩
      · rw [hsame]
        exact hclaimed
      · rw [hmore]
        exact has_insertNew_of_has hclaimed
    | false =>
      obtain ⟨hret, hreason⟩ := hholds
      refine ⟨hret, hreason.imp_right (Or.imp_right ?_)⟩
      rintro ⟨earlier, hmem, hid⟩
      exact ⟨earlier, mem_append_left begun hmem, hid⟩
  | _ => exact hholds

/-- A call that has come to its end without a failure is finished. -/
theorem Holds.finished (hended : p.ended) (hfine : ∀ e, p ≠ .fail e) :
    ∃ applied, stage = .finished applied := by
  cases stage with
  | arrived =>
    obtain rfl : p = P.process message := hholds
    cases hended
  | checked =>
    obtain ⟨rfl, _⟩ := hholds
    cases hended
  | withdrawing =>
    obtain ⟨rfl, _⟩ := hholds
    cases hended
  | applying rest =>
    cases rest with
    | nil =>
      have houtcome : P.Outcome message p := hholds.1
      unfold Outcome at houtcome
      split at houtcome
      · exact absurd houtcome (hfine _)
      · cases houtcome with
        | read sourceId f hp _ =>
          subst hp
          cases hended
        | guard updates hp =>
          subst hp
          cases hended
    | cons move rest =>
      have hfirst : move.1 ∈ (Stage.applying (move :: rest)).rest.map Prod.fst :=
        mem_cons_self
      rw [hholds.not_ended hfirst] at hended
      cases hended
  | writing weight move rest =>
    have hfirst : move.1 ∈ (Stage.writing weight move rest).rest.map Prod.fst :=
      mem_cons_self
    rw [hholds.not_ended hfirst] at hended
    cases hended
  | finished applied => exact ⟨applied, rfl⟩

end

end CredibilityPipeline

end Credibility
