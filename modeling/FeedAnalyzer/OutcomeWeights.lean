import FeedAnalyzer.DeadLetters

/-!
# Weights follow outcomes

A correct outcome raises the weights of its relationships, and a wrong one lowers them,
except that a weight below the floor is lifted to it.  `weights_follow_iff` says of whole
runs when every weight follows every outcome.
-/

namespace Credibility

open Feed Transact CausalGraph Prediction Proc List Graph

/-- The weights stay in range, and move the way of the outcome. -/
def Follows (isCorrect : Bool) (before after : Graph) : Prop :=
  ∀ key weight weight', before.weightOf key = some weight → after.weightOf key = some weight' →
    0 ≤ weight'.1 ∧ weight'.1 ≤ 1 ∧
      if isCorrect then weight.1 ≤ weight'.1 else weight'.1 ≤ weight.1

/-- Every weight of the graph is a float. -/
def Floats (graph : Graph) : Prop := ∀ key weight, graph.weightOf key = some weight → IsFloat weight

namespace CredibilityPipeline

variable {P : CredibilityPipeline} {p : Service P.reg Bool} {message : P.Scored}
  {isCorrect : Bool} {edges : List ContributingEdge} {weight : Confidence} {key : EdgeKey}

/-- A float that a wrong outcome may lower follows any number of moves. -/
theorem moveAt_follows (hfloat : IsFloat weight)
    (hfloor : isCorrect ∨ P.settings.weightFloor ≤ weight.1) (keys : List EdgeKey) :
    if isCorrect then
      weight.1 ≤ (moveAt key (keys.map (P.creditMove isCorrect edges)) weight).1
    else (moveAt key (keys.map (P.creditMove isCorrect edges)) weight).1 ≤ weight.1 := by
  induction keys generalizing weight with
  | nil => split <;> exact le_refl _
  | cons key' rest ih =>
    have hcredit := creditOf_nonneg edges key'.text
    rw [moveAt_credit_cons]
    by_cases hkey : key' = key
    · have hrest := ih (isFloat_moved isCorrect (creditOf edges key'.text) weight)
        (Or.inr (floor_le_moved (P := P) isCorrect _ weight))
      rw [if_pos hkey]
      cases isCorrect with
      | true => exact (le_moved_of_correct hcredit hfloat).trans hrest
      | false =>
        exact le_trans hrest
          (moved_le_of_wrong hcredit hfloat (hfloor.resolve_left Bool.false_ne_true))
    · rw [if_neg hkey]
      exact ih hfloat hfloor

/-- What is moved ends at the floor or above it. -/
theorem floor_le_moveAt {keys : List EdgeKey}
    (hmoved : key ∈ keys ∨ P.settings.weightFloor ≤ weight.1) :
    P.settings.weightFloor ≤ (moveAt key (keys.map (P.creditMove isCorrect edges)) weight).1 := by
  induction keys generalizing weight with
  | nil => exact hmoved.resolve_left (not_mem_nil (a := key))
  | cons key' rest ih =>
    rw [moveAt_credit_cons]
    by_cases hkey : key' = key
    · rw [if_pos hkey]
      exact ih (Or.inr (floor_le_moved _ _ _))
    · rw [if_neg hkey]
      exact ih (hmoved.imp_left fun hmem => (mem_cons.mp hmem).resolve_left fun h => hkey h.symm)

theorem isFloat_moveAt (hfloat : IsFloat weight) (keys : List EdgeKey) :
    IsFloat (moveAt key (keys.map (P.creditMove isCorrect edges)) weight) := by
  induction keys generalizing weight with
  | nil => exact hfloat
  | cons key' rest ih =>
    rw [moveAt_credit_cons]
    split
    · exact ih (isFloat_moved _ _ _)
    · exact ih hfloat

/-- Moves follow a wrong outcome exactly when none of them starts below the
floor. -/
theorem follows_moveAll_iff {graph : Graph} (hfloats : Floats graph) (keys : List EdgeKey) :
    Follows isCorrect graph (graph.moveAll (keys.map (P.creditMove isCorrect edges))) ↔
      isCorrect = true ∨ ∀ key ∈ keys, ∀ weight, graph.weightOf key = some weight →
        P.settings.weightFloor ≤ weight.1 := by
  constructor
  · intro hfollows
    rw [or_iff_not_imp_left, Bool.not_eq_true]
    rintro rfl key hkey weight hbefore
    have hle := (hfollows key weight _ hbefore (by rw [weightOf_moveAll, hbefore]; rfl)).2.2
    exact (floor_le_moveAt (Or.inl hkey)).trans hle
  · intro hfloors key weight weight' hbefore hafter
    refine ⟨weight'.2.1, weight'.2.2, ?_⟩
    rw [weightOf_moveAll, hbefore] at hafter
    cases hafter
    by_cases hkey : key ∈ keys
    · exact moveAt_follows (hfloats key weight hbefore)
        (hfloors.imp_right fun h => h key hkey weight hbefore) keys
    · rw [moveAt_of_not_mem (by rw [map_fst_creditMove]; exact hkey)]
      split <;> exact le_refl _

variable (P) in
open Classical in
/-- What a call credits: the plan, up to what cannot be written, if the prediction is new
and stands. -/
noncomputable def credited (message : P.Scored) (s : Store) : List EdgeKey :=
  if s.processedPredictions.has message.predictionId ∨
      s.predictionStatuses message.predictionId = some .withdrawn then []
  else (P.plan message).keys.takeWhile fun key => ¬ Stray P.reg s.graph key

open Classical in
/-- The moves are made in order, up to a relationship that cannot be written. -/
theorem Crediting.finish_graph {moves : List Move} (hp : P.Crediting (P.Outcome message) moves p)
    {s : Store} (hnew : s.processedPredictions.has message.predictionId = false) :
    (p.finish handle {} s).2.graph =
      s.graph.moveAll (moves.takeWhile fun move => ¬ Stray P.reg s.graph move.1) := by
  induction moves generalizing p s with
  | nil =>
    have htail : P.Outcome message p := hp
    unfold Outcome at htail
    split at htail
    · rw [htail]
      rfl
    · obtain ⟨s', hdone, hclaimed⟩ := htail.finish hnew
      rw [hdone]
      exact hclaimed.graph
  | cons move rest ih =>
    obtain ⟨c, f, rfl, hread, hnext⟩ := hp
    obtain ⟨a, hanswer⟩ := hread.done s
    rw [finish_perform (congrArg Prod.fst hanswer), hanswer]
    rcases hnext s a hanswer with ⟨hmissing, hstray, hrest⟩ |
        ⟨counts, hcounts, c', f', hf, hwrite, hafter⟩
    · rw [takeWhile_cons_of_pos (by simpa using hstray), ih hrest hnew]
      exact moveAll_cons_of_missing hmissing _
    · rw [hf]
      by_cases hfound : s.graph.countsOf move.1 = none
      · -- the write raises, and nothing more is done
        have hstray := hcounts.resolve_left fun h => by rw [hfound] at h; cases h
        obtain ⟨text, hraised⟩ := hwrite.raised {} s (Or.inr hfound)
        rw [perform_bind, takeWhile_cons_of_neg (by simpa using hstray)]
        show ((onOk f' (handle {} c' s).1).finish handle {} (handle {} c' s).2).2.graph = _
        rw [hraised]
        rfl
      · have hread' := hcounts.resolve_right fun hstray => hfound hstray.1
        have hclear : ¬ Stray P.reg s.graph move.1 := fun hstray => hfound hstray.1
        obtain ⟨a', hdone⟩ := hwrite.done s hfound
        have hlater := ih (s := { s with
          graph := s.graph.setWeight move.1 (move.2 counts.weight) }) (hafter a') hnew
        rw [finish_perform (congrArg Prod.fst hdone), hdone, hlater,
          takeWhile_cons_of_pos (by simpa using hclear), setWeight_eq_mapWeight hread']
        simp only [stray_mapWeight]
        rfl

/-- **What one call does to the graph.**  It moves the credited relationships. -/
theorem process_graph (message : P.Scored) (s : Store) :
    ((P.process message).finish handle {} s).2.graph = s.graph.moveAll
      ((P.credited message s).map (P.creditMove message.isCorrect (P.plan message).edges)) := by
  unfold credited
  cases hnew : s.processedPredictions.has message.predictionId with
  | true =>
    rw [process_of_processed hnew, if_pos (Or.inl rfl)]
    rfl
  | false =>
    by_cases hstands : s.predictionStatuses message.predictionId = some .withdrawn
    · obtain ⟨s', hcommit, hclaimed⟩ := Store.claimed_commitUpdates [] hnew
      have hrun : ((P.process message).finish handle {} s).2 =
          (s.commitUpdates message.predictionId []).2 := by
        show (((ask (.alreadyProcessed message.predictionId)).bind _).finish handle {} s).2 = _
        rw [finish_perform (show _ = Except.ok false from congrArg Except.ok hnew)]
        show (((ask (.predictionStatus message.predictionId)).bind _).finish handle {} s).2 = _
        rw [finish_perform rfl, if_pos hstands]
        rfl
      rw [hrun, hcommit, if_pos (Or.inr hstands)]
      exact hclaimed.graph
    · rw [process_of_new hnew hstands, if_neg (by simp [hstands]),
        (P.crediting_applyOutcome message).finish_graph hnew, moves, takeWhile_map]
      rfl

theorem floats_process {s : Store} (hfloats : Floats s.graph) (message : P.Scored) :
    Floats ((P.process message).finish handle {} s).2.graph := by
  intro key weight hweight
  rw [process_graph, weightOf_moveAll] at hweight
  obtain ⟨before, hbefore, rfl⟩ := Option.map_eq_some_iff.mp hweight
  exact isFloat_moveAt (hfloats key before hbefore) _

variable (P) in
/-- The store after a list of scored predictions. -/
def storeAfter (s : Store) (messages : List P.Scored) : Store :=
  messages.foldl (fun s message => ((P.process message).finish handle {} s).2) s

theorem floats_storeAfter {s : Store} (hfloats : Floats s.graph) (messages : List P.Scored) :
    Floats (P.storeAfter s messages).graph := by
  induction messages generalizing s with
  | nil => exact hfloats
  | cons message rest ih => exact ih (floats_process hfloats message)

theorem graph_storeAfter_snoc (s : Store) (before : List P.Scored) (message : P.Scored) :
    (P.storeAfter s (before ++ [message])).graph = (P.storeAfter s before).graph.moveAll
      ((P.credited message (P.storeAfter s before)).map
        (P.creditMove message.isCorrect (P.plan message).edges)) := by
  rw [storeAfter, foldl_append]
  exact process_graph message _

end CredibilityPipeline

open CredibilityPipeline

/-- **When weights follow outcomes.**  In every sequence of scored predictions no weight
moves against an outcome exactly if no wrong outcome is credited to a relationship whose
weight is then below the floor. -/
theorem weights_follow_iff (P : CredibilityPipeline) (start : Store) (hfloats : Floats start.graph)
    (messages : List (PredictionScored P.reg)) :
    (∀ before message rest, messages = before ++ message :: rest →
      Follows message.isCorrect (P.storeAfter start before).graph
        (P.storeAfter start (before ++ [message])).graph) ↔
      ∀ before message rest, messages = before ++ message :: rest → message.isCorrect = true ∨
        ∀ key ∈ P.credited message (P.storeAfter start before), ∀ weight,
          (P.storeAfter start before).graph.weightOf key = some weight →
            P.settings.weightFloor ≤ weight.1 := by
  refine forall_congr' fun before => forall_congr' fun message => forall_congr' fun rest =>
    forall_congr' fun _ => ?_
  rw [graph_storeAfter_snoc]
  exact follows_moveAll_iff (floats_storeAfter hfloats before) _

/-- What holds of all rows holds of every weight that is read. -/
theorem weightOf_of_rows {graph : Graph} {Q : Confidence → Prop}
    (hrows : ∀ row ∈ graph.edges.rows, Q row.weight) {key : EdgeKey} {weight : Confidence}
    (hweight : graph.weightOf key = some weight) : Q weight := by
  rw [weightOf_eq] at hweight
  obtain ⟨row, hfind, rfl⟩ := Option.map_eq_some_iff.mp hweight
  exact hrows row (Table.find?_eq_some_iff.mp hfind).1

def wrongGold : PredictionScored metalsPipeline.reg :=
  { scoredGold 1 [contributed "SANCTIONS->GOLD"] with isCorrect := false }

/-- From one half, a wrong prediction lowers the weight. -/
theorem half_weight_follows : Follows false sanctionsStore.graph
    (metalsPipeline.storeAfter sanctionsStore [wrongGold]).graph := by
  have hfloats : Floats sanctionsStore.graph := fun key weight =>
    weightOf_of_rows (Q := IsFloat) (by unfold IsFloat; decide +kernel)
  refine (weights_follow_iff metalsPipeline sanctionsStore hfloats [wrongGold]).mpr ?_ [] wrongGold
    [] rfl
  intro before message rest hsplit
  cases before with
  | nil =>
    right
    intro key _ weight
    exact weightOf_of_rows (Q := fun weight => metalsPipeline.settings.weightFloor ≤ weight.1)
      (by decide +kernel)
  | cons first before => simp at hsplit

/-- A relationship of weight 0.01, which the learner may create. -/
def weakStore : Store :=
  { sanctionsStore with
    graph := sanctionsStore.graph.setWeight goldUnderSanctions
      ⟨Binary64.round (1 / 100), by decide +kernel⟩ }

/-- A wrong prediction lifts it to the floor. -/
theorem wrong_outcome_raises_weight : Floats weakStore.graph ∧
    ¬ Follows false weakStore.graph (metalsPipeline.storeAfter weakStore [wrongGold]).graph := by
  refine ⟨fun key weight => weightOf_of_rows (Q := IsFloat) (by unfold IsFloat; decide +kernel), ?_⟩
  intro hfollows
  have hraised := (hfollows goldUnderSanctions ⟨Binary64.round (1 / 100), by decide +kernel⟩
    ⟨Binary64.round (5 / 100), by decide +kernel⟩ (by decide +kernel) (by decide +kernel)).2.2
  exact absurd hraised (by decide +kernel)

end Credibility
