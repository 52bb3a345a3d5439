import FeedAnalyzer.CreditEffects

/-!
# What a rejected message leaves behind

A propagated message is parsed as a whole before anything is written, a direct one in
the loop that writes: nothing is changed exactly when one step moves none of the edges
before the first invalid id.

A weight that has moved does not come back, because rounding is monotone and a step
always ends at a float.
-/

namespace Credibility

open Feed Transact CausalGraph Prediction Proc List Graph

theorem creditOf_nonneg (edges : List ContributingEdge) (edgeId : String) :
    0 ≤ creditOf edges edgeId := by
  have hshares : ∀ pair ∈ computeProportionalCredits edges, 0 ≤ pair.2 := by
    intro pair hpair
    unfold computeProportionalCredits at hpair
    dsimp only at hpair
    split at hpair
    · obtain ⟨edge, _, rfl⟩ := mem_map.mp hpair
      exact Binary64.round_nonneg (by positivity)
    next htotal =>
      obtain ⟨edge, _, rfl⟩ := mem_map.mp hpair
      exact Binary64.round_nonneg
        (div_nonneg edge.influence_range.1 (le_of_lt (not_le.mp htotal)))
  unfold creditOf
  cases hlookup : (computeProportionalCredits edges).lookup edgeId with
  | none => exact le_refl 0
  | some share =>
    obtain ⟨front, back, hsplit, _⟩ := lookup_eq_some_iff.mp hlookup
    exact hshares (edgeId, share) (hsplit ▸ mem_append_right front mem_cons_self)

/-- The weight is a float. -/
def IsFloat (weight : Confidence) : Prop := Binary64.round weight.1 = weight.1

namespace CredibilityPipeline

variable {P : CredibilityPipeline} {weight start : Confidence} {credit : Rat}

theorem isFloat_moved (isCorrect : Bool) (credit : Rat) (weight : Confidence) :
    IsFloat (P.moved isCorrect credit weight) := by
  have hmoved := Binary64.round_round (if isCorrect then
    weight.1 + Binary64.round (P.settings.weightStep * credit)
    else weight.1 - Binary64.round (P.settings.weightStep * credit))
  unfold IsFloat moved applyWeightDelta
  dsimp only
  rcases min_choice (max _ P.settings.weightFloor) 1 with hmin | hmin
  · rw [hmin]
    rcases max_choice _ P.settings.weightFloor with hmax | hmax
    · rw [hmax, hmoved]
    · rw [hmax, P.settings.floor_float]
  · rw [hmin, Binary64.round_one]

theorem floor_le_moved (isCorrect : Bool) (credit : Rat) (weight : Confidence) :
    P.settings.weightFloor ≤ (P.moved isCorrect credit weight).1 :=
  le_min (le_max_right _ _) (le_of_lt P.settings.floor_range.2)

section

variable (hcredit : 0 ≤ credit) (hfloat : IsFloat weight)

include hcredit

theorem delta_nonneg : 0 ≤ Binary64.round (P.settings.weightStep * credit) :=
  Binary64.round_nonneg (mul_nonneg (le_of_lt P.settings.step_range.1) hcredit)

include hfloat

/-- A correct outcome lowers no weight. -/
theorem le_moved_of_correct : weight.1 ≤ (P.moved true credit weight).1 := by
  have hmove := Binary64.round_mono weight.2.1
    (le_add_of_nonneg_right (P.delta_nonneg hcredit))
  rw [hfloat] at hmove
  exact le_min (le_max_of_le_left hmove) weight.2.2

/-- A wrong outcome raises no weight from the floor on. -/
theorem moved_le_of_wrong (hfloor : P.settings.weightFloor ≤ weight.1) :
    (P.moved false credit weight).1 ≤ weight.1 := by
  have hdelta := P.delta_nonneg hcredit
  have hmove : Binary64.round (weight.1 - Binary64.round (P.settings.weightStep * credit)) ≤
      weight.1 := by
    rcases le_total 0 (weight.1 - Binary64.round (P.settings.weightStep * credit)) with h | h
    · exact (Binary64.round_mono h (sub_le_self _ hdelta)).trans_eq hfloat
    · exact (Binary64.round_nonpos h).trans weight.2.1
  exact min_le_of_left_le (max_le hmove hfloor)

end

/-- The weight is a float, not below the floor, and past `start` in the direction of the
outcome. -/
structure Departed (P : CredibilityPipeline) (isCorrect : Bool) (start weight : Confidence) :
    Prop where
  float : IsFloat weight
  floor : P.settings.weightFloor ≤ weight.1
  past : IsFloat start → if isCorrect then start.1 < weight.1
    else P.settings.weightFloor ≤ start.1 → weight.1 < start.1

variable {isCorrect : Bool} {key : EdgeKey}

theorem Departed.ne (hdeparted : P.Departed isCorrect start weight) : weight ≠ start := by
  rintro rfl
  have hpast := hdeparted.past hdeparted.float
  cases isCorrect with
  | true => exact absurd hpast (lt_irrefl _)
  | false => exact absurd (hpast hdeparted.floor) (lt_irrefl _)

theorem departed_of_moved_ne (hcredit : 0 ≤ credit) (hne : P.moved isCorrect credit weight ≠ weight) :
    P.Departed isCorrect weight (P.moved isCorrect credit weight) := by
  have hval : (P.moved isCorrect credit weight).1 ≠ weight.1 := fun heq => hne (Subtype.ext heq)
  refine ⟨isFloat_moved _ _ _, floor_le_moved _ _ _, fun hfloat => ?_⟩
  cases isCorrect with
  | true => exact lt_of_le_of_ne (le_moved_of_correct hcredit hfloat) (Ne.symm hval)
  | false => exact fun hfloor => lt_of_le_of_ne (moved_le_of_wrong hcredit hfloat hfloor) hval

theorem Departed.moved (hcredit : 0 ≤ credit) (hdeparted : P.Departed isCorrect start weight) :
    P.Departed isCorrect start (P.moved isCorrect credit weight) := by
  refine ⟨isFloat_moved _ _ _, floor_le_moved _ _ _, fun hfloat => ?_⟩
  have hpast := hdeparted.past hfloat
  cases isCorrect with
  | true => exact lt_of_lt_of_le hpast (le_moved_of_correct hcredit hdeparted.float)
  | false =>
    intro hfloor
    exact lt_of_le_of_lt (moved_le_of_wrong hcredit hdeparted.float hdeparted.floor) (hpast hfloor)

variable {isCorrect : Bool} {edges : List ContributingEdge}

theorem Departed.moveAt (hdeparted : P.Departed isCorrect start weight) (keys : List EdgeKey) :
    P.Departed isCorrect start (moveAt key (keys.map (P.creditMove isCorrect edges)) weight) := by
  induction keys generalizing weight with
  | nil => exact hdeparted
  | cons key' rest ih =>
    rw [moveAt_credit_cons]
    apply ih
    split
    · exact hdeparted.moved (creditOf_nonneg edges key'.text)
    · exact hdeparted

/-- **A weight is left where it is by a whole list exactly when one step leaves
it there**, however often its relationship is listed. -/
theorem moveAt_eq_iff {keys : List EdgeKey} (hkey : key ∈ keys) :
    moveAt key (keys.map (P.creditMove isCorrect edges)) weight = weight ↔
      P.moved isCorrect (creditOf edges key.text) weight = weight := by
  constructor
  · intro hsame
    by_contra hmoves
    induction keys with
    | nil => cases hkey
    | cons key' rest ih =>
      rw [moveAt_credit_cons] at hsame
      by_cases hfirst : key' = key
      · subst hfirst
        have hdeparted := departed_of_moved_ne (creditOf_nonneg edges key'.text) hmoves
        rw [if_pos rfl] at hsame
        exact (hdeparted.moveAt rest).ne hsame
      · rw [if_neg hfirst] at hsame
        exact ih ((mem_cons.mp hkey).resolve_left (fun heq => hfirst heq.symm)) hsame
  · intro hstays
    clear hkey
    induction keys with
    | nil => rfl
    | cons key' rest ih =>
      rw [moveAt_credit_cons]
      by_cases hfirst : key' = key
      · subst hfirst
        rw [if_pos rfl, hstays]
        exact ih
      · rw [if_neg hfirst]
        exact ih

variable {message : P.Scored} {s s' : Store} {text : String}

/-- A call of the database is answered, or the procedure ends with its
failure. -/
theorem ends_database {c : Call P.reg} (transaction : Store → c.Ret × Store)
    {f : c.Ret → Service P.reg Bool} {r : Except CredibilityError Bool}
    (hcall : ∀ w, handle w c s = commit w.databaseError (fun s => .ok (transaction s)) s)
    (hends : ((ask c).bind f).Ends handle s r s') :
    (f (transaction s).1).Ends handle (transaction s).2 r s' ∨
      ∃ text, r = .error (.database text) := by
  obtain ⟨⟨_ | text⟩, hrest⟩ := hends
  · rw [hcall] at hrest
    exact Or.inl hrest
  · rw [hcall] at hrest
    exact Or.inr ⟨text, hrest.1⟩

section

variable (hends : (P.process message).Ends handle s (.error (.invalidScoredMessage text)) s')

include hends

/-- A rejected message raises. -/
theorem applyOutcome_of_rejected :
    (P.applyOutcome message).Ends handle s (.error (.invalidScoredMessage text)) s' := by
  have hprocess : P.process message = (ask (.alreadyProcessed message.predictionId)).bind _ := rfl
  rcases ends_database
      (fun s => (s.processedPredictions.has message.predictionId, s)) (fun _ => rfl) hends with
    hchecked | ⟨_, hdatabase⟩
  · split at hchecked
    · cases hchecked.1
    · rcases ends_database
          (fun s => (s.predictionStatuses message.predictionId, s)) (fun _ => rfl) hchecked with
        hstatus | ⟨_, hdatabase⟩
      · split at hstatus
        · rcases ends_database (c := .commitUpdates message.predictionId [])
              (Store.commitUpdates message.predictionId []) (fun _ => rfl) hstatus with
            hclaimed | ⟨_, hdatabase⟩
          · cases hclaimed.1
          · cases hdatabase
        · exact hstatus
      · cases hdatabase
  · cases hdatabase

/-- **What a rejected call has done**: the moves of the message, and nothing to
the sources. -/
theorem rejected_store :
    (P.plan message).invalid ≠ none ∧
      s' = { s with graph := s.graph.moveAll (P.moves message) } := by
  have happly := applyOutcome_of_rejected hends
  rcases (P.crediting_applyOutcome message).ends happly with ⟨_, htransport⟩ | ⟨q, hq, hqends⟩
  · cases htransport
  · unfold Outcome at hq
    cases hinvalid : (P.plan message).invalid with
    | none =>
      rw [hinvalid] at hq
      rcases hq.ends hqends with ⟨_, hok⟩ | ⟨_, hdatabase⟩
      · cases hok
      · cases hdatabase
    | some e =>
      rw [hinvalid] at hq
      subst hq
      exact ⟨Option.some_ne_none e, hqends.2⟩

end

theorem moves_of_propagated (hinvalid : (P.plan message).invalid ≠ none)
    (hpropagated : message.propagationChain ≠ []) : P.moves message = [] := by
  have hchain : ¬ message.propagationChain.isEmpty := by
    rw [List.isEmpty_iff]
    exact hpropagated
  unfold moves
  unfold plan at hinvalid ⊢
  rw [if_neg hchain] at hinvalid ⊢
  split at hinvalid
  · rfl
  · exact absurd rfl hinvalid

theorem moves_of_direct (hdirect : message.propagationChain = []) :
    P.moves message = (P.directKeys message.contributingEdges).1.map
      (P.creditMove message.isCorrect message.contributingEdges) := by
  unfold moves plan
  rw [if_pos (by rw [hdirect]; rfl)]

/-- The message is propagated, or every relationship named before the first invalid id is
missing or keeps its weight in the step. -/
def NothingMoves (P : CredibilityPipeline) (message : P.Scored) (graph : Graph) : Prop :=
  message.propagationChain ≠ [] ∨ ∀ key ∈ (P.directKeys message.contributingEdges).1, ∀ weight,
      graph.weightOf key = some weight →
        P.moved message.isCorrect (creditOf message.contributingEdges key.text) weight = weight

end CredibilityPipeline

open CredibilityPipeline

/-- **A rejected message changes nothing exactly when nothing moves** before its
first invalid id.  The states of the sources are never touched. -/
theorem dead_letter_changes_nothing_iff (P : CredibilityPipeline)
    (message : PredictionScored P.reg) (ws : List Answer) (s s' : Store) (text : String)
    (hrejected : (P.process message).advance handle ws s =
      (.fail (.invalidScoredMessage text), s')) :
    ((∀ key, s'.graph.weightOf key = s.graph.weightOf key) ∧ s'.sources = s.sources) ↔
      P.NothingMoves message s.graph := by
  have hends : (P.process message).Ends handle s (.error (.invalidScoredMessage text)) s' :=
    ends_iff_advance.mpr ⟨ws, hrejected⟩
  obtain ⟨hinvalid, rfl⟩ := rejected_store hends
  simp only [weightOf_moveAll]
  by_cases hpropagated : message.propagationChain = []
  · rw [moves_of_direct hpropagated]
    constructor
    · intro hsame
      right
      intro key hkey weight hweight
      have hstays := hsame.1 key
      rw [hweight] at hstays
      exact (moveAt_eq_iff hkey).mp (Option.some.inj hstays)
    · intro hnothing
      have hsettled := hnothing.resolve_left fun hne => hne hpropagated
      refine ⟨?_, trivial⟩
      intro key
      cases hweight : s.graph.weightOf key with
      | none => rfl
      | some weight =>
        apply congrArg some
        by_cases hkey : key ∈ (P.directKeys message.contributingEdges).1
        · exact (moveAt_eq_iff hkey).mpr (hsettled key hkey weight hweight)
        · apply moveAt_of_not_mem
          rw [map_fst_creditMove]
          exact hkey
  · rw [moves_of_propagated hinvalid hpropagated]
    refine iff_of_true ⟨?_, trivial⟩ (Or.inl hpropagated)
    intro key
    cases s.graph.weightOf key <;> rfl

/-- The call has ended with `InvalidScoredMessageError`. -/
def isRejected {known : Registry} : Service known Bool → Bool
  | .fail (.invalidScoredMessage _) => true
  | _ => false

theorem exists_of_isRejected {known : Registry} {p : Service known Bool}
    (hrejected : isRejected p) : ∃ text, p = .fail (.invalidScoredMessage text) := by
  unfold isRejected at hrejected
  split at hrejected
  · exact ⟨_, rfl⟩
  · cases hrejected

/-- Sanctions move gold, and then the message is rejected. -/
def rejectedLate : PredictionScored metalsPipeline.reg :=
  scoredGold 1 [contributed "SANCTIONS->GOLD", contributed "SANCTIONS->COPPER"]

theorem late_rejection_moves_gold :
    let run := (metalsPipeline.process rejectedLate).advance handle (List.replicate 4 {})
      sanctionsStore
    (∃ text, run.1 = .fail (.invalidScoredMessage text)) ∧ run.2.graph.weightOf goldUnderSanctions ≠
        sanctionsStore.graph.weightOf goldUnderSanctions := by
  constructor
  · apply exists_of_isRejected
    decide +kernel
  · decide +kernel

/-- The invalid id first. -/
def rejectedEarly : PredictionScored metalsPipeline.reg :=
  scoredGold 1 [contributed "SANCTIONS->COPPER", contributed "SANCTIONS->GOLD"]

theorem early_rejection_changes_nothing :
    let run := (metalsPipeline.process rejectedEarly).advance handle (List.replicate 4 {})
      sanctionsStore
    (∃ text, run.1 = .fail (.invalidScoredMessage text)) ∧
      ((∀ key, run.2.graph.weightOf key = sanctionsStore.graph.weightOf key) ∧
        run.2.sources = sanctionsStore.sources) := by
  intro run
  have hrejected : ∃ text, run.1 = .fail (.invalidScoredMessage text) := by
    apply exists_of_isRejected
    decide +kernel
  refine ⟨hrejected, ?_⟩
  obtain ⟨text, htext⟩ := hrejected
  have hiff := dead_letter_changes_nothing_iff metalsPipeline rejectedEarly
    (replicate 4 {}) sanctionsStore run.2 text (Prod.ext htext rfl)
  apply hiff.mpr
  right
  have hnone : (metalsPipeline.directKeys rejectedEarly.contributingEdges).1 = [] := by
    decide +kernel
  rw [hnone]
  intro key hkey
  cases hkey

end Credibility
