import FeedAnalyzer.WithdrawalOrder

/-!
# Crashes between transactions

A creation and its `PriceRequested` are one transaction, and so are a score and its
`PredictionScored`; this tie (`OneOfEach`) is kept wherever a delivery stops.  The
withdrawal is a transaction of its own, which a redelivery makes up for
(`crashes_leave_one_of_each`).
-/

namespace Verification

open Feed Transact Proc List Store Table VerificationPipeline

variable {reg : Registry}

/-- The row carries the `PriceRequested` of a prediction. -/
def OutboxRow.isRequestOf (predictionId : Uuid) (row : OutboxRow reg) : Bool :=
  match row.payload with
  | .priceRequested message => message.predictionId = predictionId
  | .predictionScored _ => false

variable {s' : Store reg}

namespace Store

variable {s : Store reg}

/-- The outbox rows that carry a prediction's `PriceRequested`. -/
def requestRows (s : Store reg) (predictionId : Uuid) : List (OutboxRow reg) :=
  s.outboxEvents.rows.filter (OutboxRow.isRequestOf predictionId)

def evaluationRows (s : Store reg) (predictionId : Uuid) : List (EvaluationRecord String) :=
  s.evaluations.rows.filter fun row => row.predictionId = predictionId

/-- The tables once the pending evaluation is withdrawn. -/
def afterWithdrawal (predictionId : Uuid) (s : Store reg) : Store reg :=
  s.setStatus (fun row => row.predictionId = predictionId ∧ row.status = .pending) .withdrawn

theorem withdrawEvaluation_state {predictionId : Uuid} {withdrawn : Bool}
    (hok : withdrawEvaluation predictionId s = .ok (withdrawn, s')) :
    s' = s.afterWithdrawal predictionId := by
  simp only [withdrawEvaluation, Except.ok.injEq, Prod.mk.injEq] at hok
  exact hok.2.symm

theorem setStatus_of_forall_not {p : EvaluationRecord String → Bool}
    (hnone : ∀ row ∈ s.evaluations, p row = false) (status : EvaluationStatus) :
    s.setStatus p status = s := by
  unfold setStatus
  simp only [updateWhere_of_forall_not s.evaluations hnone]

theorem afterWithdrawal_idem (predictionId : Uuid) (s : Store reg) :
    (s.afterWithdrawal predictionId).afterWithdrawal predictionId =
      s.afterWithdrawal predictionId := by
  apply setStatus_of_forall_not
  intro row hrow
  simp only [afterWithdrawal, setStatus, mem_updateWhere] at hrow
  obtain ⟨old, _, rfl⟩ := hrow
  by_cases hold : old.predictionId = predictionId ∧ old.status = .pending
  · simp [hold]
  · simp [hold]

@[simp] theorem has_afterWithdrawal (predictionId : Uuid) (s : Store reg) (k : Uuid) :
    (s.afterWithdrawal predictionId).evaluations.has k = s.evaluations.has k := by
  simp [afterWithdrawal, setStatus]

end Store

/-- A `PriceRequested` goes with its evaluation, a `PredictionScored` with its score, and
there is at most one of each. -/
structure OneOfEach (s : Store reg) : Prop where
  request_le : ∀ id, (s.requestRows id).length ≤ (s.evaluations.has id).toNat
  score_le : ∀ id, (s.scoreRows id).length ≤ (s.scores.has id).toNat

/-- The price is requested for another prediction than it evaluates. -/
def Call.RequestsOther : Call reg → Prop
  | .createEvaluationWithOutbox evaluation request =>
    request.predictionId ≠ evaluation.predictionId
  | _ => False

section Transactions

variable {s s' : Store reg}

section

variable (hs : OneOfEach s)

include hs

theorem OneOfEach.setStatus (p : EvaluationRecord String → Bool) (status : EvaluationStatus) :
    OneOfEach (s.setStatus p status) where
  request_le id := by
    simpa [Store.setStatus, Store.requestRows] using hs.request_le id
  score_le id := hs.score_le id

omit hs in
theorem announce_le {K R E : Type} [DecidableEq K] {key : R → K} {eventId : E → Uuid}
    {table : Table key} {outbox : Table eventId} {isOf : K → E → Bool} {row : R} {event : E}
    (hle : ∀ k, (outbox.rows.filter (isOf k)).length ≤ (table.has k).toNat)
    (hnew : table.has (key row) = false) (hfresh : outbox.has (eventId event) = false)
    (hevent : ∀ k, isOf k event → key row = k) (k : K) :
    ((outbox.insertNew event).rows.filter (isOf k)).length ≤
      ((table.insertNew row).has k).toNat := by
  have hold := hle k
  rw [rows_insertNew_of_fresh hfresh, filter_append, length_append, has_insertNew]
  by_cases hk : key row = k
  · rw [← hk, hnew] at hold
    have hone : ([event].filter (isOf k)).length ≤ 1 := length_filter_le _ _
    rw [← hk] at hone ⊢
    simp only [Bool.toNat_false, Nat.le_zero_eq] at hold
    simp only [decide_true, Bool.or_true, Bool.toNat_true]
    omega
  · have hnone : isOf k event = false := by
      apply Bool.eq_false_iff.mpr
      intro hof
      exact hk (hevent k hof)
    simpa [hnone, hk] using hold

theorem OneOfEach.create {evaluation : Evaluation reg} {request : PriceRequested reg}
    {created : Bool} (hsame : request.predictionId = evaluation.predictionId)
    (hok : createEvaluationWithOutbox evaluation request s = .ok (created, s')) : OneOfEach s' := by
  obtain ⟨hevaluations, rfl | ⟨hnew, hfresh, hscores, houtbox⟩⟩ := create_cases hok
  · exact hs
  constructor
  · rw [hevaluations]
    unfold requestRows
    rw [houtbox]
    exact announce_le hs.request_le hnew hfresh fun k hof => hsame.symm.trans (of_decide_eq_true hof)
  · intro id
    rw [(createEvaluationWithOutbox_eq_ok hok id).2, hscores]
    exact hs.score_le id

/-- A score keeps one row of each. -/
theorem OneOfEach.score {scored : PredictionScored reg} {produced : Bool}
    (hok : storeScoreWithOutbox scored s = .ok (produced, s')) : OneOfEach s' := by
  have hset := hs.setStatus (fun row => row.predictionId = scored.predictionId) .scored
  unfold storeScoreWithOutbox at hok
  split at hok
  · cases hok
    exact hset
  · next hnew =>
    split at hok
    · cases hok
    · next hfresh =>
      cases hok
      constructor
      · intro id
        have hrows := filter_insertNew (p := OutboxRow.isRequestOf id) s.outboxEvents
          (r := ⟨scored.messageId, scored.predictionId, .predictionScored scored⟩) rfl
        have hold := hset.request_le id
        unfold Store.requestRows at hold ⊢
        rw [hrows]
        exact hold
      · exact announce_le hset.score_le (Bool.eq_false_iff.mpr hnew)
          (Bool.eq_false_iff.mpr hfresh) fun k hof => of_decide_eq_true hof

/-- **Every transaction keeps the tie**, committed or rolled back. -/
theorem OneOfEach.handle (w : Answer) {c : Call reg} (hc : ¬ c.RequestsOther) :
    OneOfEach (handle w c s).2 := by
  cases c with
  | newEnvelope => exact hs
  | createEvaluationWithOutbox evaluation request =>
    exact commit_rule hs fun created s' hok => hs.create (not_not.mp hc) hok
  | storePriceObservation message =>
    exact commit_done hs rfl (⟨hs.request_le, hs.score_le⟩)
  | loadEvaluationByRequestId requestId =>
    refine commit_rule hs fun loaded s' hok => ?_
    rw [(loadEvaluationByRequestId_eq_ok hok).1]
    exact hs
  | storeScoreWithOutbox scored => exact commit_rule hs fun produced s' hok => hs.score hok
  | withdrawEvaluation predictionId =>
    refine commit_rule hs fun withdrawn s' hok => ?_
    rw [withdrawEvaluation_state hok]
    exact hs.setStatus _ _

end

end Transactions

section Deliveries

variable {P : VerificationPipeline}
  {s : Store reg} {message : PredictionMade reg} {superseded : Uuid}

/-- A delivery requests only its own price. -/
theorem process_avoids_requestsOther (d : Delivery reg) :
    (P.process d).Avoids Call.RequestsOther := by
  cases d with
  | prediction message =>
    unfold process processPrediction
    dsimp only
    split
    · trivial
    · next evaluation hnew =>
      have hid := (newEvaluation_eq_ok hnew).1
      refine avoids_perform id fun envelope => ?_
      refine avoids_perform ?_ fun created => ?_
      · intro hother
        exact hother hid.symm
      · split
        · trivial
        · exact avoids_perform id fun withdrawn => trivial
  | price message =>
    refine avoids_perform id fun loaded => ?_
    unfold processLoaded
    split
    · trivial
    · split
      · trivial
      · unfold scoreEvaluation
        split
        · trivial
        · refine avoids_perform id fun stored => ?_
          refine avoids_perform id fun envelope => ?_
          exact avoids_perform id fun produced => trivial

/-- The tie holds after every history of deliveries, crashes included. -/
theorem oneOfEach_run (jobs : List (Delivery reg × List Answer)) (hs : OneOfEach s) :
    OneOfEach (runJobs handle P.process jobs s) := by
  induction jobs generalizing s with
  | nil => exact hs
  | cons job rest ih =>
    have hjob : OneOfEach ((P.process job.1).advance handle job.2 s).2 :=
      (process_avoids_requestsOther job.1).advance_preserves
        (fun w c s hc hs => hs.handle w hc) job.2 hs
    exact ih hjob

section

variable (hsup : message.supersedesPredictionId = some superseded)

include hsup

section

variable (hhas : s.evaluations.has message.predictionId = true)

include hhas

/-- A delivery that finds its evaluation withdraws the superseded one, or stops before and
changes nothing. -/
theorem redelivery_meets :
    (P.processPrediction message).Meets handle (fun _ _ _ => True)
      (fun s' => s' = s) (fun r s' => r = .ok () ∧ s' = s.afterWithdrawal superseded ∨
        (∃ e, r = .error e) ∧ s' = s) s := by
  unfold processPrediction
  split
  · exact Or.inr ⟨⟨_, rfl⟩, rfl⟩
  · next evaluation hnew =>
    have hid := (newEvaluation_eq_ok hnew).1
    have hcreate : ∀ w request, (handle w (.createEvaluationWithOutbox evaluation request) s).2 =
        s := by
      intro w request
      refine commit_rule (Q := fun s' => s' = s) rfl fun created s' hok => ?_
      rw [createEvaluationWithOutbox, if_pos (hid ▸ hhas)] at hok
      cases hok
      rfl
    refine meets_perform rfl (fun w envelope _ _ => ?_) fun w e _ _ => Or.inr ⟨⟨e, rfl⟩, rfl⟩
    change Meets handle _ _ _ _ s
    refine meets_perform rfl (fun w₁ created _ _ => ?_)
      fun w₁ e _ herror => Or.inr ⟨⟨e, rfl⟩, (commit_eq_error herror).1⟩
    rw [hcreate, hsup]
    refine meets_perform rfl (fun w₂ withdrawn _ hwithdraw => ?_)
      fun w₂ e _ herror => Or.inr ⟨⟨e, rfl⟩, (commit_eq_error herror).1⟩
    exact Or.inl ⟨rfl, withdrawEvaluation_state (commit_eq_ok hwithdraw).2⟩

/-- Redeliveries leave the superseded evaluation as it is or withdrawn; one that returns
leaves it withdrawn. -/
theorem redeliveries_state (attempts : List (List Answer))
    (hs' : s' = s ∨ s' = s.afterWithdrawal superseded) :
    runJobs handle P.process (attempts.map (fun ws => (.prediction message, ws))) s' = s ∨
      runJobs handle P.process (attempts.map (fun ws => (.prediction message, ws))) s' =
        s.afterWithdrawal superseded := by
  induction attempts generalizing s' with
  | nil => exact hs'
  | cons ws attempts ih =>
    apply ih
    have hhas' : s'.evaluations.has message.predictionId := by
      rcases hs' with rfl | rfl
      · exact hhas
      · simpa using hhas
    have hcut : ((P.processPrediction message).advance handle ws s').2 = s' ∨
        ((P.processPrediction message).advance handle ws s').2 = s'.afterWithdrawal superseded := by
      refine Meets.invariant (C := fun x => x = s' ∨ x = s'.afterWithdrawal superseded)
        (((redelivery_meets hsup hhas').mono_cut fun x hx => Or.inl hx).mono ?_)
        (admitted_of_forall (fun _ _ _ => trivial) _ ws s')
      intro r x hx
      rcases hx with ⟨_, hx⟩ | ⟨_, hx⟩
      · exact Or.inr hx
      · exact Or.inl hx
    have hidem := afterWithdrawal_idem superseded s
    rcases hs' with rfl | rfl
    · exact hcut
    · rw [hidem] at hcut
      exact Or.inr (hcut.elim id id)

end

/-- An uninterrupted run creates the evaluation and then withdraws the superseded one. -/
theorem uninterrupted_state {envelope create withdraw : Answer}
    (hreturns : ((P.processPrediction message).advance handle [envelope, create, withdraw]
      s).1.returned = some ()) :
    ((P.processPrediction message).advance handle [envelope, create] s).2.evaluations.has
        message.predictionId ∧
      ((P.processPrediction message).advance handle [envelope, create, withdraw] s).2 =
        ((P.processPrediction message).advance handle [envelope, create]
          s).2.afterWithdrawal superseded := by
  unfold processPrediction at *
  cases hnew : P.newEvaluation message with
  | error e =>
    rw [hnew] at hreturns
    cases hreturns
  | ok evaluation =>
    have hid := (newEvaluation_eq_ok hnew).1
    simp only [hnew, hsup, bind_eq] at hreturns ⊢
    obtain ⟨_, _, hfirst⟩ := returned_perform hreturns
    simp only [hfirst] at hreturns ⊢
    obtain ⟨created, hcreate, hsecond⟩ := returned_perform hreturns
    simp only [hsecond] at hreturns ⊢
    obtain ⟨withdrawn, hwithdraw, hthird⟩ := returned_perform hreturns
    simp only [hthird, advance_nil]
    obtain ⟨hevaluations, _⟩ := create_cases (commit_eq_ok hcreate).2
    have hhas := congrArg (·.has evaluation.predictionId) hevaluations
    exact ⟨hid ▸ hhas.trans (has_insertNew_self _ _), withdrawEvaluation_state (commit_eq_ok hwithdraw).2⟩

end

end Deliveries

theorem Store.evaluationRows_le (s : Store reg) (predictionId : Uuid) :
    (s.evaluationRows predictionId).length ≤ 1 := by
  have hcount := nodup_iff_count_le_one.mp s.evaluations.nodup predictionId
  rw [count_eq_countP, countP_map, countP_eq_length_filter] at hcount
  exact hcount

/-- **Crashes between transactions leave one of each.**  After every history of deliveries,
each cut off anywhere, a prediction has at most one evaluation, one `PriceRequested` and one
`PredictionScored`; and one that crashed before its withdrawal, delivered again until a
delivery returns, leaves the tables of an uninterrupted run. -/
theorem crashes_leave_one_of_each (P : VerificationPipeline)
    (jobs : List (Delivery reg × List Answer)) :
    (∀ predictionId, ((runJobs handle P.process jobs ∅).evaluationRows predictionId).length ≤ 1 ∧
      ((runJobs handle P.process jobs ∅).requestRows predictionId).length ≤ 1 ∧
      ((runJobs handle P.process jobs ∅).scoreRows predictionId).length ≤ 1) ∧
    ∀ (message : PredictionMade reg) (superseded : Uuid) (envelope create withdraw : Answer)
      (attempts : List (List Answer)) (last : List Answer),
      let start := runJobs handle P.process jobs ∅
      let crashed := runJobs handle P.process ((.prediction message, [envelope, create]) ::
          attempts.map (fun ws => (.prediction message, ws))) start
      message.supersedesPredictionId = some superseded →
      ((P.processPrediction message).advance handle [envelope, create, withdraw]
        start).1.returned = some () →
      ((P.processPrediction message).advance handle last crashed).1.returned = some () →
      ((P.processPrediction message).advance handle last crashed).2 =
        ((P.processPrediction message).advance handle [envelope, create, withdraw] start).2 := by
  constructor
  · intro predictionId
    have hempty : OneOfEach (∅ : Store reg) := ⟨fun _ => Nat.zero_le _, fun _ => Nat.zero_le _⟩
    have hrun := oneOfEach_run (P := P) jobs hempty
    exact ⟨evaluationRows_le _ _, (hrun.request_le predictionId).trans (Bool.toNat_le _),
      (hrun.score_le predictionId).trans (Bool.toNat_le _)⟩
  · intro message superseded envelope create withdraw attempts last start crashed hsup hreturns
      hlast
    obtain ⟨hhas, huninterrupted⟩ := uninterrupted_state hsup hreturns
    have hcrashed : crashed = ((P.processPrediction message).advance handle [envelope, create]
          start).2 ∨
        crashed = ((P.processPrediction message).advance handle [envelope, create]
          start).2.afterWithdrawal superseded :=
      redeliveries_state hsup hhas attempts (Or.inl rfl)
    have hhas' : crashed.evaluations.has message.predictionId := by
      rcases hcrashed with heq | heq
      · rw [heq]
        exact hhas
      · rw [heq, has_afterWithdrawal]
        exact hhas
    have hend := (redelivery_meets hsup hhas').of_returned
      (admitted_of_forall (fun _ _ _ => trivial) _ last crashed) hlast
    rw [huninterrupted]
    rcases hend with ⟨_, hend⟩ | ⟨⟨e, he⟩, _⟩
    · rw [hend]
      rcases hcrashed with heq | heq
      · rw [heq]
      · rw [heq]
        exact afterWithdrawal_idem _ _
    · cases he

/-- Gold's prediction 22 supersedes 1, crashes before the withdrawal, fails once at the
database and is delivered again: 1 ends withdrawn, and each has one request. -/
theorem redelivered_gold_withdraws :
    let start := runJobs handle goldPipeline.process
      [(Delivery.prediction (goldPrediction 1 none), answers 101)] ∅
    let crashed := runJobs handle goldPipeline.process
      [(Delivery.prediction (goldPrediction 22 (some 1)), (answers 102).take 2),
        (.prediction (goldPrediction 22 (some 1)), [{}, { fault := some "timeout" }])] start
    let redelivered := ((goldPipeline.processPrediction (goldPrediction 22 (some 1))).advance
      handle (answers 103) crashed).2
    crashed.statusOf 1 = some .pending ∧ redelivered.statusOf 1 = some .withdrawn ∧
      (redelivered.requestRows 22).length = 1 ∧
      redelivered = ((goldPipeline.processPrediction (goldPrediction 22 (some 1))).advance
        handle ((answers 102).take 3) start).2 := by
  intro start crashed redelivered
  refine ⟨by decide +kernel, by decide +kernel, by decide +kernel, ?_⟩
  exact (crashes_leave_one_of_each goldPipeline
    [(.prediction (goldPrediction 1 none), answers 101)]).2 (goldPrediction 22 (some 1)) 1
    { envelope := ⟨102, 0⟩ } { envelope := ⟨102, 0⟩ } { envelope := ⟨102, 0⟩ }
    [[{}, { fault := some "timeout" }]] (answers 103) rfl (by decide +kernel) (by decide +kernel)

end Verification
