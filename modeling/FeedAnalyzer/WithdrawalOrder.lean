import FeedAnalyzer.JobHistory
import FeedAnalyzer.VerificationPipeline

/-!
# Superseded predictions, message by message

What a delivery can do to `A`'s evaluation is one of three signals (`Signal`), and
`step_refines` shows that every settled delivery acts as its signals do.  Nothing remembers a
withdrawal that comes before the evaluation it withdraws, so `A` ends withdrawn and unscored
exactly when some delivery of `B` follows one of `A` and precedes every price that `A`
accepts (`superseded_withdrawn_iff`).
-/

namespace Verification

open Feed Transact Proc List Store Table Option VerificationPipeline

variable {reg : Registry}
  {s s' : Store reg} {A : PredictionMade reg} {status : EvaluationStatus}
  {message : PriceObserved reg}

/-- What a delivery can do to the evaluation of one prediction. -/
inductive Signal where
  | created | superseded | priced
  deriving DecidableEq

/-- The purpose of the service; `none` is an evaluation that does not exist yet. -/
def Signal.apply : Signal → Option EvaluationStatus → Option EvaluationStatus
  | .created, none => some .pending
  | .superseded, some .pending => some .withdrawn
  | .priced, some .pending => some .scored
  | .priced, some .awaitingPrice => some .scored
  | _, status => status

def VerificationPipeline.requestIdOf (P : VerificationPipeline) (A : PredictionMade reg) : Uuid :=
  P.deterministicRequestId A.predictionId reg.registryVersion

/-- The observation passes the prediction's own evaluation. -/
def VerificationPipeline.accepts (P : VerificationPipeline) (A : PredictionMade reg)
    (message : PriceObserved reg) : Bool :=
  match P.newEvaluation A with
  | .error _ => false
  | .ok evaluation => (validateObservation message evaluation).isOk

/-- The signals of a delivery for the evaluation of `A`. -/
def VerificationPipeline.signals (P : VerificationPipeline) (A : PredictionMade reg) :
    Delivery reg → List Signal
  | .prediction message =>
    (if message.predictionId = A.predictionId then [.created] else []) ++
      (if message.supersedesPredictionId = some A.predictionId then [.superseded] else [])
  | .price message =>
    if message.requestId = P.requestIdOf A ∧ P.accepts A message = true then [.priced] else []

def afterSignals (signals : List Signal) (status : Option EvaluationStatus) :
    Option EvaluationStatus :=
  signals.foldl (fun status signal => signal.apply status) status

/-- The status of `A`'s evaluation after some deliveries. -/
def VerificationPipeline.statusAfter (P : VerificationPipeline) (A : PredictionMade reg)
    (ds : List (Delivery reg)) (status : Option EvaluationStatus) : Option EvaluationStatus :=
  ds.foldl (fun status d => afterSignals (P.signals A d) status) status

/-- Every delivery of the history is handled to its end and settles. -/
def VerificationPipeline.settledRun (P : VerificationPipeline) :
    List (Delivery reg × List Answer) → Store reg → Bool
  | [], _ => true
  | (d, ws) :: jobs, s =>
    match (P.process d).advance handle ws s with
    | (.ret a, s') => settles (.ok a) && settledRun P jobs s'
    | (.fail e, s') => settles (.error e) && settledRun P jobs s'
    | (.call _ _, _) => false

variable {P : VerificationPipeline} {d : Delivery reg} {e : Evaluation reg}

theorem VerificationPipeline.settledRun_cons {ws : List Answer}
    {jobs : List (Delivery reg × List Answer)} (hrun : P.settledRun ((d, ws) :: jobs) s) :
    ∃ s' r, (P.process d).Ends handle s r s' ∧ settles r ∧
      ((P.process d).advance handle ws s).2 = s' ∧ P.settledRun jobs s' := by
  unfold settledRun at hrun
  split at hrun
  · next a s' hadvance =>
    obtain ⟨hsettles, hrest⟩ := Bool.and_eq_true_iff.mp hrun
    exact ⟨s', .ok a, ends_iff_advance.mpr ⟨ws, hadvance⟩, hsettles, by rw [hadvance], hrest⟩
  · next e s' hadvance =>
    obtain ⟨hsettles, hrest⟩ := Bool.and_eq_true_iff.mp hrun
    exact ⟨s', .error e, ends_iff_advance.mpr ⟨ws, hadvance⟩, hsettles, by rw [hadvance], hrest⟩
  · cases hrun

/-- The row of `A` is the one its message describes, and a score in the outbox goes with
`SCORED`. -/
structure Tracks (P : VerificationPipeline) (A : PredictionMade reg) (s : Store reg) : Prop where
  row : ∀ row, s.evaluations.find? A.predictionId = some row →
    ∃ e, P.newEvaluation A = .ok e ∧ row = e.toRow.withStatus row.status
  score : s.scoreRows A.predictionId = [] ∨ s.statusOf A.predictionId = some .scored

theorem statusOf_eq_none_iff {predictionId : Uuid} :
    s.statusOf predictionId = none ↔ s.evaluations.find? predictionId = none := by
  simp [statusOf]

theorem accepts_eq_true_iff (hnew : P.newEvaluation A = .ok e) (message : PriceObserved reg)
    (status : EvaluationStatus) :
    P.accepts A message ↔ validateObservation message (e.withStatus status) = .ok () := by
  have hsame : validateObservation message (e.withStatus status) =
      validateObservation message e := rfl
  rw [accepts, hnew, hsame]
  dsimp only
  cases validateObservation message e <;> simp [Except.isOk, Except.toBool]

/-- A price observation that is not for `A`, or comes before `A`, has no
signal that moves `A`. -/
theorem signals_price_idle {status : Option EvaluationStatus}
    (hother : status = none ∨ message.requestId ≠ P.requestIdOf A) :
    afterSignals (P.signals A (.price message)) status = status := by
  rcases hother with rfl | hne
  · by_cases hpriced : message.requestId = P.requestIdOf A ∧ P.accepts A message <;>
      simp [signals, hpriced, afterSignals, Signal.apply]
  · simp [signals, hne, afterSignals]

section

variable (htracks : Tracks P A s)

include htracks

/-- A method that keeps every row of `evaluations` up to its status keeps the
row of `A`. -/
theorem Tracks.row_of_setStatus {p : EvaluationRecord String → Bool} :
    ∀ row, (s.setStatus p status).evaluations.find? A.predictionId = some row →
      ∃ e, P.newEvaluation A = .ok e ∧ row = e.toRow.withStatus row.status := by
  intro row hrow
  rw [setStatus, find?_updateWhere] at hrow
  obtain ⟨row₀, hrow₀, hset⟩ := map_eq_some_iff.mp hrow
  obtain ⟨e, he, heq⟩ := htracks.row row₀ hrow₀
  refine ⟨e, he, ?_⟩
  by_cases hp : p row₀
  · rw [← hset, if_pos hp, heq]
    rfl
  · rw [← hset, if_neg hp]
    exact heq

theorem create_refines {m : PredictionMade reg} {evaluation : Evaluation reg}
    {request : PriceRequested reg} {created : Bool}
    (hsame : m.predictionId = A.predictionId → m = A) (hnew : P.newEvaluation m = .ok evaluation)
    (hok : createEvaluationWithOutbox evaluation request s = .ok (created, s')) :
    Tracks P A s' ∧ s'.statusOf A.predictionId =
      afterSignals (if m.predictionId = A.predictionId then [.created] else [])
        (s.statusOf A.predictionId) := by
  obtain ⟨hstatus, hscore⟩ := createEvaluationWithOutbox_eq_ok hok A.predictionId
  have hid : evaluation.predictionId = m.predictionId :=
    (newEvaluation_eq_ok hnew).1
  have hstatus' : s'.statusOf A.predictionId =
      afterSignals (if m.predictionId = A.predictionId then [.created] else [])
        (s.statusOf A.predictionId) := by
    rw [hstatus, hid]
    by_cases hm : m.predictionId = A.predictionId
    · cases s.statusOf A.predictionId with
      | none => simp [hm, afterSignals, Signal.apply]
      | some status => cases status <;> simp [hm, afterSignals, Signal.apply]
    · simp [hm, afterSignals]
  refine ⟨⟨?_, ?_⟩, hstatus'⟩
  · intro row hrow
    rcases find?_createEvaluationWithOutbox hok A.predictionId row hrow with
      hold | ⟨hkey, rfl⟩
    · exact htracks.row row hold
    · have hmA := hsame (hid.symm.trans hkey)
      exact ⟨evaluation, hmA ▸ hnew, rfl⟩
  · rcases htracks.score with hnone | hscored
    · exact Or.inl (hscore.trans hnone)
    · right
      rw [hstatus, hscored]
      rfl

theorem withdraw_refines {target : Uuid} {withdrawn : Bool}
    (hok : withdrawEvaluation target s = .ok (withdrawn, s')) :
    Tracks P A s' ∧ s'.statusOf A.predictionId =
      afterSignals (if some target = some A.predictionId then [.superseded] else [])
        (s.statusOf A.predictionId) := by
  obtain ⟨hstatus, hscore⟩ := withdrawEvaluation_eq_ok hok A.predictionId
  have hstatus' : s'.statusOf A.predictionId =
      afterSignals (if some target = some A.predictionId then [.superseded] else [])
        (s.statusOf A.predictionId) := by
    rw [hstatus]
    by_cases htarget : target = A.predictionId
    · cases hs : s.statusOf A.predictionId with
      | none => simp [htarget, afterSignals, Signal.apply]
      | some status => cases status <;> simp [htarget, afterSignals, Signal.apply]
    · simp [htarget, Ne.symm htarget, afterSignals]
  refine ⟨⟨?_, ?_⟩, hstatus'⟩
  · simp only [withdrawEvaluation, Except.ok.injEq, Prod.mk.injEq] at hok
    rw [← hok.2]
    exact htracks.row_of_setStatus
  · rcases htracks.score with hnone | hscored
    · exact Or.inl (hscore.trans hnone)
    · right
      rw [hstatus, hscored]
      simp

/-- The request id of `A` loads `A`'s own evaluation, in its present status. -/
theorem Tracks.load_eq (hstatus : s.statusOf A.predictionId = some status) :
    ∃ e, P.newEvaluation A = .ok e ∧ loadEvaluationByRequestId (P.requestIdOf A) s =
        .ok (some (e.withStatus status), s) := by
  obtain ⟨row, hrow, hrowStatus⟩ := map_eq_some_iff.mp hstatus
  obtain ⟨e, hnew, hrowEq⟩ := htracks.row row hrow
  have hmem := (find?_eq_some_iff.mp hrow).1
  have hrequest : row.requestId = P.requestIdOf A := by
    rw [hrowEq]
    exact (newEvaluation_eq_ok hnew).2
  have hfind : s.evaluations.rows.find? (fun r => r.requestId = P.requestIdOf A) = some row := by
    cases hres : s.evaluations.rows.find? (fun r => r.requestId = P.requestIdOf A) with
    | none =>
      have := find?_eq_none.mp hres row hmem
      simp [hrequest] at this
    | some row' =>
      have hrequest' : row'.requestId = P.requestIdOf A := by
        simpa using find?_some hres
      rw [inj_on_of_nodup_map s.requestId_nodup (mem_of_find?_eq_some hres) hmem
        (hrequest'.trans hrequest.symm)]
  refine ⟨e, hnew, ?_⟩
  rw [hrowStatus] at hrowEq
  rw [loadEvaluationByRequestId, hfind, hrowEq]
  simp only [fromRow_toRow]

/-- Another request id, or `A`'s before `A` has a row, loads another
evaluation. -/
theorem Tracks.loaded_ne {requestId : Uuid}
    (hother : s.statusOf A.predictionId = none ∨ requestId ≠ P.requestIdOf A)
    (hok : loadEvaluationByRequestId requestId s = .ok (some e, s')) :
    A.predictionId ≠ e.predictionId := by
  intro hA
  obtain ⟨row, hrow, hrequest, hread⟩ := (loadEvaluationByRequestId_eq_ok hok).2 e rfl
  have hfind : s.evaluations.find? A.predictionId = some row :=
    find?_eq_some_iff.mpr ⟨hrow, (fromRow_eq_ok hread).1.symm.trans hA.symm⟩
  rcases hother with hnone | hne
  · simp [statusOf, hfind] at hnone
  · obtain ⟨eA, hnew, hrowEq⟩ := htracks.row row hfind
    apply hne
    rw [← hrequest, hrowEq]
    exact (newEvaluation_eq_ok hnew).2

/-- A committed score of an evaluation that exists, of `A` or another. -/
theorem score_refines {scored : PredictionScored reg} {produced : Bool}
    (hexists : A.predictionId = scored.predictionId → s.statusOf A.predictionId ≠ none)
    (hok : storeScoreWithOutbox scored s = .ok (produced, s')) :
    Tracks P A s' ∧ s'.statusOf A.predictionId =
      if A.predictionId = scored.predictionId then some .scored
      else s.statusOf A.predictionId := by
  obtain ⟨hstatus, hrows⟩ := storeScoreWithOutbox_eq_ok hok A.predictionId
  have hstatus' : s'.statusOf A.predictionId =
      if A.predictionId = scored.predictionId then some .scored
      else s.statusOf A.predictionId := by
    rw [hstatus]
    by_cases hA : A.predictionId = scored.predictionId
    · obtain ⟨status, hs⟩ := ne_none_iff_exists'.mp (hexists hA)
      simp only [if_pos hA, hs, map_some]
    · simp only [if_neg hA]
  refine ⟨⟨?_, ?_⟩, hstatus'⟩
  · rw [evaluations_of_score hok]
    exact htracks.row_of_setStatus
  · by_cases hA : A.predictionId = scored.predictionId
    · exact Or.inr (hstatus'.trans (if_pos hA))
    · rcases htracks.score with hnone | hscored
      · exact Or.inl ((hrows hA).trans hnone)
      · exact Or.inr ((hstatus'.trans (if_neg hA)).trans hscored)

theorem storeObservation_refines {stored : Bool}
    (hok : storePriceObservation message s = .ok (stored, s')) :
    Tracks P A s' ∧ s'.statusOf A.predictionId = s.statusOf A.predictionId := by
  simp only [storePriceObservation, Except.ok.injEq, Prod.mk.injEq] at hok
  rw [← hok.2]
  exact ⟨⟨htracks.row, htracks.score⟩, rfl⟩

variable {r : Except VerificationError Unit}

theorem price_refines (hends : (P.processPrice message).Ends handle s r s') (hsettles : settles r) :
    Tracks P A s' ∧ s'.statusOf A.predictionId =
      afterSignals (P.signals A (.price message)) (s.statusOf A.predictionId) := by
  obtain ⟨loaded, hload, hcases⟩ := processPrice_settled hends hsettles
  by_cases hother : s.statusOf A.predictionId = none ∨ message.requestId ≠ P.requestIdOf A
  · rw [signals_price_idle hother]
    rcases hcases with ⟨rfl, _⟩ | ⟨e, envelope, produced, stored, s₁, rfl, _, _, hstore, hscore⟩
    · exact ⟨htracks, rfl⟩
    · obtain ⟨htracks₁, hstatus₁⟩ := storeObservation_refines htracks hstore
      have hne : A.predictionId ≠ (P.newPredictionScored message e envelope).predictionId :=
        htracks.loaded_ne hother hload
      obtain ⟨htracks', hstatus'⟩ := score_refines htracks₁ (fun hA => absurd hA hne) hscore
      rw [if_neg hne, hstatus₁] at hstatus'
      exact ⟨htracks', hstatus'⟩
  · -- the observation is for `A`, whose evaluation exists
    obtain ⟨hexists, hrequest⟩ := not_or.mp hother
    have hrequest := Decidable.not_not.mp hrequest
    obtain ⟨status, hstatus⟩ := ne_none_iff_exists'.mp hexists
    obtain ⟨e, hnew, hloadA⟩ := htracks.load_eq hstatus
    rw [hrequest, hloadA, Except.ok.injEq, Prod.mk.injEq] at hload
    obtain ⟨rfl, _⟩ := hload
    have haccepts := accepts_eq_true_iff hnew message status
    rcases hcases with ⟨rfl, hidle⟩ |
      ⟨e', envelope, produced, stored, s₁, heq, hopen, hvalid, hstore, hscore⟩
    · refine ⟨htracks, ?_⟩
      by_cases hvalid : P.accepts A message
      · rcases hidle _ rfl with hwithdrawn | hrejected
        · have hw : status = .withdrawn := hwithdrawn
          simp [signals, hrequest, hvalid, hstatus, hw, afterSignals, Signal.apply]
        · exact absurd (haccepts.mp hvalid) hrejected
      · simp [signals, hvalid, afterSignals]
    · obtain ⟨htracks₁, hstatus₁⟩ := storeObservation_refines htracks hstore
      have heq' : e' = e.withStatus status := (some.inj heq).symm
      subst heq'
      have hA : A.predictionId =
          (P.newPredictionScored message (e.withStatus status) envelope).predictionId :=
        (newEvaluation_eq_ok hnew).1.symm
      obtain ⟨htracks', hstatus'⟩ := score_refines htracks₁
        (fun _ => by rw [hstatus₁]; exact hexists) hscore
      refine ⟨htracks', ?_⟩
      have hw : status ≠ .withdrawn := hopen
      rw [hstatus', if_pos hA, hstatus]
      simp only [signals, hrequest, haccepts.mpr hvalid, and_self, if_true]
      cases status with
      | withdrawn => exact absurd rfl hw
      | _ => rfl

/-- **One delivery.**  A settled delivery moves the status of `A` as its
signals do. -/
theorem step_refines (hsame : ∀ m, d = .prediction m → m.predictionId = A.predictionId → m = A)
    (hends : (P.process d).Ends handle s r s') (hsettles : settles r) :
    Tracks P A s' ∧ s'.statusOf A.predictionId =
      afterSignals (P.signals A d) (s.statusOf A.predictionId) := by
  cases d with
  | price message => exact price_refines htracks hends hsettles
  | prediction m =>
    obtain ⟨evaluation, request, created, s₁, hnew, hcreate, hrest⟩ :=
      processPrediction_settled hends hsettles
    obtain ⟨htracks₁, hstatus₁⟩ := create_refines htracks (hsame m rfl) hnew hcreate
    have hsplit : afterSignals (P.signals A (.prediction m)) (s.statusOf A.predictionId) =
        afterSignals (if m.supersedesPredictionId = some A.predictionId then [.superseded] else [])
          (s₁.statusOf A.predictionId) := by
      rw [hstatus₁]
      exact foldl_append
    rw [hsplit]
    cases hsup : m.supersedesPredictionId with
    | none =>
      rw [hsup] at hrest
      obtain rfl : s' = s₁ := hrest
      exact ⟨htracks₁, by simp [afterSignals]⟩
    | some superseded =>
      rw [hsup] at hrest
      obtain ⟨withdrawn, hwithdraw⟩ := hrest
      exact withdraw_refines htracks₁ hwithdraw

end

/-- **Whole histories.**  After any settled history `A` has the status that the
signals give it. -/
theorem run_refines (jobs : List (Delivery reg × List Answer)) (htracks : Tracks P A s)
    (hsame : ∀ m, .prediction m ∈ jobs.map Prod.fst → m.predictionId = A.predictionId → m = A)
    (hrun : P.settledRun jobs s) :
    Tracks P A (runJobs handle P.process jobs s) ∧
      (runJobs handle P.process jobs s).statusOf A.predictionId =
        P.statusAfter A (jobs.map Prod.fst) (s.statusOf A.predictionId) := by
  induction jobs generalizing s with
  | nil => exact ⟨htracks, rfl⟩
  | cons job jobs ih =>
    obtain ⟨s₁, r, hends, hsettles, hadvance, hrest⟩ :=
      settledRun_cons hrun
    obtain ⟨htracks₁, hstatus₁⟩ := step_refines htracks
      (fun m hm => hsame m (by simp [hm])) hends hsettles
    have htail := ih htracks₁ (fun m hm => hsame m (mem_cons_of_mem _ hm)) hrest
    rw [runJobs, hadvance]
    rw [hstatus₁] at htail
    exact htail

private theorem exists_split_cons {D : Type} {x y : D} {xs : List D} {Q : List D → Prop} :
    (∃ pre post, x :: xs = pre ++ y :: post ∧ Q pre) ↔
      (x = y ∧ Q []) ∨ ∃ pre post, xs = pre ++ y :: post ∧ Q (x :: pre) := by
  constructor
  · rintro ⟨pre, post, hsplit, hQ⟩
    cases pre with
    | nil =>
      obtain ⟨rfl, rfl⟩ := List.cons.inj hsplit
      exact Or.inl ⟨rfl, hQ⟩
    | cons z pre =>
      obtain ⟨rfl, rfl⟩ := List.cons.inj hsplit
      exact Or.inr ⟨pre, post, rfl, hQ⟩
  · rintro (⟨rfl, hQ⟩ | ⟨pre, post, rfl, hQ⟩)
    · exact ⟨[], xs, rfl, hQ⟩
    · exact ⟨x :: pre, post, rfl, hQ⟩

theorem statusAfter_cons (d : Delivery reg) (ds : List (Delivery reg))
    (status : Option EvaluationStatus) :
    P.statusAfter A (d :: ds) status =
      P.statusAfter A ds (afterSignals (P.signals A d) status) := rfl

theorem statusAfter_terminal (hterminal : status = .withdrawn ∨ status = .scored)
    (ds : List (Delivery reg)) : P.statusAfter A ds (some status) = some status := by
  have hsignals : ∀ signals, afterSignals signals (some status) = some status := by
    intro signals
    induction signals with
    | nil => rfl
    | cons signal signals ih =>
      have hone : signal.apply (some status) = some status := by
        rcases hterminal with rfl | rfl <;> cases signal <;> rfl
      rw [afterSignals, foldl_cons, hone]
      exact ih
  induction ds with
  | nil => rfl
  | cons d ds ih =>
    rw [statusAfter_cons, hsignals]
    exact ih

section Exchange

variable {P : VerificationPipeline} {A B : PredictionMade reg}

/-- The message of `A` or of `B`, or a price observation for `A`. -/
def Concerns (P : VerificationPipeline) (A B : PredictionMade reg) (d : Delivery reg) : Prop :=
  d = .prediction A ∨ d = .prediction B ∨ ∃ m, d = .price m ∧ m.requestId = P.requestIdOf A

variable (hne : A.predictionId ≠ B.predictionId)
  (hsup : B.supersedesPredictionId = some A.predictionId)
  (hself : A.supersedesPredictionId ≠ some A.predictionId)

include hne hsup hself

/-- From a pending evaluation, `B` must come before an accepted price. -/
theorem pending_withdrawn_iff (ds : List (Delivery reg)) (hds : ∀ d ∈ ds, Concerns P A B d) :
    P.statusAfter A ds (some .pending) = some .withdrawn ↔
      ∃ pre post, ds = pre ++ .prediction B :: post ∧
        ∀ m, .price m ∈ pre → P.accepts A m = false := by
  induction ds with
  | nil => simp [statusAfter]
  | cons d ds ih =>
    have ih := ih fun d hd => hds d (mem_cons_of_mem _ hd)
    rw [exists_split_cons, statusAfter_cons]
    rcases hds d mem_cons_self with rfl | rfl | ⟨m, rfl, hrequest⟩
    · have hstay : afterSignals (P.signals A (.prediction A)) (some .pending) = some .pending := by
        simp [signals, hself, afterSignals, Signal.apply]
      have hAB : Delivery.prediction A ≠ .prediction B := by
        rintro ⟨⟩
        exact hne rfl
      rw [hstay]
      simpa [hAB] using ih
    · have hwithdraw : afterSignals (P.signals A (.prediction B)) (some .pending) =
          some .withdrawn := by
        simp [signals, hsup, Ne.symm hne, afterSignals, Signal.apply]
      rw [hwithdraw]
      exact iff_of_true (statusAfter_terminal (Or.inl rfl) ds) (Or.inl ⟨rfl, by simp⟩)
    · by_cases haccepts : P.accepts A m
      · have hscore : afterSignals (P.signals A (.price m)) (some .pending) = some .scored := by
          simp [signals, hrequest, haccepts, afterSignals, Signal.apply]
        rw [hscore]
        refine iff_of_false ?_ ?_
        · rw [statusAfter_terminal (Or.inr rfl) ds]
          simp
        · rintro (⟨habsurd, _⟩ | ⟨pre, post, _, hrejected⟩)
          · cases habsurd
          · simp [hrejected m mem_cons_self] at haccepts
      · have hstay : afterSignals (P.signals A (.price m)) (some .pending) = some .pending := by
          simp [signals, haccepts, afterSignals]
        rw [hstay]
        simpa [haccepts] using ih

/-- From no evaluation, and with no price before `A`, a delivery of `A` must
come first. -/
theorem absent_withdrawn_iff (early late : List (Delivery reg)) (hds : ∀ d ∈ early ++ late, Concerns P A B d)
    (hA : .prediction A ∈ early) (hprice : ∀ m, .price m ∉ early) :
    P.statusAfter A (early ++ late) none = some .withdrawn ↔
      ∃ pre post, early ++ late = pre ++ .prediction B :: post ∧ .prediction A ∈ pre ∧
        ∀ m, .price m ∈ pre → P.accepts A m = false := by
  have hAB : Delivery.prediction A ≠ .prediction B := by
    rintro ⟨⟩
    exact hne rfl
  induction early with
  | nil => simp at hA
  | cons d early ih =>
    rw [cons_append, exists_split_cons, statusAfter_cons]
    rcases hds d (by simp) with rfl | rfl | ⟨m, rfl, _⟩
    · have hcreate : afterSignals (P.signals A (.prediction A)) none = some .pending := by
        simp [signals, hself, afterSignals, Signal.apply]
      rw [hcreate]
      have hpending := pending_withdrawn_iff hne hsup hself (early ++ late)
        fun d hd => hds d (mem_cons_of_mem _ hd)
      simpa [hAB] using hpending
    · have hstay : afterSignals (P.signals A (.prediction B)) none = none := by
        simp [signals, hsup, Ne.symm hne, afterSignals, Signal.apply]
      rw [hstay]
      have htail := ih (fun d hd => hds d (mem_cons_of_mem _ hd))
        (by simpa [hAB] using hA) fun m hm => hprice m (mem_cons_of_mem _ hm)
      simpa [hAB] using htail
    · exact absurd mem_cons_self (hprice m)

/-- **When a superseded prediction is withdrawn.**  `B` supersedes `A`, and both are handled
before the first price of `A`.  Then `A` ends withdrawn and never scored exactly when a
delivery of `B` follows one of `A` and precedes every observation that `A`'s evaluation
accepts. -/
theorem superseded_withdrawn_iff (jobs : List (Delivery reg × List Answer)) (s : Store reg)
    (hfresh : s.statusOf A.predictionId = none) (hunscored : s.scoreRows A.predictionId = [])
    (hrun : P.settledRun jobs s = true) (early late : List (Delivery reg))
    (hjobs : jobs.map Prod.fst = early ++ late) (hds : ∀ d ∈ early ++ late, Concerns P A B d)
    (hboth : .prediction A ∈ early ∧ .prediction B ∈ early) (hprice : ∀ m, .price m ∉ early) :
    ((runJobs handle P.process jobs s).statusOf A.predictionId = some .withdrawn ∧
      (runJobs handle P.process jobs s).scoreRows A.predictionId = []) ↔
    ∃ pre post, early ++ late = pre ++ .prediction B :: post ∧ .prediction A ∈ pre ∧
      ∀ m, .price m ∈ pre → P.accepts A m = false := by
  have htracks : Tracks P A s := by
    refine ⟨?_, Or.inl hunscored⟩
    intro row hrow
    rw [statusOf_eq_none_iff.mp hfresh] at hrow
    cases hrow
  have hsame : ∀ m, .prediction m ∈ jobs.map Prod.fst →
      m.predictionId = A.predictionId → m = A := by
    intro m hm hid
    rw [hjobs] at hm
    rcases hds _ hm with hmA | hmB | ⟨m', hm', _⟩
    · cases hmA
      rfl
    · cases hmB
      exact absurd hid.symm hne
    · cases hm'
  obtain ⟨htracks', hstatus⟩ := run_refines jobs htracks hsame hrun
  rw [hfresh, hjobs] at hstatus
  rw [← absent_withdrawn_iff hne hsup hself early late hds hboth.1 hprice, ← hstatus]
  constructor
  · exact And.left
  · intro hwithdrawn
    refine ⟨hwithdrawn, ?_⟩
    rcases htracks'.score with hnone | hscored
    · exact hnone
    · rw [hwithdrawn] at hscored
      cases hscored

end Exchange

/-- UTC markets, and ids that tell short names apart. -/
def goldPipeline : VerificationPipeline where
  timeZones := Calendar.utcOnly
  uuid5 := fun _ name => name.length

/-- Gold on Tuesday 6 January 2026 at ten in the morning. -/
def goldPrediction (predictionId : Uuid) (supersedes : Option Uuid) :
    PredictionMade goldRegistry where
  messageId := predictionId
  correlationId := 0
  causationId := none
  occurredAt := 0
  predictionId := predictionId
  contextId := 0
  contextVersion := 1
  eventIds := []
  assetId := gold
  direction := .up
  magnitude := .small
  confidence := ⟨1 / 2, half_range⟩
  horizon := .oneTradingDay
  rationale := "gold"
  contributingEdges := []
  decisionAt := 20459 * Calendar.microsPerDay + 600 * Calendar.microsPerMinute
  supersedesPredictionId := supersedes
  decisionMethod := .graphOnly
  propagationDepth := 0
  propagationChain := []

def goldClose (session : Int) (close : Rat) (hclose : 0 < close) : CloseObservation where
  session := session
  close := close
  fetchedAt := 0
  source := "yahoo"
  providerSymbol := "GC=F"
  priceKind := .providerDailyClose
  isAdjusted := false
  registryVersion := "v1"
  close_pos := hclose
  valid_sampled_close := no_sample

/-- The closes of Monday and Tuesday, requested for the prediction 1. -/
def goldPrice : PriceObserved goldRegistry where
  messageId := 7
  requestId := goldPipeline.requestIdOf (goldPrediction 1 none)
  predictionId := 1
  assetId := gold
  baseline := goldClose 20458 100 hundred_pos
  settlement := goldClose 20459 101 hundredOne_pos
  consistent_sampled_pair := by simp [goldClose]

/-- Answers without a fault, whose new messages get the given id. -/
def answers (messageId : Uuid) : List Answer :=
  List.replicate 4 { envelope := ⟨messageId, 0⟩ }

/-- **`B` before `A`.**  The withdrawal finds no evaluation, the evaluation of
`A` is created pending, and the price observation scores it. -/
theorem reversed_order_scores_superseded :
    let A := goldPrediction 1 none
    let B := goldPrediction 22 (some 1)
    let jobs := [(Delivery.prediction B, answers 101), (.prediction A, answers 102),
      (.price goldPrice, answers 103)]
    goldPipeline.settledRun jobs ∅ ∧
      (runJobs handle goldPipeline.process jobs ∅).statusOf 1 = some .scored ∧
      ((runJobs handle goldPipeline.process jobs ∅).scoreRows 1).length = 1 := by
  decide +kernel

/-- `A`, then `B`, then the price: the withdrawal takes effect. -/
theorem sent_order_withdraws_superseded :
    let jobs := [(Delivery.prediction (goldPrediction 1 none), answers 101),
      (.prediction (goldPrediction 22 (some 1)), answers 102), (.price goldPrice, answers 103)]
    (runJobs handle goldPipeline.process jobs ∅).statusOf 1 = some .withdrawn ∧
      (runJobs handle goldPipeline.process jobs ∅).scoreRows 1 = [] := by
  intro jobs
  have hds : ∀ d ∈ [Delivery.prediction (goldPrediction 1 none),
      .prediction (goldPrediction 22 (some 1))] ++ [Delivery.price goldPrice],
      Concerns goldPipeline (goldPrediction 1 none) (goldPrediction 22 (some 1)) d := by
    intro d hd
    simp only [cons_append, nil_append, mem_cons, not_mem_nil, or_false] at hd
    rcases hd with rfl | rfl | rfl
    · exact Or.inl rfl
    · exact Or.inr (Or.inl rfl)
    · exact Or.inr (Or.inr ⟨goldPrice, rfl, rfl⟩)
  exact (superseded_withdrawn_iff (by decide) rfl (by decide) jobs ∅ (by decide) (by rfl)
    (by decide +kernel)
    [.prediction (goldPrediction 1 none), .prediction (goldPrediction 22 (some 1))]
    [.price goldPrice] rfl hds (by simp) (by simp)).mpr
      ⟨[.prediction (goldPrediction 1 none)], [.price goldPrice], rfl, by simp, by simp⟩

end Verification
