import FeedAnalyzer.InterleavedRun
import FeedAnalyzer.WithdrawalOrder

/-!
# Withdrawals against scores, call by call

`process_price` reads a status in one transaction and writes `SCORED` in a later one.  A
withdrawn evaluation stays withdrawn exactly when no withdrawal commits between the load and
the score of one run (`withdrawn_stays_iff`).
-/

namespace Verification

open Feed Transact Proc Store VerificationPipeline

variable {reg : Registry}

def Call.Scores (predictionId : Uuid) : Call reg → Prop
  | .storeScoreWithOutbox scored => scored.predictionId = predictionId
  | _ => False

/-- One call creates a prediction, withdraws it, scores it, or leaves its status and scores
alone. -/
theorem handle_cases (predictionId : Uuid) (w : Answer) (c : Call reg) (s : Store reg) :
    ((handle w c s).2.statusOf predictionId = s.statusOf predictionId ∧
      (handle w c s).2.scoreRows predictionId = s.scoreRows predictionId) ∨
    (s.statusOf predictionId = none ∧ (handle w c s).2.statusOf predictionId = some .pending) ∨
    (c = .withdrawEvaluation predictionId ∧ (∃ a, (handle w c s).1 = .ok a) ∧
      s.statusOf predictionId = some .pending ∧
      (handle w c s).2.statusOf predictionId = some .withdrawn ∧
      (handle w c s).2.scoreRows predictionId = s.scoreRows predictionId) ∨
    (c.Scores predictionId ∧ (∃ a, (handle w c s).1 = .ok a) ∧
      (handle w c s).2.statusOf predictionId =
        (s.statusOf predictionId).map (fun _ => .scored)) := by
  cases hres : (handle w c s).1 with
  | error e =>
    have hsame : (handle w c s).2 = s := by
      cases c with
      | newEnvelope => rfl
      | _ => exact (commit_eq_error hres).1
    rw [hsame]
    exact Or.inl ⟨rfl, rfl⟩
  | ok a =>
    cases c with
    | newEnvelope => exact Or.inl ⟨rfl, rfl⟩
    | createEvaluationWithOutbox evaluation request =>
      obtain ⟨hstatus, hrows⟩ :=
        createEvaluationWithOutbox_eq_ok (commit_eq_ok hres).2 predictionId
      by_cases hnew : s.statusOf predictionId = none ∧ evaluation.predictionId = predictionId
      · exact Or.inr (Or.inl ⟨hnew.1, hstatus.trans (by simp [hnew])⟩)
      · refine Or.inl ⟨hstatus.trans ?_, hrows⟩
        cases hs : s.statusOf predictionId with
        | none => simp [hs] at hnew; simp [hnew]
        | some status => rfl
    | storePriceObservation message =>
      have hstore := (commit_eq_ok hres).2
      simp only [storePriceObservation, Except.ok.injEq, Prod.mk.injEq] at hstore
      refine Or.inl ?_
      rw [show (handle w (.storePriceObservation message) s).2 = _ from hstore.2.symm]
      exact ⟨rfl, rfl⟩
    | loadEvaluationByRequestId requestId =>
      have hsame := (loadEvaluationByRequestId_eq_ok (commit_eq_ok hres).2).1
      rw [show (handle w (.loadEvaluationByRequestId requestId) s).2 = s from hsame]
      exact Or.inl ⟨rfl, rfl⟩
    | storeScoreWithOutbox scored =>
      obtain ⟨hstatus, hrows⟩ :=
        storeScoreWithOutbox_eq_ok (commit_eq_ok hres).2 predictionId
      by_cases htarget : predictionId = scored.predictionId
      · exact Or.inr (Or.inr (Or.inr ⟨htarget.symm, ⟨a, rfl⟩, hstatus.trans (if_pos htarget)⟩))
      · exact Or.inl ⟨hstatus.trans (if_neg htarget), hrows htarget⟩
    | withdrawEvaluation target =>
      obtain ⟨hstatus, hrows⟩ :=
        withdrawEvaluation_eq_ok (commit_eq_ok hres).2 predictionId
      by_cases htarget : predictionId = target ∧ s.statusOf predictionId = some .pending
      · obtain ⟨rfl, hpending⟩ := htarget
        exact Or.inr (Or.inr (Or.inl ⟨rfl, ⟨a, rfl⟩, hpending,
          hstatus.trans (if_pos ⟨rfl, hpending⟩), hrows⟩))
      · exact Or.inl ⟨hstatus.trans (if_neg htarget), hrows⟩

section Threads

variable {P : VerificationPipeline} {predictionId : Uuid}

theorem processPrediction_avoids (message : PredictionMade reg) :
    (P.processPrediction message).Avoids (Call.Scores predictionId) := by
  unfold processPrediction
  split
  · trivial
  · refine avoids_perform id fun envelope => ?_
    refine avoids_perform id fun created => ?_
    split
    · trivial
    · exact avoids_perform id fun withdrawn => trivial

theorem scoreEvaluation_avoids (message : PriceObserved reg)
    {e : Evaluation reg} (hne : e.predictionId ≠ predictionId) :
    (P.scoreEvaluation message e).Avoids (Call.Scores predictionId) := by
  unfold scoreEvaluation
  split
  · trivial
  · refine avoids_perform id fun stored => ?_
    refine avoids_perform id fun envelope => ?_
    exact avoids_perform hne fun produced => trivial

/-- After its load a run can score only what it loaded, if not withdrawn. -/
theorem processLoaded_avoids_or (predictionId : Uuid) (message : PriceObserved reg)
    (loaded : Option (Evaluation reg)) :
    (P.processLoaded message loaded).Avoids (Call.Scores predictionId) ∨
      ∃ e, loaded = some e ∧ e.predictionId = predictionId ∧ e.status ≠ .withdrawn := by
  cases loaded with
  | none => exact Or.inl trivial
  | some e =>
    unfold processLoaded
    by_cases hstatus : e.status = .withdrawn
    · left
      simp only [hstatus, if_true]
      trivial
    · by_cases hid : e.predictionId = predictionId
      · exact Or.inr ⟨e, rfl, hid, hstatus⟩
      · left
        simp only [hstatus, if_false]
        exact scoreEvaluation_avoids message hid

def Call.LoadsOpen (predictionId : Uuid) : (c : Call reg) → c.Ret → Prop
  | .loadEvaluationByRequestId _, loaded =>
    ∃ e, loaded = some e ∧ e.predictionId = predictionId ∧ e.status ≠ .withdrawn
  | _, _ => False

theorem process_precededBy (P : VerificationPipeline) (predictionId : Uuid) (d : Delivery reg) :
    (P.process d).PrecededBy (Call.LoadsOpen predictionId) (Call.Scores predictionId) := by
  cases d with
  | prediction message => exact (processPrediction_avoids message).precededBy
  | price message =>
    refine precededBy_perform id fun loaded => ?_
    rcases processLoaded_avoids_or predictionId message loaded with havoids | hopen
    · exact Or.inr havoids.precededBy
    · exact Or.inl hopen

end Threads

section Run

variable (P : VerificationPipeline) (start : Config (Repository reg) (Store reg)
  VerificationError Unit) (acts : Nat → Action (Delivery reg) Answer)

/-- The tables before the `k`-th action. -/
def storeAt (k : Nat) : Store reg := (configAt handle P.process start acts k).store

/-- The `k`-th action commits the call `c` of the run `i`. -/
def CommitsAt (k i : Nat) (c : Call reg) : Prop :=
  ∃ w a, CallsAt handle P.process start acts k i w c ∧
    (handle w c (storeAt P start acts k)).1 = .ok a

/-- The `k`-th action makes a pending evaluation `WITHDRAWN`. -/
def WithdrawsAt (predictionId : Uuid) (k : Nat) : Prop :=
  (∃ j, CommitsAt P start acts k j (.withdrawEvaluation predictionId)) ∧
    (storeAt P start acts k).statusOf predictionId = some .pending

/-- The run `i` loads an evaluation at time `k`. -/
def LoadsAt (k i : Nat) : Prop :=
  ∃ requestId, CommitsAt P start acts k i (.loadEvaluationByRequestId requestId)

/-- The run `i` commits a score of the prediction at time `k`. -/
def ScoresAt (predictionId : Uuid) (k i : Nat) : Prop :=
  ∃ scored : PredictionScored reg, scored.predictionId = predictionId ∧
    CommitsAt P start acts k i (.storeScoreWithOutbox scored)

/-- Run `i` has loaded the evaluation before time `k`, not withdrawn. -/
def LoadedBefore (predictionId : Uuid) (k i : Nat) : Prop :=
  ∃ l, l < k ∧ LoadsAt P start acts l i ∧
    (storeAt P start acts l).statusOf predictionId ≠ some .withdrawn

variable {P start acts} {predictionId : Uuid}

/-- **Before a score, a load.**  A run that is about to score a prediction has
loaded its evaluation earlier, and found it not withdrawn. -/
theorem loaded_before_score (hempty : start.threads = []) {k i : Nat} {w : Answer}
    {c : Call reg} (hcalls : CallsAt handle P.process start acts k i w c)
    (hscores : c.Scores predictionId) : LoadedBefore P start acts predictionId k i := by
  obtain ⟨l, hl, w', c', a, hload, hok, hopen⟩ :=
    preceded_at hempty (process_precededBy P predictionId) hcalls hscores
  cases c' with
  | loadEvaluationByRequestId requestId =>
    obtain ⟨e, rfl, rfl, hstatus⟩ := hopen
    refine ⟨l, hl, ⟨requestId, w', some e, hload, hok⟩, ?_⟩
    have hloaded := statusOf_of_loaded (commit_eq_ok hok).2
    rw [storeAt, hloaded]
    simpa using hstatus
  | _ => exact hopen.elim

theorem storeAt_succ_cases (start : Config (Repository reg) (Store reg) VerificationError Unit)
    (acts : Nat → Action (Delivery reg) Answer) (k : Nat) :
    ((storeAt P start acts (k+1)).statusOf predictionId =
        (storeAt P start acts k).statusOf predictionId ∧
      (storeAt P start acts (k+1)).scoreRows predictionId =
        (storeAt P start acts k).scoreRows predictionId) ∨
    ((storeAt P start acts k).statusOf predictionId = none ∧
      (storeAt P start acts (k+1)).statusOf predictionId = some .pending) ∨
    (WithdrawsAt P start acts predictionId k ∧
      (storeAt P start acts (k+1)).statusOf predictionId = some .withdrawn) ∨
    (∃ i, ScoresAt P start acts predictionId k i ∧
      (storeAt P start acts (k+1)).statusOf predictionId =
        ((storeAt P start acts k).statusOf predictionId).map (fun _ => .scored)) := by
  rcases configAt_store_succ start acts k with ⟨i, w, c, hcalls, hstore⟩ | hsame
  · have hstore' : storeAt P start acts (k+1) = (handle w c (storeAt P start acts k)).2 := hstore
    rw [hstore']
    rcases handle_cases predictionId w c (storeAt P start acts k) with
      hidle | hcreated | ⟨rfl, ⟨a, hok⟩, hpending, hwithdrawn, _⟩ | ⟨hscores, ⟨a, hok⟩, hscored⟩
    · exact Or.inl hidle
    · exact Or.inr (Or.inl hcreated)
    · exact Or.inr (Or.inr (Or.inl ⟨⟨⟨i, w, a, hcalls, hok⟩, hpending⟩, hwithdrawn⟩))
    · refine Or.inr (Or.inr (Or.inr ⟨i, ?_, hscored⟩))
      cases c with
      | storeScoreWithOutbox scored => exact ⟨scored, hscores, w, a, hcalls, hok⟩
      | _ => exact hscores.elim
  · have hsame' : storeAt P start acts (k+1) = storeAt P start acts k := hsame
    rw [hsame']
    exact Or.inl ⟨rfl, rfl⟩

/-- An evaluation that has become withdrawn was withdrawn by some action. -/
theorem withdraws_between {l n : Nat} (hle : l ≤ n)
    (hl : (storeAt P start acts l).statusOf predictionId ≠ some .withdrawn)
    (hn : (storeAt P start acts n).statusOf predictionId = some .withdrawn) :
    ∃ k, l ≤ k ∧ k < n ∧ WithdrawsAt P start acts predictionId k := by
  obtain ⟨k, hlk, hkn, hbefore, hafter⟩ := exists_step_of_change
    (A := fun k => (storeAt P start acts k).statusOf predictionId = some .withdrawn) hle hl hn
  refine ⟨k, hlk, hkn, ?_⟩
  rcases storeAt_succ_cases start acts k with
    ⟨hsame, _⟩ | ⟨_, hpending⟩ | ⟨hk, _⟩ | ⟨i, _, hscored⟩
  · rw [hsame] at hafter
    exact absurd hafter hbefore
  · rw [hpending] at hafter
    cases hafter
  · exact hk
  · rw [hscored] at hafter
    cases hs : (storeAt P start acts k).statusOf predictionId <;> simp [hs] at hafter

/-- A withdrawal commits between a load and its score. -/
def RacedWithdrawal (P : VerificationPipeline) (start : Config (Repository reg) (Store reg)
    VerificationError Unit) (acts : Nat → Action (Delivery reg) Answer)
    (predictionId : Uuid) : Prop :=
  ∃ i l k m, l < k ∧ k < m ∧ LoadsAt P start acts l i ∧
    WithdrawsAt P start acts predictionId k ∧ ScoresAt P start acts predictionId m i

theorem not_scoresAt_of_withdrawn (hempty : start.threads = [])
    (hrace : ¬ RacedWithdrawal P start acts predictionId) {m : Nat}
    (hwithdrawn : (storeAt P start acts m).statusOf predictionId = some .withdrawn) (i : Nat) :
    ¬ ScoresAt P start acts predictionId m i := by
  rintro ⟨scored, hid, w, a, hcalls, hok⟩
  obtain ⟨l, hl, hloads, hopen⟩ := loaded_before_score hempty hcalls hid
  obtain ⟨k, hlk, hkm, hk⟩ := withdraws_between (Nat.le_of_lt hl) hopen hwithdrawn
  -- the load itself withdraws nothing
  have hne : l ≠ k := by
    rintro rfl
    obtain ⟨requestId, w₁, a₁, hload, _⟩ := hloads
    obtain ⟨⟨j, w₂, a₂, hwithdraw, _⟩, _⟩ := hk
    have := (hload.unique hwithdraw).2.2
    cases this
  exact hrace ⟨i, l, k, m, by omega, hkm, hloads, hk, scored, hid, w, a, hcalls, hok⟩

/-- **When withdrawn stays withdrawn.**  In every interleaving, a withdrawn evaluation stays
so and gets no further `PredictionScored` exactly when no withdrawal of it commits between
the load and the score of one `process_price` run. -/
theorem withdrawn_stays_iff (hempty : start.threads = []) :
    (∀ k, (storeAt P start acts k).statusOf predictionId = some .withdrawn →
      ∀ n, (storeAt P start acts (k+n)).statusOf predictionId = some .withdrawn ∧
        (storeAt P start acts (k+n)).scoreRows predictionId =
          (storeAt P start acts k).scoreRows predictionId) ↔
    ¬ RacedWithdrawal P start acts predictionId := by
  constructor
  · rintro hstays ⟨i, l, k, m, _, hkm, _, ⟨⟨j, w, a, hcalls, hok⟩, hpending⟩,
      scored, hid, w', a', hcalls', hok'⟩
    have hwithdrawn : (storeAt P start acts (k+1)).statusOf predictionId = some .withdrawn := by
      have hstatus := (withdrawEvaluation_eq_ok (commit_eq_ok hok).2 predictionId).1
      rw [storeAt, hcalls.store_succ]
      exact hstatus.trans (if_pos ⟨rfl, hpending⟩)
    have hm := (hstays (k+1) hwithdrawn (m - (k+1))).1
    have hm' := (hstays (k+1) hwithdrawn (m + 1 - (k+1))).1
    rw [show k + 1 + (m - (k+1)) = m by omega] at hm
    rw [show k + 1 + (m + 1 - (k+1)) = m + 1 by omega, storeAt, hcalls'.store_succ] at hm'
    have hscored := (storeScoreWithOutbox_eq_ok (commit_eq_ok hok').2 predictionId).1
    rw [if_pos hid.symm, hm] at hscored
    have hboth := hm'.symm.trans hscored
    simp at hboth
  · intro hrace k hk n
    induction n with
    | zero => exact ⟨hk, rfl⟩
    | succ n ih =>
      obtain ⟨hstatus, hrows⟩ := ih
      rcases storeAt_succ_cases start acts (k+n) with
        ⟨hsame, hsameRows⟩ | ⟨hnone, _⟩ | ⟨⟨_, hpending⟩, _⟩ | ⟨i, hscores, _⟩
      · exact ⟨hsame.trans hstatus, hsameRows.trans hrows⟩
      · rw [hstatus] at hnone
        cases hnone
      · rw [hstatus] at hpending
        cases hpending
      · exact absurd hscores (not_scoresAt_of_withdrawn hempty hrace hstatus i)

end Run

/-- The evaluation of prediction 1 is pending, and nothing runs yet. -/
def raceStart : Config (Repository goldRegistry) (Store goldRegistry) VerificationError Unit where
  store := runJobs handle goldPipeline.process
    [(.prediction (goldPrediction 1 none), answers 101)] ∅
  threads := []

/-- The price consumer loads, the prediction consumer supersedes, and the price consumer
goes on. -/
def raceSchedule (k : Nat) : Action (Delivery goldRegistry) Answer :=
  [.spawn (.price goldPrice), .spawn (.prediction (goldPrediction 22 (some 1))), .run 0 {},
    .run 1 { envelope := ⟨102, 0⟩ }, .run 1 {}, .run 1 {},
    .run 0 {}, .run 0 { envelope := ⟨103, 0⟩ }, .run 0 {}].getD k (.run 0 {})

/-- **The lost withdrawal.**  The evaluation is withdrawn before action 6, and
scored, with its `PredictionScored` in the outbox, after action 8. -/
theorem withdrawal_lost_to_score :
    (storeAt goldPipeline raceStart raceSchedule 6).statusOf 1 = some .withdrawn ∧
      ((storeAt goldPipeline raceStart raceSchedule 6).scoreRows 1).length = 0 ∧
      (storeAt goldPipeline raceStart raceSchedule 9).statusOf 1 = some .scored ∧
      ((storeAt goldPipeline raceStart raceSchedule 9).scoreRows 1).length = 1 := by
  decide +kernel

theorem raceSchedule_races : RacedWithdrawal goldPipeline raceStart raceSchedule 1 := by
  apply Classical.byContradiction
  intro hrace
  have hempty : raceStart.threads = [] := rfl
  have hstays := (withdrawn_stays_iff hempty).mpr hrace 6 (by decide +kernel) 3
  have hscored : (storeAt goldPipeline raceStart raceSchedule 9).statusOf 1 = some .scored := by
    decide +kernel
  cases hstays.1

end Verification
