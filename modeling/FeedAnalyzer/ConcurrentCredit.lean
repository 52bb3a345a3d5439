import Mathlib.Data.List.Permutation
import FeedAnalyzer.CreditStages
import FeedAnalyzer.InterleavedRun

/-!
# Scored predictions processed at once

Two calls of `process` on one relationship can lose a move.  As long as no two calls
in progress are about one prediction or name one edge, every run comes to a
sequential one.  The invariant looks ahead: the weights of now, moved by what the
calls in progress still have to do, are those of the start, moved by all messages
that were begun.
-/

namespace Credibility

open Feed Transact CausalGraph Prediction Proc List Table Option Graph

section Pending

variable {rest rest' : Nat → List Graph.Move} {n i : Nat} {key : EdgeKey}

/-- The moves that the first `n` calls still have to make. -/
def pending (rest : Nat → List Graph.Move) (n : Nat) : List Graph.Move :=
  (List.range n).flatMap rest

theorem pending_succ (rest : Nat → List Move) (n : Nat) :
    pending rest (n + 1) = pending rest n ++ rest n := by
  unfold pending
  rw [range_succ, flatMap_append, flatMap_singleton]

theorem moveAt_pending_of_none (hnone : ∀ j < n, key ∉ (rest j).map Prod.fst)
    (weight : Confidence) : moveAt key (pending rest n) weight = weight := by
  apply moveAt_of_not_mem
  unfold pending
  rw [map_flatMap]
  intro hmem
  obtain ⟨j, hj, hkey⟩ := mem_flatMap.mp hmem
  exact hnone j (mem_range.mp hj) hkey

/-- A relationship that one call alone has to do with is moved by that call. -/
theorem moveAt_pending_of_only (hi : i < n) (honly : ∀ j < n, j ≠ i → key ∉ (rest j).map Prod.fst)
    (weight : Confidence) : moveAt key (pending rest n) weight = moveAt key (rest i) weight := by
  induction n with
  | zero => omega
  | succ n ih =>
    rw [pending_succ, moveAt_append]
    by_cases hlast : i = n
    · subst hlast
      rw [moveAt_pending_of_none (fun j hj => honly j (by omega) (by omega))]
    · rw [ih (by omega) (fun j hj hne => honly j (by omega) hne)]
      exact moveAt_of_not_mem (honly n (by omega) (fun heq => hlast heq.symm)) _

/-- A call that has nothing to do with a relationship does not count. -/
theorem moveAt_pending_congr (hsame : ∀ j < n, j ≠ i → rest j = rest' j)
    (hrest : key ∉ (rest i).map Prod.fst) (hrest' : key ∉ (rest' i).map Prod.fst)
    (weight : Confidence) :
    moveAt key (pending rest n) weight = moveAt key (pending rest' n) weight := by
  induction n generalizing weight with
  | zero => rfl
  | succ n ih =>
    rw [pending_succ, pending_succ, moveAt_append, moveAt_append,
      ih (fun j hj hne => hsame j (by omega) hne)]
    by_cases hlast : n = i
    · subst hlast
      rw [moveAt_of_not_mem hrest, moveAt_of_not_mem hrest']
    · rw [hsame n (by omega) hlast]

end Pending

variable {k : Nat}

namespace CredibilityPipeline

variable {P : CredibilityPipeline} {start s s' : Store} {order : List P.Scored}
  {message : P.Scored} {p : Service P.reg Bool}
  {stage stage' : Stage} {messages : List P.Scored}

/-- The calls in progress have nothing to do with each other. -/
def CallsApart (jobs : List P.Scored)
    (cfg : Config (Surroundings P.reg) Store CredibilityError Bool) : Prop :=
  ∀ (i j : Nat) (p q : Service P.reg Bool) message message', i ≠ j →
    cfg.threads[i]? = some p → cfg.threads[j]? = some q → p.ended = false → q.ended = false →
      jobs[i]? = some message → jobs[j]? = some message' → Apart message message'

/-- No call has failed. -/
def NoFailure (cfg : Config (Surroundings P.reg) Store CredibilityError Bool) : Prop :=
  ∀ p ∈ cfg.threads, ∀ e, p ≠ .fail e

/-- At every point of a run: `order` lists the messages begun, and `stages` says where each
call stands. -/
structure Progress (P : CredibilityPipeline) (start : Store) (jobs : List P.Scored)
    (cfg : Config (Surroundings P.reg) Store CredibilityError Bool)
    (order : List P.Scored) (stages : Nat → Stage) : Prop where
  length : cfg.threads.length = jobs.length
  idle : ∀ i, jobs.length ≤ i → stages i = .arrived
  holds : ∀ i p message, cfg.threads[i]? = some p → jobs[i]? = some message →
    P.Holds start order cfg.store message (stages i) p
  weights : ∀ key, (cfg.store.graph.weightOf key).map
      (Graph.moveAt key (pending (fun i => (stages i).rest) jobs.length)) =
    (start.graph.weightOf key).map (Graph.moveAt key (order.flatMap P.moves))
  kept : P.Kept start order cfg.store
  distinct : (order.map PredictionScored.predictionId).Nodup
  fresh : ∀ message ∈ order, start.processedPredictions.has message.predictionId = false ∧
    start.predictionStatuses message.predictionId ≠ some .withdrawn
  begun : ∀ message ∈ order, ∃ i, jobs[i]? = some message ∧ (stages i).applies = true
  applied : ∀ i message, jobs[i]? = some message → (stages i).applies = true → message ∈ order

section Runs

variable {jobs : List P.Scored}
  {cfg : Config (Surroundings P.reg) Store CredibilityError Bool} {stages : Nat → Stage} {i : Nat}

theorem progress_start (start : Store) :
    P.Progress start [] ⟨start, []⟩ [] (fun _ => .arrived) where
  length := rfl
  idle := fun _ _ => rfl
  holds := fun _ _ _ hthread => by cases hthread
  weights := fun _ => rfl
  kept := ⟨⟨[], rfl⟩, rfl, fun _ hprocessed => Or.inl hprocessed, fun _ hprocessed => hprocessed⟩
  distinct := nodup_nil
  fresh := fun _ hmem => by cases hmem
  begun := fun _ hmem => by cases hmem
  applied := fun _ _ hjob => by cases hjob

theorem map_moveAt_append (weight : Option Confidence) (key : EdgeKey) (moves moves' : List Move) :
    weight.map (moveAt key (moves ++ moves')) =
      (weight.map (moveAt key moves)).map (moveAt key moves') := by
  rw [Option.map_map]
  congr 1
  funext w
  exact moveAt_append key moves moves' w

variable {begun : List P.Scored} {key : EdgeKey}

theorem StepOf.not_mem_begun (hstep : P.StepOf start message begun stage stage' s s')
    (hkey : key ∉ (P.moves message).map Prod.fst) : key ∉ (begun.flatMap P.moves).map Prod.fst := by
  rcases hstep.begins with rfl | ⟨rfl, _⟩
  · exact not_mem_nil
  · rw [flatMap_singleton]
    exact hkey

/-- One step keeps the ledger. -/
theorem Kept.step (hkept : P.Kept start order s)
    (hstep : P.StepOf start message begun stage stage' s s')
    (happlied : stage.applies → message ∈ order) : P.Kept start (order ++ begun) s' := by
  constructor
  · obtain ⟨made, hgraph⟩ := hkept.graph
    obtain ⟨more, hgraph'⟩ := hstep.graph
    refine ⟨made ++ more, ?_⟩
    rw [hgraph', hgraph]
    exact foldl_append.symm
  · exact hstep.statuses.trans hkept.statuses
  · intro predictionId hprocessed
    have hold : s.processedPredictions.has predictionId →
        start.processedPredictions.has predictionId ∨
          start.predictionStatuses predictionId = some .withdrawn ∨
            ∃ message ∈ order ++ begun, message.predictionId = predictionId := by
      intro hbefore
      refine (hkept.processed predictionId hbefore).imp_right (Or.imp_right ?_)
      rintro ⟨earlier, hmem, hid⟩
      exact ⟨earlier, mem_append_left begun hmem, hid⟩
    rcases hstep.processed with hsame | ⟨hclaimed, hreason⟩
    · rw [hsame] at hprocessed
      exact hold hprocessed
    · rw [hclaimed, has_insertNew, Bool.or_eq_true] at hprocessed
      rcases hprocessed with hbefore | hid
      · exact hold hbefore
      · obtain rfl : message.predictionId = predictionId := of_decide_eq_true hid
        rcases hreason with hwithdrawn | happlies
        · exact Or.inr (Or.inl hwithdrawn)
        · exact Or.inr (Or.inr ⟨message, mem_append_left begun (happlied happlies), rfl⟩)
  · intro predictionId hprocessed
    have hbefore := hkept.keeps predictionId hprocessed
    rcases hstep.processed with hsame | ⟨hclaimed, _⟩
    · rw [hsame]
      exact hbefore
    · rw [hclaimed]
      exact has_insertNew_of_has hbefore

section

variable (hprogress : P.Progress start jobs cfg order stages)

include hprogress

theorem Progress.job (hi : cfg.threads[i]? = some p) : ∃ message, jobs[i]? = some message := by
  obtain ⟨hlt, _⟩ := List.getElem?_eq_some_iff.mp hi
  rw [hprogress.length] at hlt
  exact ⟨jobs[i], List.getElem?_eq_getElem hlt⟩

theorem Progress.thread (hjob : jobs[i]? = some message) : ∃ p, cfg.threads[i]? = some p := by
  obtain ⟨hlt, _⟩ := List.getElem?_eq_some_iff.mp hjob
  rw [← hprogress.length] at hlt
  exact ⟨cfg.threads[i], List.getElem?_eq_getElem hlt⟩

/-- **Starting a call** keeps the invariant. -/
theorem Progress.spawn (message : P.Scored) :
    P.Progress start (jobs ++ [message]) ⟨cfg.store, cfg.threads ++ [P.process message]⟩
      order stages := by
  have hnew : stages jobs.length = .arrived := hprogress.idle jobs.length (Nat.le_refl _)
  have hlength := hprogress.length
  constructor
  · simp [hlength]
  · intro i hi
    rw [length_append] at hi
    exact hprogress.idle i (by omega)
  · intro i p message' hthread hjob
    by_cases hlt : i < jobs.length
    · have hlt' : i < cfg.threads.length := by omega
      rw [List.getElem?_append_left hlt'] at hthread
      rw [List.getElem?_append_left hlt] at hjob
      exact hprogress.holds i p message' hthread hjob
    · have hbound := (List.getElem?_eq_some_iff.mp hjob).1
      rw [length_append, length_singleton] at hbound
      obtain rfl : i = jobs.length := by omega
      rw [List.getElem?_concat_length] at hjob
      rw [← hlength, List.getElem?_concat_length] at hthread
      cases hjob
      cases hthread
      rw [hnew]
      rfl
  · intro key
    rw [length_append, length_singleton, pending_succ, hnew]
    show Option.map (moveAt key (_ ++ [])) _ = _
    rw [append_nil]
    exact hprogress.weights key
  · exact hprogress.kept
  · exact hprogress.distinct
  · exact hprogress.fresh
  · intro message' hmem
    obtain ⟨i, hjob, happlies⟩ := hprogress.begun message' hmem
    have hlt := (List.getElem?_eq_some_iff.mp hjob).1
    exact ⟨i, (List.getElem?_append_left hlt).trans hjob, happlies⟩
  · intro i message' hjob happlies
    by_cases hlt : i < jobs.length
    · rw [List.getElem?_append_left hlt] at hjob
      exact hprogress.applied i message' hjob happlies
    · rw [hprogress.idle i (by omega)] at happlies
      cases happlies

section

variable (hapart : CallsApart jobs cfg)

include hapart

section

variable (hi : cfg.threads[i]? = some p) (hjob : jobs[i]? = some message)

include hi hjob

/-- Nobody else is about to move what a call in progress may move. -/
theorem Progress.not_mem_rest (hended : p.ended = false)
    (hkey : key ∈ (P.moves message).map Prod.fst) {j : Nat} (hne : j ≠ i) :
    key ∉ (stages j).rest.map Prod.fst := by
  intro hmem
  by_cases hlt : j < jobs.length
  · have hjob' : jobs[j]? = some jobs[j] := List.getElem?_eq_getElem hlt
    obtain ⟨q, hj⟩ := hprogress.thread hjob'
    have hholds := hprogress.holds j q jobs[j] hj hjob'
    have hpair : Apart jobs[j] message :=
      hapart j i q p _ _ hne hj hi (hholds.not_ended hmem) hended hjob' hjob
    exact hpair.not_mem hkey (hholds.mem_moves hmem)
  · rw [hprogress.idle j (by omega)] at hmem
    cases hmem

omit hjob in
omit hi in
/-- A checked message has not begun. -/
theorem Progress.not_begun (hfine : NoFailure cfg) (hi : cfg.threads[i]? = some p)
    (hjob : jobs[i]? = some message) (hended : p.ended = false) (hstage : stages i = .checked) :
    message.predictionId ∉ order.map PredictionScored.predictionId := by
  intro hmem
  obtain ⟨message', hmem', hid⟩ := mem_map.mp hmem
  obtain ⟨j, hjob', happlies⟩ := hprogress.begun message' hmem'
  have hne : i ≠ j := by
    rintro rfl
    rw [hstage] at happlies
    cases happlies
  obtain ⟨q, hj⟩ := hprogress.thread hjob'
  have hholds' := hprogress.holds j q message' hj hjob'
  cases hq : q.ended with
  | false => exact (hapart i j p q _ _ hne hi hj hended hq hjob hjob').1 hid.symm
  | true =>
    obtain ⟨applied, hfinished⟩ :=
      hholds'.finished hq (hfine q (mem_of_getElem? hj))
    rw [hfinished] at happlies hholds'
    obtain rfl : applied := happlies
    have hclaimed := hholds'.2.1
    have hholds := hprogress.holds i p message hi hjob
    rw [hstage] at hholds
    rw [hid, hholds.2] at hclaimed
    cases hclaimed

/-- The weights look ahead to the same values after a step. -/
theorem Progress.weights_step (hended : p.ended = false)
    (hstep : P.StepOf start message begun (stages i) stage' cfg.store s')
    (hrest' : ∀ key ∈ stage'.rest.map Prod.fst, key ∈ (P.moves message).map Prod.fst)
    (key : EdgeKey) :
    (s'.graph.weightOf key).map (moveAt key
        (pending (fun j => (Function.update stages i stage' j).rest) jobs.length)) =
      (start.graph.weightOf key).map (moveAt key ((order ++ begun).flatMap P.moves)) := by
  have hlt : i < jobs.length := (List.getElem?_eq_some_iff.mp hjob).1
  have hbefore := hprogress.weights key
  rw [flatMap_append, map_moveAt_append, ← hbefore]
  by_cases hkey : key ∈ (P.moves message).map Prod.fst
  · -- the call alone has to do with this relationship
    have hothers : ∀ j < jobs.length, j ≠ i → key ∉ (stages j).rest.map Prod.fst :=
      fun j _ hne => hprogress.not_mem_rest hapart hi hjob hended hkey hne
    have hothers' : ∀ j < jobs.length, j ≠ i →
        key ∉ (Function.update stages i stage' j).rest.map Prod.fst := by
      intro j hj hne
      rw [Function.update_of_ne hne]
      exact hothers j hj hne
    have hnow : moveAt key (pending (fun j => (stages j).rest) jobs.length) =
        moveAt key (stages i).rest := by
      funext weight
      exact moveAt_pending_of_only hlt hothers weight
    have hthen : moveAt key
          (pending (fun j => (Function.update stages i stage' j).rest) jobs.length) =
        moveAt key stage'.rest := by
      funext weight
      rw [moveAt_pending_of_only hlt hothers', Function.update_self]
    rw [hnow, hthen]
    exact hstep.weights key
  · -- the call has nothing to do with it
    have hrest : key ∉ (stages i).rest.map Prod.fst :=
      fun hmem => hkey ((hprogress.holds i p message hi hjob).mem_moves hmem)
    have hsame : moveAt key
          (pending (fun j => (Function.update stages i stage' j).rest) jobs.length) =
        moveAt key (pending (fun j => (stages j).rest) jobs.length) := by
      funext weight
      refine moveAt_pending_congr ?_ ?_ hrest weight
      · intro j _ hne
        rw [Function.update_of_ne hne]
      · rw [Function.update_self]
        exact fun hmem => hkey (hrest' key hmem)
    have hbegun : moveAt key (begun.flatMap P.moves) = id := by
      funext weight
      exact moveAt_of_not_mem (hstep.not_mem_begun hkey) weight
    rw [hstep.others key hkey, hsame, hbegun, Option.map_id]
    rfl

omit hapart in
theorem Progress.fresh_step (hstage : stages i = .checked) :
    start.processedPredictions.has message.predictionId = false := by
  have hholds := hprogress.holds i p message hi hjob
  rw [hstage] at hholds
  cases hprocessed : start.processedPredictions.has message.predictionId with
  | false => rfl
  | true =>
    have hkeeps := hprogress.kept.keeps message.predictionId hprocessed
    rw [hholds.2] at hkeeps
    cases hkeeps

end

/-- **Making a call** keeps the invariant. -/
theorem Progress.call {p' : Service P.reg Bool} (hfine : NoFailure cfg)
    (hi : cfg.threads[i]? = some p) (hjob : jobs[i]? = some message) (hended : p.ended = false)
    (hstep : P.StepOf start message begun (stages i) stage' cfg.store s')
    (hholds' : P.Holds start (order ++ begun) s' message stage' p') :
    P.Progress start jobs ⟨s', cfg.threads.set i p'⟩ (order ++ begun)
      (Function.update stages i stage') := by
  have hlt : i < cfg.threads.length := (List.getElem?_eq_some_iff.mp hi).1
  have hlength := hprogress.length
  constructor
  · rw [length_set]
    exact hlength
  · intro j hj
    rw [Function.update_of_ne (by omega)]
    exact hprogress.idle j hj
  · intro j q message' hj hjob'
    by_cases hne : i = j
    · subst hne
      rw [List.getElem?_set_self hlt] at hj
      rw [hjob] at hjob'
      cases hj
      cases hjob'
      rw [Function.update_self]
      exact hholds'
    · rw [List.getElem?_set_ne hne] at hj
      rw [Function.update_of_ne (Ne.symm hne)]
      exact (hprogress.holds j q message' hj hjob').frame hstep
        fun hq => hapart i j p q message message' hne hi hj hended hq hjob hjob'
  · exact hprogress.weights_step hapart hi hjob hended hstep fun key hkey => hholds'.mem_moves hkey
  · exact hprogress.kept.step hstep (hprogress.applied i message hjob)
  · rcases hstep.begins with rfl | ⟨rfl, hstage, _⟩
    · rw [append_nil]
      exact hprogress.distinct
    · rw [map_append, map_singleton]
      exact hprogress.distinct.append (nodup_singleton _) (disjoint_singleton.mpr
        (hprogress.not_begun hapart hfine hi hjob hended hstage))
  · intro message' hmem
    rcases mem_append.mp hmem with hold | hnew
    · exact hprogress.fresh message' hold
    · rcases hstep.begins with rfl | ⟨rfl, hstage, hstands⟩
      · cases hnew
      · obtain rfl := mem_singleton.mp hnew
        exact ⟨hprogress.fresh_step hi hjob hstage, hstands⟩
  · intro message' hmem
    rcases mem_append.mp hmem with hold | hnew
    · obtain ⟨j, hjob', happlies⟩ := hprogress.begun message' hold
      refine ⟨j, hjob', ?_⟩
      by_cases hne : j = i
      · subst hne
        rw [Function.update_self]
        exact hstep.applies.mpr (Or.inl happlies)
      · rw [Function.update_of_ne hne]
        exact happlies
    · rcases hstep.begins with rfl | ⟨rfl, _⟩
      · cases hnew
      · obtain rfl := mem_singleton.mp hnew
        refine ⟨i, hjob, ?_⟩
        rw [Function.update_self]
        exact hstep.applies.mpr (Or.inr rfl)
  · intro j message' hjob' happlies
    by_cases hne : j = i
    · subst hne
      rw [hjob] at hjob'
      cases hjob'
      rw [Function.update_self] at happlies
      rcases hstep.applies.mp happlies with hold | rfl
      · exact mem_append_left begun (hprogress.applied j message hjob hold)
      · exact mem_append_right order mem_cons_self
    · rw [Function.update_of_ne hne] at happlies
      exact mem_append_left begun (hprogress.applied j message' hjob' happlies)

end

end

variable {acts : Nat → Action P.Scored Answer} {K : Nat}

/-- **The invariant holds throughout** a run without failures in which calls keep apart. -/
theorem progress_at (hanswers : ∀ k < K, ∀ i w, acts k = .run i w → w = {})
    (hfine : ∀ k ≤ K, NoFailure (configAt handle P.process ⟨start, []⟩ acts k))
    (hapart : ∀ k ≤ K, CallsApart (spawned acts k) (configAt handle P.process ⟨start, []⟩ acts k)) :
    ∀ k ≤ K, ∃ order stages, P.Progress start (spawned acts k)
      (configAt handle P.process ⟨start, []⟩ acts k) order stages := by
  intro k
  induction k with
  | zero => exact fun _ => ⟨[], fun _ => .arrived, progress_start start⟩
  | succ k ih =>
    intro hk
    obtain ⟨order, stages, hprogress⟩ := ih (by omega)
    have hfineNow := hfine k (by omega)
    have hapartNow := hapart k (by omega)
    have hfineNext := hfine (k+1) hk
    rw [configAt] at hfineNext ⊢
    generalize configAt handle P.process ⟨start, []⟩ acts k = cfg at *
    cases hact : acts k with
    | spawn message =>
      rw [spawned_succ_spawn hact]
      exact ⟨order, stages, hprogress.spawn message⟩
    | run i w =>
      rw [spawned_succ_run hact]
      rw [hact] at hfineNext
      obtain rfl := hanswers k (by omega) i w hact
      rcases cfg.step_cases handle P.process (.run i {} : Action P.Scored Answer) with
        ⟨j, hspawn, _⟩ | ⟨j, w, c, next, hrun, hi, hcfg⟩ | hcfg
      · cases hspawn
      · cases hrun
        obtain ⟨message, hjob⟩ := hprogress.job hi
        rw [hcfg] at hfineNext ⊢
        have hlt := (List.getElem?_eq_some_iff.mp hi).1
        have hadvance : (Proc.call c next).advance handle [{}] cfg.store =
            (next (handle {} c cfg.store).1, (handle {} c cfg.store).2) := by
          rw [advance_call, advance_nil]
        have hnext := (hprogress.holds i _ message hi hjob).advances hprogress.kept rfl
          (by rw [hadvance]; exact hfineNext _ (mem_set hlt _))
        unfold Advances at hnext
        rw [hadvance] at hnext
        obtain ⟨stage', begun, hstep, hholds'⟩ := hnext
        exact ⟨_, _, hprogress.call hapartNow hfineNow hi hjob rfl hstep hholds'⟩
      · rw [hcfg]
        exact ⟨order, stages, hprogress⟩

end Runs

/-- Process the messages one after another, undisturbed. -/
def processAll (P : CredibilityPipeline) : List P.Scored → Store → Except CredibilityError Store
  | [], s => .ok s
  | message :: rest, s =>
    match (P.process message).finish handle {} s with
    | (.ok _, s') => processAll P rest s'
    | (.error e, _) => .error e

variable {rest : List P.Scored}

theorem processAll_cons {applied : Bool}
    (hdone : (P.process message).finish handle {} s = (.ok applied, s')) :
    P.processAll (message :: rest) s = P.processAll rest s' := by
  rw [processAll, hdone]

theorem processAll_append (hdone : P.processAll messages s = .ok s') :
    P.processAll (messages ++ rest) s = P.processAll rest s' := by
  induction messages generalizing s with
  | nil =>
    cases hdone
    rfl
  | cons message messages ih =>
    rw [processAll] at hdone
    rw [cons_append, processAll]
    split at hdone
    · exact ih hdone
    · cases hdone

theorem processAll_processed (hprocessed : ∀ message ∈ messages,
      s.processedPredictions.has message.predictionId) : P.processAll messages s = .ok s := by
  induction messages with
  | nil => rfl
  | cons message rest ih =>
    rw [processAll_cons (process_of_processed (hprocessed message mem_cons_self))]
    exact ih fun later hlater => hprocessed later (mem_cons_of_mem message hlater)

/-- **Messages about new predictions make their moves in turn.** -/
theorem processAll_new (hdistinct : (messages.map PredictionScored.predictionId).Nodup)
    (hnew : ∀ message ∈ messages, s.processedPredictions.has message.predictionId = false ∧
      s.predictionStatuses message.predictionId ≠ some .withdrawn)
    (hprocessable : ∀ message ∈ messages, P.Processable s message) :
    ∃ s', P.processAll messages s = .ok s' ∧ s'.graph = s.graph.moveAll (messages.flatMap P.moves) ∧
        ∀ predictionId, s'.processedPredictions.has predictionId =
          (s.processedPredictions.has predictionId ||
            decide (predictionId ∈ messages.map PredictionScored.predictionId)) := by
  induction messages generalizing s with
  | nil => exact ⟨s, rfl, rfl, fun predictionId => by simp⟩
  | cons message rest ih =>
    rw [map_cons, nodup_cons] at hdistinct
    obtain ⟨hother, hdistinct'⟩ := hdistinct
    obtain ⟨hfresh, hstands⟩ := hnew message mem_cons_self
    obtain ⟨hvalid, hstray⟩ := hprocessable message mem_cons_self
    obtain ⟨s₁, hdone, hclaimed⟩ := process_finish hfresh hstands hvalid hstray
    have hgraph : s₁.graph = s.graph.moveAll (P.moves message) := hclaimed.graph
    have hhas : ∀ predictionId, s₁.processedPredictions.has predictionId =
        (s.processedPredictions.has predictionId ||
          decide (message.predictionId = predictionId)) := by
      intro predictionId
      rw [hclaimed.processed]
      exact has_insertNew _ _ _
    have hnew₁ : ∀ later ∈ rest, s₁.processedPredictions.has later.predictionId = false ∧
        s₁.predictionStatuses later.predictionId ≠ some .withdrawn := by
      intro later hlater
      obtain ⟨hfresh', hstands'⟩ := hnew later (mem_cons_of_mem message hlater)
      have hid : message.predictionId ≠ later.predictionId :=
        fun heq => hother (heq ▸ mem_map_of_mem hlater)
      rw [hhas, hfresh', hclaimed.statuses]
      exact ⟨decide_eq_false hid, hstands'⟩
    have hprocessable₁ : ∀ later ∈ rest, P.Processable s₁ later := by
      intro later hlater
      obtain ⟨hvalid', hstray'⟩ := hprocessable later (mem_cons_of_mem message hlater)
      refine ⟨hvalid', fun move hmove => ?_⟩
      rw [hgraph, stray_moveAll]
      exact hstray' move hmove
    obtain ⟨s', hrest, hgraph', hhas'⟩ := ih hdistinct' hnew₁ hprocessable₁
    refine ⟨s', (processAll_cons hdone).trans hrest, ?_, ?_⟩
    · rw [hgraph', hgraph, flatMap_cons]
      exact foldl_append.symm
    · intro predictionId
      rw [hhas', hhas, Bool.or_assoc, map_cons]
      congr 1
      simp [eq_comm]

/-- After `K` actions the weights are those of some order in which each delivered, standing
message is processed once. -/
def Serialises (P : CredibilityPipeline) (start : Store)
    (acts : Nat → Action P.Scored Answer) (K : Nat) : Prop :=
  ∃ order s', order.Nodup ∧ (∀ message, message ∈ order ↔ message ∈ spawned acts K ∧
      start.predictionStatuses message.predictionId ≠ some .withdrawn) ∧
    P.processAll order start = .ok s' ∧
    ∀ key, (configAt handle P.process ⟨start, []⟩ acts K).store.graph.weightOf key =
      s'.graph.weightOf key

section Runs

variable {jobs : List P.Scored}
  {cfg : Config (Surroundings P.reg) Store CredibilityError Bool} {stages : Nat → Stage}

/-- Every call has returned. -/
def AllReturned (cfg : Config (Surroundings P.reg) Store CredibilityError Bool) : Prop :=
  ∀ p ∈ cfg.threads, ∃ b, p = .ret b

/-- When all calls have returned, no call has failed before. -/
theorem AllReturned.noFailure {acts : Nat → Action P.Scored Answer} {K : Nat}
    (hreturned : AllReturned (configAt handle P.process ⟨start, []⟩ acts K)) (hle : k ≤ K) :
    NoFailure (configAt handle P.process ⟨start, []⟩ acts k) := by
  rintro p hp e rfl
  obtain ⟨i, hi⟩ := mem_iff_getElem?.mp hp
  have hlater := ended_stays rfl hle hi
  obtain ⟨b, hb⟩ := hreturned _ (mem_of_getElem? hlater)
  cases hb

section

variable (hprogress : P.Progress start jobs cfg order stages)

include hprogress

section

variable (hreturned : AllReturned cfg)

include hreturned

theorem Progress.finished {i : Nat} (hjob : jobs[i]? = some message) :
    ∃ applied p, stages i = .finished applied ∧
      P.Holds start order cfg.store message (.finished applied) p := by
  obtain ⟨p, hi⟩ := hprogress.thread hjob
  obtain ⟨b, rfl⟩ := hreturned p (mem_of_getElem? hi)
  have hholds := hprogress.holds i _ message hi hjob
  obtain ⟨applied, hstage⟩ := hholds.finished rfl fun e hfail => by cases hfail
  rw [hstage] at hholds
  exact ⟨applied, _, hstage, hholds⟩

theorem Progress.weights_end (key : EdgeKey) :
    cfg.store.graph.weightOf key =
      (start.graph.weightOf key).map (moveAt key (order.flatMap P.moves)) := by
  have hnone : ∀ i < jobs.length, key ∉ (stages i).rest.map Prod.fst := by
    intro i hi
    obtain ⟨applied, _, hstage, _⟩ :=
      hprogress.finished hreturned (List.getElem?_eq_getElem hi)
    rw [hstage]
    exact not_mem_nil
  have hstays : moveAt key (pending (fun i => (stages i).rest) jobs.length) = id := by
    funext weight
    exact moveAt_pending_of_none hnone weight
  have hweights := hprogress.weights key
  rw [hstays, Option.map_id] at hweights
  exact hweights

theorem Progress.processable (hmem : message ∈ order) : P.Processable start message := by
  obtain ⟨i, hjob, happlies⟩ := hprogress.begun message hmem
  obtain ⟨applied, p, hstage, hholds⟩ := hprogress.finished hreturned hjob
  rw [hstage] at happlies
  obtain rfl : applied := happlies
  exact hholds.2.2

/-- and every message was begun, or there was a reason not to. -/
theorem Progress.settled (hmem : message ∈ jobs) :
    start.processedPredictions.has message.predictionId ∨
      start.predictionStatuses message.predictionId = some .withdrawn ∨
        ∃ message' ∈ order, message'.predictionId = message.predictionId := by
  obtain ⟨i, hjob⟩ := mem_iff_getElem?.mp hmem
  obtain ⟨applied, p, hstage, hholds⟩ := hprogress.finished hreturned hjob
  cases applied with
  | true => exact hprogress.kept.processed message.predictionId hholds.2.1
  | false => exact hholds.2

end

end

open Classical in
/-- A run whose invariant holds to its end comes to a sequential one: first the messages as
they were begun, then those delivered again. -/
theorem Progress.serialises {acts : Nat → Action P.Scored Answer} {K : Nat}
    (hprogress : P.Progress start (spawned acts K)
      (configAt handle P.process ⟨start, []⟩ acts K) order stages)
    (hreturned : AllReturned (configAt handle P.process ⟨start, []⟩ acts K)) :
    P.Serialises start acts K := by
  obtain ⟨s', hdone, hgraph, hhas⟩ := processAll_new hprogress.distinct hprogress.fresh
    fun message hmem => hprogress.processable hreturned hmem
  let again := (spawned acts K).dedup.filter (fun message =>
    start.predictionStatuses message.predictionId ≠ some .withdrawn ∧ message ∉ order)
  have hmemAgain : ∀ message, message ∈ again ↔ message ∈ spawned acts K ∧
      start.predictionStatuses message.predictionId ≠ some .withdrawn ∧ message ∉ order := by
    intro message
    simp [again]
  have hprocessed : ∀ message ∈ again, s'.processedPredictions.has message.predictionId := by
    intro message hmem
    obtain ⟨hspawned, hstands, _⟩ := (hmemAgain message).mp hmem
    rw [hhas, Bool.or_eq_true]
    rcases hprogress.settled hreturned hspawned with hbefore | hwithdrawn | ⟨earlier, hearlier, hid⟩
    · exact Or.inl hbefore
    · exact absurd hwithdrawn hstands
    · exact Or.inr (decide_eq_true (hid ▸ mem_map_of_mem hearlier))
  refine ⟨order ++ again, s', ?_, ?_, ?_, ?_⟩
  · apply Nodup.append (Nodup.of_map _ hprogress.distinct)
    · exact (nodup_dedup _).filter _
    · intro message hmem hmem'
      exact ((hmemAgain message).mp hmem').2.2 hmem
  · intro message
    rw [mem_append, hmemAgain]
    constructor
    · rintro (hmem | ⟨hspawned, hstands, _⟩)
      · obtain ⟨i, hjob, _⟩ := hprogress.begun message hmem
        exact ⟨mem_of_getElem? hjob, (hprogress.fresh message hmem).2⟩
      · exact ⟨hspawned, hstands⟩
    · rintro ⟨hspawned, hstands⟩
      by_cases hmem : message ∈ order
      · exact Or.inl hmem
      · exact Or.inr ⟨hspawned, hstands, hmem⟩
  · rw [processAll_append hdone]
    exact processAll_processed hprocessed
  · intro key
    rw [hprogress.weights_end hreturned key, hgraph, weightOf_moveAll]

end Runs

/-- **Calls that keep apart come to a sequential run.**  When no two calls in progress share
a prediction or an edge, and all return, the weights are those of a sequential run. -/
theorem calls_apart_serialise (P : CredibilityPipeline) (start : Store)
    (acts : Nat → Action (PredictionScored P.reg) Answer) (K : Nat)
    (hanswers : ∀ k < K, ∀ i w, acts k = .run i w → w = {})
    (hreturned : AllReturned (configAt handle P.process ⟨start, []⟩ acts K))
    (hapart : ∀ k ≤ K, CallsApart (spawned acts k) (configAt handle P.process ⟨start, []⟩ acts k)) :
    P.Serialises start acts K := by
  obtain ⟨order, stages, hprogress⟩ :=
    progress_at hanswers (fun k hk => hreturned.noFailure hk) hapart K (Nat.le_refl K)
  exact hprogress.serialises hreturned

end CredibilityPipeline

open CredibilityPipeline

/-- Both calls have read their weight before either writes. -/
def sideBySide (first second : PredictionScored metalsPipeline.reg) (k : Nat) :
    Action (PredictionScored metalsPipeline.reg) Answer :=
  match k with
  | 0 => .spawn first
  | 1 => .spawn second
  | 2 | 3 | 4 | 8 | 9 => .run 0 {}
  | _ => .run 1 {}

theorem allReturned_of_returned
    {cfg : Config (Surroundings metalsPipeline.reg) Store CredibilityError Bool}
    (hreturned : (cfg.threads.all (fun p => p.returned.isSome))) : AllReturned cfg := by
  intro p hp
  obtain ⟨b, hb⟩ := isSome_iff_exists.mp (all_eq_true.mp hreturned p hp)
  exact ⟨b, eq_ret_of_returned hb⟩

def sanctionsMovedGold (predictionId : Uuid) : PredictionScored metalsPipeline.reg :=
  scoredGold predictionId [contributed "SANCTIONS->GOLD"]

/-- Gold's weight after the messages, one after another. -/
def goldAfter (messages : List (PredictionScored metalsPipeline.reg)) : Option Confidence :=
  (metalsPipeline.processAll messages sanctionsStore).toOption.bind
    fun s => s.graph.weightOf goldUnderSanctions

/-- Two predictions that share an edge, side by side: one move is lost. -/
theorem shared_edge_loses_a_move :
    AllReturned (configAt handle metalsPipeline.process ⟨sanctionsStore, []⟩
        (sideBySide (sanctionsMovedGold 1) (sanctionsMovedGold 2)) 12) ∧
      ¬ metalsPipeline.Serialises sanctionsStore
        (sideBySide (sanctionsMovedGold 1) (sanctionsMovedGold 2)) 12 := by
  constructor
  · apply allReturned_of_returned
    decide +kernel
  · rintro ⟨order, s', hnodup, hmem, hdone, hweights⟩
    have hdistinct : sanctionsMovedGold 1 ≠ sanctionsMovedGold 2 := by
      intro heq
      have hid := congrArg PredictionScored.predictionId heq
      revert hid
      decide
    have hperm : order.Perm [sanctionsMovedGold 1, sanctionsMovedGold 2] := by
      rw [perm_ext_iff_of_nodup hnodup (by simp [hdistinct])]
      intro message
      rw [hmem]
      exact and_iff_left fun hwithdrawn => by cases hwithdrawn
    have hfinal : (configAt handle metalsPipeline.process ⟨sanctionsStore, []⟩
        (sideBySide (sanctionsMovedGold 1) (sanctionsMovedGold 2)) 12).store.graph.weightOf
          goldUnderSanctions = goldAfter order := by
      rw [hweights, goldAfter, hdone]
      rfl
    revert hfinal
    rcases perm_pair.mp hperm with rfl | rfl
    · decide +kernel
    · decide +kernel

theorem sideBySide_apart {first second : PredictionScored metalsPipeline.reg}
    (hapart : Apart first second) (hk : k ≤ 12)
    (cfg : Config (Surroundings metalsPipeline.reg) Store CredibilityError Bool) :
    CallsApart (spawned (sideBySide first second) k) cfg := by
  intro i j p q message message' hne _ _ _ _ hjob hjob'
  have hprefix : spawned (sideBySide first second) k <+: [first, second] :=
    spawned_prefix (sideBySide first second) hk
  have hall : ∀ i message, (spawned (sideBySide first second) k)[i]? = some message →
      (i = 0 ∧ message = first) ∨ (i = 1 ∧ message = second) := by
    intro i message hget
    obtain ⟨later, hlater⟩ := hprefix
    have hlt := (List.getElem?_eq_some_iff.mp hget).1
    have hpair : [first, second][i]? = some message := by
      rw [← hlater, List.getElem?_append_left hlt, hget]
    match i with
    | 0 => exact Or.inl ⟨rfl, (some.inj hpair).symm⟩
    | 1 => exact Or.inr ⟨rfl, (some.inj hpair).symm⟩
    | _ + 2 => cases hpair
  rcases hall i message hjob with ⟨hi, rfl⟩ | ⟨hi, rfl⟩
  · rcases hall j message' hjob' with ⟨hj, _⟩ | ⟨_, rfl⟩
    · omega
    · exact hapart
  · rcases hall j message' hjob' with ⟨_, rfl⟩ | ⟨hj, _⟩
    · exact hapart.symm
    · omega

/-- Two predictions that share nothing may run side by side. -/
theorem separate_edges_serialise : metalsPipeline.Serialises sanctionsStore
      (sideBySide (sanctionsMovedGold 1) (scoredGold 2 [contributed "SANCTIONS->SILVER"])) 12 := by
  apply calls_apart_serialise
  · intro k _ i w hrun
    unfold sideBySide at hrun
    split at hrun <;> cases hrun <;> rfl
  · apply allReturned_of_returned
    decide +kernel
  · intro k hk
    refine sideBySide_apart ⟨by decide, ?_⟩ hk _
    intro edge hedge edge' hedge'
    obtain rfl := mem_singleton.mp hedge
    obtain rfl := mem_singleton.mp hedge'
    decide

end Credibility
