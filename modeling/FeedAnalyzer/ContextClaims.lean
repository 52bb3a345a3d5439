import Mathlib.Data.Int.ConditionallyCompleteOrder
import FeedAnalyzer.ContextClosing
import Mathlib.Data.Finset.Card
import Mathlib.Order.Monotone.Basic

/-!
# Which due contexts are claimed

A claim takes the twenty oldest due contexts and reads each row back as an asset id.
One whose asset has left the registry raises there and undoes the whole claim, and
since it keeps its place, every later one (`stale_stays`).  Where this does not happen,
every due context has its turn.
-/

namespace Prediction

open Feed Transact Calendar Proc List Store Table

variable {reg : Registry}

/-- A stream of sweeps whose claims meet no faults and no locks. -/
def sweepJobs (clock : Nat → Int) (tie : Uuid → Nat) (work : Nat → List (Answer reg)) (n : Nat) :
    Job reg × List (Answer reg) :=
  (.closeSweep, { now := clock n } :: { tie := tie } :: work n)

section Sweeps

variable (P : PredictionPipeline) (start : Store reg) (clock : Nat → Int) (tie : Uuid → Nat)
  (work : Nat → List (Answer reg)) {row : ContextRow} {n : Nat} {contextId : Uuid}

/-- The store before the `n`-th sweep. -/
def sweptAt (n : Nat) : Store reg := storeAt P start (sweepJobs clock tie work) n

/-- What the `n`-th sweep claims. -/
def claimedAt (n : Nat) : List Uuid :=
  claimedBy P (sweepJobs clock tie work n) (sweptAt P start clock tie work n)

/-- The time up to which windows are due at the `n`-th sweep. -/
def cutoffAt (n : Nat) : Int := clock n - P.settings.closeGraceMinutes * microsPerMinute

/-- The twenty oldest due contexts at the `n`-th sweep. -/
def batchAt (n : Nat) : List ContextRow :=
  (sweptAt P start clock tie work n).dueContexts tie (fun _ => false) (cutoffAt P clock n)

variable {P start clock tie work}

theorem recordOf_known (hknown : reg.isKnownAsset row.assetId) :
    ∃ record : ContextRecord reg, recordOf row = .ok record := by
  have hparse : AssetId.parse reg row.assetId = .ok ⟨row.assetId, hknown⟩ :=
    AssetId.parse_eq_ok_iff.mpr rfl
  unfold recordOf
  rw [hparse]
  exact ⟨_, rfl⟩

theorem recordOf_stale (hstale : reg.isKnownAsset row.assetId = false) :
    ∃ e, (recordOf row : Except PredictionError (ContextRecord reg)) = .error e := by
  obtain ⟨e, he⟩ := AssetId.parse_eq_error_iff.mpr hstale
  unfold recordOf
  rw [he]
  cases e <;> exact ⟨_, rfl⟩

/-- What the claim of the `n`-th sweep answers. -/
theorem claim_answer (P : PredictionPipeline) (clock : Nat → Int) (tie : Uuid → Nat) (n : Nat)
    (s : Store reg) :
    (handle P.tz { tie := tie } (.claimReadyContexts (clock n) P.settings.closeGraceMinutes) s).1 =
      (s.dueContexts tie (fun _ => false) (cutoffAt P clock n)).mapM recordOf := by
  simp only [handle, commit, Option.map_none, claimReadyContexts, cutoffAt]
  cases hread : (s.dueContexts tie (fun _ => false)
      (clock n - P.settings.closeGraceMinutes * microsPerMinute)).mapM (@Store.recordOf reg) with
  | _ => rfl

theorem claimedAt_of_known
    (hknown : ∀ row ∈ batchAt P start clock tie work n, reg.isKnownAsset row.assetId) :
    claimedAt P start clock tie work n =
      (batchAt P start clock tie work n).map ContextRow.contextId := by
  obtain ⟨records, hrecords⟩ := mapM_ok_of_forall fun row hrow => recordOf_known (hknown row hrow)
  have hids : records.map ContextRecord.contextId =
      (batchAt P start clock tie work n).map ContextRow.contextId :=
    map_of_mapM_ok (fun _ _ hread => (recordOf_eq_ok hread).1) hrecords
  have hclaim := claim_answer P clock tie n (sweptAt P start clock tie work n)
  simp only [claimedAt, claimedBy, sweepJobs]
  rw [hclaim, ← batchAt, hrecords]
  exact hids

theorem sweep_of_stale (hrow : row ∈ batchAt P start clock tie work n)
    (hstale : reg.isKnownAsset row.assetId = false) :
    claimedAt P start clock tie work n = [] ∧
      sweptAt P start clock tie work (n + 1) = sweptAt P start clock tie work n := by
  obtain ⟨e, he⟩ := recordOf_stale hstale
  obtain ⟨e', he'⟩ := mapM_error_of_mem hrow he
  have hclaim := (claim_answer P clock tie n (sweptAt P start clock tie work n)).trans he'
  constructor
  · simp only [claimedAt, claimedBy, sweepJobs]
    rw [hclaim]
  · change ((P.perform .closeSweep).advance (handle P.tz)
      ({ now := clock n } :: { tie := tie } :: work n) (sweptAt P start clock tie work n)).2 = _
    rw [advance_closeSweep, hclaim, onOk_error, advance_fail]
    exact handle_eq_error hclaim

/-- A sweep leaves the contexts that it does not claim as they are. -/
theorem find?_of_not_claimed (hnot : contextId ∉ claimedAt P start clock tie work n) :
    (sweptAt P start clock tie work (n + 1)).contexts.find? contextId =
      (sweptAt P start clock tie work n).contexts.find? contextId := by
  change ((P.perform .closeSweep).advance (handle P.tz)
    ({ now := clock n } :: { tie := tie } :: work n)
    (sweptAt P start clock tie work n)).2.contexts.find? contextId = _
  rw [advance_closeSweep]
  simp only [claimedAt, claimedBy, sweepJobs] at hnot
  generalize sweptAt P start clock tie work n = s at hnot ⊢
  cases hclaim : (handle P.tz { tie := tie }
      (.claimReadyContexts (clock n) P.settings.closeGraceMinutes) s).1 with
  | error e =>
    exact congrArg (fun s' => s'.contexts.find? contextId) (handle_eq_error hclaim)
  | ok claimed =>
    rw [hclaim] at hnot
    have hbefore := (claimReadyContexts_eq_ok (commit_eq_ok hclaim).2).2.2.2.1 contextId hnot
    refine Eq.trans ?_ hbefore
    exact Avoids.advance_preserves (PredictionPipeline.closeClaimed_calls claimed)
      (fun w c s' hc hs' => (handle_other_context P.tz (not_not.mp hc) hnot w s').trans hs')
      (work n) rfl

/-- A stale context in the batch is in every later batch: what becomes due
later has a later window. -/
theorem stale_stays (hclock : Monotone clock) {m : Nat} (hle : n ≤ m)
    (hrow : row ∈ batchAt P start clock tie work n)
    (hstale : reg.isKnownAsset row.assetId = false) :
    row ∈ batchAt P start clock tie work m := by
  induction hle with
  | refl => exact hrow
  | @step m _ hbefore =>
    have hcutoff : cutoffAt P clock m ≤ cutoffAt P clock m.succ := by
      have hstep : clock m ≤ clock m.succ := hclock (Nat.le_succ m)
      simp only [cutoffAt]
      omega
    unfold batchAt at hbefore ⊢
    rw [(sweep_of_stale hbefore hstale).2]
    refine mem_selectOrdered_of_later ?_ ?_ hbefore
    · intro a _ ha
      simp only [dueAt, decide_eq_true_eq] at ha ⊢
      exact ⟨⟨ha.1.1, by omega⟩, ha.2⟩
    · intro a _ b _ ha hb hb'
      simp only [dueAt, decide_eq_true_eq, decide_eq_false_iff_not, not_and] at ha hb hb'
      have hlate : ¬ b.windowEnd ≤ cutoffAt P clock m := fun hdue => hb ⟨hb'.1.1, hdue⟩ hb'.2
      omega

/-- The contexts of the start that wait before the `n`-th sweep. -/
noncomputable def waitingAt (P : PredictionPipeline) (start : Store reg) (clock : Nat → Int)
    (tie : Uuid → Nat) (work : Nat → List (Answer reg)) (n : Nat) : Finset Uuid :=
  open Classical in
  (start.contexts.rows.map ContextRow.contextId).toFinset.filter
    fun contextId => (sweptAt P start clock tie work n).Waiting contextId

/-- No context appears during sweeps. -/
theorem known_of_waiting (hwaiting : (sweptAt P start clock tie work n).Waiting contextId) :
    contextId ∈ start.contexts.rows.map ContextRow.contextId := by
  by_contra hunknown
  have hnone : ∀ n, (sweptAt P start clock tie work n).contexts.find? contextId = none := by
    intro n
    induction n with
    | zero =>
      refine find?_eq_none_iff.mpr fun row hrow hid => ?_
      exact hunknown (mem_map.mpr ⟨row, hrow, hid⟩)
    | succ n ih =>
      rw [find?_of_not_claimed, ih]
      intro hclaimed
      obtain ⟨state, hstate, _⟩ := waiting_of_claimedBy hclaimed
      have hlookup : ((sweptAt P start clock tie work n).contexts.find? contextId).map
          ContextRow.state = some state := hstate
      rw [ih] at hlookup
      cases hlookup
  obtain ⟨state, hstate, _⟩ := hwaiting
  rw [stateOf, hnone n] at hstate
  cases hstate

theorem waitingAt_succ_subset (n : Nat) :
    waitingAt P start clock tie work (n + 1) ⊆ waitingAt P start clock tie work n := by
  intro contextId hmem
  simp only [waitingAt, Finset.mem_filter] at hmem ⊢
  refine ⟨hmem.1, ?_⟩
  by_cases hclaimed : contextId ∈ claimedAt P start clock tie work n
  · exact absurd hmem.2 (closed_of_claimedBy hclaimed).not_waiting
  · obtain ⟨state, hstate, hjoinable⟩ := hmem.2
    rw [stateOf, find?_of_not_claimed hclaimed] at hstate
    exact ⟨state, hstate, hjoinable⟩

/-- A sweep that claims something leaves fewer contexts waiting. -/
theorem waitingAt_decreases (hclaimed : contextId ∈ claimedAt P start clock tie work n) :
    (waitingAt P start clock tie work (n + 1)).card <
      (waitingAt P start clock tie work n).card := by
  refine Finset.card_lt_card ⟨waitingAt_succ_subset n, fun hsub => ?_⟩
  have hwaiting := waiting_of_claimedBy hclaimed
  have hmem : contextId ∈ waitingAt P start clock tie work n := by
    simp only [waitingAt, Finset.mem_filter, mem_toFinset]
    exact ⟨known_of_waiting hwaiting, hwaiting⟩
  have hstill := hsub hmem
  simp only [waitingAt, Finset.mem_filter] at hstill
  exact (closed_of_claimedBy hclaimed).not_waiting hstill.2

/-- A measure that every step decreases until something happens. -/
private theorem exists_of_descent (measure : Nat → Nat) (happens : Nat → Prop)
    (hstep : ∀ n, ¬ happens n → measure (n + 1) < measure n) : ∃ n, happens n := by
  by_contra hnever
  push Not at hnever
  have hbound : ∀ n, measure n + n ≤ measure 0 := by
    intro n
    induction n with
    | zero => omega
    | succ n ih =>
      have hlt := hstep n (hnever n)
      omega
  have hlast := hbound (measure 0 + 1)
  omega

/-- **Every due context has its turn, or a stale one blocks it.**  It is claimed after
finitely many sweeps exactly when, while it waits, no context of an unregistered asset is
among the twenty oldest due ones. -/
theorem due_context_claimed_iff (hclock : Monotone clock) {row : ContextRow}
    (hrow : row ∈ start.contexts) (hdue : Store.dueAt (cutoffAt P clock 0) row = true) :
    (∃ n, row.contextId ∈ claimedAt P start clock tie work n) ↔
      ∀ n, (sweptAt P start clock tie work n).Waiting row.contextId →
        ∀ r ∈ batchAt P start clock tie work n, reg.isKnownAsset r.assetId = true := by
  constructor
  · rintro ⟨n, hclaimed⟩ m hwaiting r hr
    by_contra hstale
    rw [Bool.not_eq_true] at hstale
    have hle : m ≤ n := by
      by_contra hlt
      exact (closed_stays (by omega : n + 1 ≤ m) (closed_of_claimedBy hclaimed)).not_waiting hwaiting
    rw [(sweep_of_stale (stale_stays hclock hle hr hstale) hstale).1] at hclaimed
    cases hclaimed
  · intro hunblocked
    by_contra hnever
    push Not at hnever
    -- while it is not claimed, the context is in the table as it was
    have hkept : ∀ n, row ∈ (sweptAt P start clock tie work n).contexts := by
      intro n
      have hfind : (sweptAt P start clock tie work n).contexts.find? row.contextId = some row := by
        induction n with
        | zero => exact find?_eq_some_iff.mpr ⟨hrow, rfl⟩
        | succ n ih => rw [find?_of_not_claimed (hnever n), ih]
      exact (find?_eq_some_iff.mp hfind).1
    simp only [dueAt, decide_eq_true_eq] at hdue
    obtain ⟨n, hempty⟩ := exists_of_descent (fun n => (waitingAt P start clock tie work n).card)
      (fun n => claimedAt P start clock tie work n = []) (fun n hsome => by
        obtain ⟨contextId, hclaimed⟩ := exists_mem_of_ne_nil _ hsome
        exact waitingAt_decreases hclaimed)
    have hwaiting : (sweptAt P start clock tie work n).Waiting row.contextId :=
      ⟨row.state, stateOf_of_mem (hkept n), hdue.1⟩
    have hclaim := claimedAt_of_known (hunblocked n hwaiting)
    have hcutoff : cutoffAt P clock 0 ≤ cutoffAt P clock n := by
      have hle : clock 0 ≤ clock n := hclock (Nat.zero_le n)
      simp only [cutoffAt]
      omega
    have hbatch : batchAt P start clock tie work n ≠ [] := by
      refine selectOrdered_ne_nil (hkept n) ?_ (by decide)
      simp only [dueAt, decide_eq_true_eq]
      exact ⟨⟨hdue.1, by omega⟩, trivial⟩
    rw [hempty] at hclaim
    exact hbatch (map_eq_nil_iff.mp hclaim.symm)

end Sweeps

/-- Gold's window from a quarter past to half past the hour. -/
def goldContext : ContextRow :=
  ⟨2, "GOLD", 15 * microsPerMinute, 30 * microsPerMinute, 1, .opened, 16 * microsPerMinute⟩

/-- An older window of an asset that the registry does not declare. -/
def retiredContext : ContextRow :=
  ⟨1, "SILVER", 0, 15 * microsPerMinute, 1, .opened, microsPerMinute⟩

def goldAlone : Store goldRegistry :=
  { (∅ : Store goldRegistry) with
    contexts := (∅ : Table ContextRow.contextId).insertNew goldContext
    version_nodup := by decide }

def goldBehindRetired : Store goldRegistry :=
  { (∅ : Store goldRegistry) with
    contexts := ((∅ : Table ContextRow.contextId).insertNew retiredContext).insertNew goldContext
    version_nodup := by decide }

/-- One sweep a minute, from one o'clock on. -/
def minutely (n : Nat) : Int := (60 + n) * microsPerMinute

theorem minutely_monotone : Monotone minutely := by
  intro n m hle
  simp only [minutely, microsPerMinute]
  omega

/-- Alone, gold's context is claimed, and so it was never blocked. -/
theorem gold_alone_claimed :
    (∃ n, 2 ∈ claimedAt utcPipeline goldAlone minutely id (fun _ => []) n) ∧
      ∀ n, (sweptAt utcPipeline goldAlone minutely id (fun _ => []) n).Waiting 2 →
        ∀ r ∈ batchAt utcPipeline goldAlone minutely id (fun _ => []) n,
          goldRegistry.isKnownAsset r.assetId = true := by
  have hclaimed : ∃ n, goldContext.contextId ∈
      claimedAt utcPipeline goldAlone minutely id (fun _ => []) n := ⟨0, by decide +kernel⟩
  have hrow : goldContext ∈ goldAlone.contexts :=
    mem_rows.mp (by decide +kernel : goldContext ∈ goldAlone.contexts.rows)
  have hdue : dueAt (cutoffAt utcPipeline minutely 0) goldContext := by decide +kernel
  exact ⟨hclaimed, (due_context_claimed_iff minutely_monotone hrow hdue).mp hclaimed⟩

/-- **A retired asset blocks gold.**  Gold's context is due at the first sweep, and no sweep
claims it. -/
theorem retired_asset_blocks_gold : goldContext ∈ goldBehindRetired.contexts.rows ∧
      goldRegistry.isKnownAsset goldContext.assetId = true ∧
      Store.dueAt (cutoffAt utcPipeline minutely 0) goldContext = true ∧
      ∀ (work : Nat → List (Answer goldRegistry)) (n : Nat),
        goldContext.contextId ∉ claimedAt utcPipeline goldBehindRetired minutely id work n := by
  refine ⟨by decide +kernel, by decide +kernel, by decide +kernel, fun work n hclaimed => ?_⟩
  have hfirst : retiredContext ∈ batchAt utcPipeline goldBehindRetired minutely id work 0 := by
    change retiredContext ∈ goldBehindRetired.dueContexts id (fun _ => false)
      (cutoffAt utcPipeline minutely 0)
    decide +kernel
  have hstale : goldRegistry.isKnownAsset retiredContext.assetId = false := by decide +kernel
  have hblocked := stale_stays minutely_monotone (Nat.zero_le n) hfirst hstale
  rw [(sweep_of_stale hblocked hstale).1] at hclaimed
  cases hclaimed

end Prediction
