import Mathlib.Data.Nat.Pairing
import FeedAnalyzer.RequestSettlement

/-!
# Every request comes to an end

A request is settled at the latest by its first attempt past the grace window, except,
as `settlesInTime_iff` says, when the attempt raises or meets invalid data, or is never
made because an older request's exception ends every tick first.
-/

namespace MarketData

open Feed Transact Calendar Proc List Store Table Option PriceRequestProcessor

variable {requestId : Uuid}

section Due

variable {reg : Registry}

namespace Store

variable {s : Store reg} {now : Int} {tie : Uuid → Nat} {request : PendingRequest reg}

theorem mem_openRequests_iff : request ∈ s.openRequests now tie ↔
      ∃ row ∈ s.priceRequests, row.isDue now ∧
        PendingRequest.ofRow reg row = some request := by
  unfold openRequests
  rw [mem_filterMap]
  constructor
  · intro hmem
    obtain ⟨row, hrow, hread⟩ := hmem
    obtain ⟨hrow, hdue⟩ := mem_selectOrdered_iff.mp hrow
    exact ⟨row, hrow, hdue, hread⟩
  · intro hmem
    obtain ⟨row, hrow, hdue, hread⟩ := hmem
    exact ⟨row, mem_selectOrdered_iff.mpr ⟨hrow, hdue⟩, hread⟩

private theorem map_filterMap_sublist (rows : List PriceRequestRow) :
    ((rows.filterMap (PendingRequest.ofRow reg)).map PendingRequest.requestId).Sublist
      (rows.map PriceRequestRow.requestId) := by
  induction rows with
  | nil => exact Sublist.refl _
  | cons row rows ih =>
    cases hread : PendingRequest.ofRow reg row with
    | none =>
      rw [filterMap_cons_none hread, map_cons]
      exact ih.cons _
    | some request =>
      rw [filterMap_cons_some hread, map_cons, map_cons, (PendingRequest.ofRow_eq_some hread).1]
      exact ih.cons_cons _

theorem openRequests_others {ahead behind : List (PendingRequest reg)}
    (hdue : s.openRequests now tie = ahead ++ request :: behind) :
    (∀ other ∈ ahead, other.requestId ≠ request.requestId) ∧
      ∀ other ∈ behind, other.requestId ≠ request.requestId := by
  have hnodup : ((s.openRequests now tie).map PendingRequest.requestId).Nodup :=
    (nodup_map_selectOrdered s.priceRequests.nodup).sublist (map_filterMap_sublist _)
  rw [hdue, map_append, map_cons, nodup_append] at hnodup
  obtain ⟨_, hbehind, hdisjoint⟩ := hnodup
  constructor
  · intro other hmem
    exact hdisjoint _ (mem_map_of_mem hmem) _ mem_cons_self
  · intro other hmem heq
    apply (nodup_cons.mp hbehind).1
    rw [← heq]
    exact mem_map_of_mem hmem

theorem Settled.not_due (hsettled : s.Settled requestId) :
    ∀ request ∈ s.openRequests now tie, request.requestId ≠ requestId := by
  intro request hmem hid
  obtain ⟨row, hrow, hdue, hread⟩ := mem_openRequests_iff.mp hmem
  have hfind : s.priceRequests.find? requestId = some row :=
    find?_eq_some_iff.mpr ⟨hrow, (PendingRequest.ofRow_eq_some hread).1.symm.trans hid⟩
  have hstate : s.stateOf requestId = some row.state := by simp [stateOf, hfind]
  have hopen : row.state.isOpen := by
    exact (Bool.and_eq_true_iff.mp hdue).1
  exact not_settled_of_isOpen hstate hopen hsettled

end Store

end Due

section Kept

variable {reg : Registry} {requestId : Uuid}

/-- The columns of a request that are never written again. -/
def PriceRequestRow.subject (row : PriceRequestRow) : String × Int :=
  (row.assetId, row.settlementSession)

/-- The request is registered, with this asset and settlement. -/
def Store.Subject (requestId : Uuid) (subject : String × Int) (s : Store reg) : Prop :=
  (s.priceRequests.find? requestId).map PriceRequestRow.subject = some subject

section

variable {s : Store reg} {subject : String × Int} (hs : s.Subject requestId subject)

include hs

theorem subject_updateRequests (p : PriceRequestRow → Bool)
    {f : PriceRequestRow → PriceRequestRow} (hf : ∀ row, (f row).requestId = row.requestId)
    (hsubject : ∀ row, (f row).subject = row.subject) :
    (s.updateRequests p f hf).Subject requestId subject :=
  (column_update_other s.priceRequests p hf hsubject requestId).trans hs

theorem subject_upsertObservation (assetId : AssetId reg) (observation : CloseObservation) :
    (s.upsertObservation assetId observation).Subject requestId subject := by
  unfold upsertObservation
  split <;> exact hs

/-- No call changes the subject. -/
theorem handle_subject (w : Env reg) (c : Call reg) :
    (handle w c s).2.Subject requestId subject := by
  cases c with
  | registerRequest message =>
    apply commit_rule hs
    intro _ s' hok
    cases hok
    obtain ⟨row, hfind, hrow⟩ := map_eq_some_iff.mp hs
    show ((s.priceRequests.insertNew _).find? requestId).map _ = _
    rw [find?_insertNew, hfind]
    exact congrArg some hrow
  | loadOpenRequests =>
    exact commit_done hs rfl hs
  | markBaselineObserved target assetId baseline =>
    exact commit_done hs rfl
      (subject_updateRequests (subject_upsertObservation hs _ _) _ _ fun _ => rfl)
  | completeRequest message =>
    apply commit_rule hs
    intro _ s' hok
    unfold completeRequest at hok
    split at hok
    · cases hok
      exact subject_upsertObservation (subject_upsertObservation hs _ _) _ _
    · split at hok
      · cases hok
      · cases hok
        exact subject_updateRequests hs _ PriceRequestRow.requestId_toCompleted fun _ => rfl
  | recordFailure target error next =>
    exact commit_done hs rfl (subject_updateRequests hs _ _ fun _ => rfl)
  | abandonRequest target reason =>
    exact commit_done hs rfl (subject_updateRequests hs _ _ fun _ => rfl)
  | pendingOutbox batchSize =>
    exact commit_done hs rfl hs
  | publish message =>
    simp only [handle]
    split <;> exact hs
  | recordPublishError messageId error =>
    exact commit_done hs rfl hs
  | markDelivered messageId =>
    exact commit_done hs rfl hs
  | _ => exact hs

end

/-- A registered request that has a message is settled. -/
def Store.SentSettled (requestId : Uuid) (s : Store reg) : Prop :=
  (∃ state, s.stateOf requestId = some state) ∧
    (s.outbox.has requestId = true → s.Settled requestId)

theorem handle_sentSettled (w : Env reg) (c : Call reg) (s : Store reg)
    (hs : s.SentSettled requestId) : (handle w c s).2.SentSettled requestId := by
  obtain ⟨⟨state, hstate⟩, hsent⟩ := hs
  cases handle_effect w c s requestId with
  | same hsame hrow =>
    refine ⟨⟨state, hsame.trans hstate⟩, ?_⟩
    intro hhas
    unfold Settled
    rw [hsame]
    exact hsent (hrow.symm.trans hhas)
  | registered hnew _ _ =>
    rw [hnew] at hstate
    cases hstate
  | observed hpending hobserved hrow =>
    refine ⟨⟨_, hobserved⟩, ?_⟩
    intro hhas
    exact absurd (hsent (hrow.symm.trans hhas)) (not_settled_of_isOpen hpending rfl)
  | completed message _ _ _ _ _ hcompleted _ =>
    rw [hstate] at hcompleted
    exact ⟨⟨_, hcompleted⟩, fun _ => Or.inl hcompleted⟩
  | abandoned reason _ _ habandoned _ =>
    rw [hstate] at habandoned
    exact ⟨⟨_, habandoned⟩, fun _ => Or.inr habandoned⟩

end Kept

namespace PriceRequestProcessor

variable (P : PriceRequestProcessor)

def ticksAt (start : Store P.registry) (w : Nat → Env P.registry) : Nat → Store P.registry
  | 0 => start
  | n+1 => (P.runSchedulerTick.finish handle (w n) (ticksAt start w n)).2

/-- The database works, time passes, drawn message ids differ, and local time is less than a
day from UTC.  The providers and the sample reader answer as they like. -/
structure EndlessTicks (start : Store P.registry) (w : Nat → Env P.registry) : Prop where
  faultless : ∀ n c, (w n).fault c = none
  passes : ∀ time, ∃ N, ∀ n, N ≤ n → ∀ c, time ≤ (w n).clock c
  distinct : ∀ m n x y, (w m).messageId x = (w n).messageId y → m = n ∧ x = y
  unused : ∀ n x, ∀ row ∈ start.outbox, row.messageId ≠ (w n).messageId x
  offsets : OffsetsWithinDay P.tz

/-- The requests that the loop gets to. -/
def reached (w : Env P.registry) (now : Int) : List P.Pending → Store P.registry → List Uuid
  | [], _ => []
  | request :: rest, s =>
    request.requestId ::
      match (P.attempt request now).finish handle w s with
      | (.ok _, s') => reached w now rest s'
      | (.error _, _) => []

/-- The requests that a tick attempts. -/
def attemptedIn (w : Env P.registry) (s : Store P.registry) : List Uuid :=
  match (handle w .loadOpenRequests s).1 with
  | .ok due => P.reached w (w.clock (.currentTime .tick)) due s
  | .error _ => []

variable {P} {s : Store P.registry} {n : Nat} {ahead : List P.Pending} {request : P.Pending}

/-- The loop gets to a request exactly when the attempts ahead of it are
contained. -/
theorem mem_reached_iff {w : Env P.registry} (hdistinct : Function.Injective w.messageId)
    (now : Int) (requestId : Uuid) (requests : List P.Pending) (hown : OwnIds w s) :
    requestId ∈ P.reached w now requests s ↔
      ∃ ahead request behind, requests = ahead ++ request :: behind ∧
        request.requestId = requestId ∧ ∀ other ∈ ahead, P.Contained w other now := by
  induction requests generalizing s with
  | nil =>
    constructor
    · intro hmem
      cases hmem
    · intro hsplit
      obtain ⟨ahead, request, behind, hnil, _⟩ := hsplit
      exact absurd hnil.symm (append_ne_nil_of_right_ne_nil ahead (cons_ne_nil _ _))
  | cons first rest ih =>
    have hcalm := process_calm_iff (idFree_of_ownIds hown first.requestId) now
    have hkept := (ownIds_attempt hdistinct first).process now s hown
    have htail : requestId ∈ P.reached w now (first :: rest) s ↔
        requestId = first.requestId ∨ P.Contained w first now ∧
          requestId ∈ P.reached w now rest ((P.process first now).finish handle w s).2 := by
      rw [reached, mem_cons]
      by_cases hends : Calm ((P.process first now).finish handle w s).1
      · rw [attempt_calm hends]
        simp only [hcalm.mp hends, true_and]
      · obtain ⟨e, hrun⟩ := attempt_escapes hends
        have hescapes : ¬ P.Contained w first now := fun h => hends (hcalm.mpr h)
        rw [hrun]
        simp only [hescapes, false_and, not_mem_nil]
    rw [htail, ih hkept]
    constructor
    · intro hcases
      rcases hcases with heq | ⟨hfirst, ahead, request, behind, hrest, hid, hahead⟩
      · exact ⟨[], first, rest, rfl, heq.symm, fun other hmem => by cases hmem⟩
      · refine ⟨first :: ahead, request, behind, by rw [hrest]; rfl, hid, ?_⟩
        exact forall_mem_cons.mpr ⟨hfirst, hahead⟩
    · intro hsplit
      obtain ⟨ahead, request, behind, hlist, hid, hahead⟩ := hsplit
      cases ahead with
      | nil =>
        cases hlist
        exact Or.inl hid.symm
      | cons other ahead =>
        cases hlist
        obtain ⟨hfirst, hahead⟩ := forall_mem_cons.mp hahead
        exact Or.inr ⟨hfirst, ahead, request, behind, rfl, hid, hahead⟩

section Run

variable {start : Store P.registry} {w : Nat → Env P.registry} {requestId : Uuid}

variable (P start w) in
/-- The requests that tick `n` loads. -/
abbrev dueAt (n : Nat) : List P.Pending :=
  (P.ticksAt start w n).openRequests ((w n).clock .loadOpenRequests) (w n).tie

variable (w) in
/-- No exception of these requests ends the loop of tick `n`. -/
abbrev AllContained (n : Nat) (ahead : List P.Pending) : Prop :=
  ∀ other ∈ ahead, P.Contained (w n) other ((w n).clock (.currentTime .tick))

theorem ticksAt_of_handle {Inv : Store P.registry → Prop}
    (hcall : ∀ (w : Env P.registry) c s, Inv s → Inv (handle w c s).2) (hstart : Inv start)
    (n : Nat) : Inv (P.ticksAt start w n) := by
  induction n with
  | zero => exact hstart
  | succ n ih => exact preserves_of_handle (hcall (w n)) P.runSchedulerTick _ ih

/-- Every message id in the outbox is old or of this tick. -/
private def DrawnOr (w : Env P.registry) (old : Uuid → Prop) (s : Store P.registry) : Prop :=
  ∀ row ∈ s.outbox, old row.messageId ∨ ∃ x, row.messageId = w.messageId x

variable {old : Uuid → Prop} {s' : Store P.registry}

private theorem drawnOr_updateOutbox {w : Env P.registry} (hs : DrawnOr w old s) (messageId : Uuid)
    (f : OutboxRow P.registry → OutboxRow P.registry)
    (hf : ∀ row, (f row).aggregateId = row.aggregateId)
    (hid : ∀ row, (f row).messageId = row.messageId) :
    DrawnOr w old (s.updateOutbox messageId f hf hid) := by
  intro row hrow
  have hrow : row ∈ s.outbox.updateWhere (fun row => row.messageId = messageId) f hf := hrow
  obtain ⟨before, hbefore, heq⟩ := mem_updateWhere.mp hrow
  have hsame : row.messageId = before.messageId := by
    rw [← heq]
    split
    · exact hid before
    · rfl
  rw [hsame]
  exact hs before hbefore

private theorem drawnOr_tick {w : Env P.registry} (hload : w.fault .loadOpenRequests = none)
    (hs : DrawnOr w old s) : DrawnOr w old (P.runSchedulerTick.finish handle w s).2 := by
  rw [finish_runSchedulerTick hload rfl]
  apply driveAt_preserves
  · exact fun request _ => attemptKeeps_rows (fun _ => Iff.rfl) fun _ _ _ hid => Or.inr ⟨_, hid⟩
  · exact publishPending_preserves fun s messageId f hf hid hs =>
      drawnOr_updateOutbox hs messageId f hf hid
  · exact hs

theorem stateOf_of_holds (hholds : Leaves requestId s s') :
    s'.stateOf requestId = s.stateOf requestId := by
  unfold stateOf
  rw [hholds.1]

theorem settled_of_holds (hholds : Leaves requestId s s') :
    s'.Settled requestId ↔ s.Settled requestId := by
  unfold Settled
  rw [stateOf_of_holds hholds]

section

variable (hrun : P.EndlessTicks start w)

include hrun

/-- Ids stay fresh at every tick. -/
theorem EndlessTicks.fresh (n : Nat) : FreshIds (w n) (P.ticksAt start w n) := by
  have hold : ∀ n, ∀ row ∈ (P.ticksAt start w n).outbox, ∀ m, n ≤ m → ∀ x,
      row.messageId ≠ (w m).messageId x := by
    intro n
    induction n with
    | zero => exact fun row hrow m _ x => hrun.unused m x row hrow
    | succ n ih =>
      have hdrawn : DrawnOr (w n) (fun id => ∀ m, n ≤ m → ∀ x, id ≠ (w m).messageId x)
          (P.ticksAt start w (n+1)) := by
        apply drawnOr_tick (hrun.faultless n _)
        exact fun row hrow => Or.inl (ih row hrow)
      intro row hrow m hm x heq
      rcases hdrawn row hrow with hbefore | ⟨y, hy⟩
      · exact hbefore m (by omega) x heq
      · have hsame := (hrun.distinct n m y x (hy.symm.trans heq)).1
        omega
  constructor
  · exact fun x row hrow => hold n row hrow n (Nat.le_refl n) x
  · exact fun x y heq => (hrun.distinct n n x y heq).2

theorem EndlessTicks.ownIds (n : Nat) : OwnIds (w n) (P.ticksAt start w n) :=
  fun x row hrow hid => absurd hid ((hrun.fresh n).unused x row hrow)

theorem EndlessTicks.mem_attemptedIn_iff (n : Nat) :
    requestId ∈ P.attemptedIn (w n) (P.ticksAt start w n) ↔ ∃ ahead request behind,
        P.dueAt start w n = ahead ++ request :: behind ∧ request.requestId = requestId ∧
        AllContained w n ahead := by
  have hload : (handle (w n) .loadOpenRequests (P.ticksAt start w n)).1 =
      .ok (P.dueAt start w n) := by
    simp only [handle, Env.error, hrun.faultless, map_none, commit, loadOpenRequests]
  unfold attemptedIn
  rw [hload]
  exact mem_reached_iff (hrun.fresh n).distinct _ requestId _ (hrun.ownIds n)

theorem EndlessTicks.settled_stays {m : Nat} (hle : m ≤ n)
    (hsettled : (P.ticksAt start w m).Settled requestId) :
    (P.ticksAt start w n).Settled requestId := by
  induction hle with
  | refl => exact hsettled
  | @step n hle ih =>
    exact (settled_of_holds (holds_tick_of_not_due (hrun.faultless n _) ih.not_due)).mpr ih

/-- **The step.**  Past its grace window, a request that the loop gets to is
settled exactly when the answers settle it. -/
theorem EndlessTicks.settled_succ_iff {behind : List P.Pending}
    (hsent : (P.ticksAt start w n).SentSettled request.requestId)
    (hdue : P.dueAt start w n = ahead ++ request :: behind) (hcontained : AllContained w n ahead)
    (hgrace : request.settlementSession + P.abandonAfterDays <
      (w n).clock (.currentTime .tick) / microsPerDay) :
    (P.ticksAt start w (n+1)).Settled request.requestId ↔
      P.Settles (w n) request ((w n).clock (.currentTime .tick)) := by
  obtain ⟨hahead, hbehind⟩ := openRequests_others hdue
  obtain ⟨s', hbefore, hown, hafter⟩ := tick_of_served (hrun.faultless n _)
    (hrun.fresh n).distinct (hrun.ownIds n) hdue hahead hbehind hcontained
  have hmem : request ∈ P.dueAt start w n := by
    rw [hdue]
    exact mem_append_right _ mem_cons_self
  have hopen : ¬ (P.ticksAt start w n).Settled request.requestId :=
    fun hsettled => hsettled.not_due request hmem rfl
  have hlive : Live s' request.requestId := by
    obtain ⟨⟨state, hstate⟩, hmessage⟩ := hsent
    constructor
    · refine ⟨state, (stateOf_of_holds hbefore).trans hstate, ?_⟩
      cases state with
      | pending | baselineObserved => rfl
      | completed => exact absurd (Or.inl hstate) hopen
      | abandoned => exact absurd (Or.inr hstate) hopen
    · rw [hbefore.2]
      exact Bool.eq_false_iff.mpr fun hhas => hopen (hmessage hhas)
  have hend := hafter _ _ ⟨rfl, rfl⟩
  rw [← settled_process_iff (hrun.faultless n) hlive hgrace (idFree_of_ownIds hown _) hrun.offsets]
  exact settled_of_holds hend

end

end Run

section Progress

variable (P) (start : Store P.registry) (w : Nat → Env P.registry) (row : PriceRequestRow)

/-- The grace window of the request is over in tick `n`. -/
def GraceOver (n : Nat) : Prop :=
  row.settlementSession + P.abandonAfterDays < (w n).clock (.currentTime .tick) / microsPerDay

/-- In tick `n` the request is due, behind these others. -/
def DueBehind (n : Nat) (ahead : List P.Pending) (request : P.Pending) : Prop :=
  request.requestId = row.requestId ∧
    ∃ behind, (P.ticksAt start w n).openRequests ((w n).clock .loadOpenRequests) (w n).tie =
      ahead ++ request :: behind

/-- **Settled in time**, at the latest by the first attempt past the grace window. -/
def SettlesInTime : Prop :=
  (∃ n, (P.ticksAt start w n).Settled row.requestId) ∧
    ∀ n, row.requestId ∈ P.attemptedIn (w n) (P.ticksAt start w n) → P.GraceOver w row n →
      (P.ticksAt start w (n+1)).Settled row.requestId

/-- Past the grace window, an attempt that is made meets answers that settle the request. -/
def Answered : Prop :=
  ∀ n ahead request, P.DueBehind start w row n ahead request → P.GraceOver w row n →
    (∀ other ∈ ahead, P.Contained (w n) other ((w n).clock (.currentTime .tick))) →
      P.Settles (w n) request ((w n).clock (.currentTime .tick))

/-- From some tick on the request is due, past its grace window, and each time an exception
of one ahead of it ends the loop. -/
def Starved : Prop :=
  ∃ N, ∀ n, N ≤ n → P.GraceOver w row n ∧ ∃ ahead request, P.DueBehind start w row n ahead request ∧
    ¬ ∀ other ∈ ahead, P.Contained (w n) other ((w n).clock (.currentTime .tick))

variable {P start w row}

theorem DueBehind.mem (hdue : P.DueBehind start w row n ahead request) :
    request ∈ P.dueAt start w n := by
  obtain ⟨_, behind, hlist⟩ := hdue
  rw [dueAt, hlist]
  exact mem_append_right _ mem_cons_self

section

variable (hrow : row ∈ start.priceRequests)

include hrow

theorem exists_row_ticksAt (n : Nat) :
    ∃ row', (P.ticksAt start w n).priceRequests.find? row.requestId = some row' ∧
      row'.assetId = row.assetId ∧ row'.settlementSession = row.settlementSession := by
  have hstart : start.Subject row.requestId row.subject := column_of_mem hrow
  obtain ⟨row', hfind, hsubject⟩ := map_eq_some_iff.mp
    (ticksAt_of_handle (fun w c s (hs : s.Subject row.requestId row.subject) =>
      handle_subject hs w c) hstart n)
  exact ⟨row', hfind, congrArg Prod.fst hsubject, congrArg Prod.snd hsubject⟩

theorem DueBehind.settlementSession_eq (hdue : P.DueBehind start w row n ahead request) :
    request.settlementSession = row.settlementSession := by
  obtain ⟨loaded, hloaded, _, hread⟩ := mem_openRequests_iff.mp hdue.mem
  obtain ⟨hloadedId, hsession⟩ := PendingRequest.ofRow_eq_some hread
  obtain ⟨row', hfind, _, hsame⟩ := exists_row_ticksAt hrow n
  have hkey : loaded.requestId = row.requestId := hloadedId.symm.trans hdue.1
  have heq : loaded = row' :=
    some.inj ((find?_eq_some_iff.mpr ⟨hloaded, hkey⟩).symm.trans hfind)
  rw [hsession, heq, hsame]

/-- An open due request is loaded. -/
theorem exists_dueBehind (hknown : P.registry.isKnownAsset row.assetId) {row' : PriceRequestRow}
    (hfind : (P.ticksAt start w n).priceRequests.find? row.requestId = some row')
    (hopen : ¬ (P.ticksAt start w n).Settled row.requestId)
    (hnext : ∀ at_, row'.nextAttemptAt = some at_ → at_ ≤ (w n).clock .loadOpenRequests) :
    ∃ ahead request, P.DueBehind start w row n ahead request := by
  obtain ⟨row'', hfind', hasset, _⟩ := exists_row_ticksAt hrow n
  rw [hfind] at hfind'
  cases hfind'
  have hstate : (P.ticksAt start w n).stateOf row.requestId = some row'.state := by
    simp [stateOf, hfind]
  have hisOpen : row'.state.isOpen := by
    cases hcase : row'.state with
    | pending | baselineObserved => rfl
    | completed => exact absurd (Or.inl (hstate.trans (congrArg some hcase))) hopen
    | abandoned => exact absurd (Or.inr (hstate.trans (congrArg some hcase))) hopen
  have hdue : row'.isDue ((w n).clock .loadOpenRequests) := by
    unfold PriceRequestRow.isDue
    rw [hisOpen, Bool.true_and]
    split
    · rfl
    · next at_ hat => exact decide_eq_true (hnext at_ hat)
  rw [← hasset] at hknown
  obtain ⟨request, hread⟩ : ∃ request, PendingRequest.ofRow P.registry row' = some request :=
    ⟨_, dif_pos hknown⟩
  obtain ⟨hmem, hkey⟩ := find?_eq_some_iff.mp hfind
  obtain ⟨ahead, behind, hlist⟩ := append_of_mem
    (mem_openRequests_iff.mpr ⟨row', hmem, hdue, hread⟩)
  exact ⟨ahead, request, (PendingRequest.ofRow_eq_some hread).1.trans hkey, behind, hlist⟩

end

section

variable (hrun : P.EndlessTicks start w)

include hrun

theorem EndlessTicks.graceOver (row : PriceRequestRow) : ∃ N, ∀ n, N ≤ n → P.GraceOver w row n := by
  obtain ⟨N, hN⟩ := hrun.passes ((row.settlementSession + P.abandonAfterDays + 1) * microsPerDay)
  refine ⟨N, fun n hn => ?_⟩
  have hlate := hN n hn (.currentTime .tick)
  unfold GraceOver
  unfold microsPerDay at *
  omega

/-- A tick whose loop does not get to the request leaves its row alone. -/
theorem EndlessTicks.find?_succ
    (hunserved : ∀ ahead request, P.DueBehind start w row n ahead request →
      ¬ AllContained w n ahead) :
    (P.ticksAt start w (n+1)).priceRequests.find? row.requestId =
      (P.ticksAt start w n).priceRequests.find? row.requestId := by
  by_cases hdue : ∃ request ∈ P.dueAt start w n, request.requestId = row.requestId
  · obtain ⟨request, hmem, hid⟩ := hdue
    obtain ⟨ahead, behind, hlist⟩ := append_of_mem hmem
    have hkept := tick_of_unserved (hrun.faultless n _) (hrun.fresh n).distinct (hrun.ownIds n)
      hlist (openRequests_others hlist).1 (hunserved ahead request ⟨hid, behind, hlist⟩)
    rw [hid] at hkept
    exact hkept.1
  · have hnot : ∀ request ∈ P.dueAt start w n, request.requestId ≠ row.requestId :=
      fun request hmem hid => hdue ⟨request, hmem, hid⟩
    exact (holds_tick_of_not_due (hrun.faultless n _) hnot).1

/-- A request that is never settled although its answers would settle it is starved: past
the grace window its next attempt stays, and so it is due in every tick. -/
theorem EndlessTicks.starved_of_never_settled (hrow : row ∈ start.priceRequests) (hknown : P.registry.isKnownAsset row.assetId)
    (hunserved : ∀ n ahead request, P.GraceOver w row n → P.DueBehind start w row n ahead request →
      ¬ AllContained w n ahead)
    (hopen : ∀ n, ¬ (P.ticksAt start w n).Settled row.requestId) : P.Starved start w row := by
  obtain ⟨N, hgrace⟩ := hrun.graceOver row
  obtain ⟨row', hfind, _⟩ := exists_row_ticksAt hrow N
  have hstill : ∀ n, N ≤ n →
      (P.ticksAt start w n).priceRequests.find? row.requestId = some row' := by
    intro n hn
    induction hn with
    | refl => exact hfind
    | @step n hn ih =>
      rw [hrun.find?_succ fun ahead request => hunserved n ahead request (hgrace n hn)]
      exact ih
  obtain ⟨N', hnext⟩ := hrun.passes (row'.nextAttemptAt.getD 0)
  refine ⟨max N N', fun n hn => ?_⟩
  have hlate : N ≤ n := Nat.le_trans (Nat.le_max_left N N') hn
  have hcome : N' ≤ n := Nat.le_trans (Nat.le_max_right N N') hn
  have hdue : ∃ ahead request, P.DueBehind start w row n ahead request := by
    apply exists_dueBehind hrow hknown (hstill n hlate) (hopen n)
    intro at_ hat
    have hpassed := hnext n hcome .loadOpenRequests
    rw [hat] at hpassed
    exact hpassed
  obtain ⟨ahead, request, hdue⟩ := hdue
  exact ⟨hgrace n hlate, ahead, request, hdue, hunserved n ahead request (hgrace n hlate) hdue⟩

end

variable (P) in
/-- **Every request comes to an end.**  In every endless run of ticks, a registered request
of a known asset is settled in time exactly when no attempt past the grace window meets
invalid data or another exception and it is not starved. -/
theorem settlesInTime_iff (hrun : P.EndlessTicks start w) (hrow : row ∈ start.priceRequests)
    (hknown : P.registry.isKnownAsset row.assetId = true)
    (hsent : start.SentSettled row.requestId) :
    P.SettlesInTime start w row ↔ P.Answered start w row ∧ ¬ P.Starved start w row := by
  have hsentAt : ∀ n, (P.ticksAt start w n).SentSettled row.requestId :=
    ticksAt_of_handle (fun w c s hs => handle_sentSettled w c s hs) hsent
  have hstep : ∀ n ahead request, P.DueBehind start w row n ahead request → P.GraceOver w row n →
      AllContained w n ahead → ((P.ticksAt start w (n+1)).Settled row.requestId ↔
        P.Settles (w n) request ((w n).clock (.currentTime .tick))) := by
    intro n ahead request hdue hgrace hcontained
    have hsession := hdue.settlementSession_eq hrow
    obtain ⟨hid, behind, hlist⟩ := hdue
    unfold GraceOver at hgrace
    rw [← hsession] at hgrace
    rw [← hid]
    exact hrun.settled_succ_iff (hid ▸ hsentAt n) hlist hcontained hgrace
  constructor
  · intro hintime
    obtain ⟨⟨k, hsettled⟩, hattempts⟩ := hintime
    constructor
    · intro n ahead request hdue hgrace hcontained
      obtain ⟨hid, behind, hlist⟩ := hdue
      have hattempted := (hrun.mem_attemptedIn_iff n).mpr
        ⟨ahead, request, behind, hlist, hid, hcontained⟩
      exact (hstep n ahead request ⟨hid, behind, hlist⟩ hgrace hcontained).mp
        (hattempts n hattempted hgrace)
    · intro hstarved
      obtain ⟨N, hN⟩ := hstarved
      obtain ⟨_, ahead, request, hdue, _⟩ := hN (max N k) (Nat.le_max_left N k)
      have hstays := hrun.settled_stays (Nat.le_max_right N k) hsettled
      exact hstays.not_due request hdue.mem hdue.1
  · intro hcondition
    obtain ⟨hanswered, hstarved⟩ := hcondition
    constructor
    · by_contra hnever
      apply hstarved
      apply hrun.starved_of_never_settled hrow hknown
      · intro n ahead request hgrace hdue hcontained
        exact hnever ⟨n+1, (hstep n ahead request hdue hgrace hcontained).mpr
          (hanswered n ahead request hdue hgrace hcontained)⟩
      · exact fun n hsettled => hnever ⟨n, hsettled⟩
    · intro n hattempted hgrace
      obtain ⟨ahead, request, behind, hlist, hid, hcontained⟩ :=
        (hrun.mem_attemptedIn_iff n).mp hattempted
      exact (hstep n ahead request ⟨hid, behind, hlist⟩ hgrace hcontained).mpr
        (hanswered n ahead request ⟨hid, behind, hlist⟩ hgrace hcontained)

/-- A request that is not registered is not registered by ticks. -/
theorem EndlessTicks.unregistered (hrun : P.EndlessTicks start w)
    (hstart : start.priceRequests.find? requestId = none) (n : Nat) :
    (P.ticksAt start w n).priceRequests.find? requestId = none := by
  induction n with
  | zero => exact hstart
  | succ n ih =>
    have hnot : ∀ request ∈ P.dueAt start w n, request.requestId ≠ requestId := by
      intro request hmem hid
      obtain ⟨loaded, hloaded, _, hread⟩ := mem_openRequests_iff.mp hmem
      have hkey := (PendingRequest.ofRow_eq_some hread).1.symm.trans hid
      exact find?_eq_none_iff.mp ih loaded hloaded hkey
    exact (holds_tick_of_not_due (hrun.faultless n _) hnot).1.trans ih

theorem EndlessTicks.not_starved_of_alone (hrun : P.EndlessTicks start w)
    (halone : ∀ requestId, requestId ≠ row.requestId →
      start.priceRequests.find? requestId = none) : ¬ P.Starved start w row := by
  intro hstarved
  obtain ⟨N, hN⟩ := hstarved
  obtain ⟨_, ahead, request, ⟨hid, behind, hlist⟩, hescapes⟩ := hN N (Nat.le_refl N)
  apply hescapes
  intro other hother
  have hne := (openRequests_others hlist).1 other hother
  have hmem : other ∈ P.dueAt start w N := by
    rw [dueAt, hlist]
    exact mem_append_left _ hother
  obtain ⟨loaded, hloaded, _, hread⟩ := mem_openRequests_iff.mp hmem
  have hnone := hrun.unregistered (halone other.requestId (hid ▸ hne)) N
  exact absurd (PendingRequest.ofRow_eq_some hread).1.symm
    (find?_eq_none_iff.mp hnone loaded hloaded)

variable {e : MarketDataError}

/-- Where every provider raises the same exception, so does the router. -/
theorem closeAnswer_of_error {w : Env P.registry} (hbars : ∀ purpose, w.bars purpose = .error e)
    (requestId : Uuid) (leg : Leg) (assetId : AssetId P.registry) (session : Int) :
    P.closeAnswer w requestId leg assetId.value session = .error e := by
  have hadapter : ∀ purpose name series, P.reg.resolve name = .ok series →
      P.adapterAnswer w purpose name session = .error e := by
    intro purpose name series hresolve
    obtain ⟨served, hserved⟩ := adapterFor_of_resolve hresolve
    unfold adapterAnswer
    rw [hserved, hbars]
    rfl
  obtain ⟨series, hresolve⟩ := P.reg.resolve_assetId assetId
  unfold closeAnswer
  rw [hadapter _ _ series hresolve, hresolve]
  simp only [Except.tryCatch]
  split
  · split
    · rfl
    · next fallback hfallback =>
      obtain ⟨other, hother⟩ := (P.reg.resolve_spec hresolve).2 fallback hfallback
      exact hadapter _ _ other hother
  · rfl

theorem attempt_of_invalid (hmode : P.avanzaFirst = false) {w : Env P.registry}
    (hbars : ∀ purpose, w.bars purpose = .error e) (hinvalid : e.isInvalid)
    (request : P.Pending) (now : Int) : Reads handle w (P.attempt request now) (.ok ()) := by
  intro s
  obtain ⟨series, hresolve⟩ := P.reg.resolve_assetId request.assetId
  have hobserve := observeBaseline_error
    (closeAnswer_of_error hbars request.requestId .baseline request.assetId
      request.baselineSession) s
  have hpending : ¬ e.isPending := by
    cases e with
    | invalidObservation message => exact Bool.false_ne_true
    | _ => cases hinvalid
  have hprocess : (P.process request now).finish handle w s = (.error e, s) := by
    unfold process processFinance
    rw [hmode, hresolve]
    exact (finish_unlessPending _ hobserve).trans (if_neg hpending)
  have hcalm : Calm ((P.process request now).finish handle w s).1 := by
    rw [hprocess]
    exact hinvalid
  rw [attempt_calm hcalm, hprocess]

theorem holds_tick_of_invalid (hmode : P.avanzaFirst = false) {w : Env P.registry}
    (hload : w.fault .loadOpenRequests = none) (hbars : ∀ purpose, w.bars purpose = .error e)
    (hinvalid : e.isInvalid) (requestId : Uuid) :
    Leaves requestId s (P.runSchedulerTick.finish handle w s).2 := by
  have hloop : ∀ requests, Reads handle w
      (P.reDrive (w.clock (.currentTime .tick)) requests) (.ok ()) := by
    intro requests
    induction requests with
    | nil => exact reads_ret ()
    | cons request rest ih =>
      exact (attempt_of_invalid hmode hbars hinvalid request _).bind fun _ => ih
  rw [finish_runSchedulerTick hload rfl]
  unfold driveAt
  rw [finish_bind_ok (hloop _ s), finish_bind_ret]
  exact holds_publishPending s ⟨rfl, rfl⟩

end Progress

end PriceRequestProcessor

/-- One tick a day, and every provider raises the same. -/
def dailyTicks (e : MarketDataError) (n : Nat) : Env metalProcessor.registry where
  clock := fun _ => n * microsPerDay
  messageId := fun x => Nat.pair n x
  bars := fun _ => .error e

/-- A request for silver, registered on day zero. -/
def oneRequest : Store metalProcessor.registry :=
  (handle (envOn 0 []) (.registerRequest (requestFor 1 silverAsset)) ∅).2

def silverRow : PriceRequestRow := Store.newRow (requestFor 1 silverAsset) 0

theorem silverRow_mem : silverRow ∈ oneRequest.priceRequests :=
  mem_singleton_self silverRow

theorem dailyTicks_endless (e : MarketDataError) :
    metalProcessor.EndlessTicks oneRequest (dailyTicks e) where
  faultless := fun _ _ => rfl
  passes := by
    intro time
    refine ⟨time.toNat, fun n hn c => ?_⟩
    show time ≤ n * microsPerDay
    unfold microsPerDay
    omega
  distinct := fun m n x y heq => Nat.pair_eq_pair.mp heq
  unused := by
    intro n x row hrow
    cases hrow
  offsets := by
    intro name z hz local_
    unfold metalProcessor utcOnly at hz
    simp only at hz
    split at hz
    · cases hz
      show local_ < local_ + microsPerDay
      unfold microsPerDay
      omega
    · cases hz

/-- With invalid data forever the request stays pending forever, long after its
grace window. -/
theorem invalid_data_never_settles :
    metalProcessor.EndlessTicks oneRequest (dailyTicks (.invalidObservation "negative close")) ∧
      silverRow ∈ oneRequest.priceRequests ∧
      (∀ n, (metalProcessor.ticksAt oneRequest
        (dailyTicks (.invalidObservation "negative close")) n).stateOf 1 = some .pending) ∧
      ¬ metalProcessor.SettlesInTime oneRequest
        (dailyTicks (.invalidObservation "negative close")) silverRow := by
  have hstate : ∀ n, (metalProcessor.ticksAt oneRequest
      (dailyTicks (.invalidObservation "negative close")) n).stateOf 1 = some .pending := by
    intro n
    induction n with
    | zero => decide
    | succ n ih =>
      apply Eq.trans _ ih
      apply stateOf_of_holds
      exact holds_tick_of_invalid rfl rfl (fun _ => rfl) rfl 1
  refine ⟨dailyTicks_endless _, silverRow_mem, hstate, ?_⟩
  intro hintime
  obtain ⟨⟨n, hsettled⟩, _⟩ := hintime
  exact not_settled_of_isOpen (hstate n) rfl hsettled

/-- With missing bars forever the request is settled: it is given up. -/
theorem missing_bars_settle :
    metalProcessor.SettlesInTime oneRequest (dailyTicks (.priceNotYetAvailable "no bar"))
      silverRow := by
  have hrun := dailyTicks_endless (.priceNotYetAvailable "no bar")
  have hsent : oneRequest.SentSettled silverRow.requestId :=
    ⟨⟨.pending, by decide⟩, fun hhas => by cases hhas⟩
  apply (metalProcessor.settlesInTime_iff hrun silverRow_mem (by decide) hsent).mpr
  constructor
  · intro n ahead request hdue _ _
    obtain ⟨series, hresolve⟩ := metalPrices.resolve_assetId request.assetId
    refine ⟨series, hresolve, ?_⟩
    rw [closeAnswer_of_error (fun _ => rfl)]
    refine ⟨rfl, 8, ?_⟩
    rw [hdue.settlementSession_eq silverRow_mem]
    decide +kernel
  · apply hrun.not_starved_of_alone
    intro requestId hne
    apply find?_eq_none_iff.mpr
    intro row hmem hid
    have heq : row = silverRow := mem_singleton.mp hmem
    rw [heq] at hid
    exact hne hid.symm

end MarketData
