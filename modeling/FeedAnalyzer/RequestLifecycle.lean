import FeedAnalyzer.MarketDataCalls

/-!
# The states of a price request

Neither the consumer's write nor the tick's looks at the state it replaces.  A request is
`COMPLETED` exactly when its outbox row is there, and both terminal states are final, in
exactly those runs in which no attempt abandons a completed request or completes an
abandoned one (`lifecycle_iff`).
-/

namespace MarketData

open Feed Transact List Store Table

variable {state : RequestState} {now : Int} {requestId : Uuid}

namespace Store

variable {reg : Registry}

/-- The state column of a request, if it is registered. -/
def stateOf (s : Store reg) (requestId : Uuid) : Option RequestState :=
  (s.priceRequests.find? requestId).map PriceRequestRow.state

variable (s : Store reg)

@[simp] theorem stateOf_upsertObservation (assetId : AssetId reg) (observation : CloseObservation)
    (requestId : Uuid) :
    (s.upsertObservation assetId observation).stateOf requestId = s.stateOf requestId := by
  unfold upsertObservation
  split <;> rfl

@[simp] theorem outbox_upsertObservation (assetId : AssetId reg) (observation : CloseObservation) :
    (s.upsertObservation assetId observation).outbox = s.outbox := by
  unfold upsertObservation
  split <;> rfl

theorem stateOf_updateRequests_self {f : PriceRequestRow → PriceRequestRow}
    (hf : ∀ row, (f row).requestId = row.requestId) (hstate : ∀ row, (f row).state = state)
    (target requestId : Uuid) :
    (s.updateRequests (fun row => row.requestId = target) f hf).stateOf requestId =
      if requestId = target then (s.stateOf requestId).map fun _ => state
      else s.stateOf requestId :=
  column_updateKey s.priceRequests hf hstate target requestId

theorem has_updateOutbox (messageId : Uuid) (f : OutboxRow reg → OutboxRow reg)
    (hf : ∀ row, (f row).aggregateId = row.aggregateId)
    (hid : ∀ row, (f row).messageId = row.messageId) (requestId : Uuid) :
    (s.updateOutbox messageId f hf hid).outbox.has requestId = s.outbox.has requestId :=
  has_updateWhere s.outbox _ f hf requestId

end Store

section Effects

variable {reg : Registry} {w : Env reg}

/-- **What a call does to one request.** -/
inductive RequestEffect (w : Env reg) (c : Call reg) (s : Store reg) (requestId : Uuid)
    (s' : Store reg) : Prop where
  /-- Nothing. -/
  | same (hstate : s'.stateOf requestId = s.stateOf requestId)
      (hrow : s'.outbox.has requestId = s.outbox.has requestId)
  /-- The request is new. -/
  | registered (hnew : s.stateOf requestId = none) (hstate : s'.stateOf requestId = some .pending)
      (hrow : s'.outbox.has requestId = s.outbox.has requestId)
  /-- Its baseline was stored, while it was pending. -/
  | observed (hpending : s.stateOf requestId = some .pending)
      (hstate : s'.stateOf requestId = some .baselineObserved)
      (hrow : s'.outbox.has requestId = s.outbox.has requestId)
  /-- It was completed, whatever its state was. -/
  | completed (message : PriceObserved reg) (hcall : c = .completeRequest message)
      (hid : message.requestId = requestId) (hfault : w.fault c = none)
      (hnew : s.outbox.has requestId = false)
      (hfresh : ∀ row ∈ s.outbox, row.messageId ≠ message.messageId)
      (hstate : s'.stateOf requestId = (s.stateOf requestId).map (fun _ => .completed))
      (hrow : s'.outbox.has requestId = true)
  /-- It was abandoned, whatever its state was. -/
  | abandoned (reason : String) (hcall : c = .abandonRequest requestId reason)
      (hfault : w.fault c = none)
      (hstate : s'.stateOf requestId = (s.stateOf requestId).map (fun _ => .abandoned))
      (hrow : s'.outbox.has requestId = s.outbox.has requestId)

variable {s s' : Store reg} {c : Call reg} {b : Bool} {message : PriceObserved reg}

theorem registerRequest_effect {message : PriceRequested reg}
    (hok : registerRequest message now s = .ok (b, s')) (requestId : Uuid) :
    RequestEffect w c s requestId s' := by
  cases hok
  cases hhas : s.priceRequests.has message.requestId with
  | true =>
    have hsame : s.priceRequests.insertNew (newRow message now) = s.priceRequests :=
      insertNew_of_has hhas
    exact .same (by simp only [stateOf, hsame]) rfl
  | false =>
    have hcolumn := column_insertNew (g := PriceRequestRow.state)
      (r := newRow message now) hhas requestId
    by_cases hid : requestId = message.requestId
    · apply RequestEffect.registered
      · subst hid
        have hnone := find?_eq_none_iff.mpr (has_eq_false_iff.mp hhas)
        simp [stateOf, hnone]
      · rw [stateOf, hcolumn]
        simp [hid, newRow]
      · rfl
    · apply RequestEffect.same
      · rw [stateOf, hcolumn]
        simp [hid, newRow, stateOf]
      · rfl

theorem markBaselineObserved_effect {target : Uuid} {assetId : AssetId reg}
    {baseline : CloseObservation} {u : Unit}
    (hok : markBaselineObserved target assetId baseline now s = .ok (u, s')) (requestId : Uuid) :
    RequestEffect w c s requestId s' := by
  cases hok
  have hupsert := s.stateOf_upsertObservation assetId baseline requestId
  have hrow := s.outbox_upsertObservation assetId baseline
  simp only [stateOf] at hupsert
  cases hfind : (s.upsertObservation assetId baseline).priceRequests.find? requestId with
  | none =>
    apply RequestEffect.same
    · simp only [stateOf, updateRequests, find?_updateWhere, hfind, ← hupsert, Option.map_none]
    · simp only [updateRequests, hrow]
  | some row =>
    rw [hfind] at hupsert
    by_cases hmeets : row.requestId = target ∧ row.state = .pending
    · apply RequestEffect.observed
      · rw [stateOf, ← hupsert, Option.map_some, hmeets.2]
      · simp only [stateOf, updateRequests, find?_updateWhere, hfind,
          Option.map_some, hmeets, and_self, decide_true, if_true,
          PriceRequestRow.toBaselineObserved]
      · simp only [updateRequests, hrow]
    · apply RequestEffect.same
      · simp only [stateOf, updateRequests, find?_updateWhere, hfind,
          ← hupsert, Option.map_some, hmeets, decide_false, Bool.false_eq_true, if_false]
      · simp only [updateRequests, hrow]

theorem completeRequest_effect (hfault : w.fault (.completeRequest message) = none)
    (hok : completeRequest message now s = .ok (b, s')) (requestId : Uuid) :
    RequestEffect w (.completeRequest message) s requestId s' := by
  unfold completeRequest at hok
  split at hok
  · cases hok
    apply RequestEffect.same
    · rw [stateOf_upsertObservation, stateOf_upsertObservation]
    · rw [outbox_upsertObservation, outbox_upsertObservation]
  · next hnew =>
    have hnew : s.outbox.has message.requestId = false := Bool.eq_false_iff.mpr hnew
    split at hok
    · cases hok
    · next hfresh =>
      cases hok
      have hstate := s.stateOf_updateRequests_self (f := PriceRequestRow.toCompleted)
        (fun _ => rfl) (fun _ => rfl) message.requestId requestId
      by_cases hid : requestId = message.requestId
      · subst hid
        apply RequestEffect.completed message rfl rfl hfault hnew
        · intro row hrow heq
          exact hfresh (any_eq_true.mpr ⟨row, hrow, decide_eq_true heq⟩)
        · rw [if_pos rfl] at hstate
          exact hstate
        · exact has_insertNew_self s.outbox _
      · apply RequestEffect.same
        · rw [if_neg hid] at hstate
          exact hstate
        · have hne : ¬ message.requestId = requestId := fun h => hid h.symm
          simp [has_insertNew, hne]

/-- **Everything a call can do to a request.** -/
theorem handle_effect (w : Env reg) (c : Call reg) (s : Store reg) (requestId : Uuid) :
    RequestEffect w c s requestId (handle w c s).2 := by
  have hsame : RequestEffect w c s requestId s := .same rfl rfl
  cases c with
  | registerRequest message =>
    exact commit_rule hsame fun b s' hok => registerRequest_effect hok requestId
  | loadOpenRequests =>
    exact commit_done hsame rfl hsame
  | markBaselineObserved target assetId baseline =>
    exact commit_rule hsame fun u s' hok => markBaselineObserved_effect hok requestId
  | completeRequest message =>
    cases hfault : w.fault (.completeRequest message) with
    | some text =>
      have hs : (handle w (.completeRequest message) s).2 = s := by
        simp [handle, Env.error, hfault, commit]
      rw [hs]
      exact hsame
    | none => exact commit_rule hsame fun b s' hok => completeRequest_effect hfault hok requestId
  | recordFailure target error nextAttemptAt =>
    exact commit_done hsame rfl (.same (column_update_other (g := PriceRequestRow.state)
      s.priceRequests _ (PriceRequestRow.requestId_toDeferred error nextAttemptAt) (fun _ => rfl)
      requestId) rfl)
  | abandonRequest target reason =>
    cases hfault : w.fault (.abandonRequest target reason) with
    | some text =>
      have hs : (handle w (.abandonRequest target reason) s).2 = s := by
        simp [handle, Env.error, hfault, commit]
      rw [hs]
      exact hsame
    | none =>
      apply commit_rule hsame
      intro u s' hok
      cases hok
      have hstate := s.stateOf_updateRequests_self (f := PriceRequestRow.toAbandoned reason)
        (fun _ => rfl) (fun _ => rfl) target requestId
      by_cases hid : requestId = target
      · subst hid
        rw [if_pos rfl] at hstate
        exact .abandoned reason rfl hfault hstate rfl
      · rw [if_neg hid] at hstate
        exact .same hstate rfl
  | pendingOutbox batchSize =>
    exact commit_done hsame rfl hsame
  | publish message =>
    have hs : (handle w (.publish message) s).2 = s := by
      simp only [handle]
      split <;> rfl
    rw [hs]
    exact hsame
  | recordPublishError messageId error =>
    exact commit_done hsame rfl (.same rfl (s.has_updateOutbox messageId _ _ _ requestId))
  | markDelivered messageId =>
    exact commit_done hsame rfl (.same rfl (s.has_updateOutbox messageId _ _ _ requestId))
  | _ => exact hsame

/-- A completion that commits sets the state, whatever it was. -/
theorem stateOf_completeRequest (hfault : w.fault (.completeRequest message) = none)
    (hnew : s.outbox.has message.requestId = false)
    (hfresh : ∀ row ∈ s.outbox, row.messageId ≠ message.messageId) :
    (handle w (.completeRequest message) s).2.stateOf message.requestId =
      (s.stateOf message.requestId).map (fun _ => .completed) := by
  have hid : s.outbox.rows.any (fun row => row.messageId = message.messageId) = false := by
    rw [any_eq_false]
    intro row hrow heq
    exact hfresh row hrow (of_decide_eq_true heq)
  have hstate := s.stateOf_updateRequests_self
    PriceRequestRow.requestId_toCompleted (fun _ => rfl) message.requestId message.requestId
  rw [if_pos rfl] at hstate
  simp only [handle, Env.error, hfault, Option.map_none, commit, completeRequest, hnew, hid,
    Bool.false_eq_true, if_false, dite_false]
  exact hstate

theorem stateOf_abandonRequest {reason : String}
    (hfault : w.fault (.abandonRequest requestId reason) = none) :
    (handle w (.abandonRequest requestId reason) s).2.stateOf requestId =
      (s.stateOf requestId).map (fun _ => .abandoned) := by
  have hstate := s.stateOf_updateRequests_self
    (PriceRequestRow.requestId_toAbandoned reason) (fun _ => rfl) requestId requestId
  rw [if_pos rfl] at hstate
  simp only [handle, Env.error, hfault, Option.map_none, commit, abandonRequest]
  exact hstate

/-- An abandonment finds the request not completed, and a completion that enqueues finds it
not abandoned. -/
def WritesInTime (w : Env reg) (s : Store reg) : Call reg → Prop
  | .abandonRequest requestId reason =>
    w.fault (.abandonRequest requestId reason) = none → s.stateOf requestId ≠ some .completed
  | .completeRequest message =>
    w.fault (.completeRequest message) = none →
      (∀ row ∈ s.outbox, row.messageId ≠ message.messageId) →
        s.stateOf message.requestId ≠ some .abandoned
  | _ => True

/-- `COMPLETED` and the outbox row come together. -/
def Store.Consistent (s : Store reg) : Prop :=
  ∀ requestId, s.stateOf requestId = some .completed ↔ s.outbox.has requestId = true

section Step

variable {w : Env reg} {c : Call reg} {s s' : Store reg} {requestId : Uuid}

section

variable (heffect : RequestEffect w c s requestId s')

include heffect

theorem RequestEffect.registered_stays (hbefore : ∃ state, s.stateOf requestId = some state) :
    ∃ state, s'.stateOf requestId = some state := by
  obtain ⟨state, hbefore⟩ := hbefore
  cases heffect with
  | same hstate hrow => exact ⟨state, hstate.trans hbefore⟩
  | registered hnew hstate hrow => exact ⟨_, hstate⟩
  | observed hpending hstate hrow => exact ⟨_, hstate⟩
  | completed message hcall hid hfault hnew hfresh hstate hrow =>
    rw [hbefore] at hstate
    exact ⟨_, hstate⟩
  | abandoned reason hcall hfault hstate hrow =>
    rw [hbefore] at hstate
    exact ⟨_, hstate⟩

/-- Completed means announced. -/
theorem RequestEffect.consistent
    (hs : s.stateOf requestId = some .completed ↔ s.outbox.has requestId)
    (hwrites : WritesInTime w s c) (hregistered : ∀ message, c = .completeRequest message →
      ∃ state, s.stateOf message.requestId = some state) :
    s'.stateOf requestId = some .completed ↔ s'.outbox.has requestId := by
  cases heffect with
  | same hstate hrow => rw [hstate, hrow, hs]
  | registered hnew hstate hrow =>
    rw [hnew] at hs
    simp [hstate, hrow, ← hs]
  | observed hpending hstate hrow =>
    rw [hpending] at hs
    simp [hstate, hrow, ← hs]
  | completed message hcall hid hfault hnew hfresh hstate hrow =>
    obtain ⟨state, hbefore⟩ := hregistered message hcall
    rw [hid] at hbefore
    simp [hstate, hrow, hbefore]
  | abandoned reason hcall hfault hstate hrow =>
    subst hcall
    have hopen : s.stateOf requestId ≠ some .completed := hwrites hfault
    have hno : ¬ s.outbox.has requestId := fun h => hopen (hs.mpr h)
    cases hbefore : s.stateOf requestId <;> simp [hstate, hrow, hno, hbefore]

/-- A terminal state stays. -/
theorem RequestEffect.terminal (hwrites : WritesInTime w s c) (hterminal : state.isOpen = false)
    (hbefore : s.stateOf requestId = some state) : s'.stateOf requestId = some state := by
  cases heffect with
  | same hstate hrow => rw [hstate, hbefore]
  | registered hnew hstate hrow =>
    rw [hnew] at hbefore
    cases hbefore
  | observed hpending hstate hrow =>
    rw [hpending] at hbefore
    cases hbefore
    cases hterminal
  | completed message hcall hid hfault hnew hfresh hstate hrow =>
    subst hcall hid
    have hnot := hwrites hfault hfresh
    rw [hstate, hbefore]
    cases state with
    | pending | baselineObserved => cases hterminal
    | completed => rfl
    | abandoned => exact absurd hbefore hnot
  | abandoned reason hcall hfault hstate hrow =>
    subst hcall
    have hnot := hwrites hfault
    rw [hstate, hbefore]
    cases state with
    | pending | baselineObserved => cases hterminal
    | completed => exact absurd hbefore hnot
    | abandoned => rfl

end

end Step

end Effects

variable {reg : Registry}

namespace PriceRequestProcessor

variable (P : PriceRequestProcessor) (start : Store P.registry)
  (acts : Nat → Action (Job P.registry) (Env P.registry))

/-- The tables before the `k`-th action of a run. -/
def storeAt (k : Nat) : Store P.registry :=
  (configAt handle P.run ⟨start, []⟩ acts k).store

/-- The `k`-th action lets thread `i` make the call `c`. -/
def Asks (k i : Nat) (w : Env P.registry) (c : Call P.registry) : Prop :=
  CallsAt handle P.run ⟨start, []⟩ acts k i w c

variable {P start acts} {k i m : Nat} {w : Env P.registry} {request : PendingRequest reg}
  {s : Store reg} {K : Uuid → Prop}

theorem storeAt_succ_of_asks {c : Call P.registry} (hasks : P.Asks start acts k i w c) :
    P.storeAt start acts (k+1) = (handle w c (P.storeAt start acts k)).2 :=
  CallsAt.store_succ hasks

theorem storeAt_stays {Q : Store P.registry → Prop} (hcall : ∀ l i w c, P.Asks start acts l i w c →
      Q (P.storeAt start acts l) → Q (handle w c (P.storeAt start acts l)).2) (hle : k ≤ m)
    (hk : Q (P.storeAt start acts k)) : Q (P.storeAt start acts m) :=
  store_stays (Q := Q) hcall hle hk

theorem registered_mono (hle : k ≤ m)
    (hk : ∃ state, (P.storeAt start acts k).stateOf requestId = some state) :
    ∃ state, (P.storeAt start acts m).stateOf requestId = some state :=
  storeAt_stays (Q := fun s => ∃ state, s.stateOf requestId = some state)
    (fun _ _ w c _ hl => (handle_effect w c _ requestId).registered_stays hl) hle hk

theorem PendingRequest.ofRow_eq_some {row : PriceRequestRow}
    (hread : PendingRequest.ofRow reg row = some request) :
    request.requestId = row.requestId ∧ request.settlementSession = row.settlementSession := by
  unfold PendingRequest.ofRow at hread
  split at hread
  · cases hread
    exact ⟨rfl, rfl⟩
  · cases hread

theorem registered_of_mem_openRequests {tie : Uuid → Nat} (hmem : request ∈ s.openRequests now tie) :
    ∃ state, s.stateOf request.requestId = some state := by
  obtain ⟨row, hrow, hread⟩ := mem_filterMap.mp hmem
  have hrow : row ∈ s.priceRequests := (mem_of_mem_selectOrdered hrow).1
  have hfind := find?_eq_some_iff.mpr ⟨hrow, (PendingRequest.ofRow_eq_some hread).1.symm⟩
  exact ⟨row.state, by simp [stateOf, hfind]⟩

/-- What a load returns and a completion names is among `K`. -/
def LoadsWithin {reg : Registry} (K : Uuid → Prop) :
    (c : Call reg) → Except MarketDataError c.Ret → Prop
  | .loadOpenRequests, .ok requests => ∀ request ∈ requests, K request.requestId
  | _, _ => True

def CompletesWithin {reg : Registry} (K : Uuid → Prop) : Call reg → Prop
  | .completeRequest message => K message.requestId
  | _ => True

theorem attemptable_within {request : P.Pending} (hrequest : K request.requestId) :
    P.Attemptable (LoadsWithin K) (CompletesWithin K) (fun _ => True) request where
  fetch _ _ _ := trivial
  window _ := trivial
  sampled _ _ _ := trivial
  time _ := trivial
  newMessage := trivial
  failure _ _ := trivial
  abandon _ := trivial
  routed _ _ _ _ := trivial
  sampledClose _ _ _ _ _ _ := trivial
  labelled _ _ _ _ := trivial
  mark _ _ := trivial
  complete _ message _ _ hid _ _ _ := by
    show K message.requestId
    rw [hid]
    exact hrequest

theorem run_completesWithin (K : Uuid → Prop) (job : Job P.registry) :
    (P.run job).Conforms (LoadsWithin K) (CompletesWithin K) (fun _ => True) := by
  apply run_conforms
  · exact fun _ => trivial
  · trivial
  · exact fun _ => trivial
  · exact fun _ => trivial
  · exact fun _ => trivial
  · exact fun _ _ => trivial
  · exact fun _ => trivial
  · intro requests hrequests request hmem
    exact ⟨_, attemptable_within (hrequests request hmem)⟩

theorem handle_loadsWithin
    (hK : ∀ requestId, (∃ state, s.stateOf requestId = some state) → K requestId) (w : Env reg)
    (c : Call reg) : LoadsWithin K c (handle w c s).1 := by
  cases c with
  | loadOpenRequests =>
    cases hfault : w.fault .loadOpenRequests with
    | some text =>
      have hanswer : (handle w .loadOpenRequests s).1 = .error (.database text) := by
        simp [handle, Env.error, hfault, commit]
      rw [hanswer]
      trivial
    | none =>
      have hanswer : (handle w .loadOpenRequests s).1 =
          .ok (s.openRequests (w.clock .loadOpenRequests) w.tie) := by
        simp [handle, Env.error, hfault, commit, loadOpenRequests]
      rw [hanswer]
      intro request hmem
      exact hK _ (registered_of_mem_openRequests hmem)
  | _ => trivial

theorem registered_of_completes {message : PriceObserved P.registry}
    (hasks : P.Asks start acts k i w (.completeRequest message)) :
    ∃ state, (P.storeAt start acts k).stateOf message.requestId = some state := by
  apply conforms_at rfl
    (run_completesWithin (fun id => ∃ state, (P.storeAt start acts k).stateOf id = some state))
    _ hasks
  intro l i w c hlt _
  apply handle_loadsWithin
  intro requestId hregistered
  exact registered_mono (by omega) hregistered

/-- **Terminal states.**  `COMPLETED` and `ABANDONED` are final and a request is `COMPLETED`
exactly when its outbox row exists, throughout a run, precisely when no attempt writes over
the other terminal state. -/
theorem lifecycle_iff (hstart : start.Consistent) :
    ((∀ k m requestId state, k ≤ m → state.isOpen = false →
        (P.storeAt start acts k).stateOf requestId = some state →
          (P.storeAt start acts m).stateOf requestId = some state) ∧
      ∀ k, (P.storeAt start acts k).Consistent) ↔
    ∀ k i w c, P.Asks start acts k i w c → WritesInTime w (P.storeAt start acts k) c := by
  constructor
  · intro hruns k i w c hasks
    obtain ⟨hfinal, hconsistent⟩ := hruns
    have hnext := storeAt_succ_of_asks hasks
    cases c with
    | abandonRequest requestId reason =>
      intro hfault hcompleted
      have hkept := hfinal k (k+1) requestId .completed (by omega) rfl hcompleted
      rw [hnext, stateOf_abandonRequest hfault, hcompleted] at hkept
      cases hkept
    | completeRequest message =>
      intro hfault hfresh habandoned
      have hkept := hfinal k (k+1) message.requestId .abandoned (by omega) rfl habandoned
      have hnew : (P.storeAt start acts k).outbox.has message.requestId = false := by
        apply Bool.eq_false_iff.mpr
        intro hrow
        have hcompleted := (hconsistent k message.requestId).mpr hrow
        rw [habandoned] at hcompleted
        cases hcompleted
      rw [hnext, stateOf_completeRequest hfault hnew hfresh, habandoned] at hkept
      cases hkept
    | _ => trivial
  · intro hwrites
    have hconsistent : ∀ k, (P.storeAt start acts k).Consistent := by
      intro k
      refine storeAt_stays (Q := Store.Consistent) (fun l i w c hasks hl requestId => ?_)
        (Nat.zero_le k) hstart
      apply (handle_effect w c _ requestId).consistent (hl requestId) (hwrites l i w c hasks)
      intro message hc
      subst hc
      exact registered_of_completes hasks
    constructor
    · intro k m requestId state hle hterminal hk
      refine storeAt_stays (Q := fun s => s.stateOf requestId = some state)
        (fun l i w c hasks hl => ?_) hle hk
      exact (handle_effect w c _ requestId).terminal (hwrites l i w c hasks) hterminal hl
    · exact hconsistent

end PriceRequestProcessor

/-- Twenty days on: both closes for the consumer, none for the tick. -/
def bothCloses : List Bar := [barOf 0 100 (by decide +kernel), barOf 1 101 (by decide +kernel)]

/-- The consumer and the tick load the request; the consumer completes it, and the tick
abandons it. -/
def overlap : List (Action (PriceRequestProcessor.Job metalProcessor.registry)
    (Env metalProcessor.registry)) :=
  [.spawn (.deliver (requestFor 1 silverAsset)), .run 0 (envOn 20 []), .run 0 (envOn 20 []),
    .spawn .tick, .run 1 (envOn 20 []),
    .run 0 (envOn 20 []), .run 0 (envOn 20 bothCloses), .run 0 (envOn 20 []),
    .run 0 (envOn 20 bothCloses), .run 0 (envOn 20 []), .run 0 (envOn 20 []),
    .run 1 (envOn 20 []), .run 1 (envOn 20 []), .run 1 (envOn 20 [])]

/-- The stale attempt turns `COMPLETED` into `ABANDONED`, with the outbox row in
place. -/
theorem stale_tick_abandons_completed :
    (metalProcessor.storeAt ∅ (finitely overlap (envOn 20 [])) 11).stateOf 1 = some .completed ∧
      (metalProcessor.storeAt ∅ (finitely overlap (envOn 20 [])) 14).stateOf 1 = some .abandoned ∧
      (metalProcessor.storeAt ∅ (finitely overlap (envOn 20 [])) 14).outbox.has 1 = true := by
  decide +kernel

theorem empty_consistent : (∅ : Store reg).Consistent := by
  intro requestId
  constructor
  · intro hstate
    cases hstate
  · intro hrow
    cases hrow

theorem overlap_writes_late : (∅ : Store metalProcessor.registry).Consistent ∧
    ¬ ∀ k i w c, metalProcessor.Asks ∅ (finitely overlap (envOn 20 [])) k i w c →
      WritesInTime w (metalProcessor.storeAt ∅ (finitely overlap (envOn 20 [])) k) c := by
  constructor
  · exact empty_consistent
  · intro hwrites
    have hruns := (PriceRequestProcessor.lifecycle_iff empty_consistent).mpr hwrites
    have hcompleted : (metalProcessor.storeAt ∅ (finitely overlap (envOn 20 [])) 11).stateOf 1 =
        some .completed := by decide +kernel
    have hkept := hruns.1 11 14 1 .completed (by omega) rfl hcompleted
    have habandoned : (metalProcessor.storeAt ∅ (finitely overlap (envOn 20 [])) 14).stateOf 1 =
        some .abandoned := by decide +kernel
    cases hkept

end MarketData
