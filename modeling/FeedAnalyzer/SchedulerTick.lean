import FeedAnalyzer.AttemptOutcome

/-!
# A scheduler tick

Around each attempt only `InvalidObservationError` is caught; any other exception ends the
tick.  The loop runs to its end exactly when every attempt is contained (`reDrive_ok_iff`),
and then the tick relays the outbox (`servesAll_iff`).
-/

namespace MarketData

open Feed Transact Calendar Proc List Store Table

/-- The request whose attempt a call begins. -/
def Call.begins {reg : Registry} : Call reg → Option Uuid
  | .fetchBars purpose _ _ =>
    if purpose.leg = .baseline ∧ purpose.role = .primary then some purpose.requestId else none
  | .sessionWindow requestId _ _ => some requestId
  | _ => none

/-- The call that begins the relay of the outbox. -/
def Call.relays {reg : Registry} : Call reg → Bool
  | .pendingOutbox _ => true
  | _ => false

/-- Drawn message ids are new, and no two of them are the same. -/
structure FreshIds {reg : Registry} (w : Env reg) (s : Store reg) : Prop where
  unused : ∀ requestId, ∀ row ∈ s.outbox, row.messageId ≠ w.messageId requestId
  distinct : Function.Injective w.messageId

/-- A drawn id is only in the row of the request it was drawn for. -/
def OwnIds {reg : Registry} (w : Env reg) (s : Store reg) : Prop :=
  ∀ requestId, ∀ row ∈ s.outbox, row.messageId = w.messageId requestId → row.aggregateId = requestId

namespace PriceRequestProcessor

variable {P : PriceRequestProcessor} {w : Env P.registry} {s : Store P.registry}

theorem adapterFor_of_resolve {assetId : String} {series : ProviderSeries}
    (hresolve : P.reg.resolve assetId = .ok series) :
    ∃ served, P.adapterFor assetId = .ok served := by
  have hprovider := (P.reg.resolve_spec hresolve).1
  have hlookup : ∀ provider ∈ knownProviders, ∃ adapter, adapters.lookup provider = some adapter := by
    intro provider hmem
    simp only [knownProviders, mem_cons, not_mem_nil, or_false] at hmem
    rcases hmem with rfl | rfl
    · exact ⟨_, rfl⟩
    · exact ⟨_, rfl⟩
  obtain ⟨adapter, hadapter⟩ := hlookup series.provider hprovider
  refine ⟨(series, adapter), ?_⟩
  simp only [adapterFor, hresolve, hadapter]

/-- **The first call.**  An attempt begins by asking for its baseline, or for
the window of its settlement session. -/
theorem process_begins (request : P.Pending) (now : Int) :
    ∃ c next, P.process request now = .call c next ∧ c.begins = some request.requestId := by
  unfold PriceRequestProcessor.process
  split
  · exact ⟨_, _, rfl, rfl⟩
  · obtain ⟨series, hresolve⟩ := P.reg.resolve_assetId request.assetId
    obtain ⟨served, hserved⟩ := adapterFor_of_resolve hresolve
    unfold processFinance
    rw [hresolve]
    unfold observeBaseline getClose adapterClose
    rw [hserved]
    exact ⟨_, _, rfl, rfl⟩

theorem idFree_of_ownIds (hown : OwnIds w s) (requestId : Uuid) : IdFree w s requestId := by
  by_cases hused : ∃ row ∈ s.outbox, row.messageId = w.messageId requestId
  · obtain ⟨row, hrow, hid⟩ := hused
    exact Or.inl (has_eq_true_iff.mpr ⟨row, hrow, hown requestId row hrow hid⟩)
  · apply Or.inr
    intro row hrow hid
    exact hused ⟨row, hrow, hid⟩

/-- An attempt adds at most one row to the outbox, and leaves the others as they are. -/
theorem attemptKeeps_rows {request : P.Pending} {Inv : Store P.registry → Prop}
    {Q : OutboxRow P.registry → Prop} (hinv : ∀ s, Inv s ↔ ∀ row ∈ s.outbox, Q row)
    (hnew : ∀ (message : PriceObserved P.registry) now, message.requestId = request.requestId →
      message.messageId = w.messageId request.requestId →
      Q ⟨message.messageId, message.requestId, message, now, false, 0, none⟩) :
    AttemptKeeps w Inv request where
  mark := by
    intro baseline s hs
    rwa [hinv, outbox_markBaselineObserved, ← hinv]
  failure := by
    intro error next s hs
    exact commit_done hs rfl ((hinv _).mpr ((hinv s).mp hs))
  abandon := by
    intro reason s hs
    exact commit_done hs rfl ((hinv _).mpr ((hinv s).mp hs))
  complete := by
    intro message s hrequest hid hs
    apply commit_rule hs
    intro _ s' hok
    rw [hinv] at hs ⊢
    unfold completeRequest at hok
    split at hok
    · cases hok
      rwa [outbox_upsertObservation, outbox_upsertObservation]
    · split at hok
      · cases hok
      · cases hok
        intro row hrow
        rcases mem_insertNew.mp hrow with hrow | ⟨_, rfl⟩
        · exact hs row hrow
        · exact hnew message _ hrequest hid

theorem ownIds_attempt (hdistinct : Function.Injective w.messageId)
    (request : P.Pending) : AttemptKeeps w (OwnIds w) request :=
  attemptKeeps_rows (fun _ => forall_comm.trans (forall_congr' fun _ => forall_comm))
    fun _ _ hrequest hid _ hdrawn => hrequest.trans (hdistinct (hid.symm.trans hdrawn))

variable (P) in
/-- One turn of the loop. -/
def attempt (request : P.Pending) (now : Int) : P.Service Unit :=
  ((P.process request now).bind (fun _ => .ret ())).catchWith (fun e =>
    if e.isInvalid then .ret () else .fail e)

theorem reDrive_cons (now : Int) (request : P.Pending) (rest : List P.Pending) :
    P.reDrive now (request :: rest) = (P.attempt request now).bind (fun _ => P.reDrive now rest) :=
  rfl

section Loop

variable {request : P.Pending} {rest : List P.Pending} {now : Int}
  {s : Store P.registry}

theorem attempt_calm (hcalm : Calm ((P.process request now).finish handle w s).1) :
    (P.attempt request now).finish handle w s =
      (.ok (), ((P.process request now).finish handle w s).2) := by
  unfold attempt
  cases hrun : (P.process request now).finish handle w s with
  | mk r s' =>
    rw [hrun] at hcalm
    cases r with
    | ok outcome => exact finish_catch_ok (finish_bind_ok hrun)
    | error e =>
      have hinvalid : e.isInvalid := hcalm
      rw [finish_catch_error (finish_bind_error hrun), if_pos hinvalid]
      rfl

theorem attempt_escapes (hcalm : ¬ Calm ((P.process request now).finish handle w s).1) :
    ∃ e, (P.attempt request now).finish handle w s =
      (.error e, ((P.process request now).finish handle w s).2) := by
  unfold attempt
  cases hrun : (P.process request now).finish handle w s with
  | mk r s' =>
    rw [hrun] at hcalm
    cases r with
    | ok outcome => exact absurd trivial hcalm
    | error e =>
      have hother : ¬ e.isInvalid := hcalm
      refine ⟨e, ?_⟩
      rw [finish_catch_error (finish_bind_error hrun), if_neg hother]
      rfl

theorem begins_mem_calls (request : P.Pending)
    (rest : List P.Pending) (now : Int) (s : Store P.registry) :
    ∃ c ∈ (P.reDrive now (request :: rest)).calls handle w s,
      c.begins = some request.requestId := by
  obtain ⟨c, next, hprocess, hbegins⟩ := process_begins request now
  have hcall : c ∈ (P.process request now).calls handle w s := by
    rw [hprocess]
    exact mem_cons_self
  exact ⟨c, mem_calls_bind _ _ s (mem_calls_catchWith _ _ (mem_calls_bind _ _ s hcall)), hbegins⟩

end Loop

/-- The loop runs to its end exactly when every attempt is contained. -/
theorem reDrive_ok_iff (hdistinct : Function.Injective w.messageId) (now : Int)
    (requests : List P.Pending) (hown : OwnIds w s) :
    ((P.reDrive now requests).finish handle w s).1 = .ok () ↔
      ∀ request ∈ requests, P.Contained w request now := by
  induction requests generalizing s with
  | nil =>
    constructor
    · intro _ request hmem
      cases hmem
    · intro _
      rfl
  | cons request rest ih =>
    have hcalm := process_calm_iff (idFree_of_ownIds hown request.requestId) now
    have hkept := (ownIds_attempt hdistinct request).process now s hown
    rw [forall_mem_cons, ← hcalm]
    by_cases hends : Calm ((P.process request now).finish handle w s).1
    · rw [reDrive_cons, finish_bind_ok (attempt_calm hends), ih hkept]
      constructor
      · intro hrest
        exact ⟨hends, hrest⟩
      · intro hall
        exact hall.2
    · obtain ⟨e, hrun⟩ := attempt_escapes hends
      rw [reDrive_cons, finish_bind_error hrun]
      constructor
      · intro hok
        cases hok
      · intro hall
        exact absurd hall.1 hends

/-- Every due request is attempted. -/
theorem reDrive_attempts (hdistinct : Function.Injective w.messageId) (now : Int)
    {requests : List P.Pending} (hown : OwnIds w s)
    (hcontained : ∀ request ∈ requests, P.Contained w request now) :
    ∀ request ∈ requests, ∃ c ∈ (P.reDrive now requests).calls handle w s,
      c.begins = some request.requestId := by
  induction requests generalizing s with
  | nil =>
    intro request hmem
    cases hmem
  | cons first rest ih =>
    intro request hmem
    have hcalm : Calm ((P.process first now).finish handle w s).1 :=
      (process_calm_iff (idFree_of_ownIds hown first.requestId) now).mpr
        (hcontained first mem_cons_self)
    have hkept := (ownIds_attempt hdistinct first).process now s hown
    rcases mem_cons.mp hmem with rfl | hrest
    · exact begins_mem_calls request rest now s
    · obtain ⟨c, hc, hbegins⟩ := ih hkept
        (fun request' h => hcontained request' (mem_cons_of_mem _ h)) request hrest
      refine ⟨c, ?_, hbegins⟩
      rw [reDrive_cons, calls_bind_ok (attempt_calm hcalm)]
      exact mem_append_right _ hc

variable {c : Call P.registry}

theorem relays_reDrive (now : Int) (requests : List P.Pending) (s : Store P.registry)
    (hc : c ∈ (P.reDrive now requests).calls handle w s) : c.relays = false := by
  have hconforms : (P.reDrive now requests).Conforms (fun _ _ => True)
      (fun c : Call P.registry => c.relays = false) (fun _ => True) := by
    apply reDrive_conforms
    intro request _
    refine ⟨fun _ => True, ?_⟩
    constructor <;> intros <;> trivial
  exact hconforms.mem_calls (fun _ _ => trivial) hc

theorem calls_runSchedulerTick (hload : w.fault .loadOpenRequests = none) :
    P.runSchedulerTick.calls handle w s = .loadOpenRequests ::
        ((P.drive (s.openRequests (w.clock .loadOpenRequests) w.tie)).bind
          (fun state => .ret (some state))).calls handle w s := by
  have hdue : handle w .loadOpenRequests s =
      (.ok (s.openRequests (w.clock .loadOpenRequests) w.tie), s) := by
    simp only [handle, Env.error, hload, Option.map_none, commit, loadOpenRequests]
  have hbody := calls_perform
    (f := fun openRequests => (P.drive openRequests).bind (fun state => .ret (some state))) hdue
  rw [← hbody]
  cases hrun : ((ask .loadOpenRequests).bind (fun openRequests =>
      (P.drive openRequests).bind (fun state => .ret (some state)))).finish handle w s with
  | mk r s' =>
    cases r with
    | ok state => exact calls_catch_ok hrun
    | error e =>
      apply (calls_catch_error hrun).trans
      exact append_nil _

/-- The rest of a tick, once its clock is read. -/
def driveAt (requests : List P.Pending) (now : Int) : P.Service PollState :=
  (P.reDrive now requests).bind (fun _ => P.publishPending.bind (fun published => .ret
    { lastPollAt := now, dueRequests := requests.length, lastPublished := published }))

variable (requests : List P.Pending)

theorem calls_drive (s : Store P.registry) : (P.drive requests).calls handle w s =
      .currentTime .tick :: (driveAt requests (w.clock (.currentTime .tick))).calls handle w s := by
  have hclock : handle w (.currentTime .tick) s = (.ok (w.clock (.currentTime .tick)), s) := rfl
  exact calls_perform hclock

theorem finish_drive (s : Store P.registry) : (P.drive requests).finish handle w s =
      (driveAt requests (w.clock (.currentTime .tick))).finish handle w s := by
  have hclock : (handle w (.currentTime .tick) s).1 = .ok (w.clock (.currentTime .tick)) := rfl
  exact finish_perform hclock

theorem mem_calls_tick (hload : w.fault .loadOpenRequests = none)
    (hc : c ∈ (P.reDrive (w.clock (.currentTime .tick))
      (s.openRequests (w.clock .loadOpenRequests) w.tie)).calls handle w s) :
    c ∈ P.runSchedulerTick.calls handle w s := by
  rw [calls_runSchedulerTick hload]
  apply mem_cons_of_mem
  apply mem_calls_bind
  rw [calls_drive]
  apply mem_cons_of_mem
  exact mem_calls_bind _ _ s hc

/-- The outbox is relayed exactly when the loop has run to its end. -/
theorem relays_tick_iff (hload : w.fault .loadOpenRequests = none) :
    (∃ c ∈ P.runSchedulerTick.calls handle w s, c.relays) ↔
      ((P.reDrive (w.clock (.currentTime .tick))
        (s.openRequests (w.clock .loadOpenRequests) w.tie)).finish handle w s).1 = .ok () := by
  generalize hdue : s.openRequests (w.clock .loadOpenRequests) w.tie = due
  have hcalls := calls_runSchedulerTick (s := s) hload
  rw [hdue] at hcalls
  constructor
  · intro hrelayed
    obtain ⟨c, hmem, hrelays⟩ := hrelayed
    -- an exception in the loop ends the calls of the tick there
    cases hrun : (P.reDrive (w.clock (.currentTime .tick)) due).finish handle w s with
    | mk r s' =>
      cases r with
      | ok _ => rfl
      | error e =>
        have hdrive : (P.drive due).finish handle w s = (.error e, s') := by
          rw [finish_drive]
          exact finish_bind_error hrun
        rw [hcalls, calls_bind_error hdrive, calls_drive, driveAt, calls_bind_error hrun] at hmem
        rcases mem_cons.mp hmem with rfl | hmem
        · cases hrelays
        · rcases mem_cons.mp hmem with rfl | hmem
          · cases hrelays
          · rw [relays_reDrive _ _ s hmem] at hrelays
            cases hrelays
  · intro hok
    have hrun : (P.reDrive (w.clock (.currentTime .tick)) due).finish handle w s =
        (.ok (), ((P.reDrive (w.clock (.currentTime .tick)) due).finish handle w s).2) :=
      Prod.ext hok rfl
    refine ⟨.pendingOutbox 100, ?_, rfl⟩
    rw [hcalls]
    apply mem_cons_of_mem
    apply mem_calls_bind
    rw [calls_drive, driveAt, calls_bind_ok hrun]
    apply mem_cons_of_mem
    apply mem_append_right
    apply mem_calls_bind
    exact mem_cons_self

variable (P)

/-- **A tick that serves everyone**: each request is attempted, and the outbox is relayed.
-/
def ServesAll (w : Env P.registry) (s : Store P.registry) (due : List P.Pending) : Prop :=
  (∀ request ∈ due, ∃ c ∈ P.runSchedulerTick.calls handle w s, c.begins = some request.requestId) ∧
  ∃ c ∈ P.runSchedulerTick.calls handle w s, c.relays = true

instance (w : Env P.registry) (s : Store P.registry) (due : List P.Pending) :
    Decidable (P.ServesAll w s due) :=
  inferInstanceAs (Decidable (_ ∧ _))

/-- **Failures in a tick.**  A tick attempts all the requests it has loaded and relays the
outbox exactly when every attempt is contained: it returns, or its data are invalid. -/
theorem servesAll_iff {w : Env P.registry} {s : Store P.registry}
    {due : List (PendingRequest P.registry)} (hfresh : FreshIds w s)
    (hload : (handle w .loadOpenRequests s).1 = .ok due) :
    P.ServesAll w s due ↔
      ∀ request ∈ due, P.Contained w request (w.clock (.currentTime .tick)) := by
  obtain ⟨hfault, hdue⟩ := commit_eq_ok hload
  have hnone : w.fault .loadOpenRequests = none := by
    simpa [Env.error] using hfault
  have hlist : s.openRequests (w.clock .loadOpenRequests) w.tie = due :=
    (Prod.mk.inj (Except.ok.inj hdue)).1
  subst hlist
  have hown : OwnIds w s := by
    intro requestId row hrow hid
    exact absurd hid (hfresh.unused requestId row hrow)
  have hloop := reDrive_ok_iff hfresh.distinct (w.clock (.currentTime .tick))
    (s.openRequests (w.clock .loadOpenRequests) w.tie) hown
  unfold ServesAll
  rw [relays_tick_iff hnone, hloop]
  constructor
  · intro hserves
    exact hserves.2
  · intro hcontained
    refine ⟨?_, hcontained⟩
    intro request hmem
    obtain ⟨c, hc, hbegins⟩ := reDrive_attempts hfresh.distinct _ hown hcontained request hmem
    exact ⟨c, mem_calls_tick hnone hc, hbegins⟩

end PriceRequestProcessor

/-- A store with a request for silver and one for gold. -/
def twoDue : Store metalProcessor.registry :=
  (handle (envOn 0 []) (.registerRequest (requestFor 2 goldAsset))
    (handle (envOn 0 []) (.registerRequest (requestFor 1 silverAsset)) ∅).2).2

/-- Day two; the first request's provider does not answer. -/
def unavailable : Env metalProcessor.registry where
  clock := fun _ => 2 * microsPerDay
  bars := fun purpose =>
    if purpose.requestId = 1 then .error (.adapterUnavailable "timeout")
    else .ok ([barOf 0 10 (by decide +kernel), barOf 1 11 (by decide +kernel)], 2 * microsPerDay)

/-- The two requests, as a tick loads them. -/
def bothDue : List (PendingRequest metalProcessor.registry) :=
  twoDue.openRequests (2 * microsPerDay) (fun _ => 0)

/-- One provider that does not answer keeps the other request from being
attempted, and the outbox from being relayed. -/
theorem unavailable_ends_tick : bothDue.map (fun request => request.requestId) = [1, 2] ∧
      (handle unavailable .loadOpenRequests twoDue).1 = .ok bothDue ∧
      (∀ c ∈ metalProcessor.runSchedulerTick.calls handle unavailable twoDue,
        c.begins ≠ some 2 ∧ c.relays = false) ∧
      ¬ metalProcessor.ServesAll unavailable twoDue bothDue := by
  decide +kernel

/-- With missing bars both attempts are put off, and the tick serves both. -/
theorem missing_bars_are_contained : metalProcessor.ServesAll (envOn 2 []) twoDue bothDue ∧
      ∀ request ∈ bothDue, metalProcessor.Contained (envOn 2 []) request (2 * microsPerDay) := by
  have hserves : metalProcessor.ServesAll (envOn 2 []) twoDue bothDue := by decide +kernel
  have hfresh : FreshIds (envOn 2 []) twoDue := by
    constructor
    · intro requestId row hrow
      cases hrow
    · exact fun _ _ h => h
  exact ⟨hserves, (metalProcessor.servesAll_iff hfresh (by decide +kernel)).mp hserves⟩

end MarketData
