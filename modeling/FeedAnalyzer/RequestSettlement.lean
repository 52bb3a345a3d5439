import FeedAnalyzer.SchedulerTick

/-!
# How a tick settles a request

Past the grace window an attempt settles its request whenever its closes are there or
missing; invalid data leave it as it was (`settled_process_iff`).  A tick changes a request
by its own attempt only.
-/

namespace MarketData

open Feed Transact Calendar Proc List Store Table PriceRequestProcessor

/-- `COMPLETED` or `ABANDONED`. -/
def Store.Settled {reg : Registry} (s : Store reg) (requestId : Uuid) : Prop :=
  s.stateOf requestId = some .completed ∨ s.stateOf requestId = some .abandoned

variable {requestId : Uuid}

theorem Store.not_settled_of_isOpen {reg : Registry} {s : Store reg} {state : RequestState}
    (hstate : s.stateOf requestId = some state) (hopen : state.isOpen) : ¬ s.Settled requestId := by
  intro hsettled
  unfold Settled at hsettled
  rw [hstate] at hsettled
  rcases hsettled with heq | heq
  · cases heq
    cases hopen
  · cases heq
    cases hopen

/-- Local time is less than a day behind UTC. -/
def OffsetsWithinDay (tz : TimeZones) : Prop :=
  ∀ name z, tz name = some z → ∀ local_, z.ofLocal local_ < local_ + microsPerDay

namespace PriceRequestProcessor

variable {P : PriceRequestProcessor} {w : Env P.registry} {assetId : String} {session now : Int}
  {observation : CloseObservation} {request : P.Pending} {series : ProviderSeries}

theorem priceKind_adapterAnswer {purpose : Purpose}
    (hok : P.adapterAnswer w purpose assetId session = .ok observation) :
    observation.priceKind ≠ .avanzaSampledClose := by
  obtain ⟨served, _, hok⟩ := bind_eq_ok hok
  obtain ⟨fetched, _, hok⟩ := bind_eq_ok hok
  obtain ⟨observations, hread, hok⟩ := bind_eq_ok hok
  split at hok
  · next found hfind =>
    cases hok
    obtain ⟨bar, _, hobserve⟩ := exists_of_mapM_ok hread (mem_of_find?_eq_some hfind)
    exact (Adapter.observe_eq_ok hobserve).2.2.2.2
  · cases hok

theorem priceKind_closeAnswer {leg : Leg}
    (hok : P.closeAnswer w requestId leg assetId session = .ok observation) :
    observation.priceKind ≠ .avanzaSampledClose := by
  unfold closeAnswer at hok
  cases hfirst : P.adapterAnswer w ⟨requestId, assetId, leg, .primary⟩ assetId session with
  | ok found =>
    rw [hfirst] at hok
    cases hok
    exact priceKind_adapterAnswer hfirst
  | error e =>
    rw [hfirst] at hok
    simp only [Except.tryCatch] at hok
    split at hok
    · split at hok
      · cases hok
      · split at hok
        · cases hok
        · exact priceKind_adapterAnswer hok
    · cases hok

theorem buildPriceObserved_of_provider {envelope : Envelope}
    {baseline settlement : CloseObservation} (hbaseline : baseline.priceKind ≠ .avanzaSampledClose)
    (hsettlement : settlement.priceKind ≠ .avanzaSampledClose) :
    ∃ message, buildPriceObserved request envelope baseline settlement = .ok message := by
  unfold buildPriceObserved
  rw [dif_pos]
  · exact ⟨_, rfl⟩
  · intro hsampled
    rcases hsampled with hsampled | hsampled
    · exact absurd hsampled hbaseline
    · exact absurd hsampled hsettlement

/-- Past the grace window the settlement session is complete on every market's
clock, if Python can tell. -/
theorem sessionComplete_past_grace (htz : OffsetsWithinDay P.tz)
    (hresolve : P.reg.resolve assetId = .ok series)
    (hgrace : session + P.abandonAfterDays < now / microsPerDay) {complete : Bool}
    (hok : P.sessionComplete series session now = .ok complete) : complete = true := by
  have hhour : series.sessionCompletionHour < 24 ∧ series.sessionCompletionMinute < 60 := by
    unfold PriceRegistry.resolve at hresolve
    split at hresolve
    · cases hresolve
    · next entry _ =>
      cases hresolve
      exact ⟨entry.sessionCompleteAt.hour_lt, entry.sessionCompleteAt.minute_lt⟩
  have hpos := P.abandon_pos
  unfold sessionComplete zone at hok
  cases hz : P.tz series.timezone with
  | none =>
    rw [hz] at hok
    cases hok
  | some z =>
    rw [hz] at hok
    obtain ⟨completedAt, hcompleted, hok⟩ := bind_eq_ok hok
    unfold datetimeOf at hcompleted
    split at hcompleted
    · cases hcompleted
      cases hok
      have hoffset := htz series.timezone z hz (session * microsPerDay +
        (series.sessionCompletionHour * 60 + series.sessionCompletionMinute : Nat) *
          microsPerMinute)
      apply decide_eq_true
      unfold Zone.sessionCompletedAt
      unfold microsPerDay microsPerMinute at *
      omega
    · cases hcompleted

theorem graceEnds_eq_ok {ends : Int} (hok : P.graceEnds session = .ok ends) :
    ends = session + P.abandonAfterDays := by
  obtain ⟨_, _, hok⟩ := bind_eq_ok hok
  split at hok
  · cases hok
    rfl
  · cases hok

variable (P w)

/-- A close is missing, and the grace window has an end. -/
def Missing (request : P.Pending) (e : MarketDataError) : Prop :=
  e.isPending = true ∧ ∃ ends, P.graceEnds request.settlementSession = .ok ends

/-- **The answers settle the request**: the closes are there, or one is missing, and nothing
else is raised. -/
def Settles (request : P.Pending) (now : Int) : Prop :=
  if P.avanzaFirst then
    match P.pairAnswer w request now with
    | .ok pair => ∃ message, buildPriceObserved request
        ⟨w.messageId request.requestId, w.clock (.newMessage request.requestId)⟩
        pair.1 pair.2 = .ok message
    | .error e => P.Missing request e
  else
    ∃ series, P.reg.resolve request.assetId.value = .ok series ∧
      match P.closeAnswer w request.requestId .baseline request.assetId.value
          request.baselineSession with
      | .error e => P.Missing request e
      | .ok _ =>
        (∃ complete, P.sessionComplete series request.settlementSession now = .ok complete) ∧
        ∀ e, P.closeAnswer w request.requestId .settlement request.assetId.value
          request.settlementSession = .error e → P.Missing request e

variable {P w}

/-- A request that is open and has no message yet. -/
structure Live (s : Store P.registry) (requestId : Uuid) : Prop where
  isOpen : ∃ state, s.stateOf requestId = some state ∧ state.isOpen = true
  unsent : s.outbox.has requestId = false

section Attempt

variable {request : P.Pending} {s : Store P.registry} {now : Int}
  {baseline : CloseObservation}

theorem Live.not_settled (hlive : Live s requestId) : ¬ s.Settled requestId := by
  obtain ⟨state, hstate, hopen⟩ := hlive.isOpen
  exact not_settled_of_isOpen hstate hopen

theorem Live.markBaselineObserved (hlive : Live s requestId) (target : Uuid)
    (assetId : AssetId P.registry) (baseline : CloseObservation) :
    Live (handle w (.markBaselineObserved target assetId baseline) s).2 requestId := by
  obtain ⟨state, hstate, hopen⟩ := hlive.isOpen
  cases handle_effect w (.markBaselineObserved target assetId baseline) s requestId with
  | same hsame hrow => exact ⟨⟨state, hsame.trans hstate, hopen⟩, hrow.trans hlive.unsent⟩
  | registered hnew hpending hrow => exact ⟨⟨_, hpending, rfl⟩, hrow.trans hlive.unsent⟩
  | observed _ hobserved hrow => exact ⟨⟨_, hobserved, rfl⟩, hrow.trans hlive.unsent⟩
  | completed message hcall => cases hcall
  | abandoned reason hcall => cases hcall

theorem finish_complete (request : P.Pending) (baseline settlement : CloseObservation)
    (s : Store P.registry) :
    ((P.complete request baseline settlement).finish handle w s).2 =
      match buildPriceObserved request
        ⟨w.messageId request.requestId, w.clock (.newMessage request.requestId)⟩
        baseline settlement with
      | .ok message => (handle w (.completeRequest message) s).2
      | .error _ => s := by
  have henvelope : (handle w (.newMessage request.requestId) s).1 =
      .ok ⟨w.messageId request.requestId, w.clock (.newMessage request.requestId)⟩ := rfl
  unfold complete
  rw [bind_eq, finish_perform henvelope]
  split
  · next message hbuild =>
    have hlast := finish_bind_ret (h := handle) (w := w) (ask (.completeRequest message))
      (fun published => ({ completed := true, published := published } : ProcessOutcome)) s
    rw [finish_call] at hlast
    rw [hbuild]
    exact hlast
  · next e hbuild =>
    rw [hbuild]
    rfl

section

variable (hfault : ∀ c, w.fault c = none)

include hfault

section

variable (hlive : Live s request.requestId)

include hlive

/-- When a completion settles. -/
theorem settled_complete_iff (hfree : IdFree w s request.requestId)
    (baseline settlement : CloseObservation) :
    ((P.complete request baseline settlement).finish handle w s).2.Settled request.requestId ↔
      ∃ message, buildPriceObserved request
        ⟨w.messageId request.requestId, w.clock (.newMessage request.requestId)⟩
        baseline settlement = .ok message := by
  rw [finish_complete]
  split
  · next message hbuild =>
    obtain ⟨hrequest, _, _, _, hid⟩ := buildPriceObserved_eq_ok hbuild
    have hunsent := hlive.unsent
    obtain ⟨state, hstate, _⟩ := hlive.isOpen
    rw [← hrequest] at hunsent hstate
    have hfresh : ∀ row ∈ s.outbox, row.messageId ≠ message.messageId := by
      rw [hid]
      cases hfree with
      | inl hhas =>
        rw [hlive.unsent] at hhas
        cases hhas
      | inr hrows => exact hrows
    have hend := stateOf_completeRequest (hfault (.completeRequest message)) hunsent hfresh
    rw [hstate, hrequest] at hend
    exact iff_of_true (Or.inl hend) ⟨message, hbuild⟩
  · next e hbuild =>
    refine iff_of_false hlive.not_settled ?_
    rintro ⟨message, hok⟩
    rw [hbuild] at hok
    cases hok

section

variable (hgrace : request.settlementSession + P.abandonAfterDays < now / microsPerDay)

include hgrace

/-- When a deferral settles. -/
theorem settled_deferOrAbandon_iff (reason : String) :
    ((P.deferOrAbandon request reason now).finish handle w s).2.Settled request.requestId ↔
      ∃ ends, P.graceEnds request.settlementSession = .ok ends := by
  unfold deferOrAbandon
  cases hends : P.graceEnds request.settlementSession with
  | error e => exact iff_of_false hlive.not_settled (by simp)
  | ok ends =>
    have hend := stateOf_abandonRequest (s := s) (hfault (P.giveUp request reason))
    have hlast := finish_bind_ret (h := handle) (w := w) (ask (P.giveUp request reason))
      (fun _ => true) s
    rw [finish_call] at hlast
    obtain ⟨state, hstate, _⟩ := hlive.isOpen
    rw [hstate] at hend
    have hover : ¬ now / microsPerDay ≤ ends := by
      rw [graceEnds_eq_ok hends]
      omega
    refine iff_of_true (Or.inr ?_) ⟨ends, rfl⟩
    simp only [bind_eq, onOk_ok, ret_bind, if_neg hover]
    exact (congrArg (fun s' : Store P.registry => s'.stateOf request.requestId) hlast).trans hend

/-- Past the grace window a missing close settles the request, and invalid data do not. -/
theorem settled_missing_iff (reason : String) (f : Bool → ProcessOutcome) (e : MarketDataError) :
    (if e.isPending then ((P.deferOrAbandon request reason now).bind
        fun abandoned => .ret (f abandoned)).finish handle w s else (.error e, s)).2.Settled
      request.requestId ↔ P.Missing request e := by
  split
  · next he =>
    rw [finish_bind_ret]
    exact (settled_deferOrAbandon_iff hfault hlive hgrace reason).trans
      (and_iff_right he).symm
  · next he => exact iff_of_false hlive.not_settled fun hmissing => he hmissing.1

section

variable (hfree : IdFree w s request.requestId)

include hfree

omit hgrace in
theorem finish_observeBaseline
    (hanswer : P.closeAnswer w request.requestId .baseline request.assetId.value
      request.baselineSession = .ok baseline) :
    ∃ s', (P.observeBaseline request).finish handle w s = (.ok baseline, s') ∧
      Live s' request.requestId ∧ IdFree w s' request.requestId := by
  have hobserve := observeBaseline_ok hanswer s
  by_cases hstate : request.state = .pending
  · rw [if_pos hstate] at hobserve
    have hmark : (handle w (.markBaselineObserved request.requestId request.assetId baseline) s).1 =
        .ok () := by
      simp only [handle, Env.error, hfault, Option.map_none, commit, markBaselineObserved]
    rw [hmark] at hobserve
    exact ⟨_, hobserve, hlive.markBaselineObserved _ _ _,
      hfree.of_outbox (outbox_markBaselineObserved _ _ _ _)⟩
  · rw [if_neg hstate] at hobserve
    exact ⟨s, hobserve, hlive, hfree⟩

section

variable (htz : OffsetsWithinDay P.tz)

include htz

/-- Past the grace window, the rest of an attempt settles the request unless the settlement
close is invalid. -/
theorem settled_settle_iff (hresolve : P.reg.resolve request.assetId.value = .ok series)
    (hkind : baseline.priceKind ≠ .avanzaSampledClose) :
    ((P.settle request series baseline now).finish handle w s).2.Settled request.requestId ↔
      (∃ complete, P.sessionComplete series request.settlementSession now = .ok complete) ∧
        ∀ e, P.closeAnswer w request.requestId .settlement request.assetId.value
          request.settlementSession = .error e → P.Missing request e := by
  unfold settle
  cases hcomplete : P.sessionComplete series request.settlementSession now with
  | error e => exact iff_of_false hlive.not_settled (by simp)
  | ok complete =>
    obtain rfl := sessionComplete_past_grace htz hresolve hgrace hcomplete
    simp only [bind_eq, onOk_ok, ret_bind, if_true]
    rw [finish_unlessPending _ (getClose_reads _ _ _ _ s)]
    cases hanswer : P.closeAnswer w request.requestId .settlement request.assetId.value
        request.settlementSession with
    | ok settlement =>
      have hbuild := (settled_complete_iff hfault hlive hfree baseline settlement).mpr
        (buildPriceObserved_of_provider hkind (priceKind_closeAnswer hanswer))
      exact iff_of_true hbuild ⟨⟨true, rfl⟩, fun e herror => by cases herror⟩
    | error e =>
      refine (settled_missing_iff hfault hlive hgrace _ _ e).trans ⟨fun he => ⟨⟨true, rfl⟩, ?_⟩, ?_⟩
      · rintro e' ⟨⟩
        exact he
      · intro hall
        exact hall.2 e rfl

/-- When the finance path settles. -/
theorem settled_processFinance_iff (hfinance : ¬ P.avanzaFirst) :
    ((P.processFinance request now).finish handle w s).2.Settled request.requestId ↔
      P.Settles w request now := by
  obtain ⟨series, hresolve⟩ := P.reg.resolve_assetId request.assetId
  unfold processFinance Settles
  simp only [hresolve, bind_eq, if_neg hfinance, Except.ok.injEq, exists_eq_left']
  cases hanswer : P.closeAnswer w request.requestId .baseline request.assetId.value
      request.baselineSession with
  | ok baseline =>
    obtain ⟨s', hobserve, hlive', hfree'⟩ := finish_observeBaseline hfault hlive hfree hanswer
    rw [finish_unlessPending _ hobserve]
    exact settled_settle_iff hfault hlive' hgrace hfree' htz hresolve
      (priceKind_closeAnswer hanswer)
  | error e =>
    rw [finish_unlessPending _ (observeBaseline_error hanswer s)]
    exact settled_missing_iff hfault hlive hgrace _ _ e

omit htz in
theorem settled_processAvanzaFirst_iff (hfirst : P.avanzaFirst) :
    ((P.processAvanzaFirst request now).finish handle w s).2.Settled request.requestId ↔
      P.Settles w request now := by
  unfold processAvanzaFirst Settles
  rw [if_pos hfirst, bind_eq, finish_unlessPending _ (getPair_reads request now s)]
  cases P.pairAnswer w request now with
  | ok pair => exact settled_complete_iff hfault hlive hfree pair.1 pair.2
  | error e => exact settled_missing_iff hfault hlive hgrace _ _ e

/-- **An attempt past the grace window** settles its request exactly when the
answers do. -/
theorem settled_process_iff :
    ((P.process request now).finish handle w s).2.Settled request.requestId ↔
      P.Settles w request now := by
  unfold process
  split
  · next hfirst => exact settled_processAvanzaFirst_iff hfault hlive hgrace hfree hfirst
  · next hfinance => exact settled_processFinance_iff hfault hlive hgrace hfree htz hfinance

end

end

end

end

end

end Attempt

def Holds (requestId : Uuid) (row : Option PriceRequestRow) (sent : Bool)
    (s : Store P.registry) : Prop :=
  s.priceRequests.find? requestId = row ∧ s.outbox.has requestId = sent

/-- A request is as it was. -/
abbrev Leaves (requestId : Uuid) (s s' : Store P.registry) : Prop :=
  Holds requestId (s.priceRequests.find? requestId) (s.outbox.has requestId) s'

section Frame

variable {requestId : Uuid} {row : Option PriceRequestRow} {sent : Bool}
  {Inv : Store P.registry → Prop} {s : Store P.registry}

theorem holds_updateRequests (hs : Holds requestId row sent s) {p : PriceRequestRow → Bool}
    (f : PriceRequestRow → PriceRequestRow) (hf : ∀ r, (f r).requestId = r.requestId)
    (hp : ∀ r, r.requestId = requestId → p r = false) :
    Holds requestId row sent (s.updateRequests p f hf) :=
  ⟨(find?_updateWhere_of_not hf fun r _ hr => hp r hr).trans hs.1, hs.2⟩

theorem holds_upsertObservation (hs : Holds requestId row sent s) (assetId : AssetId P.registry)
    (observation : CloseObservation) :
    Holds requestId row sent (s.upsertObservation assetId observation) := by
  unfold upsertObservation
  split <;> exact hs

theorem holds_attempt (hne : request.requestId ≠ requestId) :
    AttemptKeeps w (Holds requestId row sent) request where
  mark := by
    intro baseline s hs
    apply commit_rule hs
    intro _ s' hok
    cases hok
    refine holds_updateRequests (holds_upsertObservation hs _ _) _ _ fun r hr => ?_
    exact decide_eq_false fun h => hne (h.1.symm.trans hr)
  failure := by
    intro error next s hs
    exact commit_done hs rfl
      (holds_updateRequests hs _ _ fun r hr => decide_eq_false fun h => hne (h.symm.trans hr))
  abandon := by
    intro reason s hs
    exact commit_done hs rfl
      (holds_updateRequests hs _ _ fun r hr => decide_eq_false fun h => hne (h.symm.trans hr))
  complete := by
    intro message s hrequest _ hs
    apply commit_rule hs
    intro _ s' hok
    unfold completeRequest at hok
    split at hok
    · cases hok
      exact holds_upsertObservation (holds_upsertObservation hs _ _) _ _
    · split at hok
      · cases hok
      · cases hok
        have hother : ¬ message.requestId = requestId := hrequest ▸ hne
        refine ⟨(holds_updateRequests hs PriceRequestRow.toCompleted _ fun r hr =>
          decide_eq_false fun h => hother (h.symm.trans hr)).1, ?_⟩
        rw [← hs.2]
        simp [has_insertNew, hother]

theorem reDrive_preserves {requests : List P.Pending}
    (hkeeps : ∀ request ∈ requests, AttemptKeeps w Inv request) :
    Preserves handle w Inv (P.reDrive now requests) :=
  (reDrive_conforms fun request hmem => ⟨_, (hkeeps request hmem).attemptable⟩).preserves
    (fun _ s => ⟨s, rfl⟩) fun _ hc => hc

/-- The relay writes to the outbox only, and to none of its keys. -/
theorem publishPending_preserves
    (hupdate : ∀ s messageId f hf hid, Inv s → Inv (s.updateOutbox messageId f hf hid)) :
    Preserves handle w Inv P.publishPending := by
  have hrelay : P.publishPending.Conforms (fun _ _ => True)
      (fun c => ∀ s, Inv s → Inv (handle w c s).2) (fun _ => True) := by
    apply publishPending_conforms
    · intro n s hs
      exact commit_done hs rfl hs
    · intro message s hs
      simp only [handle]
      split <;> exact hs
    · intro messageId error s hs
      exact commit_done hs rfl (hupdate s messageId _ _ _ hs)
    · intro messageId s hs
      exact commit_done hs rfl (hupdate s messageId _ _ _ hs)
  exact hrelay.preserves (fun _ _ => trivial) fun _ hc => hc

theorem holds_publishPending : Preserves handle w (Holds requestId row sent) P.publishPending :=
  publishPending_preserves fun s messageId f hf hid hs =>
    ⟨hs.1, (s.has_updateOutbox messageId f hf hid requestId).trans hs.2⟩

end Frame

section Tick

variable {s : Store P.registry} {due : List P.Pending}

theorem reDrive_append (now : Int) (ahead behind : List P.Pending) :
    P.reDrive now (ahead ++ behind) =
      (P.reDrive now ahead).bind (fun _ => P.reDrive now behind) := by
  induction ahead with
  | nil => rfl
  | cons request ahead ih =>
    rw [cons_append, reDrive_cons, reDrive_cons, ih, bind_assoc]

theorem finish_runSchedulerTick (hload : w.fault .loadOpenRequests = none)
    (hdue : s.openRequests (w.clock .loadOpenRequests) w.tie = due) :
    (P.runSchedulerTick.finish handle w s).2 =
      ((driveAt due (w.clock (.currentTime .tick))).finish handle w s).2 := by
  have hanswer : handle w .loadOpenRequests s = (.ok due, s) := by
    simp only [handle, Env.error, hload, Option.map_none, commit, loadOpenRequests, hdue]
  have hok : (handle w .loadOpenRequests s).1 = .ok due := by rw [hanswer]
  unfold runSchedulerTick
  rw [finish_catch_ret, bind_eq, finish_perform hok,
    hanswer, bind_eq, finish_bind_ret, finish_drive]

theorem driveAt_preserves {Inv : Store P.registry → Prop}
    (hkeeps : ∀ request ∈ due, AttemptKeeps w Inv request)
    (hrelay : Preserves handle w Inv P.publishPending) :
    Preserves handle w Inv (driveAt due now) := by
  apply (reDrive_preserves hkeeps).bind
  intro _
  exact hrelay.bind fun _ => preserves_ret _

theorem holds_tick_of_not_due (hload : w.fault .loadOpenRequests = none)
    (hnot : ∀ request ∈ s.openRequests (w.clock .loadOpenRequests) w.tie,
      request.requestId ≠ requestId) :
    Leaves requestId s (P.runSchedulerTick.finish handle w s).2 := by
  rw [finish_runSchedulerTick hload rfl]
  apply driveAt_preserves
  · exact fun request hmem => holds_attempt (hnot request hmem)
  · exact holds_publishPending
  · exact ⟨rfl, rfl⟩

theorem driveAt_split (now : Int) (ahead behind : List P.Pending) (request : P.Pending) :
    ∃ rest : P.Service PollState, driveAt (ahead ++ request :: behind) now =
        (P.reDrive now ahead).bind (fun _ => (P.attempt request now).bind (fun _ => rest)) ∧
      ∀ Inv : Store P.registry → Prop, (∀ other ∈ behind, AttemptKeeps w Inv other) →
        Preserves handle w Inv P.publishPending → Preserves handle w Inv rest := by
  refine ⟨(P.reDrive now behind).bind (fun _ => P.publishPending.bind (fun published => .ret
    { lastPollAt := now
      dueRequests := (ahead ++ request :: behind).length
      lastPublished := published })), ?_, ?_⟩
  · unfold driveAt
    rw [reDrive_append, reDrive_cons, bind_assoc]
    congr 1
    funext _
    rw [bind_assoc]
  · intro Inv hkeeps hrelay
    apply (reDrive_preserves hkeeps).bind
    intro _
    exact hrelay.bind fun _ => preserves_ret _

theorem finish_attempt (request : P.Pending) (now : Int) (s : Store P.registry) :
    ((P.attempt request now).finish handle w s).2 =
      ((P.process request now).finish handle w s).2 := by
  by_cases hcalm : Calm ((P.process request now).finish handle w s).1
  · rw [attempt_calm hcalm]
  · obtain ⟨e, hrun⟩ := attempt_escapes hcalm
    rw [hrun]

section

variable (hload : w.fault .loadOpenRequests = none) (hdistinct : Function.Injective w.messageId)
  (hown : OwnIds w s) {ahead behind : List P.Pending} {request : P.Pending}
  (hdue : s.openRequests (w.clock .loadOpenRequests) w.tie = ahead ++ request :: behind)
  (hahead : ∀ other ∈ ahead, other.requestId ≠ request.requestId)

include hahead in
theorem holds_before :
    Leaves request.requestId s
      ((P.reDrive (w.clock (.currentTime .tick)) ahead).finish handle w s).2 :=
  reDrive_preserves (fun request hmem => holds_attempt (hahead request hmem)) s ⟨rfl, rfl⟩

include hload hdistinct hown hdue hahead

/-- **The loop gets to the request.**  Nobody else has changed it before, and
nobody changes it after. -/
theorem tick_of_served (hbehind : ∀ other ∈ behind, other.requestId ≠ request.requestId)
    (hcontained : ∀ other ∈ ahead, P.Contained w other (w.clock (.currentTime .tick))) :
    ∃ s', Leaves request.requestId s s' ∧ OwnIds w s' ∧
      ∀ row sent, Holds request.requestId row sent
          ((P.process request (w.clock (.currentTime .tick))).finish handle w s').2 →
        Holds request.requestId row sent (P.runSchedulerTick.finish handle w s).2 := by
  have hok := (reDrive_ok_iff hdistinct _ ahead hown).mpr hcontained
  have hids : OwnIds w ((P.reDrive (w.clock (.currentTime .tick)) ahead).finish handle w s).2 :=
    reDrive_preserves (fun other _ => ownIds_attempt hdistinct other) s hown
  refine ⟨_, holds_before hahead, hids, ?_⟩
  intro row sent hprocessed
  obtain ⟨rest, hsplit, hrest⟩ := driveAt_split (w := w) (w.clock (.currentTime .tick)) ahead behind
    request
  have hkept := hrest (Holds request.requestId row sent)
    (fun other hmem => holds_attempt (hbehind other hmem)) holds_publishPending
  rw [finish_runSchedulerTick hload hdue, hsplit, finish_bind_ok (Prod.ext hok rfl)]
  rw [← finish_attempt] at hprocessed
  apply finish_bind_rule (Q := fun result => Holds request.requestId row sent result.2)
  · intro _ s'' hrun
    rw [hrun] at hprocessed
    exact hkept s'' hprocessed
  · intro e s'' hrun
    rw [hrun] at hprocessed
    exact hprocessed

/-- **The loop ends before the request**, and leaves it alone. -/
theorem tick_of_unserved
    (hescapes : ¬ ∀ other ∈ ahead, P.Contained w other (w.clock (.currentTime .tick))) :
    Leaves request.requestId s (P.runSchedulerTick.finish handle w s).2 := by
  have hbefore := holds_before (w := w) (s := s) hahead
  obtain ⟨rest, hsplit, _⟩ := driveAt_split (w := w) (w.clock (.currentTime .tick)) ahead behind
    request
  rw [← reDrive_ok_iff hdistinct _ ahead hown] at hescapes
  rw [finish_runSchedulerTick hload hdue, hsplit]
  cases hrun : (P.reDrive (w.clock (.currentTime .tick)) ahead).finish handle w s with
  | mk r s' =>
    rw [hrun] at hbefore hescapes
    cases r with
    | ok _ => exact absurd rfl hescapes
    | error e =>
      rw [finish_bind_error hrun]
      exact hbefore

end

end Tick

end PriceRequestProcessor

end MarketData
