import FeedAnalyzer.CompleteRun
import FeedAnalyzer.RequestLifecycle

/-!
# How one attempt ends

The closes of an attempt are a function of what the surroundings answer
(`closeAnswer`, `pairAnswer`).  `Contained` says when an attempt ends without an
exception that leaves a scheduler tick: it returns, or the data were invalid.
-/

namespace MarketData

open Feed Transact Proc PriceRequestProcessor

/-- A tick survives the result: a normal one, or invalid data. -/
def Calm {α : Type} : Except MarketDataError α → Prop
  | .ok _ => True
  | .error e => e.isInvalid = true

namespace PriceRequestProcessor

variable (P : PriceRequestProcessor) (w : Env P.registry)
  {s : Store P.registry} {e : MarketDataError} {request : P.Pending}
  {baseline : CloseObservation}

/-- The close that an asset's adapter makes of the answer. -/
def adapterAnswer (purpose : Purpose) (assetId : String) (session : Int) :
    Except MarketDataError CloseObservation := do
  let served ← P.adapterFor assetId
  let fetched ← w.bars purpose
  let observations ← fetched.1.mapM (served.2.observe served.1 fetched.2)
  match observations.find? (fun observation => observation.session = session) with
  | some observation => .ok observation
  | none =>
    .error (.priceNotYetAvailable (served.2.missing served.1.assetId (P.isoformat session)))

def closeAnswer (requestId : Uuid) (leg : Leg) (assetId : String) (session : Int) :
    Except MarketDataError CloseObservation :=
  (P.adapterAnswer w ⟨requestId, assetId, leg, .primary⟩ assetId session).tryCatch (fun e =>
    if e.isPending then
      match P.reg.resolve assetId with
      | .error unknown => .error (.ofRegistry unknown)
      | .ok series =>
        match series.fallback with
        | none => .error e
        | some fallback =>
          P.adapterAnswer w ⟨requestId, assetId, leg, .fallback⟩ fallback session
    else .error e)

/-- Whether the settlement session is over. -/
def settlementAnswer (request : P.Pending) (now : Int) : Except MarketDataError Unit :=
  ((w.window request.requestId).bind (fun closesAt =>
    if now < closesAt + graceMicros then
      .error (.avanzaPending "SESSION_STILL_OPEN_OR_FINALIZING")
    else .ok ())).tryCatch (fun e =>
    match e with
    | .avanzaPending message => .error (.avanzaPending message)
    | _ =>
      match P.reg.resolve request.assetId.value with
      | .error unknown => .error (.ofRegistry unknown)
      | .ok series =>
        (P.sessionComplete series request.settlementSession now).bind (fun complete =>
          if complete then .ok () else .error (.avanzaPending "SESSION_STILL_OPEN")))

def sampledAnswer (request : P.Pending) :
    Except MarketDataError (CloseObservation × CloseObservation) := do
  let first ← w.sampled request.requestId .baseline
  let last ← w.sampled request.requestId .settlement
  if first.sample.isSome ∧ last.sample.isSome ∧
      first.sample.map SampleProvenance.mappingVersion =
        last.sample.map SampleProvenance.mappingVersion then
    .ok (first, last)
  else .error (.avanzaUnavailable "PAIR_MAPPING_CHANGED")

/-- Both provider closes. -/
def financeAnswer (request : P.Pending) (reason : String) :
    Except MarketDataError (CloseObservation × CloseObservation) := do
  let first ← P.closeAnswer w request.requestId .baseline request.assetId.value
    request.baselineSession
  let last ← P.closeAnswer w request.requestId .settlement request.assetId.value
    request.settlementSession
  match P.reg.resolve request.assetId.value with
  | .error unknown => .error (.ofRegistry unknown)
  | .ok series =>
    if first.providerSymbol ≠ series.providerSymbol ∨
        last.providerSymbol ≠ series.providerSymbol then
      .error (.avanzaUnavailable "FINANCE_FALLBACK_LISTING_MISMATCH")
    else if samePair first last then
      .ok ({ first with fallbackReason := some reason },
        { last with fallbackReason := some reason })
    else .error (.avanzaUnavailable "FINANCE_FALLBACK_PAIR_MISMATCH")

def pairAnswer (request : P.Pending) (now : Int) :
    Except MarketDataError (CloseObservation × CloseObservation) := do
  P.settlementAnswer w request now
  (P.sampledAnswer w request).tryCatch (fun e =>
    match e with
    | .avanzaPending message => .error (.avanzaPending message)
    | _ => P.financeAnswer w request (fallbackReason e))

variable {P w}

theorem adapterClose_reads (purpose : Purpose) (assetId : String) (session : Int) :
    Reads handle w (P.adapterClose purpose assetId session)
      (P.adapterAnswer w purpose assetId session) := by
  apply reads_onOk
  intro served
  apply Reads.bind
  · exact reads_perform fun _ => rfl
  · intro fetched
    apply Reads.bind
    · cases fetched.1.mapM (served.2.observe served.1 fetched.2) with
      | ok observations => exact reads_ret observations
      | error e => exact reads_fail e
    · intro observations
      cases observations.find? (fun observation => observation.session = session) with
      | some observation => exact reads_ret observation
      | none => exact reads_fail _

theorem getClose_reads (requestId : Uuid) (leg : Leg) (assetId : String) (session : Int) :
    Reads handle w (P.getClose requestId leg assetId session)
      (P.closeAnswer w requestId leg assetId session) := by
  apply Reads.catchWith (adapterClose_reads _ _ _)
  intro e
  split
  · cases P.reg.resolve assetId with
    | error unknown => exact reads_fail _
    | ok series =>
      show Reads handle w (match series.fallback with
        | none => Proc.fail e
        | some fallback => P.adapterClose ⟨requestId, assetId, leg, .fallback⟩ fallback session)
        (match series.fallback with
        | none => .error e
        | some fallback =>
          P.adapterAnswer w ⟨requestId, assetId, leg, .fallback⟩ fallback session)
      cases series.fallback with
      | none => exact reads_fail e
      | some fallback => exact adapterClose_reads _ _ _
  · exact reads_fail e

variable {α β : Type} {p : P.Service α} {r : Except MarketDataError α}

/-- `except AvanzaPendingError: raise`, and something else otherwise. -/
private theorem reads_unlessAvanzaPending (hp : Reads handle w p r) (e : MarketDataError) :
    Reads handle w (match e with
      | .avanzaPending message => Proc.fail (.avanzaPending message)
      | _ => p)
      (match e with
      | .avanzaPending message => .error (.avanzaPending message)
      | _ => r) := by
  cases e with
  | avanzaPending message => exact reads_fail _
  | _ => exact hp

theorem awaitSettlement_reads (request : P.Pending) (now : Int) :
    Reads handle w (P.awaitSettlement request now) (P.settlementAnswer w request now) := by
  apply Reads.catchWith
  · apply Reads.bind
    · exact reads_perform fun _ => rfl
    · intro closesAt
      split
      · exact reads_fail _
      · exact reads_ret ()
  · apply reads_unlessAvanzaPending
    cases P.reg.resolve request.assetId.value with
    | error unknown => exact reads_fail _
    | ok series =>
      apply reads_onOk
      intro complete
      split
      · exact reads_ret ()
      · exact reads_fail _

theorem sampledPair_reads (request : P.Pending) (now : Int) :
    Reads handle w (P.sampledPair request now) (P.sampledAnswer w request) := by
  apply Reads.bind
  · exact reads_perform fun _ => rfl
  · intro first
    apply Reads.bind
    · exact reads_perform fun _ => rfl
    · intro last
      split
      · exact reads_ret _
      · exact reads_fail _

theorem financePair_reads (request : P.Pending) (reason : String) :
    Reads handle w (P.financePair request reason) (P.financeAnswer w request reason) := by
  apply Reads.bind (getClose_reads _ _ _ _)
  intro first
  apply Reads.bind (getClose_reads _ _ _ _)
  intro last
  cases P.reg.resolve request.assetId.value with
  | error unknown => exact reads_fail _
  | ok series =>
    dsimp only
    split
    · exact reads_fail _
    · split
      · exact reads_ret _
      · exact reads_fail _

theorem getPair_reads (request : P.Pending) (now : Int) :
    Reads handle w (P.getPair request now) (P.pairAnswer w request now) := by
  apply Reads.bind (awaitSettlement_reads request now)
  intro _
  apply Reads.catchWith (sampledPair_reads request now)
  intro e
  exact reads_unlessAvanzaPending (financePair_reads request _) e

variable (P w)

/-- When a request that is put off is tried again. -/
abbrev retryAt (request : P.Pending) : Except MarketDataError Int :=
  P.backoff.nextAttempt (w.clock (.currentTime (.deferral request.requestId))) request.attempts

abbrev giveUp (request : P.Pending) (reason : String) : Call P.registry :=
  .abandonRequest request.requestId
    (s!"abandoned after {P.abandonAfterDays} days past settlement " ++
      P.isoformat request.settlementSession ++ ": " ++ reason)

/-- The next attempt can be computed, and the write meets no fault. -/
def Defers (request : P.Pending) (reason : String) : Prop :=
  ∃ next, P.retryAt w request = .ok next ∧
    w.fault (.recordFailure request.requestId reason next) = none

/-- A missing close can be put off within the grace window and given up after it. -/
def DefersOrAbandons (request : P.Pending) (reason : String) (now : Int) : Prop :=
  ∃ ends, P.graceEnds request.settlementSession = .ok ends ∧
    if now / Calendar.microsPerDay ≤ ends then P.Defers w request reason
    else w.fault (P.giveUp request reason) = none

/-- Two closes make a message, which is stored without a fault. -/
def Completes (request : P.Pending) (baseline settlement : CloseObservation) : Prop :=
  ∃ message, buildPriceObserved request
      ⟨w.messageId request.requestId, w.clock (.newMessage request.requestId)⟩
      baseline settlement = .ok message ∧
    w.fault (.completeRequest message) = none

def SettlementContained (request : P.Pending) (series : ProviderSeries)
    (baseline : CloseObservation) (now : Int) : Prop :=
  match P.sessionComplete series request.settlementSession now with
  | .error e => e.isInvalid = true
  | .ok false => P.Defers w request "settlement session not yet complete"
  | .ok true =>
    match P.closeAnswer w request.requestId .settlement request.assetId.value
        request.settlementSession with
    | .ok settlement => P.Completes w request baseline settlement
    | .error e =>
      if e.isPending then
        P.DefersOrAbandons w request ("settlement pending: " ++ e.text) now
      else e.isInvalid = true

/-- An attempt with the providers' closes is contained. -/
def FinanceContained (request : P.Pending) (now : Int) : Prop :=
  ∃ series, P.reg.resolve request.assetId.value = .ok series ∧
    match P.closeAnswer w request.requestId .baseline request.assetId.value
        request.baselineSession with
    | .ok baseline =>
      (request.state = .pending → w.fault
        (.markBaselineObserved request.requestId request.assetId baseline) = none) ∧
      P.SettlementContained w request series baseline now
    | .error e =>
      if e.isPending then P.DefersOrAbandons w request ("baseline pending: " ++ e.text) now
      else e.isInvalid = true

/-- An attempt with sampled closes first is contained. -/
def SampledContained (request : P.Pending) (now : Int) : Prop :=
  match P.pairAnswer w request now with
  | .ok pair => P.Completes w request pair.1 pair.2
  | .error e =>
    if e.isPending then P.DefersOrAbandons w request e.text now else e.isInvalid = true

/-- **Contained attempts.**  The attempt raises nothing that leaves the tick. -/
def Contained (request : P.Pending) (now : Int) : Prop :=
  if P.avanzaFirst then P.SampledContained w request now else P.FinanceContained w request now

variable {P w}

/-- A write that raises nothing of its own fails on a fault only. -/
theorem calm_commit {c : Call P.registry}
    {transaction : Store P.registry → Except MarketDataError (α × Store P.registry)}
    (hok : ∃ result, transaction s = .ok result) :
    Calm (commit (w.error c) transaction s).1 ↔ w.fault c = none := by
  obtain ⟨result, hresult⟩ := hok
  unfold Env.error commit
  cases hfault : w.fault c with
  | none => simp [hresult, Calm]
  | some text => simp [Calm, MarketDataError.isInvalid]

/-- What follows a part that cannot raise does not change whether a run is
calm. -/
theorem calm_bind_ret {f : α → β} :
    Calm ((p.bind (fun a => .ret (f a))).finish handle w s).1 ↔ Calm (p.finish handle w s).1 := by
  apply finish_bind_rule (Q := fun result => Calm result.1 ↔ Calm (p.finish handle w s).1)
  · intro a s' hp
    rw [hp]
    exact Iff.rfl
  · intro e s' hp
    rw [hp]
    exact Iff.rfl

/-- A window without an end is not invalid data. -/
theorem isInvalid_graceEnds {session : Int} (herror : P.graceEnds session = .error e) :
    e.isInvalid = false := by
  unfold graceEnds at herror
  cases hdays : timedeltaOf (P.abandonAfterDays * Calendar.microsPerDay) with
  | error e' =>
    rw [hdays] at herror
    cases herror
    exact isInvalid_timedeltaOf hdays
  | ok _ =>
    rw [hdays] at herror
    simp only [Bind.bind, Except.bind] at herror
    split at herror
    · cases herror
    · cases herror
      rfl

/-- What is computed before a run goes on must be there, if its error would
leave the tick. -/
theorem calm_onOk_iff {x : Except MarketDataError β} {next : β → P.Service α} {Q : β → Prop}
    (herror : ∀ e, x = .error e → e.isInvalid = false)
    (hnext : ∀ b, x = .ok b → (Calm ((next b).finish handle w s).1 ↔ Q b)) :
    Calm (((Proc.onOk Proc.ret x).bind next).finish handle w s).1 ↔ ∃ b, x = .ok b ∧ Q b := by
  cases x with
  | error e =>
    refine iff_of_false (fun hcalm => absurd ((herror e rfl).symm.trans hcalm) (by decide)) ?_
    rintro ⟨b, ⟨⟩, _⟩
  | ok b =>
    refine (hnext b rfl).trans ⟨fun hQ => ⟨b, rfl, hQ⟩, ?_⟩
    rintro ⟨_, ⟨⟩, hQ⟩
    exact hQ

theorem defer_calm_iff (request : P.Pending) (reason : String) (s : Store P.registry) :
    Calm ((P.defer request reason).finish handle w s).1 ↔ P.Defers w request reason := by
  have hclock : (handle w (.currentTime (.deferral request.requestId)) s).1 =
      .ok (w.clock (.currentTime (.deferral request.requestId))) := rfl
  unfold defer Defers
  rw [bind_eq, finish_perform hclock]
  refine calm_onOk_iff (fun _ => P.backoff.isInvalid_nextAttempt) fun next _ => ?_
  rw [finish_call]
  exact calm_commit ⟨_, rfl⟩

theorem deferOrAbandon_calm_iff (request : P.Pending) (reason : String)
    (now : Int) (s : Store P.registry) :
    Calm ((P.deferOrAbandon request reason now).finish handle w s).1 ↔
      P.DefersOrAbandons w request reason now := by
  refine calm_onOk_iff (fun _ => isInvalid_graceEnds) fun ends _ => ?_
  split
  · exact calm_bind_ret.trans (defer_calm_iff request reason s)
  · apply calm_bind_ret.trans
    rw [finish_call]
    exact calm_commit ⟨_, rfl⟩

/-- The id drawn for a message is no other request's. -/
def IdFree (w : Env P.registry) (s : Store P.registry) (requestId : Uuid) : Prop :=
  s.outbox.has requestId = true ∨ ∀ row ∈ s.outbox, row.messageId ≠ w.messageId requestId

/-- A message that cannot be built is not reported as invalid data. -/
theorem isInvalid_buildPriceObserved {envelope : Envelope} {settlement : CloseObservation}
    (herror : buildPriceObserved request envelope baseline settlement = .error e) :
    e.isInvalid = false := by
  unfold buildPriceObserved at herror
  split at herror
  · cases herror
  · split at herror <;> cases herror <;> rfl

theorem completeRequest_ok {message : PriceObserved P.registry}
    (hid : message.messageId = w.messageId message.requestId) (hfree : IdFree w s message.requestId)
    (now : Int) : ∃ result, s.completeRequest message now = .ok result := by
  unfold Store.completeRequest
  cases hhas : s.outbox.has message.requestId with
  | true => exact ⟨_, rfl⟩
  | false =>
    have hrows : ∀ row ∈ s.outbox, row.messageId ≠ w.messageId message.requestId := by
      cases hfree with
      | inl htrue => rw [hhas] at htrue; cases htrue
      | inr hrows => exact hrows
    have hany : ¬ s.outbox.rows.any (fun row => row.messageId = message.messageId) := by
      intro hany
      obtain ⟨row, hrow, heq⟩ := List.any_eq_true.mp hany
      exact hrows row hrow ((of_decide_eq_true heq).trans hid)
    simp only [Bool.false_eq_true, if_false, dif_neg hany]
    exact ⟨_, rfl⟩

theorem complete_calm_iff (hfree : IdFree w s request.requestId)
    (baseline settlement : CloseObservation) :
    Calm ((P.complete request baseline settlement).finish handle w s).1 ↔
      P.Completes w request baseline settlement := by
  have henvelope : (handle w (.newMessage request.requestId) s).1 =
      .ok ⟨w.messageId request.requestId, w.clock (.newMessage request.requestId)⟩ := rfl
  unfold PriceRequestProcessor.complete Completes
  rw [bind_eq, finish_perform henvelope]
  refine calm_onOk_iff (fun _ => isInvalid_buildPriceObserved) fun message hbuild => ?_
  obtain ⟨hrequest, _, _, _, hid⟩ := buildPriceObserved_eq_ok hbuild
  rw [← hrequest] at hid hfree
  apply calm_bind_ret.trans
  rw [finish_call]
  exact calm_commit (completeRequest_ok hid hfree _)

variable {s' : Store P.registry}

/-- **A close that may be missing.**  The attempt goes on with it or with the reason why it
is missing, or ends. -/
theorem finish_unlessPending {s : Store P.registry} (next : Except String α → P.Service β) :
    p.finish handle w s = (r, s') → ((P.unlessPending p).bind next).finish handle w s =
      match r with
      | .ok a => (next (.ok a)).finish handle w s'
      | .error e =>
        if e.isPending then (next (.error e.text)).finish handle w s' else (.error e, s') := by
  intro hp
  cases r with
  | ok a => exact finish_bind_ok (finish_catch_ok (finish_bind_ok hp))
  | error e =>
    have hcatch : (P.unlessPending p).finish handle w s =
        (if e.isPending then .ret (.error e.text) else .fail e : P.Service _).finish handle w s' :=
      finish_catch_error (finish_bind_error hp)
    dsimp only
    split
    · next he => exact finish_bind_ok (by rw [hcatch, if_pos he]; rfl)
    · next he => exact finish_bind_error (by rw [hcatch, if_neg he]; rfl)

theorem processAvanzaFirst_calm_iff (hfree : IdFree w s request.requestId) (now : Int) :
    Calm ((P.processAvanzaFirst request now).finish handle w s).1 ↔
      P.SampledContained w request now := by
  unfold processAvanzaFirst SampledContained
  rw [bind_eq, finish_unlessPending _ (getPair_reads request now s)]
  cases P.pairAnswer w request now with
  | ok pair => exact complete_calm_iff hfree pair.1 pair.2
  | error e =>
    dsimp only
    split
    · exact calm_bind_ret.trans (deferOrAbandon_calm_iff request e.text now s)
    · exact Iff.rfl

/-- When `settle` raises nothing. -/
theorem settle_calm_iff (hfree : IdFree w s request.requestId) (series : ProviderSeries)
    (baseline : CloseObservation) (now : Int) :
    Calm ((P.settle request series baseline now).finish handle w s).1 ↔
      P.SettlementContained w request series baseline now := by
  unfold settle SettlementContained
  cases P.sessionComplete series request.settlementSession now with
  | error e => exact Iff.rfl
  | ok complete =>
    cases complete with
    | false => exact calm_bind_ret.trans (defer_calm_iff request _ s)
    | true =>
      simp only [bind_eq, onOk_ok, ret_bind, if_true]
      rw [finish_unlessPending _ (getClose_reads _ _ _ _ s)]
      cases P.closeAnswer w request.requestId .settlement request.assetId.value
          request.settlementSession with
      | ok settlement => exact complete_calm_iff hfree baseline settlement
      | error e =>
        dsimp only
        split
        · exact calm_bind_ret.trans (deferOrAbandon_calm_iff request _ now s)
        · exact Iff.rfl

theorem outbox_markBaselineObserved (requestId : Uuid) (assetId : AssetId P.registry)
    (baseline : CloseObservation) (s : Store P.registry) :
    (handle w (.markBaselineObserved requestId assetId baseline) s).2.outbox = s.outbox :=
  commit_done (Q := fun s' : Store P.registry => s'.outbox = s.outbox) rfl rfl
    (s.outbox_upsertObservation assetId baseline)

section

variable (hanswer : P.closeAnswer w request.requestId .baseline request.assetId.value request.baselineSession = .ok baseline)

include hanswer

/-- The baseline is recorded once, while the request is pending. -/
theorem observeBaseline_ok (s : Store P.registry) :
    (P.observeBaseline request).finish handle w s =
      if request.state = .pending then
        ((handle w (.markBaselineObserved request.requestId request.assetId baseline) s).1.map
            (fun _ => baseline),
          (handle w (.markBaselineObserved request.requestId request.assetId baseline) s).2)
      else (.ok baseline, s) := by
  have hclose := getClose_reads (w := w) request.requestId .baseline request.assetId.value
    request.baselineSession s
  rw [hanswer] at hclose
  unfold observeBaseline
  rw [bind_eq, finish_bind_ok hclose]
  split
  · rw [bind_eq, ask_bind]
    show (Proc.onOk (fun _ => Proc.ret baseline)
      (handle w (.markBaselineObserved request.requestId request.assetId baseline) s).1).finish
        handle w _ = _
    cases (handle w (.markBaselineObserved request.requestId request.assetId baseline) s).1 <;> rfl
  · rfl

omit hanswer in
theorem observeBaseline_error
    (hanswer : P.closeAnswer w request.requestId .baseline request.assetId.value
      request.baselineSession = .error e) (s : Store P.registry) :
    (P.observeBaseline request).finish handle w s = (.error e, s) := by
  have hclose := getClose_reads (w := w) request.requestId .baseline request.assetId.value
    request.baselineSession s
  rw [hanswer] at hclose
  exact finish_bind_error hclose

/-- A recorded baseline leads on to the settlement; a fault in recording it
ends the attempt. -/
theorem observed_calm_iff {next : Except String CloseObservation → P.Service ProcessOutcome}
    {Q : Prop}
    (hnext : ∀ s', s'.outbox = s.outbox → (Calm ((next (.ok baseline)).finish handle w s').1 ↔ Q)) :
    Calm (((P.unlessPending (P.observeBaseline request)).bind next).finish handle w s).1 ↔
      (request.state = .pending → w.fault
        (.markBaselineObserved request.requestId request.assetId baseline) = none) ∧ Q := by
  have hobserve := observeBaseline_ok hanswer s
  by_cases hstate : request.state = .pending
  · have houtbox := outbox_markBaselineObserved (w := w) request.requestId request.assetId
      baseline s
    rw [if_pos hstate] at hobserve
    cases hfault : w.fault
        (.markBaselineObserved request.requestId request.assetId baseline) with
    | none =>
      have hmark : (handle w
          (.markBaselineObserved request.requestId request.assetId baseline) s).1 = .ok () := by
        simp [handle, commit, Env.error, hfault, Store.markBaselineObserved]
      rw [hmark] at hobserve
      rw [finish_unlessPending _ hobserve]
      exact (hnext _ houtbox).trans ⟨fun hQ => ⟨fun _ => rfl, hQ⟩, And.right⟩
    | some text =>
      have hmark : (handle w (.markBaselineObserved request.requestId request.assetId
          baseline) s).1 = .error (.database text) := by
        simp [handle, commit, Env.error, hfault]
      rw [hmark] at hobserve
      rw [finish_unlessPending _ hobserve]
      refine iff_of_false (fun hcalm => by cases hcalm) fun hboth => ?_
      cases hboth.1 hstate
  · rw [if_neg hstate] at hobserve
    rw [finish_unlessPending _ hobserve]
    exact (hnext s rfl).trans ⟨fun hQ => ⟨fun h => absurd h hstate, hQ⟩, And.right⟩

end

theorem IdFree.of_outbox {requestId : Uuid} (hfree : IdFree w s requestId)
    (hsame : s'.outbox = s.outbox) : IdFree w s' requestId := by
  unfold IdFree
  rw [hsame]
  exact hfree

section

variable (hfree : IdFree w s request.requestId) (now : Int)

include hfree

/-- When the finance path raises nothing. -/
theorem processFinance_calm_iff :
    Calm ((P.processFinance request now).finish handle w s).1 ↔
      P.FinanceContained w request now := by
  obtain ⟨series, hresolve⟩ := P.reg.resolve_assetId request.assetId
  unfold processFinance FinanceContained
  rw [hresolve]
  simp only [Except.ok.injEq, exists_eq_left', bind_eq]
  cases hanswer : P.closeAnswer w request.requestId .baseline request.assetId.value
      request.baselineSession with
  | ok baseline =>
    apply observed_calm_iff hanswer
    intro s' hsame
    exact settle_calm_iff (hfree.of_outbox hsame) series baseline now
  | error e =>
    rw [finish_unlessPending _ (observeBaseline_error hanswer s)]
    dsimp only
    split
    · exact calm_bind_ret.trans (deferOrAbandon_calm_iff request _ now s)
    · exact Iff.rfl

/-- **One attempt.**  It ends without an exception that leaves the tick exactly
when what the surroundings answer is contained. -/
theorem process_calm_iff :
    Calm ((P.process request now).finish handle w s).1 ↔ P.Contained w request now := by
  unfold PriceRequestProcessor.process Contained
  split
  · exact processAvanzaFirst_calm_iff hfree now
  · exact processFinance_calm_iff hfree now

end

/-- The writes of an attempt keep `Inv`; the message has the id drawn for it. -/
structure AttemptKeeps (w : Env P.registry) (Inv : Store P.registry → Prop)
    (request : P.Pending) : Prop where
  mark : ∀ baseline s, Inv s →
    Inv (handle w (.markBaselineObserved request.requestId request.assetId baseline) s).2
  failure : ∀ error next s, Inv s → Inv (handle w (.recordFailure request.requestId error next) s).2
  abandon : ∀ reason s, Inv s → Inv (handle w (.abandonRequest request.requestId reason) s).2
  complete : ∀ message s, message.requestId = request.requestId →
    message.messageId = w.messageId request.requestId → Inv s →
      Inv (handle w (.completeRequest message) s).2

section AttemptKeeps

variable {Inv : Store P.registry → Prop} {request : P.Pending}

/-- An attempt is told what `w` answers, and its other calls only read. -/
theorem AttemptKeeps.attemptable (hkeeps : AttemptKeeps w Inv request) :
    P.Attemptable (fun c r => ∃ s, (handle w c s).1 = r)
      (fun c => ∀ s, Inv s → Inv (handle w c s).2) (fun _ => True) request where
  fetch _ _ _ _ hs := hs
  window _ _ hs := hs
  sampled _ _ _ _ hs := hs
  time _ _ hs := hs
  newMessage _ hs := hs
  failure error next := hkeeps.failure error next
  abandon reason := hkeeps.abandon reason
  routed _ _ _ _ := trivial
  sampledClose _ _ _ _ _ _ := trivial
  labelled _ _ _ _ := trivial
  mark baseline _ := hkeeps.mark baseline
  complete := by
    rintro _ message ⟨_, ⟨⟩⟩ hid hrequest _ _ _ s hs
    exact hkeeps.complete message s hrequest hid hs

/-- The writes of an attempt are the four of `AttemptKeeps`. -/
theorem AttemptKeeps.process (hkeeps : AttemptKeeps w Inv request) (now : Int) :
    Preserves handle w Inv (P.process request now) :=
  (hkeeps.attemptable.process now).preserves (fun _ s => ⟨s, rfl⟩) fun _ hc => hc

end AttemptKeeps

end PriceRequestProcessor

end MarketData
