import FeedAnalyzer.ConformingProc
import FeedAnalyzer.MarketDataPipeline

/-!
# What the Market Data service asks for

Which calls each function makes, and what is known of the closes it works with
(`FetchedClose`); `run_conforms` is the rule for a whole delivery or tick.
-/

namespace MarketData

open Feed Transact Proc List

variable {adapter : Adapter} {series : ProviderSeries} {baseline settlement : CloseObservation}

/-- What an observation takes from its bar and series. -/
theorem Adapter.observe_eq_ok {fetchedAt : Int} {bar : Bar} {observation : CloseObservation}
    (hok : adapter.observe series fetchedAt bar = .ok observation) :
    observation.session = bar.session ∧ observation.close = bar.close ∧
      observation.sample = none ∧ observation.providerSymbol = series.providerSymbol ∧
        observation.priceKind ≠ .avanzaSampledClose := by
  unfold observe at hok
  split at hok
  · cases hok
  · split at hok
    · cases hok
    · next hkind =>
      cases hok
      exact ⟨rfl, rfl, rfl, rfl, hkind⟩

/-- Only a consistent message is built, and it carries the request's two
closes. -/
theorem buildPriceObserved_eq_ok {reg : Registry} {request : PendingRequest reg}
    {envelope : Envelope} {message : PriceObserved reg}
    (hok : buildPriceObserved request envelope baseline settlement = .ok message) :
    message.requestId = request.requestId ∧ message.assetId = request.assetId ∧
      message.baseline = baseline ∧ message.settlement = settlement ∧
        message.messageId = envelope.messageId := by
  unfold buildPriceObserved at hok
  split at hok
  · cases hok
    exact ⟨rfl, rfl, rfl, rfl, rfl⟩
  · split at hok <;> cases hok

namespace PriceRequestProcessor

variable (P : PriceRequestProcessor)
  (Adm : (c : Call P.registry) → Except MarketDataError c.Ret → Prop)
  (Φ : Call P.registry → Prop)

/-- A close that a provider delivered: the registry labels it, and an admitted answer has
its bar. -/
structure FetchedClose (purpose : Purpose) (series : ProviderSeries) (session : Int)
    (observation : CloseObservation) : Prop where
  session_eq : observation.session = session
  unsampled : observation.sample = none
  symbol_eq : observation.providerSymbol = series.providerSymbol
  fetched : ∃ answer, Adm (.fetchBars purpose series session) (.ok answer) ∧
    ∃ bar ∈ answer.1, bar.session = session

/-- The close is the asset's own, or its declared fallback's. -/
inductive RoutedClose (requestId : Uuid) (leg : Leg) (assetId : String) (session : Int)
    (observation : CloseObservation) : Prop where
  | primary (series : ProviderSeries) (hresolve : P.reg.resolve assetId = .ok series)
      (hfetched : P.FetchedClose Adm ⟨requestId, assetId, leg, .primary⟩ series session observation)
  | fallback (series other : ProviderSeries) (fallbackId : String)
      (hresolve : P.reg.resolve assetId = .ok series) (hfallback : series.fallback = some fallbackId)
      (hother : P.reg.resolve fallbackId = .ok other)
      (hfetched : P.FetchedClose Adm ⟨requestId, assetId, leg, .fallback⟩ other session observation)

/-- The calls of an attempt, where every close satisfies `C`. -/
structure Attemptable (C : CloseObservation → Prop) (request : P.Pending) :
    Prop where
  fetch : ∀ purpose series session, Φ (.fetchBars purpose series session)
  window : ∀ session, Φ (.sessionWindow request.requestId request.assetId session)
  sampled : ∀ leg session now, Φ (.sampledClose request.requestId leg request.assetId session now)
  time : ∀ use, Φ (.currentTime use)
  newMessage : Φ (.newMessage request.requestId)
  failure : ∀ error next, Φ (.recordFailure request.requestId error next)
  abandon : ∀ reason, Φ (.abandonRequest request.requestId reason)
  routed : ∀ leg session observation,
    P.RoutedClose Adm request.requestId leg request.assetId.value session observation →
      C observation
  sampledClose : P.avanzaFirst = true → ∀ leg session now observation,
    Adm (.sampledClose request.requestId leg request.assetId session now) (.ok observation) →
      C observation
  labelled : P.avanzaFirst = true → ∀ observation reason, C observation →
    C { observation with fallbackReason := some reason }
  mark : ∀ observation, C observation →
    Φ (.markBaselineObserved request.requestId request.assetId observation)
  complete : ∀ envelope (message : PriceObserved P.registry),
    Adm (.newMessage request.requestId) (.ok envelope) → message.messageId = envelope.messageId →
      message.requestId = request.requestId → message.assetId = request.assetId →
        C message.baseline → C message.settlement → Φ (.completeRequest message)

variable {P Adm Φ}

/-- The adapter is the one of the asset's series. -/
theorem adapterFor_eq_ok {assetId : String} {served : ProviderSeries × Adapter}
    (hok : P.adapterFor assetId = .ok served) : P.reg.resolve assetId = .ok served.1 := by
  unfold adapterFor at hok
  split at hok
  · cases hok
  · next series hresolve =>
    split at hok
    · cases hok
    · cases hok
      exact hresolve

/-- A close is fetched by one call. -/
theorem closeFrom_conforms {purpose : Purpose} {session : Int}
    (hfetch : Φ (.fetchBars purpose series session)) :
    (P.closeFrom purpose series adapter session).Conforms Adm Φ
      (P.FetchedClose Adm purpose series session) := by
  apply conforms_perform hfetch
  intro answer hanswer
  cases hread : answer.1.mapM (adapter.observe series answer.2) with
  | error e => trivial
  | ok observations =>
    dsimp only [onOk, Bind.bind, Proc.bind]
    cases hfind : observations.find? (fun observation => observation.session = session) with
    | none => trivial
    | some observation =>
      have hsession : observation.session = session := by simpa using find?_some hfind
      obtain ⟨bar, hbar, hobserve⟩ :=
        exists_of_mapM_ok hread (mem_of_find?_eq_some hfind)
      obtain ⟨hbarSession, _, hsample, hsymbol, _⟩ := Adapter.observe_eq_ok hobserve
      exact ⟨hsession, hsample, hsymbol, answer, hanswer, bar, hbar,
        hbarSession.symm.trans hsession⟩

/-- The router fetches from the asset or its fallback. -/
theorem getClose_conforms (hfetch : ∀ purpose series session, Φ (.fetchBars purpose series session))
    (requestId : Uuid) (leg : Leg) (assetId : String) (session : Int) :
    (P.getClose requestId leg assetId session).Conforms Adm Φ
      (P.RoutedClose Adm requestId leg assetId session) := by
  apply Conforms.catchWith
  · apply conforms_onOk
    intro served hserved
    exact (closeFrom_conforms (hfetch _ _ _)).mono
      fun observation hfetched => .primary _ (adapterFor_eq_ok hserved) hfetched
  · intro e
    split
    · split
      · trivial
      · next series hresolve =>
        split
        · trivial
        · next fallbackId hfallback =>
          apply conforms_onOk
          intro served hserved
          apply (closeFrom_conforms (hfetch _ _ _)).mono
          intro observation hfetched
          exact .fallback series _ fallbackId hresolve hfallback (adapterFor_eq_ok hserved) hfetched
    · trivial

/-- A close that may be missing. -/
theorem unlessPending_conforms {α : Type} {R : α → Prop} {p : P.Service α}
    (hp : p.Conforms Adm Φ R) :
    (P.unlessPending p).Conforms Adm Φ (fun result => ∀ a, result = .ok a → R a) := by
  apply Conforms.catchWith
  · apply hp.bind
    intro a ha b hb
    cases hb
    exact ha
  · intro e
    split
    · intro a ha
      cases ha
    · trivial

section Attempt

variable {C : CloseObservation → Prop} {request : P.Pending}

section

variable (hask : P.Attemptable Adm Φ C request)

include hask

/-- Fetching a close of the request. -/
theorem Attemptable.getClose (leg : Leg) (session : Int) :
    (P.getClose request.requestId leg request.assetId.value session).Conforms Adm Φ C :=
  (getClose_conforms hask.fetch _ _ _ _).mono (hask.routed leg session)

/-- Putting it off. -/
theorem Attemptable.defer (reason : String) :
    (P.defer request reason).Conforms Adm Φ (fun _ => True) := by
  apply conforms_perform (hask.time _)
  intro now _
  apply Conforms.bind
  · exact conforms_onOk fun _ _ => trivial
  · intro wait _
    exact (conforms_call (I := Repository P.registry) (hask.failure _ _)).mono fun _ _ => trivial

/-- Putting it off or giving it up. -/
theorem Attemptable.deferOrAbandon (reason : String) (now : Int) :
    (P.deferOrAbandon request reason now).Conforms Adm Φ (fun _ => True) := by
  apply Conforms.bind
  · exact conforms_onOk fun _ _ => trivial
  · intro graceEnds _
    split
    · exact (hask.defer reason).bind fun _ _ => trivial
    · exact conforms_perform (hask.abandon _) fun _ _ => trivial

/-- Completing it. -/
theorem Attemptable.completes (hbaseline : C baseline) (hsettlement : C settlement) :
    (P.complete request baseline settlement).Conforms Adm Φ (fun _ => True) := by
  apply conforms_perform hask.newMessage
  intro envelope hdrawn
  cases hbuild : buildPriceObserved request envelope baseline settlement with
  | error e => trivial
  | ok message =>
    obtain ⟨hid, hasset, hb, hs, hdrawnId⟩ := buildPriceObserved_eq_ok hbuild
    rw [← hb] at hbaseline
    rw [← hs] at hsettlement
    exact conforms_perform (hask.complete envelope message hdrawn hdrawnId hid hasset hbaseline
      hsettlement) fun _ _ => trivial

/-- Observing its baseline. -/
theorem Attemptable.observeBaseline : (P.observeBaseline request).Conforms Adm Φ C := by
  apply (hask.getClose .baseline request.baselineSession).bind
  intro baseline hbaseline
  split
  · exact conforms_perform (hask.mark baseline hbaseline) fun _ _ => hbaseline
  · exact hbaseline

/-- What follows the baseline. -/
theorem Attemptable.settle (series : ProviderSeries) (hbaseline : C baseline) (now : Int) :
    (P.settle request series baseline now).Conforms Adm Φ (fun _ => True) := by
  apply Conforms.bind
  · exact conforms_onOk fun _ _ => trivial
  · intro complete _
    split
    · apply (unlessPending_conforms (hask.getClose .settlement request.settlementSession)).bind
      intro result hresult
      cases result with
      | error text => exact (hask.deferOrAbandon _ now).bind fun _ _ => trivial
      | ok settlement => exact hask.completes hbaseline (hresult settlement rfl)
    · exact (hask.defer _).bind fun _ _ => trivial

/-- An attempt with the providers' closes. -/
theorem Attemptable.processFinance (now : Int) :
    (P.processFinance request now).Conforms Adm Φ (fun _ => True) := by
  unfold PriceRequestProcessor.processFinance
  split
  · trivial
  · next series hresolve =>
    apply (unlessPending_conforms hask.observeBaseline).bind
    intro result hresult
    cases result with
    | error text => exact (hask.deferOrAbandon _ now).bind fun _ _ => trivial
    | ok baseline => exact hask.settle series (hresult baseline rfl) now

/-- Waiting for the settlement session. -/
theorem Attemptable.awaitSettlement (now : Int) :
    (P.awaitSettlement request now).Conforms Adm Φ (fun _ => True) := by
  apply Conforms.catchWith
  · apply conforms_perform (hask.window _)
    intro closesAt _
    split <;> trivial
  · intro e
    split
    · trivial
    · split
      · trivial
      · apply conforms_onOk
        intro complete _
        split <;> trivial

/-- Both closes from the providers. -/
theorem Attemptable.financePair (hmode : P.avanzaFirst) (reason : String) :
    (P.financePair request reason).Conforms Adm Φ (fun pair => C pair.1 ∧ C pair.2) := by
  apply (hask.getClose .baseline request.baselineSession).bind
  intro first hfirst
  apply (hask.getClose .settlement request.settlementSession).bind
  intro last hlast
  split
  · trivial
  · split
    · trivial
    · split
      · exact ⟨hask.labelled hmode first reason hfirst, hask.labelled hmode last reason hlast⟩
      · trivial

/-- Both closes, sampled ones first. -/
theorem Attemptable.getPair (hmode : P.avanzaFirst) (now : Int) :
    (P.getPair request now).Conforms Adm Φ (fun pair => C pair.1 ∧ C pair.2) := by
  apply (hask.awaitSettlement now).bind
  intro _ _
  apply Conforms.catchWith
  · apply conforms_perform (hask.sampled _ _ _)
    intro first hfirst
    apply conforms_perform (hask.sampled _ _ _)
    intro last hlast
    split
    · exact ⟨hask.sampledClose hmode _ _ _ _ hfirst, hask.sampledClose hmode _ _ _ _ hlast⟩
    · trivial
  · intro e
    split
    · trivial
    · exact hask.financePair hmode _

/-- **One attempt.** -/
theorem Attemptable.process (now : Int) :
    (P.process request now).Conforms Adm Φ (fun _ => True) := by
  unfold PriceRequestProcessor.process
  split
  · next hmode =>
    apply (unlessPending_conforms (hask.getPair hmode now)).bind
    intro result hresult
    cases result with
    | error text => exact (hask.deferOrAbandon _ now).bind fun _ _ => trivial
    | ok pair => exact hask.completes (hresult pair rfl).1 (hresult pair rfl).2
  · exact hask.processFinance now

end

end Attempt

/-- The relay asks nothing but the outbox and the broker. -/
theorem publishPending_conforms (hpending : ∀ n, Φ (.pendingOutbox n))
    (hpublish : ∀ message, Φ (.publish message))
    (herror : ∀ messageId error, Φ (.recordPublishError messageId error))
    (hdelivered : ∀ messageId, Φ (.markDelivered messageId)) :
    P.publishPending.Conforms Adm Φ (fun _ => True) := by
  apply conforms_perform (hpending _)
  intro rows hrows
  clear hrows
  induction rows with
  | nil => trivial
  | cons row rest ih =>
    apply Conforms.bind (R := fun _ => True)
    · apply Conforms.catchWith
      · exact conforms_perform (hpublish _) fun _ _ => trivial
      · exact fun _ => trivial
    · intro error _
      cases error with
      | some text =>
        exact conforms_perform (herror _ _) fun _ _ => ih
      | none =>
        apply conforms_perform (hdelivered _)
        exact fun _ _ => ih.bind fun _ _ => trivial

/-- The loop over the due requests. -/
theorem reDrive_conforms {now : Int} {requests : List P.Pending}
    (hrequests : ∀ request ∈ requests, ∃ C, P.Attemptable Adm Φ C request) :
    (P.reDrive now requests).Conforms Adm Φ (fun _ => True) := by
  induction requests with
  | nil => trivial
  | cons request rest ih =>
    obtain ⟨C, hask⟩ := hrequests request mem_cons_self
    apply Conforms.bind (R := fun _ => True)
    · apply Conforms.catchWith
      · exact (hask.process now).bind fun _ _ => trivial
      · intro e
        split <;> trivial
    · exact fun _ _ => ih fun request' hmem => hrequests request' (mem_cons_of_mem _ hmem)

/-- **A delivery or a tick** makes allowed calls when the attempts on what it loads do. -/
theorem run_conforms (hregister : ∀ message, Φ (.registerRequest message))
    (hload : Φ .loadOpenRequests) (htime : ∀ use, Φ (.currentTime use))
    (hpending : ∀ n, Φ (.pendingOutbox n)) (hpublish : ∀ message, Φ (.publish message))
    (herror : ∀ messageId error, Φ (.recordPublishError messageId error))
    (hdelivered : ∀ messageId, Φ (.markDelivered messageId))
    (hrequests : ∀ requests, Adm .loadOpenRequests (.ok requests) →
      ∀ request ∈ requests, ∃ C, P.Attemptable Adm Φ C request)
    (job : Job P.registry) : (P.run job).Conforms Adm Φ (fun _ => True) := by
  have hrelay : P.publishPending.Conforms Adm Φ (fun _ => True) :=
    publishPending_conforms hpending hpublish herror hdelivered
  cases job with
  | deliver message =>
    apply conforms_perform (hregister message)
    intro _ _
    apply conforms_perform hload
    intro requests hanswer
    split
    · trivial
    · next target hfind =>
      obtain ⟨C, hask⟩ := hrequests requests hanswer target (mem_of_find?_eq_some hfind)
      apply conforms_perform (htime _)
      intro now _
      apply Conforms.bind
      · apply (hask.process now).catchWith
        intro e
        split <;> trivial
      · intro outcome _
        split
        · exact hrelay.bind fun _ _ => trivial
        · trivial
  | tick =>
    apply Conforms.bind (R := fun _ => True)
    · apply Conforms.catchWith
      · apply conforms_perform hload
        intro requests hanswer
        apply Conforms.bind (R := fun _ => True)
        · apply conforms_perform (htime _)
          intro now _
          apply (reDrive_conforms (hrequests requests hanswer)).bind
          exact fun _ _ => hrelay.bind fun _ _ => trivial
        · exact fun _ _ => trivial
      · exact fun _ => trivial
    · exact fun _ _ => trivial

end PriceRequestProcessor

end MarketData
