import FeedAnalyzer.RequestLifecycle

/-!
# Stored and published closes

A close is stored once for each asset, session and registry version, and every attempt
fetches its closes again.

* `one_close_iff`: the messages that mention one session of an asset carry one close
  exactly when requests are completed with closes that agree with the stored ones.
* `own_symbols`: the closes of a message are of the asset's own instrument when each
  fallback that delivers has the symbol of the asset it stands in for.
-/

namespace MarketData

open Feed Transact List Store Table PriceRequestProcessor

variable {row : CloseRow}

section Effects

variable {reg : Registry}

namespace Store

def messages (s : Store reg) : List (PriceObserved reg) := s.outbox.rows.map OutboxRow.payload

/-- Both closes of a message, as `complete_request` stores them. -/
def storeCloses (s : Store reg) (message : PriceObserved reg) : Store reg :=
  (s.upsertObservation message.assetId message.baseline).upsertObservation message.assetId
    message.settlement

variable {s : Store reg} {observation : CloseObservation}

theorem mem_upsertObservation {assetId : AssetId reg}
    (hrow : row ∈ (s.upsertObservation assetId observation).closeObservations) :
    row ∈ s.closeObservations ∨ row = ⟨assetId.value, observation⟩ := by
  unfold upsertObservation at hrow
  split at hrow
  · exact Or.inl hrow
  · exact (mem_insertNew.mp hrow).imp id And.right

theorem upsertObservation_stays (assetId : AssetId reg) (observation : CloseObservation)
    (hrow : row ∈ s.closeObservations) :
    row ∈ (s.upsertObservation assetId observation).closeObservations := by
  unfold upsertObservation
  split
  · exact hrow
  · exact mem_insertNew_of_mem hrow

/-- After an upsert some close of the key is stored: the one that was there, or
the new one. -/
theorem exists_of_upsertObservation (s : Store reg) (assetId : AssetId reg)
    (hsample : observation.sample = none) :
    ∃ row ∈ (s.upsertObservation assetId observation).closeObservations,
      row.key = (assetId.value, observation.session, observation.registryVersion) ∧
      (row ∈ s.closeObservations ∨ row.observation = observation) := by
  have hupsert : (s.upsertObservation assetId observation).closeObservations =
      s.closeObservations.insertNew ⟨assetId.value, observation⟩ := by
    simp [upsertObservation, hsample]
  rw [hupsert]
  cases hhas : s.closeObservations.has (CloseRow.key ⟨assetId.value, observation⟩) with
  | true =>
    obtain ⟨row, hrow, hkey⟩ := has_eq_true_iff.mp hhas
    exact ⟨row, mem_insertNew_of_mem hrow, hkey, Or.inl hrow⟩
  | false =>
    exact ⟨⟨assetId.value, observation⟩, mem_insertNew.mpr (Or.inr ⟨hhas, rfl⟩), rfl, Or.inr rfl⟩

theorem messages_updateOutbox (s : Store reg) (messageId : Uuid) {f : OutboxRow reg → OutboxRow reg}
    (hf : ∀ row, (f row).aggregateId = row.aggregateId)
    (hid : ∀ row, (f row).messageId = row.messageId)
    (hpayload : ∀ row, (f row).payload = row.payload) :
    (s.updateOutbox messageId f hf hid).messages = s.messages :=
  map_rows_updateWhere s.outbox _ hf hpayload

end Store

/-- A completion that puts its message into the outbox. -/
def Enqueues (w : Env reg) (s : Store reg) (message : PriceObserved reg) : Prop :=
  w.fault (.completeRequest message) = none ∧ s.outbox.has message.requestId = false ∧
    ∀ row ∈ s.outbox, row.messageId ≠ message.messageId

/-- **What a call does to the stored closes and the messages.** -/
inductive PublishEffect (w : Env reg) (c : Call reg) (s s' : Store reg) : Prop where
  /-- Nothing. -/
  | same (hcloses : s'.closeObservations = s.closeObservations)
      (hmessages : s'.messages = s.messages)
  /-- A baseline close was stored. -/
  | marked (requestId : Uuid) (assetId : AssetId reg) (baseline : CloseObservation)
      (hcall : c = .markBaselineObserved requestId assetId baseline)
      (hcloses : s'.closeObservations = (s.upsertObservation assetId baseline).closeObservations)
      (hmessages : s'.messages = s.messages)
  /-- Both closes were stored, for a request that has its message already. -/
  | repeated (message : PriceObserved reg) (hcall : c = .completeRequest message)
      (hcloses : s'.closeObservations = (s.storeCloses message).closeObservations)
      (hmessages : s'.messages = s.messages)
  /-- Both closes were stored, and the message went into the outbox. -/
  | enqueued (message : PriceObserved reg) (hcall : c = .completeRequest message)
      (henqueues : Enqueues w s message)
      (hcloses : s'.closeObservations = (s.storeCloses message).closeObservations)
      (hmessages : s'.messages = s.messages ++ [message])

variable {s : Store reg} {w : Env reg} {message : PriceObserved reg} {s' : Store reg}

theorem completeRequest_publish {now : Int} {b : Bool}
    (hfault : w.fault (.completeRequest message) = none)
    (hok : completeRequest message now s = .ok (b, s')) :
    PublishEffect w (.completeRequest message) s s' := by
  have hsame : (s.storeCloses message).messages = s.messages := by
    simp only [messages, storeCloses, outbox_upsertObservation]
  unfold completeRequest at hok
  split at hok
  · cases hok
    exact .repeated message rfl rfl hsame
  · next hnew =>
    split at hok
    · cases hok
    · next hfresh =>
      cases hok
      have hnew : s.outbox.has message.requestId = false := Bool.eq_false_iff.mpr hnew
      have hrows := rows_insertNew_of_fresh (t := s.outbox)
        (r := ⟨message.messageId, message.requestId, message, now, false, 0, none⟩) hnew
      apply PublishEffect.enqueued message rfl
      · refine ⟨hfault, hnew, ?_⟩
        intro row hrow heq
        exact hfresh (any_eq_true.mpr ⟨row, hrow, decide_eq_true heq⟩)
      · rfl
      · simp only [messages, hrows, map_append, map_cons, map_nil]

/-- **Everything a call can do to them.** -/
theorem handle_publish (w : Env reg) (c : Call reg) (s : Store reg) :
    PublishEffect w c s (handle w c s).2 := by
  have hsame : PublishEffect w c s s := .same rfl rfl
  cases c with
  | registerRequest message =>
    exact commit_done hsame rfl (.same rfl rfl)
  | loadOpenRequests =>
    exact commit_done hsame rfl hsame
  | markBaselineObserved requestId assetId baseline =>
    apply commit_rule hsame
    intro u s' hok
    cases hok
    apply PublishEffect.marked requestId assetId baseline rfl
    · rfl
    · show (s.upsertObservation assetId baseline).messages = s.messages
      rw [messages, outbox_upsertObservation, messages]
  | completeRequest message =>
    cases hfault : w.fault (.completeRequest message) with
    | some text =>
      have hs : (handle w (.completeRequest message) s).2 = s := by
        simp [handle, Env.error, hfault, commit]
      rw [hs]
      exact hsame
    | none => exact commit_rule hsame fun b s' hok => completeRequest_publish hfault hok
  | recordFailure requestId error nextAttemptAt =>
    exact commit_done hsame rfl (.same rfl rfl)
  | abandonRequest requestId reason =>
    exact commit_done hsame rfl (.same rfl rfl)
  | pendingOutbox batchSize =>
    exact commit_done hsame rfl hsame
  | publish message =>
    have hs : (handle w (.publish message) s).2 = s := by
      simp only [handle]
      split <;> rfl
    rw [hs]
    exact hsame
  | recordPublishError messageId error =>
    exact commit_done hsame rfl (.same rfl (s.messages_updateOutbox messageId _ _ fun _ => rfl))
  | markDelivered messageId =>
    exact commit_done hsame rfl (.same rfl (s.messages_updateOutbox messageId _ _ fun _ => rfl))
  | _ => exact hsame

theorem PublishEffect.closes_stay {c : Call reg} (heffect : PublishEffect w c s s')
    (hrow : row ∈ s.closeObservations) : row ∈ s'.closeObservations := by
  have hboth : ∀ message, row ∈ (s.storeCloses message).closeObservations := by
    intro message
    exact upsertObservation_stays _ _ (upsertObservation_stays _ _ hrow)
  cases heffect with
  | same hcloses hmessages => rwa [hcloses]
  | marked requestId assetId baseline hcall hcloses hmessages =>
    rw [hcloses]
    exact upsertObservation_stays _ _ hrow
  | repeated message hcall hcloses hmessages =>
    rw [hcloses]
    exact hboth message
  | enqueued message hcall henqueues hcloses hmessages =>
    rw [hcloses]
    exact hboth message

theorem PublishEffect.mem_messages {c : Call reg} (heffect : PublishEffect w c s s')
    (hmessage : message ∈ s'.messages) :
    message ∈ s.messages ∨ (c = .completeRequest message ∧ Enqueues w s message ∧
      s'.closeObservations = (s.storeCloses message).closeObservations) := by
  cases heffect with
  | same _ hmessages => exact Or.inl (hmessages ▸ hmessage)
  | marked _ _ _ _ _ hmessages => exact Or.inl (hmessages ▸ hmessage)
  | repeated _ _ _ hmessages => exact Or.inl (hmessages ▸ hmessage)
  | enqueued message' hcall henqueues hcloses hmessages =>
    rw [hmessages, mem_append, mem_singleton] at hmessage
    rcases hmessage with hbefore | rfl
    · exact Or.inl hbefore
    · exact Or.inr ⟨hcall, henqueues, hcloses⟩

def closesOf (message : PriceObserved reg) : List CloseObservation :=
  [message.baseline, message.settlement]

def closeKey (message : PriceObserved reg) (observation : CloseObservation) :
    String × Int × String :=
  (message.assetId.value, observation.session, observation.registryVersion)

/-- **One close for each session.**  Every published close is the stored one. -/
structure Store.OneClose (s : Store reg) : Prop where
  stored : ∀ message ∈ s.messages, ∀ observation ∈ closesOf message,
    ∃ row ∈ s.closeObservations, row.key = closeKey message observation ∧
      row.observation.close = observation.close
  agree : ∀ message ∈ s.messages, ∀ message' ∈ s.messages,
    ∀ observation ∈ closesOf message, ∀ observation' ∈ closesOf message',
      closeKey message observation = closeKey message' observation' →
        observation.close = observation'.close

theorem Store.OneClose.of_stored
    (hstored : ∀ message ∈ s.messages, ∀ observation ∈ closesOf message,
      ∃ row ∈ s.closeObservations, row.key = closeKey message observation ∧
      row.observation.close = observation.close) : s.OneClose := by
  constructor
  · exact hstored
  · intro message hmessage message' hmessage' observation hmem observation' hmem' hkey
    obtain ⟨row, hrow, hrowKey, hclose⟩ := hstored message hmessage observation hmem
    obtain ⟨row', hrow', hrowKey', hclose'⟩ := hstored message' hmessage' observation' hmem'
    have heq : row = row' := eq_of_key hrow hrow' (by rw [hrowKey, hrowKey', hkey])
    rw [← hclose, ← hclose', heq]

/-- The closes agree with what is stored for their sessions, and with each other. -/
def AgreesWithStored (w : Env reg) (s : Store reg) : Call reg → Prop
  | .completeRequest message =>
    Enqueues w s message → (∀ row ∈ s.closeObservations, ∀ observation ∈ closesOf message,
        row.key = closeKey message observation → row.observation.close = observation.close) ∧
      (closeKey message message.baseline = closeKey message message.settlement →
        message.baseline.close = message.settlement.close)
  | _ => True

/-- After a completion both of its closes are stored, each as it is or as it was
stored before. -/
theorem storeCloses_stored (hbaseline : message.baseline.sample = none)
    (hsettlement : message.settlement.sample = none)
    (hstored : ∀ row ∈ s.closeObservations, ∀ observation ∈ closesOf message,
      row.key = closeKey message observation → row.observation.close = observation.close)
    (hpair : closeKey message message.baseline = closeKey message message.settlement →
      message.baseline.close = message.settlement.close) :
    ∀ observation ∈ closesOf message, ∃ row ∈ (s.storeCloses message).closeObservations,
      row.key = closeKey message observation ∧ row.observation.close = observation.close := by
  have hfirst : message.baseline ∈ closesOf message := by simp [closesOf]
  have hlast : message.settlement ∈ closesOf message := by simp [closesOf]
  intro observation hmem
  simp only [closesOf, mem_cons, not_mem_nil, or_false] at hmem
  rcases hmem with rfl | rfl
  · obtain ⟨row, hrow, hkey, horigin⟩ :=
      s.exists_of_upsertObservation message.assetId hbaseline
    refine ⟨row, upsertObservation_stays _ _ hrow, hkey, ?_⟩
    rcases horigin with hold | hnew
    · exact hstored row hold _ hfirst hkey
    · rw [hnew]
  · obtain ⟨row, hrow, hkey, horigin⟩ :=
      (s.upsertObservation message.assetId message.baseline).exists_of_upsertObservation
        message.assetId hsettlement
    refine ⟨row, hrow, hkey, ?_⟩
    rcases horigin with hold | hnew
    · -- the key was taken before, by an older close or by this message's baseline
      rcases mem_upsertObservation hold with holder | hbase
      · exact hstored row holder _ hlast hkey
      · rw [hbase] at hkey ⊢
        exact hpair hkey
    · rw [hnew]

end Effects

namespace PriceRequestProcessor

variable {P : PriceRequestProcessor} {start : Store P.registry}
  {acts : Nat → Action (Job P.registry) (Env P.registry)}
  {observation : CloseObservation} {w : Env P.registry} {s : Store P.registry}

/-- Every close that is written for an asset satisfies `C`. -/
def WritesCloses {reg : Registry} (C : AssetId reg → CloseObservation → Prop) : Call reg → Prop
  | .markBaselineObserved _ assetId baseline => C assetId baseline
  | .completeRequest message =>
    C message.assetId message.baseline ∧ C message.assetId message.settlement
  | _ => True

variable {Adm : (c : Call P.registry) → Except MarketDataError c.Ret → Prop} {requestId : Uuid}
  {leg : Leg} {assetId : String} {session : Int} {k : Nat} {message : PriceObserved P.registry}

/-- In finance mode the closes that are written are the ones that the router
returned. -/
theorem run_writesCloses {C : AssetId P.registry → CloseObservation → Prop}
    (hmode : P.avanzaFirst = false)
    (hrouted : ∀ requestId leg (assetId : AssetId P.registry) session observation,
      P.RoutedClose Adm requestId leg assetId.value session observation → C assetId observation)
    (job : Job P.registry) : (P.run job).Conforms Adm (WritesCloses C) (fun _ => True) := by
  have hattempt : ∀ request : P.Pending,
      P.Attemptable Adm (WritesCloses C) (C request.assetId) request := by
    intro request
    constructor
    case routed => exact fun leg session observation => hrouted _ leg _ session observation
    case sampledClose | labelled =>
      intro havanza
      rw [hmode] at havanza
      cases havanza
    case mark => exact fun observation hobservation => hobservation
    case complete =>
      intro _ message _ _ _ hasset hbaseline hsettlement
      rw [← hasset] at hbaseline hsettlement
      exact ⟨hbaseline, hsettlement⟩
    all_goals intros; trivial
  apply run_conforms
  case hrequests => exact fun _ _ request _ => ⟨_, hattempt request⟩
  all_goals intros; trivial

/-- Provider closes carry no sample, whoever delivered them. -/
theorem RoutedClose.unsampled
    (hrouted : P.RoutedClose Adm requestId leg assetId session observation) :
    observation.sample = none := by
  cases hrouted with
  | primary series hresolve hfetched => exact hfetched.unsampled
  | fallback series other fallbackId hresolve hfallback hother hfetched =>
    exact hfetched.unsampled

theorem completes_unsampled (hmode : P.avanzaFirst = false) {i : Nat}
    (hasks : P.Asks start acts k i w (.completeRequest message)) :
    message.baseline.sample = none ∧ message.settlement.sample = none := by
  have hcode : ∀ job, (P.run job).Conforms (fun _ _ => True)
      (WritesCloses (fun _ observation => observation.sample = none)) (fun _ => True) :=
    run_writesCloses hmode fun _ _ _ _ _ hrouted => hrouted.unsampled
  exact conforms_at rfl hcode (fun _ _ _ _ _ _ => trivial) hasks

theorem closes_mono {m : Nat} (hle : k ≤ m)
    (hrow : row ∈ (P.storeAt start acts k).closeObservations) :
    row ∈ (P.storeAt start acts m).closeObservations :=
  storeAt_stays (Q := fun s => row ∈ s.closeObservations)
    (fun _ _ w c _ hl => (handle_publish w c _).closes_stay hl) hle hrow

/-- **Observed prices are final.**  In every run the outbox only grows at its end:
what a request has been answered is never changed, moved or taken back. -/
theorem messages_grow (k d : Nat) :
    (P.storeAt start acts k).messages <+: (P.storeAt start acts (k+d)).messages := by
  refine storeAt_stays (Q := fun s => (P.storeAt start acts k).messages <+: s.messages)
    (fun l i w c _ hl => ?_) (Nat.le_add_right k d) (prefix_refl _)
  cases handle_publish w c (P.storeAt start acts l) with
  | same _ hmessages | marked _ _ _ _ _ hmessages | repeated _ _ _ hmessages => rwa [hmessages]
  | enqueued _ _ _ _ hmessages =>
    rw [hmessages]
    exact hl.trans (prefix_append _ _)

/-- A completion that enqueues its message leaves the outbox with it, and both
closes stored. -/
theorem enqueued_of_enqueues (henqueues : Enqueues w s message) :
    message ∈ (handle w (.completeRequest message) s).2.messages := by
  obtain ⟨hfault, hnew, hfresh⟩ := henqueues
  have hid : s.outbox.rows.any (fun row => row.messageId = message.messageId) = false := by
    rw [any_eq_false]
    intro row hrow heq
    exact hfresh row hrow (of_decide_eq_true heq)
  have hrows := rows_insertNew_of_fresh (t := s.outbox)
    (r := ⟨message.messageId, message.requestId, message,
      w.clock (.completeRequest message), false, 0, none⟩) hnew
  simp only [handle, Env.error, hfault, Option.map_none, commit, completeRequest, hnew, hid,
    Bool.false_eq_true, if_false, dite_false, messages, hrows, map_append, map_cons,
    map_nil, mem_append, mem_singleton, or_true]

/-- **Published closes.**  In finance mode all messages that mention a session of an asset
carry the one stored close exactly when every completion of the run agrees with what is
stored by then. -/
theorem one_close_iff (hmode : P.avanzaFirst = false) (hstart : start.OneClose) :
    ((∀ k, (P.storeAt start acts k).OneClose) ∧
      ∀ k m row, k ≤ m → row ∈ (P.storeAt start acts k).closeObservations →
        row ∈ (P.storeAt start acts m).closeObservations) ↔
    ∀ k i w c, P.Asks start acts k i w c → AgreesWithStored w (P.storeAt start acts k) c := by
  constructor
  · intro hruns k i w c hasks
    have hnext := storeAt_succ_of_asks hasks
    cases c with
    | completeRequest message =>
      intro henqueues
      have hone := hruns.1 (k+1)
      have hmem : message ∈ (P.storeAt start acts (k+1)).messages := by
        rw [hnext]
        exact enqueued_of_enqueues henqueues
      have hfirst : message.baseline ∈ closesOf message := by simp [closesOf]
      have hlast : message.settlement ∈ closesOf message := by simp [closesOf]
      constructor
      · intro row hrow observation hobservation hkey
        obtain ⟨row', hrow', hkey', hclose⟩ := hone.stored message hmem observation hobservation
        have hsame : row = row' := eq_of_key (hruns.2 k (k+1) row (by omega) hrow) hrow'
          (by rw [hkey, hkey'])
        rw [hsame, hclose]
      · intro hkey
        exact hone.agree message hmem message hmem _ hfirst _ hlast hkey
    | _ => trivial
  · intro hagrees
    constructor
    · intro k
      refine storeAt_stays (Q := Store.OneClose) (fun k i w c hasks ih => ?_) (Nat.zero_le k) hstart
      have heffect := handle_publish w c (P.storeAt start acts k)
      apply OneClose.of_stored
      intro message hmessage observation hobservation
      rcases heffect.mem_messages hmessage with hbefore | ⟨rfl, henqueues, hcloses⟩
      · obtain ⟨row, hrow, hstored⟩ := ih.stored message hbefore observation hobservation
        exact ⟨row, heffect.closes_stay hrow, hstored⟩
      · obtain ⟨hbaseline, hsettlement⟩ := completes_unsampled hmode hasks
        obtain ⟨hstored, hpair⟩ := hagrees k i w _ hasks henqueues
        rw [hcloses]
        exact storeCloses_stored hbaseline hsettlement hstored hpair observation hobservation
    · intro k m row hle hrow
      exact closes_mono hle hrow

variable (P) in
/-- The provider symbol that the registry declares for an asset. -/
def symbolOf (assetId : String) : Option String :=
  match P.reg.resolve assetId with
  | .ok series => some series.providerSymbol
  | .error _ => none

variable (P) in
/-- Stored closes carry their asset's symbol, and the closes of a message one instrument's.
-/
structure OwnSymbols (s : Store P.registry) : Prop where
  stored : ∀ row ∈ s.closeObservations, ∀ symbol, P.symbolOf row.assetId = some symbol →
    row.observation.providerSymbol = symbol
  paired : ∀ message ∈ s.messages,
    message.baseline.providerSymbol = message.settlement.providerSymbol

variable (P) in
/-- A fallback that delivers has the symbol of the asset it stands in for. -/
def fallbackListed (w : Env P.registry) : Call P.registry → Bool
  | .fetchBars purpose other session =>
    match purpose.role, w.bars purpose with
    | .fallback, .ok answer =>
      !answer.1.any (fun bar => bar.session = session) ||
        P.symbolOf purpose.assetId = some other.providerSymbol
    | _, _ => true
  | _ => true

variable (P) in
/-- The same of an answer. -/
def FallbackListed : (c : Call P.registry) → Except MarketDataError c.Ret → Prop
  | .fetchBars purpose other session, .ok answer =>
    purpose.role = .fallback → (∃ bar ∈ answer.1, bar.session = session) →
      P.symbolOf purpose.assetId = some other.providerSymbol
  | _, _ => True

theorem fallbackListed_handle {c : Call P.registry} (hlisted : P.fallbackListed w c) :
    P.FallbackListed c (handle w c s).1 := by
  cases c with
  | fetchBars purpose other session =>
    cases hbars : w.bars purpose with
    | error e =>
      show P.FallbackListed (.fetchBars purpose other session) (w.bars purpose)
      rw [hbars]
      trivial
    | ok answer =>
      show P.FallbackListed (.fetchBars purpose other session) (w.bars purpose)
      rw [hbars]
      intro hrole hbar
      obtain ⟨bar, hbar, hsession⟩ := hbar
      simp only [fallbackListed, hrole, hbars, Bool.or_eq_true, Bool.not_eq_true',
        any_eq_false, decide_eq_true_eq] at hlisted
      rcases hlisted with hnone | hsymbol
      · exact absurd hsession (hnone bar hbar)
      · exact hsymbol
  | _ => trivial

theorem RoutedClose.symbol_eq
    (hrouted : P.RoutedClose P.FallbackListed requestId leg assetId session observation) :
    P.symbolOf assetId = some observation.providerSymbol := by
  cases hrouted with
  | primary series hresolve hfetched => simp only [symbolOf, hresolve, hfetched.symbol_eq]
  | fallback series other fallbackId hresolve hfallback hother hfetched =>
    obtain ⟨answer, hanswer, hbar⟩ := hfetched.fetched
    have hsymbol := hanswer rfl hbar
    rw [hfetched.symbol_eq]
    exact hsymbol

/-- Where a stored close comes from. -/
theorem mem_closes {C : AssetId P.registry → CloseObservation → Prop} {c : Call P.registry}
    {s' : Store P.registry} (heffect : PublishEffect w c s s') (hwrites : WritesCloses C c)
    (hrow : row ∈ s'.closeObservations) : row ∈ s.closeObservations ∨
      ∃ assetId observation, C assetId observation ∧ row = ⟨assetId.value, observation⟩ := by
  have hboth : ∀ message, c = .completeRequest message →
      row ∈ (s.storeCloses message).closeObservations → row ∈ s.closeObservations ∨
      ∃ assetId observation, C assetId observation ∧ row = ⟨assetId.value, observation⟩ := by
    rintro message rfl hrow
    rcases mem_upsertObservation hrow with hfirst | hnew
    · exact (mem_upsertObservation hfirst).imp id fun hnew => ⟨_, _, hwrites.1, hnew⟩
    · exact Or.inr ⟨_, _, hwrites.2, hnew⟩
  cases heffect with
  | same hcloses => exact Or.inl (hcloses ▸ hrow)
  | marked _ _ _ hcall hcloses =>
    subst hcall
    rw [hcloses] at hrow
    exact (mem_upsertObservation hrow).imp id fun hnew => ⟨_, _, hwrites, hnew⟩
  | repeated message hcall hcloses => exact hboth message hcall (hcloses ▸ hrow)
  | enqueued message hcall _ hcloses => exact hboth message hcall (hcloses ▸ hrow)

/-- **Instruments.**  In finance mode every stored close carries its asset's own provider
symbol and every message pairs two closes of one instrument, where each fallback that
delivers is listed under the symbol of the asset it stands in for. -/
theorem own_symbols (hmode : P.avanzaFirst = false) (hstart : P.OwnSymbols start)
    (hlisted : ∀ k i w c, P.Asks start acts k i w c → P.fallbackListed w c = true) :
    ∀ k, P.OwnSymbols (P.storeAt start acts k) := by
  have hcode : ∀ job, (P.run job).Conforms P.FallbackListed
      (WritesCloses (fun assetId observation =>
        P.symbolOf assetId.value = some observation.providerSymbol)) (fun _ => True) :=
    run_writesCloses hmode fun _ _ _ _ _ hrouted => hrouted.symbol_eq
  have hwrites : ∀ {k i w c}, P.Asks start acts k i w c → WritesCloses (fun assetId observation =>
        P.symbolOf assetId.value = some observation.providerSymbol) c := by
    intro k i w c hasks
    apply conforms_at rfl hcode _ hasks
    intro l i w c _ hcalls
    exact fallbackListed_handle (hlisted l i w c hcalls)
  intro k
  refine storeAt_stays (Q := P.OwnSymbols) (fun k i w c hasks ih => ?_) (Nat.zero_le k) hstart
  have heffect := handle_publish w c (P.storeAt start acts k)
  have hclose := hwrites hasks
  constructor
  · intro row hrow symbol hsymbol
    rcases mem_closes heffect hclose hrow with hold | ⟨assetId, observation, hown, rfl⟩
    · exact ih.stored row hold symbol hsymbol
    · rw [hown] at hsymbol
      exact Option.some.inj hsymbol
  · intro message hmessage
    rcases heffect.mem_messages hmessage with hold | ⟨rfl, _, _⟩
    · exact ih.paired message hold
    · exact Option.some.inj (hclose.1.symm.trans hclose.2)

end PriceRequestProcessor

theorem empty_oneClose {reg : Registry} : (∅ : Store reg).OneClose := by
  apply OneClose.of_stored
  intro message hmessage
  cases hmessage

theorem empty_ownSymbols {P : PriceRequestProcessor} : P.OwnSymbols ∅ := by
  constructor
  · intro row hrow
    cases hrow
  · intro message hmessage
    cases hmessage

/-- A delivery that completes its request: it stores, loads, reads the clock, fetches and
stores the baseline, fetches the settlement, builds the message and completes. -/
def delivery (requestId : Uuid) (assetId : AssetId metalProcessor.registry) (thread : Nat)
    (baseline : Env metalProcessor.registry) (fetches : List (Env metalProcessor.registry)) :
    List (Action (PriceRequestProcessor.Job metalProcessor.registry)
      (Env metalProcessor.registry)) :=
  [.spawn (.deliver (requestFor requestId assetId)), .run thread (envOn 2 []),
      .run thread (envOn 2 []), .run thread (envOn 2 []), .run thread baseline,
      .run thread (envOn 2 [])] ++
    fetches.map (fun w => .run thread w) ++
    [.run thread (envOn 2 []), .run thread (envOn 2 []), .run thread (envOn 2 [])]

/-- The second session's close is revised between two requests. -/
def revisedClose : List Bar := [barOf 0 100 hundred_pos, barOf 1 102 (by decide +kernel)]

def revision : List (Action (PriceRequestProcessor.Job metalProcessor.registry)
    (Env metalProcessor.registry)) :=
  delivery 1 silverAsset 0 (envOn 2 bothCloses) [envOn 2 bothCloses] ++
    delivery 2 silverAsset 1 (envOn 2 revisedClose) [envOn 2 revisedClose]

/-- Two messages disagree on the close of one session, and one of them on the
stored close. -/
theorem revised_close_is_published :
    ((metalProcessor.storeAt ∅ (finitely revision (envOn 2 [])) 20).messages.map
      (fun message => (message.assetId.value, message.settlement.session,
        message.settlement.registryVersion, message.settlement.close))) =
        [("SILVER", 1, "v1", 101), ("SILVER", 1, "v1", 102)] ∧
      ((metalProcessor.storeAt ∅ (finitely revision (envOn 2 [])) 20).closeObservations.rows.map
        (fun row => (row.key, row.observation.close))) =
        [(("SILVER", 0, "v1"), 100), (("SILVER", 1, "v1"), 101)] := by
  decide +kernel

/-- In that run some completion disagrees with what is stored. -/
theorem revision_disagrees : metalProcessor.avanzaFirst = false ∧
    (∅ : Store metalProcessor.registry).OneClose ∧
    ¬ ∀ k i w c, metalProcessor.Asks ∅ (finitely revision (envOn 2 [])) k i w c →
      AgreesWithStored w (metalProcessor.storeAt ∅ (finitely revision (envOn 2 [])) k) c := by
  refine ⟨rfl, empty_oneClose, ?_⟩
  intro hagrees
  have hruns := (one_close_iff rfl empty_oneClose).mpr hagrees
  have hdisagree : ¬ ∀ message ∈
      (metalProcessor.storeAt ∅ (finitely revision (envOn 2 [])) 20).messages,
      ∀ message' ∈ (metalProcessor.storeAt ∅ (finitely revision (envOn 2 [])) 20).messages,
      ∀ observation ∈ closesOf message, ∀ observation' ∈ closesOf message',
        closeKey message observation = closeKey message' observation' →
          observation.close = observation'.close := by
    decide +kernel
  exact hdisagree (hruns.1 20).agree

/-- The fund has the second session's close, the futures have not. -/
def substitution : List (Action (PriceRequestProcessor.Job metalProcessor.registry)
    (Env metalProcessor.registry)) :=
  delivery 1 goldAsset 0 (envOn 2 bothCloses) [envOn 2 [], envOn 2 bothCloses]

/-- The message pairs a close of the futures with one of the fund, which is stored as
gold's. -/
theorem fallback_close_is_paired :
    ((metalProcessor.storeAt ∅ (finitely substitution (envOn 2 [])) 11).messages.map
      (fun message => (message.assetId.value, message.baseline.providerSymbol,
        message.settlement.providerSymbol))) = [("GOLD", "GC=F", "GLD")] ∧
      ((metalProcessor.storeAt ∅ (finitely substitution (envOn 2 [])) 11).closeObservations.rows.map
        (fun row => (row.key, row.observation.providerSymbol))) =
        [(("GOLD", 0, "v1"), "GC=F"), (("GOLD", 1, "v1"), "GLD")] := by
  decide +kernel

/-- Without the fund's close, the request is deferred. -/
def deferral : List (Action (PriceRequestProcessor.Job metalProcessor.registry)
    (Env metalProcessor.registry)) :=
  delivery 1 goldAsset 0 (envOn 2 bothCloses) [envOn 2 [], envOn 2 []]

theorem deferral_keeps_symbols : metalProcessor.avanzaFirst = false ∧ metalProcessor.OwnSymbols ∅ ∧
    (∀ k i w c, metalProcessor.Asks ∅ (finitely deferral (envOn 2 [])) k i w c →
      metalProcessor.fallbackListed w c = true) ∧
    ∀ k, metalProcessor.OwnSymbols
      (metalProcessor.storeAt ∅ (finitely deferral (envOn 2 [])) k) := by
  have hlisted : ∀ k i w c, metalProcessor.Asks ∅ (finitely deferral (envOn 2 [])) k i w c →
      metalProcessor.fallbackListed w c := by
    refine finitely_forall (I := Repository metalProcessor.registry) rfl ?_
    decide +kernel
  exact ⟨rfl, empty_ownSymbols, hlisted, own_symbols rfl empty_ownSymbols hlisted⟩

end MarketData
