import FeedAnalyzer.JobHistory
import FeedAnalyzer.PredictionCalls

/-!
# Claimed contexts

A claim makes contexts `PREDICTING` before any of them is decided.  No call makes one
`OPEN` or `READY` again, so what a sweep does not bring to `PREDICTED` is left behind
(`never_claimed_again`).  A sweep that is answered cleanly leaves nothing behind
(`closeClaimed_settles`).
-/

namespace Prediction

open Feed Transact Calendar Proc List Table Option Avoids

variable {reg : Registry} {contextId : Uuid}

/-- The store before the `n`-th job of a history. -/
abbrev storeAt (P : PredictionPipeline) (start : Store reg)
    (jobs : Nat → Job reg × List (Answer reg)) (n : Nat) : Store reg :=
  historyAt (handle P.tz) P.perform start jobs n

/-- What the claim of a sweep answers and leaves. -/
abbrev claimOf (P : PredictionPipeline) (clock claim : Answer reg) (s : Store reg) :=
  handle P.tz claim (.claimReadyContexts clock.now P.settings.closeGraceMinutes) s

/-- The contexts that a job claimed, in its second call. -/
def claimedBy (P : PredictionPipeline) (job : Job reg × List (Answer reg)) (s : Store reg) :
    List Uuid :=
  match job with
  | (.closeSweep, clock :: claim :: _) =>
    match (handle P.tz claim (.claimReadyContexts clock.now P.settings.closeGraceMinutes) s).1 with
    | .ok claimed => claimed.map ContextRecord.contextId
    | .error _ => []
  | _ => []

/-- Every claimed context left `PREDICTING` or `ERROR_RETRYABLE` is claimed again. -/
def Reclaims (P : PredictionPipeline) (start : Store reg)
    (jobs : Nat → Job reg × List (Answer reg)) : Prop :=
  ∀ n, ∀ contextId ∈ claimedBy P (jobs n) (storeAt P start jobs n),
    (storeAt P start jobs (n + 1)).stateOf contextId = some .predicting ∨
      (storeAt P start jobs (n + 1)).stateOf contextId = some .errorRetryable →
    ∃ m, n < m ∧ contextId ∈ claimedBy P (jobs m) (storeAt P start jobs m)

/-- The context exists and takes no more events. -/
def Store.Closed (s : Store reg) (contextId : Uuid) : Prop :=
  ∃ state, s.stateOf contextId = some state ∧ state.joinable = false

/-- The context exists and can still be claimed. -/
def Store.Waiting (s : Store reg) (contextId : Uuid) : Prop :=
  ∃ state, s.stateOf contextId = some state ∧ state.joinable = true

/-- The call sets a state that is claimed. -/
def Call.Reopens : Call reg → Prop
  | .setContextState _ state => state.joinable = true
  | _ => False

variable (tz : TimeZones)

/-- Only reopening reopens. -/
theorem handle_closed (w : Answer reg) (c : Call reg) (s : Store reg) (hc : ¬ c.Reopens)
    (hclosed : s.Closed contextId) : (handle tz w c s).2.Closed contextId := by
  obtain ⟨state, hstate, hnot⟩ := hclosed
  rcases handle_state_cases tz contextId w c s with
    hsame | ⟨_, hnone, _⟩ | ⟨_, ⟨claimed, hclaimed, hjoinable⟩, _⟩ | ⟨htouches, _, hset⟩
  · exact ⟨state, hsame.trans hstate, hnot⟩
  · rw [hstate] at hnone
    cases hnone
  · rw [hstate] at hclaimed
    cases hclaimed
    rw [hnot] at hjoinable
    cases hjoinable
  · rw [hstate] at hset
    refine ⟨c.written, hset, ?_⟩
    cases c with
    | setContextState target written => simpa [Call.Reopens, Call.written] using hc
    | storePredictionWithOutbox message key withdraws => rfl
    | _ => exact htouches.elim

variable (P : PredictionPipeline)

theorem closeClaimed_not_reopens (now : Int) (claimed : List (ContextRecord reg)) :
    (P.closeClaimed now claimed).Avoids Call.Reopens := by
  refine (PredictionPipeline.closeClaimed_calls claimed).mono fun c hreopens hclose => ?_
  cases c with
  | setContextState target state =>
    have hjoinable : state.joinable := hreopens
    rw [hclose.2] at hjoinable
    cases hjoinable
  | _ => exact hreopens.elim

/-- The service never reopens a context. -/
theorem perform_not_reopens (job : Job reg) : (P.perform job).Avoids Call.Reopens := by
  cases job with
  | event message =>
    refine (event_calls P message).mono fun c hreopens hevent => ?_
    cases c with
    | setContextState target state => exact hevent.elim
    | _ => exact hreopens.elim
  | closeSweep =>
    refine avoids_perform id fun now => ?_
    refine avoids_perform id fun claimed => ?_
    exact closeClaimed_not_reopens P now claimed

variable {P : PredictionPipeline} {s : Store reg} {job : Job reg × List (Answer reg)}

theorem waiting_of_claimedBy (hclaimed : contextId ∈ claimedBy P job s) : s.Waiting contextId := by
  unfold claimedBy at hclaimed
  split at hclaimed
  · split at hclaimed
    · next claimed hok => exact Store.stateOf_of_claimed (commit_eq_ok hok).2 hclaimed
    · cases hclaimed
  · cases hclaimed

variable {start : Store reg} {jobs : Nat → Job reg × List (Answer reg)} {n m : Nat}

theorem closed_stays (hle : n ≤ m) (hclosed : (storeAt P start jobs n).Closed contextId) :
    (storeAt P start jobs m).Closed contextId :=
  historyAt_stays (fun s : Store reg => s.Closed contextId)
    (fun job ws _ hs => (perform_not_reopens P job).advance_preserves
      (fun w c s hc hs => handle_closed P.tz w c s hc hs) ws hs) hle hclosed

theorem Store.Closed.not_waiting (hclosed : s.Closed contextId) : ¬ s.Waiting contextId := by
  rintro ⟨state', hstate', hjoinable⟩
  obtain ⟨state, hstate, hnot⟩ := hclosed
  rw [hstate] at hstate'
  cases hstate'
  rw [hnot] at hjoinable
  cases hjoinable

/-- **Claimed once.**  A context that is closed at some point of a history is in
no later claim. -/
theorem never_claimed_again (hle : n ≤ m) (hclosed : (storeAt P start jobs n).Closed contextId) :
    contextId ∉ claimedBy P (jobs m) (storeAt P start jobs m) := by
  intro hclaimed
  exact (closed_stays hle hclosed).not_waiting (waiting_of_claimedBy hclaimed)

theorem advance_closeSweep (clock claim : Answer reg) (rest : List (Answer reg)) (s : Store reg) :
    (P.perform .closeSweep).advance (handle P.tz) (clock :: claim :: rest) s =
      (Proc.onOk (P.closeClaimed clock.now) (claimOf P clock claim s).1).advance (handle P.tz)
        rest (claimOf P clock claim s).2 := by
  unfold PredictionPipeline.perform PredictionPipeline.closeReadyContexts
  rw [bind_eq, ask_bind, advance_call]
  simp only [handle, onOk_ok]
  rw [bind_eq, ask_bind, advance_call]
  rfl

theorem closed_of_claimedBy (hclaimed : contextId ∈ claimedBy P job s) :
    ((P.perform job.1).advance (handle P.tz) job.2 s).2.Closed contextId := by
  unfold claimedBy at hclaimed
  split at hclaimed
  · next clock claim rest =>
    split at hclaimed
    · next claimed hok =>
      have hstate := (Store.claimReadyContexts_eq_ok (commit_eq_ok hok).2).2.2.1 contextId
      have hclosed : (claimOf P clock claim s).2.Closed contextId :=
        ⟨.predicting, hstate.trans (if_pos hclaimed), rfl⟩
      rw [advance_closeSweep, hok]
      exact (closeClaimed_not_reopens P clock.now claimed).advance_preserves
        (fun w c s hc hs => handle_closed P.tz w c s hc hs) rest hclosed
    · cases hclaimed
  · cases hclaimed

/-- A history reclaims what its sweeps leave behind exactly when they leave
nothing behind. -/
theorem reclaims_iff_predicted : Reclaims P start jobs ↔
      ∀ n, ∀ contextId ∈ claimedBy P (jobs n) (storeAt P start jobs n),
        (storeAt P start jobs (n + 1)).stateOf contextId = some .predicted := by
  constructor
  · intro hreclaims n contextId hclaimed
    have hclosed := closed_of_claimedBy hclaimed
    have hnever : ¬ ∃ m, n < m ∧ contextId ∈ claimedBy P (jobs m) (storeAt P start jobs m) := by
      rintro ⟨m, hlt, hagain⟩
      exact never_claimed_again hlt hclosed hagain
    obtain ⟨state, hstate, hnot⟩ := hclosed
    have hleft := fun hor => hnever (hreclaims n contextId hclaimed hor)
    cases state with
    | opened | ready => cases hnot
    | predicting => exact absurd (Or.inl hstate) hleft
    | predicted => exact hstate
    | errorRetryable => exact absurd (Or.inr hstate) hleft
  · intro hpredicted n contextId hclaimed hleft
    rw [hpredicted n contextId hclaimed] at hleft
    rcases hleft with hleft | hleft <;> cases hleft

/-- Contexts stay as they are, or are brought to `PREDICTED`. -/
def Store.Progress (s s' : Store reg) : Prop :=
  ∀ contextId state, s.stateOf contextId = some state →
    s'.stateOf contextId = some state ∨ s'.stateOf contextId = some .predicted

namespace Store.Progress

variable {s s' s'' : Store reg} {contextId : Uuid}

theorem refl (s : Store reg) : s.Progress s :=
  fun _ _ hstate => Or.inl hstate

theorem trans (h : s.Progress s') (h' : s'.Progress s'') : s.Progress s'' := by
  intro contextId state hstate
  rcases h contextId state hstate with hsame | hpredicted
  · exact h' contextId state hsame
  · exact Or.inr (by simpa using h' contextId .predicted hpredicted)

theorem predicted (h : s.Progress s') (hstate : s.stateOf contextId = some .predicted) :
    s'.stateOf contextId = some .predicted := by
  simpa using h contextId .predicted hstate

theorem has (h : s.Progress s') (hhas : s.contexts.has contextId) : s'.contexts.has contextId := by
  obtain ⟨row, hrow, rfl⟩ := has_eq_true_iff.mp hhas
  rcases h row.contextId row.state (stateOf_of_mem hrow) with hsame | hpredicted
  · exact has_of_stateOf hsame
  · exact has_of_stateOf hpredicted

end Store.Progress

/-- The failure is one that the collaborator reports. -/
def Fault.isReported : Fault → Bool
  | .unavailable _ => true
  | .unexpected _ => false

/-- The ids of new predictions are free, price and correlation lookups raise nothing
unexpected, and nothing else fails. -/
def Answer.Clean (w : Answer reg) (c : Call reg) (s : Store reg) : Prop :=
  match c with
  | .newPrediction =>
    s.predictions.has w.stamp.predictionId = false ∧ s.outbox.has w.stamp.messageId = false
  | .recentCloses _ => w.fault.all Fault.isReported = true
  | .getCorrelationEdges _ _ => w.fault.all Fault.isReported = true
  | _ => w.fault = none

instance (w : Answer reg) (c : Call reg) (s : Store reg) : Decidable (w.Clean c s) := by
  unfold Answer.Clean
  split <;> infer_instance

/-- A decision is always reached: the deadband is positive, and the zones are known. -/
structure PredictionPipeline.Configured (P : PredictionPipeline) (reg : Registry) : Prop where
  deadband : 0 < P.settings.policy.deadband
  zones : ∀ (assetId : AssetId reg) series, reg.resolve assetId.value = .ok series →
    ∃ z, P.tz series.timezone = some z

variable {c : Call reg}

/-- A call makes progress if it sets no other state. -/
theorem handle_progress (w : Answer reg) (s : Store reg)
    (hclaim : ∀ now graceMinutes, c ≠ .claimReadyContexts now graceMinutes)
    (hset : ∀ target state, c = .setContextState target state → state = .predicted) :
    s.Progress (handle tz w c s).2 := by
  intro contextId state hstate
  rcases handle_state_cases tz contextId w c s with
    hsame | ⟨_, hnone, _⟩ | ⟨⟨a, _, hclaimed⟩, _⟩ | ⟨htouches, _, hwritten⟩
  · exact Or.inl (hsame.trans hstate)
  · rw [hstate] at hnone
    cases hnone
  · cases c with
    | claimReadyContexts now graceMinutes => exact absurd rfl (hclaim now graceMinutes)
    | _ => exact hclaimed.elim
  · rw [hstate] at hwritten
    refine Or.inr (hwritten.trans ?_)
    cases c with
    | setContextState target state' => rw [hset target state' rfl]; rfl
    | storePredictionWithOutbox message key withdraws => rfl
    | _ => exact htouches.elim

/-- The calls that, answered cleanly, succeed on every store and write no state but
`PREDICTED`. -/
def Call.simple : Call reg → Bool
  | .loadContextEvents _ => true
  | .latestActivePrediction _ => true
  | .setContextState _ state => state = .predicted
  | .getFiringEdges _ _ _ => true
  | .recentCloses _ => true
  | .recordEvent _ => true
  | .capture _ => true
  | _ => false

/-- A clean simple call succeeds. -/
theorem handle_simple {w : Answer reg} (hc : c.simple) (hw : w.Clean c s) :
    (∃ a, (handle tz w c s).1 = .ok a) ∧ s.Progress (handle tz w c s).2 := by
  refine ⟨?_, handle_progress tz w s ?_ ?_⟩
  · cases c with
    | recentCloses assetId =>
      cases hfault : w.fault with
      | none => exact ⟨w.closes, by simp [handle, Answer.closesRead, hfault]⟩
      | some fault =>
        cases fault with
        | unavailable message => exact ⟨[], by simp [handle, Answer.closesRead, hfault]⟩
        | unexpected message => simp [Answer.Clean, hfault, Fault.isReported] at hw
    | loadContextEvents contextId =>
      have hfault : w.fault = none := hw
      exact ⟨_, by simp only [handle, hfault]; rfl⟩
    | latestActivePrediction assetId =>
      have hfault : w.fault = none := hw
      exact ⟨_, by simp only [handle, hfault]; rfl⟩
    | setContextState target state =>
      have hfault : w.fault = none := hw
      exact ⟨(), by simp only [handle, hfault]; rfl⟩
    | getFiringEdges eventType assetId conditions =>
      have hfault : w.fault = none := hw
      exact ⟨_, by simp only [handle, hfault]; rfl⟩
    | recordEvent | capture => exact ⟨(), rfl⟩
    | _ => cases hc
  · rintro now graceMinutes rfl
    cases hc
  · rintro target state rfl
    simpa [Call.simple] using hc

namespace PredictionPipeline

variable {P : PredictionPipeline} {s₀ : Store reg} {now : Int}
  {record : ContextRecord reg} {s : Store reg}

/-- Answered cleanly, it raises nothing and makes progress. -/
abbrev Settles {α : Type} (P : PredictionPipeline) (s₀ : Store reg) (p : Service reg α) : Prop :=
  p.Keeps (handle P.tz) Answer.Clean s₀.Progress

theorem ask_settles (hc : c.simple) : P.Settles s₀ (ask c) := by
  refine keeps_perform fun w s hw hs => ?_
  obtain ⟨hok, hprogress⟩ := handle_simple P.tz hc hw
  exact ⟨hok, hs.trans hprogress⟩

theorem capture_settles (contextId : Uuid) :
    P.Settles s₀ (P.capture contextId : Service reg Unit) := by
  unfold capture
  split
  · exact ask_settles rfl
  · exact keeps_ret ()

theorem firingEdges_settles (assetId : AssetId reg) (elevated : Bool)
    (types : List (EventType × List ConditionCode)) (edges : List (FiringEdge reg)) :
    P.Settles s₀ (firingEdges assetId elevated types edges) := by
  induction types generalizing edges with
  | nil => exact keeps_ret edges
  | cons entry rest ih => exact (ask_settles rfl).bind fun fired => ih _

/-- A prediction with new ids, of a context that exists, is stored, or known
already. -/
theorem writePrediction_settles (hhas : s₀.contexts.has record.contextId) (decision : Decision)
    (events : List ContextEvent) (depth : Nat) (chain : Chain reg) (supersedes : Option Uuid) :
    P.Settles s₀ (writePrediction record decision now events depth chain supersedes) := by
  intro s hs
  refine meets_perform trivial (fun w stamp hw hstamp => ?_) fun w e _ herror => by cases herror
  cases hstamp
  -- the ids are new when they are drawn, and drawing them changes nothing
  obtain ⟨hprediction, hmessage⟩ := hw
  have hsame : (handle P.tz w .newPrediction s).2 = s := rfl
  rw [hsame]
  refine ⟨trivial, fun w' hw' => ?_⟩
  have hfault : w'.fault = none := hw'
  obtain ⟨⟨stored, s'⟩, hstore⟩ := Store.storePredictionWithOutbox_ok
    (predictionMade record decision now events depth chain supersedes w.stamp)
    (idempotencyKey record depth) supersedes.isSome hprediction (hs.has hhas) hmessage
  have hok : (handle P.tz w' (.storePredictionWithOutbox
      (predictionMade record decision now events depth chain supersedes w.stamp)
      (idempotencyKey record depth) supersedes.isSome) s).1 = .ok stored := by
    simp only [handle, hfault, map_none, commit, hstore]
  rw [hok]
  refine ⟨⟨stored, rfl⟩, hs.trans (handle_progress P.tz w' s ?_ ?_)⟩
  · intro _ _ heq
    cases heq
  · intro _ _ heq
    cases heq

/-- A graph failure during propagation only skips the source. -/
theorem collectInbound_settles (visited : List (AssetId reg)) (pass : List (PassEntry reg))
    (inbound : Inbound reg) : P.Settles s₀ (collectInbound visited pass inbound) := by
  induction pass generalizing inbound with
  | nil => exact keeps_ret inbound
  | cons entry rest ih =>
    refine Keeps.bind (fun s hs => Meets.catchWith ⟨trivial, fun w hw => ?_⟩) fun edges => ih _
    cases hfault : w.fault with
    | none =>
      simp only [handle, hfault]
      exact ⟨⟨w.correlations, rfl⟩, hs⟩
    | some fault =>
      cases fault with
      | unavailable message =>
        simp only [handle, hfault]
        exact ⟨⟨[], rfl⟩, hs⟩
      | unexpected message => simp [Answer.Clean, hfault, Fault.isReported] at hw

section Configured

variable (hconf : P.Configured reg)

include hconf

theorem marketZone_settles {assetId : AssetId reg}
    {series : AssetReferenceSeries} (hseries : reg.resolve assetId.value = .ok series) :
    P.Settles s₀ (P.marketZone series.timezone : Service reg Zone) := by
  obtain ⟨z, hz⟩ := hconf.zones assetId series hseries
  unfold marketZone
  simp only [zone, hz]
  exact keeps_ret z

theorem isMarketOpen_settles (assetId : AssetId reg) (instant : Int) :
    P.Settles s₀ (P.isMarketOpen assetId instant) := by
  unfold isMarketOpen
  split
  · exact keeps_ret false
  · next series hseries =>
    refine (marketZone_settles hconf hseries).bind fun z => ?_
    split
    · exact (ask_settles rfl).bind fun closes => keeps_ret _
    · exact keeps_ret false

theorem withinDailyLimit_settles (assetId : AssetId reg) (instant : Int) :
    P.Settles s₀ (P.withinDailyLimit assetId instant) := by
  unfold withinDailyLimit
  split
  · exact keeps_ret true
  · next series hseries =>
    refine (marketZone_settles hconf hseries).bind fun z => ?_
    refine Keeps.bind (keeps_perform fun w s hw hs => ?_) fun count =>
      keeps_ret _
    obtain ⟨z', hz'⟩ := hconf.zones assetId series hseries
    have hfault : w.fault = none := hw
    rw [handle_frame P.tz w _ s rfl]
    refine ⟨⟨(s.predictionsOn z' assetId.value (z.localDateIn instant)).length, ?_⟩, hs⟩
    simp only [handle, hfault, map_none, commit, Store.countPredictionsOn, hz']

variable (hhas : s₀.contexts.has record.contextId = true) (events : List ContextEvent)

include hhas

theorem storePrediction_settles (decision : Decision) (depth : Nat) (chain : Chain reg) :
    P.Settles s₀ (P.storePrediction record decision now events depth chain) := by
  refine (ask_settles rfl).bind fun active => ?_
  refine (isMarketOpen_settles hconf _ _).bind fun marketOpen => ?_
  split
  · exact keeps_ret false
  split
  · unfold storeIfTurned
    split
    · exact keeps_ret false
    · refine (withinDailyLimit_settles hconf _ _).bind fun within => ?_
      split
      · exact writePrediction_settles hhas _ _ _ _ _
      · exact keeps_ret false
  · exact writePrediction_settles hhas _ _ _ _ _

/-- The decisions only settle contexts. -/
theorem decideTargets_settles (depth : Nat) (inbound : Inbound reg)
    (stored : List (PassEntry reg)) :
    P.Settles s₀ (P.decideTargets record now events depth inbound stored) := by
  induction inbound generalizing stored with
  | nil => exact keeps_ret stored
  | cons entry rest ih =>
    unfold decideTargets
    split
    · next herror => exact absurd herror (decide_ne_error hconf.deadband _ _ _ _ _)
    · exact ih stored
    · split
      · exact ih stored
      · have hproxy : s₀.contexts.has (proxyRecord record entry.1).contextId := hhas
        refine Keeps.bind (storePrediction_settles hconf hproxy _ _ _ _) fun kept => ?_
        split
        · exact ih _
        · exact ih stored

theorem propagateLevels_settles (left depth : Nat)
    (pass : List (PassEntry reg)) (visited : List (AssetId reg)) (produced : Nat) :
    P.Settles s₀ (P.propagateLevels record now events left depth pass visited produced) := by
  induction left generalizing depth pass visited produced with
  | zero => exact keeps_ret produced
  | succ left ih =>
    unfold propagateLevels
    split
    · exact keeps_ret produced
    · refine (collectInbound_settles visited pass []).bind fun inbound => ?_
      exact (decideTargets_settles hconf hhas events (depth + 1) inbound []).bind fun stored =>
        ih _ _ _ _

end Configured

/-- The triple of a cleanly answered procedure. -/
abbrev Cleanly {α : Type} (P : PredictionPipeline) (p : Service reg α)
    (s : Store reg) (Q : Except PredictionError α → Store reg → Prop) : Prop :=
  p.Meets (handle P.tz) Answer.Clean (fun _ => True) Q s

variable {β : Type} {Q : Except PredictionError β → Store reg → Prop}

theorem Settles.bind_cleanly {α : Type} {p : Service reg α} {f : α → Service reg β}
    (hp : P.Settles s p) (hf : ∀ a s', s.Progress s' → P.Cleanly (f a) s' Q) :
    P.Cleanly (p.bind f) s Q := by
  refine Meets.bind ((hp s (Store.Progress.refl s)).mono ?_)
  rintro r s' ⟨⟨a, rfl⟩, hs'⟩
  exact hf a s' hs'

theorem edgesOrDefer_cleanly (record : ContextRecord reg) (events : List ContextEvent)
    (elevated : Bool) (s : Store reg) :
    P.Cleanly (P.edgesOrDefer record events elevated) s
      (fun r s' => (∃ edges, r = .ok (some edges)) ∧ s.Progress s') := by
  refine Meets.catchWith (Settles.bind_cleanly (firingEdges_settles _ _ _ _) ?_)
  intro edges s' hs'
  exact ⟨⟨edges, rfl⟩, hs'⟩

/-- Marking a context `PREDICTED`. -/
theorem markPredicted_cleanly {contextId : Uuid} (hhas : s.contexts.has contextId)
    {f : Unit → Service reg β}
    (hf : ∀ s', s.Progress s' → s'.stateOf contextId = some .predicted → P.Cleanly (f ()) s' Q) :
    P.Cleanly ((ask (.setContextState contextId .predicted)).bind f) s Q := by
  obtain ⟨row, hrow, rfl⟩ := has_eq_true_iff.mp hhas
  refine meets_perform trivial (fun w a hw hok => ?_) fun w e hw herror => ?_
  · refine hf _ (handle_simple P.tz (by rfl) hw).2 ?_
    have hset := (commit_eq_ok hok).2
    simp only [Store.setContextState, Except.ok.injEq, Prod.mk.injEq] at hset
    have hstate := s.stateOf_setState row.contextId .predicted row.contextId
    rw [if_pos rfl, Store.stateOf_of_mem hrow] at hstate
    exact (congrArg (fun s' => s'.stateOf row.contextId) hset.2.symm).trans hstate
  · obtain ⟨a, hok⟩ := (handle_simple P.tz (by rfl) hw).1
    rw [hok] at herror
    cases herror

/-- The context is `PREDICTED`, or waits for the second pass. -/
def Handled (record : ContextRecord reg) (st : SweepState reg) (s : Store reg) : Prop :=
  s.stateOf record.contextId = some .predicted ∨ ∃ d ∈ st.deferred, d.record = record

section

variable (hconf : P.Configured reg)

include hconf

/-- One record is handled. -/
theorem closeRecord_cleanly (hhas : s.contexts.has record.contextId) (st : SweepState reg) :
    P.Cleanly (P.closeRecord now record st) s (fun r s' => ∃ st', r = .ok st' ∧ s.Progress s' ∧
      st.deferred ⊆ st'.deferred ∧ Handled record st' s') := by
  refine Settles.bind_cleanly (ask_settles rfl) fun events s₁ h₁ => ?_
  refine Settles.bind_cleanly (ask_settles rfl) fun closes s₂ h₂ => ?_
  refine Meets.bind ((edgesOrDefer_cleanly record events _ s₂).mono ?_)
  rintro r s₃ ⟨⟨edges, rfl⟩, h₃⟩
  have hprogress := h₁.trans (h₂.trans h₃)
  simp only [onOk_ok]
  unfold closeInferred
  split
  · next herror => exact absurd herror (decide_ne_error hconf.deadband _ _ _ _ _)
  · refine Settles.bind_cleanly (capture_settles _) fun _ s₄ h₄ => ?_
    refine markPredicted_cleanly ((hprogress.trans h₄).has hhas) fun s₅ h₅ hpredicted => ?_
    exact ⟨st, rfl, hprogress.trans (h₄.trans h₅), fun _ hd => hd, Or.inl hpredicted⟩
  · next decision _ =>
    refine Settles.bind_cleanly (capture_settles _) fun _ s₄ h₄ => ?_
    have hhas₄ := (hprogress.trans h₄).has hhas
    refine Settles.bind_cleanly (storePrediction_settles hconf hhas₄ _ _ _ _) fun stored s₅ h₅ => ?_
    have hprogress₅ := hprogress.trans (h₄.trans h₅)
    dsimp only
    split
    · refine markPredicted_cleanly (hprogress₅.has hhas) fun s₆ h₆ hpredicted => ?_
      exact ⟨_, rfl, hprogress₅.trans h₆, fun _ hd => hd, Or.inl hpredicted⟩
    · refine ⟨_, rfl, hprogress₅, subset_append_left _ _, Or.inr ?_⟩
      exact ⟨⟨record, decision, events⟩, by simp, rfl⟩

/-- Every claimed record is handled. -/
theorem closeRecords_cleanly {records : List (ContextRecord reg)}
    (hhas : ∀ record ∈ records, s.contexts.has record.contextId) (st : SweepState reg) :
    P.Cleanly (P.closeRecords now records st) s (fun r s' => ∃ st', r = .ok st' ∧ s.Progress s' ∧
      st.deferred ⊆ st'.deferred ∧ ∀ record ∈ records, Handled record st' s') := by
  induction records generalizing s st with
  | nil => exact ⟨st, rfl, Store.Progress.refl s, fun _ hd => hd, fun _ hr => by cases hr⟩
  | cons record rest ih =>
    refine Meets.bind ((closeRecord_cleanly hconf (hhas record mem_cons_self) st).mono ?_)
    rintro r s₁ ⟨st₁, rfl, h₁, hsub₁, hhandled⟩
    refine (ih (fun r hr => h₁.has (hhas r (mem_cons_of_mem record hr))) st₁).mono ?_
    rintro r s₂ ⟨st₂, rfl, h₂, hsub₂, hrest⟩
    refine ⟨st₂, rfl, h₁.trans h₂, fun d hd => hsub₂ (hsub₁ hd), ?_⟩
    intro record' hrecord'
    rcases mem_cons.mp hrecord' with rfl | hmem
    · rcases hhandled with hpredicted | ⟨d, hd, hrecord⟩
      · exact Or.inl (h₂.predicted hpredicted)
      · exact Or.inr ⟨d, hsub₂ hd, hrecord⟩
    · exact hrest record' hmem

/-- The second pass closes the deferred. -/
theorem propagateDeferred_cleanly (directAssets : List (AssetId reg)) {ds : List (Deferred reg)}
    (hhas : ∀ d ∈ ds, s.contexts.has d.record.contextId) (produced : Nat) :
    P.Cleanly (P.propagateDeferred now directAssets ds produced) s (fun _ s' =>
      s.Progress s' ∧ ∀ d ∈ ds, s'.stateOf d.record.contextId = some .predicted) := by
  induction ds generalizing s produced with
  | nil => exact ⟨Store.Progress.refl s, fun _ hd => by cases hd⟩
  | cons d rest ih =>
    have hhasd := hhas d mem_cons_self
    have hpropagate : P.Settles s (P.propagateRecord now directAssets d) := by
      unfold propagateRecord
      split
      · exact keeps_ret 0
      · exact propagateLevels_settles hconf hhasd _ _ _ _ _ _
    refine Settles.bind_cleanly hpropagate fun stored s₁ h₁ => ?_
    refine markPredicted_cleanly (h₁.has hhasd) fun s₂ h₂ hpredicted => ?_
    have h₁₂ := h₁.trans h₂
    refine (ih (fun d' hd' => h₁₂.has (hhas d' (mem_cons_of_mem d hd'))) _).mono ?_
    rintro r s₃ ⟨h₃, hrest⟩
    refine ⟨h₁₂.trans h₃, fun d' hd' => ?_⟩
    rcases mem_cons.mp hd' with rfl | hmem
    · exact h₃.predicted hpredicted
    · exact hrest d' hmem

/-- **A clean sweep settles its batch.**  Every claimed context is `PREDICTED`
at its end. -/
theorem closeClaimed_settles {claimed : List (ContextRecord reg)}
    (hhas : ∀ record ∈ claimed, s.contexts.has record.contextId) :
    P.Cleanly (P.closeClaimed now claimed) s (fun _ s' =>
      ∀ record ∈ claimed, s'.stateOf record.contextId = some .predicted) := by
  have hreturns : (P.closeRecords now claimed {}).Returns
      (SweepState.Over (fun record => record ∈ claimed)) :=
    closeRecords_returns (fun _ hrecord => hrecord) SweepState.over_empty
  refine Meets.bind (((closeRecords_cleanly hconf hhas {}).and_returns hreturns).mono ?_)
  rintro r s₁ ⟨⟨st, rfl, h₁, _, hhandled⟩, hover⟩
  have hdeferred : ∀ d ∈ st.deferred, s₁.contexts.has d.record.contextId :=
    fun d hd => h₁.has (hhas d.record (hover st rfl d hd))
  refine (propagateDeferred_cleanly hconf st.directAssets hdeferred st.produced).mono ?_
  rintro r s₂ ⟨h₂, hpropagated⟩ record hrecord
  rcases hhandled record hrecord with hpredicted | ⟨d, hd, rfl⟩
  · exact h₂.predicted hpredicted
  · exact hpropagated d hd

end

end PredictionPipeline

/-- A sweep is answered cleanly and runs to its end. -/
def CleanSweep (P : PredictionPipeline) : Job reg × List (Answer reg) → Store reg → Prop
  | (.event _, _), _ => True
  | (.closeSweep, ws), s =>
    (P.perform .closeSweep).Admitted (handle P.tz) Answer.Clean ws s ∧
      ((P.perform .closeSweep).advance (handle P.tz) ws s).1.ended = true

theorem admitted_closeSweep {clock claim : Answer reg} {rest : List (Answer reg)}
    (hadmitted : (P.perform .closeSweep).Admitted (handle P.tz) Answer.Clean
      (clock :: claim :: rest) s) :
    (Proc.onOk (P.closeClaimed clock.now) (claimOf P clock claim s).1).Admitted (handle P.tz)
      Answer.Clean rest (claimOf P clock claim s).2 := by
  unfold PredictionPipeline.perform PredictionPipeline.closeReadyContexts at hadmitted
  rw [bind_eq, ask_bind] at hadmitted
  have hclaim := hadmitted.2
  simp only [handle, onOk_ok] at hclaim
  rw [bind_eq, ask_bind] at hclaim
  exact hclaim.2

/-- **Clean sweeps leave nothing behind.**  Where all sweeps are answered cleanly and run to
their end, every claimed context that is not `PREDICTED` is claimed again: there is none. -/
theorem claimed_contexts_reclaimed {P : PredictionPipeline} {start : Store reg}
    {jobs : Nat → Job reg × List (Answer reg)} (hconf : P.Configured reg)
    (hclean : ∀ n, CleanSweep P (jobs n) (storeAt P start jobs n)) : Reclaims P start jobs := by
  refine reclaims_iff_predicted.mpr fun n contextId hclaimed => ?_
  have hsweep := hclean n
  change ((P.perform (jobs n).1).advance (handle P.tz) (jobs n).2
    (storeAt P start jobs n)).2.stateOf contextId = some .predicted
  generalize storeAt P start jobs n = s at hclaimed hsweep
  generalize jobs n = job at hclaimed hsweep
  unfold claimedBy at hclaimed
  split at hclaimed
  · next clock claim rest =>
    obtain ⟨hadmitted, hend⟩ := hsweep
    have hrest := admitted_closeSweep hadmitted
    rw [advance_closeSweep] at hend ⊢
    split at hclaimed
    · next claimed hok =>
      rw [hok] at hrest hend ⊢
      have hclaim := Store.claimReadyContexts_eq_ok (commit_eq_ok hok).2
      have hhas : ∀ record ∈ claimed,
          (claimOf P clock claim s).2.contexts.has record.contextId := fun record hrecord =>
        Store.has_of_stateOf ((hclaim.2.2.1 record.contextId).trans
          (if_pos (mem_map.mpr ⟨record, hrecord, rfl⟩)))
      obtain ⟨_, hsettled⟩ :=
        (PredictionPipeline.closeClaimed_settles hconf hhas).ended hrest hend
      obtain ⟨record, hrecord, rfl⟩ := mem_map.mp hclaimed
      exact hsettled record hrecord
    · cases hclaimed
  · cases hclaimed

/-- An event of gold opens a context, and a sweep claims it. -/
def goldHistory (sweep : List (Answer goldRegistry))
    (later : Nat → Job goldRegistry × List (Answer goldRegistry)) :
    Nat → Job goldRegistry × List (Answer goldRegistry)
  | 0 => (.event (goldEvent 1 0), [{ contextId := 1 }])
  | 1 => (.closeSweep, sweep)
  | n+2 => later n

theorem utcPipeline_configured : utcPipeline.Configured goldRegistry where
  deadband := by decide +kernel
  zones := by
    intro assetId series hseries
    obtain ⟨entry, hentry, _, hresolve⟩ := assetId.resolve_eq_ok
    rw [eq_goldEntry hentry, hseries] at hresolve
    cases hresolve
    exact ⟨utc, rfl⟩

theorem quiet_history_clean (n : Nat) : CleanSweep utcPipeline
      (goldHistory quietSweep (fun _ => (.event (goldEvent 2 0), [])) n)
      (storeAt utcPipeline ∅ (goldHistory quietSweep (fun _ => (.event (goldEvent 2 0), []))) n) := by
  match n with
  | 0 => trivial
  | 1 => exact ⟨by decide +kernel, by decide +kernel⟩
  | _+2 => trivial

/-- The quiet sweep claims the context and brings it to `PREDICTED`. -/
theorem quiet_history_reclaims : claimedBy utcPipeline
        (goldHistory quietSweep (fun _ => (.event (goldEvent 2 0), [])) 1)
        (storeAt utcPipeline ∅
          (goldHistory quietSweep (fun _ => (.event (goldEvent 2 0), []))) 1) = [1] ∧
      Reclaims utcPipeline ∅ (goldHistory quietSweep (fun _ => (.event (goldEvent 2 0), []))) :=
  ⟨by decide +kernel, claimed_contexts_reclaimed utcPipeline_configured quiet_history_clean⟩

/-- The graph is down when the context is decided. -/
def failedSweep : List (Answer goldRegistry) :=
  [{ now := 20 * microsPerMinute }, {}, {}, {}, { fault := some (.unavailable "graph down") }, {}]

/-- Sweeps of every later day, with nothing going wrong. -/
def dailySweeps (n : Nat) : Job goldRegistry × List (Answer goldRegistry) :=
  (.closeSweep, [{ now := (n + 1) * microsPerDay }, {}])

/-- **A graph failure strands the context.**  The sweep leaves it
`ERROR_RETRYABLE`, and none of the sweeps of the following days returns it. -/
theorem graph_failure_strands_context :
    claimedBy utcPipeline (goldHistory failedSweep dailySweeps 1)
        (storeAt utcPipeline ∅ (goldHistory failedSweep dailySweeps) 1) = [1] ∧
      (storeAt utcPipeline ∅ (goldHistory failedSweep dailySweeps) 2).stateOf 1 =
        some .errorRetryable ∧
      ¬ Reclaims utcPipeline ∅ (goldHistory failedSweep dailySweeps) := by
  have hclaimed : claimedBy utcPipeline (goldHistory failedSweep dailySweeps 1)
      (storeAt utcPipeline ∅ (goldHistory failedSweep dailySweeps) 1) = [1] := by decide +kernel
  have hstate : (storeAt utcPipeline ∅ (goldHistory failedSweep dailySweeps) 2).stateOf 1 =
      some .errorRetryable := by decide +kernel
  refine ⟨hclaimed, hstate, fun hreclaims => ?_⟩
  have hpredicted := reclaims_iff_predicted.mp hreclaims 1 1 (by rw [hclaimed]; decide)
  cases hpredicted

end Prediction
