import FeedAnalyzer.ResultHandling
import FeedAnalyzer.SlotRelease

/-!
# Late results

A command that times out leaves its attempt `unknown`, and a later result is to release
it.  The entry in `pending` is gone before the engine writes `unknown`, so a result in
between is acknowledged without effect.  `acknowledged_released` says when this cannot
happen.
-/

namespace Gateway

open Transact Option World

variable {B M : Type} {G : Settings} {F : Formatting B M}
  {start : Threads M} {acts : Nat → Action (Job B) Env}

variable (G F) in
/-- The gateway has acknowledged a result of command `id`. -/
def Acknowledged (start : Threads M)
    (acts : Nat → Action (Job B) Env) (k : Nat) (id : CommandId) (status : Status) : Prop :=
  ∃ l < k, ∃ i w, Makes G F start acts l i w (.jobAck id status) ∧
    (handle G w (.jobAck id status) (worldAt G F start acts l)).1 = .ok ()

/-- The call ends a command without a result: the send or the wait fails, or its fate is
unknown. -/
inductive CutsOff (G : Settings) (w : Env) (s : World) (id : CommandId) : Call → Prop
  | unsent {provider requestId : String} {slot : Nat} {prompt : Option String} {timeout : Int}
      (hfails : ∀ u, (handle G w (.send (.command id provider requestId slot prompt timeout))
        s).1 ≠ .ok u) :
      CutsOff G w s id (.send (.command id provider requestId slot prompt timeout))
  | unanswered {timeout : Int}
      (hfails : ∀ result, (handle G w (.awaitFuture id timeout) s).1 = .ok result →
        result.status = .unknown) :
      CutsOff G w s id (.awaitFuture id timeout)

variable (G F) in
/-- The command timed out, lost its connection, was cancelled, or had its fate reported as
unknown. -/
def CutOff (start : Threads M)
    (acts : Nat → Action (Job B) Env) (k : Nat) (id : CommandId) : Prop :=
  ∃ l < k, ∃ i w c, Makes G F start acts l i w c ∧ CutsOff G w (worldAt G F start acts l) id c

variable (G F) in
/-- **An acknowledged result is not lost.**  Then the attempt of a command that was cut off
is not in state `unknown`. -/
def AcknowledgedReleased (start : Threads M)
    (acts : Nat → Action (Job B) Env) : Prop :=
  ∀ k id a status, id.row? = some a → status ≠ .unknown →
    Acknowledged G F start acts k id status → CutOff G F start acts k id →
    (worldAt G F start acts k).tables.stateOf a ≠ some .unknown

/-- The engine has finished the provider's attempt. -/
def World.Settled (s : World) (profile provider : String) (a : Uuid) : Prop :=
  ∃ row, s.tables.row? a = some row ∧ row.of profile provider = true ∧ row.state.running = false

/-- The command is pending with this provider, without a result. -/
def World.Open (s : World) (provider : String) (id : CommandId) : Prop :=
  (s.futures id).result = none ∧ ∃ entry, s.entryOf id = some entry ∧ entry.provider = provider

/-- The command is not pending, or has a result already. -/
def World.Past (s : World) (provider : String) (id : CommandId) : Prop :=
  s.entryOf id = none ∨
    ((s.futures id).result ≠ none ∧ ∃ entry, s.entryOf id = some entry ∧ entry.provider = provider)

/-- A result of known fate has reached the future of the command. -/
def World.Has (s : World) (id : CommandId) : Prop :=
  ∃ result, (s.futures id).result = some result ∧ result.status ≠ .unknown

/-- **In time.**  A terminal result is handled before its command is cut off or after the
engine has finished the attempt; and a command that has one is not cut off before it takes
it. -/
def InTime (G : Settings) (w : Env) (s : World) : Call → Prop
  | .deliver provider id result => ∀ a, id.row? = some a → result.status ≠ .unknown →
      (s.Open provider id → (s.futures id).awaited = true) ∧
        (s.Past provider id → s.Settled G.profileId provider a)
  | .send (.command id ..) => s.Has id → w.raised = none ∧ s.connected = true
  | .awaitFuture id _ => s.Has id → w.raised = none
  | _ => True

instance (s : World) (profile provider : String) (a : Uuid) :
    Decidable (s.Settled profile provider a) :=
  inferInstanceAs (Decidable (∃ row ∈ s.tables.row? a, row.of profile provider = true ∧
    row.state.running = false))

instance (s : World) (provider : String) (id : CommandId) : Decidable (s.Open provider id) :=
  inferInstanceAs (Decidable ((s.futures id).result = none ∧
    ∃ entry ∈ s.entryOf id, entry.provider = provider))

instance (s : World) (provider : String) (id : CommandId) : Decidable (s.Past provider id) :=
  inferInstanceAs (Decidable (s.entryOf id = none ∨ ((s.futures id).result ≠ none ∧
    ∃ entry ∈ s.entryOf id, entry.provider = provider)))

instance (s : World) (id : CommandId) : Decidable (s.Has id) :=
  inferInstanceAs (Decidable (∃ result ∈ (s.futures id).result, result.status ≠ .unknown))

instance (G : Settings) (w : Env) (s : World) : (c : Call) → Decidable (InTime G w s c)
  | .deliver provider id result =>
    inferInstanceAs (Decidable (∀ a ∈ id.row?, result.status ≠ .unknown →
      (s.Open provider id → (s.futures id).awaited = true) ∧
        (s.Past provider id → s.Settled G.profileId provider a)))
  | .send (.command id ..) =>
    inferInstanceAs (Decidable (s.Has id → w.raised = none ∧ s.connected = true))
  | .awaitFuture id _ => inferInstanceAs (Decidable (s.Has id → w.raised = none))
  | .send (.cancel _) | .send (.progressAck _) | .send .resetAck => isTrue trivial
  | .loopTime | .utcNow | .uuid4 | .timeoutExpired | .sleep _ | .availability .. | .reserve .. =>
    isTrue trivial
  | .submitted _ | .finish _ | .shieldedFinish _ | .runShielded | .terminal .. => isTrue trivial
  | .resetAttempts _ | .resetAvailability _ | .openCommand .. | .closeCommand _ => isTrue trivial
  | .pendingFor .. | .jobAck .. | .noPending | .connect | .disconnect => isTrue trivial

theorem deliver_spec (s : World) (provider : String) (id : CommandId) (result : BrowserResult) :
    match (s.deliver provider id result).1 with
    | .delivered => s.Open provider id ∧
        ((s.deliver provider id result).2.futures id).result = some result
    | .late => s.Past provider id
    | .mismatch => True := by
  unfold deliver
  cases hentry : s.entryOf id with
  | none => exact Or.inl hentry
  | some entry =>
    by_cases hprovider : entry.provider = provider
    · cases hresult : (s.futures id).result with
      | some r =>
        simp only [hprovider, Option.isSome_some, if_true, ne_eq, not_true, if_false]
        exact Or.inr ⟨by simp [hresult], entry, hentry, hprovider⟩
      | none =>
        simp [hprovider, setFuture]
        exact ⟨hresult, entry, hentry, hprovider⟩
    · simp [hprovider]

variable {w : Env} {s : World} {id : CommandId} {c : Call} {a : Uuid} {profile provider : String}
  {k m : Nat}

/-- A command that is cut off takes no result any more, and has spent a turn since it was
opened. -/
theorem cutsOff_awaited (hcut : CutsOff G w s id c) :
    ((handle G w c s).2.futures id).awaited = false := by
  cases hcut with
  | unsent hfails =>
    rw [handle] at hfails ⊢
    unfold dispatch at hfails ⊢
    cases hsend : (s.sending w).1 with
    | ok u =>
      rw [hsend] at hfails
      exact absurd rfl (hfails ())
    | error e => simp [cutOff, setFuture]
  | unanswered hfails =>
    rw [handle, awaitFuture_world]
    simp [cutOff, setFuture]

theorem cutsOff_spent (hcut : CutsOff G w s id c) (ha : id.row? = some a) :
    ∃ n, id.stage < n ∧ n < id.stage + 3 ∧ Duty.turn a n ∈ spent c := by
  cases hcut with
  | unsent hfails => exact ⟨id.stage + 1, by omega, by omega, a, ha, rfl⟩
  | unanswered hfails => exact ⟨id.stage + 2, by omega, by omega, a, ha, rfl⟩

theorem not_cutsOff_of_has (hintime : InTime G w s c) (hhas : s.Has id) : ¬ CutsOff G w s id c := by
  intro hcut
  cases hcut with
  | unsent hfails =>
    obtain ⟨hraised, hconnected⟩ := hintime hhas
    apply hfails ()
    rw [handle]
    unfold dispatch sending
    simp [hraised, hconnected]
  | unanswered hfails =>
    have hraised : w.raised = none := hintime hhas
    obtain ⟨result, hresult, hknown⟩ := hhas
    apply hknown
    apply hfails result
    rw [handle]
    unfold awaitFuture
    simp [hraised, hresult]

theorem settled_stays (hle : k ≤ m)
    (hsettled : (worldAt G F start acts k).Settled profile provider a) :
    (worldAt G F start acts m).Settled profile provider a := by
  refine world_stays (Q := fun s => s.Settled profile provider a) (fun l i w c _ hl => ?_) hle
    hsettled
  obtain ⟨row, hrow, hof, hended⟩ := hl
  obtain ⟨row', hrow', hsame⟩ := row_persists hrow
  refine ⟨row', hrow', ?_, ?_⟩
  · unfold AttemptRow.of at hof ⊢
    rw [hsame.1, hsame.2.1]
    exact hof
  · by_contra hrunning
    have hruns : (handle G w c (worldAt G F start acts l)).2.Runs a :=
      ⟨row', hrow', by simpa using hrunning⟩
    obtain ⟨row'', hrow'', hrunning''⟩ := not_runs_step hrow hruns
    rw [hrow] at hrow''
    cases hrow''
    rw [hended] at hrunning''
    cases hrunning''

/-- Telling the store of a late result releases a finished attempt. -/
theorem terminal_releases (ha : id.row? = some a) (hsettled : s.Settled profile provider a)
    (hok : (handle G w (.terminal profile provider id) s).1 = .ok ()) :
    (handle G w (.terminal profile provider id) s).2.tables.stateOf a = some .finished := by
  obtain ⟨row, hrow, hof, hended⟩ := hsettled
  obtain ⟨t, hrun, htables⟩ := transact_ok hok
  cases hrun
  have hafter : (handle G w (.terminal profile provider id) s).2.tables =
      s.tables.terminal w.now profile provider id := htables
  have hid : row.attemptId = a := Tables.row?_attemptId hrow
  rw [hafter, Tables.stateOf_eq, Tables.row?_terminal, hrow]
  cases hstate : row.state with
  | reserved | submitted => rw [hstate] at hended; cases hended
  | unknown => simp [Tables.releasable, ha, hid, hof, hstate]
  | finished => simp [Tables.releasable, hstate]

section Runs

variable (hempty : start.threads = []) (hshielded : start.store.shielded = [])
  (hpending : start.store.pending = [])

include hempty

variable {i : Nat}

section Finished

include hshielded

/-- A call changes the state of an attempt of unknown fate, or of a finished
one, only to release it. -/
theorem ended_step (hcalls : Makes G F start acts k i w c) {row row' : AttemptRow}
    (hrow : (worldAt G F start acts k).tables.row? a = some row)
    (hended : row.state.running = false)
    (hrow' : (worldAt G F start acts (k+1)).tables.row? a = some row') :
    row'.state = row.state ∨ (Releases a c ∧ row.state = .unknown ∧ row'.state = .finished) := by
  rw [worldAt, hcalls.store_succ] at hrow'
  have hmove := handle_row (G := G) w c (worldAt G F start acts k) a
  rw [hrow, hrow'] at hmove
  generalize hbefore : some row = before at hmove
  generalize hafter : some row' = after at hmove
  cases hmove with
  | kept =>
    cases hbefore
    cases hafter
    exact Or.inl rfl
  | reserved hstate => cases hbefore
  | submitting hid hsame hstate =>
    cases hbefore
    rw [hstate] at hended
    cases hended
  | finished hf ha hsame hstate =>
    -- the attempt would be running
    subst ha
    obtain ⟨row'', hrow'', hrunning⟩ := finishes_running hempty hshielded hcalls hf
    rw [hrow] at hrow''
    cases hrow''
    rw [hended] at hrunning
    cases hrunning
  | released hc hsame hstate hfinished =>
    cases hbefore
    cases hafter
    exact Or.inr ⟨hc, hstate, hfinished⟩

theorem finished_stays (hle : k ≤ m)
    (hfinished : (worldAt G F start acts k).tables.stateOf a = some .finished) :
    (worldAt G F start acts m).tables.stateOf a = some .finished := by
  refine world_stays (Q := fun s => s.tables.stateOf a = some .finished)
    (fun l i w c hcalls hl => ?_) hle hfinished
  obtain ⟨row, hrow, hstate⟩ := map_eq_some_iff.mp hl
  obtain ⟨row', hrow', _⟩ := row_stays (Nat.le_succ l) hrow
  have hended : row.state.running = false := by
    rw [hstate]
    rfl
  rw [← hcalls.store_succ, Tables.stateOf_eq, hrow']
  rcases ended_step hempty hshielded hcalls hrow hended hrow' with hkept | ⟨_, hunknown, _⟩
  · rw [map_some, hkept, hstate]
  · rw [hstate] at hunknown
    cases hunknown

end Finished

include hpending

/-- A delivered result is not cut off. -/
theorem delivered_not_cutOff
    (hintime : ∀ k i w c, Makes G F start acts k i w c → InTime G w (worldAt G F start acts k) c)
    {t : Nat} {result : BrowserResult} (ha : id.row? = some a) (hknown : result.status ≠ .unknown)
    (hcalls : Makes G F start acts t i w (.deliver provider id result))
    (hdelivered : ((worldAt G F start acts t).deliver provider id result).1 = .delivered)
    {l j : Nat} {w' : Env} (hcalls' : Makes G F start acts l j w' c)
    (hcut : CutsOff G w' (worldAt G F start acts l) id c) : False := by
  have hspec := deliver_spec (worldAt G F start acts t) provider id result
  rw [hdelivered] at hspec
  obtain ⟨hopen, hresult⟩ := hspec
  obtain ⟨hnone, entry, hentry, hprovider⟩ := hopen
  have hsome : (worldAt G F start acts t).entryOf id ≠ none := by
    rw [hentry]
    simp
  obtain ⟨o, ho, io, wo, provider', generation, hopened⟩ := entry_opened hpending t id hsome
  have hturn : Duty.turn a id.stage ∈ spent (.openCommand provider' id generation) := ⟨a, ha, rfl⟩
  -- the command is opened this once, and cut off later
  have honce : ∀ m i' w'' p g, o < m → ¬ Makes G F start acts m i' w'' (.openCommand p id g) := by
    intro m i' w'' p g hm hagain
    have hturn' : Duty.turn a id.stage ∈ spent (.openCommand p id g) := ⟨a, ha, rfl⟩
    exact Nat.lt_irrefl _ (turns_in_order hempty hopened hagain hturn hturn' hm)
  obtain ⟨n, hn, _, hspent⟩ := cutsOff_spent hcut ha
  have hol : o ≤ l := by
    by_contra hlt
    have hlater := turns_in_order hempty hcalls' hopened hspent hturn (by omega)
    omega
  rcases Nat.lt_trichotomy l t with hlt | heq | hgt
  · -- cut off before: nobody waits for the result
    have hcutAfter : ((worldAt G F start acts (l+1)).futures id).awaited = false := by
      rw [worldAt, hcalls'.store_succ]
      exact cutsOff_awaited hcut
    have hgrows : ((worldAt G F start acts (l+1)).futures id).Grows
        ((worldAt G F start acts t).futures id) :=
      future_grows hlt fun m i' w'' p g hm _ => honce m i' w'' p g (by omega)
    have hawaited := (hintime t i w _ hcalls a ha hknown).1 ⟨hnone, entry, hentry, hprovider⟩
    rw [hgrows.awaited hcutAfter] at hawaited
    cases hawaited
  · subst heq
    obtain ⟨_, _, hc⟩ := hcalls.unique hcalls'
    subst hc
    cases hcut
  · -- cut off after: the result is there
    have hthere : ((worldAt G F start acts (t+1)).futures id).result = some result := by
      rw [worldAt, hcalls.store_succ]
      exact hresult
    have hgrows : ((worldAt G F start acts (t+1)).futures id).Grows
        ((worldAt G F start acts l).futures id) :=
      future_grows hgt fun m i' w'' p g hm _ => honce m i' w'' p g (by omega)
    have hhas : (worldAt G F start acts l).Has id :=
      ⟨result, hgrows.result result hthere, hknown⟩
    exact not_cutsOff_of_has (hintime l j w' c hcalls') hhas hcut

include hshielded

/-- **When no acknowledged result is lost.**  Where each terminal result is handled in time,
the attempt of a command that was cut off is not left `unknown` once its result is
acknowledged. -/
theorem acknowledged_released
    (hintime : ∀ k i w c, Makes G F start acts k i w c → InTime G w (worldAt G F start acts k) c) :
    AcknowledgedReleased G F start acts := by
  intro k id a status ha hstatus hacknowledged hcutOff
  obtain ⟨m, hm, i, w, hack, _⟩ := hacknowledged
  obtain ⟨l, _, j, w', c, hcalls', hcut⟩ := hcutOff
  rcases jobAck_cases hempty hstatus hack with
    ⟨t, _, wt, provider, result, hsame, hcalls, hdelivered⟩ | ⟨t', ht', wt, provider, hcalls, hok⟩
  · have hknown : result.status ≠ .unknown := hsame ▸ hstatus
    exact (delivered_not_cutOff hempty hpending hintime ha hknown hcalls hdelivered hcalls'
      hcut).elim
  · obtain ⟨t, ht, wd, result, hknown, hdeliver, hlate⟩ := terminal_cases hempty hcalls
    have hpast := deliver_spec (worldAt G F start acts t) provider id result
    rw [hlate] at hpast
    have hsettled := (hintime t i wd _ hdeliver a ha hknown).2 hpast
    have hsettled' := settled_stays (Nat.le_of_lt ht) hsettled
    have hreleased : (worldAt G F start acts (t'+1)).tables.stateOf a = some .finished := by
      rw [worldAt, hcalls.store_succ]
      exact terminal_releases ha hsettled' hok
    have hfinished := finished_stays hempty hshielded (show t' + 1 ≤ k by omega) hreleased
    rw [hfinished]
    simp

end Runs

/-- The extension's report that a command has succeeded. -/
def success (id : CommandId) (text : String) : ResultMessage where
  attemptId := some id
  provider := some "chatgpt"
  status := some .success
  submitted := some (some true)
  text := some text

/-- The probe of a request succeeds, and its prompt is sent. -/
def promptSent : List (Action (Job Unit) Env) :=
  [.spawn .connect, .run 0 {}, .spawn (.request 1 () threeMinutes), .run 1 {}, .run 1 {},
    .run 1 {}, .run 1 { draw := 7 }, .run 1 {}, .run 1 { draw := 8 }] ++
  List.replicate 4 (.run 1 {}) ++ [.spawn (.result (success (.probe 8) "")), .run 2 {}, .run 2 {}] ++
  List.replicate 8 (.run 1 {})

/-- The result is handled between the timeout and the engine's write. -/
def resultInBetween : List (Action (Job Unit) Env) :=
  promptSent ++ [.run 1 {}, .run 1 {}, .run 1 {},
    .spawn (.result (success (.first 7) "final")), .run 3 {}, .run 3 {}, .run 3 {}, .run 1 {}]

/-- **An acknowledged result is lost.**  It is acknowledged while its attempt still runs,
and the attempt is left in state `unknown`. -/
theorem acknowledged_result_lost :
    let acts := finitely resultInBetween {}
    Acknowledged oneTab plainFormatting idleGateway acts 32 (.first 7) .success ∧
      CutOff oneTab plainFormatting idleGateway acts 32 (.first 7) ∧
      (worldAt oneTab plainFormatting idleGateway acts 32).tables.stateOf 7 = some .unknown ∧
      ¬ AcknowledgedReleased oneTab plainFormatting idleGateway acts := by
  intro acts
  have hack : Makes oneTab plainFormatting idleGateway acts 30 3 {} (.jobAck (.first 7) .success) :=
    callsAt_of_callAt rfl (by decide +kernel)
  have hacknowledged : Acknowledged oneTab plainFormatting idleGateway acts 32 (.first 7)
      .success := ⟨30, by decide, 3, {}, hack, by decide +kernel⟩
  have hawait : Makes oneTab plainFormatting idleGateway acts 24 1 {}
      (.awaitFuture (.first 7) 180000000) :=
    callsAt_of_callAt rfl (by decide +kernel)
  have htimeout : (handle oneTab {} (.awaitFuture (.first 7) 180000000)
      (worldAt oneTab plainFormatting idleGateway acts 24)).1 = .error .timeout := by
    decide +kernel
  have hcut : CutOff oneTab plainFormatting idleGateway acts 32 (.first 7) := by
    refine ⟨24, by decide, 1, {}, _, hawait, .unanswered ?_⟩
    intro result hresult
    rw [htimeout] at hresult
    cases hresult
  have hstate : (worldAt oneTab plainFormatting idleGateway acts 32).tables.stateOf 7 =
      some .unknown := by decide +kernel
  refine ⟨hacknowledged, hcut, hstate, ?_⟩
  intro hreleased
  exact hreleased 32 (.first 7) 7 .success rfl (by decide) hacknowledged hcut hstate

/-- The same, but the result is handled after the engine has written. -/
def resultAfterwards : List (Action (Job Unit) Env) :=
  promptSent ++ [.run 1 {}, .run 1 {}, .run 1 {}, .run 1 {},
    .spawn (.result (success (.first 7) "final")), .run 3 {}, .run 3 {}, .run 3 {}]

/-- A result that is handled after the engine has written releases the attempt. -/
theorem afterwards_released :
    AcknowledgedReleased oneTab plainFormatting idleGateway (finitely resultAfterwards {}) ∧
      (worldAt oneTab plainFormatting idleGateway (finitely resultAfterwards {}) 28).tables.stateOf
        7 = some .unknown ∧
      (worldAt oneTab plainFormatting idleGateway (finitely resultAfterwards {}) 32).tables.stateOf
        7 = some .finished := by
  refine ⟨acknowledged_released rfl rfl rfl ?_, by decide +kernel, by decide +kernel⟩
  refine finitely_forall (I := Service) rfl ?_
  decide +kernel

end Gateway
