import FeedAnalyzer.SnapshotJobs

/-!
# Ticks and the cooldown of the provider

A rate limit raises the cooldown of the control row, and two other statements replace it:
the fifth failure of the provider, and the end of a tick that has probed.  Neither looks at
what it replaces.  In runs of `Undisturbed` steps the bound of a rate limit holds.
-/

namespace Snapshots

open Feed Transact SnapshotWorker Proc List Option

variable {reg : Registry} {now bound t r : Int} {s s' : Store reg} {w : Answer} {c : Call reg}

/-- Where the worker is. -/
inductive Phase (reg : Registry) where
  | idle
  | beginning (now : Int) (rest : Service reg Begun)
  | collecting (now : Int) (begun : Begun) (tasks : List (Service reg Unit))
  | ending (now : Int) (rest : Service reg Unit)

/-- The tables, the worker, and the time of its last call. -/
structure System (reg : Registry) where
  store : Store reg
  memory : Memory := {}
  clock : Int
  phase : Phase reg := .idle

/-- A tick starts, the next call is made (of task `i` where tasks are collected), or what
has ended is left. -/
inductive Event where
  | start (now : Int)
  | run (i : Nat) (w : Answer)
  | settle (memory : Memory)

variable (settings : SnapshotSettings)

/-- Start a tick, if none is running. -/
def System.start (s : System reg) (now : Int) : System reg :=
  match s.phase with
  | .idle => { s with clock := now, phase := .beginning now (beginTick settings s.memory now) }
  | _ => s

/-- Make the next call. -/
def System.run (s : System reg) (i : Nat) (w : Answer) : System reg :=
  match s.phase with
  | .beginning now (.call c next) =>
    { s with
        store := (handle w c s.store).2
        clock := w.now
        phase := .beginning now (next (handle w c s.store).1) }
  | .collecting now begun tasks =>
    match tasks[i]? with
    | some (.call c next) =>
      { s with
          store := (handle w c s.store).2
          clock := w.now
          phase := .collecting now begun (tasks.set i (next (handle w c s.store).1)) }
    | _ => s
  | .ending now (.call c next) =>
    { s with
        store := (handle w c s.store).2
        clock := w.now
        phase := .ending now (next (handle w c s.store).1) }
  | _ => s

/-- Leave what has ended. -/
def System.settle (s : System reg) (memory : Memory) : System reg :=
  match s.phase with
  | .beginning now (.ret begun) =>
    match begun.jobs with
    | none => { s with memory := begun.memory, phase := .idle }
    | some jobs =>
      { s with
          memory := begun.memory
          phase := .collecting now begun (jobs.map (collect settings)) }
  | .beginning _ (.fail _) => { s with memory := memory, phase := .idle }
  | .collecting now begun tasks =>
    if tasks.all (·.ended) then { s with phase := .ending now (endTick begun) } else s
  | .ending _ (.ret _) => { s with phase := .idle }
  | .ending _ (.fail _) => { s with phase := .idle }
  | _ => s

def System.step (s : System reg) : Event → System reg
  | .start now => s.start settings now
  | .run i w => s.run i w
  | .settle memory => s.settle settings memory

/-- The worker before the `k`-th event. -/
def systemAt (first : System reg) (events : Nat → Event) : Nat → System reg
  | 0 => first
  | k+1 => (systemAt first events k).step settings (events k)

/-- Everything an event can do. -/
inductive Moves (s : System reg) : Event → System reg → Prop where
  | stay (e : Event) : Moves s e s
  | start (now : Int) (hphase : s.phase = .idle) : Moves s (.start now)
        { s with clock := now, phase := .beginning now (beginTick settings s.memory now) }
  | begin {now : Int} {c : Call reg} {next} (i : Nat) (w : Answer)
      (hphase : s.phase = .beginning now (.call c next)) :
      Moves s (.run i w) { s with
            store := (handle w c s.store).2
            clock := w.now
            phase := .beginning now (next (handle w c s.store).1) }
  | collect {now : Int} {begun : Begun} {tasks : List (Service reg Unit)}
      {c : Call reg} {next} (i : Nat) (w : Answer) (hphase : s.phase = .collecting now begun tasks)
      (htask : tasks[i]? = some (.call c next)) :
      Moves s (.run i w) { s with
            store := (handle w c s.store).2
            clock := w.now
            phase := .collecting now begun (tasks.set i (next (handle w c s.store).1)) }
  | finish {now : Int} {c : Call reg} {next} (i : Nat) (w : Answer)
      (hphase : s.phase = .ending now (.call c next)) :
      Moves s (.run i w) { s with
            store := (handle w c s.store).2
            clock := w.now
            phase := .ending now (next (handle w c s.store).1) }
  | begun {now : Int} {begun : Begun} {jobs : List Job} (memory : Memory)
      (hphase : s.phase = .beginning now (.ret begun)) (hjobs : begun.jobs = some jobs) :
      Moves s (.settle memory) { s with
            memory := begun.memory
            phase := .collecting now begun (jobs.map (SnapshotWorker.collect settings)) }
  | left {now : Int} {rest : Service reg Begun} (memory memory' : Memory)
      (hphase : s.phase = .beginning now rest) (hended : rest.ended = true) :
      Moves s (.settle memory) { s with memory := memory', phase := .idle }
  | gathered {now : Int} {begun : Begun} {tasks : List (Service reg Unit)}
      (memory : Memory) (hphase : s.phase = .collecting now begun tasks)
      (hended : tasks.all (·.ended) = true) :
      Moves s (.settle memory) { s with phase := .ending now (endTick begun) }
  | ended {now : Int} {rest : Service reg Unit} (memory : Memory)
      (hphase : s.phase = .ending now rest) :
      Moves s (.settle memory) { s with phase := .idle }

theorem System.run_moves (s : System reg) (i : Nat) (w : Answer) :
    Moves settings s (.run i w) (s.run i w) := by
  unfold System.run
  split
  · next hphase => exact .begin i w hphase
  · next hphase =>
    split
    · next htask => exact .collect i w hphase htask
    · exact .stay _
  · next hphase => exact .finish i w hphase
  · exact .stay _

theorem System.settle_moves (s : System reg) (memory : Memory) :
    Moves settings s (.settle memory) (s.settle settings memory) := by
  unfold System.settle
  split
  · next hphase =>
    split
    · exact .left memory _ hphase rfl
    · next hjobs => exact .begun memory hphase hjobs
  · next hphase => exact .left memory _ hphase rfl
  · next hphase =>
    split
    · next hended => exact .gathered memory hphase hended
    · exact .stay _
  · next hphase => exact .ended memory hphase
  · next hphase => exact .ended memory hphase
  · exact .stay _

theorem System.step_moves (s : System reg) (e : Event) : Moves settings s e (s.step settings e) := by
  cases e with
  | start now =>
    unfold System.step System.start
    dsimp only
    split
    · next hphase => exact .start now hphase
    · exact .stay _
  | run i w => exact s.run_moves settings i w
  | settle memory => exact s.settle_moves settings memory

/-- `ReadFailure("RATE_LIMITED", provider=True, retry_after=…)`. -/
def ReadFailure.rateLimited (retryAfter : Int) : ReadFailure :=
  { code := .rateLimited, provider := true, retryAfter := retryAfter }

/-- The row whose page the task `i` reads next. -/
def System.reading (s : System reg) (i : Nat) : Option Job :=
  match s.phase with
  | .collecting _ _ tasks =>
    match tasks[i]? with
    | some (.call (.read row) _) => some row
    | _ => none
  | _ => none

/-- The next call is a claim: the times of the tick and of the claim. -/
def System.claiming (s : System reg) : Option (Int × Int) :=
  match s.phase with
  | .beginning now (.call (.claim at') _) => some (now, at')
  | _ => none

/-- A read at the time `t` is answered with a limit of `r` seconds. -/
def LimitedAt (s : System reg) (e : Event) (t r : Int) : Prop :=
  ∃ i w row, e = .run i w ∧ s.reading i = some row ∧
    w.quote = .error (.readFailure (.rateLimited r)) ∧ w.now = t

/-- The event claims a job, in the tick of the time `now`. -/
def ClaimsAt (s : System reg) (e : Event) (now : Int) : Prop :=
  ∃ i w at' job, e = .run i w ∧ s.claiming = some (now, at') ∧
    (s.store.claim w.tie w.token at').1 = some job

/-- After the limit, no later tick before `t + r` claims. -/
def HoldsBack (first : System reg) (events : Nat → Event) : Prop :=
  ∀ k m, k < m → ∀ t r, 0 < r → LimitedAt (systemAt settings first events k) (events k) t r →
    ∀ now, ClaimsAt (systemAt settings first events m) (events m) now → t + seconds r ≤ now

variable {i : Nat} {e : Event} {tasks : List (Service reg Unit)} {tick : Int}

theorem System.reading_eq_some {s : System reg} {row : Job} (h : s.reading i = some row) :
    ∃ now begun tasks next, s.phase = .collecting now begun tasks ∧
      tasks[i]? = some (.call (.read row) next) := by
  unfold System.reading at h
  split at h
  · next hphase =>
    split at h
    · next htask =>
      cases h
      exact ⟨_, _, _, _, hphase, htask⟩
    · cases h
  · cases h

theorem System.claiming_eq_some {s : System reg} {at' : Int} (h : s.claiming = some (now, at')) :
    ∃ next, s.phase = .beginning now (.call (.claim at') next) := by
  unfold System.claiming at h
  split at h
  · next hphase =>
    cases h
    exact ⟨_, hphase⟩
  · cases h

/-- The call that an event makes, with the time of its tick. -/
def System.nextCall (s : System reg) (i : Nat) : Option (Int × Call reg) :=
  match s.phase with
  | .beginning now (.call c _) => some (now, c)
  | .collecting now _ tasks =>
    match tasks[i]? with
    | some (.call c _) => some (now, c)
    | _ => none
  | .ending now (.call c _) => some (now, c)
  | _ => none

/-- The call loses no cooldown: one that is recorded is written, the fifth failure replaces
none that is longer, and what a probe clears is over. -/
def harmless (control : Control) (now : Int) (w : Answer) : Call reg → Bool
  | .control _ _ _ cooldown => decide (0 < cooldown → w.fault = none ∨ w.committed = true)
  | .providerFailure at' =>
    decide (control.failureCount < 4) ||
      control.cooldownUntil.all fun until' => decide (until' ≤ at' + seconds 900)
  | .clearCooldown =>
    decide (control.failureCount ≠ 0) || control.paused ||
      control.cooldownUntil.all fun until' => decide (until' ≤ now)
  | _ => true

/-- The clock does not run backwards, and no cooldown is lost. -/
def System.undisturbed (s : System reg) : Event → Bool
  | .start now => decide (s.clock ≤ now)
  | .run i w =>
    decide (s.clock ≤ w.now) && (s.nextCall i).all fun x => harmless s.store.control x.1 w x.2
  | .settle _ => true

/-- The cooldown lasts until `bound` or longer. -/
def Cool (bound : Int) (s : Store reg) : Prop :=
  ∃ until' ∈ s.control.cooldownUntil, bound ≤ until'

theorem Cool.of_control_eq (hs : Cool bound s)
    (h : s'.control.cooldownUntil = s.control.cooldownUntil) : Cool bound s' := by
  unfold Cool
  rw [h]
  exact hs

theorem Cool.recordControl (hs : Cool bound s) (status : String) (now : Int) (pause : Bool)
    (cooldown : Int) : Cool bound (s.recordControl status now pause cooldown) := by
  obtain ⟨until', huntil, hle⟩ := hs
  unfold Cool Store.recordControl
  split
  · rw [mem_def.mp huntil]
    exact ⟨_, rfl, le_trans hle (le_max_left _ _)⟩
  · exact ⟨until', huntil, hle⟩

theorem cool_recordControl (s : Store reg) (status : String) (now : Int) (pause : Bool)
    {cooldown : Int} (hpos : 0 < cooldown) :
    Cool (now + seconds cooldown) (s.recordControl status now pause cooldown) := by
  unfold Cool Store.recordControl
  rw [if_pos hpos]
  split
  · exact ⟨_, rfl, le_refl _⟩
  · exact ⟨_, rfl, le_max_right _ _⟩

theorem claim_control (s : Store reg) (tie : Job → Nat) (token : Uuid) (now : Int) :
    (s.claim tie token now).2.control = s.control := by
  unfold Store.claim
  split
  · rfl
  · rfl

/-- **One call.**  A harmless call keeps a cooldown, or its tick is at the bound. -/
theorem Cool.effect (hs : Cool bound s) (hc : harmless s.control now w c) :
    Cool bound (Snapshots.effect w c s) ∨ bound ≤ now := by
  cases c with
  | install config =>
    simp only [Snapshots.effect]
    cases hinstall : s.install config with
    | none => exact Or.inl hs
    | some s' =>
      obtain ⟨_, _, _, _, hcontrol⟩ := install_jobs hinstall
      exact Or.inl (hs.of_control_eq (congrArg (·.cooldownUntil) hcontrol))
  | save row message =>
    simp only [Snapshots.effect]
    cases hsave : s.save row message w.dbNow with
    | none => exact Or.inl hs
    | some result =>
      obtain ⟨saved, s'⟩ := result
      cases saved with
      | false => exact Or.inl (hs.of_control_eq (by rw [save_eq_false hsave]; rfl))
      | true =>
        obtain ⟨_, _, _, _, _, _, hcontrol⟩ := save_eq_true hsave
        exact Or.inl (hs.of_control_eq (congrArg (·.cooldownUntil) hcontrol))
  | claim at' => exact Or.inl (hs.of_control_eq (by rw [Snapshots.effect, claim_control]))
  | control status at' pause cooldown => exact Or.inl (hs.recordControl status at' pause cooldown)
  | providerFailure at' =>
    obtain ⟨until', huntil, hle⟩ := hs
    rw [harmless, Bool.or_eq_true, decide_eq_true_eq, mem_def.mp huntil] at hc
    simp only [all_some, decide_eq_true_eq] at hc
    left
    simp only [Snapshots.effect, Store.providerFailure]
    split
    · next hfour => exact ⟨_, rfl, by omega⟩
    · exact ⟨until', huntil, hle⟩
  | clearCooldown =>
    obtain ⟨until', huntil, hle⟩ := hs
    rw [harmless, mem_def.mp huntil] at hc
    simp only [all_some, Bool.or_eq_true, decide_eq_true_eq] at hc
    simp only [Snapshots.effect, Store.clearCooldown]
    split
    · next hclear =>
      right
      rcases hc with (hcount | hpaused) | hover
      · exact absurd hclear.1 hcount
      · rw [hclear.2] at hpaused
        cases hpaused
      · omega
    · exact Or.inl ⟨until', huntil, hle⟩
  | _ => exact Or.inl (hs.of_control_eq rfl)

theorem Cool.handle (hs : Cool bound s) (hc : harmless s.control now w c) :
    Cool bound (Snapshots.handle w c s).2 ∨ bound ≤ now := by
  rcases handle_store w c s with hsame | hdone
  · rw [hsame]
    exact Or.inl hs
  · rw [hdone]
    exact hs.effect hc

def IsClaim : Call reg → Prop
  | .claim _ => True
  | _ => False

/-- The gate of the tick of the time `now` was open. -/
def Passes (now : Int) : (c : Call reg) → Call.Ret c → Prop
  | .readControl, control => gated now control = false
  | _, _ => False

theorem reload_avoids (memory : Memory) : (reload memory : Service reg Memory).Avoids IsClaim := by
  apply avoids_perform id
  intro candidate
  split
  · exact trivial
  · exact avoids_perform id fun _ => trivial

theorem claimJobs_gated (now : Int) (configError : Bool) (config : MappingFile) (memory : Memory) :
    (claimJobs settings now configError config memory :
      Service reg Begun).PrecededBy (Passes now) IsClaim := by
  apply precededBy_perform id
  intro _
  right
  apply precededBy_perform id
  intro control
  cases hgate : gated now control with
  | true =>
    right
    exact precededBy_perform id fun _ => Or.inr trivial
  | false => exact Or.inl hgate

/-- No claim before the gate. -/
theorem beginTick_gated (memory : Memory) (now : Int) :
    (beginTick settings memory now : Service reg Begun).PrecededBy
      (Passes now) IsClaim := by
  apply Avoids.bind_precededBy
  · apply Avoids.catchWith
    · exact (reload_avoids memory).bind fun _ => trivial
    · intro e
      split <;> exact trivial
  · intro reloaded
    cases reloaded with
    | none =>
      apply precededBy_perform id
      intro _
      right
      split
      · exact trivial
      · exact claimJobs_gated settings now true _ memory
    | some memory =>
      dsimp only
      split
      · exact trivial
      · exact claimJobs_gated settings now false _ memory

/-- What follows a read that fails. -/
def OnFailure : (c : Call reg) →
    (Except Raised (Call.Ret c) → Service reg Unit) → Prop
  | .read _, next => ∀ e, ∃ row, next (.error e) = handleFailure settings row e
  | _, _ => True

/-- After a read that fails comes `handleFailure`. -/
def FailsTo : Service reg Unit → Prop
  | .ret _ => True
  | .fail _ => True
  | .call c next => OnFailure settings c next ∧ ∀ r, FailsTo (next r)

theorem failsTo_of_avoids {p : Service reg Unit} (hp : p.Avoids IsRead) : FailsTo settings p := by
  induction p with
  | ret | fail => trivial
  | call c next ih =>
    refine ⟨?_, fun r => ih r (hp.2 r)⟩
    cases c <;> first | exact trivial | exact absurd trivial hp.1

variable (row : Job)

theorem handleFailure_failsTo (raised : Raised) : FailsTo settings
      (handleFailure settings row raised : Service reg Unit) :=
  failsTo_of_avoids settings
    ((handleFailure_aside settings row raised).avoids fun _ => Aside.not_isRead)

/-- **Failed reads.**  `collect` hands a failed read to `handleFailure`. -/
theorem collect_failsTo : FailsTo settings (collect settings row : Service reg Unit) := by
  have hsave : ∀ message : PriceSampleObserved reg, FailsTo settings (saveSample row message) := by
    intro message
    have havoids := saveOnce_aside row message
    exact failsTo_of_avoids settings
      (havoids.catchWith (fun _ => havoids.catchWith (fun _ => trivial)))
  have hfail : ∀ e, FailsTo settings
      (handleFailure settings row e : Service reg Unit) :=
    handleFailure_failsTo settings row
  refine ⟨trivial, ?_⟩
  intro r
  cases r with
  | error e => exact trivial
  | ok now =>
    dsimp only [Proc.onOk, ret_bind]
    split
    · exact ⟨trivial, fun r => by cases r <;> exact trivial⟩
    · split
      · exact ⟨trivial, fun r => by cases r <;> exact trivial⟩
      · -- the registry is checked, then the page is read
        refine ⟨trivial, ?_⟩
        intro r
        cases r with
        | error e => exact hfail _
        | ok version =>
          show FailsTo settings (Proc.bind (Proc.catchWith _ (Proc.bind
            (if version ≠ row.registryVersion then _ else _) _)) _)
          split
          · exact hfail _
          · refine ⟨fun e => ⟨row, rfl⟩, ?_⟩
            intro r
            cases r with
            | error e => exact hfail e
            | ok quote =>
              show FailsTo settings (Proc.bind (Proc.catchWith _ (Proc.bind
                (if deadline settings row < quote.observedAt then _ else _) _)) _)
              split
              · exact hfail _
              · cases sampleMessage reg settings row quote with
                | error e => exact hfail e
                | ok message => exact hsave message

/-- No tick is from the future, and what it collects are rests of `collect`. -/
def Formed (s : System reg) : Prop :=
  match s.phase with
  | .idle => True
  | .beginning now _ => now ≤ s.clock
  | .collecting now _ tasks => now ≤ s.clock ∧ ∀ p ∈ tasks, FailsTo settings p
  | .ending now _ => now ≤ s.clock

variable {settings}

theorem clock_le {s : System reg} (h : s.undisturbed (.run i w)) : s.clock ≤ w.now := by
  simp only [System.undisturbed, Bool.and_eq_true, decide_eq_true_eq] at h
  exact h.1

theorem harmless_of_nextCall {s : System reg} (h : s.undisturbed (.run i w))
    (hcall : s.nextCall i = some (now, c)) : harmless s.store.control now w c := by
  simp only [System.undisturbed, Bool.and_eq_true, hcall, all_some] at h
  exact h.2

/-- A move keeps the system formed. -/
theorem Formed.moves {s s' : System reg} (hs : Formed settings s) (he : s.undisturbed e)
    (hmoves : Moves settings s e s') : Formed settings s' := by
  unfold Formed at hs
  cases hmoves with
  | stay => exact hs
  | start now hphase => exact le_refl now
  | begin i w hphase =>
    rw [hphase] at hs
    exact le_trans hs (clock_le he)
  | @collect now begun tasks c next i w hphase htask =>
    rw [hphase] at hs
    refine ⟨le_trans hs.1 (clock_le he), ?_⟩
    intro p hp
    rcases mem_or_eq_of_mem_set hp with hold | rfl
    · exact hs.2 p hold
    · exact (hs.2 _ (mem_of_getElem? htask)).2 _
  | finish i w hphase =>
    rw [hphase] at hs
    exact le_trans hs (clock_le he)
  | begun memory hphase hjobs =>
    rw [hphase] at hs
    refine ⟨hs, ?_⟩
    intro p hp
    obtain ⟨row, _, rfl⟩ := mem_map.mp hp
    exact collect_failsTo settings row
  | left => exact trivial
  | gathered memory hphase hended =>
    rw [hphase] at hs
    exact hs.1
  | ended => exact trivial

/-- A task is about to write the limit down, at `t` or later. -/
def Owed (settings : SnapshotSettings) (t r : Int) (tasks : List (Service reg Unit)) : Prop :=
  ∃ (i : Nat) (row : Job),
    tasks[i]? = some (handleFailure settings row (.readFailure (.rateLimited r))) ∨
    ∃ now, t ≤ now ∧ tasks[i]? = some (recordFailure settings row (.rateLimited r) now)

/-- What a limit of `r` seconds at the time `t` leaves behind. -/
def Held (settings : SnapshotSettings) (t r : Int) (s : System reg) : Prop :=
  t ≤ s.clock ∧
    match s.phase with
    | .idle => Cool (t + seconds r) s.store ∨ t + seconds r ≤ s.clock
    | .beginning now rest =>
      (Cool (t + seconds r) s.store ∧ rest.PrecededBy (Passes now) IsClaim) ∨ t + seconds r ≤ now
    | .collecting _ _ tasks =>
      Cool (t + seconds r) s.store ∨ t + seconds r ≤ s.clock ∨ Owed settings t r tasks
    | .ending _ _ => Cool (t + seconds r) s.store ∨ t + seconds r ≤ s.clock

theorem not_owed_of_ended (hended : tasks.all (·.ended)) : ¬ Owed settings t r tasks := by
  have hall : ∀ (i : Nat) (p : Service reg Unit), tasks[i]? = some p →
      p.ended := fun i p hp => all_eq_true.mp hended p (mem_of_getElem? hp)
  rintro ⟨i, row, htask | ⟨now, _, htask⟩⟩
  · cases hall i _ htask
  · cases hall i _ htask

theorem cool_or_le {clock : Int} (hs : Cool bound s ∨ bound ≤ clock)
    (hc : harmless s.control now w c) (hnow : now ≤ clock) (hclock : clock ≤ w.now) :
    Cool bound (handle w c s).2 ∨ bound ≤ w.now := by
  rcases hs with hcool | hle
  · rcases hcool.handle hc with hcool' | hle
    · exact Or.inl hcool'
    · exact Or.inr (by omega)
  · exact Or.inr (by omega)

theorem handleFailure_rateLimited (r : Int) :
    (handleFailure settings row (.readFailure (.rateLimited r)) :
      Service reg Unit) =
      .call .utcNow (Proc.onOk fun now => recordFailure settings row (.rateLimited r) now) :=
  perform_bind _ _

theorem recordFailure_rateLimited (r now : Int) :
    (recordFailure settings row (.rateLimited r) now : Service reg Unit) =
      .call (.control "RATE_LIMITED" now false r)
        (Proc.onOk fun _ => writeFailure settings row (.rateLimited r) now) :=
  perform_bind _ _

theorem cool_handle_control (hr : 0 < r) (ht : t ≤ now)
    (hc : harmless s.control tick w (.control "RATE_LIMITED" now false r : Call reg)) :
    Cool (t + seconds r) (handle w (.control "RATE_LIMITED" now false r) s).2 := by
  have hwritten : (handle w (.control "RATE_LIMITED" now false r) s).2 =
      s.recordControl "RATE_LIMITED" now false r := by
    simp only [harmless, decide_eq_true_eq] at hc
    simp only [handle, Answer.statement]
    split
    · rfl
    · next e hfault =>
      rcases hc hr with hnone | hcommitted
      · rw [hnone] at hfault
        cases hfault
      · rw [if_pos hcommitted]
  rw [hwritten]
  obtain ⟨until', huntil, hle⟩ := cool_recordControl s "RATE_LIMITED" now false hr
  exact ⟨until', huntil, by omega⟩

theorem Owed.call {next} (howed : Owed settings t r tasks) (hr : 0 < r)
    (htask : tasks[i]? = some (.call c next)) (ht : t ≤ w.now) (hc : harmless s.control tick w c) :
    Cool (t + seconds r) (handle w c s).2 ∨
      Owed settings t r (tasks.set i (next (handle w c s).1)) := by
  have hlt := (List.getElem?_eq_some_iff.mp htask).1
  obtain ⟨j, row, howed⟩ := howed
  by_cases hij : i = j
  · subst hij
    rcases howed with hstart | ⟨now, hnow, hrecord⟩
    · -- the time is read
      rw [htask, handleFailure_rateLimited] at hstart
      cases hstart
      exact Or.inr ⟨i, row, Or.inr ⟨w.now, ht, List.getElem?_set_self hlt⟩⟩
    · rw [htask, recordFailure_rateLimited] at hrecord
      cases hrecord
      exact Or.inl (cool_handle_control hr hnow hc)
  · right
    refine ⟨j, row, ?_⟩
    rw [List.getElem?_set_ne hij]
    exact howed

/-- A gate that is open is not before the end of the cooldown. -/
theorem Cool.le_of_passes (hs : Cool bound s) {answer : Call.Ret c}
    (hanswer : (Snapshots.handle w c s).1 = .ok answer) (hpasses : Passes now c answer) :
    bound ≤ now := by
  cases c with
  | readControl =>
    obtain ⟨until', huntil, hle⟩ := hs
    simp only [Snapshots.handle, Answer.statement] at hanswer
    split at hanswer
    · cases hanswer
      simp only [Passes, gated, mem_def.mp huntil, Bool.or_eq_false_iff, any_some,
        decide_eq_false_iff_not] at hpasses
      omega
    · cases hanswer
  | _ => exact hpasses.elim

/-- **One event.**  What a limit leaves behind stays. -/
theorem Held.moves {s s' : System reg} (hs : Held settings t r s) (hr : 0 < r)
    (hformed : Formed settings s) (he : s.undisturbed e) (hmoves : Moves settings s e s') :
    Held settings t r s' := by
  unfold Held at hs
  unfold Formed at hformed
  cases hmoves with
  | stay => exact hs
  | start now hphase =>
    rw [hphase] at hs
    have hnow : s.clock ≤ now := by simpa [System.undisturbed] using he
    refine ⟨le_trans hs.1 hnow, ?_⟩
    rcases hs.2 with hcool | hle
    · exact Or.inl ⟨hcool, beginTick_gated settings s.memory now⟩
    · exact Or.inr (le_trans hle hnow)
  | @begin now c next i w hphase =>
    have hharmless := harmless_of_nextCall he (by rw [System.nextCall, hphase])
    rw [hphase] at hs
    refine ⟨le_trans hs.1 (clock_le he), ?_⟩
    rcases hs.2 with ⟨hcool, hpreceded⟩ | hle
    · rcases hpreceded.2 (handle w c s.store).1 with ⟨answer, hanswer, hpasses⟩ | hrest
      · exact Or.inr (hcool.le_of_passes hanswer hpasses)
      · rcases hcool.handle hharmless with hcool' | hle
        · exact Or.inl ⟨hcool', hrest⟩
        · exact Or.inr hle
    · exact Or.inr hle
  | @collect now begun tasks c next i w hphase htask =>
    have hharmless : harmless s.store.control now w c :=
      harmless_of_nextCall he (by simp only [System.nextCall, hphase, htask])
    rw [hphase] at hs hformed
    have hclock := clock_le he
    refine ⟨le_trans hs.1 hclock, ?_⟩
    have hdone : Cool (t + seconds r) s.store ∨ t + seconds r ≤ s.clock →
        Cool (t + seconds r) (handle w c s.store).2 ∨ t + seconds r ≤ w.now :=
      fun h => cool_or_le h hharmless hformed.1 hclock
    rcases hs.2 with hcool | hle | howed
    · exact (hdone (Or.inl hcool)).imp_right Or.inl
    · exact (hdone (Or.inr hle)).imp_right Or.inl
    · exact (howed.call hr htask (le_trans hs.1 hclock) hharmless).imp_right Or.inr
  | @finish now c next i w hphase =>
    have hharmless := harmless_of_nextCall he (by rw [System.nextCall, hphase])
    rw [hphase] at hs hformed
    exact ⟨le_trans hs.1 (clock_le he), cool_or_le hs.2 hharmless hformed (clock_le he)⟩
  | begun memory hphase hjobs =>
    rw [hphase] at hs hformed
    refine ⟨hs.1, ?_⟩
    rcases hs.2 with ⟨hcool, _⟩ | hle
    · exact Or.inl hcool
    · exact Or.inr (Or.inl (le_trans hle hformed))
  | left memory memory' hphase hended =>
    rw [hphase] at hs hformed
    refine ⟨hs.1, ?_⟩
    rcases hs.2 with ⟨hcool, _⟩ | hle
    · exact Or.inl hcool
    · exact Or.inr (le_trans hle hformed)
  | gathered memory hphase hended =>
    rw [hphase] at hs
    refine ⟨hs.1, ?_⟩
    rcases hs.2 with hcool | hle | howed
    · exact Or.inl hcool
    · exact Or.inr hle
    · exact absurd howed (not_owed_of_ended hended)
  | ended memory hphase =>
    rw [hphase] at hs
    exact hs

/-- A read that is answered with a limit leaves it behind. -/
theorem held_of_limitedAt {s : System reg} (hformed : Formed settings s) (h : LimitedAt s e t r) :
    Held settings t r (s.step settings e) := by
  obtain ⟨i, w, row, rfl, hreading, hquote, rfl⟩ := h
  obtain ⟨now, begun, tasks, next, hphase, htask⟩ := System.reading_eq_some hreading
  have hlt := (List.getElem?_eq_some_iff.mp htask).1
  rw [Formed, hphase] at hformed
  obtain ⟨row', hrest⟩ := (hformed.2 _ (mem_of_getElem? htask)).1 (.readFailure (.rateLimited r))
  have hanswer : (handle w (.read row) s.store).1 = .error (.readFailure (.rateLimited r)) := hquote
  have hstep : s.step settings (.run i w) = { s with
      store := (handle w (.read row) s.store).2
      clock := w.now
      phase := .collecting now begun (tasks.set i
        (handleFailure settings row' (.readFailure (.rateLimited r)))) } := by
    simp only [System.step, System.run, hphase, htask, hanswer, hrest]
  rw [hstep]
  exact ⟨le_refl _, Or.inr (Or.inr ⟨i, row', Or.inl (List.getElem?_set_self hlt)⟩)⟩

section Run

variable {first : System reg} {events : Nat → Event} (hidle : first.phase = .idle)
  (hevents : ∀ k, (systemAt settings first events k).undisturbed (events k) = true)

include hidle hevents

theorem formed_at (k : Nat) : Formed settings (systemAt settings first events k) := by
  induction k with
  | zero =>
    rw [systemAt, Formed, hidle]
    exact trivial
  | succ k ih => exact ih.moves (hevents k) (System.step_moves settings _ _)

theorem held_at (hr : 0 < r) {k m : Nat} (hlt : k < m)
    (hlimited : LimitedAt (systemAt settings first events k) (events k) t r) :
    Held settings t r (systemAt settings first events m) := by
  induction hlt with
  | refl => exact held_of_limitedAt (formed_at hidle hevents k) hlimited
  | @step m _ ih =>
    exact ih.moves hr (formed_at hidle hevents m) (hevents m) (System.step_moves settings _ _)

end Run

/-- **The cooldown.**  In a run without disturbances a rate limit holds back every later
tick until it is over, whatever the other jobs do. -/
theorem undisturbed_holdsBack (settings : SnapshotSettings) (store : Store reg) (memory : Memory)
    (clock : Int) (events : Nat → Event)
    (hevents : ∀ k, (systemAt settings ⟨store, memory, clock, .idle⟩ events k).undisturbed
      (events k) = true) : HoldsBack settings ⟨store, memory, clock, .idle⟩ events := by
  intro k m hlt t r hr hlimited now hclaims
  have hheld := held_at rfl hevents hr hlt hlimited
  obtain ⟨i, w, at', job, _, hclaiming, _⟩ := hclaims
  obtain ⟨next, hphase⟩ := System.claiming_eq_some hclaiming
  rw [Held, hphase] at hheld
  rcases hheld.2 with ⟨_, hpreceded⟩ | hle
  · exact absurd trivial hpreceded.1
  · exact hle

theorem claimsAt_of_isSome {s : System reg} (at' : Int) (hclaiming : s.claiming = some (now, at'))
    (h : (s.store.claim w.tie w.token at').1.isSome) : ClaimsAt s (.run 0 w) now := by
  obtain ⟨job, hjob⟩ := isSome_iff_exists.mp h
  exact ⟨0, w, at', job, rfl, hclaiming, hjob⟩

def goldListing : Listing where
  assetId := "GOLD"
  marketCode := "US"
  instrumentId := "1"
  expectedExchange := "X"
  expectedCurrency := "USD"
  quoteUnit := "USD"
  calendarId := "24/7"
  timezone := "UTC"
  enabled := true

def goldJob (jobId : Uuid) (scheduledAt : Int) : Job where
  jobId := jobId
  assetId := "GOLD"
  session := 0
  version := "1"
  registryVersion := "1"
  listing := goldListing
  window := ⟨0, 0, seconds 3600, seconds 7200⟩
  scheduledAt := scheduledAt
  kind := .regular
  nextAttemptAt := scheduledAt

/-- Two jobs of one asset, and a cooldown. -/
def goldJobs (second : Int) (cooldown : Option Int) : Store goldRegistry where
  assets := ⟨[⟨"GOLD", "1", true, false, 0, none, none⟩], by decide⟩
  jobs := ⟨[goldJob 1 0, goldJob 2 second], by simp [goldJob]⟩
  control := { cooldownUntil := cooldown }

def goldMapping : MappingFile := ⟨"1", "h", []⟩

/-- The provider limits every read for a quarter of an hour. -/
def limiting (now : Int) : Answer where
  now := now
  dbNow := now
  mappings := .ok goldMapping
  registryVersion := .ok "1"
  quote := .error (.readFailure (.rateLimited 900))

def goldWorker (second : Int) (cooldown : Option Int) : System goldRegistry where
  store := goldJobs second cooldown
  memory := { config := some goldMapping }
  clock := 0

/-- So many calls at the time `now`, and what has ended is left. -/
def stage (n : Nat) (now : Int) : List Event := List.replicate n (.run 0 (limiting now)) ++ [.settle {}]

/-- A probe after a cooldown, and a tick ten seconds later. -/
def probeEvents (k : Nat) : Event :=
  (Event.start (seconds 10) :: (stage 7 (seconds 10) ++ stage 7 (seconds 10) ++ stage 3 (seconds 10) ++
    Event.start (seconds 20) :: stage 6 (seconds 20))).getD k (.settle {})

/-- The read of the probe is limited, the end of its tick clears the cooldown that was
just written, and the next tick claims the second job. -/
theorem probe_loses_limit : ¬ HoldsBack {} (goldWorker 0 (some 5)) probeEvents := by
  intro hholds
  have hlimited : LimitedAt (systemAt {} (goldWorker 0 (some 5)) probeEvents 11) (probeEvents 11)
      (seconds 10) 900 := by
    obtain ⟨row, hrow⟩ := isSome_iff_exists.mp
      (show ((systemAt {} (goldWorker 0 (some 5)) probeEvents 11).reading 0).isSome by
        decide +kernel)
    exact ⟨0, limiting (seconds 10), row, rfl, hrow, rfl, rfl⟩
  have hclaims : ClaimsAt (systemAt {} (goldWorker 0 (some 5)) probeEvents 27) (probeEvents 27)
      (seconds 20) :=
    claimsAt_of_isSome (seconds 20) (by decide +kernel) (by decide +kernel)
  exact absurd (hholds 11 27 (by decide) _ _ (by decide) hlimited _ hclaims) (by decide)

/-- A limit, a tick that is held back, and one after its end. -/
def heldBackEvents (k : Nat) : Event :=
  (Event.start (seconds 10) :: (stage 8 (seconds 10) ++ stage 7 (seconds 10) ++ stage 2 (seconds 10) ++
    Event.start (seconds 20) :: stage 4 (seconds 20) ++
    Event.start (seconds 1000) :: stage 7 (seconds 1000))).getD k (.settle {})

/-- The limit is written, holds the second tick back, and is over for the third. -/
theorem limit_holds_back :
    ClaimsAt (systemAt {} (goldWorker (seconds 1000) none) heldBackEvents 34) (heldBackEvents 34)
        (seconds 1000) ∧
      HoldsBack {} (goldWorker (seconds 1000) none) heldBackEvents := by
  constructor
  · exact claimsAt_of_isSome (seconds 1000) (by decide +kernel) (by decide +kernel)
  · apply undisturbed_holdsBack
    have hcheck : ∀ k < 36, (systemAt {} (goldWorker (seconds 1000) none) heldBackEvents k).undisturbed
        (heldBackEvents k) := by
      decide +kernel
    intro k
    by_cases hk : k < 36
    · exact hcheck k hk
    · have hlate : heldBackEvents k = .settle {} := by
        rw [heldBackEvents, getD_eq_getElem?_getD, List.getElem?_eq_none]
        · rfl
        · simp only [stage, length_cons, length_append, length_replicate, length_nil]
          omega
      rw [hlate]
      rfl

end Snapshots
