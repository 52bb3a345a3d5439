import FeedAnalyzer.AttemptOwnership

/-!
# Runs of the gateway

* `duty_exclusive`: the duty to finish an attempt, and the turn of its commands,
  have one holder;
* `ledger`: an attempt that is still to be finished is running;
* `finishes_running`: the write that finishes an attempt finds it running, so
  an attempt is finished once.
-/

namespace Gateway

open Transact List

/-- The two lines of an attempt's tokens. -/
def Duty.line : Duty → Uuid × Bool
  | .settle a => (a, true)
  | .turn a _ => (a, false)

variable {d d' : Duty} {c : Call} {r : Except Raised c.Ret}

theorem Duty.line_attempt (hline : d.line = d'.line) : d.attempt = d'.attempt := by
  cases d <;> cases d' <;> simp_all [Duty.line, Duty.attempt]

/-- A token is gained with a new reservation, or in place of a spent one. -/
theorem gained_cases (hd : d ∈ gained c r) :
    (∃ profile provider request slot,
      c = .reserve profile provider d.attempt request slot ∧ HEq r (.ok true : Except Raised Bool)) ∨
    ∃ d' ∈ spent c, d'.line = d.line := by
  cases c with
  | reserve profile provider attempt request slot =>
    obtain ⟨rfl, rfl | rfl⟩ := hd
    · exact Or.inl ⟨profile, provider, request, slot, rfl, HEq.rfl⟩
    · exact Or.inl ⟨profile, provider, request, slot, rfl, HEq.rfl⟩
  | openCommand provider id generation =>
    obtain ⟨_, a, ha, rfl⟩ := hd
    exact Or.inr ⟨_, ⟨a, ha, rfl⟩, rfl⟩
  | send message =>
    cases message with
    | command id provider requestId slot prompt timeout =>
      obtain ⟨_, a, ha, rfl⟩ := hd
      exact Or.inr ⟨_, ⟨a, ha, rfl⟩, rfl⟩
    | _ => exact absurd hd (by simp [gained])
  | awaitFuture id timeout =>
    cases id with
    | first a =>
      obtain ⟨_, rfl⟩ := hd
      exact Or.inr ⟨_, ⟨a, rfl, rfl⟩, rfl⟩
    | _ => exact absurd hd (by simp [gained])
  | _ => exact absurd hd (by simp [gained])

theorem gained_unique (hd : d ∈ gained c r) (hd' : d' ∈ gained c r) (hline : d.line = d'.line) :
    d = d' := by
  cases c with
  | reserve profile provider attempt request slot =>
    obtain ⟨_, rfl | rfl⟩ := hd
    · obtain ⟨_, rfl | rfl⟩ := hd'
      · rfl
      · cases hline
    · obtain ⟨_, rfl | rfl⟩ := hd'
      · cases hline
      · rfl
  | openCommand provider id generation =>
    obtain ⟨_, a, ha, rfl⟩ := hd
    obtain ⟨_, a', ha', rfl⟩ := hd'
    rw [ha] at ha'
    cases ha'
    rfl
  | send message =>
    cases message with
    | command id provider requestId slot prompt timeout =>
      obtain ⟨_, a, ha, rfl⟩ := hd
      obtain ⟨_, a', ha', rfl⟩ := hd'
      rw [ha] at ha'
      cases ha'
      rfl
    | _ => exact absurd hd (by simp [gained])
  | awaitFuture id timeout =>
    cases id with
    | first a =>
      obtain ⟨_, rfl⟩ := hd
      obtain ⟨_, rfl⟩ := hd'
      rfl
    | _ => exact absurd hd (by simp [gained])
  | _ => exact absurd hd (by simp [gained])

/-- The gateway's procedures, over its world. -/
abbrev Threads (M : Type) : Type := Config Service World Raised (Option (Result M))

variable {B M : Type} {G : Settings} {F : Formatting B M}

section Runs

variable {start : Threads M} {acts : Nat → Action (Job B) Env}
  (G F) in
/-- The shared state before the `k`-th action. -/
abbrev worldAt (start : Threads M)
    (acts : Nat → Action (Job B) Env) (k : Nat) : World :=
  (configAt (handle G) (procedure G F) start acts k).store

variable (G F) in
/-- Thread `i` makes the call `c` at time `k`. -/
abbrev Makes (start : Threads M)
    (acts : Nat → Action (Job B) Env) (k i : Nat) (w : Env) (c : Call) : Prop :=
  CallsAt (handle G) (procedure G F) start acts k i w c

variable (G F) in
/-- The tokens of thread `i` before the `k`-th action. -/
abbrev held (start : Threads M)
    (acts : Nat → Action (Job B) Env) (k i : Nat) : Set Duty :=
  owned duties (handle G) (procedure G F) start acts k i

/-- One action makes one call, or leaves the shared state as it is. -/
theorem world_succ (start : Threads M) (acts : Nat → Action (Job B) Env) (k : Nat) :
    (∃ i w c, Makes G F start acts k i w c ∧
      worldAt G F start acts (k+1) = (handle G w c (worldAt G F start acts k)).2) ∨
    (worldAt G F start acts (k+1) = worldAt G F start acts k ∧
      ∀ i w c, ¬ Makes G F start acts k i w c) := by
  by_cases hcalls : ∃ i w c, Makes G F start acts k i w c
  · obtain ⟨i, w, c, hcalls⟩ := hcalls
    exact Or.inl ⟨i, w, c, hcalls, hcalls.store_succ⟩
  · have hidle : ∀ i w c, ¬ Makes G F start acts k i w c :=
      fun i w c hcall => hcalls ⟨i, w, c, hcall⟩
    refine Or.inr ⟨?_, hidle⟩
    have hstep := @configAt_store_succ Service World Env Raised (Option (Result M)) (Job B)
      (handle G) (procedure G F) start acts k
    rcases hstep with ⟨i, w, c, hcall, _⟩ | hsame
    · exact absurd hcall (hidle i w c)
    · exact hsame

variable {w : Env} {s : World} {a : Uuid} {row : AttemptRow} {k m i i₀ : Nat} {f g : Tables.Finish}

theorem row_persists (hrow : s.tables.row? a = some row) :
    ∃ row', (handle G w c s).2.tables.row? a = some row' ∧ row.SameSlot row' := by
  have hmove := handle_row (G := G) w c s a
  rw [hrow] at hmove
  generalize hafter : (handle G w c s).2.tables.row? a = after at hmove
  cases hmove with
  | kept => exact ⟨row, rfl, rfl, rfl, rfl⟩
  | submitting hid hsame => exact ⟨_, rfl, hsame⟩
  | finished hf ha hsame => exact ⟨_, rfl, hsame⟩
  | released hc hsame => exact ⟨_, rfl, hsame⟩

/-- What every call keeps, holds of the shared state from some point on. -/
theorem world_stays {Q : World → Prop} (hcall : ∀ l i w c, Makes G F start acts l i w c →
      Q (worldAt G F start acts l) → Q (handle G w c (worldAt G F start acts l)).2) (hle : k ≤ m)
    (hk : Q (worldAt G F start acts k)) : Q (worldAt G F start acts m) :=
  store_stays (Q := Q) hcall hle hk

theorem row_stays (hle : k ≤ m) (hrow : (worldAt G F start acts k).tables.row? a = some row) :
    ∃ row', (worldAt G F start acts m).tables.row? a = some row' ∧ row.SameSlot row' := by
  refine world_stays (Q := fun s => ∃ row', s.tables.row? a = some row' ∧ row.SameSlot row')
    (fun l i w c _ hl => ?_) hle ⟨row, hrow, rfl, rfl, rfl⟩
  obtain ⟨row', hrow', hsame⟩ := hl
  obtain ⟨row'', hrow'', hsame'⟩ := row_persists hrow'
  refine ⟨row'', hrow'', ?_⟩
  exact ⟨hsame'.1.trans hsame.1, hsame'.2.1.trans hsame.2.1, hsame'.2.2.trans hsame.2.2⟩

theorem reserve_answer {profile provider request : String} {slot : Nat}
    (hok : (handle G w (.reserve profile provider a request slot) s).1 = .ok true) :
    s.tables.row? a = none ∧ ∃ row, row.state = .reserved ∧
      (handle G w (.reserve profile provider a request slot) s).2.tables.row? a = some row := by
  obtain ⟨t, hrun, htables⟩ := World.transact_ok hok
  have hpair := Except.ok.inj hrun
  obtain ⟨hnone, hrows⟩ := Tables.row?_reserve_true (congrArg Prod.fst hpair)
  refine ⟨hnone, Tables.reservedRow w.now profile provider a request slot, rfl, ?_⟩
  have hafter : (handle G w (.reserve profile provider a request slot) s).2.tables = t := htables
  have hinserted := hrows a
  rw [hpair, if_pos rfl] at hinserted
  rw [hafter]
  exact hinserted

/-- Who owes a duty has a row. -/
theorem duty_row (hempty : start.threads = []) (k : Nat) : ∀ i d, d ∈ held G F start acts k i →
      ∃ row, (worldAt G F start acts k).tables.row? d.attempt = some row := by
  induction k with
  | zero =>
    intro i d hd
    cases hd
  | succ k ih =>
    intro i d hd
    by_cases hcalls : ∃ w c, Makes G F start acts k i w c
    · obtain ⟨w, c, hcalls⟩ := hcalls
      have hspend : spent c ⊆ held G F start acts k i :=
        spend_subset_owned hempty procedure_uses hcalls
      rw [held, owned_succ_calls hcalls] at hd
      rw [worldAt, hcalls.store_succ]
      rcases hd with ⟨hheld, _⟩ | hgained
      · obtain ⟨row, hrow⟩ := ih i d hheld
        obtain ⟨row', hrow', _⟩ := row_persists hrow
        exact ⟨row', hrow'⟩
      · rcases gained_cases hgained with ⟨profile, provider, request, slot, hc, hanswer⟩ |
          ⟨d', hd', hline⟩
        · subst hc
          obtain ⟨_, row, _, hrow⟩ := reserve_answer (eq_of_heq hanswer)
          exact ⟨row, hrow⟩
        · obtain ⟨row, hrow⟩ := ih i d' (hspend hd')
          rw [Duty.line_attempt hline] at hrow
          obtain ⟨row', hrow', _⟩ := row_persists hrow
          exact ⟨row', hrow'⟩
    · have hidle : ∀ w c, ¬ Makes G F start acts k i w c :=
        fun w c hcall => hcalls ⟨w, c, hcall⟩
      rw [held, owned_succ_idle hidle] at hd
      obtain ⟨row, hrow⟩ := ih i d hd
      obtain ⟨row', hrow', _⟩ := row_stays (Nat.le_succ k) hrow
      exact ⟨row', hrow'⟩

/-- **One holder.**  Each line of an attempt has one token, held by one thread. -/
theorem duty_exclusive (hempty : start.threads = []) (k : Nat) :
    ∀ i i' d d', d ∈ held G F start acts k i → d' ∈ held G F start acts k i' →
      d.line = d'.line → i = i' ∧ d = d' := by
  apply lines_exclusive hempty procedure_uses
  · intro c r d d' hd hd' hline
    exact gained_unique hd hd' hline
  · intro k i w c hcalls d hd
    rcases gained_cases hd with ⟨profile, provider, request, slot, hc, hanswer⟩ | hspent
    · right
      intro i' d' hd' hline
      subst hc
      obtain ⟨hnone, _⟩ := reserve_answer (eq_of_heq hanswer)
      obtain ⟨row, hrow⟩ := duty_row hempty k i' d' hd'
      rw [Duty.line_attempt hline] at hrow
      have hnone' : (worldAt G F start acts k).tables.row? d.attempt = none := hnone
      rw [hnone'] at hrow
      cases hrow
    · exact Or.inl hspent

/-- The attempt runs: the engine has not finished it. -/
def World.Runs (s : World) (a : Uuid) : Prop :=
  ∃ row, s.tables.row? a = some row ∧ row.state.running = true

/-- **The ledger.**  Every attempt to be finished runs; the write is owed by a thread or put
off, not both. -/
structure Ledger (G : Settings) (F : Formatting B M)
    (start : Threads M)
    (acts : Nat → Action (Job B) Env) (k : Nat) : Prop where
  owed : ∀ i a, Duty.settle a ∈ held G F start acts k i → (worldAt G F start acts k).Runs a
  queued : ∀ f ∈ (worldAt G F start acts k).shielded, (worldAt G F start acts k).Runs f.attempt
  nodup : ((worldAt G F start acts k).shielded.map (·.attempt)).Nodup
  apart : ∀ i a, Duty.settle a ∈ held G F start acts k i →
    ∀ f ∈ (worldAt G F start acts k).shielded, f.attempt ≠ a

theorem World.Runs.step (hruns : s.Runs a) (hf : ∀ f, Finishes s c f → f.attempt ≠ a) :
    (handle G w c s).2.Runs a := by
  obtain ⟨row, hrow, hrunning⟩ := hruns
  have hmove := handle_row (G := G) w c s a
  rw [hrow] at hmove
  generalize hafter : (handle G w c s).2.tables.row? a = after at hmove
  cases hmove with
  | kept => exact ⟨row, hafter, hrunning⟩
  | submitting hid hsame hbefore hafter' =>
    refine ⟨_, hafter, ?_⟩
    rw [hafter']
    rfl
  | finished hfin ha hsame => exact absurd ha (hf _ hfin)
  | released hc hsame hbefore =>
    rw [hbefore] at hrunning
    cases hrunning

/-- Who makes the call that finishes an attempt, or puts it off, owed it. -/
theorem finish_held (hempty : start.threads = []) (hcalls : Makes G F start acts k i w c)
    (hc : spent c = {.settle a}) : Duty.settle a ∈ held G F start acts k i := by
  have hspend : spent c ⊆ held G F start acts k i :=
    spend_subset_owned hempty procedure_uses hcalls
  apply hspend
  rw [hc]
  rfl

theorem held_succ_cases (hcalls : Makes G F start acts k i₀ w c)
    (hd : d ∈ held G F start acts (k+1) i) :
    (d ∈ held G F start acts k i ∧ (i = i₀ → d ∉ spent c)) ∨
      (i = i₀ ∧ d ∈ gained c (handle G w c (worldAt G F start acts k)).1) := by
  by_cases hi : i = i₀
  · subst hi
    rw [held, owned_succ_calls hcalls] at hd
    rcases hd with ⟨hheld, hkept⟩ | hgained
    · exact Or.inl ⟨hheld, fun _ => hkept⟩
    · exact Or.inr ⟨rfl, hgained⟩
  · rw [held, owned_succ_other hcalls hi] at hd
    exact Or.inl ⟨hd, fun h => absurd h hi⟩

/-- The attempt that a call finishes is owed by its maker or was put off. -/
theorem finishes_cases (hempty : start.threads = []) (hcalls : Makes G F start acts k i w c)
    (hf : Finishes (worldAt G F start acts k) c f) :
    (Duty.settle f.attempt ∈ held G F start acts k i ∧ Duty.settle f.attempt ∈ spent c) ∨
      (c = .runShielded ∧ ∃ rest, (worldAt G F start acts k).shielded = f :: rest) := by
  cases hf with
  | finish | shielded => exact Or.inl ⟨finish_held hempty hcalls rfl, rfl⟩
  | background hhead => exact Or.inr ⟨rfl, _, hhead⟩

theorem not_finished_of_held (hempty : start.threads = []) (hledger : Ledger G F start acts k)
    (hcalls : Makes G F start acts k i₀ w c) (hheld : Duty.settle a ∈ held G F start acts k i)
    (hkept : i = i₀ → Duty.settle a ∉ spent c) (hf : Finishes (worldAt G F start acts k) c f) :
    f.attempt ≠ a := by
  rintro rfl
  rcases finishes_cases hempty hcalls hf with ⟨howed, hspent⟩ | ⟨_, rest, hqueue⟩
  · exact hkept (duty_exclusive hempty k i i₀ _ _ hheld howed rfl).1 hspent
  · exact hledger.apart i _ hheld f (by rw [hqueue]; exact mem_cons_self) rfl

/-- A write that has been put off and stays so is not the one that a call
carries out. -/
theorem not_finished_of_queued (hempty : start.threads = []) (hledger : Ledger G F start acts k)
    (hcalls : Makes G F start acts k i₀ w c) (hg : g ∈ (worldAt G F start acts k).shielded)
    (hlater : ∀ f rest, c = .runShielded → (worldAt G F start acts k).shielded = f :: rest →
      g ∈ rest) (hf : Finishes (worldAt G F start acts k) c f) : f.attempt ≠ g.attempt := by
  intro hsame
  rcases finishes_cases hempty hcalls hf with ⟨howed, _⟩ | ⟨hc, rest, hqueue⟩
  · exact hledger.apart i₀ _ howed g hg hsame.symm
  · have hnodup := hledger.nodup
    rw [hqueue, map_cons, nodup_cons] at hnodup
    apply hnodup.1
    rw [hsame]
    exact mem_map_of_mem (hlater f rest hc hqueue)

/-- A write that is put off after a call was so before it, or is put off by the
call. -/
theorem shielded_succ (hg : g ∈ (handle G w c s).2.shielded) :
    (g ∈ s.shielded ∧ ∀ f rest, c = .runShielded → s.shielded = f :: rest → g ∈ rest) ∨
      (c = .shieldedFinish g ∧ (handle G w c s).2 = { s with shielded := s.shielded ++ [g] }) := by
  have htail : (handle G w .runShielded s).2.shielded = s.shielded.tail := by
    rw [handle, World.runShielded]
    cases hqueue : s.shielded with
    | nil => exact hqueue
    | cons f rest => exact World.transact_shielded
  have hlater : ∀ f rest, c = .runShielded → s.shielded = f :: rest → g ∈ rest := by
    rintro f rest rfl hqueue
    rw [htail, hqueue] at hg
    exact hg
  rcases handle_shielded w c s with hsame | ⟨f, hc, hworld⟩ | ⟨f, rest, hc, hqueue, hrest⟩
  · rw [hsame] at hg
    exact Or.inl ⟨hg, hlater⟩
  · rw [hworld] at hg
    rcases mem_append.mp hg with hold | hnew
    · exact Or.inl ⟨hold, hlater⟩
    · obtain rfl : g = f := by simpa using hnew
      exact Or.inr ⟨hc, hworld⟩
  · rw [hrest] at hg
    refine Or.inl ⟨?_, hlater⟩
    rw [hqueue]
    exact mem_cons_of_mem f hg

/-- Only a write that finishes an attempt settles what is owed for it. -/
theorem finishes_of_spent (hspent : Duty.settle a ∈ spent c) :
    ∃ f, c = .finish f ∨ c = .shieldedFinish f := by
  cases c with
  | finish f => exact ⟨f, Or.inl rfl⟩
  | shieldedFinish f => exact ⟨f, Or.inr rfl⟩
  | openCommand provider id generation => exact absurd hspent (settle_not_mem_turn id 0 a)
  | send message =>
    cases message with
    | command id => exact absurd hspent (settle_not_mem_turn id 1 a)
    | _ => exact absurd hspent (by simp [spent])
  | awaitFuture id => exact absurd hspent (settle_not_mem_turn id 2 a)
  | _ => exact absurd hspent (by simp [spent])

theorem gained_runs (hd : Duty.settle a ∈ gained c (handle G w c s).1) :
    s.tables.row? a = none ∧ (handle G w c s).2.Runs a := by
  rcases gained_cases hd with ⟨profile, provider, request, slot, hc, hanswer⟩ | ⟨d', hd', hline⟩
  · subst hc
    obtain ⟨hnone, row, hstate, hrow⟩ := reserve_answer (eq_of_heq hanswer)
    refine ⟨hnone, row, hrow, ?_⟩
    rw [hstate]
    rfl
  · -- a write that finishes an attempt gives nothing back
    cases d' with
    | turn a' n => cases hline
    | settle a' =>
      obtain ⟨f, rfl | rfl⟩ := finishes_of_spent hd'
      all_goals exact absurd hd (by simp [gained])

/-- One call keeps the ledger. -/
theorem ledger_call (hempty : start.threads = []) (hledger : Ledger G F start acts k)
    (hcalls : Makes G F start acts k i₀ w c) : Ledger G F start acts (k+1) := by
  have hworld : worldAt G F start acts (k+1) =
      (handle G w c (worldAt G F start acts k)).2 := hcalls.store_succ
  constructor
  · intro i a hd
    rw [hworld]
    rcases held_succ_cases hcalls hd with ⟨hheld, hkept⟩ | ⟨_, hgained⟩
    · apply (hledger.owed i a hheld).step
      intro f hf
      exact not_finished_of_held hempty hledger hcalls hheld hkept hf
    · exact (gained_runs hgained).2
  · intro g hg
    rw [hworld] at hg ⊢
    rcases shielded_succ hg with ⟨hold, hlater⟩ | ⟨hc, hnew⟩
    · apply (hledger.queued g hold).step
      intro f hf
      exact not_finished_of_queued hempty hledger hcalls hold hlater hf
    · rw [hnew]
      subst hc
      exact hledger.owed i₀ _ (finish_held hempty hcalls rfl)
  · rw [hworld]
    rcases handle_shielded w c (worldAt G F start acts k) with
      hsame | ⟨f, hc, hnew⟩ | ⟨f, rest, _, hqueue, hrest⟩
    · rw [hsame]
      exact hledger.nodup
    · rw [hnew]
      subst hc
      have howed := finish_held hempty hcalls rfl
      rw [map_append, nodup_append]
      refine ⟨hledger.nodup, by simp, ?_⟩
      intro x hx y hy
      obtain ⟨g, hg, rfl⟩ := mem_map.mp hx
      obtain rfl : y = f.attempt := by simpa using hy
      exact hledger.apart i₀ _ howed g hg
    · rw [hrest]
      have hnodup := hledger.nodup
      rw [hqueue, map_cons, nodup_cons] at hnodup
      exact hnodup.2
  · intro i a hd g hg hsame
    rw [hworld] at hg
    rcases held_succ_cases hcalls hd with ⟨hheld, hkept⟩ | ⟨_, hgained⟩
    · rcases shielded_succ hg with ⟨hold, _⟩ | ⟨hc, _⟩
      · exact hledger.apart i a hheld g hold hsame
      · subst hc
        have hspent : Duty.settle a ∈ spent (.shieldedFinish g) := by
          rw [← hsame]
          rfl
        have howed : Duty.settle a ∈ held G F start acts k i₀ := by
          rw [← hsame]
          exact finish_held hempty hcalls rfl
        exact hkept (duty_exclusive hempty k i i₀ _ _ hheld howed rfl).1 hspent
    · have hnone := (gained_runs hgained).1
      rcases shielded_succ hg with ⟨hold, _⟩ | ⟨hc, _⟩
      · obtain ⟨row, hrow, _⟩ := hledger.queued g hold
        rw [hsame, hnone] at hrow
        cases hrow
      · subst hc
        exact absurd hgained (by simp [gained])

/-- The ledger is kept in every run that starts without writes put off. -/
theorem ledger (hempty : start.threads = []) (hshielded : start.store.shielded = []) (k : Nat) :
    Ledger G F start acts k := by
  induction k with
  | zero =>
    have hqueue : (worldAt G F start acts 0).shielded = [] := hshielded
    constructor
    · intro i a hd
      cases hd
    · rw [hqueue]
      simp
    · rw [hqueue]
      simp
    · intro i a hd
      cases hd
  | succ k ih =>
    rcases world_succ start acts k with ⟨i, w, c, hcalls, _⟩ | ⟨hsame, hidle⟩
    · exact ledger_call hempty ih hcalls
    · have hheld : ∀ i, held G F start acts (k+1) i = held G F start acts k i :=
        fun i => owned_succ_idle (hidle i)
      constructor
      · intro i a hd
        rw [hheld] at hd
        rw [hsame]
        exact ih.owed i a hd
      · rw [hsame]
        exact ih.queued
      · rw [hsame]
        exact ih.nodup
      · intro i a hd
        rw [hheld] at hd
        rw [hsame]
        exact ih.apart i a hd

/-- **An attempt is finished once.**  The write that finishes an attempt finds it
running. -/
theorem finishes_running (hempty : start.threads = []) (hshielded : start.store.shielded = [])
    (hcalls : Makes G F start acts k i w c) (hf : Finishes (worldAt G F start acts k) c f) :
    (worldAt G F start acts k).Runs f.attempt := by
  have hledger : Ledger G F start acts k := ledger hempty hshielded k
  rcases finishes_cases hempty hcalls hf with ⟨howed, _⟩ | ⟨_, rest, hqueue⟩
  · exact hledger.owed i _ howed
  · exact hledger.queued f (by rw [hqueue]; exact mem_cons_self)

def AttemptState.rank : AttemptState → Nat
  | .reserved => 0
  | .submitted => 1
  | .unknown => 2
  | .finished => 3

/-- The attempt is still there, in its slot, and has not gone back. -/
def Advances (a : Uuid) (s s' : World) : Prop :=
  ∀ row, s.tables.row? a = some row → ∃ row', s'.tables.row? a = some row' ∧
    row.SameSlot row' ∧ row.state.rank ≤ row'.state.rank

/-- **Attempts only advance.**  However requests, results and resets overlap and are cut
off, an attempt keeps its slot and goes from `reserved` over `submitted` and `unknown` to
`finished`, never back. -/
theorem attempt_advances (t : Tables) (acts : Nat → Action (Job B) Env) (a : Uuid) (k d : Nat) :
    Advances a (worldAt G F ⟨{ tables := t }, []⟩ acts k)
      (worldAt G F ⟨{ tables := t }, []⟩ acts (k + d)) := by
  intro row hrow
  refine world_stays (Q := fun s => ∃ row', s.tables.row? a = some row' ∧ row.SameSlot row' ∧
    row.state.rank ≤ row'.state.rank) (fun l i w c hcalls hl => ?_) (Nat.le_add_right k d)
    ⟨row, hrow, ⟨rfl, rfl, rfl⟩, Nat.le_refl _⟩
  obtain ⟨before, hbefore, hslot, hle⟩ := hl
  obtain ⟨after, hafter, hslot'⟩ := row_persists (G := G) (w := w) (c := c) hbefore
  refine ⟨after, hafter, ⟨hslot'.1.trans hslot.1, hslot'.2.1.trans hslot.2.1,
    hslot'.2.2.trans hslot.2.2⟩, hle.trans ?_⟩
  have hmove := handle_row (G := G) w c (worldAt G F ⟨{ tables := t }, []⟩ acts l) a
  have hruns := fun f => finishes_running (f := f) rfl rfl hcalls
  generalize worldAt G F ⟨{ tables := t }, []⟩ acts l = s at *
  rw [hbefore, hafter] at hmove
  cases hmove with
  | kept => exact Nat.le_refl _
  | submitting _ _ hreserved =>
    rw [hreserved]
    exact Nat.zero_le _
  | finished hf ha _ hsettled =>
    -- the write finds the attempt running
    obtain ⟨row, hrow, hrunning⟩ := hruns _ hf
    rw [ha, hbefore] at hrow
    cases hrow
    have hlow : before.state.rank ≤ 2 := by
      cases hstate : before.state with
      | finished =>
        rw [hstate] at hrunning
        cases hrunning
      | _ => decide
    rw [hsettled, Tables.settledState]
    split
    · exact hlow
    · exact hlow.trans (by decide)
  | released _ _ hunknown hfinished =>
    rw [hunknown, hfinished]
    decide

end Runs

end Gateway
