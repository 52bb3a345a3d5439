import FeedAnalyzer.GatewayRuns

/-!
# Every reserved slot is released

A cancelled request should leave no attempt `reserved` or `submitted`.  Three places escape
the engine's shielded write: a cancellation between the commit of a reservation and its
answer, the normal write that finishes an attempt, and a second cancellation.
`slotsReleased` says that there are no others.
-/

namespace Gateway

open Transact Option World

variable {B M : Type} {G : Settings} {F : Formatting B M}
  {start : Threads M} {acts : Nat → Action (Job B) Env}

variable (G F) in
/-- Thread `i` has inserted the row of attempt `a`. -/
def ReservedBy (start : Threads M)
    (acts : Nat → Action (Job B) Env) (k i : Nat) (a : Uuid) : Prop :=
  ∃ l < k, ∃ w profile provider request slot,
    Makes G F start acts l i w (.reserve profile provider a request slot) ∧
      (worldAt G F start acts l).tables.row? a = none ∧
      (worldAt G F start acts (l+1)).tables.row? a ≠ none

variable (G F) in
/-- **No slot is leaked.**  An ended task leaves none of its attempts `reserved` or
`submitted`. -/
def SlotsReleased (start : Threads M)
    (acts : Nat → Action (Job B) Env) : Prop :=
  ∀ k i p a, (configAt (handle G) (procedure G F) start acts k).threads[i]? = some p →
    p.ended = true → ReservedBy G F start acts k i a → ¬ (worldAt G F start acts k).Runs a

/-- No exception cuts a reservation off after its commit, nor a finishing write before it.
-/
def SafelyCut (w : Env) : Call → Prop
  | .reserve .. => w.raised = none ∨ w.committed = false
  | .finish _ => w.raised = none ∨ w.committed = true
  | .shieldedFinish _ => w.raised = none ∨ w.committed = true
  | _ => True

instance (w : Env) (c : Call) : Decidable (SafelyCut w c) := by
  cases c <;> unfold SafelyCut <;> infer_instance

variable {w : Env} {c : Call} {s : World} {a : Uuid} {i : Nat}

/-- No stopped attempt starts again. -/
theorem not_runs_step {row : AttemptRow} (hrow : s.tables.row? a = some row)
    (hruns : (handle G w c s).2.Runs a) : s.Runs a := by
  obtain ⟨row', hrow', hrunning⟩ := hruns
  have hmove := handle_row (G := G) w c s a
  rw [hrow, hrow'] at hmove
  generalize hbefore : some row = before at hmove
  generalize hafter : some row' = after at hmove
  cases hmove with
  | kept =>
    cases hbefore
    cases hafter
    exact ⟨row, hrow, hrunning⟩
  | reserved hstate => cases hbefore
  | submitting hid hsame hstate =>
    cases hbefore
    refine ⟨row, hrow, ?_⟩
    rw [hstate]
    rfl
  | finished hf ha hsame hstate =>
    cases hafter
    rw [hstate] at hrunning
    unfold Tables.settledState at hrunning
    split at hrunning <;> cases hrunning
  | released hc hsame hstate hfinished =>
    cases hafter
    rw [hfinished] at hrunning
    cases hrunning

/-- A write that is not cut off before its commit finishes a running attempt. -/
theorem finish_stops {f : Tables.Finish} (hruns : s.Runs f.attempt)
    (hcut : w.raised = none ∨ w.committed) : ¬ (s.finish G w f).2.Runs f.attempt := by
  obtain ⟨row, hrow, hrunning⟩ := hruns
  have hruns : ∃ t, s.tables.finish G.retry w.clock w.now f = .ok t :=
    Tables.finish_of_running hrow hrunning
  obtain ⟨t, ht⟩ := hruns
  have hrun : (s.tables.finish G.retry w.clock w.now f).map (fun t => ((), t)) = .ok ((), t) := by
    rw [ht]
    rfl
  have htables : (s.finish G w f).2.tables = t := transact_committed hrun hcut
  rintro ⟨row', hrow', hrunning'⟩
  rw [htables, Tables.row?_finish ht, if_pos rfl, hrow] at hrow'
  cases hrow'
  have hstate : (Tables.settledRow w.now f.status row).state.running = false := by
    show (Tables.settledState f.status).running = false
    unfold Tables.settledState
    split <;> rfl
  rw [hstate] at hrunning'
  cases hrunning'

/-- Under safe cuts, a reservation that inserts its row is told so. -/
theorem reserve_told {profile provider request : String} {slot : Nat}
    (hsafe : SafelyCut w (.reserve profile provider a request slot))
    (hnone : s.tables.row? a = none)
    (hsome : (handle G w (.reserve profile provider a request slot) s).2.tables.row? a ≠ none) :
    (handle G w (.reserve profile provider a request slot) s).1 = .ok true := by
  have hworld : handle G w (.reserve profile provider a request slot) s =
      s.transact w (fun t => .ok (t.reserve w.now profile provider a request slot)) := rfl
  rw [hworld] at hsome ⊢
  unfold transact at hsome ⊢
  dsimp only at hsome ⊢
  cases hpair : s.tables.reserve w.now profile provider a request slot with
  | mk reserved t =>
    rw [hpair] at hsome
    cases hraised : w.raised with
    | none =>
      rw [hraised] at hsome
      cases reserved with
      | true => rfl
      | false =>
        have hsame := Tables.reserve_false (congrArg Prod.fst hpair)
        rw [hpair] at hsame
        cases hsame
        exact absurd hnone hsome
    | some e =>
      rcases hsafe with hno | huncommitted
      · rw [hraised] at hno
        cases hno
      · rw [hraised, huncommitted] at hsome
        exact absurd hnone hsome

variable (hempty : start.threads = []) (hshielded : start.store.shielded = [])

include hempty hshielded

/-- Under safe cuts, who spends the duty to finish an attempt has finished it. -/
theorem spent_stops {k : Nat} (hcalls : Makes G F start acts k i w c) (hsafe : SafelyCut w c)
    (hspent : Duty.settle a ∈ spent c) : ¬ (worldAt G F start acts (k+1)).Runs a := by
  have howed : Duty.settle a ∈ held G F start acts k i :=
    spend_subset_owned hempty procedure_uses hcalls hspent
  have hruns := (ledger hempty hshielded k).owed i a howed
  rw [worldAt, hcalls.store_succ]
  obtain ⟨f, rfl | rfl⟩ := finishes_of_spent hspent
  · cases hspent
    exact finish_stops hruns hsafe
  · cases hspent
    have hworld : (handle G w (.shieldedFinish f) (worldAt G F start acts k)).2 =
        ((worldAt G F start acts k).finish G w f).2 := by
      rw [handle, shieldedFinish]
      split
      · rename_i hraised hcommitted
        rcases hsafe with hnone | hcommitted'
        · rw [hraised] at hnone
          cases hnone
        · rw [hcommitted] at hcommitted'
          cases hcommitted'
      · rfl
    rw [hworld]
    exact finish_stops hruns hsafe

/-- Under safe cuts, a running attempt is owed by the task that reserved it. -/
theorem owed_of_runs (hsafe : ∀ k i w c, Makes G F start acts k i w c → SafelyCut w c) (k : Nat)
    (hreserved : ReservedBy G F start acts k i a) (hruns : (worldAt G F start acts k).Runs a) :
    Duty.settle a ∈ held G F start acts k i := by
  induction k with
  | zero =>
    obtain ⟨l, hl, _⟩ := hreserved
    exact absurd hl (Nat.not_lt_zero l)
  | succ k ih =>
    obtain ⟨l, hl, w, profile, provider, request, slot, hcalls, hnone, hsome⟩ := hreserved
    by_cases hnow : l = k
    · subst hnow
      rw [worldAt, hcalls.store_succ] at hsome
      have htold := reserve_told (hsafe _ _ _ _ hcalls) hnone hsome
      rw [held, owned_succ_calls hcalls]
      exact Or.inr ⟨htold, Or.inl rfl⟩
    · have hbefore : ReservedBy G F start acts k i a :=
        ⟨l, by omega, w, profile, provider, request, slot, hcalls, hnone, hsome⟩
      -- the row is there from the reservation on
      obtain ⟨first, hfirst⟩ := ne_none_iff_exists'.mp hsome
      obtain ⟨row, hrow, _⟩ := row_stays (by omega : l + 1 ≤ k) hfirst
      have hrunsBefore : (worldAt G F start acts k).Runs a := by
        rcases world_succ start acts k with
          ⟨i', w', c', _, hstore⟩ | ⟨hsame, _⟩
        · rw [hstore] at hruns
          exact not_runs_step hrow hruns
        · rw [hsame] at hruns
          exact hruns
      have howed := ih hbefore hrunsBefore
      by_cases hcall : ∃ w' c', Makes G F start acts k i w' c'
      · obtain ⟨w', c', hcall⟩ := hcall
        rw [held, owned_succ_calls hcall]
        refine Or.inl ⟨howed, fun hspent => ?_⟩
        exact spent_stops hempty hshielded hcall (hsafe _ _ _ _ hcall) hspent hruns
      · rw [held, owned_succ_idle (fun w' c' h => hcall ⟨w', c', h⟩)]
        exact howed

/-- **When no slot is leaked.**  Where no exception cuts a reservation off after its commit,
nor a finishing write before its own, a task that has ended leaves no attempt of its own
running. -/
theorem slotsReleased (hsafe : ∀ k i w c, Makes G F start acts k i w c → SafelyCut w c) :
    SlotsReleased G F start acts := by
  intro k i p a hp hended hreserved hruns
  have howed := owed_of_runs hempty hshielded hsafe k hreserved hruns
  have huses := uses_at hempty procedure_uses k i p hp
  cases p with
  | ret | fail => exact huses a howed
  | call c next => cases hended

omit hempty hshielded

/-- One provider with one tab. -/
def oneTab : Settings :=
  { profileId := "default", providers := ["chatgpt"], tabsPerProvider := 1, maxBodyBytes := 1024,
    retry := 900000000 }

/-- A request with three minutes to go. -/
def threeMinutes : Context :=
  { requestId := "r1", deadline := 180000000, profileId := "default", required := ["text"] }

/-- An empty database, and no extension. -/
def idleGateway : Config Service World Raised (Option (Result String)) :=
  ⟨{ tables := Tables.empty }, []⟩

/-- The client goes away while the reservation is being committed. -/
def cancelledReservation : List (Action (Job Unit) Env) :=
  [.spawn (.request 1 () threeMinutes), .run 0 {}, .run 0 {}, .run 0 {}, .run 0 { draw := 7 },
    .run 0 { raised := some .cancelled, committed := true }]

/-- **A cancelled reservation leaks its slot.**  The task has ended, and the row
of its attempt stays in state `reserved`. -/
theorem reservation_leaks_slot :
    let acts := finitely cancelledReservation {}
    ((configAt (handle oneTab) (procedure oneTab plainFormatting) idleGateway acts
        6).threads[0]?).map (·.ended) = some true ∧
      (worldAt oneTab plainFormatting idleGateway acts 6).tables.stateOf 7 = some .reserved ∧
      ¬ SlotsReleased oneTab plainFormatting idleGateway acts := by
  intro acts
  have hended : ((configAt (handle oneTab) (procedure oneTab plainFormatting) idleGateway acts
      6).threads[0]?).map (·.ended) = some true := by decide +kernel
  refine ⟨hended, by decide +kernel, ?_⟩
  intro hreleased
  obtain ⟨p, hp, hpended⟩ := map_eq_some_iff.mp hended
  have hmakes : Makes oneTab plainFormatting idleGateway acts 5 0
      { raised := some .cancelled, committed := true }
      (.reserve "default" "chatgpt" 7 "r1" 0) :=
    callsAt_of_callAt rfl (by decide +kernel)
  refine hreleased 6 0 p 7 hp hpended ?_ ?_
  · exact ⟨5, by decide, _, _, _, _, _, hmakes, by decide +kernel, by decide +kernel⟩
  · exact ⟨Tables.reservedRow 0 "default" "chatgpt" 7 "r1" 0, by decide +kernel, rfl⟩

/-- The probe finds no browser, and the attempt is finished. -/
def unconnectedRequest : List (Action (Job Unit) Env) :=
  [.spawn (.request 1 () threeMinutes), .run 0 {}, .run 0 {}, .run 0 {}, .run 0 { draw := 7 },
    .run 0 {}, .run 0 { draw := 8 }, .run 0 {}, .run 0 {}]

theorem unconnected_releases_slot :
    SlotsReleased oneTab plainFormatting idleGateway (finitely unconnectedRequest {}) ∧
      (worldAt oneTab plainFormatting idleGateway (finitely unconnectedRequest {}) 9).tables.stateOf
        7 = some .finished := by
  refine ⟨slotsReleased rfl rfl ?_, by decide +kernel⟩
  refine finitely_forall (I := Service) rfl ?_
  decide +kernel

end Gateway
