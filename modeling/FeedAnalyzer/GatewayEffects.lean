import FeedAnalyzer.GatewayEngine

/-!
# What one call of the gateway does to an attempt

`handle_row` says once what any call can do to the row of an attempt; the other lemmas
do the same for the shielded writes and for the futures of the commands.
-/

namespace Gateway

open Transact Table Option World

def Tables.row? (t : Tables) (a : Uuid) : Option AttemptRow :=
  t.attempts.find? a

theorem Tables.stateOf_eq (t : Tables) (a : Uuid) : t.stateOf a = (t.row? a).map (·.state) := rfl

/-- Two rows are of one reservation. -/
def AttemptRow.SameSlot (row row' : AttemptRow) : Prop :=
  row'.profileId = row.profileId ∧ row'.provider = row.provider ∧ row'.slot = row.slot

/-- The call writes what `finish` is told. -/
inductive Finishes (s : World) : Call → Tables.Finish → Prop
  | finish (f : Tables.Finish) : Finishes s (.finish f) f
  | shielded (f : Tables.Finish) : Finishes s (.shieldedFinish f) f
  | background {f : Tables.Finish} {rest : List Tables.Finish} (hhead : s.shielded = f :: rest) :
      Finishes s .runShielded f

/-- The call may release attempt `a` from an unknown fate. -/
inductive Releases (a : Uuid) : Call → Prop
  | terminal (profile provider : String) {id : CommandId} (hid : id.row? = some a) :
      Releases a (.terminal profile provider id)
  | reset (profile : String) : Releases a (.resetAttempts profile)

/-- What a call can do to the row of attempt `a`. -/
inductive RowMove (s : World) (a : Uuid) : Call → Option AttemptRow → Option AttemptRow → Prop
  | kept (c : Call) (row : Option AttemptRow) : RowMove s a c row row
  | reserved {profile provider request : String} {slot : Nat} {row : AttemptRow}
      (hstate : row.state = .reserved) :
      RowMove s a (.reserve profile provider a request slot) none (some row)
  | submitting {id : CommandId} {row row' : AttemptRow} (hid : id.row? = some a)
      (hsame : row.SameSlot row') (hbefore : row.state = .reserved)
      (hafter : row'.state = .submitted) : RowMove s a (.submitted id) (some row) (some row')
  | finished {c : Call} {f : Tables.Finish} {row row' : AttemptRow} (hf : Finishes s c f)
      (ha : f.attempt = a) (hsame : row.SameSlot row')
      (hafter : row'.state = Tables.settledState f.status) : RowMove s a c (some row) (some row')
  | released {c : Call} {row row' : AttemptRow} (hc : Releases a c) (hsame : row.SameSlot row')
      (hbefore : row.state = .unknown) (hafter : row'.state = .finished) :
      RowMove s a c (some row) (some row')

namespace Tables

variable {t : Tables} {now : Int}

theorem row?_updateAttempts (t : Tables) (p : AttemptRow → Bool) (f : AttemptRow → AttemptRow)
    (hf : ∀ r, (f r).attemptId = r.attemptId) (hslot : ∀ r, (f r).slotKey = r.slotKey)
    (hstate : ∀ r, p r → (f r).state.occupies → r.state.occupies) (a : Uuid) :
    (t.updateAttempts p f hf hslot hstate).row? a =
      (t.row? a).map (fun r => if p r then f r else r) :=
  find?_updateWhere t.attempts p f hf a

variable {row : AttemptRow} {profile provider request : String} {attempt : Uuid} {slot : Nat}
  {retry clock : Int} {f : Finish} {t' : Tables}

theorem row?_attemptId {a : Uuid} (hrow : t.row? a = some row) : row.attemptId = a :=
  (find?_eq_some_iff.mp hrow).2

/-- A reservation adds a row or nothing. -/
theorem reserve_cases (now : Int) (profile provider : String) (attempt : Uuid) (request : String)
    (slot : Nat) (t : Tables) :
    (t.reserve now profile provider attempt request slot = (false, t)) ∨
    (t.attempts.has attempt = false ∧
      (t.reserve now profile provider attempt request slot).1 ∧
      (t.reserve now profile provider attempt request slot).2.attempts =
        t.attempts.insertNew (reservedRow now profile provider attempt request slot)) := by
  unfold reserve
  split
  · exact Or.inl rfl
  · split
    · exact Or.inl rfl
    · rename_i hconflict
      simp only [Bool.or_eq_true, not_or, Bool.not_eq_true] at hconflict
      have hfree : t.slotTaken
          (reservedRow now profile provider attempt request slot).slotKey = false := hconflict.2
      refine Or.inr ⟨hconflict.1, rfl, ?_⟩
      simp only [insertAttempt, hfree, dif_pos]

theorem row?_reserve_true (hok : (t.reserve now profile provider attempt request slot).1) :
    t.row? attempt = none ∧ ∀ a, (t.reserve now profile provider attempt request slot).2.row? a =
        if a = attempt then some (reservedRow now profile provider attempt request slot)
        else t.row? a := by
  rcases reserve_cases now profile provider attempt request slot t with hno | ⟨hfresh, _, hattempts⟩
  · rw [hno] at hok
    cases hok
  · have hnone : t.row? attempt = none := by
      rw [row?, find?_eq_none_iff]
      exact has_eq_false_iff.mp hfresh
    refine ⟨hnone, fun a => ?_⟩
    have hid : (reservedRow now profile provider attempt request slot).attemptId = attempt := rfl
    rw [row?, hattempts, find?_insertNew, hid]
    by_cases ha : a = attempt
    · subst ha
      have hnone' : t.attempts.find? a = none := hnone
      simp [hnone']
    · simp [ha, Ne.symm ha, row?]

theorem reserve_false (hno : (t.reserve now profile provider attempt request slot).1 = false) :
    (t.reserve now profile provider attempt request slot).2 = t := by
  rcases reserve_cases now profile provider attempt request slot t with hsame | ⟨_, hok, _⟩
  · rw [hsame]
  · rw [hok] at hno
    cases hno

/-- After its first statement, `finish` changes no attempt. -/
theorem finish_attempts (hok : t.finish retry clock now f = .ok t') :
    t'.attempts = t.settled now f := by
  unfold finish settleAttempt at hok
  by_cases hunique : SlotsUnique (t.settled now f)
  · simp only [hunique, dif_pos, bind, Except.bind] at hok
    split at hok
    · cases hok
      rfl
    · split at hok
      · cases hok
        rfl
      · cases hok
        rfl
  · simp only [hunique, dif_neg, not_false_eq_true, bind, Except.bind] at hok
    cases hok

/-- `finish` changes no attempt but its own. -/
theorem row?_finish (hok : t.finish retry clock now f = .ok t') (a : Uuid) :
    t'.row? a = if a = f.attempt then (t.row? a).map (settledRow now f.status) else t.row? a := by
  have hupdate : t'.row? a = (t.row? a).map
      (fun r => if r.attemptId = f.attempt then settledRow now f.status r else r) := by
    have hfind := find?_updateWhere t.attempts (fun r => r.attemptId = f.attempt)
      (settledRow now f.status) (fun _ => rfl) a
    simp only [decide_eq_true_eq] at hfind
    rw [row?, finish_attempts hok]
    exact hfind
  rw [hupdate]
  cases hrow : t.row? a with
  | none => simp
  | some row =>
    have hid : row.attemptId = a := row?_attemptId hrow
    by_cases ha : a = f.attempt
    · simp [hid, ha]
    · simp [hid, ha]

/-- A running attempt can finish. -/
theorem finish_of_running (hrow : t.row? f.attempt = some row) (hrunning : row.state.running) :
    ∃ t', t.finish retry clock now f = .ok t' := by
  have hunique : SlotsUnique (t.settled now f) := by
    apply t.slots_unique.updateWhere
    · intro r
      rfl
    · intro r hr hp _
      have hid : r.attemptId = f.attempt := by simpa using hp
      obtain ⟨hmem, hkey⟩ := find?_eq_some_iff.mp hrow
      have hsame : r = row := eq_of_key hr hmem (hid.trans hkey.symm)
      rw [hsame]
      exact AttemptState.occupies_of_running hrunning
  unfold finish settleAttempt
  simp only [hunique, dif_pos, bind, Except.bind]
  split
  · exact ⟨_, rfl⟩
  · split
    · exact ⟨_, rfl⟩
    · exact ⟨_, rfl⟩

theorem row?_submitted (now : Int) (id : CommandId) (t : Tables) (a : Uuid) :
    (t.submitted now id).row? a =
      (t.row? a).map (fun r => if id.row? = some r.attemptId && r.state = .reserved then
        { r with state := .submitted, updatedAt := now } else r) :=
  row?_updateAttempts t _ _ _ _ _ a

theorem row?_resetAttempts (now : Int) (profile : String) (t : Tables) (a : Uuid) :
    (t.resetAttempts now profile).row? a =
      (t.row? a).map (fun r => if r.profileId = profile && r.state = .unknown then
        { r with state := .finished, outcome := some .manualReset, updatedAt := now } else r) :=
  row?_updateAttempts t _ _ _ _ _ a

theorem terminal_attempts (now : Int) (profile provider : String) (id : CommandId) (t : Tables) :
    (t.terminal now profile provider id).attempts =
      (t.releaseAttempt now profile provider id).attempts := by
  unfold terminal
  split
  · rfl
  · rfl

theorem row?_terminal (now : Int) (profile provider : String) (id : CommandId) (t : Tables)
    (a : Uuid) :
    (t.terminal now profile provider id).row? a =
      (t.row? a).map (fun r => if releasable profile provider id r then
        { r with state := .finished, outcome := some .reconciled, updatedAt := now } else r) := by
  rw [row?, terminal_attempts]
  exact row?_updateAttempts t _ _ _ _ _ a

end Tables

variable {t : Tables}

namespace World

variable {α : Type} {w : Env} {s : World} {statements : Tables → Except Raised (α × Tables)} {a : α}

theorem transact_ok (hok : (s.transact w statements).1 = .ok a) :
    ∃ t, statements s.tables = .ok (a, t) ∧ (s.transact w statements).2.tables = t := by
  unfold transact at hok ⊢
  cases hrun : statements s.tables with
  | error e =>
    rw [hrun] at hok
    cases hraised : w.raised with
    | _ => rw [hraised] at hok; cases hok
  | ok result =>
    obtain ⟨a', t⟩ := result
    rw [hrun] at hok
    cases hraised : w.raised with
    | none =>
      rw [hraised] at hok
      cases hok
      exact ⟨t, rfl, rfl⟩
    | some e => rw [hraised] at hok; cases hok

/-- A transaction that is not cut off before its commit takes effect. -/
theorem transact_committed (hrun : statements s.tables = .ok (a, t))
    (hcut : w.raised = none ∨ w.committed) : (s.transact w statements).2.tables = t := by
  unfold transact
  rw [hrun]
  cases hraised : w.raised with
  | none => rfl
  | some e =>
    rcases hcut with hnone | hcommitted
    · rw [hraised] at hnone
      cases hnone
    · simp only [hcommitted, if_true]

/-- A transaction writes the tables only, and keeps what holds before it and after its
statements. -/
theorem transact_world (statements : Tables → Except Raised (α × Tables)) {P : Tables → Prop}
    (hbefore : P s.tables) (hafter : ∀ a t, statements s.tables = .ok (a, t) → P t) :
    ∃ t, (s.transact w statements).2 = { s with tables := t } ∧ P t := by
  unfold transact
  cases hrun : statements s.tables with
  | error e => cases w.raised <;> exact ⟨s.tables, rfl, hbefore⟩
  | ok result =>
    have hafter := hafter result.1 result.2 hrun
    cases w.raised with
    | none => exact ⟨result.2, rfl, hafter⟩
    | some e =>
      dsimp only
      split
      · exact ⟨result.2, rfl, hafter⟩
      · exact ⟨s.tables, rfl, hbefore⟩

theorem transact_shielded : (s.transact w statements).2.shielded = s.shielded := by
  obtain ⟨t, hworld, _⟩ :=
    transact_world (s := s) (w := w) statements (P := fun _ => True) trivial fun _ _ _ => trivial
  rw [hworld]

theorem awaiting_world (a : α) : (s.awaiting w a).2 = s := by
  unfold awaiting
  cases w.raised <;> rfl

theorem sending_world : (s.sending w).2 = s := by
  unfold sending
  cases w.raised with
  | some e => rfl
  | none => dsimp only; split <;> rfl

theorem deliver_world (provider : String) (id : CommandId) (result : BrowserResult) :
    (s.deliver provider id result).2 = s ∨ (s.deliver provider id result).2 =
        s.setFuture id { s.futures id with result := some result } ∧
      (s.futures id).result = none := by
  unfold deliver
  cases s.entryOf id with
  | none => exact Or.inl rfl
  | some entry =>
    dsimp only
    split
    · exact Or.inl rfl
    · split
      · exact Or.inl rfl
      · rename_i hnone
        refine Or.inr ⟨rfl, ?_⟩
        simpa using hnone

theorem dispatch_world (id : CommandId) :
    (s.dispatch w id).2 = s ∨ (s.dispatch w id).2 = s.cutOff id := by
  unfold dispatch
  cases (s.sending w).1 with
  | ok _ => exact Or.inl rfl
  | error e => exact Or.inr rfl

theorem awaitFuture_world (id : CommandId) : (s.awaitFuture w id).2 = s.cutOff id := by
  unfold awaitFuture
  cases w.raised <;> cases (s.futures id).result <;> rfl

end World

variable {G : Settings} {s : World}

/-- What `finish` does to the row of an attempt. -/
theorem rowMove_finish {w : Env} {c : Call} {f : Tables.Finish} (hf : Finishes s c f) {u : Unit}
    (hrun : (s.tables.finish G.retry w.clock w.now f).map (fun t => ((), t)) = .ok (u, t))
    (a : Uuid) : RowMove s a c (s.tables.row? a) (t.row? a) := by
  cases hfinish : s.tables.finish G.retry w.clock w.now f with
  | error e => rw [hfinish] at hrun; cases hrun
  | ok t' =>
    rw [hfinish] at hrun
    cases hrun
    rw [Tables.row?_finish hfinish a]
    by_cases ha : a = f.attempt
    · rw [if_pos ha]
      cases hrow : s.tables.row? a with
      | none => exact RowMove.kept c none
      | some row => exact RowMove.finished hf ha.symm ⟨rfl, rfl, rfl⟩ rfl
    · rw [if_neg ha]
      exact RowMove.kept c _

/-- What `reserve` does to the row of an attempt. -/
theorem rowMove_reserve {now : Int} {profile provider request : String} {attempt : Uuid}
    {slot : Nat} {reserved : Bool}
    (hrun : s.tables.reserve now profile provider attempt request slot = (reserved, t)) (a : Uuid) :
    RowMove s a (.reserve profile provider attempt request slot) (s.tables.row? a) (t.row? a) := by
  cases reserved with
  | false =>
    have hsame := Tables.reserve_false (congrArg Prod.fst hrun)
    rw [hrun] at hsame
    cases hsame
    exact RowMove.kept _ _
  | true =>
    obtain ⟨hnone, hrows⟩ := Tables.row?_reserve_true (congrArg Prod.fst hrun)
    rw [hrun] at hrows
    rw [hrows a]
    by_cases ha : a = attempt
    · subst ha
      rw [if_pos rfl, hnone]
      exact RowMove.reserved rfl
    · rw [if_neg ha]
      exact RowMove.kept _ _

/-- What an update of some attempts does to the row of one of them. -/
theorem rowMove_update {c : Call} {a : Uuid} (p : AttemptRow → Bool) (f : AttemptRow → AttemptRow)
    (hmove : ∀ row, row.attemptId = a → p row = true → RowMove s a c (some row) (some (f row))) :
    RowMove s a c (s.tables.row? a) ((s.tables.row? a).map fun r => if p r then f r else r) := by
  cases hrow : s.tables.row? a with
  | none => exact RowMove.kept _ _
  | some row =>
    rw [map_some]
    split
    · next hp => exact hmove row (Tables.row?_attemptId hrow) hp
    · exact RowMove.kept _ _

theorem rowMove_submitted (now : Int) (id : CommandId) (a : Uuid) :
    RowMove s a (.submitted id) (s.tables.row? a) ((s.tables.submitted now id).row? a) := by
  rw [Tables.row?_submitted]
  refine rowMove_update _ _ fun row hid hp => ?_
  simp only [Bool.and_eq_true, decide_eq_true_eq, hid] at hp
  exact RowMove.submitting hp.1 ⟨rfl, rfl, rfl⟩ hp.2 rfl

theorem rowMove_terminal (now : Int) (profile provider : String) (id : CommandId) (a : Uuid) :
    RowMove s a (.terminal profile provider id) (s.tables.row? a)
      ((s.tables.terminal now profile provider id).row? a) := by
  rw [Tables.row?_terminal]
  refine rowMove_update _ _ fun row hid hp => ?_
  simp only [Tables.releasable, Bool.and_eq_true, decide_eq_true_eq, hid] at hp
  exact RowMove.released (.terminal profile provider hp.1.1) ⟨rfl, rfl, rfl⟩ hp.2 rfl

theorem rowMove_resetAttempts (now : Int) (profile : String) (a : Uuid) :
    RowMove s a (.resetAttempts profile) (s.tables.row? a)
      ((s.tables.resetAttempts now profile).row? a) := by
  rw [Tables.row?_resetAttempts]
  refine rowMove_update _ _ fun row _ hp => ?_
  simp only [Bool.and_eq_true, decide_eq_true_eq] at hp
  exact RowMove.released (.reset profile) ⟨rfl, rfl, rfl⟩ hp.2 rfl

/-- **What one call can do to the world.** -/
inductive WorldMove (s : World) : Call → World → Prop
  | tables (c : Call) (t : Tables)
      (hrows : ∀ a, RowMove s a c (s.tables.row? a) (t.row? a)) :
      WorldMove s c { s with tables := t }
  | putOff (f : Tables.Finish) :
      WorldMove s (.shieldedFinish f) { s with shielded := s.shielded ++ [f] }
  | takenUp {f : Tables.Finish} {rest : List Tables.Finish} (hhead : s.shielded = f :: rest)
      (t : Tables) (hrows : ∀ a, RowMove s a .runShielded (s.tables.row? a) (t.row? a)) :
      WorldMove s .runShielded { s with shielded := rest, tables := t }
  | opened (provider : String) (id : CommandId) (generation : Bool) :
      WorldMove s (.openCommand provider id generation) (s.put ⟨id, provider, generation⟩)
  | cut (c : Call) (id : CommandId) : WorldMove s c (s.cutOff id)
  | closed (id : CommandId) : WorldMove s (.closeCommand id) (s.pop id)
  | delivered (c : Call) (id : CommandId) (result : BrowserResult)
      (hnone : (s.futures id).result = none) :
      WorldMove s c (s.setFuture id { s.futures id with result := some result })
  | connected : WorldMove s .connect { s with connected := true }
  | disconnected : WorldMove s .disconnect s.disconnect

variable (w : Env) (c : Call)

/-- What one call does to the world. -/
theorem handle_move (s : World) : WorldMove s c (handle G w c s).2 := by
  have hkept : ∀ c, WorldMove s c s := fun c => .tables c s.tables fun _ => .kept _ _
  have htransact : ∀ {α : Type} {statements : Tables → Except Raised (α × Tables)},
      (∀ result t, statements s.tables = .ok (result, t) →
        ∀ a, RowMove s a c (s.tables.row? a) (t.row? a)) →
      WorldMove s c (s.transact w statements).2 := by
    intro α statements hafter
    obtain ⟨t, hworld, hrows⟩ := transact_world (s := s) (w := w) statements
      (P := fun t => ∀ a, RowMove s a c (s.tables.row? a) (t.row? a)) (fun _ => .kept _ _) hafter
    rw [hworld]
    exact .tables c t hrows
  cases c with
  | sleep duration =>
    rw [handle, awaiting_world]
    exact hkept _
  | availability profile provider =>
    rw [handle, awaiting_world]
    exact hkept _
  | reserve profile provider attempt request slot =>
    exact htransact fun _ t hrun => rowMove_reserve (Except.ok.inj hrun)
  | submitted id =>
    refine htransact fun _ t hrun => ?_
    cases hrun
    exact rowMove_submitted _ id
  | finish f => exact htransact fun _ t hrun => rowMove_finish (.finish f) hrun
  | shieldedFinish f =>
    rw [handle, shieldedFinish]
    split
    · exact .putOff f
    · exact htransact fun _ t hrun => rowMove_finish (.shielded f) hrun
  | runShielded =>
    rw [handle, runShielded]
    cases hqueue : s.shielded with
    | nil => exact hkept _
    | cons f rest =>
      obtain ⟨t, hworld, hrows⟩ := transact_world (s := { s with shielded := rest }) (w := w)
        (fun t => (t.finish G.retry w.clock w.now f).map (fun t => ((), t)))
        (P := fun t => ∀ a, RowMove s a .runShielded (s.tables.row? a) (t.row? a))
        (fun _ => .kept _ _) fun _ t hrun => rowMove_finish (.background hqueue) hrun
      exact hworld ▸ .takenUp hqueue t hrows
  | terminal profile provider id =>
    refine htransact fun _ t hrun => ?_
    cases hrun
    exact rowMove_terminal _ profile provider id
  | resetAttempts profile =>
    refine htransact fun _ t hrun => ?_
    cases hrun
    exact rowMove_resetAttempts _ profile
  | resetAvailability profile =>
    refine htransact fun _ t hrun a => ?_
    cases hrun
    exact RowMove.kept _ _
  | openCommand provider id generation =>
    rw [handle]
    split
    · exact .opened provider id generation
    · exact hkept _
  | send message =>
    cases message with
    | command id provider requestId slot prompt timeout =>
      rw [handle]
      rcases dispatch_world id with hworld | hworld
      · exact hworld ▸ hkept _
      · exact hworld ▸ .cut _ id
    | _ => exact (congrArg (WorldMove s _) sending_world).mpr (hkept _)
  | awaitFuture id timeout =>
    rw [handle, awaitFuture_world]
    exact .cut _ id
  | closeCommand id => exact .closed id
  | deliver provider id result =>
    rw [handle]
    rcases deliver_world provider id result with hworld | ⟨hworld, hnone⟩
    · exact hworld ▸ hkept _
    · exact hworld ▸ .delivered _ id result hnone
  | jobAck id status =>
    rw [handle, sending_world]
    exact hkept _
  | connect => exact .connected
  | disconnect => exact .disconnected
  | _ => exact hkept _

/-- **What one call can do to an attempt.** -/
theorem handle_row (s : World) (a : Uuid) :
    RowMove s a c (s.tables.row? a) ((handle G w c s).2.tables.row? a) := by
  have hmove := handle_move (G := G) w c s
  generalize (handle G w c s).2 = s' at hmove ⊢
  cases hmove with
  | tables c t hrows => exact hrows a
  | takenUp hhead t hrows => exact hrows a
  | _ => exact RowMove.kept _ _

/-- The shielded writes: one is put off by its own call, and one is taken up. -/
theorem handle_shielded (s : World) :
    (handle G w c s).2.shielded = s.shielded ∨
      (∃ f, c = .shieldedFinish f ∧ (handle G w c s).2 = { s with shielded := s.shielded ++ [f] }) ∨
      ∃ f rest, c = .runShielded ∧ s.shielded = f :: rest ∧ (handle G w c s).2.shielded = rest := by
  have hmove := handle_move (G := G) w c s
  generalize (handle G w c s).2 = s' at hmove ⊢
  cases hmove with
  | putOff f => exact Or.inr (Or.inl ⟨f, rfl, rfl⟩)
  | takenUp hhead t _ => exact Or.inr (Or.inr ⟨_, _, rfl, hhead, rfl⟩)
  | _ => exact Or.inl rfl

/-- A result stays, and who was cut off stays so. -/
structure Future.Grows (before after : Future) : Prop where
  result : ∀ r, before.result = some r → after.result = some r
  awaited : before.awaited = false → after.awaited = false

theorem Future.Grows.refl (future : Future) : future.Grows future :=
  ⟨fun _ h => h, fun h => h⟩

namespace World

theorem setFuture_grows {id : CommandId} {future : Future} (hgrows : (s.futures id).Grows future)
    (id' : CommandId) : (s.futures id').Grows ((s.setFuture id future).futures id') := by
  unfold setFuture
  by_cases hid : id' = id
  · subst hid
    simpa using hgrows
  · simpa [hid] using Future.Grows.refl (s.futures id')

theorem cutOff_grows (s : World) (id id' : CommandId) :
    (s.futures id').Grows ((s.cutOff id).futures id') := by
  have hgrows : (s.futures id).Grows { s.futures id with awaited := false } :=
    ⟨fun _ h => h, fun _ => rfl⟩
  exact setFuture_grows hgrows id'

theorem disconnect_grows (s : World) (id : CommandId) :
    (s.futures id).Grows (s.disconnect.futures id) := by
  unfold disconnect
  dsimp only
  split
  · rename_i entry hentry hresult
    refine ⟨fun r hr => ?_, fun h => h⟩
    rw [hresult] at hr
    cases hr
  · exact Future.Grows.refl _

end World

/-- **Futures only grow**, until their command is opened anew. -/
theorem handle_future (s : World) (id : CommandId)
    (hopen : ∀ provider generation, c ≠ .openCommand provider id generation) :
    (s.futures id).Grows ((handle G w c s).2.futures id) := by
  have hmove := handle_move (G := G) w c s
  generalize (handle G w c s).2 = s' at hmove ⊢
  cases hmove with
  | opened provider id' generation =>
    have hne : id' ≠ id := fun h => hopen provider generation (h ▸ rfl)
    show (s.futures id).Grows (if id = id' then _ else s.futures id)
    rw [if_neg (Ne.symm hne)]
    exact Future.Grows.refl _
  | cut c id' => exact cutOff_grows s id' id
  | delivered c id' result hnone =>
    have hgrows : (s.futures id').Grows { s.futures id' with result := some result } := by
      refine ⟨fun r hr => ?_, fun h => h⟩
      rw [hnone] at hr
      cases hr
    exact setFuture_grows hgrows id
  | disconnected => exact disconnect_grows s id
  | _ => exact Future.Grows.refl _

end Gateway
