import FeedAnalyzer.GatewayTypes
import FeedAnalyzer.RowTable

/-!
# The tables of the browser gateway

`attempts` has one row for every reservation of a tab slot, and `availability` one for
every provider that is not to be used for a while.  Tables in which two attempts
occupy one slot cannot be built.  Each operation is one transaction.
-/

namespace Gateway

open Transact

inductive AttemptState where
  | reserved
  | submitted
  | unknown
  | finished
deriving DecidableEq

/-- The predicate of the index `gateway_active_slot`. -/
def AttemptState.occupies : AttemptState → Bool
  | .finished => false
  | _ => true

/-- The engine has not finished the attempt yet. -/
def AttemptState.running : AttemptState → Bool
  | .reserved => true
  | .submitted => true
  | _ => false

theorem AttemptState.occupies_of_running {state : AttemptState}
    (hrunning : state.running) : state.occupies := by
  cases state <;> first | rfl | cases hrunning

/-- What the column `outcome` says of a finished attempt. -/
inductive AttemptOutcome where
  | status (status : Status)
  | reconciled
  | manualReset
deriving DecidableEq

/-- A row of `attempts`. -/
structure AttemptRow where
  attemptId : Uuid
  requestId : String
  profileId : String
  provider : String
  slot : Nat
  state : AttemptState
  outcome : Option AttemptOutcome := none
  createdAt : Int
  updatedAt : Int
deriving DecidableEq

/-- The columns of the index. -/
def AttemptRow.slotKey (row : AttemptRow) : String × String × Nat :=
  (row.profileId, row.provider, row.slot)

def AttemptRow.of (row : AttemptRow) (profile provider : String) : Bool :=
  row.profileId = profile && row.provider = provider

/-- A row of `availability`. -/
structure AvailabilityRow where
  profileId : String
  provider : String
  reason : Status
  resetAt : Option Int := none
  nextCheckAt : Option Int := none
  updatedAt : Int

/-- The primary key. -/
def AvailabilityRow.key (row : AvailabilityRow) : String × String :=
  (row.profileId, row.provider)

/-- The next check is absent or in the future. -/
def AvailabilityRow.blocks (row : AvailabilityRow) (now : Int) : Bool :=
  match row.nextCheckAt with
  | none => true
  | some check => now < check

/-- The engine may use the provider again. -/
def AvailabilityRow.eligible (row : AvailabilityRow) (now : Int) : Bool :=
  match row.nextCheckAt with
  | none => false
  | some check => check ≤ now

/-- No two attempts occupy one slot. -/
def SlotsUnique (attempts : Table AttemptRow.attemptId) : Prop :=
  ∀ r ∈ attempts.rows, ∀ r' ∈ attempts.rows, r.state.occupies = true →
    r'.state.occupies = true → r.slotKey = r'.slotKey → r = r'

instance (attempts : Table AttemptRow.attemptId) : Decidable (SlotsUnique attempts) := by
  unfold SlotsUnique
  infer_instance

/-- The gateway's database. -/
structure Tables where
  attempts : Table AttemptRow.attemptId
  availability : Table AvailabilityRow.key
  slots_unique : SlotsUnique attempts

/-- No rows. -/
def Tables.empty : Tables where
  attempts := ∅
  availability := ∅
  slots_unique := by
    intro r hr
    cases hr

theorem SlotsUnique.updateWhere {attempts : Table AttemptRow.attemptId}
    (hunique : SlotsUnique attempts) {p : AttemptRow → Bool} {f : AttemptRow → AttemptRow}
    (hf : ∀ r, (f r).attemptId = r.attemptId) (hslot : ∀ r, (f r).slotKey = r.slotKey)
    (hstate : ∀ r ∈ attempts, p r → (f r).state.occupies →
      r.state.occupies) : SlotsUnique (attempts.updateWhere p f hf) := by
  have hback : ∀ r ∈ attempts.updateWhere p f hf, ∃ r₀ ∈ attempts,
      (if p r₀ then f r₀ else r₀) = r ∧ r.slotKey = r₀.slotKey ∧
        (r.state.occupies → r₀.state.occupies) := by
    intro r hr
    obtain ⟨r₀, hr₀, rfl⟩ := Table.mem_updateWhere.mp hr
    refine ⟨r₀, hr₀, rfl, ?_⟩
    cases hp : p r₀ with
    | true => exact ⟨hslot r₀, hstate r₀ hr₀ hp⟩
    | false => exact ⟨rfl, id⟩
  intro r hr r' hr' hoccupies hoccupies' hkey
  obtain ⟨r₀, hr₀, hval, hslot₀, hocc₀⟩ := hback r hr
  obtain ⟨r₀', hr₀', hval', hslot₀', hocc₀'⟩ := hback r' hr'
  have hsame : r₀ = r₀' := hunique r₀ hr₀ r₀' hr₀' (hocc₀ hoccupies) (hocc₀' hoccupies')
    (by rw [← hslot₀, ← hslot₀', hkey])
  rw [← hval, ← hval', hsame]

namespace Tables

def stateOf (t : Tables) (attempt : Uuid) : Option AttemptState :=
  (t.attempts.find? attempt).map (·.state)

/-- Some row of the provider has its next check absent or in the future. -/
def blocked (t : Tables) (profile provider : String) (now : Int) : Bool :=
  t.availability.rows.any (fun row => row.key = (profile, provider) && row.blocks now)

/-- The provider has an attempt of unknown fate. -/
def hasUnknown (t : Tables) (profile provider : String) : Bool :=
  t.attempts.rows.any (fun row => row.of profile provider && row.state = .unknown)

/-- The slot is occupied. -/
def slotTaken (t : Tables) (key : String × String × Nat) : Bool :=
  t.attempts.rows.any (fun row => row.state.occupies && row.slotKey = key)

/-- `INSERT … ON CONFLICT DO NOTHING`, by identifier and by slot. -/
def insertAttempt (t : Tables) (row : AttemptRow) : Tables :=
  if hfree : t.slotTaken row.slotKey = false then
    { t with
      attempts := t.attempts.insertNew row
      slots_unique := by
        have htaken : ∀ r ∈ t.attempts, r.state.occupies = true → r.slotKey ≠ row.slotKey := by
          simpa [slotTaken] using hfree
        intro r hr r' hr' hoccupies hoccupies' hkey
        rcases Table.mem_insertNew.mp hr with hold | ⟨_, rfl⟩
        · rcases Table.mem_insertNew.mp hr' with hold' | ⟨_, rfl⟩
          · exact t.slots_unique r hold r' hold' hoccupies hoccupies' hkey
          · exact absurd hkey (htaken r hold hoccupies)
        · rcases Table.mem_insertNew.mp hr' with hold' | ⟨_, rfl⟩
          · exact absurd hkey.symm (htaken r' hold' hoccupies')
          · rfl }
  else t

def updateAttempts (t : Tables) (p : AttemptRow → Bool) (f : AttemptRow → AttemptRow)
    (hf : ∀ r, (f r).attemptId = r.attemptId) (hslot : ∀ r, (f r).slotKey = r.slotKey)
    (hstate : ∀ r, p r = true → (f r).state.occupies = true → r.state.occupies = true) : Tables :=
  { t with
    attempts := t.attempts.updateWhere p f hf
    slots_unique := t.slots_unique.updateWhere hf hslot (fun r _ => hstate r) }

/-- `SELECT * FROM availability` for a provider. -/
def availabilityOf (t : Tables) (profile provider : String) : Option AvailabilityRow :=
  t.availability.find? (profile, provider)

def reservedRow (now : Int) (profile provider : String) (attempt : Uuid) (request : String)
    (slot : Nat) : AttemptRow :=
  { attemptId := attempt, requestId := request, profileId := profile, provider := provider,
    slot := slot, state := .reserved, createdAt := now, updatedAt := now }

/-- Reserve a slot, unless the provider is blocked or has an attempt of unknown
fate. -/
def reserve (now : Int) (profile provider : String) (attempt : Uuid) (request : String)
    (slot : Nat) (t : Tables) : Bool × Tables :=
  if t.blocked profile provider now || t.hasUnknown profile provider then (false, t)
  else if t.attempts.has attempt || t.slotTaken (profile, provider, slot) then (false, t)
  else (true, t.insertAttempt (reservedRow now profile provider attempt request slot))

/-- The extension is about to submit the prompt. -/
def submitted (now : Int) (id : CommandId) (t : Tables) : Tables :=
  t.updateAttempts (fun r => id.row? = some r.attemptId && r.state = .reserved)
    (fun r => { r with state := .submitted, updatedAt := now }) (fun _ => rfl) (fun _ => rfl)
    (by
      intro r hp _
      have hreserved : r.state = .reserved := by simp_all
      simp [hreserved, AttemptState.occupies])

/-- The state that `finish` gives an attempt. -/
def settledState (status : Status) : AttemptState :=
  if status = .unknown then .unknown else .finished

/-- The attempt, and what the store reads of the result. -/
structure Finish where
  profile : String
  provider : String
  attempt : Uuid
  status : Status
  resetAt : Option Int := none
deriving DecidableEq

def settledRow (now : Int) (status : Status) (row : AttemptRow) : AttemptRow :=
  { row with state := settledState status, outcome := some (.status status), updatedAt := now }

/-- `UPDATE attempts SET state, outcome WHERE attempt_id`. -/
def settled (now : Int) (f : Finish) (t : Tables) : Table AttemptRow.attemptId :=
  t.attempts.updateWhere (fun r => r.attemptId = f.attempt) (settledRow now f.status) (fun _ => rfl)

/-- The index refuses to occupy a slot that another attempt occupies. -/
def settleAttempt (now : Int) (f : Finish) (t : Tables) : Except Raised Tables :=
  if hunique : SlotsUnique (t.settled now f) then
    .ok { t with attempts := t.settled now f, slots_unique := hunique }
  else
    .error (.other "gateway_active_slot")

/-- A success takes back what was recorded before the attempt began. -/
def clearAvailability (f : Finish) (t : Tables) : Tables :=
  { t with
    availability := t.availability.deleteWhere (fun row => row.key = (f.profile, f.provider) &&
      (t.attempts.find? f.attempt).any (fun attempt => row.updatedAt ≤ attempt.createdAt)) }

def failureRow (retry clock now : Int) (f : Finish) : AvailabilityRow :=
  { profileId := f.profile, provider := f.provider, reason := f.status, resetAt := f.resetAt,
    nextCheckAt := if f.status = .unknown then none else some (f.resetAt.getD (clock + retry)),
    updatedAt := now }

/-- A failure may overwrite a row, unless a rate limit or an unknown fate is still to be
checked. -/
def overwrites (now : Int) (row old : AvailabilityRow) : Bool :=
  old.key = row.key && (!(old.reason = .rateLimited || old.reason = .unknown) ||
      old.nextCheckAt.any (· ≤ now) || row.reason = .rateLimited)

/-- `INSERT INTO availability … ON CONFLICT DO UPDATE … WHERE`. -/
def recordRow (now : Int) (row : AvailabilityRow) (t : Tables) : Tables :=
  { t with
    availability :=
      if t.availability.has row.key then
        t.availability.updateWhere (overwrites now row)
          (fun old => { old with reason := row.reason, resetAt := row.resetAt,
                                 nextCheckAt := row.nextCheckAt, updatedAt := now })
          (fun _ => rfl)
      else
        t.availability.insertNew row }

/-- A failure is recorded. -/
def recordAvailability (retry clock now : Int) (f : Finish) (t : Tables) : Tables :=
  t.recordRow now (failureRow retry clock now f)

/-- Finish an attempt and record what it says of the provider. -/
def finish (retry clock now : Int) (f : Finish) (t : Tables) : Except Raised Tables := do
  let t ← t.settleAttempt now f
  if f.status ∈ requestFailures then
    return t
  else if f.status = .success ∨ f.status = .refused then
    return t.clearAvailability f
  else
    return t.recordAvailability retry clock now f

def releasable (profile provider : String) (id : CommandId) (row : AttemptRow) : Bool :=
  id.row? = some row.attemptId && row.of profile provider && row.state = .unknown

/-- A late result releases an attempt of unknown fate. -/
def releaseAttempt (now : Int) (profile provider : String) (id : CommandId) (t : Tables) : Tables :=
  t.updateAttempts (releasable profile provider id)
    (fun r => { r with state := .finished, outcome := some .reconciled, updatedAt := now })
    (fun _ => rfl) (fun _ => rfl)
    (by
      intro r _ hoccupies
      cases hoccupies)

/-- The provider has no attempt of unknown fate left. -/
def clearUnknown (profile provider : String) (t : Tables) : Tables :=
  { t with
    availability := t.availability.deleteWhere (fun row => row.key = (profile, provider) &&
      row.reason = .unknown && !t.hasUnknown profile provider) }

/-- A command that nobody waits for has ended. -/
def terminal (now : Int) (profile provider : String) (id : CommandId) (t : Tables) : Tables :=
  let released := t.releaseAttempt now profile provider id
  if t.attempts.rows.any (releasable profile provider id) then
    released.clearUnknown profile provider
  else
    released

/-- The first statement of a reset. -/
def resetAttempts (now : Int) (profile : String) (t : Tables) : Tables :=
  t.updateAttempts (fun r => r.profileId = profile && r.state = .unknown)
    (fun r => { r with state := .finished, outcome := some .manualReset, updatedAt := now })
    (fun _ => rfl) (fun _ => rfl)
    (by
      intro r _ hoccupies
      cases hoccupies)

/-- The second statement of a reset. -/
def resetAvailability (profile : String) (t : Tables) : Tables :=
  { t with availability := t.availability.deleteWhere (fun row => row.profileId = profile) }

end Tables

end Gateway
