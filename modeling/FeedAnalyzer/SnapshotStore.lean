import FeedAnalyzer.Messages

/-!
# Snapshot jobs and samples

Each slot of a session is a job: read the page of the listing and save the price as a
sample.  A job is claimed with a lease, and what a holder writes later is guarded by the
lease and by the state `PENDING`.
-/

namespace Snapshots

open Feed Transact

inductive SampleKind where
  | regular | closeCheck
  deriving DecidableEq

inductive MarketState where
  | preOpen | regularOpen | regularClosed | extendedHours | halted | unknown
  deriving DecidableEq

inductive Quality where
  | fresh | stale | freshnessUnknown | sessionMismatch
  deriving DecidableEq

/-- The fields of `PriceSampleObserved`. -/
structure SampleFields (reg : Registry) where
  messageId : Uuid
  sampleId : Uuid
  correlationId : Uuid
  occurredAt : Int
  assetId : AssetId reg
  mappingVersion : String
  registryVersion : String
  session : Int
  opensAt : Int
  closesAt : Int
  scheduledAt : Int
  observedAt : Int
  providerQuoteAt : Option Int
  price : Rat
  quoteDelaySeconds : Option Nat
  currency : String
  quoteUnit : String
  intervalSeconds : Int
  kind : SampleKind
  marketState : MarketState
  quality : Quality

variable {reg : Registry}

/-- What the model and its validator `valid_sample` check. -/
structure SampleFields.Valid (m : SampleFields reg) : Prop where
  price_pos : 0 < m.price
  interval_known : m.intervalSeconds = 600 ∨ m.intervalSeconds = 900
  session_ordered : m.opensAt < m.closesAt
  observed_after : m.scheduledAt ≤ m.observedAt
  quote_past : ∀ at' ∈ m.providerQuoteAt, at' ≤ m.observedAt
  fresh_dated : m.quality = .fresh → m.providerQuoteAt ≠ none
  regular_inside : m.kind = .regular → m.opensAt ≤ m.scheduledAt ∧ m.scheduledAt < m.closesAt
  close_after : m.kind = .closeCheck → m.closesAt ≤ m.scheduledAt

instance (m : SampleFields reg) : Decidable m.Valid :=
  decidable_of_iff
    (0 < m.price ∧ (m.intervalSeconds = 600 ∨ m.intervalSeconds = 900) ∧ m.opensAt < m.closesAt ∧
      m.scheduledAt ≤ m.observedAt ∧ (∀ at' ∈ m.providerQuoteAt, at' ≤ m.observedAt) ∧
      (m.quality = .fresh → m.providerQuoteAt ≠ none) ∧
      (m.kind = .regular → m.opensAt ≤ m.scheduledAt ∧ m.scheduledAt < m.closesAt) ∧
      (m.kind = .closeCheck → m.closesAt ≤ m.scheduledAt))
    ⟨fun ⟨h1, h2, h3, h4, h5, h6, h7, h8⟩ => ⟨h1, h2, h3, h4, h5, h6, h7, h8⟩,
      fun ⟨h1, h2, h3, h4, h5, h6, h7, h8⟩ => ⟨h1, h2, h3, h4, h5, h6, h7, h8⟩⟩

structure PriceSampleObserved (reg : Registry) extends SampleFields reg where
  valid : toSampleFields.Valid

/-- `PriceSampleObserved(…)`. -/
def SampleFields.validate (m : SampleFields reg) : Option (PriceSampleObserved reg) :=
  if h : m.Valid then some ⟨m, h⟩ else none

theorem SampleFields.validate_eq_some {m : SampleFields reg} {message : PriceSampleObserved reg}
    (h : m.validate = some message) : message.toSampleFields = m := by
  unfold validate at h
  split at h
  · rw [← Option.some.inj h]
  · cases h

/-- A listing of the mapping file. -/
structure Listing where
  assetId : String
  marketCode : String
  instrumentId : String
  expectedExchange : String
  expectedCurrency : String
  quoteUnit : String
  calendarId : String
  timezone : String
  enabled : Bool
  deriving DecidableEq

structure MappingFile where
  mappingVersion : String
  contentHash : String
  listings : List Listing

structure Session where
  session : Int
  opensAt : Int
  closesAt : Int
  nextOpenAt : Int
  deriving DecidableEq

structure Slot where
  scheduledAt : Int
  kind : SampleKind

/-- Seconds, in the unit of instants. -/
def seconds (n : Int) : Int := n * 1000000

/-- From `opens` in steps of the interval, before `closes`. -/
def regularTimes (opens closes interval : Int) : List Int :=
  (List.range ((closes - opens + (interval - 1)) / interval).toNat).map
    fun i : Nat => opens + i * interval

def slots (window : Session) (intervalSeconds : Int) : List Slot :=
  (regularTimes window.opensAt window.closesAt (seconds intervalSeconds)).map
      (fun at' => ⟨at', .regular⟩) ++
    [0, 120, 300].map fun delay => ⟨window.closesAt + seconds delay, .closeCheck⟩

inductive JobState where
  | pending | succeeded | failed | missed | cancelled
  deriving DecidableEq

/-- A row of `snapshot_jobs`. -/
structure Job where
  jobId : Uuid
  assetId : String
  session : Int
  version : String
  registryVersion : String
  listing : Listing
  window : Session
  scheduledAt : Int
  kind : SampleKind
  state : JobState := .pending
  attempts : Nat := 0
  nextAttemptAt : Int
  lease : Option Uuid := none
  leaseUntil : Option Int := none
  lastError : Option String := none
  deriving DecidableEq

/-- A row of `snapshot_assets`. -/
structure AssetRow where
  assetId : String
  version : String
  enabled : Bool
  paused : Bool := false
  failures : Nat := 0
  lastError : Option String := none
  lastSuccess : Option Int := none

/-- A row of `snapshot_mappings`. -/
structure MappingRow where
  version : String
  contentHash : String

/-- A row of `price_samples`, with the message it was saved with. -/
structure SampleRow (reg : Registry) where
  sampleId : Uuid
  instrumentId : String
  exchange : String
  payload : PriceSampleObserved reg

/-- A row of `snapshot_outbox`. -/
structure OutboxRow (reg : Registry) where
  messageId : Uuid
  payload : PriceSampleObserved reg
  delivered : Bool := false

/-- The row of `snapshot_control`. -/
structure Control where
  cooldownUntil : Option Int := none
  paused : Bool := false
  failureCount : Nat := 0
  status : String := "STARTING"
  heartbeat : Int := 0

structure Store (reg : Registry) where
  mappings : Table (fun row : MappingRow => row.version) := ∅
  assets : Table (fun row : AssetRow => row.assetId) := ∅
  jobs : Table (fun row : Job => row.jobId) := ∅
  priceSamples : Table (fun row : SampleRow reg => row.sampleId) := ∅
  outbox : Table (fun row : OutboxRow reg => row.messageId) := ∅
  control : Control := {}

namespace Store

/-- Enabled under the job's version, and not paused. -/
def active (s : Store reg) (job : Job) : Bool :=
  s.assets.rows.any fun a =>
    a.assetId = job.assetId && a.version = job.version && a.enabled && !a.paused

/-- `INSERT … ON CONFLICT(asset_id) DO UPDATE` of `install`. -/
def upsertAsset (version : String) (assets : Table (fun row : AssetRow => row.assetId))
    (listing : Listing) : Table (fun row : AssetRow => row.assetId) :=
  if assets.has listing.assetId then
    assets.updateWhere (fun a => a.assetId = listing.assetId) (fun a => { a with
        version := version
        enabled := listing.enabled
        paused := if a.version = version then a.paused else false
        failures := if a.version = version then a.failures else 0 })
      (fun _ => rfl)
  else assets.insertNew ⟨listing.assetId, version, listing.enabled, false, 0, none, none⟩

/-- `install`: `none` if the mapping changed without a new version. -/
def install (config : MappingFile) (s : Store reg) : Option (Store reg) :=
  let mappings := s.mappings.insertNew ⟨config.mappingVersion, config.contentHash⟩
  if mappings.rows.any
      (fun m => m.version = config.mappingVersion && m.contentHash = config.contentHash) then
    let disabled := s.assets.updateWhere (fun _ => true) (fun a => { a with enabled := false })
      (fun _ => rfl)
    let installed :=
      { s with
          mappings := mappings
          assets := config.listings.foldl (upsertAsset config.mappingVersion) disabled }
    some { installed with
      jobs := installed.jobs.updateWhere (fun job => job.state = .pending && !installed.active job)
        (fun job => { job with
          state := .cancelled, lease := none, lastError := some "MAPPING_DISABLED" })
        (fun _ => rfl) }
  else none

/-- The job of a slot, named by `uuid5`. -/
def jobOf (uuid5 : String × String × SampleKind × Int → Uuid) (listing : Listing)
    (version registryVersion : String) (window : Session) (slot : Slot) : Job where
  jobId := uuid5 (listing.assetId, version, slot.kind, slot.scheduledAt)
  assetId := listing.assetId
  session := window.session
  version := version
  registryVersion := registryVersion
  listing := listing
  window := window
  scheduledAt := slot.scheduledAt
  kind := slot.kind
  nextAttemptAt := slot.scheduledAt

/-- `INSERT … ON CONFLICT DO NOTHING`, by the key and by
`UNIQUE(asset_id,session,version,scheduled_at,kind)`. -/
def insertJob (jobs : Table (fun row : Job => row.jobId)) (job : Job) :
    Table (fun row : Job => row.jobId) :=
  if jobs.rows.any (fun j => j.assetId = job.assetId && j.session = job.session &&
      j.version = job.version && j.scheduledAt = job.scheduledAt && j.kind = job.kind) then jobs
  else jobs.insertNew job

def schedule (uuid5 : String × String × SampleKind × Int → Uuid) (listing : Listing)
    (version registryVersion : String) (window : Session) (intervalSeconds : Int)
    (s : Store reg) : Store reg :=
  { s with
      jobs := ((slots window intervalSeconds).map
        (jobOf uuid5 listing version registryVersion window)).foldl insertJob s.jobs }

/-- `lease_until IS NULL OR lease_until < now`. -/
def leaseOver (now : Int) (job : Job) : Bool :=
  match job.leaseUntil with
  | none => true
  | some at' => at' < now

def expire (now lateness : Int) (s : Store reg) : Store reg :=
  { s with
      jobs := s.jobs.updateWhere
        (fun job => job.state = .pending && job.scheduledAt < now - seconds lateness &&
          leaseOver now job)
        (fun job => { job with
          state := .missed, lease := none, lastError := some "MISSED_DEADLINE" })
        (fun _ => rfl) }

def claimable (s : Store reg) (now : Int) (job : Job) : Bool :=
  job.state = .pending && job.nextAttemptAt ≤ now && s.active job && leaseOver now job

def claimed (token : Uuid) (now : Int) (job : Job) : Job :=
  { job with
      lease := some token
      leaseUntil := some (now + seconds 90)
      attempts := job.attempts + 1 }

/-- `claim`: the job that is due first. -/
def claim (tie : Job → Nat) (token : Uuid) (now : Int) (s : Store reg) : Option Job × Store reg :=
  match (selectOrdered (s.claimable now) (fun job => job.nextAttemptAt) tie 1 s.jobs.rows).head? with
  | none => (none, s)
  | some job =>
    (some (claimed token now job), { s with
          jobs := s.jobs.updateWhere (fun j => j.jobId = job.jobId) (claimed token now)
            (fun _ => rfl) })

def heldBy (row job : Job) : Bool :=
  job.jobId = row.jobId && (row.lease.isSome && job.lease = row.lease) && job.state = .pending

def failure (row : Job) (reason : String) (now : Int) (retry pause : Bool) (retryDelay : Int)
    (s : Store reg) : Store reg :=
  let owned := s.jobs.rows.any (heldBy row)
  let jobs := s.jobs.updateWhere (heldBy row) (fun job => { job with
      state := if retry then .pending else .failed
      lastError := some reason
      lease := none
      leaseUntil := none
      nextAttemptAt := now + retryDelay })
    (fun _ => rfl)
  let assets :=
    if owned && !retry then
      s.assets.updateWhere (fun a => a.assetId = row.assetId) (fun a => { a with
          failures := a.failures + 1
          lastError := some reason
          paused := a.paused || pause || (reason = "PARSE_FAILED" && decide (2 ≤ a.failures)) })
        (fun _ => rfl)
    else s.assets
  { s with jobs := jobs, assets := assets }

/-- The update of `save` meets the job. -/
def savable (s : Store reg) (dbNow : Int) (row job : Job) : Bool :=
  heldBy row job && job.leaseUntil.any (fun at' => decide (dbNow ≤ at')) && s.active job

/-- `save`: whether the sample was saved; `none` when a key is taken. -/
def save (row : Job) (message : PriceSampleObserved reg) (dbNow : Int) (s : Store reg) :
    Option (Bool × Store reg) :=
  if s.jobs.rows.any (s.savable dbNow row) then
    if s.priceSamples.has message.sampleId || s.outbox.has message.messageId then none
    else
      some (true, { s with
            jobs := s.jobs.updateWhere (s.savable dbNow row) (fun job => { job with
                state := .succeeded, lease := none, leaseUntil := none, lastError := none })
              (fun _ => rfl)
            priceSamples := s.priceSamples.insertNew
              ⟨message.sampleId, row.listing.instrumentId, row.listing.expectedExchange, message⟩
            outbox := s.outbox.insertNew ⟨message.messageId, message, false⟩
            assets := s.assets.updateWhere (fun a => a.assetId = message.assetId.value)
              (fun a => { a with
                failures := 0, lastError := none, lastSuccess := some message.observedAt })
              (fun _ => rfl) })
  else some (false, s)

/-- `control`: a cooldown only grows here (`GREATEST`). -/
def recordControl (status : String) (now : Int) (pause : Bool) (cooldown : Int) (s : Store reg) :
    Store reg :=
  { s with
      control := { s.control with
        status := status
        heartbeat := now
        paused := s.control.paused || pause
        cooldownUntil :=
          if 0 < cooldown then
            some (match s.control.cooldownUntil with
              | none => now + seconds cooldown
              | some at' => max at' (now + seconds cooldown))
          else s.control.cooldownUntil } }

def providerFailure (now : Int) (s : Store reg) : Store reg :=
  { s with
      control := { s.control with
        failureCount := s.control.failureCount + 1
        cooldownUntil :=
          if 4 ≤ s.control.failureCount then some (now + seconds 900)
          else s.control.cooldownUntil } }

/-- `SET failure_count=0`. -/
def resetFailures (s : Store reg) : Store reg :=
  { s with control := { s.control with failureCount := 0 } }

/-- `SET cooldown_until=NULL WHERE failure_count=0 AND NOT paused`. -/
def clearCooldown (s : Store reg) : Store reg :=
  if s.control.failureCount = 0 ∧ s.control.paused = false then
    { s with control := { s.control with cooldownUntil := none } }
  else s

/-- The heartbeat at the end of a tick. -/
def beat (now : Int) (configError : Bool) (s : Store reg) : Store reg :=
  { s with
      control := { s.control with
        heartbeat := now
        status :=
          if s.control.paused then s.control.status
          else if s.control.cooldownUntil.any (fun at' => decide (now < at')) then "COOLDOWN"
          else if configError then "CONFIG_ERROR" else "RUNNING" } }

/-- `SET heartbeat`. -/
def touch (now : Int) (s : Store reg) : Store reg :=
  { s with control := { s.control with heartbeat := now } }

/-- `SET paused=true, last_error='CALENDAR_OR_REGISTRY_INVALID'`. -/
def pauseAsset (assetId : String) (s : Store reg) : Store reg :=
  { s with
      assets := s.assets.updateWhere (fun a => a.assetId = assetId)
        (fun a => { a with paused := true, lastError := some "CALENDAR_OR_REGISTRY_INVALID" })
        (fun _ => rfl) }

end Store

end Snapshots
