import FeedAnalyzer.CompleteRun
import FeedAnalyzer.ConformingProc
import FeedAnalyzer.SnapshotStore

/-!
# The snapshot worker

A tick claims a few jobs and collects them at the same time; one that finds a cooldown that
is over claims a single job, as a probe.  A limit of the provider and repeated failures set
a cooldown.
-/

namespace Snapshots

open Feed Transact

variable {reg : Registry}

inductive FailureCode where
  | rateLimited | actionRequired | listingNotFound | providerUnavailable | listingRedirect
  | identityMismatch | exchangeMismatch | instrumentTypeMismatch | parseFailed | invalidPrice
  | currencyMismatch | fetchFailed | missedDeadline | registryChanged
  deriving DecidableEq

def FailureCode.text : FailureCode → String
  | .rateLimited => "RATE_LIMITED"
  | .actionRequired => "ACTION_REQUIRED"
  | .listingNotFound => "LISTING_NOT_FOUND"
  | .providerUnavailable => "PROVIDER_UNAVAILABLE"
  | .listingRedirect => "LISTING_REDIRECT"
  | .identityMismatch => "IDENTITY_MISMATCH"
  | .exchangeMismatch => "EXCHANGE_MISMATCH"
  | .instrumentTypeMismatch => "INSTRUMENT_TYPE_MISMATCH"
  | .parseFailed => "PARSE_FAILED"
  | .invalidPrice => "INVALID_PRICE"
  | .currencyMismatch => "CURRENCY_MISMATCH"
  | .fetchFailed => "FETCH_FAILED"
  | .missedDeadline => "MISSED_DEADLINE"
  | .registryChanged => "REGISTRY_CHANGED"

structure ReadFailure where
  code : FailureCode
  pause : Bool := false
  provider : Bool := false
  retryAfter : Int := 0
  deriving DecidableEq

/-- What a call may raise. -/
inductive Raised where
  | readFailure (failure : ReadFailure)
  | other (name : String)
  deriving DecidableEq

/-- `exc if isinstance(exc, ReadFailure) else ReadFailure("FETCH_FAILED")`. -/
def Raised.failure : Raised → ReadFailure
  | .readFailure failure => failure
  | .other _ => { code := .fetchFailed }

structure Quote where
  price : Rat
  currency : String
  observedAt : Int
  providerQuoteAt : Option Int
  quoteDelaySeconds : Option Nat
  marketState : MarketState

structure SnapshotSettings where
  concurrency : Nat := 2
  intervalSeconds : Int := 600
  timeoutSeconds : Int := 30
  retrySeconds : Int := 10
  maxLatenessSeconds : Int := 120
  maxQuoteAgeSeconds : Int := 120
  maxPendingEvents : Nat := 10000
  maxSamples : Nat := 1000000

/-- The calls of the worker. -/
inductive Call (reg : Registry) where
  | utcNow
  | jitter
  | checkRegistry (listing : Listing)
  | read (row : Job)
  | loadMappings
  | sessionFor (now : Int) (listing : Listing)
  | install (config : MappingFile)
  | schedule (listing : Listing) (version registryVersion : String) (window : Session)
      (intervalSeconds : Int)
  | expire (now lateness : Int)
  | claim (now : Int)
  | failure (row : Job) (reason : String) (now : Int) (retry pause : Bool) (retryDelay : Int)
  | save (row : Job) (message : PriceSampleObserved reg)
  | control (status : String) (now : Int) (pause : Bool) (cooldown : Int)
  | providerFailure (now : Int)
  | resetFailures
  | clearCooldown
  | beat (now : Int) (configError : Bool)
  | touch (now : Int)
  | pauseAsset (assetId : String)
  | readControl
  | pendingEvents
  | sampleCount

abbrev Call.Ret : Call reg → Type
  | .utcNow => Int
  | .jitter => Int
  | .checkRegistry _ => String
  | .read _ => Quote
  | .loadMappings => MappingFile
  | .sessionFor _ _ => Session
  | .claim _ => Option Job
  | .save _ _ => Bool
  | .readControl => Control
  | .pendingEvents => Nat
  | .sampleCount => Nat
  | _ => Unit

abbrev Surroundings (reg : Registry) : Interface := ⟨Call reg, Call.Ret⟩

abbrev Service (reg : Registry) (α : Type) : Type := Proc (Surroundings reg) Raised α

/-- One call of the worker. -/
abbrev ask {reg : Registry} (c : Call reg) : Service reg c.Ret :=
  Proc.perform (I := Surroundings reg) c

/-- The clocks, what the page and the files give, what the database draws, and whether a
statement fails. -/
structure Answer where
  now : Int := 0
  dbNow : Int := 0
  jitter : Int := 0
  registryVersion : Except Raised String := .ok ""
  quote : Except Raised Quote := .error (.other "")
  mappings : Except Raised MappingFile := .error (.other "")
  window : Except Raised Session := .error (.other "")
  uuid5 : String × String × SampleKind × Int → Uuid := fun _ => 0
  token : Uuid := 0
  tie : Job → Nat := fun _ => 0
  fault : Option Raised := none
  /-- The statement fails, but only after its transaction has been committed. -/
  committed : Bool := false

/-- A statement that may fail before or after its commit. -/
def Answer.statement {σ α : Type} (w : Answer) (result : α) (before after : σ) :
    Except Raised α × σ :=
  match w.fault with
  | none => (.ok result, after)
  | some e => (.error e, if w.committed then after else before)

/-- How the calls act on the tables. -/
def handle : Handler (Surroundings reg) (Store reg) Answer Raised
  | w, .utcNow, s => (.ok w.now, s)
  | w, .jitter, s => (.ok w.jitter, s)
  | w, .checkRegistry _, s => (w.registryVersion, s)
  | w, .read _, s => (w.quote, s)
  | w, .loadMappings, s => (w.mappings, s)
  | w, .sessionFor _ _, s => (w.window, s)
  | w, .install config, s =>
    match s.install config with
    | none => (.error (.other "ValueError"), s)
    | some s' => w.statement () s s'
  | w, .schedule listing version registryVersion window intervalSeconds, s =>
    w.statement () s (s.schedule w.uuid5 listing version registryVersion window intervalSeconds)
  | w, .expire now lateness, s => w.statement () s (s.expire now lateness)
  | w, .claim now, s => w.statement (s.claim w.tie w.token now).1 s (s.claim w.tie w.token now).2
  | w, .failure row reason now retry pause retryDelay, s =>
    w.statement () s (s.failure row reason now retry pause retryDelay)
  | w, .save row message, s =>
    match s.save row message w.dbNow with
    | none => (.error (.other "UniqueViolationError"), s)
    | some (saved, s') => w.statement saved s s'
  | w, .control status now pause cooldown, s =>
    w.statement () s (s.recordControl status now pause cooldown)
  | w, .providerFailure now, s => w.statement () s (s.providerFailure now)
  | w, .resetFailures, s => w.statement () s s.resetFailures
  | w, .clearCooldown, s => w.statement () s s.clearCooldown
  | w, .beat now configError, s => w.statement () s (s.beat now configError)
  | w, .touch now, s => w.statement () s (s.touch now)
  | w, .pauseAsset assetId, s => w.statement () s (s.pauseAsset assetId)
  | w, .readControl, s => w.statement s.control s s
  | w, .pendingEvents, s =>
    w.statement (s.outbox.rows.countP fun row => !row.delivered) s s
  | w, .sampleCount, s => w.statement s.priceSamples.rows.length s s

/-- The tables after a call that is carried out. -/
def effect (w : Answer) : Call reg → Store reg → Store reg
  | .install config, s => (s.install config).getD s
  | .schedule listing version registryVersion window intervalSeconds, s =>
    s.schedule w.uuid5 listing version registryVersion window intervalSeconds
  | .expire now lateness, s => s.expire now lateness
  | .claim now, s => (s.claim w.tie w.token now).2
  | .failure row reason now retry pause retryDelay, s =>
    s.failure row reason now retry pause retryDelay
  | .save row message, s => ((s.save row message w.dbNow).map Prod.snd).getD s
  | .control status now pause cooldown, s => s.recordControl status now pause cooldown
  | .providerFailure now, s => s.providerFailure now
  | .resetFailures, s => s.resetFailures
  | .clearCooldown, s => s.clearCooldown
  | .beat now configError, s => s.beat now configError
  | .touch now, s => s.touch now
  | .pauseAsset assetId, s => s.pauseAsset assetId
  | _, s => s

theorem Answer.statement_store {σ α : Type} (w : Answer) (result : α) (before after : σ) :
    (w.statement result before after).2 = before ∨ (w.statement result before after).2 = after := by
  unfold statement
  split
  · exact Or.inr rfl
  · split
    · exact Or.inr rfl
    · exact Or.inl rfl

theorem handle_store (w : Answer) (c : Call reg) (s : Store reg) :
    (handle w c s).2 = s ∨ (handle w c s).2 = effect w c s := by
  cases c with
  | install config =>
    simp only [handle, effect]
    cases s.install config with
    | none => exact Or.inl rfl
    | some s' => exact w.statement_store () s s'
  | save row message =>
    simp only [handle, effect]
    cases s.save row message w.dbNow with
    | none => exact Or.inl rfl
    | some result => exact w.statement_store result.1 s result.2
  | schedule listing version registryVersion window intervalSeconds =>
    exact w.statement_store _ _ _
  | expire now lateness => exact w.statement_store _ _ _
  | claim now => exact w.statement_store _ _ _
  | failure row reason now retry pause retryDelay => exact w.statement_store _ _ _
  | control status now pause cooldown => exact w.statement_store _ _ _
  | providerFailure now => exact w.statement_store _ _ _
  | resetFailures => exact w.statement_store _ _ _
  | clearCooldown => exact w.statement_store _ _ _
  | beat now configError => exact w.statement_store _ _ _
  | touch now => exact w.statement_store _ _ _
  | pauseAsset assetId => exact w.statement_store _ _ _
  | readControl => exact w.statement_store _ _ _
  | pendingEvents => exact w.statement_store _ _ _
  | sampleCount => exact w.statement_store _ _ _
  | _ => exact Or.inl rfl

def sampleQuality (settings : SnapshotSettings) (row : Job) (quote : Quote) : Quality :=
  if row.kind = .regular ∧
      (quote.marketState ≠ .regularOpen ∨ row.window.closesAt ≤ quote.observedAt) then
    .sessionMismatch
  else
    match quote.providerQuoteAt with
    | none => .freshnessUnknown
    | some at' =>
      if 0 ≤ quote.observedAt - at' ∧
          quote.observedAt - at' ≤ seconds settings.maxQuoteAgeSeconds then .fresh else .stale

def sampleFields (settings : SnapshotSettings) (row : Job) (quote : Quote)
    (assetId : AssetId reg) : SampleFields reg where
  messageId := row.jobId
  sampleId := row.jobId
  correlationId := row.jobId
  occurredAt := quote.observedAt
  assetId := assetId
  mappingVersion := row.version
  registryVersion := row.registryVersion
  session := row.window.session
  opensAt := row.window.opensAt
  closesAt := row.window.closesAt
  scheduledAt := row.scheduledAt
  observedAt := quote.observedAt
  providerQuoteAt := quote.providerQuoteAt
  price := quote.price
  quoteDelaySeconds := quote.quoteDelaySeconds
  currency := quote.currency
  quoteUnit := row.listing.quoteUnit
  intervalSeconds := settings.intervalSeconds
  kind := row.kind
  marketState := quote.marketState
  quality := sampleQuality settings row quote

def sampleMessage (reg : Registry) (settings : SnapshotSettings) (row : Job) (quote : Quote) :
    Except Raised (PriceSampleObserved reg) :=
  if quote.currency ≠ row.listing.expectedCurrency then
    .error (.readFailure { code := .currencyMismatch, pause := true })
  else
    match AssetId.parse reg row.listing.assetId with
    | .error _ => .error (.other "ValueError")
    | .ok assetId =>
      match (sampleFields settings row quote assetId).validate with
      | none => .error (.other "ValidationError")
      | some message => .ok message

theorem sampleMessage_eq_ok {settings : SnapshotSettings} {row : Job} {quote : Quote}
    {message : PriceSampleObserved reg} (h : sampleMessage reg settings row quote = .ok message) :
    ∃ assetId, message.toSampleFields = sampleFields settings row quote assetId := by
  unfold sampleMessage at h
  split at h
  · cases h
  · split at h
    · cases h
    · next assetId _ =>
      split at h
      · cases h
      · next hvalid =>
        cases h
        exact ⟨assetId, SampleFields.validate_eq_some hvalid⟩

namespace SnapshotWorker

variable (settings : SnapshotSettings)

/-- The latest time at which the page of a job may be read. -/
def deadline (row : Job) : Int :=
  let late := row.scheduledAt + seconds settings.maxLatenessSeconds
  if row.kind = .regular then min late row.window.closesAt else late

/-- The reading part of `collect`. -/
def readSample (row : Job) : Service reg (PriceSampleObserved reg) := do
  let registryVersion ← Proc.catchWith
    (fun _ => .fail (.readFailure { code := .registryChanged, pause := true }))
    (ask (.checkRegistry row.listing))
  if registryVersion ≠ row.registryVersion then
    .fail (.readFailure { code := .registryChanged, pause := true })
  else do
    let quote ← ask (.read row)
    if deadline settings row < quote.observedAt then
      .fail (.readFailure { code := .missedDeadline })
    else
      match sampleMessage reg settings row quote with
      | .error e => .fail e
      | .ok message => .ret message

/-- Written to the job, and counted if the provider may be down. -/
def writeFailure (row : Job) (failure : ReadFailure) (now : Int) : Service reg Unit := do
  let jitter ← ask .jitter
  let retryDelay := seconds settings.retrySeconds + jitter
  let retry := !failure.pause && !failure.provider && decide (row.attempts < 2) &&
    decide (now + retryDelay + seconds settings.timeoutSeconds < deadline settings row)
  ask
    (.failure row failure.code.text now retry failure.pause retryDelay)
  if !retry && (failure.code = .fetchFailed || failure.code = .providerUnavailable) then
    ask (.providerFailure now)

/-- What `collect` writes after a failure, at the time `now`. -/
def recordFailure (row : Job) (failure : ReadFailure) (now : Int) : Service reg Unit :=
  if failure.provider then do
    ask
      (.control failure.code.text now failure.pause failure.retryAfter)
    writeFailure settings row failure now
  else writeFailure settings row failure now

/-- The `except` of `collect`. -/
def handleFailure (row : Job) (raised : Raised) : Service reg Unit := do
  let now ← ask .utcNow
  recordFailure settings row raised.failure now

def saveOnce (row : Job) (message : PriceSampleObserved reg) : Service reg Unit := do
  let saved ← ask (.save row message)
  if saved then ask .resetFailures

/-- A sample is saved again after an exception, and never read again. -/
def saveSample (row : Job) (message : PriceSampleObserved reg) : Service reg Unit :=
  Proc.catchWith (fun _ => Proc.catchWith (fun _ => .ret ()) (saveOnce row message))
    (saveOnce row message)

def collect (row : Job) : Service reg Unit := do
  let now ← ask .utcNow
  if 2 < row.attempts then
    ask
      (.failure row "ATTEMPTS_EXHAUSTED" now false false (seconds 10))
  else if deadline settings row ≤ now then
    ask
      (.failure row "MISSED_DEADLINE" now false false (seconds 10))
  else do
    let outcome ← Proc.catchWith (fun e => .ret (.error e)) do
      let message ← readSample settings row
      return (Except.ok message : Except Raised (PriceSampleObserved reg))
    match outcome with
    | .error e => handleFailure settings row e
    | .ok message => saveSample row message

/-- What the worker remembers between ticks. -/
structure Memory where
  config : Option MappingFile := none
  lastSchedule : Option Int := none

/-- `isinstance(exc, (ValueError, OSError))`. -/
def isConfigError : Raised → Bool
  | .other name => name = "ValueError" || name = "OSError"
  | .readFailure _ => false

/-- `isinstance(exc, (ValueError, KeyError))`. -/
def isCalendarError : Raised → Bool
  | .other name => name = "ValueError" || name = "KeyError"
  | .readFailure _ => false

def reload (memory : Memory) : Service reg Memory := do
  let candidate ← ask .loadMappings
  if memory.config.any (fun config => config.contentHash = candidate.contentHash) then
    return memory
  else do
    ask (.install candidate)
    return { config := some candidate, lastSchedule := none }

/-- Schedule a session; a calendar that does not fit pauses the listing. -/
def scheduleListing (now : Int) (version : String) (listing : Listing) : Service reg Unit :=
  Proc.catchWith (fun e =>
      if isCalendarError e then ask (.pauseAsset listing.assetId)
      else .fail e) do
    let window ← ask (.sessionFor now listing)
    let registryVersion ← ask (.checkRegistry listing)
    ask
      (.schedule listing version registryVersion window settings.intervalSeconds)

def scheduleAll (now : Int) (version : String) : List Listing → Service reg Unit
  | [] => .ret ()
  | listing :: rest => do
    if listing.enabled then scheduleListing settings now version listing
    scheduleAll now version rest

def claimUpTo (now : Int) : Nat → Service reg (List Job)
  | 0 => .ret []
  | n + 1 => do
    let row ← ask (.claim now)
    match row with
    | none => return []
    | some job => do
      let others ← claimUpTo now n
      return job :: others

/-- The tick's time, whether the configuration is broken, whether it probes, and the claimed
jobs; `none` if it ended before. -/
structure Begun where
  memory : Memory
  configError : Bool
  probing : Bool
  jobs : Option (List Job)

/-- The gate of a tick. -/
def gated (now : Int) (control : Control) : Bool :=
  control.paused || control.cooldownUntil.any fun at' => decide (now < at')

/-- A tick from its gate up to its claims. -/
def claimJobs (now : Int) (configError : Bool) (config : MappingFile) (memory : Memory) :
    Service reg Begun := do
  ask (.expire now settings.maxLatenessSeconds)
  let control ← ask .readControl
  if gated now control then do
    ask (.touch now)
    return ⟨memory, configError, false, none⟩
  else do
    let pending ← ask .pendingEvents
    let count ← ask .sampleCount
    if settings.maxPendingEvents ≤ pending ∨ settings.maxSamples ≤ count then do
      ask (.control "CAPACITY_PAUSED" now false 0)
      return ⟨memory, configError, false, none⟩
    else do
      let due := memory.lastSchedule.all fun last => decide (seconds 60 ≤ now - last)
      if due then do
        scheduleAll settings now config.mappingVersion config.listings
        ask (.expire now settings.maxLatenessSeconds)
      let probing := control.cooldownUntil.isSome
      let jobs ← claimUpTo now (if probing then 1 else settings.concurrency)
      return ⟨{ memory with lastSchedule := if due then some now else memory.lastSchedule },
        configError, probing, some jobs⟩

/-- `tick` up to the point where the jobs are collected. -/
def beginTick (memory : Memory) (now : Int) : Service reg Begun := do
  let reloaded ← Proc.catchWith (fun e => if isConfigError e then .ret none else .fail e) do
      let reloaded ← reload memory
      return some reloaded
  match reloaded with
  | none => do
    ask (.control "CONFIG_ERROR" now false 0)
    match memory.config with
    | none => return ⟨memory, true, false, none⟩
    | some config => claimJobs settings now true config memory
  | some memory =>
    match memory.config with
    | none => .fail (.other "AssertionError")
    | some config => claimJobs settings now false config memory

/-- `tick` after the jobs have been collected. -/
def endTick (begun : Begun) : Service reg Unit := do
  if begun.probing && begun.jobs.any (fun jobs => !jobs.isEmpty) then
    ask .clearCooldown
  let now ← ask .utcNow
  ask (.beat now begun.configError)

end SnapshotWorker

end Snapshots
