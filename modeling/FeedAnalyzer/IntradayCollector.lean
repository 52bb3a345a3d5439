import FeedAnalyzer.CompleteRun
import FeedAnalyzer.ConformingProc
import FeedAnalyzer.IntradayBars

/-!
# The intraday collector

A claim draws a token, writes it as the lease of the row and returns the row.  What is
written afterwards asks for the lease.  `collect` reads samples as long as they are
sound, and else the chart; the bars that changed go into the outbox as the next
revision.
-/

namespace Intraday

open Feed Transact Snapshots

inductive SourceMode where
  | avanza | finance
  deriving DecidableEq

/-- A row of `market_data.intraday_streams`. -/
structure StreamRow (reg : Registry) where
  streamId : Uuid
  request : IntradayRequested reg
  series : ProviderSeries
  bars : Bars := ∅
  revision : Nat := 0
  done : Bool := false
  lease : Option Nat := none
  nextAttemptAt : Int
  lastError : Option String := none
  sourceMode : SourceMode
  fallbackReason : Option String := none

/-- A row of `market_data.intraday_outbox`. -/
structure OutboxRow (reg : Registry) where
  messageId : Uuid
  payload : IntradayObserved reg

/-- The tables, with the next token, since tokens are drawn once. -/
structure Store (reg : Registry) where
  streams : Table (fun row : StreamRow reg => row.streamId) := ∅
  outbox : Table (fun row : OutboxRow reg => row.messageId) := ∅
  priceSamples : Table (fun row : SampleRow reg => row.sampleId) := ∅
  nextToken : Nat := 0

structure MarketDataSettings where
  intradayPollSeconds : Int := 60
  intradayFinalizationSeconds : Int := 300
  intradayRetryHours : Int := 24
  finalization_ge : 60 ≤ intradayFinalizationSeconds := by decide
  retry_ge : 1 ≤ intradayRetryHours := by decide

variable {reg : Registry}

/-- The bars, and how they are to be taken. -/
structure Gathered where
  fetched : List IntradayBar
  failure : Option String
  sourceMode : SourceMode
  fallbackReason : Option String
  replace : Bool

def anySampled (bars : Bars) : Bool := bars.rows.any fun b => b.1.sample.isSome

/-- The columns that the transaction of `collect` writes. -/
structure Revised where
  bars : Bars
  revision : Nat
  final : Bool
  failure : Option String
  sourceMode : SourceMode
  fallbackReason : Option String
  nextAttemptAt : Int

/-- `previous`, from which an update starts. -/
def startFrom (row : StreamRow reg) (g : Gathered) : Bars :=
  if g.replace then ∅ else loaded row.bars

/-- The fetched bars that are new or different. -/
def changedBars (row : StreamRow reg) (g : Gathered) : List IntradayBar :=
  g.fetched.filter fun b => decide ((startFrom row g).find? b.1.start ≠ some b)

/-- `previous`, with the changed bars. -/
def updatedBars (row : StreamRow reg) (g : Gathered) : Bars :=
  (startFrom row g).putAll (changedBars row g)

def sessionMinutes (request : IntradayRequested reg) : Int :=
  (request.closesAt - request.opensAt) / minute

/-- The samples of the bars by slot; the last bar of a slot gives its sample. -/
def originals (bars : Bars) : Table (fun p : SampleProvenance => p.1.scheduledAt) :=
  (∅ : Table (fun p : SampleProvenance => p.1.scheduledAt)).putAll
    (bars.rows.filterMap fun b => b.1.sample)

/-- The cadence of the samples. -/
def cadence (bars : Bars) : Int :=
  match (originals bars).rows with
  | [] => 600
  | p :: _ => p.1.intervalSeconds

/-- The slots of the session. -/
def expectedSlots (request : IntradayRequested reg) (interval : Int) : List Int :=
  regularTimes request.opensAt (request.opensAt + sessionMinutes request * minute) (seconds interval)

/-- The bars cover the session. -/
def complete (request : IntradayRequested reg) (mode : SourceMode) (bars : Bars) : Bool :=
  match mode with
  | .finance => decide ((bars.rows.length : Int) = sessionMinutes request)
  | .avanza =>
    let slots := (originals bars).rows.map (·.1.scheduledAt)
    let expected := expectedSlots request (cadence bars)
    slots.all (· ∈ expected) && expected.all (· ∈ slots)

variable (settings : MarketDataSettings)

/-- After this time the stream is given up. -/
def deadline (request : IntradayRequested reg) : Int :=
  request.closesAt + seconds (settings.intradayRetryHours * 3600)

def finalAfter (request : IntradayRequested reg) : Int :=
  request.closesAt + seconds settings.intradayFinalizationSeconds

/-- `final`. -/
def isFinal (row : StreamRow reg) (g : Gathered) (now : Int) : Bool :=
  g.failure.isSome || (decide (finalAfter settings row.request ≤ now) &&
      complete row.request g.sourceMode (updatedBars row g)) ||
    decide (deadline settings row.request ≤ now)

def reportedFailure (row : StreamRow reg) (g : Gathered) (now : Int) : Option String :=
  if isFinal settings row g now && !complete row.request g.sourceMode (updatedBars row g) &&
      g.failure.isNone then some "MISSING_BARS"
  else g.failure

/-- There is something to publish. -/
def publishes (row : StreamRow reg) (g : Gathered) (now : Int) : Bool :=
  !(changedBars row g).isEmpty || isFinal settings row g now || g.replace

/-- The row as the transaction leaves it. -/
def revised (row : StreamRow reg) (g : Gathered) (now : Int) : Revised where
  bars := updatedBars row g
  revision := if publishes settings row g now then row.revision + 1 else row.revision
  final := isFinal settings row g now
  failure := reportedFailure settings row g now
  sourceMode := g.sourceMode
  fallbackReason := g.fallbackReason
  nextAttemptAt := now + seconds settings.intradayPollSeconds

/-- The revision that is published. -/
def observation (row : StreamRow reg) (g : Gathered) (now : Int) (messageId : Uuid) :
    IntradayObserved reg where
  messageId := messageId
  correlationId := row.request.correlationId
  causationId := row.request.messageId
  occurredAt := now
  streamId := row.request.streamId
  assetId := row.request.assetId
  registryVersion := row.request.registryVersion
  revision := row.revision + 1
  bars := changedBars row g
  final := isFinal settings row g now
  failure := reportedFailure settings row g now
  replacesPrevious := g.replace
  source := if g.sourceMode = .avanza then .avanza else .yahoo
  fallbackReason := g.fallbackReason

namespace Store

/-- `INSERT … ON CONFLICT DO NOTHING` of `register`. -/
def register (request : IntradayRequested reg) (series : ProviderSeries) (mode : SourceMode)
    (s : Store reg) : Store reg :=
  { s with
      streams := s.streams.insertNew
        { streamId := request.streamId
          request := request
          series := series
          nextAttemptAt := request.opensAt
          sourceMode := mode } }

/-- The stream may be claimed. -/
def due (dbNow : Int) (row : StreamRow reg) : Bool :=
  !row.done && decide (row.nextAttemptAt ≤ dbNow)

def claimed (token : Nat) (dbNow : Int) (row : StreamRow reg) : StreamRow reg :=
  { row with lease := some token, nextAttemptAt := dbNow + seconds 300 }

/-- The claim of `tick`; `tie` orders streams of one time, and `locked` rows are skipped. -/
def claim (tie : StreamRow reg → Nat) (locked : StreamRow reg → Bool) (dbNow : Int)
    (s : Store reg) : Option (StreamRow reg) × Store reg :=
  match (selectOrdered (fun row => due dbNow row && !locked row) (fun row => row.nextAttemptAt) tie 1
      s.streams.rows).head? with
  | none => (none, { s with nextToken := s.nextToken + 1 })
  | some row =>
    (some (claimed s.nextToken dbNow row), { s with
          streams := s.streams.updateWhere (fun r => r.streamId = row.streamId)
            (claimed s.nextToken dbNow) (fun _ => rfl)
          nextToken := s.nextToken + 1 })

/-- `WHERE stream_id=$1 AND lease=$2`. -/
def heldBy (row r : StreamRow reg) : Bool :=
  r.streamId = row.request.streamId && (row.lease.isSome && r.lease = row.lease)

/-- The update after a source that could not be read. -/
def release (row : StreamRow reg) (nextAttemptAt : Int) (mode : SourceMode)
    (fallbackReason : Option String) (s : Store reg) : Store reg :=
  { s with
      streams := s.streams.updateWhere (heldBy row) (fun r => { r with
          lease := none
          nextAttemptAt := nextAttemptAt
          lastError := some "PROVIDER_UNAVAILABLE"
          sourceMode := mode
          fallbackReason := fallbackReason })
        (fun _ => rfl) }

def revise (columns : Revised) (r : StreamRow reg) : StreamRow reg :=
  { r with
      bars := columns.bars
      revision := columns.revision
      done := columns.final
      lease := none
      nextAttemptAt := columns.nextAttemptAt
      lastError := columns.failure
      sourceMode := columns.sourceMode
      fallbackReason := columns.fallbackReason }

/-- The transaction of `collect`; `none` when the id of the message is taken. -/
def commit (row : StreamRow reg) (columns : Revised) (message : Option (IntradayObserved reg))
    (s : Store reg) : Option (Store reg) :=
  if s.streams.rows.any (heldBy row) then
    match message with
    | none => some { s with streams := s.streams.updateWhere (heldBy row) (revise columns) (fun _ => rfl) }
    | some m =>
      if s.outbox.has m.messageId then none
      else
        some { s with
          streams := s.streams.updateWhere (heldBy row) (revise columns) (fun _ => rfl)
          outbox := s.outbox.insertNew ⟨m.messageId, m⟩ }
  else some s

/-- The snapshot worker saves a sample. -/
def addSample (row : SampleRow reg) (s : Store reg) : Store reg :=
  { s with priceSamples := s.priceSamples.insertNew row }

end Store

/-- The calls of the collector, and of what runs beside it. -/
inductive Call (reg : Registry) where
  | utcNow
  | uuid4
  | listing (assetId : AssetId reg)
  | sessionFor (listing : Listing) (day : Int)
  | samplesTable
  | sampleRows (assetId : AssetId reg) (day : Int)
  | chart (request : IntradayRequested reg) (series : ProviderSeries)
  | register (request : IntradayRequested reg) (series : ProviderSeries) (mode : SourceMode)
  | claim
  | release (row : StreamRow reg) (nextAttemptAt : Int) (mode : SourceMode)
      (fallbackReason : Option String)
  | commit (row : StreamRow reg) (columns : Revised) (message : Option (IntradayObserved reg))
  | addSample (row : SampleRow reg)

abbrev Call.Ret : Call reg → Type
  | .utcNow => Int
  | .uuid4 => Uuid
  | .listing _ => Option Listing
  | .sessionFor _ _ => Session
  | .samplesTable => Bool
  | .sampleRows _ _ => List (SampleRow reg)
  | .chart _ _ => Chart
  | .claim => Option (StreamRow reg)
  | _ => Unit

abbrev Surroundings (reg : Registry) : Interface := ⟨Call reg, Call.Ret⟩

abbrev Service (reg : Registry) (α : Type) : Type := Proc (Surroundings reg) Raised α

/-- One call of the worker. -/
abbrev ask {reg : Registry} (c : Call reg) : Service reg c.Ret :=
  Proc.perform (I := Surroundings reg) c

/-- An exception is given by its name. -/
structure Answer (reg : Registry) where
  now : Int := 0
  dbNow : Int := 0
  uuid : Uuid := 0
  listing : Except String (Option Listing) := .ok none
  window : Except String Session := .error ""
  samplesTable : Bool := true
  chart : Except String Chart := .error ""
  tie : StreamRow reg → Nat := fun _ => 0
  locked : StreamRow reg → Bool := fun _ => false
  fault : Option String := none
  /-- The statement fails, but only after its transaction has been committed. -/
  committed : Bool := false

/-- An exception of the surroundings. -/
def raising {α : Type} : Except String α → Except Raised α
  | .ok a => .ok a
  | .error name => .error (.other name)

/-- A statement that may fail before or after its commit. -/
def Answer.statement {σ α : Type} (w : Answer reg) (result : α) (before after : σ) :
    Except Raised α × σ :=
  match w.fault with
  | none => (.ok result, after)
  | some name => (.error (.other name), if w.committed then after else before)

/-- `WHERE asset_id=$1 AND session=$2`. -/
def Store.samplesOf (s : Store reg) (assetId : AssetId reg) (day : Int) : List (SampleRow reg) :=
  s.priceSamples.rows.filter fun row => row.payload.assetId = assetId && row.payload.session = day

/-- How the calls act on the tables. -/
def handle : Handler (Surroundings reg) (Store reg) (Answer reg) Raised
  | w, .utcNow, s => (.ok w.now, s)
  | w, .uuid4, s => (.ok w.uuid, s)
  | w, .listing _, s => (raising w.listing, s)
  | w, .sessionFor _ _, s => (raising w.window, s)
  | w, .samplesTable, s => w.statement w.samplesTable s s
  | w, .sampleRows assetId day, s => w.statement (s.samplesOf assetId day) s s
  | w, .chart _ _, s => (raising w.chart, s)
  | w, .register request series mode, s => w.statement () s (s.register request series mode)
  | w, .claim, s =>
    w.statement (s.claim w.tie w.locked w.dbNow).1 s (s.claim w.tie w.locked w.dbNow).2
  | w, .release row nextAttemptAt mode fallbackReason, s =>
    w.statement () s (s.release row nextAttemptAt mode fallbackReason)
  | w, .commit row columns message, s =>
    match s.commit row columns message with
    | none => (.error (.other "UniqueViolationError"), s)
    | some s' => w.statement () s s'
  | w, .addSample row, s => w.statement () s (s.addSample row)

/-- The tables after a call that is carried out. -/
def effect (w : Answer reg) : Call reg → Store reg → Store reg
  | .register request series mode, s => s.register request series mode
  | .claim, s => (s.claim w.tie w.locked w.dbNow).2
  | .release row nextAttemptAt mode fallbackReason, s =>
    s.release row nextAttemptAt mode fallbackReason
  | .commit row columns message, s => (s.commit row columns message).getD s
  | .addSample row, s => s.addSample row
  | _, s => s

/-- `AvanzaReader.listing`. -/
def avanzaListing (assetId : AssetId reg) : Service reg Listing := do
  let found ← ask (.listing assetId)
  match found with
  | none => .fail (.avanzaUnavailable "UNSUPPORTED_AVANZA_LISTING")
  | some listing => .ret listing

/-- `AvanzaReader.window`. -/
def avanzaWindow (assetId : AssetId reg) (day : Int) : Service reg Session := do
  let listing ← avanzaListing assetId
  let window ← ask (.sessionFor listing day)
  if window.session ≠ day then .fail (.avanzaPending "NON_TRADING_SESSION") else .ret window

/-- The checks of `samples`, on the rows that were read. -/
def checkRows (listing : Listing) (series : AssetReferenceSeries) (rows : List (SampleRow reg))
    (assetId : AssetId reg) (window : Session) (now : Int) :
    Except Raised (List (PriceSampleObserved reg)) :=
  if series.isAdjusted then .error (.avanzaUnavailable "ADJUSTED_PRICE_SERIES_UNSUPPORTED")
  else if rows.any (fun r => r.instrumentId ≠ listing.instrumentId ||
      r.exchange ≠ listing.expectedExchange) then
    .error (.avanzaUnavailable "STORED_LISTING_MISMATCH")
  else
    validateSamples (rows.map (·.payload)) assetId window series.currency series.registryVersion now

/-- `AvanzaReader.samples`, with the window it computes first. -/
def avanzaSamples (window : Session) (assetId : AssetId reg) (day now : Int) :
    Service reg (List (PriceSampleObserved reg)) := do
  let initialized ← ask .samplesTable
  if !initialized then
    if now < window.opensAt + grace then .fail (.avanzaPending "SESSION_NOT_STARTED")
    else .fail (.avanzaUnavailable "COLLECTOR_NOT_INITIALIZED")
  else do
    let rows ← ask (.sampleRows assetId day)
    match reg.resolve assetId.value with
    | .error _ => .fail (.other "UnknownAssetError")
    | .ok series => do
      let listing ← avanzaListing assetId
      match checkRows listing series rows assetId window now with
      | .error e => .fail e
      | .ok samples => .ret samples

/-- The bars of samples that leave no slot out. -/
def minutesOf (window : Session) (samples : List (PriceSampleObserved reg)) (now : Int) :
    Except Raised (List IntradayBar) := do
  let missing ← missingSlots window samples now
  if !missing.isEmpty then .error (.avanzaUnavailable "MISSING_AVANZA_SLOT")
  else minuteValues samples now

/-- `AvanzaReader.minutes`, with the window of `samples`. -/
def avanzaMinutes (window : Session) (assetId : AssetId reg) (day now : Int) :
    Service reg (List IntradayBar) := do
  let samples ← avanzaSamples window assetId day now
  match minutesOf window samples now with
  | .error e => .fail e
  | .ok bars => .ret bars

/-- `IntradayAdapter.fetch`. -/
def fetchChart (request : IntradayRequested reg) (series : ProviderSeries) (now : Int) :
    Service reg (List IntradayBar) :=
  if series.provider ≠ "yahoo" || series.isAdjusted then .fail .invalidObservation
  else if series.registryVersion ≠ request.registryVersion then .fail .invalidObservation
  else do
    let chart ← ask (.chart request series)
    match parseChart request now chart with
    | .error e => .fail e
    | .ok bars => .ret bars

/-- The result of a procedure, or what it raised. -/
def attempt {α : Type} (p : Service reg α) : Service reg (Except Raised α) :=
  (p.bind fun a => .ret (.ok a)).catchWith fun e => .ret (.error e)

/-- Bars, or a source that could not be read. -/
inductive Collected where
  | gathered (g : Gathered)
  | unavailable (mode : SourceMode) (fallbackReason : Option String)

/-- The end of the `try`, where the chart has been read. -/
def chartResult (mode : SourceMode) (fallbackReason : Option String)
    (replaceOk replaceInvalid : Bool) : Except Raised (List IntradayBar) → Collected
  | .ok bars => .gathered ⟨bars, none, mode, fallbackReason, replaceOk⟩
  | .error .invalidObservation =>
    .gathered ⟨[], some "INVALID_PROVIDER_DATA", mode, fallbackReason, replaceInvalid⟩
  | .error _ => .unavailable mode fallbackReason

/-- The samples of a session whose window has not changed. -/
def readSamples (localDate : String → Int → Int) (row : StreamRow reg) (now : Int) :
    Service reg (List IntradayBar) := do
  let day := localDate row.series.timezone row.request.opensAt
  let window ← avanzaWindow row.request.assetId day
  if window.opensAt ≠ row.request.opensAt ∨ window.closesAt ≠ row.request.closesAt then
    .fail (.other "ValueError")
  else avanzaMinutes window row.request.assetId day now

/-- The `try` of `collect`; `avanza`: there is a reader of samples. -/
def gather (localDate : String → Int → Int) (avanza : Bool) (row : StreamRow reg) (now : Int) :
    Service reg Collected :=
  let lost := row.sourceMode = .avanza ∧ avanza = false
  let mode := if lost then .finance else row.sourceMode
  let reason := if lost then some "FINANCE_MODE" else row.fallbackReason
  let replace := if lost then true else decide (row.sourceMode = .finance) && anySampled row.bars
  if deadline settings row.request < now then
    .ret (.gathered ⟨[], some "DATA_DEADLINE_EXPIRED", mode, reason, replace⟩)
  else if mode = .avanza then do
    let outcome ← attempt (readSamples localDate row now)
    match outcome with
    | .ok bars => return .gathered ⟨bars, none, mode, reason, replace⟩
    | .error (.avanzaPending _) => return .gathered ⟨[], none, mode, reason, replace⟩
    | .error e => do
      let outcome ← attempt (fetchChart row.request row.series now)
      return chartResult .finance (some (fallbackReason e)) true true outcome
  else do
    let outcome ← attempt (fetchChart row.request row.series now)
    return chartResult mode reason (anySampled row.bars) replace outcome

def collect (localDate : String → Int → Int) (avanza : Bool) (row : StreamRow reg) :
    Service reg Unit := do
  let now ← ask .utcNow
  let collected ← gather settings localDate avanza row now
  match collected with
  | .unavailable mode reason =>
    ask
      (.release row (now + seconds settings.intradayPollSeconds) mode reason)
  | .gathered g => do
    let messageId ← ask .uuid4
    ask (.commit row (revised settings row g now)
        (if publishes settings row g now then some (observation settings row g now messageId)
        else none))

/-- One turn of `tick`: claim a stream and collect it. -/
def poll (localDate : String → Int → Int) (avanza : Bool) : Service reg Unit := do
  let row ← ask .claim
  match row with
  | none => return ()
  | some row => collect settings localDate avanza row

/-- The mode in which a stream starts. -/
def firstMode (avanza : Bool) (request : IntradayRequested reg) : SourceMode :=
  if avanza && decide (request.pricePolicy = .lastKnownPrice) then .avanza else .finance

/-- `register`. -/
def registerStream (resolve : String → Except RegistryError ProviderSeries) (avanza : Bool)
    (request : IntradayRequested reg) : Service reg Unit :=
  match resolve request.assetId.value with
  | .error _ => .fail (.other "UnknownAssetError")
  | .ok series =>
    let sampled := avanza && decide (request.pricePolicy = .lastKnownPrice)
    if (series.provider ≠ "yahoo" && !sampled) || series.registryVersion ≠ request.registryVersion then
      .fail (.other "ValueError")
    else
      ask (.register request series (firstMode avanza request))

end Intraday
