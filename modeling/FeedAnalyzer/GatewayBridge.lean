import FeedAnalyzer.BrowserAdapter
import FeedAnalyzer.GatewayStore

/-!
# The bridge to the browser extension

A command is entered in `pending` with a future for its result, sent, and waited for;
another task hands a result to the future of its command or to the store.  Every
`await` is one call.  Any of them may raise, and a transaction that is cut off may or
may not have been committed.
-/

namespace Gateway

open Transact

/-- Times are in microseconds. -/
structure Settings where
  profileId : String
  providers : List String
  tabsPerProvider : Nat
  maxBodyBytes : Nat
  retry : Int

/-- An entry of `pending`. -/
structure Pending where
  id : CommandId
  provider : String
  generation : Bool

/-- `awaited` is false once the command was cut off or has taken its result. -/
structure Future where
  result : Option BrowserResult := none
  awaited : Bool := true

/-- What the tasks share.  A future outlives its entry in `pending`; `shielded` has the
writes that go on after their task was cancelled. -/
structure World where
  tables : Tables
  connected : Bool := false
  pending : List Pending := []
  futures : CommandId → Future := fun _ => {}
  shielded : List Tables.Finish := []

/-- Messages to the extension. -/
inductive ServerMessage where
  | command (id : CommandId) (provider : String) (requestId : String) (slot : Nat)
      (prompt : Option String) (timeout : Int)
  | cancel (id : CommandId)
  | progressAck (id : CommandId)
  | resetAck
deriving DecidableEq

/-- What became of a result of the extension. -/
inductive Delivery where
  | mismatch
  | delivered
  | late
deriving DecidableEq

/-- The calls of the gateway's tasks. -/
inductive Call where
  | loopTime
  | utcNow
  | uuid4
  | timeoutExpired
  | sleep (duration : Int)
  | availability (profile provider : String)
  | reserve (profile provider : String) (attempt : Uuid) (request : String) (slot : Nat)
  | submitted (id : CommandId)
  | finish (f : Tables.Finish)
  | shieldedFinish (f : Tables.Finish)
  | runShielded
  | terminal (profile provider : String) (id : CommandId)
  | resetAttempts (profile : String)
  | resetAvailability (profile : String)
  | openCommand (provider : String) (id : CommandId) (generation : Bool)
  | send (message : ServerMessage)
  | awaitFuture (id : CommandId) (timeout : Int)
  | closeCommand (id : CommandId)
  | pendingFor (provider : String) (id : CommandId)
  | deliver (provider : String) (id : CommandId) (result : BrowserResult)
  | jobAck (id : CommandId) (status : Status)
  | noPending
  | connect
  | disconnect
deriving DecidableEq

/-- The answers to them. -/
abbrev Call.Ret : Call → Type
  | .loopTime => Int
  | .utcNow => Int
  | .uuid4 => Uuid
  | .timeoutExpired => Bool
  | .availability .. => Option AvailabilityRow
  | .reserve .. => Bool
  | .openCommand .. => Bool
  | .awaitFuture .. => BrowserResult
  | .pendingFor .. => Bool
  | .deliver .. => Delivery
  | .noPending => Bool
  | _ => Unit

/-- The gateway's interface. -/
abbrev Service : Interface := ⟨Call, Call.Ret⟩

abbrev Routine (α : Type) : Type := Proc Service Raised α

/-- An exception, whether the transaction it cut off had been committed, the clocks, and a
drawn identifier. -/
structure Env where
  raised : Option Raised := none
  committed : Bool := false
  loopTime : Int := 0
  clock : Int := 0
  now : Int := 0
  draw : Uuid := 0
  expired : Bool := false
deriving DecidableEq

namespace World

def entryOf (s : World) (id : CommandId) : Option Pending :=
  s.pending.find? (fun entry => entry.id = id)

def setFuture (s : World) (id : CommandId) (future : Future) : World :=
  { s with futures := fun id' => if id' = id then future else s.futures id' }

/-- `pending[id] = entry`, with a new future. -/
def put (s : World) (entry : Pending) : World :=
  let entered : World :=
    { s with pending := s.pending.filter (fun old => old.id ≠ entry.id) ++ [entry] }
  entered.setFuture entry.id {}

/-- `pending.pop(id, None)`. -/
def pop (s : World) (id : CommandId) : World :=
  { s with pending := s.pending.filter (fun entry => entry.id ≠ id) }

/-- The command no longer takes a result. -/
def cutOff (s : World) (id : CommandId) : World :=
  s.setFuture id { s.futures id with awaited := false }

/-- A transaction that is cut off from outside may have been committed. -/
def transact {α : Type} (w : Env) (s : World) (statements : Tables → Except Raised (α × Tables)) :
    Except Raised α × World :=
  match statements s.tables, w.raised with
  | .error e, none => (.error e, s)
  | .error _, some e => (.error e, s)
  | .ok (a, tables), none => (.ok a, { s with tables := tables })
  | .ok (_, tables), some e => (.error e, if w.committed then { s with tables := tables } else s)

/-- An awaited operation without an effect on what the tasks share. -/
def awaiting {α : Type} (w : Env) (s : World) (a : α) : Except Raised α × World :=
  match w.raised with
  | some e => (.error e, s)
  | none => (.ok a, s)

/-- An awaited send. -/
def sending (w : Env) (s : World) : Except Raised Unit × World :=
  match w.raised with
  | some e => (.error e, s)
  | none => if s.connected then (.ok (), s) else (.error .connection, s)

/-- A send that fails has cut the command off. -/
def dispatch (w : Env) (s : World) (id : CommandId) : Except Raised Unit × World :=
  match (s.sending w).1 with
  | .ok _ => (.ok (), s)
  | .error e => (.error e, s.cutOff id)

/-- The transaction of `finish`. -/
def finish (G : Settings) (w : Env) (s : World) (f : Tables.Finish) : Except Raised Unit × World :=
  s.transact w (fun t => (t.finish G.retry w.clock w.now f).map (fun t => ((), t)))

/-- `asyncio.shield(finish)`: when the task is cancelled before the commit, the write goes
on later. -/
def shieldedFinish (G : Settings) (w : Env) (s : World) (f : Tables.Finish) :
    Except Raised Unit × World :=
  match w.raised, w.committed with
  | some e, false => (.error e, { s with shielded := s.shielded ++ [f] })
  | _, _ => s.finish G w f

/-- The next of the writes that go on. -/
def runShielded (G : Settings) (w : Env) (s : World) : Except Raised Unit × World :=
  match s.shielded with
  | [] => (.ok (), s)
  | f :: rest => { s with shielded := rest }.finish G w f

/-- What a dropped connection tells a command. -/
def dropped (generation : Bool) : BrowserResult :=
  { status := if generation then .unknown else .disconnected
    submitted := if generation then none else some false }

/-- Without a result the time is over; an exception may reach the task before a result does.
-/
def awaitFuture (w : Env) (s : World) (id : CommandId) : Except Raised BrowserResult × World :=
  match w.raised, (s.futures id).result with
  | some e, _ => (.error e, s.cutOff id)
  | none, some result => (.ok result, s.cutOff id)
  | none, none => (.error .timeout, s.cutOff id)

/-- Hand a result to the command that waits for it. -/
def deliver (s : World) (provider : String) (id : CommandId) (result : BrowserResult) :
    Delivery × World :=
  match s.entryOf id with
  | none => (.late, s)
  | some entry =>
    if entry.provider ≠ provider then (.mismatch, s)
    else if (s.futures id).result.isSome then (.late, s)
    else (.delivered, s.setFuture id { s.futures id with result := some result })

/-- Every command still without a result gets one. -/
def disconnect (s : World) : World :=
  { s with
    connected := false
    futures := fun id =>
      match s.entryOf id, (s.futures id).result with
      | some entry, none => { s.futures id with result := some (dropped entry.generation) }
      | _, _ => s.futures id }

end World

/-- How the gateway's calls act. -/
def handle (G : Settings) : Handler Service World Env Raised
  | w, .loopTime, s => (.ok w.loopTime, s)
  | w, .utcNow, s => (.ok w.clock, s)
  | w, .uuid4, s => (.ok w.draw, s)
  | w, .timeoutExpired, s => (.ok w.expired, s)
  | w, .sleep _, s => s.awaiting w ()
  | w, .availability profile provider, s =>
    s.awaiting w (s.tables.availabilityOf profile provider)
  | w, .reserve profile provider attempt request slot, s =>
    s.transact w (fun t => .ok (t.reserve w.now profile provider attempt request slot))
  | w, .submitted id, s => s.transact w (fun t => .ok ((), t.submitted w.now id))
  | w, .finish f, s => s.finish G w f
  | w, .shieldedFinish f, s => s.shieldedFinish G w f
  | w, .runShielded, s => s.runShielded G w
  | w, .terminal profile provider id, s =>
    s.transact w (fun t => .ok ((), t.terminal w.now profile provider id))
  | w, .resetAttempts profile, s =>
    s.transact w (fun t => .ok ((), t.resetAttempts w.now profile))
  | w, .resetAvailability profile, s =>
    s.transact w (fun t => .ok ((), t.resetAvailability profile))
  | _, .openCommand provider id generation, s =>
    if s.connected then
      (.ok true, s.put { id := id, provider := provider, generation := generation })
    else (.ok false, s)
  | w, .send (.command id ..), s => s.dispatch w id
  | w, .send _, s => s.sending w
  | w, .awaitFuture id _, s => s.awaitFuture w id
  | _, .closeCommand id, s => (.ok (), s.pop id)
  | _, .pendingFor provider id, s =>
    (.ok ((s.entryOf id).any (fun entry => entry.provider = provider)), s)
  | _, .deliver provider id result, s =>
    (.ok (s.deliver provider id result).1, (s.deliver provider id result).2)
  | w, .jobAck _ _, s => s.sending w
  | _, .noPending, s => (.ok s.pending.isEmpty, s)
  | _, .connect, s => (.ok (), { s with connected := true })
  | _, .disconnect, s => (.ok (), s.disconnect)

/-- Make one call. -/
def ask (c : Call) : Routine c.Ret :=
  Proc.perform (I := Service) c

/-- Make one call and keep what it raises. -/
def trial (c : Call) : Routine (Except Raised c.Ret) :=
  Proc.call (I := Service) c .ret

/-- `try … finally`. -/
def withFinally {α : Type} (p : Routine α) (cleanup : Routine Unit) : Routine α :=
  (p.catchWith (fun e => cleanup.bind (fun _ => .fail e))).bind
    (fun a => cleanup.bind (fun _ => .ret a))

/-- Tell the extension to stop a command, if it can be told. -/
def Bridge.cancel (id : CommandId) : Routine Unit :=
  (ask (.send (.cancel id))).catchWith (fun e =>
    match e with
    | .connection => .ret ()
    | .runtime => .ret ()
    | e => .fail e)

/-- Give a command up; its fate is unknown if a prompt was sent. -/
def Bridge.giveUp (id : CommandId) (generation dispatched : Bool) : Routine BrowserResult := do
  Bridge.cancel id
  return World.dropped (generation && dispatched)

/-- A command was cut off by `e`. -/
def Bridge.interrupted (id : CommandId) (generation dispatched : Bool) (e : Raised) :
    Routine BrowserResult :=
  match e with
  | .timeout => Bridge.giveUp id generation dispatched
  | .connection => Bridge.giveUp id generation dispatched
  | .runtime => Bridge.giveUp id generation dispatched
  | .cancelled => do
    Bridge.cancel id
    .fail .cancelled
  | e => .fail e

/-- Wait for the result of a command that was sent. -/
def Bridge.receive (context : Context) (id : CommandId) (prompt : Option String) :
    Routine BrowserResult := do
  let left ← remaining (ask .loopTime) context
  let received ← trial (.awaitFuture id (if prompt.isSome then left else min 45000000 left))
  match received with
  | .error e => Bridge.interrupted id prompt.isSome true e
  | .ok result => return result

/-- Send a command and wait for its result. -/
def Bridge.exchange (provider : String) (context : Context) (id : CommandId)
    (prompt : Option String) : Routine BrowserResult := do
  let left ← remaining (ask .loopTime) context
  let sent ← trial (.send (.command id provider context.requestId context.slot prompt
    (left / 1000)))
  match sent with
  | .error e => Bridge.interrupted id prompt.isSome false e
  | .ok _ => Bridge.receive context id prompt

/-- Have the extension carry out a command. -/
def Bridge.command (provider : String) (context : Context) (id : CommandId)
    (prompt : Option String) : Routine BrowserResult := do
  let opened ← ask (.openCommand provider id prompt.isSome)
  if opened then
    withFinally (Bridge.exchange provider context id prompt) (ask (.closeCommand id))
  else
    return { status := .disconnected }

def Bridge.transport : Transport Service where
  loopTime := ask .loopTime
  uuid4 := ask .uuid4
  command := Bridge.command

/-- A message with a command's result.  `none` is a field that is missing or of the wrong
type. -/
structure ResultMessage where
  attemptId : Option CommandId
  provider : Option String
  status : Option Status
  submitted : Option (Option Bool) := some (some false)
  text : Option String := some ""
  resetAt : Option Int := none
  observedModel : Option String := none

/-- The result that a message reports, if it is well formed. -/
def ResultMessage.report (G : Settings) (msg : ResultMessage) : Option BrowserResult := do
  let status ← msg.status
  let submitted ← msg.submitted
  let observed := msg.observedModel.map (fun model => (model.take 128).toString)
  match msg.text.filter (fun text => text.length ≤ G.maxBodyBytes) with
  | some text => return ⟨status, text, submitted, msg.resetAt, observed⟩
  | none => return ⟨.invalidOutput, "", some true, msg.resetAt, observed⟩

def Bridge.handleResult (G : Settings) (msg : ResultMessage) : Routine Unit :=
  match msg.attemptId, msg.provider, msg.report G with
  | some id, some provider, some result =>
    if provider ∈ G.providers then do
      let delivery ← ask (.deliver provider id result)
      match delivery with
      | .mismatch => return ()
      | .delivered => ask (.jobAck id result.status)
      | .late =>
        if result.status ≠ .unknown then
          ask (.terminal G.profileId provider id)
        ask (.jobAck id result.status)
    else
      return ()
  | _, _, _ => return ()

/-- Handle a progress message of the extension. -/
def Bridge.handleProgress (G : Settings) (id : CommandId) (provider : String)
    (submitting : Bool) : Routine Unit :=
  if provider ∈ G.providers then do
    let found ← ask (.pendingFor provider id)
    if found && submitting then
      ask (.submitted id)
      ask (.send (.progressAck id))
  else
    return ()

/-- An operator's reset; refused while a command is pending. -/
def Bridge.reset (G : Settings) : Routine Unit := do
  let idle ← ask .noPending
  if idle then
    ask (.resetAttempts G.profileId)
    ask (.resetAvailability G.profileId)
    ask (.send .resetAck)

end Gateway
