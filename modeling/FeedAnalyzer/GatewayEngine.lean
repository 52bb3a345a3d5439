import FeedAnalyzer.GatewayBridge

/-!
# Routing a request

The engine reserves a tab slot with the first provider that has one, probes the page,
and has the adapter carry out the request.  The attempt is to be finished with the
adapter's result or, when the task is cancelled, by a shielded write.
-/

namespace Gateway

open Transact

/-- The capabilities of every adapter. -/
def capabilities : List String :=
  ["text", "json", "tools"]

/-- `try`: run a procedure and keep what it raises. -/
def outcomeOf {α : Type} (p : Routine α) : Routine (Except Raised α) :=
  (p.bind (fun a => .ret (.ok a))).catchWith (fun e => .ret (.error e))

/-- `asyncio.timeout`: its own cancellation leaves the block as a timeout. -/
def withTimeout {α : Type} (context : Context) (p : Routine α) : Routine α := do
  let _ ← remaining (ask .loopTime) context
  p.catchWith (fun e =>
    match e with
    | .cancelled => do
      let expired ← ask .timeoutExpired
      .fail (if expired then .timeout else .cancelled)
    | e => .fail e)

variable {B M : Type} (G : Settings) (F : Formatting B M)

namespace Engine

section Attempt

variable (body : B) (context : Context) (provider : String) (attempt : Uuid)

/-- What `finish` is told of a result. -/
def finishOf (result : Result M) : Tables.Finish :=
  ⟨context.profileId, provider, attempt, result.status, result.resetAt⟩

/-- Finish an attempt with its result. -/
def settle (last : Result M) : Routine (Result M) := do
  ask (.finish (finishOf context provider attempt last))
  return last

/-- The adapter raised `e`. -/
def abandon (executionStarted : Bool) (e : Raised) : Routine (Result M) :=
  let release : Routine (Result M) := do
    ask (.shieldedFinish (finishOf context provider attempt
      (if executionStarted then failure .unknown none else failure .disconnected : Result M)))
    .fail e
  match e with
  | .cancelled => release
  | .timeout => release
  | _ => settle context provider attempt (failure .unknown none)

/-- Carry out a request in a reserved slot. -/
def perform (slot : Nat) : Routine (Result M) := do
  let execution := { context with slot := slot }
  let probed ← outcomeOf (BrowserAdapter.ready Bridge.transport provider execution)
  match probed with
  | .error e => abandon context provider attempt false e
  | .ok ready =>
    if ready.status = .success then
      let executed ← outcomeOf (withTimeout context
        (BrowserAdapter.execute Bridge.transport F provider body execution attempt))
      match executed with
      | .error e => abandon context provider attempt true e
      | .ok last => settle context provider attempt last
    else
      settle context provider attempt (commandFailure ready)

/-- Reserve the first free slot of a provider. -/
def reserveSlot : List Nat → Routine (Option Nat)
  | [] => return none
  | slot :: rest => do
    let reserved ← ask (.reserve context.profileId provider attempt context.requestId slot)
    if reserved then
      return some slot
    else
      reserveSlot rest

end Attempt

variable (body : B) (context : Context)

/-- One pass: the result of the provider that took the request, or whether one was busy and
whether all were rate limited. -/
def tryProviders : List String → Bool → Bool → Routine (Result M ⊕ (Bool × Bool))
  | [], busy, limited => return .inr (busy, limited)
  | provider :: rest, busy, limited => do
    let availability ← ask (.availability context.profileId provider)
    let clock ← ask .utcNow
    match availability.filter (fun row => !row.eligible clock) with
    | some row => tryProviders rest busy (limited && row.reason = .rateLimited)
    | none =>
      let attempt ← ask .uuid4
      let selected ← reserveSlot context provider attempt (List.range G.tabsPerProvider)
      match selected with
      | none => tryProviders rest true false
      | some slot =>
        let result ← perform F body context provider attempt slot
        return .inl result

/-- The deadline has passed. -/
def deadlineExceeded : Raised :=
  .gateway ⟨"Gateway request deadline expired", 504, "deadline_exceeded", none⟩

/-- Pass over the providers until one takes the request.  The source's only bound is the
deadline; a run makes finitely many passes. -/
def passes (eligible : List String) : Nat → Routine (Result M)
  | 0 => .fail deadlineExceeded
  | n+1 => do
    let left ← remaining (ask .loopTime) context
    if left ≤ 0 then
      .fail deadlineExceeded
    else
      let outcome ← tryProviders G F body context eligible false true
      match outcome with
      | .inl result => return result
      | .inr (busy, limited) =>
        if busy then
          let left ← remaining (ask .loopTime) context
          ask (.sleep (min 100000 left))
          passes eligible n
        else
          return failure (if limited then .rateLimited else .temporary)

/-- Route a request to a provider. -/
def route (bound : Nat) : Routine (Result M) :=
  let eligible := G.providers.filter (fun _ => context.required.all (capabilities.contains ·))
  if eligible.isEmpty then
    .fail (.gateway ⟨"No adapter supports the requested capabilities", 400,
      "unsupported_capability", none⟩)
  else
    passes G F body context eligible bound

end Engine

/-- What starts a task of the gateway. -/
inductive Job (B : Type) where
  | request (bound : Nat) (body : B) (context : Context)
  | result (msg : ResultMessage)
  | progress (id : CommandId) (provider : String) (submitting : Bool)
  | reset
  | connect
  | disconnect
  | background

/-- The procedure of a job; a request's returns its result. -/
def procedure : Job B → Routine (Option (Result M))
  | .request bound body context => do
    let result ← Engine.route G F body context bound
    return some result
  | .result msg => do
    Bridge.handleResult G msg
    return none
  | .progress id provider submitting => do
    Bridge.handleProgress G id provider submitting
    return none
  | .reset => do
    Bridge.reset G
    return none
  | .connect => do
    ask .connect
    return none
  | .disconnect => do
    ask .disconnect
    return none
  | .background => do
    ask .runShielded
    return none

end Gateway
