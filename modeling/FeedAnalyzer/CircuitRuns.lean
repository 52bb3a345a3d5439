import FeedAnalyzer.IngestionPipeline

/-!
# Runs of a circuit breaker

`ResilientAdapter.fetch` tells its breaker of an `AdapterError` only.  A probe that ends
with another exception leaves the circuit half open.
-/

namespace Ingestion

/-- When the call starts, when it would fail, and what the provider answers. -/
structure TimedFetch where
  now : Rat
  failedAt : Rat
  data : Provider

/-- The calls follow one another. -/
def Timed : Rat → List TimedFetch → Prop
  | _, [] => True
  | t, c :: rest => t ≤ c.now ∧ c.now ≤ c.failedAt ∧ Timed c.failedAt rest

/-- `circuit_failure_threshold` and `circuit_reset_timeout_seconds`. -/
structure CircuitSettings where
  failureThreshold : Int
  resetTimeoutSeconds : Rat
  threshold_pos : 0 < failureThreshold
  reset_pos : 0 < resetTimeoutSeconds

/-- A source behind its breaker, and its failures since the last success. -/
structure Guarded where
  source : ResilientAdapter
  inARow : Int := 0

namespace Guarded

variable (py : Python)

/-- The wrapped adapter is called. -/
def calls (x : Guarded) (c : TimedFetch) : Bool := (x.source.breaker.allowsRequest c.now).1

/-- The wrapped adapter is called and raises. -/
def fails (x : Guarded) (c : TimedFetch) : Bool :=
  x.calls c && (x.source.adapter.fetch py c.data).isOk.not

def step (x : Guarded) (c : TimedFetch) : Guarded where
  source := (x.source.fetch py c.now c.failedAt c.data).2
  inARow := if x.fails py c then x.inARow + 1 else if x.calls c then 0 else x.inARow

/-- A failed probe, or the last failure in a row that is allowed. -/
def Trips (x : Guarded) (c : TimedFetch) : Prop :=
  x.fails py c = true ∧ (x.source.breaker.state ≠ .closed ∨
    x.source.breaker.failureThreshold ≤ (x.step py c).inARow)

/-- The wrapped adapter is not called before `until'`. -/
def Quiet (until' : Rat) : Guarded → List TimedFetch → Prop
  | _, [] => True
  | x, c :: rest => (c.now < until' → x.calls c = false) ∧ Quiet until' (x.step py c) rest

/-- After a failure that trips, the adapter is not called until the timeout has elapsed, and
no call leaves the circuit half open. -/
def Protected : Guarded → List TimedFetch → Prop
  | _, [] => True
  | x, c :: rest =>
    (x.Trips py c →
      Quiet py (c.failedAt + x.source.breaker.resetTimeoutSeconds) (x.step py c) rest) ∧
    (x.step py c).source.breaker.state ≠ .halfOpen ∧ Protected (x.step py c) rest

/-- Every call of the wrapped adapter returns or raises `AdapterError`. -/
def Honest : Guarded → List TimedFetch → Prop
  | _, [] => True
  | x, c :: rest => (x.calls c = true → ¬ x.source.adapter.Escapes py c.data) ∧
      Honest (x.step py c) rest

variable {py} {x : Guarded} {c : TimedFetch} {cs : List TimedFetch} {t u : Rat}

/-- The breaker knows of every failure. -/
structure Told (x : Guarded) : Prop where
  counted : x.source.breaker.failures = x.inARow
  decided : x.source.breaker.state ≠ .halfOpen

/-- **One call** that raises nothing but `AdapterError`. -/
theorem Told.step (h : Told x) (c : TimedFetch)
    (hown : x.calls c → ¬ x.source.adapter.Escapes py c.data) :
    Told (x.step py c) ∧ (x.step py c).source.breaker.resetTimeoutSeconds =
        x.source.breaker.resetTimeoutSeconds ∧
      (x.Trips py c → (x.step py c).source.breaker.state = .opened ∧
        (x.step py c).source.breaker.openedAt = c.failedAt) := by
  have hforeign := fun hcalls e he =>
    hown hcalls ((SourceAdapter.fetch_foreign_iff ..).mp ⟨e, he⟩)
  have hcounted := h.counted
  have hdecided : x.source.breaker.state = .closed ∨ x.source.breaker.state = .opened := by
    cases hstate : x.source.breaker.state with
    | closed => exact Or.inl rfl
    | opened => exact Or.inr rfl
    | halfOpen => exact absurd hstate h.decided
  refine ⟨⟨?_, ?_⟩, ?_, ?_⟩ <;>
  cases hfetch : x.source.adapter.fetch py c.data with
  | ok articles =>
    grind [Guarded.step, fails, calls, Trips, ResilientAdapter.fetch,
      CircuitBreaker.allowsRequest, CircuitBreaker.recordSuccess, Except.toBool]
  | error e =>
    cases e <;>
    grind [Guarded.step, fails, calls, Trips, ResilientAdapter.fetch, Raised.isAdapterError,
      CircuitBreaker.allowsRequest, CircuitBreaker.recordFailure, Except.toBool]

/-- Calls after the time that counts are no constraint. -/
theorem quiet_of_late (hlate : u ≤ t) (htimed : Timed t cs) : Quiet py u x cs := by
  induction cs generalizing t x with
  | nil => trivial
  | cons c rest ih =>
    obtain ⟨hnow, hfailed, hrest⟩ := htimed
    exact ⟨by grind, ih (by grind) hrest⟩

/-- An open circuit lets nothing through before its timeout. -/
theorem quiet_of_opened (hstate : x.source.breaker.state = .opened) (htimed : Timed t cs) :
    Quiet py (x.source.breaker.openedAt + x.source.breaker.resetTimeoutSeconds) x cs := by
  induction cs generalizing t with
  | nil => trivial
  | cons c rest ih =>
    obtain ⟨-, hfailed, hrest⟩ := htimed
    by_cases hnow : c.now < x.source.breaker.openedAt + x.source.breaker.resetTimeoutSeconds
    · have hshut : x.source.breaker.allowsRequest c.now = (false, x.source.breaker) := by
        grind [CircuitBreaker.allowsRequest]
      have hsame : x.step py c = x := by
        simp [step, fails, calls, ResilientAdapter.fetch, hshut]
      exact ⟨fun _ => congrArg Prod.fst hshut, hsame.symm ▸ ih hrest⟩
    · exact ⟨fun h => absurd h hnow, quiet_of_late (by grind) hrest⟩

/-- **A whole run** in which the breaker is told of every failure. -/
theorem Told.protected (h : Told x) (htimed : Timed t cs) (hhonest : x.Honest py cs) :
    Protected py x cs := by
  induction cs generalizing t x with
  | nil => trivial
  | cons c rest ih =>
    obtain ⟨htold, hreset, htrips⟩ := h.step c hhonest.1
    refine ⟨fun htrip => ?_, htold.decided, ih htold htimed.2.2 hhonest.2⟩
    obtain ⟨hopened, hopenedAt⟩ := htrips htrip
    rw [← hreset, ← hopenedAt]
    exact quiet_of_opened hopened htimed.2.2

end Guarded

/-- A source as `wrap_with_breakers` guards it. -/
def CircuitSettings.guard (settings : CircuitSettings) (adapter : SourceAdapter) : Guarded where
  source := {
    adapter
    breaker := {
      failureThreshold := settings.failureThreshold
      resetTimeoutSeconds := settings.resetTimeoutSeconds
      name := adapter.sourceId } }

/-- A circuit of one failure and a minute. -/
def minuteCircuit : Guarded :=
  CircuitSettings.guard ⟨1, 60, by decide, by decide +kernel⟩ (.custom "wire")

/-- A call at a time to which the provider raises. -/
def failingAt (now : Rat) (e : Raised) : TimedFetch :=
  ⟨now, now, { firstDayProvider with custom := .error e }⟩

end Ingestion
