import FeedAnalyzer.CompleteRun
import FeedAnalyzer.GatewayTypes

/-!
# The browser adapter

An adapter sends the prompt of a request through a transport and reads the
completion out of the answer; an answer that fails validation gets one repair round.
The last part asks whether the flag `submitted` of the result can be trusted.
-/

namespace Gateway

open Transact Proc

variable {observed : Option String} {reports : List BrowserResult}

/-- The transport, with the clock and the identifiers it draws. -/
structure Transport (I : Interface) where
  loopTime : Proc I Raised Int
  uuid4 : Proc I Raised Uuid
  command : String → Context → CommandId → Option String → Proc I Raised BrowserResult

/-- How a body is rendered, and what is read out of an answer, with a flag for a refusal.
`none` is no envelope, or one that fails the schema. -/
structure Formatting (B M : Type) where
  render : B → Bool → String
  envelope : String → B → Option (M × Bool)

/-- Read a completion out of an answer. -/
def Formatting.parse {B M : Type} (F : Formatting B M) (text : String) (body : B)
    (provider : String) (observedModel : Option String) : Except GatewayError (Result M) :=
  match F.envelope text body with
  | none => .error ⟨"Browser output failed validation", 502, "invalid_output", none⟩
  | some (message, refusal) =>
    .ok {
      body := .completion (provider ++ "-web" ++
        (match observedModel with
          | some model => if model = "" then "" else ":" ++ model
          | none => "")) message
      httpStatus := 200
      status := if refusal then .refused else .success
      submitted := some true }

section Adapter

variable {I : Interface} {B M : Type}

/-- The time left until the deadline, by the event loop's clock. -/
def remaining (loopTime : Proc I Raised Int) (context : Context) : Proc I Raised Int := do
  let now ← loopTime
  return max 0 (context.deadline - now)

variable (T : Transport I) (F : Formatting B M)

/-- Probe the page of a provider. -/
def BrowserAdapter.ready (name : String) (context : Context) : Proc I Raised BrowserResult := do
  let draw ← T.uuid4
  T.command name context (.probe draw) none

/-- The result of a request whose command did not succeed. -/
def commandFailure (result : BrowserResult) : Result M :=
  { (failure result.status result.submitted : Result M) with resetAt := result.resetAt }

/-- The rounds of `execute`, the one without repair first. -/
def BrowserAdapter.rounds (name : String) (body : B) (context : Context) (attempt : Uuid) :
    List Bool → Proc I Raised (Result M)
  | [] => .fail (.other "Unreachable")
  | repair :: rest => do
    let left ← remaining T.loopTime context
    if left ≤ 0 then
      return failure .temporary
    let result ← T.command name context (if repair then .repair attempt else .first attempt)
      (some (F.render body repair))
    if result.status ≠ .success then
      return commandFailure result
    match F.parse result.text body name result.observedModel with
    | .ok completion => return completion
    | .error _ =>
      if repair then
        return failure .invalidOutput (some true)
      else
        BrowserAdapter.rounds name body context attempt rest

/-- Send the prompt, and once more when the first answer fails validation. -/
def BrowserAdapter.execute (name : String) (body : B) (context : Context) (attempt : Uuid) :
    Proc I Raised (Result M) :=
  BrowserAdapter.rounds T F name body context attempt [false, true]

end Adapter

/-- The calls of an adapter on its transport. -/
inductive WireCall where
  | loopTime
  | uuid4
  | command (provider : String) (context : Context) (id : CommandId) (prompt : Option String)

/-- The answers to them. -/
abbrev WireCall.Ret : WireCall → Type
  | .loopTime => Int
  | .uuid4 => Uuid
  | .command .. => BrowserResult

/-- The transport as an interface. -/
abbrev Wire : Interface := ⟨WireCall, WireCall.Ret⟩

/-- The transport whose operations are the calls of the interface. -/
def Wire.transport : Transport Wire where
  loopTime := Proc.perform (I := Wire) .loopTime
  uuid4 := Proc.perform (I := Wire) .uuid4
  command provider context id prompt :=
    Proc.perform (I := Wire) (.command provider context id prompt)

/-- One round's clock and browser answer. -/
structure Answer where
  time : Int
  draw : Uuid := 0
  report : Except Raised BrowserResult

/-- Answers from a sequence of rounds; the store lists the reports so far. -/
def wire : Handler Wire (List BrowserResult) (Nat → Answer) Raised
  | answers, .loopTime, reports => (.ok (answers reports.length).time, reports)
  | answers, .uuid4, reports => (.ok (answers reports.length).draw, reports)
  | answers, .command .., reports =>
    match (answers reports.length).report with
    | .ok report => (.ok report, reports ++ [report])
    | .error e => (.error e, reports)

variable {B M : Type} (F : Formatting B M) (name : String) (body : B) (context : Context)
  (attempt : Uuid)

/-- What a run returns or raises, and the reports of its commands. -/
abbrev Outcome (M : Type) := Except Raised (Result M) × List BrowserResult

/-- Run an adapter against a sequence of answers. -/
def executeWith (answers : Nat → Answer) : Outcome M :=
  (BrowserAdapter.execute Wire.transport F name body context attempt).finish wire answers []

/-- **The flag covers every command.**  A result says that nothing was submitted only if
every command has said so. -/
def SubmissionReported (outcome : Outcome M) : Prop :=
  ∀ result, outcome.1 = .ok result → result.submitted = some false →
    ∀ report ∈ outcome.2, report.submitted = some false

/-- The first prompt was or may have been submitted, its answer fails validation, and the
repair round ends before anything is sent. -/
def RepairForgets (answers : Nat → Answer) : Prop :=
  (answers 0).time < context.deadline ∧
    ∃ first, (answers 0).report = .ok first ∧ first.status = .success ∧
      first.submitted ≠ some false ∧ F.envelope first.text body = none ∧
      (context.deadline ≤ (answers 1).time ∨
        ∃ second, (answers 1).report = .ok second ∧ second.status ≠ .success ∧
          second.submitted = some false)

/-- One round, with what follows an answer that fails validation. -/
def roundWith (answers : Nat → Answer) (rejected : List BrowserResult → Outcome M)
    (reports : List BrowserResult) : Outcome M :=
  if context.deadline ≤ (answers reports.length).time then
    (.ok (failure .temporary), reports)
  else
    match (answers reports.length).report with
    | .error e => (.error e, reports)
    | .ok report =>
      if report.status = .success then
        match F.parse report.text body name report.observedModel with
        | .ok completion => (.ok completion, reports ++ [report])
        | .error _ => rejected (reports ++ [report])
      else
        (.ok (commandFailure report), reports ++ [report])

variable {F name body context attempt} {result : Result M} {text : String}

theorem parse_error {e : GatewayError} (hparse : F.parse text body name observed = .error e) :
    F.envelope text body = none := by
  unfold Formatting.parse at hparse
  cases henvelope : F.envelope text body with
  | none => rfl
  | some envelope => simp [henvelope] at hparse

theorem parse_ok (hparse : F.parse text body name observed = .ok result) :
    F.envelope text body ≠ none ∧ result.submitted = some true := by
  unfold Formatting.parse at hparse
  cases henvelope : F.envelope text body with
  | none => simp [henvelope] at hparse
  | some envelope =>
    simp only [henvelope, Except.ok.injEq] at hparse
    exact ⟨Option.some_ne_none envelope, by rw [← hparse]⟩

variable (answers : Nat → Answer)

/-- One round, then the rest. -/
theorem finish_rounds (repair : Bool) (rest : List Bool) (reports : List BrowserResult) :
    (BrowserAdapter.rounds Wire.transport F name body context attempt
        (repair :: rest)).finish wire answers reports =
      roundWith F name body context answers (fun reports =>
        if repair then (.ok (failure .invalidOutput (some true)), reports)
        else (BrowserAdapter.rounds Wire.transport F name body context attempt
          rest).finish wire answers reports) reports := by
  have hleft : max 0 (context.deadline - (answers reports.length).time) ≤ 0 ↔
      context.deadline ≤ (answers reports.length).time := by omega
  have hremaining : (remaining Wire.transport.loopTime context).finish wire answers reports =
      (.ok (max 0 (context.deadline - (answers reports.length).time)), reports) := rfl
  rw [BrowserAdapter.rounds, bind_eq, finish_bind_ok hremaining]
  unfold roundWith
  by_cases hlate : context.deadline ≤ (answers reports.length).time
  · rw [if_pos (hleft.mpr hlate), if_pos hlate]
    rfl
  · rw [if_neg (fun h => hlate (hleft.mp h)), if_neg hlate, bind_eq]
    cases hreport : (answers reports.length).report with
    | error e =>
      have hraises : ∀ id prompt, (Wire.transport.command name context id prompt).finish wire
          answers reports = (.error e, reports) := by
        intro id prompt
        exact (finish_call _ reports).trans (by simp only [wire, hreport])
      rw [finish_bind_error (hraises _ _)]
    | ok report =>
      have hreports : ∀ id prompt, (Wire.transport.command name context id prompt).finish wire
          answers reports = (.ok report, reports ++ [report]) := by
        intro id prompt
        exact (finish_call _ reports).trans (by simp only [wire, hreport])
      rw [finish_bind_ok (hreports _ _)]
      by_cases hstatus : report.status = .success
      · simp only [hstatus, ne_eq, not_true_eq_false, if_false, if_true]
        cases hparse : F.parse report.text body name report.observedModel with
        | ok completion => rfl
        | error e =>
          cases repair with
          | _ => rfl
      · simp only [hstatus, ne_eq, not_false_eq_true, if_false, if_true]
        rfl

theorem submissionReported_ok : SubmissionReported (.ok result, reports) ↔
      (result.submitted = some false → ∀ report ∈ reports, report.submitted = some false) := by
  constructor
  · intro hreported
    exact hreported result rfl
  · intro hcovers result' hresult
    cases hresult
    exact hcovers

theorem submissionReported_roundWith {answers : Nat → Answer}
    {rejected : List BrowserResult → Outcome M} :
    SubmissionReported (roundWith F name body context answers rejected reports) ↔
      (context.deadline ≤ (answers reports.length).time →
        ∀ earlier ∈ reports, earlier.submitted = some false) ∧
      ((answers reports.length).time < context.deadline →
        ∀ report, (answers reports.length).report = .ok report →
          (report.status ≠ .success → report.submitted = some false →
            ∀ earlier ∈ reports, earlier.submitted = some false) ∧
          (report.status = .success → F.envelope report.text body = none →
            SubmissionReported (rejected (reports ++ [report])))) := by
  unfold roundWith
  by_cases hlate : context.deadline ≤ (answers reports.length).time
  · have hnot : ¬ (answers reports.length).time < context.deadline := by omega
    simp [hlate, hnot, submissionReported_ok]
  · have htime : (answers reports.length).time < context.deadline := by omega
    simp only [hlate, htime, if_false, false_implies, true_and, true_implies]
    cases hreport : (answers reports.length).report with
    | error e => simp [SubmissionReported]
    | ok report =>
      by_cases hstatus : report.status = .success
      · simp only [hstatus, if_true]
        cases hparse : F.parse report.text body name report.observedModel with
        | ok completion =>
          simp [hstatus, submissionReported_ok, parse_ok hparse]
        | error e => simp [hstatus, parse_error hparse]
      · have hflag : (commandFailure report : Result M).submitted = report.submitted := rfl
        simp only [hstatus, if_false, submissionReported_ok, hflag]
        grind

/-- **When the flag can be trusted.**  `submitted = False` covers every command of the
attempt exactly when, after a first prompt that was or may have been submitted, the repair
round does not end before its own prompt is sent. -/
theorem BrowserAdapter.submissionReported_iff (answers : Nat → Answer) :
    SubmissionReported (executeWith F name body context attempt answers) ↔
      ¬ RepairForgets F body context answers := by
  unfold executeWith BrowserAdapter.execute
  simp only [finish_rounds, Bool.false_eq_true, if_false, if_true]
  rw [submissionReported_roundWith]
  simp only [submissionReported_roundWith, submissionReported_ok]
  constructor
  · rintro ⟨_, hround⟩ ⟨htime, first, hfirst, hstatus, hsubmitted, hrejected, hends⟩
    obtain ⟨hdeadline, hrepair⟩ := (hround htime first hfirst).2 hstatus hrejected
    rcases hends with hlate | ⟨second, hsecond, hfails, hnothing⟩
    · exact hsubmitted (hdeadline hlate first (by simp))
    · by_cases hlate : context.deadline ≤ (answers 1).time
      · exact hsubmitted (hdeadline hlate first (by simp))
      · have hintime : (answers 1).time < context.deadline := Int.not_le.mp hlate
        exact hsubmitted ((hrepair hintime second hsecond).1 hfails hnothing first (by simp))
  · intro hkept
    refine ⟨by simp, fun htime first hfirst => ⟨by simp, fun hstatus hrejected => ?_⟩⟩
    have hcovers : (context.deadline ≤ (answers 1).time ∨
        ∃ second, (answers 1).report = .ok second ∧ second.status ≠ .success ∧
          second.submitted = some false) →
        ∀ earlier ∈ [first], earlier.submitted = some false := by
      intro hends earlier hmem
      obtain rfl : earlier = first := by simpa using hmem
      by_cases hsubmitted : earlier.submitted = some false
      · exact hsubmitted
      · exact absurd ⟨htime, earlier, hfirst, hstatus, hsubmitted, hrejected, hends⟩ hkept
    refine ⟨fun hlate => hcovers (Or.inl hlate), fun _ second hsecond => ⟨?_, by simp⟩⟩
    intro hfails hnothing
    exact hcovers (Or.inr ⟨second, hsecond, hfails, hnothing⟩)

/-- A protocol in which a final answer is the text `final`. -/
def plainFormatting : Formatting Unit String where
  render _ repair := if repair then "again" else "prompt"
  envelope text _ := if text = "final" then some (text, false) else none

/-- An answer in prose. -/
def proseReport : BrowserResult :=
  { status := .success, text := "prose", submitted := some true }

/-- Prose just before the deadline; the repair round begins after it. -/
def proseAtDeadline : Nat → Answer
  | 0 => { time := 170, report := .ok proseReport }
  | _ => { time := 181, report := .error .timeout }

/-- **The flag forgets the first prompt.**  The result says that nothing was submitted,
though the one command issued had reported its prompt as submitted. -/
theorem deadline_forgets_submission :
    let outcome := executeWith plainFormatting "chatgpt" () ⟨"r1", 180, "default", ["text"], 0⟩ 7
      proseAtDeadline
    outcome = (.ok (failure .temporary), [proseReport]) ∧
      (failure .temporary : Result String).retrySafe ∧
      proseReport.submitted = some true ∧ ¬ SubmissionReported outcome := by
  intro outcome
  have houtcome : outcome = (.ok (failure .temporary), [proseReport]) := rfl
  refine ⟨houtcome, rfl, rfl, ?_⟩
  rw [houtcome, submissionReported_ok]
  intro hcovers
  have hfirst := hcovers rfl proseReport (by simp)
  cases hfirst

end Gateway
