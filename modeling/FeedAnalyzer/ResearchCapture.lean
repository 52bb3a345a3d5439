import FeedAnalyzer.PredictionPipeline
import FeedAnalyzer.QuietRun

/-!
# Research capture

The recorder bounds and swallows whatever the evidence store does.  Every run with capture
is matched, step by step, by a run without it that leaves the same contexts, predictions
and outbox (`capture_changes_nothing`).
-/

namespace Prediction

open Feed Transact Calendar Proc Call

variable {reg : Registry}

/-- What the evidence store, or building the snapshot, can end with. -/
inductive EvidenceError where
  | timeout
  | raised (message : String)
  deriving DecidableEq

structure EventEvidence where
  eventId : Uuid
  contentHash : String
  payload : String
  receivedAt : Int

inductive EvidenceQuality where
  | valid
  | invalidInput
  deriving DecidableEq

structure CapturedOpportunity (reg : Registry) where
  contextId : Uuid
  contextVersion : Nat
  assetId : AssetId reg
  cutoff : Int
  snapshot : String
  snapshotHash : String
  quality : EvidenceQuality
  resultStatus : String
  result : String

inductive EvidenceCall (reg : Registry) where
  | recordEvent (event : EventDetected reg)
  | loadEvents (eventIds : List Uuid) (cutoff : Int)
  | save (opportunity : CapturedOpportunity reg)

@[reducible] def EvidenceCall.Ret : EvidenceCall reg → Type
  | .recordEvent _ => Unit
  | .loadEvents _ _ => List EventEvidence
  | .save _ => Bool

@[reducible] def EvidenceStore (reg : Registry) : Interface where
  Call := EvidenceCall reg
  Ret := EvidenceCall.Ret

/-- What a decision was made from. -/
structure Observed (reg : Registry) where
  record : ContextRecord reg
  events : List ContextEvent
  edges : List (FiringEdge reg)
  elevated : Bool
  decision : Option Decision
  cutoff : Int
  graphFailed : Bool := false

/-- How evidence is frozen, which may raise. -/
abbrev BuildOpportunity (reg : Registry) : Type :=
  Observed reg → List EventEvidence → Except String (CapturedOpportunity reg)

structure ResearchRecorder where
  captured : Nat := 0
  failures : Nat := 0
  invalid : Nat := 0
  lastSuccessAt : Option Int := none

namespace ResearchRecorder

variable (r : ResearchRecorder)

def failed : ResearchRecorder := { r with failures := r.failures + 1 }

def saved (quality : EvidenceQuality) : ResearchRecorder :=
  { r with
    captured := r.captured + 1
    invalid := r.invalid + (if quality = .invalidInput then 1 else 0) }

def recordEvent (event : EventDetected reg) :
    Proc (EvidenceStore reg) EvidenceError ResearchRecorder :=
  ((Proc.perform (I := EvidenceStore reg) (.recordEvent event)).bind fun _ => .ret r).catchWith
    fun _ => .ret r.failed

/-- Load the receipts of the events, freeze them and save the result. -/
def capture (build : BuildOpportunity reg) (now : Int) (observed : Observed reg) :
    Proc (EvidenceStore reg) EvidenceError ResearchRecorder :=
  Proc.catchWith (fun _ => .ret r.failed) do
    let evidence ← Proc.perform (I := EvidenceStore reg)
      (.loadEvents (observed.events.map ContextEvent.eventId) observed.cutoff)
    match build observed evidence with
    | .error message => .fail (.raised message)
    | .ok opportunity =>
      let inserted ← Proc.perform (I := EvidenceStore reg) (.save opportunity)
      let r := if inserted then r.saved opportunity.quality else r
      pure { r with lastSuccessAt := some now }

end ResearchRecorder

/-- The answer to the pipeline, what the recorder is asked to keep, and how the evidence
store takes each of its calls. -/
structure ResearchAnswer (reg : Registry) where
  answer : Answer reg
  event : EventDetected reg
  observed : Observed reg
  evidence : (c : EvidenceCall reg) → Except EvidenceError c.Ret

def handleEvidence : Handler (EvidenceStore reg) Unit (ResearchAnswer reg) EvidenceError :=
  fun w c s => (w.evidence c, s)

/-- The recorder's part in a call of the pipeline. -/
def ResearchRecorder.serve (build : BuildOpportunity reg) (w : ResearchAnswer reg)
    (r : ResearchRecorder) : Call reg → Except EvidenceError ResearchRecorder
  | .recordEvent _ => ((r.recordEvent w.event).finish handleEvidence w ()).1
  | .capture _ => ((r.capture build w.answer.now w.observed).finish handleEvidence w ()).1
  | _ => .ok r

/-- Run one call.  What the recorder raises, its caller gets. -/
def handleResearch (tz : TimeZones) (build : BuildOpportunity reg) :
    Handler (Surroundings reg) (Store reg × ResearchRecorder) (ResearchAnswer reg)
      PredictionError :=
  fun w c s =>
    match s.2.serve build w c with
    | .error .timeout => (.error (.unexpected "timeout"), s)
    | .error (.raised message) => (.error (.unexpected message), s)
    | .ok r => ((handle tz w.answer c s.1).1, (handle tz w.answer c s.1).2, r)

theorem finish_swallowed {I : Interface} {σ ω ε α : Type} (h : Handler I σ ω ε) (w : ω)
    (p : Proc I ε α) (a : α) (s : σ) :
    ∃ b, ((p.catchWith fun _ => .ret a).finish h w s).1 = .ok b := by
  induction p generalizing s with
  | ret b => exact ⟨b, rfl⟩
  | fail e => exact ⟨a, rfl⟩
  | call c next ih => exact ih _ _

/-- **The recorder never raises.** -/
theorem ResearchRecorder.serve_returns (build : BuildOpportunity reg) (w : ResearchAnswer reg)
    (r : ResearchRecorder) (c : Call reg) : ∃ r', r.serve build w c = .ok r' := by
  cases c with
  | recordEvent | capture => exact finish_swallowed _ _ _ _ _
  | _ => exact ⟨r, rfl⟩

theorem handleResearch_eq (tz : TimeZones) (build : BuildOpportunity reg) (w : ResearchAnswer reg)
    (c : Call reg) (s : Store reg × ResearchRecorder) :
    ∃ r, handleResearch tz build w c s =
      ((handle tz w.answer c s.1).1, (handle tz w.answer c s.1).2, r) := by
  obtain ⟨r, hr⟩ := s.2.serve_returns build w c
  exact ⟨r, by simp only [handleResearch, hr]⟩

/-- The calls of the recorder. -/
def Call.Researches : Call reg → Prop
  | .recordEvent _ => True
  | .capture _ => True
  | _ => False

namespace PredictionPipeline

variable (P : PredictionPipeline)

/-- The pipeline with capture switched on or off. -/
def withResearch (research : Bool) : PredictionPipeline := { P with research := research }

theorem capture_erases (contextId : Uuid) :
    ((P.withResearch true).capture contextId : Service reg Unit).Erases
      Researches ((P.withResearch false).capture contextId) :=
  Or.inl ⟨trivial, fun _ => rfl⟩

variable (record : ContextRecord reg)

theorem edgesOrDefer_erases (events : List ContextEvent) (elevated : Bool) :
    ((P.withResearch true).edgesOrDefer record events elevated).Erases Researches
      ((P.withResearch false).edgesOrDefer record events elevated) := by
  refine (Erases.refl _).catchWith fun e => ?_
  cases e with
  | graph message => exact (P.capture_erases _).bind fun _ => Erases.refl _
  | _ => exact Erases.refl _

variable (research : Bool)

theorem settings_withResearch : (P.withResearch research).settings = P.settings := rfl

variable (now : Int)

theorem closeInferred_erases (events : List ContextEvent) (elevated : Bool)
    (edges : List (FiringEdge reg)) (st : SweepState reg) :
    ((P.withResearch true).closeInferred record now events elevated edges st).Erases
      Researches ((P.withResearch false).closeInferred record now events elevated edges st) := by
  simp only [closeInferred, settings_withResearch]
  cases Prediction.decide P.settings.policy record.assetId edges (polarityByType events)
      elevated with
  | error e => exact Erases.refl _
  | ok decision =>
    cases decision with
    | _ => exact (P.capture_erases _).bind fun _ => Erases.refl _

theorem closeRecords_erases (records : List (ContextRecord reg)) (st : SweepState reg) :
    ((P.withResearch true).closeRecords now records st).Erases Researches
      ((P.withResearch false).closeRecords now records st) := by
  induction records generalizing st with
  | nil => exact Erases.refl _
  | cons record rest ih =>
    refine Erases.bind ?_ fun st => ih st
    refine (Erases.refl _).bind fun events => (Erases.refl _).bind fun closes => ?_
    refine (P.edgesOrDefer_erases record events _).bind fun found => ?_
    cases found with
    | none => exact Erases.refl _
    | some edges => exact P.closeInferred_erases record now events _ edges st

theorem decideTargets_withResearch (events : List ContextEvent) (depth : Nat)
    (inbound : Inbound reg) (stored : List (PassEntry reg)) :
    (P.withResearch research).decideTargets record now events depth inbound stored =
      P.decideTargets record now events depth inbound stored := by
  induction inbound generalizing stored with
  | nil => rfl
  | cons entry rest ih =>
    simp only [decideTargets, settings_withResearch, ih]
    rfl

theorem propagateLevels_withResearch (events : List ContextEvent) (left depth : Nat)
    (pass : List (PassEntry reg)) (visited : List (AssetId reg)) (produced : Nat) :
    (P.withResearch research).propagateLevels record now events left depth pass visited produced =
      P.propagateLevels record now events left depth pass visited produced := by
  induction left generalizing depth pass visited produced with
  | zero => rfl
  | succ left ih => simp only [propagateLevels, decideTargets_withResearch, ih]

theorem propagateDeferred_withResearch (directAssets : List (AssetId reg))
    (ds : List (Deferred reg)) (produced : Nat) :
    (P.withResearch research).propagateDeferred now directAssets ds produced =
      P.propagateDeferred now directAssets ds produced := by
  induction ds generalizing produced with
  | nil => rfl
  | cons d rest ih =>
    simp only [propagateDeferred, propagateRecord, runPropagation, settings_withResearch,
      propagateLevels_withResearch, ih]

theorem perform_erases (job : Job reg) : ((P.withResearch true).perform job).Erases Researches
      ((P.withResearch false).perform job) := by
  cases job with
  | event message =>
    refine Erases.bind ?_ fun _ => Erases.refl _
    refine Erases.bind ?_ fun _ => Erases.refl _
    exact Or.inl ⟨trivial, fun _ => rfl⟩
  | closeSweep =>
    refine (Erases.refl _).bind fun now => (Erases.refl _).bind fun claimed => ?_
    refine (P.closeRecords_erases now claimed {}).bind fun st => ?_
    rw [propagateDeferred_withResearch, propagateDeferred_withResearch]
    exact Erases.refl _

end PredictionPipeline

/-- **Capture changes nothing.**  Every run with capture, whatever the evidence store does,
is matched by one without, in which the same work is started and the same calls get the same
answers: at every step, both have the same contexts, predictions and outbox. -/
theorem capture_changes_nothing (P : PredictionPipeline) (build : BuildOpportunity reg)
    (s : Store reg) (r : ResearchRecorder) (acts : Nat → Action (Job reg) (ResearchAnswer reg)) :
    ∃ acts', Follows (handleResearch P.tz build) (handle P.tz) (P.withResearch true).perform
        (P.withResearch false).perform Call.Researches ResearchAnswer.answer ⟨(s, r), []⟩ ⟨s, []⟩
        acts acts' ∧
      ∀ n, (configAt (handle P.tz) (P.withResearch false).perform ⟨s, []⟩ acts' n).store =
        (configAt (handleResearch P.tz build) (P.withResearch true).perform ⟨(s, r), []⟩ acts
          n).store.1 := by
  refine @erased_run (Surroundings reg) _ _ _ _ _ _ _ Researches Prod.fst
    ResearchAnswer.answer _ _ _ _ ?_ ?_ P.perform_erases (s, r) acts
  · intro w c s
    obtain ⟨r', hstep⟩ := handleResearch_eq P.tz build w c s
    rw [hstep]
  · intro w c s hc
    obtain ⟨r', hstep⟩ := handleResearch_eq P.tz build w c s
    rw [hstep]
    cases c with
    | recordEvent | capture => exact ⟨⟨(), rfl⟩, rfl⟩
    | _ => cases hc

end Prediction
