import FeedAnalyzer.JobHistory
import FeedAnalyzer.StanceRules

/-!
# Runs of the Prediction service

`SweepKeeps` asks that a property is kept by the two things the work on a claimed batch does
to the tables, and `closeClaimed_maintains` walks through the sweep once and for all.
`run_invariant` lifts a property to every list of jobs.
-/

namespace Prediction

open Feed Transact Calendar PredictionPipeline Proc List Store

variable {reg : Registry}

/-- A claimed record, or one re-targeted by propagation. -/
def OfBatch (claimed : List (ContextRecord reg)) (record : ContextRecord reg) (depth : Nat) :
    Prop :=
  (depth = 0 ∧ record ∈ claimed) ∨
    (0 < depth ∧ ∃ source ∈ claimed, ∃ target, record = proxyRecord source target)

/-- What a property has to withstand to be kept by a sweep. -/
structure SweepKeeps (P : PredictionPipeline) (A : Answer reg → Call reg → Store reg → Prop)
    (Inv : Store reg → Prop) (now : Int) (claimed : List (ContextRecord reg)) : Prop where
  set : ∀ {s : Store reg} {record : ContextRecord reg} {state : ContextState},
    record ∈ claimed → state = .predicted ∨ state = .errorRetryable → Inv s →
      Inv (s.setStateWhere (fun row => row.contextId = record.contextId) state)
  store : ∀ {s s' : Store reg} {record : ContextRecord reg} {decision : Decision} {depth : Nat}
    {active : Option PredictionRow} {marketOpen stored : Bool}, OfBatch claimed record depth →
      P.StanceRead (fun w c x => A w c x.1) record.assetId now s active marketOpen →
      P.StoreOutcome record decision now depth active marketOpen s stored s' →
      (stored = true → WriteAdmitted (fun w c x => A w c x.1) record.assetId s active
        marketOpen) → Inv s → Inv s'

section Sweep

variable {P : PredictionPipeline} {A : Answer reg → Call reg → Store reg → Prop}
  {Inv : Store reg → Prop} {now : Int} {claimed : List (ContextRecord reg)}

theorem maintains_read {c : Call reg} (hc : c.writes = false) :
    (ask c).Maintains (handle P.tz) A Inv := by
  refine maintains_call fun w s _ hs => ?_
  rw [handle_frame P.tz w c s hc]
  exact hs

theorem capture_maintains (contextId : Uuid) :
    (P.capture contextId : Service reg Unit).Maintains
      (handle P.tz) A Inv := by
  unfold capture
  split
  · exact maintains_read rfl
  · exact maintains_ret _

theorem firingEdges_maintains (assetId : AssetId reg) (elevated : Bool)
    (types : List (EventType × List ConditionCode)) (edges : List (FiringEdge reg)) :
    (firingEdges assetId elevated types edges).Maintains (handle P.tz) A Inv := by
  induction types generalizing edges with
  | nil => exact maintains_ret _
  | cons entry rest ih => exact (maintains_read rfl).bind fun fired => ih _

theorem collectInbound_maintains (visited : List (AssetId reg)) (pass : List (PassEntry reg))
    (inbound : Inbound reg) :
    (collectInbound visited pass inbound).Maintains (handle P.tz) A Inv := by
  induction pass generalizing inbound with
  | nil => exact maintains_ret _
  | cons entry rest ih =>
    refine Maintains.bind ((maintains_read rfl).catchWith fun e => ?_) fun edges => ih _
    cases e with
    | graph message => exact maintains_ret _
    | _ => exact maintains_fail _

section Keeps

variable (hkeeps : SweepKeeps P A Inv now claimed)
variable {record : ContextRecord reg}

include hkeeps

theorem set_maintains (hrecord : record ∈ claimed) {state : ContextState}
    (hstate : state = .predicted ∨ state = .errorRetryable) :
    (ask (.setContextState record.contextId state)).Maintains (handle P.tz) A Inv := by
  refine maintains_call fun w s _ hs => ?_
  exact commit_done hs rfl (hkeeps.set hrecord hstate hs)

variable {depth : Nat} {source : ContextRecord reg}

theorem storePrediction_maintains (hbatch : OfBatch claimed record depth) (decision : Decision)
    (events : List ContextEvent) (chain : Chain reg) :
    (P.storePrediction record decision now events depth chain).Maintains (handle P.tz) A Inv := by
  intro s hs
  refine Meets.of_logged none (((storePrediction_meets record decision now events depth
    chain).mono_cut ?_).mono ?_)
  · rintro x rfl
    exact hs
  · rintro (e | stored) y ⟨herror, hok⟩
    · have hsame : y.1 = s := herror e rfl
      rw [hsame]
      exact hs
    · obtain ⟨active, marketOpen, hread, houtcome, hwritten⟩ := hok stored rfl
      exact hkeeps.store hbatch hread houtcome hwritten hs

theorem decideTargets_maintains (hsource : source ∈ claimed) (events : List ContextEvent)
    (hdepth : 0 < depth) (inbound : Inbound reg) (stored : List (PassEntry reg)) :
    (P.decideTargets source now events depth inbound stored).Maintains (handle P.tz) A Inv := by
  induction inbound generalizing stored with
  | nil => exact maintains_ret _
  | cons entry rest ih =>
    unfold decideTargets
    split
    · exact maintains_fail _
    · exact ih stored
    split
    · exact ih stored
    have hproxy : OfBatch claimed (proxyRecord source entry.1) depth :=
      Or.inr ⟨hdepth, source, hsource, entry.1, rfl⟩
    refine Maintains.bind (storePrediction_maintains hkeeps hproxy _ _ _) fun kept => ?_
    split
    · exact ih _
    · exact ih stored

theorem propagateLevels_maintains (hsource : source ∈ claimed) (events : List ContextEvent)
    (left depth : Nat) (pass : List (PassEntry reg)) (visited : List (AssetId reg)) (produced : Nat) :
    (P.propagateLevels source now events left depth pass visited produced).Maintains
      (handle P.tz) A Inv := by
  induction left generalizing depth pass visited produced with
  | zero => exact maintains_ret _
  | succ left ih =>
    unfold propagateLevels
    split
    · exact maintains_ret _
    refine (collectInbound_maintains visited pass []).bind fun inbound => ?_
    refine Maintains.bind (decideTargets_maintains hkeeps hsource events (Nat.succ_pos depth)
      inbound []) fun stored => ih _ _ _ _

theorem propagateDeferred_maintains (directAssets : List (AssetId reg)) {ds : List (Deferred reg)}
    (hds : ∀ d ∈ ds, d.record ∈ claimed) (produced : Nat) :
    (P.propagateDeferred now directAssets ds produced).Maintains (handle P.tz) A Inv := by
  induction ds generalizing produced with
  | nil => exact maintains_ret _
  | cons d rest ih =>
    have hd := hds d mem_cons_self
    refine Maintains.bind ?_ fun stored => Maintains.bind
      (set_maintains hkeeps hd (Or.inl rfl)) fun _ =>
        ih (fun d' hd' => hds d' (mem_cons_of_mem d hd')) _
    unfold propagateRecord
    split
    · exact maintains_ret _
    · exact propagateLevels_maintains hkeeps hd _ _ _ _ _ _

theorem edgesOrDefer_maintains (hrecord : record ∈ claimed) (events : List ContextEvent)
    (elevated : Bool) : (P.edgesOrDefer record events elevated).Maintains (handle P.tz) A Inv := by
  refine Maintains.catchWith
    ((firingEdges_maintains _ _ _ _).bind fun edges => maintains_ret _) fun e => ?_
  cases e with
  | graph message =>
    refine (capture_maintains record.contextId).bind fun _ => ?_
    exact (set_maintains hkeeps hrecord (Or.inr rfl)).bind fun _ => maintains_ret _
  | _ => exact maintains_fail _

theorem closeRecord_maintains (hrecord : record ∈ claimed) (st : SweepState reg) :
    (P.closeRecord now record st).Maintains (handle P.tz) A Inv := by
  have hset := set_maintains hkeeps hrecord (Or.inl rfl)
  refine (maintains_read rfl).bind fun events => (maintains_read rfl).bind fun closes => ?_
  refine Maintains.bind (edgesOrDefer_maintains hkeeps hrecord events _) fun found => ?_
  cases found with
  | none => exact maintains_ret _
  | some edges =>
    dsimp only
    unfold closeInferred
    split
    · exact maintains_fail _
    · exact (capture_maintains _).bind fun _ => hset.bind fun _ => maintains_ret _
    refine (capture_maintains _).bind fun _ => ?_
    have hdirect : OfBatch claimed record 0 := Or.inl ⟨rfl, hrecord⟩
    refine Maintains.bind (storePrediction_maintains hkeeps hdirect _ _ _) fun stored => ?_
    dsimp only
    split
    · exact hset.bind fun _ => maintains_ret _
    · exact maintains_ret _

theorem closeRecords_maintains {records : List (ContextRecord reg)}
    (hrecords : ∀ record ∈ records, record ∈ claimed) (st : SweepState reg) :
    (P.closeRecords now records st).Maintains (handle P.tz) A Inv := by
  induction records generalizing st with
  | nil => exact maintains_ret _
  | cons record rest ih =>
    refine Maintains.bind
      (closeRecord_maintains hkeeps (hrecords record mem_cons_self) st) fun st' => ?_
    exact ih (fun r hr => hrecords r (mem_cons_of_mem record hr)) st'

/-- **The sweep rule.**  What ending a context and storing a decision keep, the
work on the batch keeps. -/
theorem closeClaimed_maintains : (P.closeClaimed now claimed).Maintains (handle P.tz) A Inv := by
  refine Maintains.bind_returns (closeRecords_maintains hkeeps (fun _ hrecord => hrecord) {})
    (closeRecords_returns (fun _ hrecord => hrecord) SweepState.over_empty) fun st hst => ?_
  exact propagateDeferred_maintains hkeeps st.directAssets hst st.produced

end Keeps

end Sweep

/-- The time of a sweep, which reads the clock first. -/
def sweepTime : Job reg × List (Answer reg) → Option Int
  | (.closeSweep, clock :: _) => some clock.now
  | _ => none

def sweepTimes (jobs : List (Job reg × List (Answer reg))) : List Int :=
  jobs.filterMap sweepTime

/-- A sweep from its claim on. -/
def claimAndClose (P : PredictionPipeline) (now : Int) : Service reg Nat :=
  (ask (.claimReadyContexts now P.settings.closeGraceMinutes)).bind (P.closeClaimed now)

variable {s : Store reg} {now : Int}

section Run

variable {P : PredictionPipeline} {A : Answer reg → Call reg → Store reg → Prop}
  {Inv : Int → Store reg → Prop}

/-- What a property has to withstand to hold in every run. -/
structure RunKeeps (P : PredictionPipeline) (A : Answer reg → Call reg → Store reg → Prop)
    (Inv : Int → Store reg → Prop) : Prop where
  mono : ∀ {t t' : Int} {s : Store reg}, t ≤ t' → Inv t s → Inv t' s
  assign : ∀ {t : Int} {s : Store reg} (w : Answer reg) (assetId : AssetId reg)
    (event : ContextEvent) (windowStart windowEnd : Int), Inv t s →
      Inv t (handle P.tz w (.assignEvent assetId event windowStart windowEnd) s).2
  sweep : ∀ now : Int, (claimAndClose P now).Maintains (handle P.tz) A (Inv now)

variable {t : Int} {jobs : List (Job reg × List (Answer reg))}

theorem RunKeeps.event (hkeeps : RunKeeps P A Inv) (message : EventDetected reg)
    (ws : List (Answer reg)) (hs : Inv t s) :
    Inv t ((P.perform (.event message)).advance (handle P.tz) ws s).2 := by
  refine (event_calls P message).advance_preserves (fun w c s hc hs => ?_) ws hs
  cases c with
  | assignEvent assetId event windowStart windowEnd => exact hkeeps.assign w _ _ _ _ hs
  | recordEvent eventId => exact hs
  | _ => exact absurd id hc

/-- **The run rule**, for answers as `A` admits and sweeps whose times do not decrease. -/
theorem run_invariant (hkeeps : RunKeeps P A Inv) (hs : Inv t s)
    (hfrom : ∀ x ∈ sweepTimes jobs, t ≤ x) (hsorted : (sweepTimes jobs).Pairwise (· ≤ ·))
    (hadmitted : JobsAdmitted (handle P.tz) P.perform A jobs s) (hle : t ≤ now)
    (hnow : ∀ x ∈ sweepTimes jobs, x ≤ now) : Inv now (runJobs (handle P.tz) P.perform jobs s) := by
  induction jobs generalizing t s with
  | nil => exact hkeeps.mono hle hs
  | cons entry rest ih =>
    obtain ⟨job, ws⟩ := entry
    obtain ⟨hfirst, hrest⟩ := hadmitted
    cases job with
    | event message => exact ih (hkeeps.event message ws hs) hfrom hsorted hrest hle hnow
    | closeSweep =>
      cases ws with
      | nil => exact ih hs hfrom hsorted hrest hle hnow
      | cons clock answers =>
        have hclock := hfrom clock.now mem_cons_self
        obtain ⟨hlater, hsorted'⟩ := pairwise_cons.mp hsorted
        refine ih (((hkeeps.sweep clock.now) s (hkeeps.mono hclock hs)).invariant hfirst.2)
          hlater hsorted' hrest (hnow clock.now mem_cons_self)
          fun x hx => hnow x (mem_cons_of_mem _ hx)

/-- A property that does not depend on the time holds in every run, whatever
the clock does. -/
theorem run_invariant_untimed {Always : Store reg → Prop}
    (hkeeps : RunKeeps P A (fun _ s => Always s)) (hs : Always s)
    (hadmitted : JobsAdmitted (handle P.tz) P.perform A jobs s) :
    Always (runJobs (handle P.tz) P.perform jobs s) := by
  induction jobs generalizing s with
  | nil => exact hs
  | cons entry rest ih =>
    obtain ⟨job, ws⟩ := entry
    obtain ⟨hfirst, hrest⟩ := hadmitted
    cases job with
    | event message => exact ih (hkeeps.event message ws (t := 0) hs) hrest
    | closeSweep =>
      cases ws with
      | nil => exact ih hs hrest
      | cons clock answers =>
        exact ih ((hkeeps.sweep clock.now s hs).invariant hfirst.2) hrest

end Run

variable {P : PredictionPipeline}

/-- A property of the predictions alone has to withstand only the stored
ones. -/
theorem runKeeps_of_predictions {A : Answer reg → Call reg → Store reg → Prop}
    (Inv : Int → Table PredictionRow.predictionId → Prop)
    (hmono : ∀ {t t' : Int} {predictions}, t ≤ t' → Inv t predictions → Inv t' predictions)
    (hstored : ∀ {now : Int} {s s' : Store reg} {record : ContextRecord reg}
      {decision : Decision} {depth : Nat} {active : Option PredictionRow} {marketOpen : Bool},
      P.StanceRead (fun w c x => A w c x.1) record.assetId now s active marketOpen →
      P.StoreOutcome record decision now depth active marketOpen s true s' →
      WriteAdmitted (fun w c x => A w c x.1) record.assetId s active marketOpen →
      Inv now s.predictions → Inv now s'.predictions) :
    RunKeeps P A (fun t (s : Store reg) => Inv t s.predictions) where
  mono := hmono
  assign w assetId event windowStart windowEnd hs := by
    refine commit_rule (Q := fun s' : Store reg => Inv _ s'.predictions) hs fun u s' hok => ?_
    rw [(assignEvent_opensOnly hok).2.predictions]
    exact hs
  sweep now := by
    intro s hs
    refine meets_perform hs (fun w claimed _ hok => ?_) fun w e _ herror => ?_
    · have hsame : s.SamePredictions
          (handle P.tz w (.claimReadyContexts now P.settings.closeGraceMinutes) s).2 :=
        (claimReadyContexts_eq_ok (commit_eq_ok hok).2).2.2.2.2.1
      refine closeClaimed_maintains ⟨fun _ _ hs => hs, ?_⟩ _ (by rw [hsame.predictions]; exact hs)
      intro s s' record decision depth active marketOpen stored _ hread houtcome hwritten hs
      cases stored with
      | true => exact hstored hread houtcome (hwritten rfl) hs
      | false =>
        cases houtcome with
        | duplicate hr hkey hsame hcontexts =>
          rw [hsame.predictions]
          exact hs
        | _ => exact hs
    · rw [handle_eq_error herror]
      exact hs

/-- A run from empty tables can be in the store at the time `now`. -/
def Reaches (P : PredictionPipeline) (now : Int) (s : Store reg) : Prop :=
  ∃ jobs : List (Job reg × List (Answer reg)), (sweepTimes jobs).Pairwise (· ≤ ·) ∧
    (∀ t ∈ sweepTimes jobs, t ≤ now) ∧ s = runJobs (handle P.tz) P.perform jobs ∅

theorem Reaches.invariant {Inv : Int → Store reg → Prop}
    (hkeeps : RunKeeps P (fun _ _ _ => True) Inv) (hempty : ∀ t, Inv t ∅)
    (hreached : Reaches P now s) : Inv now s := by
  obtain ⟨jobs, hsorted, hnow, rfl⟩ := hreached
  -- any time before the first sweep will do as a start
  obtain ⟨t, hfrom, hle⟩ : ∃ t, (∀ x ∈ sweepTimes jobs, t ≤ x) ∧ t ≤ now := by
    cases htimes : sweepTimes jobs with
    | nil => exact ⟨now, (fun x hx => by cases hx), Int.le_refl _⟩
    | cons first later =>
      rw [htimes] at hsorted hnow
      refine ⟨first, fun x hx => ?_, hnow first mem_cons_self⟩
      rcases mem_cons.mp hx with rfl | hx
      · exact Int.le_refl _
      · exact rel_of_pairwise_cons hsorted hx
  exact run_invariant hkeeps (hempty t) hfrom hsorted
    (jobsAdmitted_of_forall (fun _ _ _ => trivial) jobs ∅) hle hnow

def atHour (day hour : Int) : Int := day * microsPerDay + hour * 60 * microsPerMinute

/-- An event opens a context of gold. -/
def goldDelivery (contextId : Uuid) (seenAt : Int) : Job goldRegistry × List (Answer goldRegistry) :=
  (.event (goldEvent contextId seenAt), [{ contextId := contextId }])

/-- The answer to a call that only has to succeed. -/
def noFault : Answer goldRegistry := {}

/-- A price is found, and the day's predictions are counted. -/
def openMarket : List (Answer goldRegistry) := [{ closes := [1] }, noFault]

/-- One edge fires, the lookup prefers the lower `tie`, and the prediction gets its id. -/
def goldDecision (direction : Direction) (predictionId : Uuid) (market : List (Answer goldRegistry))
    (tie : Uuid → Nat := fun _ => 0) : List (Answer goldRegistry) :=
  [noFault, noFault, { edges := [goldEdge direction] }, { tie := tie }] ++ market ++
    [{ stamp := ⟨predictionId, predictionId, predictionId⟩ }, noFault]

/-- A sweep that decides some contexts, without correlations. -/
def goldSweep (now : Int) (decisions : List (List (Answer goldRegistry))) :
    Job goldRegistry × List (Answer goldRegistry) :=
  (.closeSweep, [{ now := now }, noFault] ++ decisions.flatten ++
    decisions.flatMap (fun _ => [noFault, noFault]))

def goldRun (jobs : List (Job goldRegistry × List (Answer goldRegistry))) : Store goldRegistry :=
  runJobs (handle utcPipeline.tz) utcPipeline.perform jobs ∅

end Prediction
