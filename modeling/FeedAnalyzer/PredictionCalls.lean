import FeedAnalyzer.PredictionEffects

/-!
# What the Prediction procedures can call

The work on claimed contexts sets the state of these contexts only, never back
to a state that is claimed, and each prediction it stores is dated with the
sweep's own time.
-/

namespace Prediction

open Feed Transact Calendar Proc List Table Avoids

variable {reg : Registry}

/-- The calls of the work on the claimed contexts `ids`. -/
def Call.OfClose (now : Int) (ids : List Uuid) : Call reg → Prop
  | .assignEvent _ _ _ _ => False
  | .claimReadyContexts _ _ => False
  | .setContextState target state => target ∈ ids ∧ state.joinable = false
  | .storePredictionWithOutbox message key withdraws =>
    message.contextId ∈ ids ∧ message.decisionAt = now ∧ key.assetId = message.assetId.value ∧
      withdraws = message.supersedesPredictionId.isSome
  | _ => True

variable {c : Call reg}

/-- The work on a batch leaves other contexts alone. -/
theorem handle_other_context (tz : TimeZones) {now : Int} {ids : List Uuid} (hc : c.OfClose now ids)
    {contextId : Uuid} (hnot : contextId ∉ ids) (w : Answer reg) (s : Store reg) :
    (handle tz w c s).2.contexts.find? contextId = s.contexts.find? contextId := by
  have hother : ∀ target ∈ ids, ∀ row ∈ s.contexts, row.contextId = contextId →
      Decidable.decide (row.contextId = target) = false := by
    intro target htarget row _ hid
    rw [decide_eq_false_iff_not, hid]
    rintro rfl
    exact hnot htarget
  cases c with
  | assignEvent | claimReadyContexts => exact hc.elim
  | setContextState target state =>
    refine commit_rule (Q := fun s' : Store reg =>
      s'.contexts.find? contextId = s.contexts.find? contextId)
      rfl fun a s' hok => ?_
    cases hok
    exact find?_updateWhere_of_not (fun row => row.contextId_withState state) (hother target hc.1)
  | storePredictionWithOutbox message key withdraws =>
    refine commit_rule (Q := fun s' : Store reg =>
      s'.contexts.find? contextId = s.contexts.find? contextId)
      rfl fun a s' hok => ?_
    rw [(Store.storePredictionWithOutbox_eq_ok hok).1]
    exact find?_updateWhere_of_not (fun row => row.contextId_withState .predicted)
      (hother message.contextId hc.1)
  | _ => rw [handle_frame tz w _ s rfl]

/-- Every call is one of the work on the claimed contexts. -/
def ClosesOnly {α : Type} (now : Int) (ids : List Uuid) (p : Service reg α) : Prop :=
  p.Avoids (fun c : Call reg => ¬ c.OfClose now ids)

section ClosesOnly

variable {α β : Type} {now : Int} {ids : List Uuid}

/-- One call of the work on a batch. -/
theorem closesOnly_ask {f : c.Ret → Service reg β} (hc : c.OfClose now ids)
    (hf : ∀ a, ClosesOnly now ids (f a)) : ClosesOnly now ids ((ask c).bind f) :=
  avoids_perform (fun hnot => hnot hc) hf

/-- Parts of the work follow one another. -/
theorem ClosesOnly.bind {p : Service reg α} {f : α → Service reg β} (hp : ClosesOnly now ids p)
    (hf : ∀ a, ClosesOnly now ids (f a)) : ClosesOnly now ids (p.bind f) :=
  Avoids.bind hp hf

end ClosesOnly

namespace PredictionPipeline

variable {P : PredictionPipeline} {now : Int} {ids : List Uuid} {record : ContextRecord reg}

/-! What a procedure avoids, given that it may read and may store what it
stores. -/

section Avoids

variable {Φ : Call reg → Prop} (hreads : ∀ c : Call reg, c.writes = false → ¬ Φ c)

include hreads

/-- Capture makes no writing call. -/
theorem capture_avoids (contextId : Uuid) : (P.capture contextId : Service reg Unit).Avoids Φ := by
  unfold capture
  split
  · exact ⟨hreads _ rfl, fun r => by cases r <;> trivial⟩
  · trivial

variable (assetId : AssetId reg)

/-- Asking for firing edges only reads. -/
theorem firingEdges_avoids (elevated : Bool) (types : List (EventType × List ConditionCode))
    (edges : List (FiringEdge reg)) : (firingEdges assetId elevated types edges).Avoids Φ := by
  induction types generalizing edges with
  | nil => trivial
  | cons entry rest ih =>
    exact avoids_perform (hreads _ rfl) fun fired => ih _

/-- Deferring only sets the state. -/
theorem deferInference_avoids (contextId : Uuid)
    (hset : ¬ Φ (.setContextState contextId .errorRetryable)) (e : PredictionError) :
    (P.deferInference contextId e).Avoids Φ := by
  cases e with
  | graph message =>
    refine (capture_avoids hreads contextId).bind fun _ => ?_
    exact avoids_perform hset fun _ => trivial
  | _ => trivial

omit hreads in
/-- Looking a zone up makes no call. -/
theorem marketZone_avoids (timezoneName : String) :
    (P.marketZone timezoneName : Service reg Zone).Avoids Φ := by
  unfold marketZone
  split
  · trivial
  · trivial

/-- The market check only reads. -/
theorem isMarketOpen_avoids (instant : Int) : (P.isMarketOpen assetId instant).Avoids Φ := by
  unfold isMarketOpen
  split
  · trivial
  · refine (marketZone_avoids _).bind fun z => ?_
    split
    · exact avoids_perform (hreads _ rfl) fun closes => trivial
    · trivial

/-- Counting the day's predictions only reads. -/
theorem withinDailyLimit_avoids (instant : Int) :
    (P.withinDailyLimit assetId instant).Avoids Φ := by
  unfold withinDailyLimit
  split
  · trivial
  · exact (marketZone_avoids _).bind fun z =>
      avoids_perform (hreads _ rfl) fun count => trivial

section Storing

variable {decision : Decision} {events : List ContextEvent} {depth : Nat}
  {chain : Chain reg}

/-- The one write is that of the prediction. -/
theorem storePrediction_avoids (hstore : ∀ supersedes stamp, ¬ Φ (.storePredictionWithOutbox
      (predictionMade record decision now events depth chain supersedes stamp)
      (idempotencyKey record depth) supersedes.isSome)) :
    (P.storePrediction record decision now events depth chain).Avoids Φ := by
  have hwrite : ∀ supersedes, (writePrediction record decision now events depth chain
      supersedes).Avoids Φ := fun supersedes =>
    avoids_perform (hreads _ rfl) fun stamp =>
      ⟨hstore supersedes stamp, fun r => by cases r <;> trivial⟩
  refine avoids_perform (hreads _ rfl) fun active => ?_
  refine (isMarketOpen_avoids hreads _ _).bind fun marketOpen => ?_
  split
  · trivial
  split
  · unfold storeIfTurned
    split
    · trivial
    · refine (withinDailyLimit_avoids hreads _ _).bind fun within => ?_
      split
      · exact hwrite none
      · trivial
  · exact hwrite _

/-- Collecting arrivals only reads. -/
theorem collectInbound_avoids (visited : List (AssetId reg)) (pass : List (PassEntry reg))
    (inbound : Inbound reg) : (collectInbound visited pass inbound).Avoids Φ := by
  induction pass generalizing inbound with
  | nil => trivial
  | cons entry rest ih =>
    refine Avoids.bind (catchWith ⟨hreads _ rfl, fun r => ?_⟩ fun e => ?_) fun edges => ih _
    · cases r <;> trivial
    · cases e <;> trivial

/-- Targets are written under their proxy records. -/
theorem decideTargets_avoids (hstore : ∀ target decision chain supersedes stamp,
      ¬ Φ (.storePredictionWithOutbox (predictionMade (proxyRecord record target) decision now
      events depth chain supersedes stamp) (idempotencyKey (proxyRecord record target) depth)
      supersedes.isSome)) (inbound : Inbound reg) (stored : List (PassEntry reg)) :
    (P.decideTargets record now events depth inbound stored).Avoids Φ := by
  induction inbound generalizing stored with
  | nil => trivial
  | cons entry rest ih =>
    unfold decideTargets
    split
    · trivial
    · exact ih stored
    · split
      · exact ih stored
      · refine Avoids.bind (storePrediction_avoids hreads (hstore _ _ _)) fun kept => ?_
        split
        · exact ih _
        · exact ih stored

/-- Every level writes predictions of some depth above 0. -/
theorem propagateLevels_avoids (hstore : ∀ target decision depth chain supersedes stamp, 0 < depth →
      ¬ Φ (.storePredictionWithOutbox (predictionMade (proxyRecord record target) decision now
      events depth chain supersedes stamp) (idempotencyKey (proxyRecord record target) depth)
      supersedes.isSome)) (left depth : Nat) (pass : List (PassEntry reg))
    (visited : List (AssetId reg)) (produced : Nat) :
    (P.propagateLevels record now events left depth pass visited produced).Avoids Φ := by
  induction left generalizing depth pass visited produced with
  | zero => trivial
  | succ left ih =>
    unfold propagateLevels
    split
    · trivial
    · refine (collectInbound_avoids hreads visited pass []).bind fun inbound => ?_
      refine Avoids.bind (decideTargets_avoids hreads (fun target decision chain supersedes
        stamp => hstore target decision (depth + 1) chain supersedes stamp (Nat.succ_pos depth))
        inbound []) fun stored => ih _ _ _ _

end Storing

end Avoids

/-- Reads are calls of the work on a batch. -/
theorem ofClose_of_reads (c : Call reg) (hc : c.writes = false) : ¬ ¬ c.OfClose now ids := by
  cases c <;> first | exact not_not.mpr trivial | cases hc

/-- The work on one record stays within its batch. -/
theorem closeRecord_calls (hid : record.contextId ∈ ids) (st : SweepState reg) :
    ClosesOnly now ids (P.closeRecord now record st) := by
  refine closesOnly_ask trivial fun events => closesOnly_ask trivial fun closes => ?_
  refine Avoids.bind (catchWith ?_ (deferInference_avoids ofClose_of_reads _
    (not_not.mpr ⟨hid, rfl⟩))) fun found => ?_
  · exact (firingEdges_avoids ofClose_of_reads _ _ _ _).bind fun edges => trivial
  cases found with
  | none => trivial
  | some edges =>
    dsimp only
    unfold closeInferred
    split
    · trivial
    · refine (capture_avoids ofClose_of_reads _).bind fun _ => ?_
      exact closesOnly_ask ⟨hid, rfl⟩ fun _ => trivial
    · refine (capture_avoids ofClose_of_reads _).bind fun _ => ?_
      refine (storePrediction_avoids ofClose_of_reads fun _ _ =>
        not_not.mpr ⟨hid, rfl, rfl, rfl⟩).bind fun stored => ?_
      dsimp only
      split
      · exact closesOnly_ask ⟨hid, rfl⟩ fun _ => trivial
      · trivial

/-- The waiting decisions are of records with the property `R`. -/
def SweepState.Over (R : ContextRecord reg → Prop) (st : SweepState reg) : Prop :=
  ∀ d ∈ st.deferred, R d.record

variable {records : List (ContextRecord reg)}

section Over

variable {R : ContextRecord reg → Prop} {st : SweepState reg}

/-- At first no decision waits. -/
theorem SweepState.over_empty : SweepState.Over R {} :=
  fun _ hd => absurd hd not_mem_nil

variable {record : ContextRecord reg}

/-- A decided record may wait for propagation. -/
theorem closeDecided_returns (hrecord : R record) (decision : Decision) (events : List ContextEvent)
    (hst : st.Over R) :
    (P.closeDecided record decision now events st).Returns (SweepState.Over R) := by
  refine Returns.bind (returns_true _) fun stored _ => ?_
  dsimp only
  split
  · exact returns_perform fun _ => hst
  · intro d hd
    rcases mem_append.mp hd with hold | hnew
    · exact hst d hold
    · rw [mem_singleton.mp hnew]
      exact hrecord

/-- What waits after a record is of known records. -/
theorem closeRecord_returns (hrecord : R record) (hst : st.Over R) :
    (P.closeRecord now record st).Returns (SweepState.Over R) := by
  refine returns_perform fun events => ?_
  refine returns_perform fun closes => ?_
  refine Returns.bind (returns_true _) fun found _ => ?_
  cases found with
  | none => exact hst
  | some edges =>
    dsimp only
    unfold closeInferred
    split
    · trivial
    · refine Returns.bind (returns_true _) fun _ _ => ?_
      exact returns_perform fun _ => hst
    · refine Returns.bind (returns_true _) fun _ _ => ?_
      exact closeDecided_returns hrecord _ events hst

/-- What waits after the first pass is of the batch. -/
theorem closeRecords_returns (hrecords : ∀ record ∈ records, R record) (hst : st.Over R) :
    (P.closeRecords now records st).Returns (SweepState.Over R) := by
  induction records generalizing st with
  | nil => exact hst
  | cons record rest ih =>
    refine (closeRecord_returns (hrecords record mem_cons_self) hst).bind fun st' hst' => ?_
    exact ih (fun r hr => hrecords r (mem_cons_of_mem record hr)) hst'

end Over

/-- The first pass stays within its batch. -/
theorem closeRecords_calls (hids : ∀ record ∈ records, record.contextId ∈ ids) (st : SweepState reg) :
    ClosesOnly now ids (P.closeRecords now records st) := by
  induction records generalizing st with
  | nil => trivial
  | cons record rest ih =>
    refine (closeRecord_calls (hids record mem_cons_self) st).bind fun st' => ?_
    exact ih (fun r hr => hids r (mem_cons_of_mem record hr)) st'

/-- So does the second. -/
theorem propagateDeferred_calls (directAssets : List (AssetId reg)) {ds : List (Deferred reg)}
    (hids : ∀ d ∈ ds, d.record.contextId ∈ ids) (produced : Nat) :
    ClosesOnly now ids (P.propagateDeferred now directAssets ds produced) := by
  induction ds generalizing produced with
  | nil => trivial
  | cons d rest ih =>
    have hid := hids d mem_cons_self
    refine ClosesOnly.bind ?_ fun stored => closesOnly_ask ⟨hid, rfl⟩ fun _ =>
      ih (fun d' hd' => hids d' (mem_cons_of_mem d hd')) _
    unfold propagateRecord
    split
    · trivial
    · exact propagateLevels_avoids ofClose_of_reads (fun _ _ _ _ _ _ _ =>
        not_not.mpr ⟨hid, rfl, rfl, rfl⟩) _ _ _ _ _

/-- **The calls of a sweep** are about what it claimed. -/
theorem closeClaimed_calls (claimed : List (ContextRecord reg)) :
    ClosesOnly now (claimed.map ContextRecord.contextId) (P.closeClaimed now claimed) := by
  have hids : ∀ record ∈ claimed, record.contextId ∈ claimed.map ContextRecord.contextId :=
    fun record hrecord => mem_map.mpr ⟨record, hrecord, rfl⟩
  refine bind_returns (closeRecords_calls hids {})
    (closeRecords_returns hids SweepState.over_empty) fun st hst => ?_
  exact propagateDeferred_calls st.directAssets hst st.produced

end PredictionPipeline

def Call.OfEvent : Call reg → Prop
  | .assignEvent _ _ _ _ => True
  | .recordEvent _ => True
  | _ => False

/-- **The calls for an event** record and assign it. -/
theorem event_calls (P : PredictionPipeline) (message : EventDetected reg) :
    (P.perform (.event message)).Avoids (fun c : Call reg => ¬ c.OfEvent) := by
  refine Avoids.bind (Avoids.bind ?_ fun _ => ?_) fun _ => trivial
  · unfold PredictionPipeline.recordEvent
    split
    · exact ⟨fun hnot => hnot trivial, fun r => by cases r <;> trivial⟩
    · trivial
  · generalize message.affectedAssetIds = assets
    induction assets with
    | nil => trivial
    | cons assetId rest ih =>
      exact avoids_perform (fun hnot => hnot trivial) fun _ => ih

end Prediction
