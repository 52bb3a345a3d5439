import FeedAnalyzer.PredictionPipeline

/-!
# What one Prediction call can do

The transactions inverted, and one case lemma for the state of a context
(`handle_state_cases`).
-/

namespace Prediction

open Feed Transact Calendar List Store Table PredictionRow

variable {reg : Registry}

namespace Store

variable {s s' : Store reg} {row : ContextRow} {contextId fresh : Uuid} {event : ContextEvent}
  {windowStart windowEnd : Int} {tie : Uuid → Nat} {locked : Uuid → Bool} {graceMinutes : Nat}
  {claimed : List (ContextRecord reg)}

def stateOf (s : Store reg) (contextId : Uuid) : Option ContextState :=
  (s.contexts.find? contextId).map ContextRow.state

theorem stateOf_of_mem (hrow : row ∈ s.contexts) : s.stateOf row.contextId = some row.state :=
  column_of_mem hrow

theorem stateOf_of_contexts (hsame : s'.contexts = s.contexts) (contextId : Uuid) :
    s'.stateOf contextId = s.stateOf contextId := by
  rw [stateOf, hsame, stateOf]

theorem has_of_stateOf {state : ContextState} (hstate : s.stateOf contextId = some state) :
    s.contexts.has contextId := by
  obtain ⟨row, hrow, _⟩ := Option.map_eq_some_iff.mp hstate
  obtain ⟨hmem, hid⟩ := find?_eq_some_iff.mp hrow
  exact has_eq_true_iff.mpr ⟨row, hmem, hid⟩

theorem stateOf_setState (s : Store reg) (target : Uuid) (state : ContextState) (contextId : Uuid) :
    (s.setStateWhere (fun row => row.contextId = target) state).stateOf contextId =
      if contextId = target then (s.stateOf contextId).map fun _ => state
      else s.stateOf contextId :=
  s.contexts.column_updateKey (fun row => row.contextId_withState state)
    (fun row => row.state_withState state) target contextId

theorem insertContext_eq_ok (hok : s.insertContext row = .ok s') :
    s'.members = s.members ∧ s'.predictions = s.predictions ∧ s'.outbox = s.outbox ∧
      ((s' = s ∧ ∃ r ∈ s.contexts, r.version = row.version) ∨
       (s.contexts.has row.contextId = false ∧ s'.contexts = s.contexts.insertNew row ∧
        ∀ r ∈ s.contexts, r.version ≠ row.version)) := by
  unfold insertContext at hok
  split at hok
  · next hversion =>
    cases hok
    obtain ⟨r, hr, hv⟩ := any_eq_true.mp hversion
    exact ⟨rfl, rfl, rfl, Or.inl ⟨rfl, r, hr, of_decide_eq_true hv⟩⟩
  · next hversion =>
    split at hok
    · cases hok
    · next hfresh =>
      cases hok
      refine ⟨rfl, rfl, rfl, Or.inr ⟨by simpa using hfresh, rfl, ?_⟩⟩
      intro r hr heq
      exact hversion (any_eq_true.mpr ⟨r, hr, decide_eq_true heq⟩)

theorem insertMember_eq_ok (hok : s.insertMember contextId event = .ok s') :
    s.contexts.has contextId ∧ s'.contexts = s.contexts ∧
      s'.members = s.members.insertNew ⟨contextId, event⟩ ∧
      s'.predictions = s.predictions ∧ s'.outbox = s.outbox := by
  unfold insertMember at hok
  split at hok
  · cases hok
  · next hhas =>
    cases hok
    exact ⟨by simpa using hhas, rfl, rfl, rfl, rfl⟩

/-- Predictions and the outbox are the same. -/
structure SamePredictions (s s' : Store reg) : Prop where
  predictions : s'.predictions = s.predictions
  outbox : s'.outbox = s.outbox

/-- A context is opened, or no state changes. -/
def OpensOnly (s s' : Store reg) : Prop :=
  ∀ contextId, s'.stateOf contextId = s.stateOf contextId ∨
    (s.stateOf contextId = none ∧ s'.stateOf contextId = some .opened)

theorem insertContext_opensOnly (hok : s.insertContext row = .ok s') (hopen : row.state = .opened) :
    s.OpensOnly s' := by
  intro contextId
  obtain ⟨_, _, _, ⟨rfl, _⟩ | ⟨hfresh, hcontexts, _⟩⟩ := insertContext_eq_ok hok
  · exact Or.inl rfl
  · have hstate : s'.stateOf contextId = _ :=
      (congrArg (fun t => (t.find? contextId).map ContextRow.state) hcontexts).trans
        (column_insertNew hfresh contextId)
    by_cases hid : contextId = row.contextId
    · have hnone : s.contexts.find? contextId = none := by
        rw [hid]
        exact find?_eq_none_iff.mpr (has_eq_false_iff.mp hfresh)
      refine Or.inr ⟨by simp [stateOf, hnone], ?_⟩
      rw [hstate, if_pos hid, hopen]
    · exact Or.inl (hstate.trans (if_neg hid))

variable {target source : Uuid} {assetId : String} {seenAt now : Int} {assetId : AssetId reg}
  {u : Unit}

theorem carryMembers_eq_ok (hok : s.carryMembers target source = .ok s') :
    s'.contexts = s.contexts ∧ s.SamePredictions s' ∧
      (∀ k, s.members.has k → s'.members.has k) ∧
      ∀ event ∈ s.membersOf source, s'.members.has (target, event.eventId) := by
  unfold carryMembers at hok
  generalize s.membersOf source = events at hok ⊢
  induction events generalizing s with
  | nil =>
    cases hok
    exact ⟨rfl, ⟨rfl, rfl⟩, fun _ hk => hk, fun _ hevent => by cases hevent⟩
  | cons event rest ih =>
    rw [foldlM_cons] at hok
    cases hfirst : s.insertMember target event with
    | error e => simp [hfirst, bind, Except.bind] at hok
    | ok s₁ =>
      simp only [hfirst, bind, Except.bind] at hok
      obtain ⟨_, hcontexts, hmembers, hpredictions, houtbox⟩ := insertMember_eq_ok hfirst
      obtain ⟨hcontexts', hsame, hkept, hcarried⟩ := ih hok
      refine ⟨hcontexts'.trans hcontexts, ⟨hsame.predictions.trans hpredictions,
        hsame.outbox.trans houtbox⟩, fun k hk => ?_, fun event' hevent' => ?_⟩
      · apply hkept
        rw [hmembers]
        exact has_insertNew_of_has hk
      · rcases mem_cons.mp hevent' with rfl | hmem
        · apply hkept
          rw [hmembers]
          exact has_insertNew_self s.members ⟨target, event'⟩
        · exact hcarried event' hmem

theorem carryMembers_only (hok : s.carryMembers target source = .ok s') {k : Uuid × Uuid}
    (hk : s'.members.has k) : s.members.has k ∨ k.1 = target := by
  refine foldlM_ok_invariant (P := fun t : Store reg => t.members.has k →
    s.members.has k ∨ k.1 = target) (fun t event t' hinsert ht hk' => ?_) Or.inl hok hk
  obtain ⟨_, _, hmembers, _⟩ := insertMember_eq_ok hinsert
  rw [hmembers, has_insertNew] at hk'
  rcases Bool.or_eq_true_iff.mp hk' with hold | hnew
  · exact ht hold
  · exact Or.inr (congrArg Prod.fst (of_decide_eq_true hnew).symm)

/-- The latest version is joined, the first one is started, or the next one succeeds a
closed one and inherits its members. -/
inductive Opening (fresh : Uuid) (assetId : String) (seenAt windowStart windowEnd : Int)
    (s : Store reg) : Uuid → Store reg → Prop
  | joined {latest : ContextRow} (hlatest : s.latestContext assetId windowStart = some latest)
      (hjoinable : latest.state.joinable = true) :
      Opening fresh assetId seenAt windowStart windowEnd s latest.contextId
        (s.setWatermark latest.contextId seenAt)
  | started {s₁ : Store reg} (hnone : s.latestContext assetId windowStart = none)
      (hinsert : s.insertContext ⟨fresh, assetId, windowStart, windowEnd, 1, .opened, seenAt⟩ =
        .ok s₁) :
      Opening fresh assetId seenAt windowStart windowEnd s fresh s₁
  | succeeded {latest : ContextRow} {s₁ s₂ : Store reg}
      (hlatest : s.latestContext assetId windowStart = some latest)
      (hclosed : latest.state.joinable = false)
      (hinsert : s.insertContext ⟨fresh, assetId, windowStart, windowEnd,
        latest.contextVersion + 1, .opened, seenAt⟩ = .ok s₁)
      (hcarry : s₁.carryMembers fresh latest.contextId = .ok s₂) :
      Opening fresh assetId seenAt windowStart windowEnd s fresh s₂

/-- What a successful opening writes. -/
theorem openContext_eq_ok
    (hok : s.openContext fresh assetId seenAt windowStart windowEnd = .ok (contextId, s')) :
    Opening fresh assetId seenAt windowStart windowEnd s contextId s' := by
  unfold openContext at hok
  split at hok
  · next hnone =>
    cases hinsert : s.insertContext
        ⟨fresh, assetId, windowStart, windowEnd, 1, .opened, seenAt⟩ with
    | error e => simp [hinsert, bind, Except.bind] at hok
    | ok s₁ =>
      simp only [hinsert, bind, Except.bind, Except.ok.injEq, Prod.mk.injEq] at hok
      obtain ⟨rfl, rfl⟩ := hok
      exact .started hnone hinsert
  · next latest hlatest =>
    split at hok
    · next hjoinable =>
      cases hok
      exact .joined hlatest hjoinable
    · next hclosed =>
      cases hinsert : s.insertContext ⟨fresh, assetId, windowStart, windowEnd,
          latest.contextVersion + 1, .opened, seenAt⟩ with
      | error e => simp [hinsert, bind, Except.bind] at hok
      | ok s₁ =>
        cases hcarry : s₁.carryMembers fresh latest.contextId with
        | error e => simp [hinsert, hcarry, bind, Except.bind] at hok
        | ok s₂ =>
          simp only [hinsert, hcarry, bind, Except.bind, Except.ok.injEq, Prod.mk.injEq] at hok
          obtain ⟨rfl, rfl⟩ := hok
          exact .succeeded hlatest (by simpa using hclosed) hinsert hcarry

section

variable (hok : s.assignEvent fresh assetId event windowStart windowEnd = .ok (u, s'))

include hok

theorem assignEvent_eq_ok :
    ∃ contextId s₁,
      Opening fresh assetId.value event.firstSeenAt windowStart windowEnd s contextId s₁ ∧
      s₁.insertMember contextId event = .ok s' := by
  unfold assignEvent at hok
  cases hopen : s.openContext fresh assetId.value event.firstSeenAt windowStart windowEnd with
  | error e => simp [hopen, bind, Except.bind] at hok
  | ok opened =>
    obtain ⟨contextId, s₁⟩ := opened
    simp only [hopen, bind, Except.bind] at hok
    cases hmember : s₁.insertMember contextId event with
    | error e => simp [hmember] at hok
    | ok s₂ =>
      simp only [hmember, Except.ok.injEq, Prod.mk.injEq] at hok
      obtain ⟨_, rfl⟩ := hok
      exact ⟨contextId, s₁, openContext_eq_ok hopen, hmember⟩

omit hok in
theorem Opening.opensOnly
    (hopening : Opening fresh assetId seenAt windowStart windowEnd s contextId s') :
    s.OpensOnly s' ∧ s.SamePredictions s' := by
  cases hopening with
  | joined hlatest hjoinable =>
    exact ⟨fun c => Or.inl (s.contexts.column_update_other _
      (fun row => row.contextId_withWatermark seenAt) (fun _ => rfl) c), rfl, rfl⟩
  | started hnone hinsert =>
    obtain ⟨_, hpredictions, houtbox, _⟩ := insertContext_eq_ok hinsert
    exact ⟨insertContext_opensOnly hinsert rfl, hpredictions, houtbox⟩
  | succeeded hlatest hclosed hinsert hcarry =>
    obtain ⟨_, hpredictions, houtbox, _⟩ := insertContext_eq_ok hinsert
    obtain ⟨hcontexts, hsame, _, _⟩ := carryMembers_eq_ok hcarry
    refine ⟨fun c => ?_, hsame.predictions.trans hpredictions, hsame.outbox.trans houtbox⟩
    rw [stateOf_of_contexts hcontexts]
    exact insertContext_opensOnly hinsert rfl c

/-- Assigning an event opens a context, or changes no state. -/
theorem assignEvent_opensOnly : s.OpensOnly s' ∧ s.SamePredictions s' := by
  obtain ⟨contextId, s₁, hopening, hmember⟩ := assignEvent_eq_ok hok
  obtain ⟨hopens, hsame⟩ := hopening.opensOnly
  obtain ⟨_, hcontexts, _, hpredictions, houtbox⟩ := insertMember_eq_ok hmember
  refine ⟨fun c => ?_, hpredictions.trans hsame.predictions, houtbox.trans hsame.outbox⟩
  rw [stateOf_of_contexts hcontexts]
  exact hopens c

end

theorem recordOf_eq_ok {record : ContextRecord reg} (hok : recordOf row = .ok record) :
    record.contextId = row.contextId ∧ record.assetId.value = row.assetId ∧
      record.contextVersion = row.contextVersion ∧ record.windowStart = row.windowStart := by
  unfold recordOf at hok
  split at hok
  · cases hok
  · cases hok
  · next assetId hparse =>
    cases hok
    exact ⟨rfl, AssetId.parse_eq_ok_iff.mp hparse, rfl, rfl⟩

section

variable (hok : s.claimReadyContexts tie locked now graceMinutes = .ok (claimed, s'))

include hok

/-- The claimed contexts are distinct due ones, and they are `PREDICTING`
now. -/
theorem claimReadyContexts_eq_ok :
    (claimed.map ContextRecord.contextId).Nodup ∧
      (∀ record ∈ claimed, ∃ row ∈ s.contexts, recordOf row = .ok record ∧
        dueAt (now - graceMinutes * microsPerMinute) row) ∧
      (∀ contextId, s'.stateOf contextId =
        if contextId ∈ claimed.map ContextRecord.contextId then some .predicting
        else s.stateOf contextId) ∧
      (∀ contextId, contextId ∉ claimed.map ContextRecord.contextId →
        s'.contexts.find? contextId = s.contexts.find? contextId) ∧
      s.SamePredictions s' ∧ ∃ p, s' = s.setStateWhere p .predicting := by
  unfold claimReadyContexts at hok
  generalize hrows : s.dueContexts tie locked (now - graceMinutes * microsPerMinute) = rows at hok
  cases hmap : rows.mapM (@recordOf reg) with
  | error e => simp [hmap, bind, Except.bind] at hok
  | ok records =>
    simp only [hmap, bind, Except.bind, Except.ok.injEq, Prod.mk.injEq] at hok
    obtain ⟨rfl, rfl⟩ := hok
    have hids : records.map ContextRecord.contextId = rows.map ContextRow.contextId :=
      map_of_mapM_ok (fun _ _ hread => (recordOf_eq_ok hread).1) hmap
    have hdue : ∀ row ∈ rows, row ∈ s.contexts ∧
        dueAt (now - graceMinutes * microsPerMinute) row := by
      intro row hrow
      rw [← hrows] at hrow
      obtain ⟨hmem, hselected⟩ := mem_of_mem_selectOrdered hrow
      exact ⟨hmem, by simp at hselected; exact hselected.1⟩
    rw [hids]
    refine ⟨?_, ?_, ?_, ?_, ⟨rfl, rfl⟩, _, rfl⟩
    · rw [← hrows]
      exact nodup_map_selectOrdered s.contexts.nodup
    · intro record hrecord
      obtain ⟨row, hrow, hread⟩ := exists_of_mapM_ok hmap hrecord
      exact ⟨row, (hdue row hrow).1, hread, (hdue row hrow).2⟩
    · exact column_updateBatch (fun row hrow => (hdue row hrow).1)
        (fun row => row.contextId_withState .predicting)
        fun row => row.state_withState .predicting
    · intro contextId hnot
      refine find?_updateWhere_of_not (fun row => row.contextId_withState .predicting)
        fun row _ hid => ?_
      refine any_eq_false.mpr fun r hr hr' => hnot (mem_map.mpr ⟨r, hr, ?_⟩)
      exact (of_decide_eq_true hr').trans hid

theorem stateOf_of_claimed (hmem : contextId ∈ claimed.map ContextRecord.contextId) :
    ∃ state, s.stateOf contextId = some state ∧ state.joinable := by
  obtain ⟨record, hrecord, rfl⟩ := mem_map.mp hmem
  obtain ⟨row, hrow, hread, hdue⟩ := (claimReadyContexts_eq_ok hok).2.1 record hrecord
  refine ⟨row.state, ?_, ?_⟩
  · rw [(recordOf_eq_ok hread).1, stateOf_of_mem hrow]
  · simp only [dueAt, decide_eq_true_eq] at hdue
    exact hdue.1

end

theorem withdrawSuperseded_frame (withdraws : Bool) (superseded : Option Uuid) (s : Store reg) :
    (s.withdrawSuperseded withdraws superseded).contexts = s.contexts ∧
      (s.withdrawSuperseded withdraws superseded).members = s.members ∧
      (s.withdrawSuperseded withdraws superseded).outbox = s.outbox := by
  unfold withdrawSuperseded
  split
  · exact ⟨rfl, rfl, rfl⟩
  · exact ⟨rfl, rfl, rfl⟩

theorem predictions_withdrawSuperseded (withdraws : Bool) (superseded : Option Uuid)
    (s : Store reg) :
    (s.withdrawSuperseded withdraws superseded).predictions =
      s.predictions.updateWhere (fun row => withdraws ∧
        superseded = some row.predictionId ∧ row.status = .pending) withdrawn
        predictionId_withdrawn := by
  unfold withdrawSuperseded
  split
  · next target => simp [withdraw, eq_comm]
  · next hnot =>
    symm
    refine updateWhere_of_forall_not _ fun row _ => ?_
    rw [decide_eq_false_iff_not]
    rintro ⟨hwithdraws, hsuperseded, _⟩
    exact hnot row.predictionId hwithdraws hsuperseded

/-- What a successful store writes. -/
theorem storePredictionWithOutbox_eq_ok {message : PredictionMade reg} {key : IdempotencyKey}
    {withdraws : Bool} {stored : Bool}
    (hok : s.storePredictionWithOutbox message key withdraws = .ok (stored, s')) :
    s'.contexts = (s.setStateWhere (fun row => row.contextId = message.contextId)
      .predicted).contexts ∧ s'.members = s.members ∧
    (∀ row ∈ s'.outbox, row ∈ s.outbox ∨ row.payload = message) ∧
    ((stored = false ∧ s.SamePredictions s' ∧ ∃ row ∈ s.predictions, row.idempotencyKey = key) ∨
     (stored ∧ (∀ row ∈ s.predictions, row.idempotencyKey ≠ key) ∧
      s.predictions.has message.predictionId = false ∧
      s.contexts.has message.contextId ∧
      s'.predictions = (s.predictions.insertNew (predictionRow message key)).updateWhere
        (fun row => withdraws ∧ message.supersedesPredictionId = some row.predictionId ∧
          row.status = .pending) withdrawn
        predictionId_withdrawn)) := by
  unfold storePredictionWithOutbox at hok
  split at hok
  · next hkey =>
    cases hok
    obtain ⟨row, hrow, heq⟩ := any_eq_true.mp hkey
    exact ⟨rfl, rfl, fun _ => Or.inl, Or.inl ⟨rfl, ⟨rfl, rfl⟩, row, hrow, of_decide_eq_true heq⟩⟩
  next hkey =>
    split at hok
    · cases hok
    split at hok
    · cases hok
    split at hok
    · cases hok
    next hfresh hcontext hmessage =>
      obtain ⟨rfl, rfl⟩ := hok
      refine ⟨?_, ?_, fun row hrow => ?_,
        Or.inr ⟨rfl, ?_, by simpa using hfresh, by simpa using hcontext, ?_⟩⟩
      · simp only [setStateWhere, (withdrawSuperseded_frame _ _ _).1]
      · exact (withdrawSuperseded_frame _ _ _).2.1
      · simp only [setStateWhere] at hrow
        rw [(withdrawSuperseded_frame _ _ _).2.2,
          mem_insertNew_of_fresh (by simpa using hmessage)] at hrow
        exact hrow.imp_right (congrArg OutboxRow.payload)
      · intro row hrow heq
        exact hkey (any_eq_true.mpr ⟨row, hrow, decide_eq_true heq⟩)
      · exact predictions_withdrawSuperseded _ _ _

/-- A prediction with new ids of a known context is stored, or was known
already. -/
theorem storePredictionWithOutbox_ok (message : PredictionMade reg) (key : IdempotencyKey)
    (withdraws : Bool) (hprediction : s.predictions.has message.predictionId = false)
    (hcontext : s.contexts.has message.contextId)
    (hmessage : s.outbox.has message.messageId = false) :
    ∃ result, s.storePredictionWithOutbox message key withdraws = .ok result := by
  unfold storePredictionWithOutbox
  split
  · exact ⟨_, rfl⟩
  · simp [hprediction, hcontext, hmessage]

end Store

variable {tz : TimeZones}

theorem handle_eq_error {w : Answer reg} {c : Call reg} {s : Store reg} {e : PredictionError}
    (herror : (handle tz w c s).1 = .error e) : (handle tz w c s).2 = s := by
  cases c with
  | recentCloses | recordEvent | capture | currentTime | newPrediction => rfl
  | _ => exact (commit_eq_error herror).1

/-- The calls that may write contexts, memberships or predictions. -/
def Call.writes : Call reg → Bool
  | .assignEvent _ _ _ _ => true
  | .claimReadyContexts _ _ => true
  | .setContextState _ _ => true
  | .storePredictionWithOutbox _ _ _ => true
  | _ => false

theorem handle_frame (tz : TimeZones) (w : Answer reg) (c : Call reg) (s : Store reg)
    (hc : c.writes = false) : (handle tz w c s).2 = s := by
  cases c with
  | assignEvent | claimReadyContexts | setContextState | storePredictionWithOutbox => cases hc
  | recentCloses | recordEvent | capture | currentTime | newPrediction => rfl
  | countPredictionsOn assetId localDate timezoneName =>
    refine commit_rule (Q := fun s' => s' = s) rfl fun a s' hok => ?_
    unfold countPredictionsOn at hok
    split at hok
    · cases hok
    · cases hok
      rfl
  | _ =>
    refine commit_rule (Q := fun s' => s' = s) rfl fun a s' hok => ?_
    cases hok
    rfl

/-- The call stores a prediction of the context or sets its state. -/
def Call.Touches (contextId : Uuid) : Call reg → Prop
  | .setContextState target _ => target = contextId
  | .storePredictionWithOutbox message _ _ => message.contextId = contextId
  | _ => False

def Call.written : Call reg → ContextState
  | .setContextState _ state => state
  | _ => .predicted

/-- The call adds an event to a window. -/
def Call.Assigns : Call reg → Prop
  | .assignEvent _ _ _ _ => True
  | _ => False

def Call.Claimed (contextId : Uuid) : (c : Call reg) → c.Ret → Prop
  | .claimReadyContexts _ _, claimed => contextId ∈ claimed.map ContextRecord.contextId
  | _, _ => False

/-- One call leaves a context, opens or claims it, or ends the work on it. -/
theorem handle_state_cases (tz : TimeZones) (contextId : Uuid) (w : Answer reg) (c : Call reg)
    (s : Store reg) :
    (handle tz w c s).2.stateOf contextId = s.stateOf contextId ∨
    (c.Assigns ∧ s.stateOf contextId = none ∧
      (handle tz w c s).2.stateOf contextId = some .opened) ∨
    ((∃ a, (handle tz w c s).1 = .ok a ∧ c.Claimed contextId a) ∧
      (∃ state, s.stateOf contextId = some state ∧ state.joinable) ∧
      (handle tz w c s).2.stateOf contextId = some .predicting) ∨
    (c.Touches contextId ∧ (∃ a, (handle tz w c s).1 = .ok a) ∧
      (handle tz w c s).2.stateOf contextId = (s.stateOf contextId).map (fun _ => c.written)) := by
  cases hres : (handle tz w c s).1 with
  | error e => exact Or.inl (by rw [handle_eq_error hres])
  | ok a =>
    cases c with
    | assignEvent assetId event windowStart windowEnd =>
      rcases (assignEvent_opensOnly (commit_eq_ok hres).2).1 contextId with
        hsame | hopened
      · exact Or.inl hsame
      · exact Or.inr (Or.inl ⟨trivial, hopened⟩)
    | claimReadyContexts now graceMinutes =>
      have hclaim := (commit_eq_ok hres).2
      have hstate := (claimReadyContexts_eq_ok hclaim).2.2.1 contextId
      by_cases hmem : contextId ∈ a.map ContextRecord.contextId
      · exact Or.inr (Or.inr (Or.inl ⟨⟨a, rfl, hmem⟩, stateOf_of_claimed hclaim hmem,
          hstate.trans (if_pos hmem)⟩))
      · exact Or.inl (hstate.trans (if_neg hmem))
    | setContextState target state =>
      have hset := (commit_eq_ok hres).2
      simp only [setContextState, Except.ok.injEq, Prod.mk.injEq] at hset
      have hstate : (handle tz w (.setContextState target state) s).2.stateOf contextId = _ :=
        (congrArg (fun s' => s'.stateOf contextId) hset.2.symm).trans
          (s.stateOf_setState target state contextId)
      by_cases hid : contextId = target
      · exact Or.inr (Or.inr (Or.inr ⟨hid.symm, ⟨a, rfl⟩, hstate.trans (if_pos hid)⟩))
      · exact Or.inl (hstate.trans (if_neg hid))
    | storePredictionWithOutbox message key withdraws =>
      have hstate := (stateOf_of_contexts
        (storePredictionWithOutbox_eq_ok (commit_eq_ok hres).2).1 contextId).trans
        (s.stateOf_setState message.contextId .predicted contextId)
      by_cases hid : contextId = message.contextId
      · exact Or.inr (Or.inr (Or.inr ⟨hid.symm, ⟨a, rfl⟩, hstate.trans (if_pos hid)⟩))
      · exact Or.inl (hstate.trans (if_neg hid))
    | _ => exact Or.inl (by rw [handle_frame tz w _ s rfl])

end Prediction
