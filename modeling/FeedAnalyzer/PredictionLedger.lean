import FeedAnalyzer.ContextClosing
import FeedAnalyzer.InterleavedRun

/-!
# The ledger of predictions

What no interleaving of deliveries and sweeps brings about: a prediction without its
message, one withdrawn with nothing in its place, a context claimed twice.
-/

namespace Prediction

open Feed Transact Calendar List Store Table PredictionRow

variable {reg : Registry} {s s' : Store reg}

/-- What a row says of its prediction, whatever has become of it. -/
def PredictionRow.content (key : IdempotencyKey) (row : PredictionRow) : PredictionRow :=
  { row with idempotencyKey := key, status := .pending }

/-- Some row takes the place of the prediction. -/
def Superseded (rows : Table PredictionRow.predictionId) (predictionId : Uuid) : Prop :=
  ∃ row ∈ rows, row.supersedesPredictionId = some predictionId

/-- The outbox has the stored predictions, one by one, and what is withdrawn was superseded.
-/
structure Store.Announced (s : Store reg) : Prop where
  rows : ∀ key, s.predictions.rows.map (content key) =
    s.outbox.rows.map fun out => predictionRow out.payload key
  superseded : ∀ row ∈ s.predictions, row.status = .withdrawn →
    Superseded s.predictions row.predictionId

namespace Store.Announced

theorem of_same (h : s.Announced) (hsame : s.SamePredictions s') : s'.Announced := by
  constructor
  · rw [hsame.predictions, hsame.outbox]
    exact h.rows
  · rw [hsame.predictions]
    exact h.superseded

section Storing

variable {message : PredictionMade reg} {key : IdempotencyKey} {withdraws stored : Bool}
  (h : s.Announced) (hok : s.storePredictionWithOutbox message key withdraws = .ok (stored, s'))

include h hok

theorem rows_store (k : IdempotencyKey) : s'.predictions.rows.map (content k) =
    s'.outbox.rows.map fun out => predictionRow out.payload k := by
  unfold storePredictionWithOutbox at hok
  split at hok
  · cases hok
    exact h.rows k
  split at hok
  · cases hok
  split at hok
  · cases hok
  split at hok
  · cases hok
  next hfresh _ hmessage =>
  cases hok
  simp only [setStateWhere, predictions_withdrawSuperseded, (withdrawSuperseded_frame _ _ _).2.2]
  rw [map_rows_updateWhere, rows_insertNew_of_fresh (Bool.eq_false_iff.mpr hfresh),
    rows_insertNew_of_fresh (Bool.eq_false_iff.mpr hmessage), map_append, map_append, h.rows k]
  · rfl
  · exact fun _ => rfl

/-- A store supersedes what it withdraws. -/
theorem superseded_store : ∀ row ∈ s'.predictions, row.status = .withdrawn →
    Superseded s'.predictions row.predictionId := by
  obtain ⟨_, _, _, ⟨_, hsame, _⟩ | ⟨_, _, hfresh, _, hpredictions⟩⟩ :=
    storePredictionWithOutbox_eq_ok hok
  · exact (h.of_same hsame).superseded
  rw [hpredictions]
  -- a row that is withdrawn still says what it supersedes
  have hkept : ∀ {rows p predictionId}, Superseded rows predictionId →
      Superseded (rows.updateWhere p withdrawn predictionId_withdrawn) predictionId := by
    rintro rows p _ ⟨row, hrow, hid⟩
    refine ⟨_, mem_updateWhere.mpr ⟨row, hrow, rfl⟩, ?_⟩
    cases p row <;> exact hid
  intro row hrow hwithdrawn
  obtain ⟨before, hbefore, rfl⟩ := mem_updateWhere.mp hrow
  split at hwithdrawn
  · next hwithdraws =>
    rw [if_pos hwithdraws]
    exact hkept ⟨_, (mem_insertNew_of_fresh hfresh).mpr (Or.inr rfl),
      (of_decide_eq_true hwithdraws).2.1⟩
  · next hwithdraws =>
    rw [if_neg hwithdraws]
    rcases (mem_insertNew_of_fresh hfresh).mp hbefore with hold | rfl
    · obtain ⟨row, hrow, hid⟩ := h.superseded before hold hwithdrawn
      exact hkept ⟨row, mem_insertNew_of_mem hrow, hid⟩
    · cases hwithdrawn

end Storing

theorem handle (h : s.Announced) (tz : TimeZones) (w : Answer reg) (c : Call reg) :
    (Prediction.handle tz w c s).2.Announced := by
  cases c with
  | assignEvent => exact commit_rule h fun _ _ hok => h.of_same (assignEvent_opensOnly hok).2
  | claimReadyContexts =>
    exact commit_rule h fun _ _ hok => h.of_same (claimReadyContexts_eq_ok hok).2.2.2.2.1
  | setContextState => exact commit_done h rfl ⟨h.rows, h.superseded⟩
  | storePredictionWithOutbox =>
    exact commit_rule h fun _ _ hok => ⟨h.rows_store hok, h.superseded_store hok⟩
  | _ =>
    rw [handle_frame tz w _ s rfl]
    exact h

end Store.Announced

variable (P : PredictionPipeline) (acts : Nat → Action (Job reg) (Answer reg))

/-- The service before the `k`-th action, from empty tables on. -/
abbrev serviceAt (k : Nat) : Config (Surroundings reg) (Store reg) PredictionError Nat :=
  configAt (handle P.tz) P.perform ⟨∅, []⟩ acts k

/-- **Every prediction is announced once.**  In every run, interleaved and cut off at will,
the messages in the outbox are those of the stored predictions, one by one, and every
withdrawn prediction has been superseded by a stored one. -/
theorem predictions_announced (k : Nat) : (serviceAt P acts k).store.Announced :=
  store_stays (fun _ _ w c _ hs => hs.handle P.tz w c) (Nat.zero_le k)
    ⟨fun _ => rfl, fun _ hrow => absurd hrow (not_mem_empty _)⟩

/-- The `k`-th action is a claim that returns the context. -/
def ClaimedAt (contextId : Uuid) (k : Nat) : Prop :=
  ∃ i w now grace claimed,
    CallsAt (handle P.tz) P.perform ⟨∅, []⟩ acts k i w (.claimReadyContexts now grace) ∧
    (handle P.tz w (.claimReadyContexts now grace) (serviceAt P acts k).store).1 = .ok claimed ∧
    contextId ∈ claimed.map ContextRecord.contextId

/-- **A context is claimed once**, however many sweeps run at once, and however they end. -/
theorem context_claimed_once (contextId : Uuid) :
    {k | ClaimedAt P acts contextId k}.Subsingleton := by
  -- the later of two claims would find the context closed
  have hlater : ∀ k l, ClaimedAt P acts contextId k → ClaimedAt P acts contextId l → ¬ k < l := by
    rintro k l ⟨_, _, _, _, _, hcalls, hok, hmem⟩ ⟨_, _, _, _, _, _, hok', hmem'⟩ hlt
    have hclosed : (serviceAt P acts (k+1)).store.Closed contextId := by
      have hstate := (claimReadyContexts_eq_ok (commit_eq_ok hok).2).2.2.1 contextId
      rw [hcalls.store_succ]
      exact ⟨.predicting, hstate.trans (if_pos hmem), rfl⟩
    have hstays : (serviceAt P acts l).store.Closed contextId :=
      store_stays (Q := (Closed · contextId)) (fun _ _ w c hcalls => handle_closed P.tz w c _
        (avoids_at rfl (perform_not_reopens P) hcalls)) hlt hclosed
    exact hstays.not_waiting (stateOf_of_claimed (commit_eq_ok hok').2 hmem')
  intro k hk l hl
  rcases Nat.lt_trichotomy k l with hlt | heq | hlt
  · exact absurd hlt (hlater k l hk hl)
  · exact heq
  · exact absurd hlt (hlater l k hl hk)

end Prediction
