import FeedAnalyzer.AssetRegistry
import FeedAnalyzer.OutboxRelay

/-!
# The outboxes of predictions and of intraday evidence

A row of an asset that has left the registry can never be published, and stays at the
head of the queue.  The prediction outbox drains exactly if no publishable row has a
whole batch of such rows ahead of it, the intraday outbox exactly if it has none.
-/

namespace Feed

open Transact Outbox List

variable {P M : Type}

/-- `publish_pending`; `stamp` writes `publication_attempt_at` into the message. -/
def PredictionOutboxPublisher.publishPending (parse : P → Except String M)
    (stamp : Int → M → M) (batchSize : Nat := 100) : Proc (Broker P M) String Nat := do
  let rows ← Proc.perform (I := Broker P M) (.select batchSize)
  relayEach parse stamp rows 0

def IntradayCollector.publishPending (parse : P → Except String M) :
    Proc (Broker P M) String Unit := do
  let rows ← Proc.perform (I := Broker P M) (.select 100)
  relayInOrder parse rows

/-- `IntradayCollector._relay`: what the sweep raises is logged. -/
def IntradayCollector.relay (parse : P → Except String M) : Proc (Broker P M) String Unit :=
  (publishPending parse).catchWith (fun _ => .ret ())

/-- The sweep of the intraday collector gets through as long as no stuck row is
ahead. -/
theorem getsThrough_relay (parse : P → Except String M) :
    GetsThrough parse (IntradayCollector.relay parse) 1
      (fun w t => settled parse ((batch w.tie 100 t).takeWhile (Row.publishable parse))) := by
  have h := getsThrough_inOrder parse 100 (by decide)
  refine ⟨h.delivering, ?_, h.progress, h.starved⟩
  intro w t hhealthy
  rw [IntradayCollector.relay, Proc.finish_catch_ret]
  exact h.rows w t hhealthy

theorem stuckUpTo_lt_one_iff {parse : P → Except String M} {t : Rows P} {c : Int} :
    stuckUpTo parse c t < 1 ↔ ∀ x ∈ t, x.stuck parse → c < x.createdAt := by
  rw [stuckUpTo, Nat.lt_one_iff, countP_eq_zero]
  constructor
  · intro hnone x hx hstuck
    have hlater := hnone x hx
    simpa [hstuck] using hlater
  · intro hlater x hx hcond
    simp only [Bool.and_eq_true, decide_eq_true_eq] at hcond
    have hlt := hlater x hx hcond.1
    omega

/-- **Which outboxes drain.**  With a healthy broker, every publishable row of the
prediction outbox is delivered after finitely many sweeps exactly if fewer than `batch_size`
rows that can never be published are as old or older; of the intraday outbox, exactly if
there is none. -/
theorem outboxes_drain_iff {P' M' : Type} (parse : P → Except String M) (stamp : Int → M → M)
    (batchSize : Nat) (predictions : Rows P) (parse' : P' → Except String M') (intraday : Rows P') :
    (DeliversAll parse (PredictionOutboxPublisher.publishPending parse stamp batchSize) predictions ↔
      ∀ row ∈ predictions, row.waiting parse = true →
        stuckUpTo parse row.createdAt predictions < batchSize) ∧
    (DeliversAll parse' (IntradayCollector.relay parse') intraday ↔
      ∀ row ∈ intraday, row.waiting parse' = true →
        ∀ x ∈ intraday, x.stuck parse' = true → row.createdAt < x.createdAt) := by
  constructor
  · exact (getsThrough_each parse stamp batchSize).deliversAll_iff predictions
  · rw [(getsThrough_relay parse').deliversAll_iff intraday]
    constructor
    · intro hnone row hrow hwaiting
      exact stuckUpTo_lt_one_iff.mp (hnone row hrow hwaiting)
    · intro hlater row hrow hwaiting
      exact stuckUpTo_lt_one_iff.mpr (hlater row hrow hwaiting)

/-- A message of an asset, read back with the registry of now. -/
def readAsset (payload : String) : Except String (AssetId goldRegistry × Option Int) :=
  match AssetId.parse goldRegistry payload with
  | .ok asset => .ok (asset, none)
  | .error _ => .error "unknown asset_id"

/-- `publication_attempt_at`. -/
def stampAttempt (now : Int) (message : AssetId goldRegistry × Option Int) :
    AssetId goldRegistry × Option Int :=
  (message.1, some now)

/-- So many rows of a retired asset, and a later row of gold. -/
def retiredFirst (count : Nat) : Rows String where
  rows := (List.range count).map (fun id => ⟨id, "SILVER", 0, false, 0, none⟩) ++
    [⟨count, "GOLD", 1, false, 0, none⟩]
  nodup := by
    simp only [List.map_append, List.map_map, List.map_cons, List.map_nil]
    have hids : (List.range count).map ((fun row : Row String => row.messageId) ∘
        fun id => ⟨id, "SILVER", 0, false, 0, none⟩) = List.range count := by
      simp [Function.comp_def]
    rw [hids, ← List.range_succ]
    exact List.nodup_range

/-- The row of gold is never delivered: not from behind a hundred retired rows of the
prediction outbox, nor from behind one of the intraday outbox. -/
theorem retired_rows_starve :
    ¬ DeliversAll readAsset (PredictionOutboxPublisher.publishPending readAsset stampAttempt)
      (retiredFirst 100) ∧
    ¬ DeliversAll readAsset (IntradayCollector.relay readAsset) (retiredFirst 1) := by
  have hgold : ∀ count, (⟨count, "GOLD", 1, false, 0, none⟩ : Row String) ∈ retiredFirst count := by
    intro count
    exact mem_append_right _ mem_cons_self
  constructor
  · intro hall
    have hahead := ((getsThrough_each readAsset stampAttempt 100).deliversAll_iff _).mp hall _
      (hgold 100) (by decide +kernel)
    revert hahead
    decide +kernel
  · intro hall
    have hahead := ((getsThrough_relay readAsset).deliversAll_iff _).mp hall _ (hgold 1)
      (by decide +kernel)
    revert hahead
    decide +kernel

end Feed
