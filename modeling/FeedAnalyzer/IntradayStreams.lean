import FeedAnalyzer.GuidedRun
import FeedAnalyzer.IntradayCollector

/-!
# Streams among many collectors

The fence is that tokens are drawn once: as long as a row carries the token of a claim,
it is the row that this claim returned.  `Consistent` is what holds of the tables at
all times.
-/

namespace Intraday

open Feed Transact Snapshots Table

variable {reg : Registry}

/-- The revisions of a stream, as they were enqueued. -/
def Store.messagesOf (s : Store reg) (streamId : Uuid) : List (IntradayObserved reg) :=
  (s.outbox.rows.map fun row => row.payload).filter fun m => m.streamId = streamId

/-- Clear where the revision replaces the others, then overwrite. -/
def replayOne (bars : Bars) (m : IntradayObserved reg) : Bars :=
  (if m.replacesPrevious then ∅ else bars).putAll m.bars

/-- The bars that revisions leave. -/
def replay (ms : List (IntradayObserved reg)) : Bars := ms.foldl replayOne ∅

structure Replayed (ms : List (IntradayObserved reg)) (r : StreamRow reg) : Prop where
  revisions : ms.map (fun m => m.revision) = List.range' 1 r.revision
  last_final : ∀ m ∈ ms.dropLast, m.final = false
  unfinished : r.done = false → ∀ m ∈ ms, m.final = false
  bars : ∀ start, (replay ms).find? start = r.bars.find? start

/-- **What holds of the tables at all times.** -/
structure Consistent (s : Store reg) : Prop where
  known : ∀ r ∈ s.streams, r.streamId = r.request.streamId
  drawn : ∀ r ∈ s.streams, ∀ token, r.lease = some token → token < s.nextToken
  replayed : ∀ r ∈ s.streams, Replayed (s.messagesOf r.streamId) r
  messages : ∀ o ∈ s.outbox, ∃ r ∈ s.streams, r.streamId = o.payload.streamId

/-- What can have happened between two calls of a collector. -/
structure Extends (s s' : Store reg) : Prop where
  tokens : s.nextToken ≤ s'.nextToken
  fence : ∀ r ∈ s'.streams, ∀ token, token < s.nextToken → r.lease = some token → r ∈ s.streams

theorem Extends.refl (s : Store reg) : Extends s s := ⟨Nat.le_refl _, fun _ hr _ _ _ => hr⟩

variable {s s' : Store reg} {s'' : Store reg} {row : StreamRow reg}

theorem Extends.trans (h : Extends s s') (h' : Extends s' s'') : Extends s s'' where
  tokens := Nat.le_trans h.tokens h'.tokens
  fence r hr token htoken hlease :=
    h.fence r (h'.fence r hr token (Nat.lt_of_lt_of_le htoken h.tokens) hlease) token htoken hlease

/-- The collector has claimed the row, and the stream is this row as long as it carries the
token. -/
structure Held (s : Store reg) (row : StreamRow reg) : Prop where
  pending : row.done = false
  token : ∃ token, row.lease = some token ∧ token < s.nextToken
  same : ∀ r ∈ s.streams, Store.heldBy row r = true → r = row

theorem Held.later (h : Extends s s') (hrow : Held s row) : Held s' row where
  pending := hrow.pending
  token := by
    obtain ⟨token, hlease, hlt⟩ := hrow.token
    exact ⟨token, hlease, Nat.lt_of_lt_of_le hlt h.tokens⟩
  same r hr hheld := by
    obtain ⟨token, hlease, hlt⟩ := hrow.token
    have hsame : r.lease = some token := by
      simp only [Store.heldBy, Bool.and_eq_true, decide_eq_true_eq] at hheld
      rw [hheld.2.2, hlease]
    exact hrow.same r (h.fence r hr token hlt hsame) hheld

/-- **A claim is a fence.**  The row that it returns is the stream's, under a new token. -/
theorem held_of_claim (hs : Consistent s) {tie : StreamRow reg → Nat}
    {locked : StreamRow reg → Bool} {dbNow : Int} (hclaim : (s.claim tie locked dbNow).1 = some row) :
    Held (s.claim tie locked dbNow).2 row := by
  unfold Store.claim at hclaim ⊢
  split at hclaim
  · cases hclaim
  · next first hfirst =>
    cases hclaim
    obtain ⟨hmem, hdue, _⟩ := head?_selectOrdered hfirst
    have hpending : first.done = false := by
      simp only [Store.due, Bool.and_eq_true, Bool.not_eq_true'] at hdue
      exact hdue.1.1
    refine ⟨hpending, ⟨s.nextToken, rfl, Nat.lt_succ_self _⟩, ?_⟩
    intro r hr hheld
    simp only [Store.heldBy, Bool.and_eq_true, decide_eq_true_eq] at hheld
    dsimp only at hr
    obtain ⟨r₀, hr₀, rfl⟩ := mem_updateWhere.mp hr
    by_cases hsame : r₀.streamId = first.streamId
    · obtain rfl := eq_of_key hr₀ hmem hsame
      simp
    · simp only [hsame, decide_false, Bool.false_eq_true, if_false] at hheld
      exact absurd (hs.drawn r₀ hr₀ s.nextToken hheld.2.2) (Nat.lt_irrefl _)

/-- What a call of the collector satisfies in the tables of its time. -/
def CallOk (c : Call reg) (s : Store reg) : Prop :=
  match c with
  | .commit row columns message =>
    Held s row ∧ ∃ settings g now messageId, columns = revised settings row g now ∧
      message = if publishes settings row g now then
        some (observation settings row g now messageId) else none
  | _ => True

/-- What the others can have done. -/
def Rely (s s' : Store reg) : Prop := Extends s s' ∧ Consistent s'

theorem Rely.trans {s s' : Store reg} (h : Rely s s') (h' : Rely s' s'') : Rely s s'' :=
  ⟨h.1.trans h'.1, h'.2⟩

/-- The call changes nothing but, at most, the answer of a later one. -/
def Call.Writes : Call reg → Prop
  | .register _ _ _ => True
  | .claim => True
  | .release _ _ _ _ => True
  | .commit _ _ _ => True
  | .addSample _ => True
  | _ => False

theorem handle_reads (w : Answer reg) (c : Call reg) (s : Store reg) (hc : ¬ c.Writes) :
    (handle w c s).2 = s := by
  have hstatement : ∀ {α : Type} (result : α), (w.statement result s s).2 = s := by
    intro α result
    unfold Answer.statement
    split
    · rfl
    · exact ite_self s
  cases c with
  | register | claim | release | commit | addSample => exact absurd trivial hc
  | samplesTable | sampleRows => exact hstatement _
  | _ => rfl

end Intraday
