import FeedAnalyzer.CompleteRun
import FeedAnalyzer.RowTable

/-!
# Outbox relays

A relay sends pending rows to the broker, the oldest first and a batch at a time.  It may
go on when one of them fails (`relayEach`), or stop there (`relayInOrder`).
`eventually_delivered` turns what one sweep achieves into what a sequence of sweeps does.
-/

namespace Outbox

open Transact Proc List Table

/-- A row of an outbox. -/
structure Row (P : Type) where
  messageId : Nat
  payload : P
  createdAt : Int
  delivered : Bool := false
  attempts : Nat := 0
  lastError : Option String := none
deriving DecidableEq

abbrev Rows (P : Type) := Table (fun row : Row P => row.messageId)

/-- The calls of a relay that sends messages in `M`. -/
inductive Call (M : Type) where
  | select (limit : Nat)
  | utcNow
  | publish (message : M)
  | recordFailure (id : Nat) (error : String)
  | markDelivered (id : Nat)

/-- The answers to them. -/
abbrev Call.Ret (P : Type) {M : Type} : Call M → Type
  | .select _ => List (Row P)
  | .utcNow => Int
  | _ => Unit

abbrev Broker (P M : Type) : Interface := ⟨Call M, Call.Ret P⟩

/-- The order of rows of one time, the clock, and how the broker takes a message. -/
structure Env (P M : Type) where
  tie : Row P → Nat := fun _ => 0
  now : Int := 0
  publish : M → Except String Unit := fun _ => .ok ()

/-- The broker takes every message. -/
def Env.Healthy {P M : Type} (w : Env P M) : Prop :=
  ∀ message, w.publish message = .ok ()

variable {P M : Type}

/-- The message has been sent. -/
def Row.sent (row : Row P) : Row P :=
  { row with delivered := true, lastError := none }

/-- The message could not be sent. -/
def Row.failed (error : String) (row : Row P) : Row P :=
  { row with attempts := row.attempts + 1, lastError := some error }

/-- `SELECT … WHERE pending ORDER BY created_at LIMIT`. -/
def batch (tie : Row P → Nat) (limit : Nat) (t : Rows P) : List (Row P) :=
  selectOrdered (fun row => !row.delivered) (fun row => row.createdAt) tie limit t.rows

/-- How the calls act. -/
def handle : Handler (Broker P M) (Rows P) (Env P M) String
  | w, .select limit, t => (.ok (batch w.tie limit t), t)
  | w, .utcNow, t => (.ok w.now, t)
  | w, .publish message, t => (w.publish message, t)
  | _, .recordFailure id error, t =>
    (.ok (), t.updateWhere (fun row => row.messageId = id) (Row.failed error) (fun _ => rfl))
  | _, .markDelivered id, t =>
    (.ok (), t.updateWhere (fun row => row.messageId = id) Row.sent (fun _ => rfl))

/-- Send the message of one row: `none`, or what was raised. -/
def trySend (parse : P → Except String M) (stamp : Int → M → M) (row : Row P) :
    Proc (Broker P M) String (Option String) :=
  let send : Proc (Broker P M) String (Option String) :=
    match parse row.payload with
    | .error e => .fail e
    | .ok message => do
      let now ← Proc.perform (I := Broker P M) .utcNow
      Proc.perform (I := Broker P M) (.publish (stamp now message))
      return none
  send.catchWith (fun e => .ret (some e))

/-- Send the rows of a batch; one that fails is recorded, and the others go on. -/
def relayEach (parse : P → Except String M) (stamp : Int → M → M) :
    List (Row P) → Nat → Proc (Broker P M) String Nat
  | [], sent => .ret sent
  | row :: rest, sent => do
    let raised ← trySend parse stamp row
    match raised with
    | some e => do
      Proc.perform (I := Broker P M) (.recordFailure row.messageId e)
      relayEach parse stamp rest sent
    | none => do
      Proc.perform (I := Broker P M) (.markDelivered row.messageId)
      relayEach parse stamp rest (sent + 1)

/-- Send the rows of a batch, up to the first that fails. -/
def relayInOrder (parse : P → Except String M) : List (Row P) → Proc (Broker P M) String Unit
  | [] => .ret ()
  | row :: rest =>
    match parse row.payload with
    | .error e => .fail e
    | .ok message => do
      Proc.perform (I := Broker P M) (.publish message)
      Proc.perform (I := Broker P M) (.markDelivered row.messageId)
      relayInOrder parse rest

/-- The payload can be sent. -/
def Row.publishable (parse : P → Except String M) (row : Row P) : Bool :=
  (parse row.payload).isOk

/-- What a sweep that goes on makes of a row of its batch. -/
def Row.settle (parse : P → Except String M) (row : Row P) : Row P :=
  match parse row.payload with
  | .ok _ => row.sent
  | .error e => row.failed e

theorem Row.settle_messageId (parse : P → Except String M) (row : Row P) :
    (row.settle parse).messageId = row.messageId := by
  unfold settle
  split <;> rfl

/-- The row is one of these. -/
def among (rows : List (Row P)) (row : Row P) : Bool :=
  rows.any (fun r => r.messageId = row.messageId)

variable {rows : List (Row P)} {row : Row P}

theorem among_eq_true_iff : among rows row ↔ ∃ r ∈ rows, r.messageId = row.messageId := by
  simp [among]

section Sweep

variable {parse : P → Except String M} {stamp : Int → M → M} {w : Env P M} {t : Rows P}

theorem finish_trySend (hhealthy : w.Healthy) (row : Row P) (t : Rows P) :
    (trySend parse stamp row).finish handle w t =
      (.ok (match parse row.payload with | .ok _ => none | .error e => some e), t) := by
  unfold trySend
  cases parse row.payload with
  | error e => rfl
  | ok message =>
    apply finish_catch_ok
    dsimp only
    rw [bind_eq, finish_perform rfl, bind_eq, finish_perform (hhealthy (stamp w.now message))]
    rfl

variable {rest : List (Row P)} {g : Row P → Row P}

/-- The update of one row, when the others are left to later updates. -/
theorem updateWhere_cons {f : Row P → Row P} (hf : ∀ r, (f r).messageId = r.messageId)
    (hrow : row ∈ t) (hnodup : ((row :: rest).map (fun r => r.messageId)).Nodup)
    (hg : ∀ r, (g r).messageId = r.messageId) (hgf : g row = f row) :
    (t.updateWhere (fun r => r.messageId = row.messageId) g hg).updateWhere (among rest) f hf =
      t.updateWhere (among (row :: rest)) f hf := by
  have hsame : t.updateWhere (fun r => r.messageId = row.messageId) g hg =
      t.updateWhere (fun r => r.messageId = row.messageId) f hf := by
    apply updateWhere_congr
    intro r hr hkey
    have heq : r = row := eq_of_key hr hrow (by simpa using hkey)
    rw [heq, hgf]
  have hapart : ∀ r ∈ t, decide (r.messageId = row.messageId) → among rest (f r) = false := by
    intro r _ hkey
    have hkey' : r.messageId = row.messageId := by simpa using hkey
    rw [← Bool.not_eq_true, among_eq_true_iff]
    rintro ⟨r', hr', heq⟩
    rw [hf, hkey'] at heq
    rw [map_cons, nodup_cons] at hnodup
    exact hnodup.1 (mem_map.mpr ⟨r', hr', heq⟩)
  rw [hsame, updateWhere_updateWhere t hf hapart]
  have hcond : (fun r : Row P => decide (r.messageId = row.messageId) || among rest r) =
      among (row :: rest) := by
    funext r
    simp [among, eq_comm]
  rw [hcond]

theorem updateWhere_nil (t : Rows P) :
    t.updateWhere (among []) (Row.settle parse) (Row.settle_messageId parse) = t := by
  apply updateWhere_of_forall_not
  intro r _
  rfl

/-- The rest of a batch is left alone by the update of its first row. -/
theorem rest_mem (hg : ∀ r, (g r).messageId = r.messageId) (hrows : ∀ r ∈ row :: rest, r ∈ t)
    (hnodup : ((row :: rest).map (fun r => r.messageId)).Nodup) :
    ∀ r ∈ rest, r ∈ t.updateWhere (fun r => r.messageId = row.messageId) g hg := by
  intro r hr
  apply mem_updateWhere_of_not (hrows r (mem_cons_of_mem row hr))
  rw [map_cons, nodup_cons] at hnodup
  simp only [decide_eq_false_iff_not]
  intro heq
  exact hnodup.1 (mem_map.mpr ⟨r, hr, heq⟩)

/-- **A sweep that goes on** settles every row of its batch. -/
theorem finish_relayEach (hhealthy : w.Healthy) (rows : List (Row P)) (sent : Nat)
    (hrows : ∀ r ∈ rows, r ∈ t) (hnodup : (rows.map (fun r => r.messageId)).Nodup) :
    ((relayEach parse stamp rows sent).finish handle w t).2 =
      t.updateWhere (among rows) (Row.settle parse) (Row.settle_messageId parse) := by
  induction rows generalizing t sent with
  | nil => exact (updateWhere_nil t).symm
  | cons row rest ih =>
    rw [relayEach, bind_eq, finish_bind_ok (finish_trySend hhealthy row t)]
    have hrest : (rest.map (fun r => r.messageId)).Nodup := (nodup_cons.mp hnodup).2
    cases hparse : parse row.payload with
    | ok message =>
      rw [← updateWhere_cons (Row.settle_messageId parse) (hrows row mem_cons_self) hnodup
        (g := Row.sent) (fun _ => rfl) (by simp [Row.settle, hparse])]
      exact ih (sent + 1) (rest_mem (g := Row.sent) (fun _ => rfl) hrows hnodup) hrest
    | error e =>
      rw [← updateWhere_cons (Row.settle_messageId parse) (hrows row mem_cons_self) hnodup
        (g := Row.failed e) (fun _ => rfl) (by simp [Row.settle, hparse])]
      exact ih sent (rest_mem (g := Row.failed e) (fun _ => rfl) hrows hnodup) hrest

/-- **A sweep that stops** sends the rows before the first one that fails. -/
theorem finish_relayInOrder (hhealthy : w.Healthy) (rows : List (Row P)) (hrows : ∀ r ∈ rows, r ∈ t)
    (hnodup : (rows.map (fun r => r.messageId)).Nodup) :
    ((relayInOrder parse rows).finish handle w t).2 =
      t.updateWhere (among (rows.takeWhile (Row.publishable parse))) (Row.settle parse)
        (Row.settle_messageId parse) := by
  induction rows generalizing t with
  | nil => exact (updateWhere_nil t).symm
  | cons row rest ih =>
    rw [relayInOrder]
    cases hparse : parse row.payload with
    | error e =>
      have hstuck : Row.publishable parse row = false := by
        rw [Row.publishable, hparse]
        rfl
      rw [takeWhile_cons_of_neg (by simp [hstuck])]
      exact (updateWhere_nil t).symm
    | ok message =>
      have hsends : Row.publishable parse row := by
        rw [Row.publishable, hparse]
        rfl
      have hrest : (rest.map (fun r => r.messageId)).Nodup := (nodup_cons.mp hnodup).2
      have hfront : ((row :: rest.takeWhile (Row.publishable parse)).map
          (fun r => r.messageId)).Nodup :=
        hnodup.sublist (((takeWhile_sublist _).cons_cons row).map _)
      rw [takeWhile_cons_of_pos hsends,
        ← updateWhere_cons (Row.settle_messageId parse) (hrows row mem_cons_self) hfront
          (g := Row.sent) (fun _ => rfl) (by simp [Row.settle, hparse])]
      dsimp only
      rw [bind_eq, finish_perform (hhealthy message)]
      exact ih (rest_mem (g := Row.sent) (fun _ => rfl) hrows hnodup) hrest

end Sweep

/-- The table after a number of sweeps. -/
def after (sweep : Nat → Rows P → Rows P) (t : Rows P) : Nat → Rows P
  | 0 => t
  | k + 1 => after (fun j => sweep (j + 1)) (sweep 0 t) k

/-- The message of this id has been sent. -/
def Delivered (t : Rows P) (id : Nat) : Prop :=
  ∃ row ∈ t, row.messageId = id ∧ row.delivered = true

def Row.waiting (parse : P → Except String M) (row : Row P) : Bool :=
  !row.delivered && row.publishable parse

theorem Row.waiting_iff {parse : P → Except String M} :
    row.waiting parse ↔ row.delivered = false ∧ row.publishable parse := by
  rw [waiting, Bool.and_eq_true, Bool.not_eq_true']

/-- A row that waits and cannot be sent. -/
def Row.stuck (parse : P → Except String M) (row : Row P) : Bool :=
  !row.delivered && !row.publishable parse

/-- The number of stuck rows up to a time. -/
def stuckUpTo (parse : P → Except String M) (c : Int) (t : Rows P) : Nat :=
  t.rows.countP fun row => row.stuck parse && decide (row.createdAt ≤ c)

/-- A sweep delivers some rows that can be sent. -/
structure Delivering (parse : P → Except String M) (f : Row P → Row P) : Prop where
  messageId : ∀ row, (f row).messageId = row.messageId
  payload : ∀ row, (f row).payload = row.payload
  createdAt : ∀ row, (f row).createdAt = row.createdAt
  delivered : ∀ row, row.delivered = true → (f row).delivered = true
  stuck : ∀ row, row.publishable parse = false → (f row).delivered = row.delivered

variable {c : Int} {t : Rows P} {x : Row P}

section Many

variable {parse : P → Except String M} {f : Row P → Row P}

section

variable (hf : Delivering parse f)

include hf

theorem Delivering.publishable (row : Row P) :
    (f row).publishable parse = row.publishable parse := by
  unfold Row.publishable
  rw [hf.payload]

theorem Delivering.waiting (hwaiting : (f row).waiting parse) : row.waiting parse := by
  rw [Row.waiting_iff, hf.publishable] at hwaiting
  have hpending : row.delivered = false := by
    rw [← Bool.not_eq_true]
    intro hsent
    rw [hf.delivered row hsent] at hwaiting
    exact absurd hwaiting.1 (by decide)
  exact Row.waiting_iff.mpr ⟨hpending, hwaiting.2⟩

theorem Delivering.stuck_eq (row : Row P) : (f row).stuck parse = row.stuck parse := by
  unfold Row.stuck
  rw [hf.publishable]
  cases hsends : row.publishable parse with
  | true => simp
  | false => rw [hf.stuck row hsends]

theorem Delivering.stuckUpTo_eq {t' : Rows P} (hrows : t'.rows = t.rows.map f) :
    stuckUpTo parse c t' = stuckUpTo parse c t := by
  unfold stuckUpTo
  rw [hrows]
  apply countP_map_of_forall
  intro row _
  rw [hf.stuck_eq, hf.createdAt]

end

/-- Rows that leave a selection and none that enter it: the count goes down. -/
theorem countP_map_lt {p : Row P → Bool} (hkeeps : ∀ row ∈ rows, p (f row) → p row) (hx : x ∈ rows)
    (hin : p x) (hout : p (f x) = false) : (rows.map f).countP p < rows.countP p := by
  obtain ⟨before, behind, rfl⟩ := append_of_mem hx
  have hle : ∀ part : List (Row P), (∀ row ∈ part, p (f row) → p row) →
      (part.map f).countP p ≤ part.countP p := by
    intro part hpart
    rw [countP_map]
    exact countP_mono_left hpart
  have hbefore := hle before fun row hrow => hkeeps row (mem_append_left _ hrow)
  have hbehind := hle behind fun row hrow =>
    hkeeps row (mem_append_right _ (mem_cons_of_mem _ hrow))
  simp only [map_append, map_cons, countP_append, countP_cons, hin, hout]
  simp only [if_true, Bool.false_eq_true, if_false]
  omega

variable {sweep : Nat → Rows P → Rows P}

/-- **Progress is enough.**  If each sweep delivers a waiting row of a time up to `c`, while
there is one and `ahead`, which looks at the stuck rows only, holds, then every such row is
delivered after finitely many sweeps. -/
theorem eventually_delivered (c : Int) (ahead : Nat → Prop)
    (hsweep : ∀ k t, ∃ f, Delivering parse f ∧ (sweep k t).rows = t.rows.map f ∧
      (ahead (stuckUpTo parse c t) → ∀ row ∈ t, row.waiting parse → row.createdAt ≤ c →
      ∃ x ∈ t, x.waiting parse ∧ x.createdAt ≤ c ∧ (f x).delivered))
    (hahead : ahead (stuckUpTo parse c t)) (hrow : row ∈ t) (hwaiting : row.waiting parse)
    (htime : row.createdAt ≤ c) : ∃ k, Delivered (after sweep t k) row.messageId := by
  -- the induction is on the number of waiting rows up to `c`
  induction hcount : t.rows.countP fun row => row.waiting parse && decide (row.createdAt ≤ c)
    using Nat.strong_induction_on generalizing sweep t row with
  | _ n ih =>
    obtain ⟨f, hf, hrows, hprogress⟩ := hsweep 0 t
    obtain ⟨x, hx, hxwaiting, hxtime, hxsent⟩ := hprogress hahead row hrow hwaiting htime
    have hmem : f row ∈ sweep 0 t := by
      show f row ∈ (sweep 0 t).rows
      rw [hrows]
      exact mem_map_of_mem hrow
    by_cases hsent : (f row).delivered
    · exact ⟨1, f row, hmem, hf.messageId row, hsent⟩
    · have hstill : (f row).waiting parse := by
        rw [Row.waiting_iff, hf.publishable]
        exact ⟨Bool.eq_false_iff.mpr hsent, (Row.waiting_iff.mp hwaiting).2⟩
      have hfewer : (sweep 0 t).rows.countP
          (fun row => row.waiting parse && decide (row.createdAt ≤ c)) < n := by
        rw [← hcount, hrows]
        apply countP_map_lt _ hx
        · simp [hxwaiting, hxtime]
        · simp [Row.waiting, hxsent]
        · intro row' _ hin
          simp only [Bool.and_eq_true, decide_eq_true_eq, hf.createdAt] at hin ⊢
          exact ⟨hf.waiting hin.1, hin.2⟩
      rw [← hf.stuckUpTo_eq hrows] at hahead
      obtain ⟨k, hk⟩ := ih _ hfewer (fun k t => hsweep (k + 1) t) hahead hmem hstill
        (by rw [hf.createdAt]; exact htime) rfl
      rw [hf.messageId] at hk
      exact ⟨k + 1, hk⟩

theorem never_delivered (blocked : Rows P → Row P → Prop)
    (hsweep : ∀ k t, ∀ row ∈ t, row.delivered = false → blocked t row →
      ∃ row' ∈ sweep k t, row'.messageId = row.messageId ∧ row'.delivered = false ∧
      blocked (sweep k t) row') (hrow : row ∈ t) (hpending : row.delivered = false)
    (hblocked : blocked t row) (k : Nat) : ¬ Delivered (after sweep t k) row.messageId := by
  induction k generalizing sweep t row with
  | zero =>
    rintro ⟨row', hrow', hid, hsent⟩
    rw [eq_of_key hrow' hrow hid, hpending] at hsent
    exact absurd hsent (by decide)
  | succ k ih =>
    obtain ⟨row', hrow', hid, hpending', hblocked'⟩ := hsweep 0 t row hrow hpending hblocked
    rw [← hid]
    exact ih (fun j t => hsweep (j + 1) t) hrow' hpending' hblocked'

end Many

/-- With a broker that takes everything, and however ties are ordered, every waiting row
that can be sent is sent after finitely many sweeps. -/
def DeliversAll {α : Type} (parse : P → Except String M) (relay : Proc (Broker P M) String α)
    (t : Rows P) : Prop :=
  ∀ ws : Nat → Env P M, (∀ k, (ws k).Healthy) → ∀ row ∈ t, row.waiting parse = true →
    ∃ k, Delivered (after (fun j t => (relay.finish handle (ws j) t).2) t k) row.messageId

/-- The order that is the worst for the rows that can be sent. -/
def stuckFirst (parse : P → Except String M) : Env P M :=
  { tie := fun row => if row.stuck parse then 0 else 1 }

theorem stuckFirst_healthy (parse : P → Except String M) : (stuckFirst parse).Healthy :=
  fun _ => rfl

/-- A sweep gets through as long as fewer than `bound` stuck rows are ahead. -/
structure GetsThrough {α : Type} (parse : P → Except String M)
    (relay : Proc (Broker P M) String α) (bound : Nat) (changed : Env P M → Rows P → Row P → Row P) :
    Prop where
  delivering : ∀ w t, Delivering parse (changed w t)
  rows : ∀ w t, w.Healthy → (relay.finish handle w t).2.rows = t.rows.map (changed w t)
  progress : ∀ w t c, stuckUpTo parse c t < bound → ∀ row ∈ t, row.waiting parse = true →
    row.createdAt ≤ c → ∃ x ∈ t, x.waiting parse = true ∧ x.createdAt ≤ c ∧
      (changed w t x).delivered = true
  starved : ∀ t, ∀ row ∈ t, row.waiting parse = true → bound ≤ stuckUpTo parse row.createdAt t →
    (changed (stuckFirst parse) t row).delivered = false

section Drain

variable {α : Type} {parse : P → Except String M} {relay : Proc (Broker P M) String α}
  {bound : Nat} {changed : Env P M → Rows P → Row P → Row P}

theorem GetsThrough.stays_starved (h : GetsThrough parse relay bound changed) (hrow : row ∈ t)
    (hwaiting : row.waiting parse) (hbound : bound ≤ stuckUpTo parse row.createdAt t) :
    ∃ row' ∈ (relay.finish handle (stuckFirst parse) t).2, row'.messageId = row.messageId ∧
      row'.delivered = false ∧ row'.waiting parse ∧
      bound ≤ stuckUpTo parse row'.createdAt (relay.finish handle (stuckFirst parse) t).2 := by
  have hrows := h.rows (stuckFirst parse) t (stuckFirst_healthy parse)
  have hf := h.delivering (stuckFirst parse) t
  have hpending := h.starved t row hrow hwaiting hbound
  refine ⟨changed (stuckFirst parse) t row, ?_, hf.messageId row, hpending, ?_, ?_⟩
  · show _ ∈ (relay.finish handle (stuckFirst parse) t).2.rows
    rw [hrows]
    exact mem_map_of_mem hrow
  · rw [Row.waiting_iff, hf.publishable]
    exact ⟨hpending, (Row.waiting_iff.mp hwaiting).2⟩
  · rw [hf.createdAt, hf.stuckUpTo_eq hrows]
    exact hbound

/-- **An outbox drains** exactly if no row that can be sent has `bound` stuck rows
ahead of it. -/
theorem GetsThrough.deliversAll_iff (h : GetsThrough parse relay bound changed) (t : Rows P) :
    DeliversAll parse relay t ↔
      ∀ row ∈ t, row.waiting parse → stuckUpTo parse row.createdAt t < bound := by
  constructor
  · intro hall row hrow hwaiting
    by_contra hbound
    obtain ⟨k, hk⟩ :=
      hall (fun _ => stuckFirst parse) (fun _ => stuckFirst_healthy parse) row hrow hwaiting
    refine never_delivered (fun t row =>
      row.waiting parse ∧ bound ≤ stuckUpTo parse row.createdAt t) ?_ hrow
      (Row.waiting_iff.mp hwaiting).1 ⟨hwaiting, Nat.le_of_not_lt hbound⟩ k hk
    rintro _ t row hrow _ ⟨hwaiting, hbound⟩
    exact h.stays_starved hrow hwaiting hbound
  · intro hahead ws hhealthy row hrow hwaiting
    refine eventually_delivered row.createdAt (fun n => n < bound) ?_
      (hahead row hrow hwaiting) hrow hwaiting (le_refl _)
    intro k t
    exact ⟨_, h.delivering (ws k) t, h.rows (ws k) t (hhealthy k),
      h.progress (ws k) t row.createdAt⟩

end Drain

section Relays

variable {parse : P → Except String M} {stamp : Int → M → M}
  {t : Rows P} {row : Row P} {front : List (Row P)} {tie : Row P → Nat} {limit : Nat}

theorem batch_mem (hrow : row ∈ batch tie limit t) : row ∈ t ∧ row.delivered = false := by
  obtain ⟨hmem, hpending⟩ := mem_of_mem_selectOrdered hrow
  exact ⟨hmem, by simpa using hpending⟩

theorem batch_nodup (tie : Row P → Nat) (limit : Nat) (t : Rows P) :
    ((batch tie limit t).map (fun row => row.messageId)).Nodup :=
  nodup_map_selectOrdered t.nodup

/-- What a sweep makes of a row: those of `front` are settled. -/
def settled (parse : P → Except String M) (front : List (Row P)) (row : Row P) : Row P :=
  if among front row then row.settle parse else row

theorem settle_delivering (parse : P → Except String M) : Delivering parse (Row.settle parse) where
  messageId := Row.settle_messageId parse
  payload row := by
    unfold Row.settle
    split <;> rfl
  createdAt row := by
    unfold Row.settle
    split <;> rfl
  delivered row hsent := by
    unfold Row.settle
    split
    · rfl
    · exact hsent
  stuck row hstuck := by
    unfold Row.settle
    unfold Row.publishable at hstuck
    cases hparse : parse row.payload with
    | ok message =>
      rw [hparse] at hstuck
      cases hstuck
    | error e => rfl

theorem settled_delivering (parse : P → Except String M) (front : List (Row P)) :
    Delivering parse (settled parse front) := by
  have h := settle_delivering parse
  constructor
  all_goals
    intro row
    unfold settled
    split
  · exact h.messageId row
  · rfl
  · exact h.payload row
  · rfl
  · exact h.createdAt row
  · rfl
  · exact h.delivered row
  · exact id
  · exact h.stuck row
  · exact fun _ => rfl

theorem among_iff_mem (hrows : ∀ r ∈ rows, r ∈ t) (hrow : row ∈ t) :
    among rows row ↔ row ∈ rows := by
  rw [among_eq_true_iff]
  constructor
  · rintro ⟨r, hr, hid⟩
    rw [← eq_of_key (hrows r hr) hrow hid]
    exact hr
  · intro hmem
    exact ⟨row, hmem, rfl⟩

theorem settled_front (hrow : row ∈ front) (hwaiting : row.waiting parse) :
    (settled parse front row).delivered := by
  have hamong : among front row := among_eq_true_iff.mpr ⟨row, hrow, rfl⟩
  rw [Row.waiting_iff, Row.publishable] at hwaiting
  rw [settled, if_pos hamong, Row.settle]
  cases hparse : parse row.payload with
  | ok message => rfl
  | error e =>
    rw [hparse] at hwaiting
    cases hwaiting.2

theorem settled_behind (hfront : ∀ r ∈ front, r ∈ t) (hrow : row ∈ t) (hbehind : row ∉ front)
    (hpending : row.delivered = false) : (settled parse front row).delivered = false := by
  have hamong : ¬ among front row := fun h => hbehind ((among_iff_mem hfront hrow).mp h)
  rw [settled, if_neg hamong]
  exact hpending

/-- A batch without a row that can be sent is no longer than the stuck rows. -/
theorem stuck_batch_length (htimes : ∀ x ∈ batch tie limit t, x.createdAt ≤ c)
    (hstuck : ∀ x ∈ batch tie limit t, x.waiting parse = false) :
    (batch tie limit t).length ≤ stuckUpTo parse c t := by
  unfold stuckUpTo
  rw [countP_eq_length_filter]
  apply Subperm.length_le
  apply subperm_of_subset (Nodup.of_map _ (batch_nodup tie limit t))
  intro x hx
  obtain ⟨hmem, hpending⟩ := batch_mem hx
  have hnot := hstuck x hx
  simp only [Row.waiting, hpending, Bool.not_false, Bool.true_and] at hnot
  refine mem_filter.mpr ⟨hmem, ?_⟩
  simp [Row.stuck, hpending, hnot, htimes x hx]

/-- A row that the worst order puts into a front has the stuck rows up to its time
there too. -/
theorem stuck_mem_front (hfront : front <+: batch (stuckFirst parse).tie limit t)
    (hrow : row ∈ front) (hwaiting : row.waiting parse) (hx : x ∈ t)
    (hstuck : x.stuck parse) (htime : x.createdAt ≤ row.createdAt) : x ∈ front := by
  have hpending : x.delivered = false := by
    rw [Row.stuck, Bool.and_eq_true, Bool.not_eq_true'] at hstuck
    exact hstuck.1
  have hmoves : row.stuck parse = false := by
    simp [Row.stuck, (Row.waiting_iff.mp hwaiting).2]
  apply mem_front_of_before hfront hrow hx (by simp [hpending])
  rcases lt_or_eq_of_le htime with hlt | heq
  · exact Or.inl hlt
  · exact Or.inr ⟨heq, by simp [stuckFirst, hstuck, hmoves]⟩

/-- **A relay that goes on** gets through as long as its batch is not full of stuck
rows. -/
theorem getsThrough_each (parse : P → Except String M) (stamp : Int → M → M) (limit : Nat) :
    GetsThrough parse (do
        let rows ← Proc.perform (I := Broker P M) (.select limit)
        relayEach parse stamp rows 0)
      limit (fun w t => settled parse (batch w.tie limit t)) where
  delivering w t := settled_delivering parse _
  rows w t hhealthy := by
    exact congrArg rows
      (finish_relayEach hhealthy _ 0 (fun r hr => (batch_mem hr).1) (batch_nodup _ _ _))
  progress w t c hbound row hrow hwaiting htime := by
    by_cases hmem : row ∈ batch w.tie limit t
    · exact ⟨row, hrow, hwaiting, htime, settled_front hmem hwaiting⟩
    · have hpending := (Row.waiting_iff.mp hwaiting).1
      obtain ⟨hfull, htimes⟩ := selectOrdered_full hrow (by simp [hpending]) hmem
      by_contra hnone
      have hlength : (batch w.tie limit t).length ≤ stuckUpTo parse c t := by
        apply stuck_batch_length fun x hx => le_trans (htimes x hx) htime
        intro x hx
        rw [← Bool.not_eq_true]
        intro hx'
        exact hnone ⟨x, (batch_mem hx).1, hx', le_trans (htimes x hx) htime, settled_front hx hx'⟩
      unfold batch at hlength
      omega
  starved t row hrow hwaiting hbound := by
    apply settled_behind (fun r hr => (batch_mem hr).1) hrow _ (Row.waiting_iff.mp hwaiting).1
    intro hmem
    -- the stuck rows and this row would all be of the batch
    have hsub : row :: t.rows.filter (fun x => x.stuck parse && decide (x.createdAt ≤ row.createdAt))
        ⊆ batch (stuckFirst parse).tie limit t := by
      intro x hx
      rcases mem_cons.mp hx with rfl | hx
      · exact hmem
      · obtain ⟨hx, hcond⟩ := mem_filter.mp hx
        simp only [Bool.and_eq_true, decide_eq_true_eq] at hcond
        exact stuck_mem_front (prefix_refl _) hmem hwaiting hx hcond.1 hcond.2
    have hnot : row ∉ t.rows.filter
        (fun x => x.stuck parse && decide (x.createdAt ≤ row.createdAt)) := by
      intro hin
      have hcond := (mem_filter.mp hin).2
      simp [Row.stuck, (Row.waiting_iff.mp hwaiting).2] at hcond
    have hnodup := nodup_cons.mpr ⟨hnot, Nodup.filter _ (Nodup.of_map _ t.nodup)⟩
    have hlength := (subperm_of_subset hnodup hsub).length_le
    have hlimit : (batch (stuckFirst parse).tie limit t).length ≤ limit := by
      exact length_take_le _ _
    rw [length_cons, ← countP_eq_length_filter] at hlength
    unfold stuckUpTo at hbound
    omega

/-- **A relay that stops** gets through as long as no stuck row is ahead. -/
theorem getsThrough_inOrder (parse : P → Except String M) (limit : Nat) (hlimit : 0 < limit) :
    GetsThrough parse (do
        let rows ← Proc.perform (I := Broker P M) (.select limit)
        relayInOrder parse rows)
      1 (fun w t => settled parse ((batch w.tie limit t).takeWhile (Row.publishable parse))) where
  delivering w t := settled_delivering parse _
  rows w t hhealthy := by
    exact congrArg rows
      (finish_relayInOrder hhealthy _ (fun r hr => (batch_mem hr).1) (batch_nodup _ _ _))
  progress w t c hbound row hrow hwaiting htime := by
    have hpending := (Row.waiting_iff.mp hwaiting).1
    cases hbatch : batch w.tie limit t with
    | nil => exact absurd hbatch (selectOrdered_ne_nil hrow (by simp [hpending]) hlimit)
    | cons first rest =>
      have hfirst : first ∈ batch w.tie limit t := by
        rw [hbatch]
        exact mem_cons_self
      have htime' : first.createdAt ≤ row.createdAt := by
        by_contra hlater
        have hprefix : [first] <+: batch w.tie limit t := ⟨rest, hbatch.symm⟩
        have hmem : row ∈ [first] :=
          mem_front_of_before hprefix mem_cons_self hrow (by simp [hpending])
            (Or.inl (not_le.mp hlater))
        rw [mem_singleton.mp hmem] at hlater
        exact hlater (le_refl _)
      have hsends : first.publishable parse := by
        by_contra hstuck
        obtain ⟨hmem, hpending'⟩ := batch_mem hfirst
        have hpos : 0 < stuckUpTo parse c t := by
          apply countP_pos_iff.mpr
          refine ⟨first, hmem, ?_⟩
          simp [Row.stuck, hpending', Bool.eq_false_iff.mpr hstuck, le_trans htime' htime]
        omega
      have hwaiting' := Row.waiting_iff.mpr ⟨(batch_mem hfirst).2, hsends⟩
      refine ⟨first, (batch_mem hfirst).1, hwaiting', le_trans htime' htime, ?_⟩
      apply settled_front _ hwaiting'
      rw [takeWhile_cons_of_pos hsends]
      exact mem_cons_self
  starved t row hrow hwaiting hbound := by
    apply settled_behind (fun r hr => (batch_mem (takeWhile_subset _ hr)).1) hrow _
      (Row.waiting_iff.mp hwaiting).1
    intro hmem
    obtain ⟨x, hx, hcond⟩ := countP_pos_iff.mp (Nat.lt_of_lt_of_le Nat.zero_lt_one hbound)
    simp only [Bool.and_eq_true, decide_eq_true_eq] at hcond
    have hfront := stuck_mem_front ( takeWhile_prefix _) hmem hwaiting hx hcond.1 hcond.2
    have hsends := all_eq_true.mp all_takeWhile x hfront
    simp [Row.stuck, hsends] at hcond

end Relays

end Outbox
