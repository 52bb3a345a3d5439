import FeedAnalyzer.GatewayEffects
import FeedAnalyzer.OwnedTokens

/-!
# Who may finish an attempt, and in what order its commands go

A reservation gives its request two tokens: the duty to finish the attempt, and the
turn of its conversation with the browser, which passes through six stages.  The
engine's procedures keep this discipline.
-/

namespace Gateway

open Transact Proc Call

variable {context : Context} {prompt : Option String}

/-- The tokens of an attempt. -/
inductive Duty where
  | settle (attempt : Uuid)
  | turn (attempt : Uuid) (stage : Nat)
deriving DecidableEq

/-- The attempt of a token. -/
def Duty.attempt : Duty → Uuid
  | .settle a => a
  | .turn a _ => a

def CommandId.stage : CommandId → Nat
  | .repair _ => 3
  | _ => 0

/-- The turn of a command, at a stage of it; a probe takes none. -/
def CommandId.turn (id : CommandId) (n : Nat) : Set Duty :=
  { duty | ∃ a, id.row? = some a ∧ duty = .turn a (id.stage + n) }

/-- Which answers give a token. -/
def gained : (c : Call) → Except Raised c.Ret → Set Duty
  | .reserve _ _ a _ _, r => { duty | r = .ok true ∧ (duty = .settle a ∨ duty = .turn a 0) }
  | .openCommand _ id _, r => { duty | r = .ok true ∧ duty ∈ id.turn 1 }
  | .send (.command id ..), r => { duty | r = .ok () ∧ duty ∈ id.turn 2 }
  | .awaitFuture (.first a) _, r =>
    { duty | (∃ result, r = .ok result ∧ result.status = .success) ∧ duty = .turn a 3 }
  | _, _ => ∅

/-- Which calls take one. -/
def spent : Call → Set Duty
  | .finish f => {.settle f.attempt}
  | .shieldedFinish f => {.settle f.attempt}
  | .openCommand _ id _ => id.turn 0
  | .send (.command id ..) => id.turn 1
  | .awaitFuture id _ => id.turn 2
  | _ => ∅

/-- The tokens of the gateway. -/
def duties : Tokens Service Raised Duty where
  gain := gained
  spend := spent

variable {id : CommandId}

theorem mem_turn {n : Nat} {duty : Duty} :
    duty ∈ id.turn n ↔ ∃ a, id.row? = some a ∧ duty = .turn a (id.stage + n) := Iff.rfl

theorem settle_not_mem_turn (id : CommandId) (n : Nat) (b : Uuid) : Duty.settle b ∉ id.turn n := by
  rintro ⟨a, _, hduty⟩
  cases hduty

theorem turn_of_none (hid : id.row? = none) (n : Nat) : id.turn n = ∅ := by
  ext duty
  simp [mem_turn, hid]

/-- A call of which the discipline says nothing. -/
def Call.plain : Call → Bool
  | .reserve .. => false
  | .finish _ => false
  | .shieldedFinish _ => false
  | .openCommand _ id _ => id.row?.isNone
  | .send (.command id ..) => id.row?.isNone
  | .awaitFuture id _ => id.row?.isNone
  | _ => true

variable {c : Call} {α : Type} {e : Raised} {provider : String}

/-- A plain call moves no duty. -/
theorem neutral_of_plain (hc : c.plain) : duties.Neutral c := by
  have hnone : ∀ id : CommandId, id.row?.isNone → ∀ n, id.turn n = ∅ := by
    intro id hid n
    exact turn_of_none (Option.isNone_iff_eq_none.mp hid) n
  cases c with
  | reserve | finish | shieldedFinish => cases hc
  | openCommand provider id generation =>
    refine ⟨hnone id hc 0, fun r => ?_⟩
    ext duty
    simp [duties, gained, hnone id hc 1]
  | send message =>
    cases message with
    | command id provider requestId slot prompt timeout =>
      refine ⟨hnone id hc 1, fun r => ?_⟩
      ext duty
      simp [duties, gained, hnone id hc 2]
    | _ => exact ⟨rfl, fun _ => rfl⟩
  | awaitFuture id timeout =>
    refine ⟨hnone id hc 2, fun r => ?_⟩
    cases id with
    | first | repair => cases hc
    | _ => rfl
  | _ => exact ⟨rfl, fun _ => rfl⟩

/-- A procedure of plain calls takes and gives no token. -/
abbrev Plain {α : Type} (p : Routine α) : Prop :=
  p.Avoids fun c => ¬ duties.Neutral c

theorem plain_ask (hc : c.plain) : Plain (ask c) := by
  have hneutral : ¬ ¬ duties.Neutral c := fun h => h (neutral_of_plain hc)
  exact ⟨hneutral, avoids_onOk (fun _ => trivial)⟩

theorem plain_remaining (context : Context) : Plain (remaining (ask .loopTime) context) :=
  (plain_ask rfl).bind fun _ => trivial

theorem plain_cancel (id : CommandId) : Plain (Bridge.cancel id) := by
  refine (plain_ask rfl).catchWith fun e => ?_
  cases e <;> trivial

inductive Call.OfCommand (id : CommandId) : Call → Prop
  | loopTime : OfCommand id .loopTime
  | opened (provider : String) (generation : Bool) :
      OfCommand id (.openCommand provider id generation)
  | sent (provider requestId : String) (slot : Nat) (prompt : Option String) (timeout : Int) :
      OfCommand id (.send (.command id provider requestId slot prompt timeout))
  | awaited (timeout : Int) : OfCommand id (.awaitFuture id timeout)
  | cancelled : OfCommand id (.send (.cancel id))
  | closed : OfCommand id (.closeCommand id)

theorem command_calls (provider : String) (context : Context) (id : CommandId)
    (prompt : Option String) :
    (Bridge.command provider context id prompt).Avoids (fun c => ¬ OfCommand id c) := by
  have hask : ∀ {c : Call}, c.OfCommand id → (ask c).Avoids (fun c => ¬ OfCommand id c) :=
    fun hc => ⟨fun h => h hc, avoids_onOk (fun _ => trivial)⟩
  have htrial : ∀ {c : Call}, c.OfCommand id → (trial c).Avoids (fun c => ¬ OfCommand id c) :=
    fun hc => ⟨fun h => h hc, fun _ => trivial⟩
  have hremaining : (remaining (ask .loopTime) context).Avoids (fun c => ¬ OfCommand id c) :=
    (hask .loopTime).bind fun _ => trivial
  have hcancel : (Bridge.cancel id).Avoids (fun c => ¬ OfCommand id c) := by
    refine (hask .cancelled).catchWith fun e => ?_
    cases e <;> trivial
  have hinterrupted : ∀ generation dispatched e,
      (Bridge.interrupted id generation dispatched e).Avoids (fun c => ¬ OfCommand id c) := by
    intro generation dispatched e
    have hgiveUp : (Bridge.giveUp id generation dispatched).Avoids
        (fun c => ¬ OfCommand id c) := hcancel.bind fun _ => trivial
    cases e with
    | cancelled => exact hcancel.bind fun _ => trivial
    | gateway | other => trivial
    | _ => exact hgiveUp
  have hreceive : (Bridge.receive context id prompt).Avoids (fun c => ¬ OfCommand id c) := by
    refine hremaining.bind fun left => ?_
    refine (htrial (.awaited _)).bind fun received => ?_
    cases received with
    | error e => exact hinterrupted _ _ e
    | ok result => trivial
  have hexchange : (Bridge.exchange provider context id prompt).Avoids
      (fun c => ¬ OfCommand id c) := by
    refine hremaining.bind fun left => ?_
    refine (htrial (.sent _ _ _ _ _)).bind fun sent => ?_
    cases sent with
    | error e => exact hinterrupted _ _ e
    | ok _ => exact hreceive
  refine (hask (.opened _ _)).bind fun opened => ?_
  cases opened with
  | true =>
    apply Avoids.bind
    · exact hexchange.catchWith fun e => (hask .closed).bind (fun _ => trivial)
    · exact fun result => (hask .closed).bind fun _ => trivial
  | false => trivial

theorem plain_probe (provider : String) (context : Context) (draw : Uuid) :
    Plain (Bridge.command provider context (.probe draw) none) := by
  apply (command_calls provider context (.probe draw) none).mono
  intro c htoken hcall
  apply htoken
  apply neutral_of_plain
  cases hcall <;> rfl

theorem interrupted_uses (id : CommandId) (generation dispatched : Bool) (e : Raised)
    (A : Set Duty) :
    (Bridge.interrupted id generation dispatched e).Uses duties
      (fun r A' => A' = A ∧ ∀ result, r = .ok result → result.status ≠ .success) A := by
  have hraise : ∀ e', A = A ∧ ∀ result : BrowserResult,
      (.error e' : Except Raised BrowserResult) = .ok result → result.status ≠ .success := by
    intro e'
    exact ⟨rfl, fun result hresult => by cases hresult⟩
  have hgiveUp : (Bridge.giveUp id generation dispatched).Uses duties
      (fun r A' => A' = A ∧ ∀ result, r = .ok result → result.status ≠ .success) A := by
    refine (plain_cancel id).uses_bind (fun _ => ⟨rfl, ?_⟩) hraise
    rintro result ⟨⟩
    cases generation <;> cases dispatched <;> decide
  cases e with
  | cancelled => exact (plain_cancel id).uses_bind (fun _ => hraise _) hraise
  | gateway | other => exact hraise _
  | _ => exact hgiveUp

variable {A : Set Duty} {Q : Except Raised α → Set Duty → Prop} {A' : Set Duty}

theorem trial_uses {f : Except Raised c.Ret → Routine α} (hspend : spent c ⊆ A)
    (hnext : ∀ r, (f r).Uses duties Q (duties.after A c r)) : ((trial c).bind f).Uses duties Q A :=
  ⟨hspend, hnext⟩

/-- Conversation with the browser leaves the duty to finish as it is. -/
theorem settle_mem_after {r : Except Raised c.Ret} {b : Uuid} (hspend : Duty.settle b ∉ spent c)
    (hgain : Duty.settle b ∉ gained c r) :
    Duty.settle b ∈ duties.after A c r ↔ Duty.settle b ∈ A := by
  constructor
  · rintro (⟨hheld, _⟩ | hgained)
    · exact hheld
    · exact absurd hgained hgain
  · intro hheld
    exact Or.inl ⟨hheld, hspend⟩

/-- The duties as before, and the turn of the repair once the first prompt was answered. -/
def Answered (id : CommandId) (A : Set Duty) (r : Except Raised BrowserResult) (A' : Set Duty) :
    Prop :=
  (∀ b, Duty.settle b ∈ A' ↔ Duty.settle b ∈ A) ∧
    ∀ a result, id = .first a → r = .ok result → result.status = .success → Duty.turn a 3 ∈ A'

section

variable (hsettle : ∀ b, Duty.settle b ∈ A' ↔ Duty.settle b ∈ A)

include hsettle

/-- A command that was cut off leaves the duties to finish as they are. -/
theorem interrupted_answered {generation dispatched : Bool} :
    (Bridge.interrupted id generation dispatched e).Uses duties (Answered id A) A' := by
  apply (interrupted_uses id generation dispatched e A').mono
  rintro r A'' ⟨rfl, hfails⟩
  exact ⟨hsettle, fun a result _ hresult hsuccess => absurd hsuccess (hfails result hresult)⟩

theorem answered_error : Answered id A (.error e) A' :=
  ⟨hsettle, fun a result _ hresult => by cases hresult⟩

end

theorem receive_uses (hturn : id.turn 2 ⊆ A) :
    (Bridge.receive context id prompt).Uses duties (Answered id A) A := by
  refine (plain_remaining context).uses_bind (fun left => ?_)
    fun e => answered_error (fun b => Iff.rfl)
  refine trial_uses hturn fun received => ?_
  have hsettle : ∀ b, Duty.settle b ∈ duties.after A
      (.awaitFuture id (if prompt.isSome then left else min 45000000 left)) received ↔
        Duty.settle b ∈ A := by
    intro b
    refine settle_mem_after (settle_not_mem_turn id 2 b) ?_
    cases id with
    | first a =>
      rintro ⟨_, hduty⟩
      cases hduty
    | _ => exact fun h => h
  cases received with
  | error e => exact interrupted_answered hsettle
  | ok result =>
    refine ⟨hsettle, ?_⟩
    rintro a result' rfl ⟨⟩ hsuccess
    exact Or.inr ⟨⟨result', rfl, hsuccess⟩, rfl⟩

theorem exchange_uses (hturn : id.turn 1 ⊆ A) :
    (Bridge.exchange provider context id prompt).Uses duties (Answered id A) A := by
  refine (plain_remaining context).uses_bind (fun left => ?_)
    fun e => answered_error (fun b => Iff.rfl)
  refine trial_uses hturn fun sent => ?_
  have hsettle : ∀ b, Duty.settle b ∈ duties.after A
      (.send (.command id provider context.requestId context.slot prompt (left / 1000))) sent ↔
        Duty.settle b ∈ A := by
    intro b
    exact settle_mem_after (settle_not_mem_turn id 1 b) fun h => settle_not_mem_turn id 2 b h.2
  cases sent with
  | error e => exact interrupted_answered hsettle
  | ok _ =>
    apply (receive_uses (fun duty hduty => Or.inr ⟨rfl, hduty⟩)).mono
    rintro r A' ⟨hkept, hanswer⟩
    exact ⟨fun b => (hkept b).trans (hsettle b), hanswer⟩

theorem withFinally_uses {p : Routine BrowserResult}
    {cleanup : Routine Unit} (hp : p.Uses duties (Answered id A) A)
    (hcleanup : Plain cleanup) : (withFinally p cleanup).Uses duties (Answered id A) A := by
  have hcaught : (p.catchWith (fun e => cleanup.bind (fun _ => .fail e))).Uses duties
      (Answered id A) A := by
    apply hp.catchWith
    · intro result A' hanswered
      exact hanswered
    · intro e A' hanswered
      exact hcleanup.uses_bind (fun _ => hanswered) fun _ => answered_error hanswered.1
  apply hcaught.bind
  · intro result A' hanswered
    exact hcleanup.uses_bind (fun _ => hanswered) fun _ => answered_error hanswered.1
  · intro e A' hanswered
    exact hanswered

theorem command_uses (hturn : id.turn 0 ⊆ A) :
    (Bridge.command provider context id prompt).Uses duties (Answered id A) A := by
  have hsettle : ∀ (r : Except Raised Bool) b, Duty.settle b ∈ duties.after A
      (.openCommand provider id prompt.isSome) r ↔ Duty.settle b ∈ A := by
    intro r b
    exact settle_mem_after (settle_not_mem_turn id 0 b) fun h => settle_not_mem_turn id 1 b h.2
  refine uses_perform hturn (fun opened => ?_) fun e => answered_error (hsettle _)
  cases opened with
  | true =>
    have hexchange : (Bridge.exchange provider context id prompt).Uses duties
        (Answered id (duties.after A (.openCommand provider id prompt.isSome) (.ok true)))
        (duties.after A (.openCommand provider id prompt.isSome) (.ok true)) :=
      exchange_uses fun duty hduty => Or.inr ⟨rfl, hduty⟩
    apply (withFinally_uses hexchange (plain_ask rfl)).mono
    rintro r A' ⟨hkept, hanswer⟩
    exact ⟨fun b => (hkept b).trans (hsettle _ b), hanswer⟩
  | false =>
    refine ⟨hsettle _, ?_⟩
    rintro a result _ ⟨⟩ hsuccess
    cases hsuccess

section Engine

variable {B M : Type} {G : Settings} {F : Formatting B M} {context : Context} {A : Set Duty}

/-- The duties to finish are as before. -/
def Kept {α : Type} (A : Set Duty) (_ : Except Raised α) (A' : Set Duty) : Prop :=
  ∀ b, Duty.settle b ∈ A' ↔ Duty.settle b ∈ A

theorem kept_refl (A : Set Duty) (r : Except Raised α) : Kept A r A :=
  fun _ => Iff.rfl

variable {name : String} {body : B} {a : Uuid} {p : Routine α}

/-- A round takes the turn of its command, and hands on the repair's when the first prompt
was answered. -/
theorem round_uses {repair : Bool} {rest : List Bool}
    (hturn : (if repair then CommandId.repair a else .first a).turn 0 ⊆ A)
    (hrest : repair = false → ∀ A', Kept A (.ok ()) A' → Duty.turn a 3 ∈ A' →
      (BrowserAdapter.rounds Bridge.transport F name body context a rest).Uses duties (Kept A) A') :
    (BrowserAdapter.rounds Bridge.transport F name body context a (repair :: rest)).Uses duties
      (Kept A) A := by
  refine (plain_remaining context).uses_bind (fun left => ?_) fun e => kept_refl A _
  split
  · exact kept_refl A _
  · apply (command_uses hturn).bind
    · rintro result A' ⟨hkept, hanswer⟩
      by_cases hstatus : result.status = .success
      · simp only [hstatus, ne_eq, not_true_eq_false, if_false]
        cases F.parse result.text body name result.observedModel with
        | ok completion => exact hkept
        | error e =>
          cases repair with
          | true => exact hkept
          | false => exact hrest rfl A' hkept (hanswer a result rfl rfl hstatus)
      · simp only [hstatus, ne_eq, not_false_eq_true, if_true]
        exact hkept
    · intro e A' hanswered
      exact hanswered.1

theorem execute_uses (hturn : Duty.turn a 0 ∈ A) :
    (BrowserAdapter.execute Bridge.transport F name body context a).Uses duties (Kept A) A := by
  apply round_uses
  · rintro duty ⟨a', ha', rfl⟩
    cases ha'
    exact hturn
  · intro _ A' hkept hrepair
    have hturn' : (CommandId.repair a).turn 0 ⊆ A' := by
      rintro duty ⟨a', ha', rfl⟩
      cases ha'
      exact hrepair
    have hround : (BrowserAdapter.rounds Bridge.transport F name body context a [true]).Uses duties
        (Kept A') A' := round_uses hturn' fun h => by cases h
    apply hround.mono
    intro r A'' hkept'
    exact fun b => (hkept' b).trans (hkept b)

/-- The rule for a caught outcome. -/
theorem outcomeOf_uses {β : Type} {Q' : Except Raised β → Set Duty → Prop}
    {f : Except Raised α → Routine β} (hp : p.Uses duties Q A)
    (hf : ∀ r A', Q r A' → (f r).Uses duties Q' A') : ((outcomeOf p).bind f).Uses duties Q' A := by
  have hkept : (outcomeOf p).Uses duties (fun r A' => ∃ r', r = .ok r' ∧ Q r' A') A := by
    have hok : (p.bind (fun a => .ret (.ok a))).Uses duties
        (fun (r : Except Raised (Except Raised α)) A' => (∃ a, r = .ok (.ok a) ∧ Q (.ok a) A') ∨
          ∃ e, r = .error e ∧ Q (.error e) A') A := by
      apply hp.bind
      · intro a A' hQ
        exact Or.inl ⟨a, rfl, hQ⟩
      · intro e A' hQ
        exact Or.inr ⟨e, rfl, hQ⟩
    apply hok.catchWith
    · rintro a A' (⟨b, hb, hQ⟩ | ⟨e, he, _⟩)
      · exact ⟨.ok b, hb, hQ⟩
      · cases he
    · rintro e A' (⟨b, hb, _⟩ | ⟨e', he, hQ⟩)
      · cases hb
      · cases he
        exact ⟨.error e, rfl, hQ⟩
  apply hkept.bind
  · rintro r A' ⟨r', hr, hQ⟩
    cases hr
    exact hf r A' hQ
  · rintro e A' ⟨r', hr, _⟩
    cases hr

theorem withTimeout_uses (hp : p.Uses duties (Kept A) A) :
    (withTimeout context p).Uses duties (Kept A) A := by
  refine (plain_remaining context).uses_bind (fun _ => ?_) fun e => kept_refl A _
  apply hp.catchWith
  · intro a A' hkept
    exact hkept
  · intro e A' hkept
    cases e with
    | cancelled =>
      exact (plain_ask rfl).uses_bind (fun _ => hkept) fun _ => hkept
    | _ => exact hkept

/-- No attempt is left to be finished. -/
def NothingOwed {α : Type} (_ : Except Raised α) (A : Set Duty) : Prop :=
  ∀ b, Duty.settle b ∉ A

/-- The write that finishes an attempt leaves nothing owed. -/
theorem nothingOwed_after (hA : ∀ b, Duty.settle b ∈ A ↔ b = a) (hspend : spent c = {.settle a})
    (hgain : ∀ r, gained c r = ∅) (r : Except Raised c.Ret) (r' : Except Raised α) :
    NothingOwed r' (duties.after A c r) := by
  rintro b (⟨hheld, hunspent⟩ | hgained)
  · have hb := (hA b).mp hheld
    subst hb
    exact hunspent (by rw [show duties.spend c = {.settle b} from hspend]; rfl)
  · rw [show duties.gain c r = ∅ from hgain r] at hgained
    exact hgained

variable (body : B)

section Attempt

variable {context : Context} {provider : String} {a : Uuid} {A : Set Duty}

theorem settle_uses (hA : ∀ b, Duty.settle b ∈ A ↔ b = a) (last : Result M) :
    (Engine.settle context provider a last).Uses duties NothingOwed A := by
  have hspend : spent (.finish (Engine.finishOf context provider a last)) ⊆ A := by
    rintro duty rfl
    exact (hA a).mpr rfl
  refine uses_perform hspend (fun _ => ?_) fun e => ?_
  · exact nothingOwed_after hA rfl (fun _ => rfl) _ _
  · exact nothingOwed_after hA rfl (fun _ => rfl) _ _

theorem abandon_uses (hA : ∀ b, Duty.settle b ∈ A ↔ b = a) (started : Bool) (e : Raised) :
    (Engine.abandon (M := M) context provider a started e).Uses duties NothingOwed A := by
  have hrelease : ∀ (result : Result M) e', ((ask (.shieldedFinish
      (Engine.finishOf context provider a result))).bind
        (fun _ => (.fail e' : Routine (Result M)))).Uses duties NothingOwed A := by
    intro result e'
    have hspend : spent (.shieldedFinish (Engine.finishOf context provider a result)) ⊆ A := by
      rintro duty rfl
      exact (hA a).mpr rfl
    refine uses_perform hspend (fun _ => ?_) fun e'' => ?_
    · exact nothingOwed_after hA rfl (fun _ => rfl) _ _
    · exact nothingOwed_after hA rfl (fun _ => rfl) _ _
  cases e with
  | cancelled | timeout => exact hrelease _ _
  | _ => exact settle_uses hA _

/-- Whatever happens to a reserved attempt, the write that finishes it is
begun. -/
theorem perform_uses (slot : Nat) (hA : ∀ b, Duty.settle b ∈ A ↔ b = a) (hturn : Duty.turn a 0 ∈ A) :
    (Engine.perform F body context provider a slot).Uses duties NothingOwed A := by
  have hready : (BrowserAdapter.ready Bridge.transport provider
      { context with slot := slot }).Uses duties (fun _ A' => A' = A) A := by
    apply Avoids.uses
    exact (plain_ask rfl).bind fun draw => plain_probe provider _ draw
  refine outcomeOf_uses hready ?_
  rintro probed A' rfl
  cases probed with
  | error e => exact abandon_uses hA false e
  | ok ready =>
    dsimp only
    split
    · refine outcomeOf_uses (withTimeout_uses (execute_uses hturn)) ?_
      intro executed A'' hkept
      have hA'' : ∀ b, Duty.settle b ∈ A'' ↔ b = a := fun b => (hkept b).trans (hA b)
      cases executed with
      | error e => exact abandon_uses hA'' true e
      | ok last => exact settle_uses hA'' last
    · exact settle_uses hA _

/-- The duty to finish the attempt, if one was reserved. -/
def SlotTokens (a : Uuid) : Except Raised (Option Nat) → Set Duty → Prop
  | .ok (some _), A => (∀ b, Duty.settle b ∈ A ↔ b = a) ∧ Duty.turn a 0 ∈ A
  | _, A => ∀ b, Duty.settle b ∉ A

theorem reserveSlot_uses (slots : List Nat) (hA : ∀ b, Duty.settle b ∉ A) :
    (Engine.reserveSlot context provider a slots).Uses duties (SlotTokens a) A := by
  induction slots generalizing A with
  | nil => exact hA
  | cons slot rest ih =>
    have hnothing : ∀ (r : Except Raised Bool), r ≠ .ok true → ∀ b, Duty.settle b ∉ duties.after A
        (.reserve context.profileId provider a context.requestId slot) r := by
      rintro r hr b (⟨hheld, _⟩ | ⟨htrue, _⟩)
      · exact hA b hheld
      · exact hr htrue
    have hspend : spent (.reserve context.profileId provider a context.requestId slot) ⊆ A :=
      Set.empty_subset A
    refine uses_perform hspend (fun reserved => ?_) fun e => ?_
    · cases reserved with
      | true =>
        refine ⟨fun b => ?_, Or.inr ⟨rfl, Or.inr rfl⟩⟩
        constructor
        · rintro (⟨hheld, _⟩ | ⟨_, hduty | hduty⟩)
          · exact absurd hheld (hA b)
          · cases hduty
            rfl
          · cases hduty
        · rintro rfl
          exact Or.inr ⟨rfl, Or.inl rfl⟩
      | false => exact ih (hnothing _ (by simp))
    · exact hnothing _ (by simp)

end Attempt

theorem tryProviders_uses (context : Context) (providers : List String) (busy limited : Bool)
    (hA : ∀ b, Duty.settle b ∉ A) :
    (Engine.tryProviders G F body context providers busy limited).Uses duties NothingOwed A := by
  induction providers generalizing busy limited A with
  | nil => exact hA
  | cons provider rest ih =>
    refine (plain_ask rfl).uses_bind (fun availability => ?_) fun _ => hA
    refine (plain_ask rfl).uses_bind (fun clock => ?_) fun _ => hA
    cases availability.filter (fun row => !row.eligible clock) with
    | some row => exact ih _ _ hA
    | none =>
      refine (plain_ask rfl).uses_bind (fun attempt => ?_) fun _ => hA
      apply (reserveSlot_uses _ hA).bind
      · intro selected A' htokens
        cases selected with
        | none => exact ih _ _ htokens
        | some slot =>
          apply (perform_uses body slot htokens.1 htokens.2).bind
          · intro result A'' howed
            exact howed
          · intro e A'' howed
            exact howed
      · intro e A' htokens
        exact htokens

theorem passes_uses (context : Context) (eligible : List String) (bound : Nat)
    (hA : ∀ b, Duty.settle b ∉ A) :
    (Engine.passes G F body context eligible bound).Uses duties NothingOwed A := by
  induction bound generalizing A with
  | zero => exact hA
  | succ n ih =>
    refine (plain_remaining context).uses_bind (fun left => ?_) fun _ => hA
    split
    · exact hA
    · apply (tryProviders_uses body context eligible false true hA).bind
      · intro outcome A' howed
        cases outcome with
        | inl result => exact howed
        | inr flags =>
          obtain ⟨busy, limited⟩ := flags
          cases busy with
          | true =>
            refine (plain_remaining context).uses_bind (fun left' => ?_) fun _ => howed
            exact (plain_ask rfl).uses_bind (fun _ => ih howed) fun _ => howed
          | false => exact howed
      · intro e A' howed
        exact howed

/-- **The discipline of a request.**  A request finishes every attempt that it
has reserved, once, and takes the turns of the attempt's commands in order. -/
theorem route_uses (context : Context) (bound : Nat) :
    (Engine.route G F body context bound).Uses duties NothingOwed ∅ := by
  have hnone : ∀ b, Duty.settle b ∉ (∅ : Set Duty) := fun b h => h
  unfold Engine.route
  dsimp only
  split
  · exact hnone
  · exact passes_uses body context _ bound hnone

/-- No procedure ends owing a duty. -/
theorem procedure_uses (job : Job B) : (procedure G F job).Uses duties NothingOwed ∅ := by
  have hnone : ∀ b, Duty.settle b ∉ (∅ : Set Duty) := fun b h => h
  have hplain : ∀ {p : Routine Unit}, Plain p →
      (p.bind (fun _ => (.ret none : Routine (Option (Result M))))).Uses duties
        NothingOwed ∅ :=
    fun hp => hp.uses_bind (fun _ => hnone) fun _ => hnone
  cases job with
  | request bound body context =>
    apply (route_uses body context bound).bind
    · intro result A howed
      exact howed
    · intro e A howed
      exact howed
  | result msg =>
    apply hplain
    unfold Bridge.handleResult
    split
    · split
      · refine (plain_ask rfl).bind fun delivery => ?_
        cases delivery with
        | mismatch => trivial
        | delivered => exact plain_ask rfl
        | late =>
          dsimp only
          split
          · exact (plain_ask rfl).bind fun _ => plain_ask rfl
          · exact plain_ask rfl
      · trivial
    · trivial
  | progress id provider submitting =>
    apply hplain
    unfold Bridge.handleProgress
    split
    · refine (plain_ask rfl).bind fun found => ?_
      split
      · exact (plain_ask rfl).bind fun _ => plain_ask rfl
      · trivial
    · trivial
  | reset =>
    apply hplain
    refine (plain_ask rfl).bind fun idle => ?_
    split
    · exact (plain_ask rfl).bind fun _ => (plain_ask rfl).bind (fun _ => plain_ask rfl)
    · trivial
  | _ => exact hplain (plain_ask rfl)

end Engine

end Gateway
