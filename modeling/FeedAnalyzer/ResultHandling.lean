import FeedAnalyzer.CommandTurns

/-!
# How a result of the extension is handled

Only the task that handles a result acknowledges it, after it was handed to the future of
its command, or the store was told.  `job_ack_cases` and `terminal_cases` say this of a run.
-/

namespace Gateway

open Transact Proc Avoids

/-- The calls made for messages of the extension only. -/
def Call.ofMessages : Call → Bool
  | .submitted _ => true
  | .runShielded => true
  | .terminal .. => true
  | .resetAttempts _ => true
  | .resetAvailability _ => true
  | .pendingFor .. => true
  | .deliver .. => true
  | .jobAck .. => true
  | .noPending => true
  | .connect => true
  | .disconnect => true
  | _ => false

/-- A procedure that handles no message. -/
abbrev OfRequest {α : Type} (p : Routine α) : Prop :=
  p.Avoids (fun c : Call => c.ofMessages = true)

/-- One call of a request. -/
theorem ofRequest_ask {c : Call} (hc : c.ofMessages = false) : OfRequest (ask c) :=
  ⟨by simp [hc], avoids_onOk (fun _ => trivial)⟩

/-- Reading the clock is one. -/
theorem ofRequest_remaining (context : Context) : OfRequest (remaining (ask .loopTime) context) :=
  (ofRequest_ask rfl).bind fun _ => trivial

/-- A command handles no message. -/
theorem ofRequest_command (provider : String) (context : Context) (id : CommandId)
    (prompt : Option String) : OfRequest (Bridge.command provider context id prompt) := by
  apply (command_calls provider context id prompt).mono
  intro c hmessage hcall
  cases hcall <;> cases hmessage

section Engine

variable {B M : Type} {G : Settings} {F : Formatting B M} {id : CommandId}

/-- Nor do the rounds of `execute`. -/
theorem ofRequest_rounds (name : String) (body : B) (context : Context) (attempt : Uuid)
    (rounds : List Bool) :
    OfRequest (BrowserAdapter.rounds Bridge.transport F name body context attempt rounds) := by
  induction rounds with
  | nil => trivial
  | cons repair rest ih =>
    refine (ofRequest_remaining context).bind fun left => ?_
    split
    · trivial
    · refine (ofRequest_command _ _ _ _).bind fun result => ?_
      split
      · trivial
      · split
        · trivial
        · split
          · trivial
          · exact ih

/-- Keeping an exception adds no call. -/
theorem ofRequest_outcomeOf {α : Type} {p : Routine α} (hp : OfRequest p) :
    OfRequest (outcomeOf p) := by
  apply Avoids.catchWith
  · exact hp.bind fun _ => trivial
  · exact fun _ => trivial

/-- Carrying out a request handles no message. -/
theorem ofRequest_perform (body : B) (context : Context) (provider : String) (attempt : Uuid)
    (slot : Nat) : OfRequest (Engine.perform F body context provider attempt slot) := by
  have hsettle : ∀ last : Result M, OfRequest (Engine.settle context provider attempt last) :=
    fun last => (ofRequest_ask rfl).bind fun _ => trivial
  have habandon : ∀ started e,
      OfRequest (Engine.abandon (M := M) context provider attempt started e) := by
    intro started e
    cases e with
    | cancelled | timeout => exact (ofRequest_ask rfl).bind (fun _ => trivial)
    | _ => exact hsettle _
  have hready : OfRequest (BrowserAdapter.ready Bridge.transport provider
      { context with slot := slot }) :=
    (ofRequest_ask rfl).bind fun draw => ofRequest_command _ _ _ _
  have hexecute : OfRequest (withTimeout context (BrowserAdapter.execute Bridge.transport F provider
      body { context with slot := slot } attempt)) := by
    refine (ofRequest_remaining context).bind fun _ => ?_
    refine (ofRequest_rounds _ _ _ _ _).catchWith fun e => ?_
    cases e with
    | cancelled => exact (ofRequest_ask rfl).bind fun _ => trivial
    | _ => trivial
  refine (ofRequest_outcomeOf hready).bind fun probed => ?_
  cases probed with
  | error e => exact habandon false e
  | ok ready =>
    dsimp only
    split
    · refine (ofRequest_outcomeOf hexecute).bind fun executed => ?_
      cases executed with
      | error e => exact habandon true e
      | ok last => exact hsettle last
    · exact hsettle _

/-- Nor does reserving a slot. -/
theorem ofRequest_reserveSlot (context : Context) (provider : String) (attempt : Uuid)
    (slots : List Nat) : OfRequest (Engine.reserveSlot context provider attempt slots) := by
  induction slots with
  | nil => trivial
  | cons slot rest ih =>
    refine (ofRequest_ask rfl).bind fun reserved => ?_
    cases reserved with
    | true => trivial
    | false => exact ih

/-- Nor does a pass over the providers. -/
theorem ofRequest_tryProviders (body : B) (context : Context) (providers : List String)
    (busy limited : Bool) :
    OfRequest (Engine.tryProviders G F body context providers busy limited) := by
  induction providers generalizing busy limited with
  | nil => trivial
  | cons provider rest ih =>
    refine (ofRequest_ask rfl).bind fun availability => ?_
    refine (ofRequest_ask rfl).bind fun clock => ?_
    cases availability.filter (fun row => !row.eligible clock) with
    | some row => exact ih _ _
    | none =>
      refine (ofRequest_ask rfl).bind fun attempt => ?_
      refine (ofRequest_reserveSlot _ _ _ _).bind fun selected => ?_
      cases selected with
      | none => exact ih _ _
      | some slot => exact (ofRequest_perform _ _ _ _ _).bind fun _ => trivial

/-- **A request handles no message.** -/
theorem ofRequest_route (body : B) (context : Context) (bound : Nat) :
    OfRequest (Engine.route G F body context bound) := by
  have hpasses : ∀ eligible n, OfRequest (Engine.passes G F body context eligible n) := by
    intro eligible n
    induction n with
    | zero => trivial
    | succ n ih =>
      refine (ofRequest_remaining context).bind fun left => ?_
      split
      · trivial
      · refine (ofRequest_tryProviders _ _ _ _ _).bind fun outcome => ?_
        cases outcome with
        | inl result => trivial
        | inr flags =>
          obtain ⟨busy, limited⟩ := flags
          cases busy with
          | true =>
            refine (ofRequest_remaining context).bind fun left' => ?_
            exact (ofRequest_ask rfl).bind fun _ => ih
          | false => trivial
  unfold Engine.route
  dsimp only
  split
  · trivial
  · exact hpasses _ bound

/-- An acknowledged result was handed to its command, or the store was told. -/
def Handed (profile : String) (id : CommandId) (status : Status) : (c : Call) → c.Ret → Prop
  | .deliver _ id' result, delivery => id' = id ∧ result.status = status ∧ delivery = .delivered
  | .terminal profile' _ id', _ => profile' = profile ∧ id' = id
  | _, _ => False

/-- Where the store is told, nobody waited for the result. -/
def FoundLate (provider : String) (id : CommandId) : (c : Call) → c.Ret → Prop
  | .deliver provider' id' result, delivery =>
    provider' = provider ∧ id' = id ∧ result.status ≠ .unknown ∧ delivery = .late
  | _, _ => False

/-- What holds of `handleResult` holds of every procedure: no other one acknowledges or
tells the store. -/
theorem precededBy_procedure {Γ : (c : Call) → c.Ret → Prop} {Φ : Call → Prop}
    (hmessages : ∀ c, Φ c → (∃ profile provider id, c = .terminal profile provider id) ∨
      ∃ id status, c = .jobAck id status)
    (hresult : ∀ msg, (Bridge.handleResult G msg).PrecededBy (I := Service) Γ Φ) (job : Job B) :
    (procedure G F job).PrecededBy (I := Service) Γ Φ := by
  have hother : ∀ {c : Call}, Φ c → c.ofMessages ∧
      ((∃ profile provider id, c = .terminal profile provider id) ∨
        ∃ id status, c = .jobAck id status) := by
    intro c hc
    rcases hmessages c hc with ⟨profile, provider, id, rfl⟩ | ⟨id, status, rfl⟩
    · exact ⟨rfl, Or.inl ⟨profile, provider, id, rfl⟩⟩
    · exact ⟨rfl, Or.inr ⟨id, status, rfl⟩⟩
  have hask : ∀ {c : Call}, (∀ profile provider id, c ≠ .terminal profile provider id) →
      (∀ id status, c ≠ .jobAck id status) → (ask c).Avoids Φ := by
    intro c hterminal hack
    refine ⟨fun hc => ?_, avoids_onOk (fun _ => trivial)⟩
    rcases hmessages c hc with ⟨profile, provider, id, hcall⟩ | ⟨id, status, hcall⟩
    · exact hterminal _ _ _ hcall
    · exact hack _ _ hcall
  cases job with
  | request bound body context =>
    apply precededBy
    apply Avoids.bind
    · exact (ofRequest_route body context bound).mono fun c hc => (hother hc).1
    · exact fun _ => trivial
  | result msg => exact (hresult msg).bind_avoids fun _ => trivial
  | progress id provider submitting =>
    apply precededBy
    apply Avoids.bind
    · unfold Bridge.handleProgress
      split
      · refine (hask (by simp) (by simp)).bind fun found => ?_
        split
        · exact (hask (by simp) (by simp)).bind fun _ => hask (by simp) (by simp)
        · trivial
      · trivial
    · exact fun _ => trivial
  | reset =>
    apply precededBy
    apply Avoids.bind
    · refine (hask (by simp) (by simp)).bind fun idle => ?_
      split
      · exact (hask (by simp) (by simp)).bind
          fun _ => (hask (by simp) (by simp)).bind (fun _ => hask (by simp) (by simp))
      · trivial
    · exact fun _ => trivial
  | connect =>
    apply precededBy
    exact (hask (by simp) (by simp)).bind fun _ => trivial
  | disconnect =>
    apply precededBy
    exact (hask (by simp) (by simp)).bind fun _ => trivial
  | background =>
    apply precededBy
    exact (hask (by simp) (by simp)).bind fun _ => trivial

variable {status : Status} {profile provider : String}

/-- An acknowledged result was handed over or told. -/
theorem handed_handleResult (hstatus : status ≠ .unknown) (msg : ResultMessage) :
    (Bridge.handleResult G msg).PrecededBy (I := Service) (Handed G.profileId id status)
      (fun c => c = .jobAck id status) := by
  unfold Bridge.handleResult
  split
  · rename_i id' provider result _ _ _
    split
    · -- an acknowledgement of another result
      have hother : ¬ (id' = id ∧ result.status = status) →
          (ask (.jobAck id' result.status)).PrecededBy (I := Service)
            (Handed G.profileId id status) (fun c => c = .jobAck id status) := by
        intro hne
        apply precededBy
        refine ⟨fun hcall => ?_, avoids_onOk (fun _ => trivial)⟩
        cases hcall
        exact hne ⟨rfl, rfl⟩
      refine precededBy_perform (by simp) fun delivery => ?_
      cases delivery with
      | mismatch => exact Or.inr trivial
      | delivered =>
        by_cases hsame : id' = id ∧ result.status = status
        · exact Or.inl ⟨hsame.1, hsame.2, rfl⟩
        · exact Or.inr (hother hsame)
      | late =>
        right
        dsimp only
        split
        · refine precededBy_perform (by simp) fun _ => ?_
          by_cases hsame : id' = id
          · exact Or.inl ⟨rfl, hsame⟩
          · exact Or.inr (hother (fun h => hsame h.1))
        · rename_i hunknown
          apply hother
          rintro ⟨_, hsame⟩
          rw [hsame] at hunknown
          exact hunknown hstatus
    · trivial
  · trivial

/-- The store is told of late results only. -/
theorem late_handleResult (msg : ResultMessage) :
    (Bridge.handleResult G msg).PrecededBy (I := Service) (FoundLate provider id)
      (fun c => c = .terminal profile provider id) := by
  unfold Bridge.handleResult
  split
  · rename_i id' provider' result _ _ _
    split
    · have hack : ∀ status, (ask (.jobAck id' status)).PrecededBy (I := Service)
          (FoundLate provider id) (fun c => c = .terminal profile provider id) := by
        intro status
        apply precededBy
        exact ⟨by simp, avoids_onOk (fun _ => trivial)⟩
      refine precededBy_perform (by simp) fun delivery => ?_
      cases delivery with
      | mismatch => exact Or.inr trivial
      | delivered => exact Or.inr (hack _)
      | late =>
        by_cases hsame : provider' = provider ∧ id' = id ∧ result.status ≠ .unknown
        · exact Or.inl ⟨hsame.1, hsame.2.1, hsame.2.2, rfl⟩
        · right
          dsimp only
          split
          · rename_i hknown
            refine precededBy_perform ?_ fun _ => Or.inr (hack _)
            intro hcall
            cases hcall
            exact hsame ⟨rfl, rfl, hknown⟩
          · exact hack _
    · trivial
  · trivial

variable {start : Threads M} {acts : Nat → Action (Job B) Env} {k i : Nat} {w : Env}

/-- **Before an acknowledgement** the result was delivered, or the store was told of it. -/
theorem jobAck_cases (hempty : start.threads = []) (hstatus : status ≠ .unknown)
    (hcalls : Makes G F start acts k i w (.jobAck id status)) :
    (∃ l < k, ∃ w' provider result, result.status = status ∧
      Makes G F start acts l i w' (.deliver provider id result) ∧
      ((worldAt G F start acts l).deliver provider id result).1 = .delivered) ∨
    ∃ l < k, ∃ w' provider, Makes G F start acts l i w' (.terminal G.profileId provider id) ∧
      (handle G w' (.terminal G.profileId provider id) (worldAt G F start acts l)).1 = .ok () := by
  have hcode : ∀ job, (procedure G F job).PrecededBy (I := Service)
      (Handed G.profileId id status) (fun c => c = .jobAck id status) := by
    intro job
    apply precededBy_procedure
    · rintro c rfl
      exact Or.inr ⟨id, status, rfl⟩
    · exact handed_handleResult hstatus
  obtain ⟨l, hl, w', c, answer, hcalls', hok, hhanded⟩ := preceded_at hempty hcode hcalls rfl
  cases c with
  | deliver provider id' result =>
    obtain ⟨rfl, hsame, rfl⟩ := hhanded
    exact Or.inl ⟨l, hl, w', provider, result, hsame, hcalls', Except.ok.inj hok⟩
  | terminal profile provider id' =>
    obtain ⟨rfl, rfl⟩ := hhanded
    exact Or.inr ⟨l, hl, w', provider, hcalls', hok⟩
  | _ => cases hhanded

/-- **Before the store is told** the result was found to be late. -/
theorem terminal_cases (hempty : start.threads = [])
    (hcalls : Makes G F start acts k i w (.terminal profile provider id)) :
    ∃ l < k, ∃ w' result, result.status ≠ .unknown ∧
      Makes G F start acts l i w' (.deliver provider id result) ∧
      ((worldAt G F start acts l).deliver provider id result).1 = .late := by
  have hcode : ∀ job, (procedure G F job).PrecededBy (I := Service)
      (FoundLate provider id) (fun c => c = .terminal profile provider id) := by
    intro job
    apply precededBy_procedure
    · rintro c rfl
      exact Or.inl ⟨profile, provider, id, rfl⟩
    · exact late_handleResult
  obtain ⟨l, hl, w', c, answer, hcalls', hok, hlate⟩ := preceded_at hempty hcode hcalls rfl
  cases c with
  | deliver provider' id' result =>
    obtain ⟨rfl, rfl, hknown, rfl⟩ := hlate
    exact ⟨l, hl, w', result, hknown, hcalls', Except.ok.inj hok⟩
  | _ => cases hlate

end Engine

end Gateway
