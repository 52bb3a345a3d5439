import FeedAnalyzer.ExclusiveClaim
import FeedAnalyzer.SnapshotWorker

/-!
# The life of a snapshot job

Every update of a job asks for the state `PENDING`, so the other states are final
(`Evolves`).  A sample, its outbox row and `SUCCEEDED` are written together (`Consistent`).
A claim counts its attempt, and `collect` reads only for the first two, so a page is read
at most twice for a job.
-/

namespace Snapshots

open Feed Transact Proc List Store Table Avoids

variable {reg : Registry}
  {job row : Job} {jobs : Table (fun row : Job => row.jobId)} {s s' : Store reg}
  {message : PriceSampleObserved reg} {dbNow : Int}

/-- A job as an operation leaves it. -/
structure Follows (job job' : Job) : Prop where
  jobId : job'.jobId = job.jobId
  attempts : job.attempts ≤ job'.attempts
  final : job.state ≠ .pending → job'.state = job.state

theorem Follows.refl (job : Job) : Follows job job := ⟨rfl, le_refl _, fun _ => rfl⟩

variable {job' : Job} {p : Job → Bool} {f : Job → Job} {c : Call reg}

theorem Follows.trans {job'' : Job} (h : Follows job job') (h' : Follows job' job'') :
    Follows job job'' where
  jobId := h'.jobId.trans h.jobId
  attempts := le_trans h.attempts h'.attempts
  final hstate := by
    have hsame := h.final hstate
    rw [← hsame] at hstate
    exact (h'.final hstate).trans hsame

/-- No job is deleted, no attempt forgotten, and no final state left. -/
def Evolves (jobs jobs' : Table (fun row : Job => row.jobId)) : Prop :=
  ∀ job ∈ jobs, ∃ job' ∈ jobs', Follows job job'

theorem Evolves.refl (jobs : Table (fun row : Job => row.jobId)) : Evolves jobs jobs :=
  fun job hjob => ⟨job, hjob, Follows.refl job⟩

theorem Evolves.trans {jobs' jobs'' : Table (fun row : Job => row.jobId)} (h : Evolves jobs jobs')
    (h' : Evolves jobs' jobs'') : Evolves jobs jobs'' := by
  intro job hjob
  obtain ⟨job', hjob', hfollows⟩ := h job hjob
  obtain ⟨job'', hjob'', hfollows'⟩ := h' job' hjob'
  exact ⟨job'', hjob'', hfollows.trans hfollows'⟩

theorem evolves_updateWhere (hf : ∀ job, (f job).jobId = job.jobId)
    (hpending : ∀ job ∈ jobs, p job → job.state = .pending)
    (hattempts : ∀ job, job.attempts ≤ (f job).attempts) :
    Evolves jobs (jobs.updateWhere p f hf) := by
  intro job hjob
  cases hp : p job with
  | true =>
    refine ⟨f job, mem_updateWhere_of hjob hp, hf job, hattempts job, ?_⟩
    intro hstate
    exact absurd (hpending job hjob hp) hstate
  | false => exact ⟨job, mem_updateWhere_of_not hjob hp, Follows.refl job⟩

theorem evolves_insertJob (jobs : Table (fun row : Job => row.jobId)) (job : Job) :
    Evolves jobs (insertJob jobs job) := by
  unfold insertJob
  split
  · exact Evolves.refl jobs
  · intro job' hjob'
    exact ⟨job', mem_insertNew_of_mem hjob', Follows.refl job'⟩

theorem evolves_foldl (new : List Job) (jobs : Table (fun row : Job => row.jobId)) :
    Evolves jobs (new.foldl insertJob jobs) := by
  induction new generalizing jobs with
  | nil => exact Evolves.refl jobs
  | cons job rest ih => exact (evolves_insertJob jobs job).trans (ih _)

/-- What a claim does to the tables, whether or not it finds a job. -/
theorem claim_cases (s : Store reg) (tie : Job → Nat) (token : Uuid) (now : Int) :
    s.claim tie token now = (none, s) ∨
    ∃ job ∈ s.jobs, job.state = .pending ∧ s.claim tie token now = (some (claimed token now job),
        { s with
            jobs := s.jobs.updateWhere (fun j => j.jobId = job.jobId) (claimed token now)
              (fun _ => rfl) }) := by
  unfold claim
  split
  · exact Or.inl rfl
  · next job hhead =>
    obtain ⟨hjob, hclaimable, _⟩ := head?_selectOrdered hhead
    simp only [claimable, Bool.and_eq_true, decide_eq_true_eq] at hclaimable
    exact Or.inr ⟨job, hjob, hclaimable.1.1.1, rfl⟩

theorem pending_of_key (hjob : job ∈ s.jobs) (hpending : job.state = .pending)
    (hjob' : job' ∈ s.jobs) (hkey : decide (job'.jobId = job.jobId)) : job'.state = .pending := by
  rw [eq_of_key hjob' hjob (of_decide_eq_true hkey)]
  exact hpending

theorem evolves_claim (s : Store reg) (tie : Job → Nat) (token : Uuid) (now : Int) :
    Evolves s.jobs (s.claim tie token now).2.jobs := by
  rcases claim_cases s tie token now with hnone | ⟨job, hjob, hpending, hsome⟩
  · rw [hnone]
    exact Evolves.refl s.jobs
  · rw [hsome]
    dsimp only
    exact evolves_updateWhere _ (fun job' hjob' hkey => pending_of_key hjob hpending hjob' hkey)
      fun job' => Nat.le_succ _

/-- What `install` does to the jobs. -/
theorem install_jobs {config : MappingFile} (h : s.install config = some s') :
    ∃ active : Job → Bool,
      s'.jobs = s.jobs.updateWhere (fun job => job.state = .pending && !active job)
        (fun job => { job with
          state := .cancelled, lease := none, lastError := some "MAPPING_DISABLED" })
        (fun _ => rfl) ∧
      s'.priceSamples = s.priceSamples ∧ s'.outbox = s.outbox ∧ s'.control = s.control := by
  unfold install at h
  dsimp only at h
  split at h
  · cases h
    exact ⟨_, rfl, rfl, rfl, rfl⟩
  · cases h

theorem heldBy_pending (h : heldBy row job) : job.state = .pending := by
  simp only [heldBy, Bool.and_eq_true, decide_eq_true_eq] at h
  exact h.2

/-- What `save` does when it saves. -/
theorem save_eq_true (h : s.save row message dbNow = some (true, s')) :
    (∃ job ∈ s.jobs, s.savable dbNow row job) ∧
    s.priceSamples.has message.sampleId = false ∧ s.outbox.has message.messageId = false ∧
    s'.jobs = s.jobs.updateWhere (s.savable dbNow row) (fun job => { job with
        state := .succeeded, lease := none, leaseUntil := none, lastError := none })
      (fun _ => rfl) ∧
    s'.priceSamples = s.priceSamples.insertNew
      ⟨message.sampleId, row.listing.instrumentId, row.listing.expectedExchange, message⟩ ∧
    s'.outbox = s.outbox.insertNew ⟨message.messageId, message, false⟩ ∧
    s'.control = s.control := by
  unfold save at h
  split at h
  · next hany =>
    split at h
    · cases h
    · next hfresh =>
      obtain ⟨job, hjob, hsavable⟩ := any_eq_true.mp hany
      simp only [Bool.or_eq_true, not_or, Bool.not_eq_true] at hfresh
      cases h
      exact ⟨⟨job, hjob, hsavable⟩, hfresh.1, hfresh.2, rfl, rfl, rfl, rfl⟩
  · cases h

theorem save_eq_false (h : s.save row message dbNow = some (false, s')) : s' = s := by
  unfold save at h
  split at h
  · split at h
    · cases h
    · cases h
  · cases h
    rfl

/-- **One call.**  Whatever a call does, the jobs only evolve. -/
theorem evolves_handle (w : Answer) (c : Call reg) (s : Store reg) :
    Evolves s.jobs (handle w c s).2.jobs := by
  rcases handle_store w c s with hsame | hdone
  · rw [hsame]
    exact Evolves.refl s.jobs
  rw [hdone]
  cases c with
  | install config =>
    simp only [effect]
    cases hinstall : s.install config with
    | none => exact Evolves.refl s.jobs
    | some s' =>
      obtain ⟨active, hjobs, _⟩ := install_jobs hinstall
      show Evolves s.jobs s'.jobs
      rw [hjobs]
      refine evolves_updateWhere _ (fun job _ hp => ?_) fun job => le_refl _
      simp only [Bool.and_eq_true, decide_eq_true_eq] at hp
      exact hp.1
  | schedule listing version registryVersion window intervalSeconds => exact evolves_foldl _ _
  | expire now lateness =>
    simp only [effect, expire]
    refine evolves_updateWhere _ (fun job _ hp => ?_) fun job => le_refl _
    simp only [Bool.and_eq_true, decide_eq_true_eq] at hp
    exact hp.1.1
  | claim now => exact evolves_claim s w.tie w.token now
  | failure row reason now retry pause retryDelay =>
    simp only [effect, Store.failure]
    exact evolves_updateWhere _ (fun job _ hp => heldBy_pending hp) fun job => le_refl _
  | save row message =>
    simp only [effect]
    cases hsave : s.save row message w.dbNow with
    | none => exact Evolves.refl s.jobs
    | some result =>
      obtain ⟨saved, s'⟩ := result
      cases saved with
      | false =>
        rw [save_eq_false hsave]
        exact Evolves.refl s.jobs
      | true =>
        show Evolves s.jobs s'.jobs
        rw [(save_eq_true hsave).2.2.2.1]
        refine evolves_updateWhere _ (fun job _ hp => ?_) fun job => le_refl _
        simp only [savable, Bool.and_eq_true] at hp
        exact heldBy_pending hp.1.1
  | clearCooldown =>
    simp only [effect, clearCooldown]
    split
    · exact Evolves.refl s.jobs
    · exact Evolves.refl s.jobs
  | _ => exact Evolves.refl s.jobs

/-- The job has the state `SUCCEEDED`. -/
def succeededIn (jobs : Table (fun row : Job => row.jobId)) (id : Uuid) : Bool :=
  jobs.rows.any fun job => job.jobId = id && job.state = .succeeded

theorem succeededIn_iff {id : Uuid} :
    succeededIn jobs id ↔ ∃ job ∈ jobs, job.jobId = id ∧ job.state = .succeeded := by
  simp [succeededIn]

/-- Exactly the jobs that have succeeded have a sample and an outbox row. -/
structure Consistent (s : Store reg) : Prop where
  samples : ∀ id, s.priceSamples.has id = succeededIn s.jobs id
  outbox : ∀ id, s.outbox.has id = succeededIn s.jobs id

theorem succeededIn_updateWhere (hf : ∀ job, (f job).jobId = job.jobId)
    (hbefore : ∀ job ∈ jobs, p job → job.state ≠ .succeeded)
    (hafter : ∀ job ∈ jobs, p job → (f job).state ≠ .succeeded) (id : Uuid) :
    succeededIn (jobs.updateWhere p f hf) id = succeededIn jobs id := by
  rw [Bool.eq_iff_iff, succeededIn_iff, succeededIn_iff]
  constructor
  · rintro ⟨job, hjob, hid, hstate⟩
    obtain ⟨old, hold, hnew⟩ := mem_updateWhere.mp hjob
    cases hp : p old with
    | true =>
      rw [if_pos hp] at hnew
      rw [← hnew] at hstate
      exact absurd hstate (hafter old hold hp)
    | false =>
      rw [if_neg (by simp [hp])] at hnew
      exact ⟨old, hold, by rw [hnew, hid], by rw [hnew, hstate]⟩
  · rintro ⟨job, hjob, hid, hstate⟩
    have hp : p job = false := by
      rw [← Bool.not_eq_true]
      intro hp
      exact hbefore job hjob hp hstate
    exact ⟨job, mem_updateWhere_of_not hjob hp, hid, hstate⟩

theorem succeededIn_insertJob (jobs : Table (fun row : Job => row.jobId))
    (hstate : job.state ≠ .succeeded) (id : Uuid) :
    succeededIn (insertJob jobs job) id = succeededIn jobs id := by
  unfold insertJob
  split
  · rfl
  · rw [Bool.eq_iff_iff, succeededIn_iff, succeededIn_iff]
    constructor
    · rintro ⟨job', hjob', hid, hstate'⟩
      rcases mem_insertNew.mp hjob' with hold | ⟨_, rfl⟩
      · exact ⟨job', hold, hid, hstate'⟩
      · exact absurd hstate' hstate
    · rintro ⟨job', hjob', hrest⟩
      exact ⟨job', mem_insertNew_of_mem hjob', hrest⟩

theorem succeededIn_foldl {new : List Job} (hnew : ∀ job ∈ new, job.state ≠ .succeeded)
    (jobs : Table (fun row : Job => row.jobId)) (id : Uuid) :
    succeededIn (new.foldl insertJob jobs) id = succeededIn jobs id := by
  induction new generalizing jobs with
  | nil => rfl
  | cons job rest ih =>
    rw [foldl_cons, ih (fun job' hjob' => hnew job' (mem_cons_of_mem _ hjob')),
      succeededIn_insertJob jobs (hnew job mem_cons_self)]

/-- The call does not touch samples, outbox rows and successes. -/
def Apart (s s' : Store reg) : Prop :=
  s'.priceSamples = s.priceSamples ∧ s'.outbox = s.outbox ∧
    ∀ id, succeededIn s'.jobs id = succeededIn s.jobs id

theorem Apart.refl (s : Store reg) : Apart s s := ⟨rfl, rfl, fun _ => rfl⟩

/-- Every call but `save` keeps apart from them. -/
theorem apart_effect (w : Answer) (hc : ∀ row message, c ≠ .save row message) (s : Store reg) :
    Apart s (effect w c s) := by
  cases c with
  | save row message => exact absurd rfl (hc row message)
  | install config =>
    simp only [effect]
    cases hinstall : s.install config with
    | none => exact Apart.refl s
    | some s' =>
      obtain ⟨active, hjobs, hsamples, houtbox, _⟩ := install_jobs hinstall
      refine ⟨hsamples, houtbox, fun id => ?_⟩
      show succeededIn s'.jobs id = _
      rw [hjobs]
      apply succeededIn_updateWhere
      · intro job _ hp
        simp only [Bool.and_eq_true, decide_eq_true_eq] at hp
        simp [hp.1]
      · intro job _ _
        simp
  | schedule listing version registryVersion window intervalSeconds =>
    refine ⟨rfl, rfl, succeededIn_foldl ?_ s.jobs⟩
    intro job hjob
    obtain ⟨slot, _, rfl⟩ := mem_map.mp hjob
    simp [jobOf]
  | expire now lateness =>
    refine ⟨rfl, rfl, ?_⟩
    simp only [effect, expire]
    apply succeededIn_updateWhere
    · intro job _ hp
      simp only [Bool.and_eq_true, decide_eq_true_eq] at hp
      simp [hp.1.1]
    · intro job _ _
      simp
  | claim now =>
    simp only [effect]
    rcases claim_cases s w.tie w.token now with hnone | ⟨job, hjob, hpending, hsome⟩
    · rw [hnone]
      exact Apart.refl s
    · rw [hsome]
      refine ⟨rfl, rfl, ?_⟩
      dsimp only
      apply succeededIn_updateWhere
      · intro job' hjob' hkey
        simp [pending_of_key hjob hpending hjob' hkey]
      · intro job' hjob' hkey
        simp [claimed, pending_of_key hjob hpending hjob' hkey]
  | failure row reason now retry pause retryDelay =>
    refine ⟨rfl, rfl, ?_⟩
    simp only [effect, Store.failure]
    apply succeededIn_updateWhere
    · intro job _ hp
      simp [heldBy_pending hp]
    · intro job _ _
      cases retry <;> simp
  | clearCooldown =>
    simp only [effect, clearCooldown]
    split
    · exact ⟨rfl, rfl, fun _ => rfl⟩
    · exact Apart.refl s
  | _ => exact ⟨rfl, rfl, fun _ => rfl⟩

theorem Consistent.of_apart (hs : Consistent s) (h : Apart s s') : Consistent s' where
  samples id := by rw [h.1, h.2.2 id, hs.samples id]
  outbox id := by rw [h.2.1, h.2.2 id, hs.outbox id]

theorem succeededIn_save (h : s.save row message dbNow = some (true, s')) (id : Uuid) :
    succeededIn s'.jobs id = (succeededIn s.jobs id || decide (row.jobId = id)) := by
  obtain ⟨⟨job, hjob, hsavable⟩, _, _, hjobs, _⟩ := save_eq_true h
  have hid : ∀ job', s.savable dbNow row job' → job'.jobId = row.jobId := by
    intro job' hp
    simp only [savable, heldBy, Bool.and_eq_true, decide_eq_true_eq] at hp
    exact hp.1.1.1.1
  rw [hjobs, Bool.eq_iff_iff, Bool.or_eq_true, succeededIn_iff, succeededIn_iff, decide_eq_true_eq]
  constructor
  · rintro ⟨job', hjob', rfl, hstate⟩
    obtain ⟨old, hold, rfl⟩ := mem_updateWhere.mp hjob'
    cases hp : s.savable dbNow row old with
    | true => exact Or.inr (by simp [hid old hp])
    | false =>
      rw [if_neg (by simp [hp])] at hstate
      exact Or.inl ⟨old, hold, by simp, hstate⟩
  · rintro (⟨job', hjob', hid', hstate⟩ | rfl)
    · have hp : s.savable dbNow row job' = false := by
        rw [← Bool.not_eq_true]
        intro hp
        simp only [savable, Bool.and_eq_true] at hp
        rw [heldBy_pending hp.1.1] at hstate
        cases hstate
      exact ⟨job', mem_updateWhere_of_not hjob' hp, hid', hstate⟩
    · exact ⟨_, mem_updateWhere_of hjob hsavable, hid job hsavable, rfl⟩

/-- **A save.**  A sample under the id of its job keeps the tables consistent. -/
theorem Consistent.save (hs : Consistent s) (hsample : message.sampleId = row.jobId)
    (hmessage : message.messageId = row.jobId) (h : s.save row message dbNow = some (true, s')) :
    Consistent s' := by
  obtain ⟨_, _, _, _, hsamples, houtbox, _⟩ := save_eq_true h
  constructor
  · intro id
    rw [hsamples, has_insertNew, succeededIn_save h, hs.samples, hsample]
  · intro id
    rw [houtbox, has_insertNew, succeededIn_save h, hs.outbox, hmessage]

/-- The message of a `save` is under the id of the job. -/
def WellNamed : Call reg → Prop
  | .save row message => message.sampleId = row.jobId ∧ message.messageId = row.jobId
  | _ => True

theorem Consistent.handle (hs : Consistent s) (w : Answer) (hc : WellNamed c) :
    Consistent (Snapshots.handle w c s).2 := by
  rcases handle_store w c s with hsame | hdone
  · rw [hsame]
    exact hs
  rw [hdone]
  by_cases hsave : ∃ row message, c = .save row message
  · obtain ⟨row, message, rfl⟩ := hsave
    simp only [effect]
    cases hresult : s.save row message w.dbNow with
    | none => exact hs
    | some result =>
      obtain ⟨saved, s'⟩ := result
      cases saved with
      | false =>
        rw [save_eq_false hresult]
        exact hs
      | true => exact hs.save hc.1 hc.2 hresult
  · exact hs.of_apart (apart_effect w (fun row message heq => hsave ⟨row, message, heq⟩) s)

def Collecting (row : Job) : Call reg → Prop
  | .read row' => row' = row ∧ row.attempts ≤ 2
  | .save row' message => message.sampleId = row'.jobId ∧ message.messageId = row'.jobId
  | .claim _ => False
  | _ => True

/-- The page is read. -/
def IsRead : Call reg → Prop
  | .read _ => True
  | _ => False

namespace SnapshotWorker

variable (settings : SnapshotSettings) {row : Job}

theorem readSample_conforms (hattempts : row.attempts ≤ 2) :
    (readSample settings row : Service reg _).Conforms (fun _ _ => True)
      (Collecting row)
      (fun message => message.sampleId = row.jobId ∧ message.messageId = row.jobId) := by
  refine Conforms.bind (R := fun _ => True) ?_ ?_
  · refine Conforms.catchWith ?_ fun e => trivial
    exact conforms_call (I := Surroundings reg) (c := .checkRegistry row.listing) trivial
  · intro registryVersion _
    split
    · exact trivial
    · apply conforms_perform
      · exact ⟨rfl, hattempts⟩
      · intro quote _
        split
        · exact trivial
        · split
          · exact trivial
          · next message hmessage =>
            obtain ⟨assetId, hfields⟩ := sampleMessage_eq_ok hmessage
            exact ⟨congrArg SampleFields.sampleId hfields, congrArg SampleFields.messageId hfields⟩

/-- The calls that neither claim, read nor save. -/
def Aside : Call reg → Prop
  | .read _ => False
  | .save _ _ => False
  | .claim _ => False
  | _ => True

theorem Aside.collecting (hc : Aside c) (row : Job) : Collecting row c := by
  cases c <;> first | exact hc.elim | exact trivial

theorem Aside.not_isRead (hc : Aside c) : ¬ IsRead c := by
  cases c <;> first | exact hc.elim | exact id

theorem writeFailure_aside (row : Job) (failure : ReadFailure) (now : Int) :
    (writeFailure settings row failure now : Service reg Unit).Conforms
      (fun _ _ => True) Aside (fun _ => True) := by
  apply conforms_perform trivial
  intro jitter _
  apply conforms_perform trivial
  intro _ _
  split
  · exact ⟨trivial, fun r _ => conforms_onOk (fun _ _ => trivial)⟩
  · exact trivial

theorem handleFailure_aside (row : Job) (raised : Raised) :
    (handleFailure settings row raised : Service reg Unit).Conforms
      (fun _ _ => True) Aside (fun _ => True) := by
  unfold handleFailure recordFailure
  apply conforms_perform trivial
  intro now _
  split
  · exact conforms_perform trivial fun _ _ => writeFailure_aside settings row _ now
  · exact writeFailure_aside settings row _ now

theorem saveOnce_conforms {message : PriceSampleObserved reg}
    (hmessage : message.sampleId = row.jobId ∧ message.messageId = row.jobId) :
    (saveOnce row message).Conforms (fun _ _ => True) (Collecting row) (fun _ => True) := by
  apply conforms_perform
  · exact hmessage
  · intro saved _
    split
    · exact ⟨trivial, fun r _ => conforms_onOk (fun _ _ => trivial)⟩
    · exact trivial

/-- **The calls of `collect`.** -/
theorem collect_conforms (row : Job) :
    (collect settings row : Service reg Unit).Conforms (fun _ _ => True)
      (Collecting row) (fun _ => True) := by
  apply conforms_perform trivial
  intro now _
  split
  · exact ⟨trivial, fun r _ => conforms_onOk (fun _ _ => trivial)⟩
  · next hattempts =>
    split
    · exact ⟨trivial, fun r _ => conforms_onOk (fun _ _ => trivial)⟩
    · refine Conforms.bind (R := fun outcome => ∀ message, outcome = .ok message →
        message.sampleId = row.jobId ∧ message.messageId = row.jobId) ?_ ?_
      · refine Conforms.catchWith ?_ ?_
        · refine (readSample_conforms settings (Nat.le_of_not_lt hattempts)).bind ?_
          rintro message hmessage _ ⟨⟩
          exact hmessage
        · rintro e _ ⟨⟩
      · intro outcome houtcome
        cases outcome with
        | error e => exact (handleFailure_aside settings row e).weaken fun c hc => Aside.collecting hc row
        | ok message =>
          have hsave := saveOnce_conforms (houtcome message rfl)
          exact hsave.catchWith fun _ => hsave.catchWith (fun _ => trivial)

theorem readSample_reads_once (row : Job) :
    (readSample settings row : Service reg _).TouchesOnce IsRead := by
  refine bind_touchesOnce ?_ ?_
  · exact ⟨id, fun r => by cases r <;> exact trivial⟩
  · intro registryVersion
    split
    · exact trivial
    · apply touchesOnce_perform
      · intro _ quote
        split
        · exact trivial
        · split <;> exact trivial
      · intro quote
        split
        · exact trivial
        · split <;> exact trivial

theorem saveOnce_aside (row : Job) (message : PriceSampleObserved reg) :
    (saveOnce row message).Avoids IsRead := by
  apply avoids_perform id
  intro saved
  split
  · exact ⟨id, avoids_onOk (fun _ => trivial)⟩
  · exact trivial

/-- **One read.**  `collect` reads the page once. -/
theorem collect_reads_once (row : Job) :
    (collect settings row : Service reg Unit).TouchesOnce IsRead := by
  apply touchesOnce_perform fun hread => hread.elim
  intro now
  split
  · exact ⟨fun hread => hread.elim, touchesOnce_onOk (fun _ => trivial)⟩
  · split
    · exact ⟨fun hread => hread.elim, touchesOnce_onOk (fun _ => trivial)⟩
    · apply TouchesOnce.bind_avoids
      · apply TouchesOnce.catchWith_avoids
        · exact (readSample_reads_once settings row).bind_avoids fun _ => trivial
        · intro e
          trivial
      · intro outcome
        cases outcome with
        | error e => exact (handleFailure_aside settings row e).avoids fun _ => Aside.not_isRead
        | ok message =>
          have hsave := saveOnce_aside row message
          exact hsave.catchWith fun _ => hsave.catchWith (fun _ => trivial)

end SnapshotWorker

/-- The calls of a tick but for claiming and collecting. -/
def Call.upkeep : Call reg → Bool
  | .claim _ => false
  | .read _ => false
  | .save _ _ => false
  | _ => true

/-- Statements of ticks, and the work on a claimed job. -/
inductive Op (reg : Registry) where
  | upkeep (c : Call reg) (hc : c.upkeep = true)
  | work (settings : SnapshotSettings) (now : Int)

def claimAndCollect (settings : SnapshotSettings) (now : Int) : Service reg Unit := do
  let row ← ask (.claim now)
  match row with
  | none => return ()
  | some job => SnapshotWorker.collect settings job

def procedure : Op reg → Service reg Unit
  | .upkeep c _ => (Proc.perform c).bind fun _ => .ret ()
  | .work settings now => claimAndCollect settings now

/-- A save is well named, and a read is of the first two attempts. -/
def Sound : Call reg → Prop
  | .read row => row.attempts ≤ 2
  | .save row message => message.sampleId = row.jobId ∧ message.messageId = row.jobId
  | _ => True

theorem Collecting.sound (hc : Collecting row c) : Sound c := by
  cases c with
  | read row' =>
    obtain ⟨rfl, hattempts⟩ := hc
    exact hattempts
  | save row' message => exact hc
  | _ => trivial

theorem procedure_sound (op : Op reg) :
    (procedure op).Conforms (fun _ _ => True) Sound (fun _ => True) := by
  cases op with
  | upkeep c hc =>
    refine conforms_perform ?_ fun _ _ => trivial
    cases c <;> first | exact trivial | cases hc
  | work settings now =>
    apply conforms_perform trivial
    intro row _
    cases row with
    | none => exact trivial
    | some job =>
      exact (SnapshotWorker.collect_conforms settings job).weaken fun c => Collecting.sound

theorem procedure_reads_once (op : Op reg) : (procedure op).TouchesOnce IsRead := by
  cases op with
  | upkeep c hc =>
    refine touchesOnce_perform ?_ fun _ => trivial
    intro _ _
    trivial
  | work settings now =>
    apply touchesOnce_perform fun hread => hread.elim
    intro row
    cases row with
    | none => exact trivial
    | some job => exact SnapshotWorker.collect_reads_once settings job

def Claims (row : Job) : (c : Call reg) → Call.Ret c → Prop
  | .claim _, answer => answer = some row
  | _, _ => False

/-- No read before a claim. -/
theorem procedure_read_after_claim (row : Job) (op : Op reg) :
    (procedure op).PrecededBy (Claims row) (fun c => c = Call.read row) := by
  cases op with
  | upkeep c hc =>
    refine precededBy_perform ?_ fun _ => Or.inr trivial
    rintro rfl
    cases hc
  | work settings now =>
    apply precededBy_perform (by simp)
    intro answer
    cases answer with
    | none => exact Or.inr trivial
    | some job =>
      by_cases hjob : job = row
      · exact Or.inl (congrArg some hjob)
      · refine Or.inr (precededBy ?_)
        apply (SnapshotWorker.collect_conforms settings job).avoids
        rintro c hc rfl
        exact hjob hc.1.symm

section Runs

variable (start : Store reg) (acts : Nat → Action (Op reg) Answer) {row : Job} {w : Answer}

/-- The tables before the `k`-th action of a run. -/
abbrev storeAt (k : Nat) : Store reg := (configAt handle procedure ⟨start, []⟩ acts k).store

theorem evolves_at (k n : Nat) :
    Evolves (storeAt start acts k).jobs (storeAt start acts (k + n)).jobs :=
  store_stays (Q := fun s : Store reg => Evolves (storeAt start acts k).jobs s.jobs)
    (fun _ _ w c _ hl => hl.trans (evolves_handle w c _)) (Nat.le_add_right k n) (Evolves.refl _)

theorem consistent_at (hstart : Consistent start) (k : Nat) :
    Consistent (storeAt start acts k) := by
  refine store_stays (Q := Consistent) (fun l i w c hcalls hl => ?_) (Nat.zero_le k) hstart
  have hsound : Sound c := conforms_at rfl procedure_sound (fun _ _ _ _ _ _ => trivial) hcalls
  refine hl.handle w ?_
  cases c <;> first | exact hsound | exact trivial

/-- The row of a read of the page. -/
def readOf : Option (Answer × Call reg) → Option Job
  | some (_, .read row) => some row
  | _ => none

theorem readOf_eq_some {call : Option (Answer × Call reg)} (h : readOf call = some row) :
    ∃ w, call = some (w, .read row) := by
  unfold readOf at h
  split at h
  · next w row' =>
    cases h
    exact ⟨w, rfl⟩
  · cases h

/-- The rows whose page was read before the `k`-th action. -/
def readRows (k : Nat) : List Job :=
  (List.range k).filterMap fun l => readOf (callAt handle procedure ⟨start, []⟩ acts l)

/-- How often a job's page was read before the `k`-th action. -/
def reads (k : Nat) (id : Uuid) : Nat := (readRows start acts k).countP fun row => row.jobId = id

variable {start acts}

/-- A claim counts one attempt. -/
theorem claim_counts {s : Store reg} {answer : Call.Ret c} (hanswer : (handle w c s).1 = .ok answer)
    (hclaims : Claims row c answer) :
    (∃ job ∈ s.jobs, job.jobId = row.jobId ∧ row.attempts = job.attempts + 1) ∧
      row ∈ (handle w c s).2.jobs := by
  cases c with
  | claim now =>
    subst hclaims
    have hfault : w.fault = none := by
      cases hfault : w.fault with
      | none => rfl
      | some e => simp [handle, Answer.statement, hfault] at hanswer
    simp only [handle, Answer.statement, hfault, Except.ok.injEq] at hanswer ⊢
    rcases claim_cases s w.tie w.token now with hnone | ⟨job, hjob, _, hsome⟩
    · rw [hnone] at hanswer
      cases hanswer
    · rw [hsome] at hanswer ⊢
      cases hanswer
      refine ⟨⟨job, hjob, rfl, rfl⟩, ?_⟩
      dsimp only
      exact mem_updateWhere_of hjob (by simp)
  | _ => exact hclaims.elim

variable {l m i : Nat} {w' : Answer} {row' : Job}

/-- A later claim has a higher count. -/
theorem attempts_differ {c' : Call reg} {answer answer'} (hlt : l < m)
    (hcalls : CallsAt handle procedure ⟨start, []⟩ acts l i w c)
    (hanswer : (handle w c (storeAt start acts l)).1 = .ok answer) (hclaims : Claims row c answer)
    (hanswer' : (handle w' c' (storeAt start acts m)).1 = .ok answer')
    (hclaims' : Claims row' c' answer') (hid : row.jobId = row'.jobId) :
    row.attempts < row'.attempts := by
  have hrow := (claim_counts hanswer hclaims).2
  obtain ⟨⟨job, hjob, hjobId, hattempts⟩, _⟩ := claim_counts hanswer' hclaims'
  have hlater : Evolves (storeAt start acts (l+1)).jobs (storeAt start acts m).jobs := by
    have h := evolves_at start acts (l+1) (m - (l+1))
    rwa [show l + 1 + (m - (l+1)) = m by omega] at h
  have hstore : storeAt start acts (l+1) = (handle w c (storeAt start acts l)).2 := hcalls.store_succ
  rw [← hstore] at hrow
  obtain ⟨job', hjob', hfollows⟩ := hlater row hrow
  have hsame : job' = job :=
    eq_of_key hjob' hjob ((hfollows.jobId.trans hid).trans hjobId.symm)
  have hgrown := hfollows.attempts
  rw [hsame] at hgrown
  omega

theorem reads_differ {i' : Nat} (hlt : l < m)
    (hread : CallsAt handle procedure ⟨start, []⟩ acts l i w (.read row))
    (hread' : CallsAt handle procedure ⟨start, []⟩ acts m i' w' (.read row'))
    (hid : row.jobId = row'.jobId) : row.attempts ≠ row'.attempts := by
  obtain ⟨k, _, u, c, answer, hcalls, hanswer, hclaims⟩ :=
    preceded_at rfl (procedure_read_after_claim row) hread rfl
  obtain ⟨k', _, u', c', answer', hcalls', hanswer', hclaims'⟩ :=
    preceded_at rfl (procedure_read_after_claim row') hread' rfl
  rcases Nat.lt_trichotomy k k' with hbefore | hsame | hafter
  · exact Nat.ne_of_lt (attempts_differ hbefore hcalls hanswer hclaims hanswer' hclaims' hid)
  · -- one claim is made by one procedure, which reads once
    subst hsame
    obtain ⟨rfl, _, _⟩ := hcalls.unique hcalls'
    exact absurd trivial (touchesOnce_at rfl procedure_reads_once hlt hread trivial hread')
  · exact (Nat.ne_of_lt
      (attempts_differ hafter hcalls' hanswer' hclaims' hanswer hclaims hid.symm)).symm

theorem read_attempts (hread : CallsAt handle procedure ⟨start, []⟩ acts l i w (.read row)) :
    row.attempts ∈ [1, 2] := by
  have hsound : Sound (Call.read row : Call reg) :=
    conforms_at rfl procedure_sound (fun _ _ _ _ _ _ => trivial) hread
  have hle : row.attempts ≤ 2 := hsound
  obtain ⟨k, _, u, c, answer, _, hanswer, hclaims⟩ :=
    preceded_at rfl (procedure_read_after_claim row) hread rfl
  obtain ⟨⟨job, _, _, hattempts⟩, _⟩ := claim_counts hanswer hclaims
  have hcases : row.attempts = 1 ∨ row.attempts = 2 := by omega
  simpa using hcases

theorem readOf_callAt (h : readOf (callAt handle procedure ⟨start, []⟩ acts l) = some row) :
    ∃ i w, CallsAt handle procedure ⟨start, []⟩ acts l i w (.read row) := by
  obtain ⟨w, hcall⟩ := readOf_eq_some h
  obtain ⟨i, hcalls⟩ := exists_callsAt hcall
  exact ⟨i, w, hcalls⟩

theorem readRows_pairwise (k : Nat) : (readRows start acts k).Pairwise
      (fun row row' => row.jobId = row'.jobId → row.attempts ≠ row'.attempts) := by
  refine Pairwise.filterMap _ ?_ pairwise_lt_range
  intro l m hlt row hrow row' hrow' hid
  obtain ⟨i, w, hread⟩ := readOf_callAt hrow
  obtain ⟨i', w', hread'⟩ := readOf_callAt hrow'
  exact reads_differ hlt hread hread' hid

/-- **Two reads.**  The page is read at most twice for a job. -/
theorem reads_le_two (k : Nat) (id : Uuid) : reads start acts k id ≤ 2 := by
  rw [reads, countP_eq_length_filter]
  -- the attempts of the reads are different, and they are among two
  have hnodup : (((readRows start acts k).filter fun row => row.jobId = id).map
      (·.attempts)).Nodup := by
    rw [Nodup, pairwise_map, pairwise_filter]
    refine (readRows_pairwise k).imp ?_
    intro row row' hdiffer hrow hrow'
    exact hdiffer ((of_decide_eq_true hrow).trans (of_decide_eq_true hrow').symm)
  have hsubset : ((readRows start acts k).filter fun row => row.jobId = id).map (·.attempts) ⊆
      [1, 2] := by
    intro attempts hmem
    obtain ⟨row, hrow, rfl⟩ := mem_map.mp hmem
    obtain ⟨l, _, hl⟩ := mem_filterMap.mp (mem_filter.mp hrow).1
    obtain ⟨i, w, hread⟩ := readOf_callAt hl
    exact read_attempts hread
  have hlength := (subperm_of_subset hnodup hsubset).length_le
  rwa [length_map] at hlength

end Runs

/-- The tables before the first job is scheduled. -/
def unscheduled (mappings : Table (fun row : MappingRow => row.version))
    (assets : Table (fun row : AssetRow => row.assetId)) (control : Control) : Store reg :=
  { mappings := mappings, assets := assets, control := control }

/-- **Snapshot jobs.**  In every interleaving, wherever workers crash: a job that has left
`PENDING` keeps its state; it has one sample and one outbox row if it has succeeded, and
else none; and the page is read at most twice for it. -/
theorem jobs_settle_once (mappings : Table (fun row : MappingRow => row.version))
    (assets : Table (fun row : AssetRow => row.assetId)) (control : Control)
    (acts : Nat → Action (Op reg) Answer) (k : Nat) :
    (∀ n, ∀ job ∈ (storeAt (unscheduled mappings assets control) acts k).jobs,
      job.state ≠ .pending →
      ∃ job' ∈ (storeAt (unscheduled mappings assets control) acts (k + n)).jobs,
        job'.jobId = job.jobId ∧ job'.state = job.state) ∧
    (∀ id,
      let store := storeAt (unscheduled mappings assets control) acts k
      store.priceSamples.rows.countP (fun row => row.sampleId = id) =
          (if succeededIn store.jobs id then 1 else 0) ∧
        store.outbox.rows.countP (fun row => row.messageId = id) =
          (if succeededIn store.jobs id then 1 else 0)) ∧
    ∀ id, reads (unscheduled mappings assets control) acts k id ≤ 2 := by
  refine ⟨?_, ?_, fun id => reads_le_two k id⟩
  · intro n job hjob hstate
    obtain ⟨job', hjob', hfollows⟩ := evolves_at _ acts k n job hjob
    exact ⟨job', hjob', hfollows.jobId, hfollows.final hstate⟩
  · intro id
    have hstart : Consistent (unscheduled mappings assets control : Store reg) :=
      ⟨fun _ => rfl, fun _ => rfl⟩
    have hconsistent := consistent_at _ acts hstart k
    dsimp only
    rw [countP_key, countP_key, hconsistent.samples, hconsistent.outbox]
    exact ⟨rfl, rfl⟩

end Snapshots
