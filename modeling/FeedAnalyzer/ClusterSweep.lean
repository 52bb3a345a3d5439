import FeedAnalyzer.CleansingCalls
import FeedAnalyzer.JobHistory

/-!
# Claimed clusters

A sweep makes the due clusters `MERGING` before it builds the first event.  Only an
`AmbiguousMergeError` is caught: it leaves its own cluster `ERROR_RETRYABLE`.  Any
other exception and a crash end the sweep, and what it has left behind is never
claimed again (`never_claimed_again`).
-/

namespace Cleansing

open Feed Transact List Store Table Option

variable {reg : Registry}

/-- The store before the `n`-th job of a history. -/
abbrev jobStoreAt (repo : CleansingRepository) (P : CleansingPipeline reg) (start : Store reg)
    (jobs : Nat → Job × List (Answer reg)) (n : Nat) : Store reg :=
  historyAt (handle repo) P.perform start jobs n

/-- The clusters that a job claimed, in its second call. -/
def claimedBy (repo : CleansingRepository) (job : Job × List (Answer reg)) (s : Store reg) :
    List Uuid :=
  match job with
  | (.closeSweep, clock :: claim :: _) =>
    match (handle repo claim (.claimReadyClusters clock.now) s).1 with
    | .ok claimed => claimed.map ClusterRow.clusterId
    | .error _ => []
  | _ => []

/-- Every claimed cluster left `MERGING` or `ERROR_RETRYABLE` is claimed again, and the
others of its batch are merged. -/
def Recovers (repo : CleansingRepository) (P : CleansingPipeline reg) (start : Store reg)
    (jobs : Nat → Job × List (Answer reg)) : Prop :=
  ∀ n, ∀ clusterId ∈ claimedBy repo (jobs n) (jobStoreAt repo P start jobs n),
    (jobStoreAt repo P start jobs (n + 1)).stateOf clusterId = some .merging ∨
      (jobStoreAt repo P start jobs (n + 1)).stateOf clusterId = some .errorRetryable →
    (∃ m, n < m ∧ clusterId ∈ claimedBy repo (jobs m) (jobStoreAt repo P start jobs m)) ∧
      ∀ other ∈ claimedBy repo (jobs n) (jobStoreAt repo P start jobs n), other ≠ clusterId →
        (jobStoreAt repo P start jobs (n + 1)).stateOf other = some .merged

/-- The cluster exists and takes no more articles. -/
def Store.Sealed (s : Store reg) (clusterId : Uuid) : Prop :=
  ∃ state, s.stateOf clusterId = some state ∧ state.acceptsArticles = false

def Call.Opens (clusterId : Uuid) : Call reg → Prop
  | .addArticleToCluster target _ _ _ => target = clusterId
  | .setClusterState _ state => state.acceptsArticles = true
  | _ => False

variable {clusterId : Uuid} {job : Job × List (Answer reg)} {claimed : List ClusterRow}
  {actions : List ActionRow}

/-- Only an opening call unseals. -/
theorem handle_sealed (repo : CleansingRepository) (w : Answer reg) (c : Call reg) (s : Store reg)
    (hc : ¬ c.Opens clusterId) (hsealed : s.Sealed clusterId) :
    (handle repo w c s).2.Sealed clusterId := by
  obtain ⟨state, hstate, hnot⟩ := hsealed
  rcases handle_state_cases repo clusterId w c s with
    hsame | ⟨hnone, _⟩ | ⟨hadds, _⟩ | ⟨_, ⟨claimed, hclaimed, haccepts⟩, _⟩ | ⟨htouches, _, hset⟩
  · exact ⟨state, hsame.trans hstate, hnot⟩
  · rw [hstate] at hnone
    cases hnone
  · cases c with
    | addArticleToCluster target facts vector quietDeadline => exact absurd hadds hc
    | _ => exact hadds.elim
  · rw [hstate] at hclaimed
    cases hclaimed
    rw [hnot] at haccepts
    cases haccepts
  · rw [hstate] at hset
    refine ⟨c.written, hset, ?_⟩
    cases c with
    | setClusterState target written => simpa [Call.Opens, Call.written] using hc
    | storeEventWithOutbox event => rfl
    | _ => exact htouches.elim

section Sealed

variable {repo : CleansingRepository} {P : CleansingPipeline reg} {clusterId : Uuid} {s : Store reg}

/-- A sealed cluster stays sealed, wherever the procedure is cut off. -/
abbrev KeepsSealed (repo : CleansingRepository) (clusterId : Uuid) {α : Type}
    (p : Service reg α) (s : Store reg) : Prop :=
  p.Meets (handle repo) (fun _ _ _ => True) (fun s => s.Sealed clusterId)
    (fun _ s => s.Sealed clusterId) s

section

variable (hsealed : s.Sealed clusterId)

include hsealed

theorem keepsSealed_ask {α : Type} {c : Call reg} {f : c.Ret → Service reg α}
    (hc : ¬ c.Opens clusterId)
    (hf : ∀ a s', s'.Sealed clusterId → KeepsSealed repo clusterId (f a) s') :
    KeepsSealed repo clusterId ((ask c).bind f) s :=
  Proc.meets_perform hsealed (fun w a _ _ => hf a _ (handle_sealed repo w c s hc hsealed))
    fun w _ _ _ => handle_sealed repo w c s hc hsealed

theorem writeAssignment_keepsSealed (facts : ArticleFacts) (eventType : EventType)
    (vector : List Rat) (quietAt lifetimeAt : Int) {candidates : List ClusterCandidate}
    (hother : ∀ candidate ∈ candidates, candidate.clusterId ≠ clusterId) :
    KeepsSealed repo clusterId
      (P.writeAssignment facts eventType vector quietAt lifetimeAt candidates) s := by
  unfold CleansingPipeline.writeAssignment
  split
  · exact keepsSealed_ask hsealed id fun _ _ hs => hs
  · next target htarget =>
    refine keepsSealed_ask hsealed ?_ fun _ _ hs => hs
    obtain ⟨candidate, hmem, rfl⟩ := CleansingPipeline.decideAssignment_mem htarget
    exact hother candidate hmem

theorem assignToCluster_keepsSealed (facts : ArticleFacts) (eventType : EventType)
    (vector : List Rat) :
    KeepsSealed repo clusterId (P.assignToCluster facts eventType vector) s := by
  refine keepsSealed_ask hsealed id fun now s₁ hs₁ => ?_
  split
  · exact writeAssignment_keepsSealed hs₁ _ _ _ _ _ fun candidate hmem => absurd hmem (by simp)
  · refine Proc.meets_perform hs₁ (fun w candidates _ hres => ?_)
      fun w e _ hres => handle_sealed repo w _ s₁ id hs₁
    -- nothing runs between the lookup and the join
    have hfind := (commit_eq_ok hres).2
    simp only [findCandidateClusters, Except.ok.injEq, Prod.mk.injEq] at hfind
    refine writeAssignment_keepsSealed (handle_sealed repo w _ s₁ id hs₁) _ _ _ _ _ ?_
    intro candidate hmem hid
    rw [← hfind.1] at hmem
    obtain ⟨row, hrow, rfl⟩ := mem_map.mp hmem
    obtain ⟨hrow, haccepts⟩ := mem_of_mem_selectOrdered hrow
    obtain ⟨state, hstate, hnot⟩ := hs₁
    rw [← hid, stateOf_of_mem hrow] at hstate
    cases hstate
    simp [hnot] at haccepts

theorem processArticle_keepsSealed (message : ArticleIngested) :
    KeepsSealed repo clusterId (P.processArticle message) s := by
  refine keepsSealed_ask hsealed id fun seen s₁ hs₁ => ?_
  split
  · exact hs₁
  refine keepsSealed_ask hs₁ id fun now s₂ hs₂ => ?_
  refine keepsSealed_ask hs₂ id fun recent s₃ hs₃ => ?_
  split
  · exact hs₃
  refine keepsSealed_ask hs₃ id fun vector s₄ hs₄ => ?_
  refine keepsSealed_ask hs₄ id fun action s₅ hs₅ => ?_
  refine keepsSealed_ask hs₅ id fun _ s₆ hs₆ => ?_
  refine keepsSealed_ask hs₆ id fun _ s₇ hs₇ => ?_
  refine keepsSealed_ask hs₇ id fun _ s₈ hs₈ => ?_
  exact assignToCluster_keepsSealed hs₈ _ _ _

end

theorem closeReadyClusters_not_opens : P.closeReadyClusters.Avoids (Call.Opens clusterId) := by
  refine CleansingPipeline.closeReadyClusters_calls.mono fun c hopens hsweep => ?_
  cases c with
  | addArticleToCluster target facts vector quietDeadline => exact hsweep.elim
  | setClusterState target state =>
    have hstate : state = .errorRetryable := hsweep
    subst hstate
    cases hopens
  | _ => exact hopens.elim

theorem perform_keepsSealed (job : Job) (ws : List (Answer reg)) (hsealed : s.Sealed clusterId) :
    ((P.perform job).advance (handle repo) ws s).2.Sealed clusterId := by
  cases job with
  | article message =>
    refine Proc.Meets.invariant (C := fun s : Store reg => s.Sealed clusterId) ?_
      (Proc.admitted_of_forall (fun _ _ _ => trivial) _ _ _)
    refine Proc.Meets.bind ((processArticle_keepsSealed hsealed message).mono fun r s' hs' => ?_)
    cases r <;> exact hs'
  | closeSweep =>
    have havoids : (P.perform .closeSweep).Avoids (Call.Opens clusterId) :=
      closeReadyClusters_not_opens.bind fun _ => trivial
    exact havoids.advance_preserves (fun w c s hc hs => handle_sealed repo w c s hc hs) ws hsealed

theorem accepting_of_claimedBy (hclaimed : clusterId ∈ claimedBy repo job s) :
    ¬ s.Sealed clusterId := by
  rintro ⟨state, hstate, hnot⟩
  unfold claimedBy at hclaimed
  split at hclaimed
  · split at hclaimed
    · next claimed hok =>
      obtain ⟨state', hstate', haccepts⟩ :=
        stateOf_of_claimed (commit_eq_ok hok).2 hclaimed
      rw [hstate] at hstate'
      cases hstate'
      rw [hnot] at haccepts
      cases haccepts
    · cases hclaimed
  · cases hclaimed

variable {start : Store reg} {jobs : Nat → Job × List (Answer reg)}

/-- **Claimed once.**  A cluster that is sealed at some point of a history is in
no later claim. -/
theorem never_claimed_again {n m : Nat} (hle : n ≤ m)
    (hsealed : (jobStoreAt repo P start jobs n).Sealed clusterId) :
    clusterId ∉ claimedBy repo (jobs m) (jobStoreAt repo P start jobs m) := by
  intro hclaimed
  refine accepting_of_claimedBy hclaimed ?_
  exact historyAt_stays (fun s : Store reg => s.Sealed clusterId)
    (fun job ws _ hs => perform_keepsSealed job ws hs) hle hsealed

/-- The work of a sweep on what it claimed. -/
def closeClaimed (P : CleansingPipeline reg) (claimed : List ClusterRow) : Service reg JobResult :=
  (P.closeClusters claimed 0).bind fun events => .ret (.produced events)

theorem advance_closeSweep {clock claim : Answer reg} {rest : List (Answer reg)}
    (hok : (handle repo claim (.claimReadyClusters clock.now) s).1 = .ok claimed) :
    (P.perform .closeSweep).advance (handle repo) (clock :: claim :: rest) s =
      (closeClaimed P claimed).advance (handle repo) rest
        (handle repo claim (.claimReadyClusters clock.now) s).2 := by
  change ((P.claimAndClose clock.now).bind _).advance (handle repo) (claim :: rest) s = _
  rw [claimAndClose_bind, Proc.advance_call, hok]
  rfl

/-- `MERGING`, `MERGED` or `ERROR_RETRYABLE`. -/
def Store.Worked (s : Store reg) (clusterId : Uuid) : Prop :=
  s.stateOf clusterId = some .merging ∨ s.stateOf clusterId = some .merged ∨
    s.stateOf clusterId = some .errorRetryable

theorem Store.Worked.sealed (hworked : s.Worked clusterId) : s.Sealed clusterId := by
  rcases hworked with hmerging | hmerged | hdeferred
  · exact ⟨_, hmerging, rfl⟩
  · exact ⟨_, hmerged, rfl⟩
  · exact ⟨_, hdeferred, rfl⟩

/-- The calls of a sweep keep a claimed cluster in one of these states. -/
theorem handle_worked (repo : CleansingRepository) (w : Answer reg) (c : Call reg) (s : Store reg)
    (hc : c.OfSweep) (hworked : s.Worked clusterId) : (handle repo w c s).2.Worked clusterId := by
  obtain ⟨state, hstate, hnot⟩ := hworked.sealed
  rcases handle_state_cases repo clusterId w c s with
    hsame | ⟨hnone, _⟩ | ⟨hadds, _⟩ | ⟨_, _, hmerging⟩ | ⟨htouches, _, hset⟩
  · unfold Store.Worked
    rw [hsame]
    exact hworked
  · rw [hstate] at hnone
    cases hnone
  · cases c with
    | addArticleToCluster target facts vector quietDeadline => exact hc.elim
    | _ => exact hadds.elim
  · exact Or.inl hmerging
  · rw [hstate] at hset
    cases c with
    | setClusterState target written =>
      have hwritten : written = .errorRetryable := hc
      subst hwritten
      exact Or.inr (Or.inr hset)
    | storeEventWithOutbox event => exact Or.inr (Or.inl hset)
    | _ => exact htouches.elim

/-- A claimed cluster is worked on. -/
theorem worked_of_claimedBy (hclaimed : clusterId ∈ claimedBy repo job s) :
    ((P.perform job.1).advance (handle repo) job.2 s).2.Worked clusterId := by
  unfold claimedBy at hclaimed
  split at hclaimed
  · next clock claim rest =>
    split at hclaimed
    · next claimed hok =>
      have hstate := (claimReadyClusters_eq_ok (commit_eq_ok hok).2).2.2.1 clusterId
      have hworked : (handle repo claim (.claimReadyClusters clock.now) s).2.Worked clusterId :=
        Or.inl (hstate.trans (if_pos hclaimed))
      have hsweep : (closeClaimed P claimed).Avoids (fun c : Call reg => ¬ c.OfSweep) :=
        (CleansingPipeline.closeClusters_avoids (fun _ hc h => h hc.ofSweep)
          (fun _ _ h => h rfl) (fun _ _ _ _ h => h trivial) 0).bind fun _ => trivial
      rw [advance_closeSweep hok]
      exact hsweep.advance_preserves
        (fun w c s hc hs => handle_worked repo w c s (not_not.mp hc) hs) rest hworked
    · cases hclaimed
  · cases hclaimed

/-- A history recovers what its sweeps leave behind exactly when they leave
nothing behind. -/
theorem recovers_iff_merged :
    Recovers repo P start jobs ↔
      ∀ n, ∀ clusterId ∈ claimedBy repo (jobs n) (jobStoreAt repo P start jobs n),
        (jobStoreAt repo P start jobs (n + 1)).stateOf clusterId = some .merged := by
  constructor
  · intro hrecovers n clusterId hclaimed
    have hworked : (jobStoreAt repo P start jobs (n + 1)).Worked clusterId :=
      worked_of_claimedBy hclaimed
    have hnever : ¬ ∃ m, n < m ∧
        clusterId ∈ claimedBy repo (jobs m) (jobStoreAt repo P start jobs m) := by
      rintro ⟨m, hlt, hagain⟩
      exact never_claimed_again hlt hworked.sealed hagain
    rcases hworked with hmerging | hmerged | hdeferred
    · exact absurd (hrecovers n clusterId hclaimed (Or.inl hmerging)).1 hnever
    · exact hmerged
    · exact absurd (hrecovers n clusterId hclaimed (Or.inr hdeferred)).1 hnever
  · intro hmerged n clusterId hclaimed hleft
    rw [hmerged n clusterId hclaimed] at hleft
    rcases hleft with hleft | hleft <;> cases hleft

end Sealed

/-- `MERGED` or, where the merge may be ambiguous, `ERROR_RETRYABLE`. -/
def Store.Settled (lenient : Uuid → Bool) (s : Store reg) (clusterId : Uuid) : Prop :=
  s.stateOf clusterId = some .merged ∨
    (lenient clusterId = true ∧ s.stateOf clusterId = some .errorRetryable)

/-- Clusters stay as they are, or are settled. -/
def Store.Progress (lenient : Uuid → Bool) (s s' : Store reg) : Prop :=
  ∀ clusterId state, s.stateOf clusterId = some state →
    s'.stateOf clusterId = some state ∨ s'.Settled lenient clusterId

namespace Store.Progress

variable {lenient : Uuid → Bool} {s s' s'' : Store reg} {clusterId : Uuid}

theorem refl (s : Store reg) : s.Progress lenient s :=
  fun _ _ hstate => Or.inl hstate

section

variable (h : s.Progress lenient s')

include h

theorem settled (hsettled : s.Settled lenient clusterId) : s'.Settled lenient clusterId := by
  rcases hsettled with hmerged | ⟨hlenient, hdeferred⟩
  · exact (h clusterId .merged hmerged).elim Or.inl id
  · exact (h clusterId .errorRetryable hdeferred).elim (fun hsame => Or.inr ⟨hlenient, hsame⟩) id

theorem trans (h' : s'.Progress lenient s'') : s.Progress lenient s'' := by
  intro clusterId state hstate
  rcases h clusterId state hstate with hsame | hsettled
  · exact h' clusterId state hsame
  · exact Or.inr (h'.settled hsettled)

theorem exists_state (hexists : ∃ state, s.stateOf clusterId = some state) :
    ∃ state, s'.stateOf clusterId = some state := by
  obtain ⟨state, hstate⟩ := hexists
  rcases h clusterId state hstate with hsame | hmerged | ⟨_, hdeferred⟩
  · exact ⟨_, hsame⟩
  · exact ⟨_, hmerged⟩
  · exact ⟨_, hdeferred⟩

end

theorem of_update {target : Uuid} {written : ClusterState}
    (hstate : ∀ clusterId, s'.stateOf clusterId =
      if clusterId = target then (s.stateOf clusterId).map fun _ => written
      else s.stateOf clusterId)
    (hwritten : written = .merged ∨ (lenient target ∧ written = .errorRetryable))
    (hexists : ∃ state, s.stateOf target = some state) :
    s.Progress lenient s' ∧ s'.Settled lenient target := by
  have hsettled : s'.Settled lenient target := by
    obtain ⟨state, htarget⟩ := hexists
    have hnow := hstate target
    rw [if_pos rfl, htarget] at hnow
    rcases hwritten with rfl | ⟨hlenient, rfl⟩
    · exact Or.inl hnow
    · exact Or.inr ⟨hlenient, hnow⟩
  refine ⟨fun clusterId state hbefore => ?_, hsettled⟩
  by_cases hid : clusterId = target
  · exact Or.inr (hid ▸ hsettled)
  · exact Or.inl (((hstate clusterId).trans (if_neg hid)).trans hbefore)

end Store.Progress

/-- The actions name registered assets only and, unless the merge may be ambiguous, agree on
the actor or have a language model to settle it. -/
def CleansingPipeline.Mergeable (P : CleansingPipeline reg) (lenient : Bool)
    (actions : List ActionRow) : Prop :=
  (∀ raw ∈ actions.flatMap ActionRow.affectedAssetIds, reg.isKnownAsset raw = true) ∧
    (lenient = true ∨ P.llmMerger = true ∨ detectFactConflicts actions = [])

instance (P : CleansingPipeline reg) (lenient : Bool) (actions : List ActionRow) :
    Decidable (P.Mergeable lenient actions) := by
  unfold CleansingPipeline.Mergeable
  infer_instance

/-- Nothing fails, the ids of new events are free, actions can be merged, and the language
model returns a summary, unless the cluster's merge may be ambiguous. -/
def Answer.Sound (P : CleansingPipeline reg) (lenient : Uuid → Bool) (w : Answer reg)
    (c : Call reg) (s : Store reg) : Prop :=
  match c with
  | .newEvent => s.events.has w.stamp.eventId = false
  | .loadClusterActions clusterId =>
    w.fault = none ∧ ∀ actions ∈ (s.loadClusterActions w.tie clusterId).toOption.map Prod.fst,
      P.Mergeable (lenient clusterId) actions
  | .completeStructured record _ =>
    lenient record.clusterId = true ∨ (w.fault = none ∧ P.text.strip w.llm.canonicalSummary ≠ "")
  | _ => w.fault = none

instance (P : CleansingPipeline reg) (lenient : Uuid → Bool) (w : Answer reg) (c : Call reg)
    (s : Store reg) : Decidable (w.Sound P lenient c s) := by
  unfold Answer.Sound
  split <;> infer_instance

theorem affectedAssets_ok
    (hknown : ∀ raw ∈ actions.flatMap ActionRow.affectedAssetIds, reg.isKnownAsset raw) :
    ∃ assets, affectedAssets reg actions = .ok assets := by
  unfold affectedAssets
  generalize actions.flatMap ActionRow.affectedAssetIds = raws at hknown
  suffices hfold : ∀ collected : List (AssetId reg),
      ∃ assets, raws.foldlM collectAsset collected = .ok assets from hfold []
  induction raws with
  | nil => exact fun collected => ⟨collected, rfl⟩
  | cons raw rest ih =>
    intro collected
    have hparse : AssetId.parse reg raw = .ok ⟨raw, hknown raw mem_cons_self⟩ :=
      AssetId.parse_eq_ok_iff.mpr rfl
    obtain ⟨assets, hassets⟩ := ih (fun r hr => hknown r (mem_cons_of_mem raw hr)) _
    exact ⟨assets, by simpa [foldlM_cons, collectAsset, hparse, bind, Except.bind] using hassets⟩

theorem CleansingPipeline.Mergeable.resolvedAssets_ok {P : CleansingPipeline reg} {lenient : Bool}
    (hmergeable : P.Mergeable lenient actions) (eventType : EventType) (articles : List MemberRow) :
    ∃ assets, P.resolvedAssets actions eventType articles = .ok assets := by
  obtain ⟨assets, hassets⟩ := affectedAssets_ok hmergeable.1
  unfold resolvedAssets
  simp only [hassets, bind, Except.bind]
  split
  · exact ⟨_, rfl⟩
  split
  · exact ⟨_, rfl⟩
  · exact ⟨_, rfl⟩

section Sound

variable {repo : CleansingRepository} {P : CleansingPipeline reg} {lenient : Uuid → Bool}
  {actions : List ActionRow} {s : Store reg}

/-- The triple of a soundly answered procedure. -/
abbrev Soundly (repo : CleansingRepository) (P : CleansingPipeline reg) (lenient : Uuid → Bool) {α : Type}
    (p : Service reg α) (s : Store reg) (Q : Except CleansingError α → Store reg → Prop) : Prop :=
  p.Meets (handle repo) (Answer.Sound P lenient) (fun _ => True) Q s

/-- An event of the cluster under a new id or, where it is allowed, an ambiguity. -/
def BuildEnds (lenient : Bool) (clusterId : Uuid) (s : Store reg) :
    Except CleansingError (EventDetected reg) → Store reg → Prop
  | .ok event, s' => s' = s ∧ event.clusterId = clusterId ∧ s.events.has event.eventId = false
  | .error e, s' => s' = s ∧ lenient = true ∧ ∃ message, e = .ambiguousMerge message

section

variable (record : ClusterRow) (hmergeable : P.Mergeable (lenient record.clusterId) actions)
  (articles : List MemberRow) (s : Store reg)

include hmergeable

theorem stamped_soundly {build : EventStamp → List (AssetId reg) → EventDetected reg}
    (hbuild : ∀ stamp assets, (build stamp assets).clusterId = record.clusterId ∧
      (build stamp assets).eventId = stamp.eventId) :
    Soundly repo P lenient ((ask .newEvent).bind fun stamp =>
      match P.resolvedAssets actions record.eventType articles with
      | .error e => .fail e
      | .ok assets => .ret (build stamp assets)) s (BuildEnds (lenient record.clusterId) record.clusterId s) := by
  obtain ⟨assets, hassets⟩ := hmergeable.resolvedAssets_ok record.eventType articles
  refine Proc.meets_perform trivial
    (fun w stamp hw hstamp => ?_) fun w e _ herror => by cases herror
  cases hstamp
  rw [hassets]
  refine ⟨rfl, (hbuild w.stamp assets).1, ?_⟩
  rw [(hbuild w.stamp assets).2]
  exact hw

/-- `_merge` settles its cluster. -/
theorem merge_soundly : Soundly repo P lenient (P.merge record articles actions) s
      (BuildEnds (lenient record.clusterId) record.clusterId s) := by
  refine Proc.Meets.bind (Proc.Meets.catchWith ⟨trivial, fun w hw => ?_⟩)
  have hsame : (handle repo w (.completeStructured record articles) s).2 = s := by
    refine commit_rule (Q := fun s' => s' = s) rfl fun a s' hok => ?_
    cases hok
    rfl
  rw [hsame]
  cases hfault : w.fault with
  | some message =>
    have herror : (handle repo w (.completeStructured record articles) s).1 =
        .error (.gateway message) := by
      simp only [handle, hfault, map_some, commit]
    rw [herror]
    rcases hw with hlenient | ⟨hnone, _⟩
    · exact ⟨rfl, hlenient, _, rfl⟩
    · rw [hfault] at hnone
      cases hnone
  | none =>
    have hok : (handle repo w (.completeStructured record articles) s).1 = .ok w.llm := by
      simp only [handle, hfault, map_none, commit]
    rw [hok]
    by_cases hsummary : P.text.strip w.llm.canonicalSummary = ""
    · rcases hw with hlenient | ⟨_, hnonempty⟩
      · change Soundly repo P lenient (if P.text.strip w.llm.canonicalSummary = "" then _ else _) s _
        rw [if_pos hsummary]
        exact ⟨rfl, hlenient, _, rfl⟩
      · exact absurd hsummary hnonempty
    · change Soundly repo P lenient (if P.text.strip w.llm.canonicalSummary = "" then _ else _) s _
      rw [if_neg hsummary]
      exact stamped_soundly record hmergeable articles s fun _ _ => ⟨rfl, rfl⟩

theorem buildEvent_soundly : Soundly repo P lenient (P.buildEvent record articles actions) s
      (BuildEnds (lenient record.clusterId) record.clusterId s) := by
  unfold CleansingPipeline.buildEvent
  split
  · next hconflict =>
    split
    · exact merge_soundly record hmergeable articles s
    · next hnone =>
      rcases hmergeable.2 with hlenient | hmerger | hagree
      · exact ⟨rfl, hlenient, _, rfl⟩
      · exact absurd hmerger hnone
      · exact absurd hagree hconflict
  · exact stamped_soundly record hmergeable articles s fun _ _ => ⟨rfl, rfl⟩

end

/-- The event of the record or, where it is allowed, the deferred cluster. -/
def DeferEnds (lenient : Uuid → Bool) (clusterId : Uuid) (s : Store reg) :
    Except CleansingError (Option (EventDetected reg)) → Store reg → Prop
  | .ok (some event), s' => BuildEnds (lenient clusterId) clusterId s (.ok event) s'
  | .ok none, s' => s.Progress lenient s' ∧ s'.Settled lenient clusterId
  | .error _, _ => False

/-- An event, or the cluster deferred. -/
theorem eventOrDefer_soundly (record : ClusterRow)
    (hmergeable : P.Mergeable (lenient record.clusterId) actions) (articles : List MemberRow) (hexists : ∃ state, s.stateOf record.clusterId = some state) :
    Soundly repo P lenient (P.eventOrDefer record articles actions) s
      (DeferEnds lenient record.clusterId s) := by
  refine Proc.Meets.catchWith (Proc.Meets.bind
    ((buildEvent_soundly record hmergeable articles s).mono fun r s' hends => ?_))
  cases r with
  | ok event => exact hends
  | error e =>
    obtain ⟨rfl, hlenient, message, rfl⟩ := hends
    change Soundly repo P lenient (CleansingPipeline.deferMerge record.clusterId
      (.ambiguousMerge message)) s' _
    refine Proc.meets_perform trivial (fun w a _ hok => ?_) fun w e hw herror => ?_
    · have hset := (commit_eq_ok hok).2
      simp only [setClusterState, Except.ok.injEq, Prod.mk.injEq] at hset
      have hstore : (handle repo w (.setClusterState record.clusterId .errorRetryable) s').2 =
          s'.setStateWhere (fun row => row.clusterId = record.clusterId) .errorRetryable :=
        hset.2.symm
      rw [hstore]
      exact Progress.of_update (s'.stateOf_setState record.clusterId .errorRetryable)
        (Or.inr ⟨hlenient, rfl⟩) hexists
    · have hfault : w.fault = none := hw
      simp [handle, hfault, commit, setClusterState] at herror

/-- An event under a new id, of a cluster that exists, is stored. -/
theorem storeEvent_ok {event : EventDetected reg} {w : Answer reg} (hw : w.fault = none)
    (hexists : ∃ state, s.stateOf event.clusterId = some state)
    (hfresh : s.events.has event.eventId = false) :
    (handle repo w (.storeEventWithOutbox event) s).1 = .ok () := by
  obtain ⟨state, hstate⟩ := hexists
  obtain ⟨row, hrow, _⟩ := map_eq_some_iff.mp hstate
  obtain ⟨hmem, hid⟩ := find?_eq_some_iff.mp hrow
  have hhas : s.clusters.has event.clusterId := has_eq_true_iff.mpr ⟨row, hmem, hid⟩
  have hstore : ∃ s', s.storeEventWithOutbox event = .ok ((), s') := by
    unfold storeEventWithOutbox
    split
    · exact ⟨_, rfl⟩
    · simp [hfresh, hhas]
  obtain ⟨s', hstore⟩ := hstore
  simp only [handle, hw, map_none, commit, hstore]

/-- **The batch is settled.**  Answered soundly, a sweep raises nothing, and
settles every cluster it claimed. -/
theorem closeClusters_soundly {records : List ClusterRow}
    (hexists : ∀ record ∈ records, ∃ state, s.stateOf record.clusterId = some state)
    (produced : Nat) :
    Soundly repo P lenient (P.closeClusters records produced) s (fun r s' =>
      (∃ n, r = .ok n) ∧ s.Progress lenient s' ∧
        ∀ record ∈ records, s'.Settled lenient record.clusterId) := by
  induction records generalizing s produced with
  | nil => exact ⟨⟨produced, rfl⟩, Progress.refl s, fun _ hr => by cases hr⟩
  | cons record rest ih =>
    have hrecord := hexists record mem_cons_self
    -- once this cluster is settled, the rest of the batch is
    have hrest : ∀ n s₁, s.Progress lenient s₁ → s₁.Settled lenient record.clusterId →
        Soundly repo P lenient (P.closeClusters rest n) s₁ (fun r s' =>
          (∃ n, r = .ok n) ∧ s.Progress lenient s' ∧
            ∀ r ∈ record :: rest, s'.Settled lenient r.clusterId) := by
      intro n s₁ h₁ hsettled
      refine (ih (fun r hr => h₁.exists_state (hexists r (mem_cons_of_mem record hr))) n).mono ?_
      rintro r s₂ ⟨hok, h₂, hall⟩
      refine ⟨hok, h₁.trans h₂, fun r' hr' => ?_⟩
      rcases mem_cons.mp hr' with rfl | hmem
      · exact h₂.settled hsettled
      · exact hall r' hmem
    refine Proc.meets_perform
      trivial (fun w articles _ hok => ?_)
      fun w e hw herror => ?_
    · have hload := (commit_eq_ok hok).2
      simp only [loadClusterArticles, Except.ok.injEq, Prod.mk.injEq] at hload
      have hsame : (handle repo w (.loadClusterArticles record.clusterId) s).2 = s :=
        hload.2.symm
      rw [hsame]
      refine Proc.meets_perform
        trivial (fun w actions hw hok => ?_)
        fun w e hw herror => ?_
      · have hload := (commit_eq_ok hok).2
        have hmergeable : P.Mergeable (lenient record.clusterId) actions := hw.2 actions (by rw [hload]; rfl)
        simp only [loadClusterActions, Except.ok.injEq, Prod.mk.injEq] at hload
        have hsame : (handle repo w (.loadClusterActions record.clusterId) s).2 = s :=
          hload.2.symm
        rw [hsame]
        refine Proc.Meets.bind
          ((eventOrDefer_soundly record hmergeable articles hrecord).mono fun r s₁ hends => ?_)
        rcases r with e | _ | event
        · cases hends
        · exact hrest produced s₁ hends.1 hends.2
        · obtain ⟨rfl, hid, hfresh⟩ := hends
          rw [← hid] at hrecord
          refine Proc.meets_perform trivial (fun w a _ hok => ?_) fun w e hw herror => ?_
          · have hstore := storeEventWithOutbox_eq_ok (commit_eq_ok hok).2
            have hprogress : s₁.Progress lenient _ ∧ Settled lenient _ _ :=
              Progress.of_update hstore.1 (Or.inl rfl) hrecord
            exact hrest _ _ hprogress.1 (hid ▸ hprogress.2)
          · rw [storeEvent_ok hw hrecord hfresh] at herror
            cases herror
      · have hfault : w.fault = none := hw.1
        simp [handle, hfault, commit, loadClusterActions] at herror
    · have hfault : w.fault = none := hw
      simp [handle, hfault, commit, loadClusterArticles] at herror

theorem closeClaimed_soundly
    (hexists : ∀ record ∈ claimed, ∃ state, s.stateOf record.clusterId = some state) :
    Soundly repo P lenient (closeClaimed P claimed) s (fun _ s' =>
      ∀ record ∈ claimed, s'.Settled lenient record.clusterId) := by
  refine Proc.Meets.bind ((closeClusters_soundly hexists 0).mono fun r s' hends => ?_)
  obtain ⟨⟨n, rfl⟩, _, hall⟩ := hends
  exact hall

/-- A sweep is answered soundly and runs to its end. -/
def SoundSweep (repo : CleansingRepository) (P : CleansingPipeline reg)
    (lenient : Uuid → Bool) : Job × List (Answer reg) → Store reg → Prop
  | (.article _, _), _ => True
  | (.closeSweep, ws), s =>
    (P.perform .closeSweep).Admitted (handle repo) (Answer.Sound P lenient) ws s ∧
      ((P.perform .closeSweep).advance (handle repo) ws s).1.ended = true

/-- **A sound sweep settles its batch.** -/
theorem settled_of_claimedBy (hsweep : SoundSweep repo P lenient job s)
    (hclaimed : clusterId ∈ claimedBy repo job s) :
    ((P.perform job.1).advance (handle repo) job.2 s).2.Settled lenient clusterId := by
  unfold claimedBy at hclaimed
  split at hclaimed
  · next clock claim rest =>
    obtain ⟨hadmitted, hend⟩ := hsweep
    split at hclaimed
    · next claimed hok =>
      have hrest := hadmitted.2
      change ((P.claimAndClose clock.now).bind _).Admitted (handle repo) _ (claim :: rest) s
        at hrest
      have hrest := hrest.2
      rw [hok] at hrest
      rw [advance_closeSweep hok] at hend ⊢
      have hclaim := claimReadyClusters_eq_ok (commit_eq_ok hok).2
      have hexists : ∀ record ∈ claimed, ∃ state, (handle repo claim
          (.claimReadyClusters clock.now) s).2.stateOf record.clusterId = some state :=
        fun record hrecord => ⟨_, (hclaim.2.2.1 record.clusterId).trans
          (if_pos (mem_map.mpr ⟨record, hrecord, rfl⟩))⟩
      obtain ⟨_, hsettled⟩ := (closeClaimed_soundly hexists).ended hrest hend
      obtain ⟨record, hrecord, rfl⟩ := mem_map.mp hclaimed
      exact hsettled record hrecord
    · cases hclaimed
  · cases hclaimed

/-- **An ambiguous merge stays with its cluster.**  Every cluster of the batch is merged,
except that one whose own merge is ambiguous may be `ERROR_RETRYABLE`. -/
theorem ambiguity_isolated (hsweep : SoundSweep repo P lenient job s)
    (hclaimed : clusterId ∈ claimedBy repo job s) :
    ((P.perform job.1).advance (handle repo) job.2 s).2.stateOf clusterId = some .merged ∨
      lenient clusterId = true ∧ ((P.perform job.1).advance (handle repo) job.2 s).2.stateOf
        clusterId = some .errorRetryable :=
  settled_of_claimedBy hsweep hclaimed

/-- **Sound sweeps leave nothing behind.**  Where all sweeps are answered soundly and run to
their end, every claimed cluster that is not merged is claimed again, with the rest of its
batch merged: there is none. -/
theorem claimed_clusters_recovered {start : Store reg} {jobs : Nat → Job × List (Answer reg)}
    (hsound : ∀ n, SoundSweep repo P (fun _ => false) (jobs n) (jobStoreAt repo P start jobs n)) :
    Recovers repo P start jobs := by
  refine recovers_iff_merged.mpr fun n clusterId hclaimed => ?_
  rcases settled_of_claimedBy (hsound n) hclaimed with hmerged | ⟨hlenient, _⟩
  · exact hmerged
  · cases hlenient

end Sound

/-- A cluster of one article, due since its first microsecond. -/
def dueCluster (clusterId : Uuid) : ClusterRow :=
  ⟨clusterId, .straitClosure, .opened, 1, 0, 0, clusterId, clusterId, [], "v1"⟩

def soleArticle (clusterId : Uuid) : MemberRow :=
  ⟨clusterId, clusterId, "headline", "wire", "wire/a", 0, clusterId⟩

/-- What was extracted from the first cluster's article. -/
def firstAction (assets : List String) : ActionRow :=
  ⟨1, none, none, none, none, .straitClosure, "en", assets, .occurrence, []⟩

def twoClusters (assets : List String) : Store goldRegistry :=
  { (∅ : Store goldRegistry) with
    clusters := ((∅ : Table ClusterRow.clusterId).insertNew (dueCluster 1)).insertNew (dueCluster 2)
    members := ((∅ : Table MemberRow.key).insertNew (soleArticle 1)).insertNew (soleArticle 2)
    actions := (∅ : Table ActionRow.articleId).insertNew (firstAction assets) }

/-- The clock, the claim, and the four calls for each cluster. -/
def batchSweep : List (Answer goldRegistry) :=
  [{ now := microsPerHour }, {}, {}, {}, { stamp := { messageId := 11, eventId := 21 } }, {},
    {}, {}, { stamp := { messageId := 12, eventId := 22 } }, {}]

/-- The sweep, then whatever comes later. -/
def batchHistory (later : Nat → Job × List (Answer goldRegistry)) :
    Nat → Job × List (Answer goldRegistry)
  | 0 => (.closeSweep, batchSweep)
  | n+1 => later n

/-- Articles that are never started. -/
def noWork (_ : Nat) : Job × List (Answer goldRegistry) := (.article (plainArticle 3 "other"), [])

theorem gold_batch_sound (n : Nat) :
    SoundSweep plainRepository plainPipeline (fun _ => false) (batchHistory noWork n)
      (jobStoreAt plainRepository plainPipeline (twoClusters ["GOLD"]) (batchHistory noWork) n) := by
  match n with
  | 0 => exact ⟨by decide +kernel, by decide +kernel⟩
  | _+1 => trivial

/-- The first cluster's articles name different actors; no merger is configured. -/
def disputedCluster : Store goldRegistry :=
  { twoClusters [] with
    clusters := ((∅ : Table ClusterRow.clusterId).insertNew
      { dueCluster 1 with articleCount := 2 }).insertNew (dueCluster 2)
    members := (twoClusters []).members.insertNew { soleArticle 1 with articleId := 3 }
    actions := ((∅ : Table ActionRow.articleId).insertNew
      { firstAction [] with actor := some "a" }).insertNew
        { firstAction [] with articleId := 3, actor := some "b" } }

def disputedSweep : List (Answer goldRegistry) :=
  [{ now := microsPerHour }, {}, {}, {}, {}, {}, {},
    { stamp := { messageId := 12, eventId := 22 } }, {}]

/-- The disputed cluster is deferred, and the one behind it is merged. -/
theorem disputed_cluster_isolated :
    ((plainPipeline.perform .closeSweep).advance (handle plainRepository) disputedSweep
        disputedCluster).2.stateOf 1 = some .errorRetryable ∧
      ((plainPipeline.perform .closeSweep).advance (handle plainRepository) disputedSweep
        disputedCluster).2.stateOf 2 = some .merged := by
  have hsweep : SoundSweep plainRepository plainPipeline (fun clusterId => clusterId = 1)
      (.closeSweep, disputedSweep) disputedCluster := ⟨by decide +kernel, by decide +kernel⟩
  exact ⟨by decide +kernel,
    (ambiguity_isolated hsweep (by decide +kernel)).resolve_right fun h => absurd h.1 (by decide)⟩

/-- With a registered asset, both clusters are claimed and merged. -/
theorem gold_batch_recovers :
    claimedBy plainRepository (batchHistory noWork 0) (twoClusters ["GOLD"]) = [1, 2] ∧
      Recovers plainRepository plainPipeline (twoClusters ["GOLD"]) (batchHistory noWork) :=
  ⟨by decide +kernel, claimed_clusters_recovered gold_batch_sound⟩

/-- Sweeps of every later hour, with nothing going wrong. -/
def hourlySweeps (n : Nat) : Job × List (Answer goldRegistry) :=
  (.closeSweep, [{ now := (n + 2) * microsPerHour }, {}])

/-- **A retired asset strands the batch.**  The merge of the first cluster raises; both stay
`MERGING`, and no later sweep returns them. -/
theorem retired_asset_strands_batch :
    claimedBy plainRepository (batchHistory hourlySweeps 0) (twoClusters ["SILVER"]) = [1, 2] ∧
      (jobStoreAt plainRepository plainPipeline (twoClusters ["SILVER"])
        (batchHistory hourlySweeps) 1).stateOf 1 = some .merging ∧
      (jobStoreAt plainRepository plainPipeline (twoClusters ["SILVER"])
        (batchHistory hourlySweeps) 1).stateOf 2 = some .merging ∧
      ¬ Recovers plainRepository plainPipeline (twoClusters ["SILVER"])
        (batchHistory hourlySweeps) := by
  have hclaimed : claimedBy plainRepository (batchHistory hourlySweeps 0)
      (twoClusters ["SILVER"]) = [1, 2] := by decide +kernel
  have hstate : (jobStoreAt plainRepository plainPipeline (twoClusters ["SILVER"])
      (batchHistory hourlySweeps) 1).stateOf 1 = some .merging := by decide +kernel
  refine ⟨hclaimed, hstate, by decide +kernel, fun hrecovers => ?_⟩
  have hmerged := recovers_iff_merged.mp hrecovers 0 1 (by
    change 1 ∈ claimedBy plainRepository (batchHistory hourlySweeps 0) (twoClusters ["SILVER"])
    decide)
  cases hmerged

end Cleansing
