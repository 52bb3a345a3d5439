import FeedAnalyzer.CleansingEffects
import FeedAnalyzer.ExclusiveClaim

/-!
# What the Cleansing procedures can call

A sweep touches only the clusters it claimed, each once, and an article run
adds only to a cluster that its candidate lookup returned.
-/

namespace Cleansing

open Feed Transact Proc List Avoids

variable {reg : Registry}

def Call.OfArticle (articleId : Uuid) : Call reg → Prop
  | .articleAlreadyProcessed target => target = articleId
  | .recentFingerprints _ => True
  | .storeFingerprint target _ _ _ => target = articleId
  | .storeEmbedding target _ => target = articleId
  | .storeAction target _ _ => target = articleId
  | .findCandidateClusters _ _ => True
  | .createCluster facts _ _ _ _ => facts.articleId = articleId
  | .addArticleToCluster _ facts _ _ => facts.articleId = articleId
  | .currentTime => True
  | .embed _ => True
  | .extract _ _ _ _ => True
  | _ => False

def Call.OfSweep : Call reg → Prop
  | .currentTime => True
  | .claimReadyClusters _ => True
  | .loadClusterArticles _ => True
  | .loadClusterActions _ => True
  | .completeStructured _ _ => True
  | .newEvent => True
  | .setClusterState _ state => state = .errorRetryable
  | .storeEventWithOutbox _ => True
  | _ => False

/-- The call reads what an event is built from. -/
def Call.ForEvent : Call reg → Prop
  | .loadClusterArticles _ => True
  | .loadClusterActions _ => True
  | .completeStructured _ _ => True
  | .newEvent => True
  | _ => False

variable {c : Call reg}

/-- Reading for an event touches no cluster. -/
theorem Call.ForEvent.not_touches {clusterId : Uuid} (hc : c.ForEvent) : ¬ c.Touches clusterId := by
  cases c with
  | setClusterState | storeEventWithOutbox => exact hc.elim
  | _ => exact id

/-- It is part of a sweep. -/
theorem Call.ForEvent.ofSweep (hc : c.ForEvent) : c.OfSweep := by
  cases c with
  | setClusterState target state => exact hc.elim
  | _ => first | exact hc | trivial

namespace CleansingPipeline

variable {P : CleansingPipeline reg} {Φ : Call reg → Prop}
  {clusterId : Uuid} {records : List ClusterRow}

/-- Building an event only reads. -/
theorem buildEvent_avoids (hΦ : ∀ c, c.ForEvent → ¬ Φ c) (record : ClusterRow)
    (articles : List MemberRow) (actions : List ActionRow) :
    (P.buildEvent record articles actions).Avoids Φ := by
  unfold buildEvent
  split
  · split
    · refine bind ?_ fun result => ?_
      · refine catchWith ⟨hΦ _ trivial, ?_⟩ fun e => trivial
        exact avoids_onOk fun result => trivial
      · dsimp only
        split
        · trivial
        · refine avoids_perform (hΦ _ trivial) fun stamp => ?_
          split
          · trivial
          · trivial
    · trivial
  · refine avoids_perform (hΦ _ trivial) fun stamp => ?_
    split
    · trivial
    · trivial

/-- The event is of the record's cluster. -/
theorem buildEvent_returns (record : ClusterRow) (articles : List MemberRow)
    (actions : List ActionRow) :
    (P.buildEvent record articles actions).Returns
      (fun event => event.clusterId = record.clusterId) := by
  unfold buildEvent
  split
  · split
    · refine Returns.bind (Q := fun _ => True) ?_ fun result _ => ?_
      · exact Returns.catchWith (returns_onOk fun _ => trivial) fun e => trivial
      · dsimp only
        split
        · trivial
        · refine returns_perform fun stamp => ?_
          split
          · trivial
          · exact rfl
    · trivial
  · refine returns_perform fun stamp => ?_
    split
    · trivial
    · exact rfl

/-- Deferring only sets the state. -/
theorem deferMerge_avoids (hset : ¬ Φ (.setClusterState clusterId .errorRetryable))
    (e : CleansingError) : (deferMerge clusterId e).Avoids Φ := by
  cases e with
  | ambiguousMerge message =>
    exact avoids_perform hset fun _ => trivial
  | _ => trivial

/-- The one write of this part defers the cluster. -/
theorem eventOrDefer_avoids (hΦ : ∀ c, c.ForEvent → ¬ Φ c) {record : ClusterRow}
    (hset : ¬ Φ (.setClusterState record.clusterId .errorRetryable)) (articles : List MemberRow)
    (actions : List ActionRow) : (P.eventOrDefer record articles actions).Avoids Φ := by
  refine catchWith ?_ (deferMerge_avoids hset)
  exact (buildEvent_avoids hΦ record articles actions).bind fun event => trivial

/-- An event that is built is of the record's cluster. -/
theorem eventOrDefer_returns (record : ClusterRow) (articles : List MemberRow)
    (actions : List ActionRow) :
    (P.eventOrDefer record articles actions).Returns
      (fun built => ∀ event, built = some event → event.clusterId = record.clusterId) := by
  refine Returns.catchWith ?_ ?_
  · refine (buildEvent_returns record articles actions).bind ?_
    intro event hevent event' heq
    cases heq
    exact hevent
  · intro e
    cases e with
    | ambiguousMerge message =>
      refine returns_perform fun _ => ?_
      intro event hevent
      cases hevent
    | _ => trivial

/-- The writes of the loop defer or store, each for a record. -/
theorem closeClusters_avoids (hΦ : ∀ c, c.ForEvent → ¬ Φ c)
    (hset : ∀ record ∈ records, ¬ Φ (.setClusterState record.clusterId .errorRetryable))
    (hstore : ∀ record ∈ records, ∀ event : EventDetected reg,
      event.clusterId = record.clusterId → ¬ Φ (.storeEventWithOutbox event)) (produced : Nat) :
    (P.closeClusters records produced).Avoids Φ := by
  induction records generalizing produced with
  | nil => trivial
  | cons record rest ih =>
    have hrest : ∀ n, (P.closeClusters rest n).Avoids Φ :=
      ih (fun r hr => hset r (mem_cons_of_mem _ hr)) fun r hr => hstore r (mem_cons_of_mem _ hr)
    refine avoids_perform (hΦ _ trivial) fun articles => ?_
    refine avoids_perform (hΦ _ trivial) fun actions => ?_
    refine bind_returns (eventOrDefer_avoids hΦ (hset record mem_cons_self) articles actions)
      (eventOrDefer_returns record articles actions) fun built hbuilt => ?_
    cases built with
    | none => exact hrest produced
    | some event =>
      have hevent := hstore record mem_cons_self event (hbuilt event rfl)
      exact avoids_perform hevent fun _ => hrest _

/-- Clusters outside of the batch are not touched. -/
theorem closeClusters_avoids_touches (hne : clusterId ∉ records.map ClusterRow.clusterId)
    (produced : Nat) : (P.closeClusters records produced).Avoids (Call.Touches clusterId) := by
  have hother : ∀ record ∈ records, record.clusterId ≠ clusterId :=
    fun record hrecord heq => hne (mem_map.mpr ⟨record, hrecord, heq⟩)
  exact closeClusters_avoids (fun _ => Call.ForEvent.not_touches) hother
    (fun record hrecord event hevent htouch =>
      hother record hrecord (hevent.symm.trans htouch)) produced

/-- Each cluster of the batch is touched once. -/
theorem closeClusters_touchesOnce (clusterId : Uuid)
    (hnodup : (records.map ClusterRow.clusterId).Nodup) (produced : Nat) :
    (P.closeClusters records produced).TouchesOnce (Call.Touches clusterId) := by
  induction records generalizing produced with
  | nil => trivial
  | cons record rest ih =>
    obtain ⟨hnew, hnodup'⟩ := nodup_cons.mp hnodup
    -- once the first record's cluster is touched, the rest is about others
    have hspent : ∀ n, record.clusterId = clusterId →
        (P.closeClusters rest n).Avoids (Call.Touches clusterId) := by
      intro n hid
      exact closeClusters_avoids_touches (hid ▸ hnew) n
    refine touchesOnce_perform False.elim fun articles => ?_
    refine touchesOnce_perform False.elim fun actions => ?_
    refine touchesOnce_catchWith
      (buildEvent_avoids (fun _ => Call.ForEvent.not_touches) record articles actions)
      (buildEvent_returns record articles actions) ?_ ?_
    · intro event hevent
      exact touchesOnce_perform
        (fun htouch _ => hspent _ (hevent.symm.trans htouch)) fun _ => ih hnodup' _
    · intro e
      cases e with
      | ambiguousMerge message =>
        rw [deferMerge, bind_eq, bind_assoc]
        exact touchesOnce_perform (fun htouch _ => hspent _ htouch) fun _ => ih hnodup' _
      | _ => trivial

/-- **The calls for an article.** -/
theorem processArticle_calls (message : ArticleIngested) :
    (P.processArticle message).Avoids (fun c : Call reg => ¬ c.OfArticle message.articleId) := by
  have hassign : ∀ eventType vector quietAt lifetimeAt candidates,
      (P.writeAssignment (P.usableFacts message) eventType vector quietAt lifetimeAt
        candidates).Avoids (fun c : Call reg => ¬ c.OfArticle message.articleId) := by
    intro eventType vector quietAt lifetimeAt candidates
    unfold writeAssignment
    split
    · exact avoids_perform (fun h => h rfl) fun _ => trivial
    · exact avoids_perform (fun h => h rfl) fun _ => trivial
  refine avoids_perform (fun h => h rfl) fun seen => ?_
  split
  · trivial
  refine avoids_perform (fun h => h trivial) fun now => ?_
  refine avoids_perform (fun h => h trivial) fun recent => ?_
  split
  · trivial
  refine avoids_perform (fun h => h trivial) fun vector => ?_
  refine avoids_perform (fun h => h trivial) fun action => ?_
  refine avoids_perform (fun h => h rfl) fun _ => ?_
  refine avoids_perform (fun h => h rfl) fun _ => ?_
  refine avoids_perform (fun h => h rfl) fun _ => ?_
  refine avoids_perform (fun h => h trivial) fun now => ?_
  split
  · exact hassign ..
  · exact avoids_perform (fun h => h trivial) fun candidates => hassign ..

/-- A candidate is taken, or the best so far is kept. -/
theorem considerCandidate_eq (eventType : EventType) (threshold : Rat)
    (best : Option ClusterCandidate) (candidate : ClusterCandidate) :
    considerCandidate eventType threshold best candidate = best ∨
      considerCandidate eventType threshold best candidate = some candidate := by
  unfold considerCandidate
  split
  · exact Or.inl rfl
  split
  · exact Or.inl rfl
  cases best with
  | none => exact Or.inr rfl
  | some b =>
    dsimp only
    split
    · exact Or.inr rfl
    · exact Or.inl rfl

/-- What is chosen is a candidate. -/
theorem decideAssignment_mem {eventType : EventType} {candidates : List ClusterCandidate}
    {threshold : Rat} (hsome : decideAssignment eventType candidates threshold = some clusterId) :
    ∃ candidate ∈ candidates, candidate.clusterId = clusterId := by
  obtain ⟨best, hbest, rfl⟩ := Option.map_eq_some_iff.mp hsome
  refine ⟨best, ?_, rfl⟩
  -- the best candidate so far is one of those seen
  refine foldlRecOn (motive := fun seen => ∀ best, seen = some best → best ∈ candidates)
    candidates _ (by simp) (fun start hstart candidate hmem best hnext => ?_) best hbest
  rcases considerCandidate_eq eventType threshold start candidate with heq | heq
  · exact hstart best (heq.symm.trans hnext)
  · cases heq.symm.trans hnext
    exact hmem

end CleansingPipeline

/-- The call returned the cluster as a candidate. -/
def Call.Proposes (clusterId : Uuid) : (c : Call reg) → c.Ret → Prop
  | .findCandidateClusters _ _, candidates =>
    ∃ candidate ∈ candidates, candidate.clusterId = clusterId
  | _, _ => False

namespace CleansingPipeline

variable {P : CleansingPipeline reg}

/-- An article joins only what its lookup has returned. -/
theorem assignToCluster_precededBy (clusterId : Uuid) (facts : ArticleFacts)
    (eventType : EventType) (vector : List Rat) :
    (P.assignToCluster facts eventType vector).PrecededBy
      (Call.Proposes clusterId) (Call.AddsTo clusterId) := by
  refine precededBy_perform id fun now => Or.inr ?_
  split
  · -- an `OTHER` article always opens a cluster
    refine precededBy ?_
    exact avoids_perform id fun _ => trivial
  · refine precededBy_perform id fun candidates => ?_
    unfold writeAssignment
    split
    · refine Or.inr (precededBy ?_)
      exact avoids_perform id fun _ => trivial
    · next target htarget =>
      by_cases hid : target = clusterId
      · exact Or.inl (hid ▸ decideAssignment_mem htarget)
      · refine Or.inr (precededBy ?_)
        exact avoids_perform hid fun _ => trivial

/-- An article run adds only to a cluster that its lookup returned. -/
theorem processArticle_precededBy (clusterId : Uuid) (message : ArticleIngested) :
    (P.processArticle message).PrecededBy (Call.Proposes clusterId) (Call.AddsTo clusterId) := by
  refine precededBy_perform id fun seen => Or.inr ?_
  split
  · trivial
  refine precededBy_perform id fun now => Or.inr ?_
  refine precededBy_perform id fun recent => Or.inr ?_
  split
  · trivial
  refine precededBy_perform id fun vector => Or.inr ?_
  refine precededBy_perform id fun action => Or.inr ?_
  refine precededBy_perform id fun _ => Or.inr ?_
  refine precededBy_perform id fun _ => Or.inr ?_
  refine precededBy_perform id fun _ => Or.inr ?_
  exact assignToCluster_precededBy clusterId _ _ _

/-- A sweep reads the clock, claims, builds events, and stores or defers. -/
theorem closeReadyClusters_calls :
    P.closeReadyClusters.Avoids (fun c : Call reg => ¬ c.OfSweep) := by
  refine avoids_perform (fun h => h trivial) fun now => ?_
  refine avoids_perform (fun h => h trivial) fun claimed => ?_
  exact closeClusters_avoids (fun _ hc h => h hc.ofSweep) (fun _ _ h => h rfl)
    (fun _ _ _ _ h => h trivial) 0

end CleansingPipeline

/-- A sweep claims first. -/
theorem claimAndClose_bind (P : CleansingPipeline reg) (now : Int) :
    (P.claimAndClose now).bind (fun events => .ret (JobResult.produced events)) =
      .call (.claimReadyClusters now) (Proc.onOk fun claimed =>
          (P.closeClusters claimed 0).bind (fun events => .ret (.produced events))) :=
  (bind_assoc _ _ _).trans (ask_bind _ _)

end Cleansing
