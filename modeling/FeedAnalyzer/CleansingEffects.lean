import FeedAnalyzer.CleansingPipeline

/-!
# What one Cleansing call can do

One case lemma for the state of a cluster (`handle_state_cases`), and one for the
events and the outbox (`handle_outbox_cases`).
-/

namespace Cleansing

open Feed Transact List Store Table

variable {reg : Registry}

namespace Store

def stateOf (s : Store reg) (clusterId : Uuid) : Option ClusterState :=
  (s.clusters.find? clusterId).map ClusterRow.state

variable {s : Store reg}

theorem stateOf_of_mem {row : ClusterRow} (hrow : row ∈ s.clusters) :
    s.stateOf row.clusterId = some row.state :=
  column_of_mem hrow

theorem stateOf_setState (s : Store reg) (target : Uuid) (state : ClusterState) (clusterId : Uuid) :
    (s.setStateWhere (fun row => row.clusterId = target) state).stateOf clusterId =
      if clusterId = target then (s.stateOf clusterId).map fun _ => state
      else s.stateOf clusterId :=
  s.clusters.column_updateKey (fun row => row.clusterId_withState state)
    (fun row => row.state_withState state) target clusterId

variable {s' : Store reg} {facts : ArticleFacts} {vector : List Rat} {quietDeadline now : Int}
  {u : Unit} {tie : Uuid → Nat} {locked : Uuid → Bool} {claimed : List ClusterRow}

theorem createCluster_eq_ok {repo : CleansingRepository} {fresh : Uuid} {eventType : EventType}
    {lifetimeDeadline : Int} {created : Uuid}
    (hok : s.createCluster repo fresh facts eventType vector quietDeadline lifetimeDeadline =
      .ok (created, s')) :
    created = fresh ∧ s.stateOf fresh = none ∧ (∀ clusterId, s'.stateOf clusterId =
        if clusterId = fresh then some .opened else s.stateOf clusterId) ∧
      s'.members = s.members.insertNew (memberRow fresh facts) ∧
      s'.fingerprints = s.fingerprints ∧ s'.events = s.events ∧ s'.outbox = s.outbox := by
  unfold createCluster at hok
  split at hok
  · cases hok
  split at hok
  · cases hok
  next hfresh _ =>
    obtain ⟨rfl, rfl⟩ := hok
    have hfresh' : s.clusters.has fresh = false := by simpa using hfresh
    have hnone : s.clusters.find? fresh = none :=
      find?_eq_none_iff.mpr (has_eq_false_iff.mp hfresh')
    exact ⟨rfl, by simp [stateOf, hnone], column_insertNew hfresh', rfl, rfl, rfl, rfl⟩

theorem addArticleToCluster_eq_ok {target : Uuid}
    (hok : s.addArticleToCluster target facts vector quietDeadline = .ok (u, s')) :
    s'.fingerprints = s.fingerprints ∧ s'.events = s.events ∧ s'.outbox = s.outbox ∧
      ((s.stateOf target = none ∧ s' = s) ∨
       (s'.stateOf target = some .opened ∧
        (∀ clusterId, clusterId ≠ target → s'.stateOf clusterId = s.stateOf clusterId) ∧
        s'.members = s.members.insertNew (memberRow target facts))) := by
  unfold addArticleToCluster at hok
  split at hok
  · next hnone =>
    obtain ⟨_, rfl⟩ := hok
    exact ⟨rfl, rfl, rfl, Or.inl ⟨by simp [stateOf, hnone], rfl⟩⟩
  · next row hrow =>
    split at hok
    · cases hok
    · next newCentroid _ =>
      obtain ⟨_, rfl⟩ := hok
      have hstate := s.clusters.column_updateKey
        (clusterId_joinedRow facts quietDeadline newCentroid)
        (state_joinedRow facts quietDeadline newCentroid) target
      refine ⟨rfl, rfl, rfl, Or.inr ⟨?_, ?_, rfl⟩⟩
      · refine (hstate target).trans ?_
        rw [if_pos rfl, hrow]
        rfl
      · intro clusterId hne
        exact (hstate clusterId).trans (if_neg hne)

section

variable (hok : s.claimReadyClusters tie locked now = .ok (claimed, s'))

include hok

/-- A claim takes due clusters, each once, and makes them `MERGING`. -/
theorem claimReadyClusters_eq_ok :
    (claimed.map ClusterRow.clusterId).Nodup ∧ (∀ record ∈ claimed, ∃ row ∈ s.clusters,
        row.withState .merging = record ∧ dueAt now row) ∧
      (∀ clusterId, s'.stateOf clusterId =
        if clusterId ∈ claimed.map ClusterRow.clusterId then some .merging
        else s.stateOf clusterId) ∧
      s'.members = s.members ∧ s'.fingerprints = s.fingerprints ∧ s'.events = s.events ∧
      s'.outbox = s.outbox := by
  obtain ⟨rfl, rfl⟩ := hok
  have hids : ((dueClusters tie locked now s).map (fun row => row.withState .merging)).map
      ClusterRow.clusterId = (dueClusters tie locked now s).map ClusterRow.clusterId := by
    simp [Function.comp_def]
  rw [hids]
  refine ⟨nodup_map_selectOrdered s.clusters.nodup, ?_, ?_, rfl, rfl, rfl, rfl⟩
  · intro record hrecord
    obtain ⟨row, hrow, rfl⟩ := mem_map.mp hrecord
    obtain ⟨hmem, hdue⟩ := mem_of_mem_selectOrdered hrow
    exact ⟨row, hmem, rfl, by simp at hdue; exact hdue.1⟩
  · exact column_updateBatch (fun row hrow => (mem_of_mem_selectOrdered hrow).1)
      (fun row => row.clusterId_withState .merging) fun row => row.state_withState .merging

/-- The cluster of a claimed record could take articles before. -/
theorem stateOf_of_claimed {clusterId : Uuid} (hmem : clusterId ∈ claimed.map ClusterRow.clusterId) :
    ∃ state, s.stateOf clusterId = some state ∧ state.acceptsArticles := by
  obtain ⟨record, hrecord, rfl⟩ := mem_map.mp hmem
  obtain ⟨row, hrow, rfl, hdue⟩ := (claimReadyClusters_eq_ok hok).2.1 record hrecord
  refine ⟨row.state, stateOf_of_mem hrow, ?_⟩
  simp only [dueAt, decide_eq_true_eq] at hdue
  exact hdue.1

end

theorem storeEventWithOutbox_eq_ok {event : EventDetected reg}
    (hok : s.storeEventWithOutbox event = .ok (u, s')) :
    (∀ clusterId, s'.stateOf clusterId =
      if clusterId = event.clusterId then (s.stateOf clusterId).map fun _ => .merged
      else s.stateOf clusterId) ∧
    s'.members = s.members ∧ s'.fingerprints = s.fingerprints ∧
    s'.outbox = s.outbox.insertNew
      { messageId := event.messageId, aggregateId := event.eventId, payload := event } ∧
    ((s'.events = s.events ∧ ∃ row ∈ s.events, row.clusterId = event.clusterId) ∨
     ((∃ state, s.stateOf event.clusterId = some state) ∧ s.events.has event.eventId = false ∧
      s'.events = s.events.insertNew
        { eventId := event.eventId, clusterId := event.clusterId, payload := event })) := by
  unfold storeEventWithOutbox at hok
  split at hok
  · next hcluster =>
    obtain ⟨_, rfl⟩ := hok
    obtain ⟨row, hrow, hid⟩ := any_eq_true.mp hcluster
    exact ⟨stateOf_setState s event.clusterId .merged, rfl, rfl, rfl,
      Or.inl ⟨rfl, row, hrow, by simpa using hid⟩⟩
  · split at hok
    · cases hok
    split at hok
    · cases hok
    next hfresh hexists =>
      obtain ⟨_, rfl⟩ := hok
      refine ⟨stateOf_setState _ event.clusterId .merged, rfl, rfl, rfl,
        Or.inr ⟨?_, by simpa using hfresh, rfl⟩⟩
      obtain ⟨row, hrow, hid⟩ := has_eq_true_iff.mp (by simpa using hexists)
      exact ⟨row.state, by rw [← hid, stateOf_of_mem hrow]⟩

end Store

variable {repo : CleansingRepository}

theorem handle_eq_error {w : Answer reg} {c : Call reg} {s : Store reg} {e : CleansingError}
    (herror : (handle repo w c s).1 = .error e) : (handle repo w c s).2 = s := by
  cases c with
  | currentTime | newEvent => rfl
  | _ => exact (commit_eq_error herror).1

/-- The calls that may write clusters, members, events or the outbox. -/
def Call.writesClusters : Call reg → Bool
  | .createCluster _ _ _ _ _ => true
  | .addArticleToCluster _ _ _ _ => true
  | .claimReadyClusters _ => true
  | .setClusterState _ _ => true
  | .storeEventWithOutbox _ => true
  | _ => false

/-- Clusters, memberships, events and the outbox are the same. -/
structure Store.SameClusters (s s' : Store reg) : Prop where
  clusters : s'.clusters = s.clusters
  members : s'.members = s.members
  events : s'.events = s.events
  outbox : s'.outbox = s.outbox

variable (repo : CleansingRepository)

/-- Only cluster writes touch clusters. -/
theorem handle_frame (w : Answer reg) (c : Call reg) (s : Store reg) (hc : c.writesClusters = false) :
    s.SameClusters (handle repo w c s).2 := by
  have hsame : s.SameClusters s := ⟨rfl, rfl, rfl, rfl⟩
  cases c with
  | createCluster facts eventType vector quietDeadline lifetimeDeadline => cases hc
  | addArticleToCluster target facts vector quietDeadline => cases hc
  | claimReadyClusters now => cases hc
  | setClusterState target state => cases hc
  | storeEventWithOutbox event => cases hc
  | currentTime | newEvent => exact hsame
  | storeEmbedding articleId vector =>
    refine commit_rule hsame fun a s' hok => ?_
    unfold storeEmbedding at hok
    split at hok
    · cases hok
    · cases hok
      exact ⟨rfl, rfl, rfl, rfl⟩
  | _ =>
    refine commit_rule hsame fun a s' hok => ?_
    cases hok
    exact ⟨rfl, rfl, rfl, rfl⟩

/-- The call stores the event of the cluster or sets its state. -/
def Call.Touches (clusterId : Uuid) : Call reg → Prop
  | .setClusterState target _ => target = clusterId
  | .storeEventWithOutbox event => event.clusterId = clusterId
  | _ => False

def Call.written : Call reg → ClusterState
  | .setClusterState _ state => state
  | _ => .merged

def Call.AddsTo (clusterId : Uuid) : Call reg → Prop
  | .addArticleToCluster target _ _ _ => target = clusterId
  | _ => False

def Call.Claimed (clusterId : Uuid) : (c : Call reg) → c.Ret → Prop
  | .claimReadyClusters _, claimed => clusterId ∈ claimed.map ClusterRow.clusterId
  | _, _ => False

/-- One call leaves a cluster, creates, reopens or claims it, or ends the work on it. -/
theorem handle_state_cases (clusterId : Uuid) (w : Answer reg) (c : Call reg) (s : Store reg) :
    (handle repo w c s).2.stateOf clusterId = s.stateOf clusterId ∨
    (s.stateOf clusterId = none ∧ (handle repo w c s).2.stateOf clusterId = some .opened) ∨
    (c.AddsTo clusterId ∧ (∃ a, (handle repo w c s).1 = .ok a) ∧
      (handle repo w c s).2.stateOf clusterId = some .opened) ∨
    ((∃ a, (handle repo w c s).1 = .ok a ∧ c.Claimed clusterId a) ∧
      (∃ state, s.stateOf clusterId = some state ∧ state.acceptsArticles) ∧
      (handle repo w c s).2.stateOf clusterId = some .merging) ∨
    (c.Touches clusterId ∧ (∃ a, (handle repo w c s).1 = .ok a) ∧
      (handle repo w c s).2.stateOf clusterId =
        (s.stateOf clusterId).map (fun _ => c.written)) := by
  cases hres : (handle repo w c s).1 with
  | error e => exact Or.inl (by rw [handle_eq_error hres])
  | ok a =>
    cases c with
    | createCluster facts eventType vector quietDeadline lifetimeDeadline =>
      obtain ⟨_, hnone, hstate, _⟩ := createCluster_eq_ok (commit_eq_ok hres).2
      by_cases hid : clusterId = w.clusterId
      · subst hid
        exact Or.inr (Or.inl ⟨hnone, (hstate _).trans (if_pos rfl)⟩)
      · exact Or.inl ((hstate clusterId).trans (if_neg hid))
    | addArticleToCluster target facts vector quietDeadline =>
      obtain ⟨_, _, _, ⟨_, hsame⟩ | ⟨hopen, hother, _⟩⟩ :=
        addArticleToCluster_eq_ok (commit_eq_ok hres).2
      · exact Or.inl (congrArg (fun s' => s'.stateOf clusterId) hsame)
      · by_cases hid : clusterId = target
        · subst hid
          exact Or.inr (Or.inr (Or.inl ⟨rfl, ⟨a, rfl⟩, hopen⟩))
        · exact Or.inl (hother clusterId hid)
    | claimReadyClusters now =>
      have hclaim := (commit_eq_ok hres).2
      have hstate := (claimReadyClusters_eq_ok hclaim).2.2.1 clusterId
      by_cases hmem : clusterId ∈ a.map ClusterRow.clusterId
      · exact Or.inr (Or.inr (Or.inr (Or.inl ⟨⟨a, rfl, hmem⟩,
          stateOf_of_claimed hclaim hmem, hstate.trans (if_pos hmem)⟩)))
      · exact Or.inl (hstate.trans (if_neg hmem))
    | setClusterState target state =>
      have hset := (commit_eq_ok hres).2
      simp only [setClusterState, Except.ok.injEq, Prod.mk.injEq] at hset
      have hstate : (handle repo w (.setClusterState target state) s).2.stateOf clusterId = _ :=
        (congrArg (fun s' => s'.stateOf clusterId) hset.2.symm).trans
          (s.stateOf_setState target state clusterId)
      by_cases hid : clusterId = target
      · exact Or.inr (Or.inr (Or.inr (Or.inr ⟨hid.symm, ⟨a, rfl⟩, hstate.trans (if_pos hid)⟩)))
      · exact Or.inl (hstate.trans (if_neg hid))
    | storeEventWithOutbox event =>
      have hstate := (storeEventWithOutbox_eq_ok (commit_eq_ok hres).2).1 clusterId
      by_cases hid : clusterId = event.clusterId
      · exact Or.inr (Or.inr (Or.inr (Or.inr ⟨hid.symm, ⟨a, rfl⟩, hstate.trans (if_pos hid)⟩)))
      · exact Or.inl (hstate.trans (if_neg hid))
    | _ => exact Or.inl (by rw [stateOf, (handle_frame repo w _ s rfl).clusters, stateOf])

/-- Only one call announces an event. -/
theorem handle_outbox_cases (w : Answer reg) (c : Call reg) (s : Store reg) :
    ((handle repo w c s).2.events = s.events ∧ (handle repo w c s).2.outbox = s.outbox) ∨
    ∃ event u, c = .storeEventWithOutbox event ∧
      s.storeEventWithOutbox event = .ok (u, (handle repo w c s).2) := by
  cases hres : (handle repo w c s).1 with
  | error e => exact Or.inl (by rw [handle_eq_error hres]; exact ⟨rfl, rfl⟩)
  | ok a =>
    cases c with
    | createCluster facts eventType vector quietDeadline lifetimeDeadline =>
      exact Or.inl (createCluster_eq_ok (commit_eq_ok hres).2).2.2.2.2.2
    | addArticleToCluster target facts vector quietDeadline =>
      obtain ⟨_, hevents, houtbox, _⟩ := addArticleToCluster_eq_ok (commit_eq_ok hres).2
      exact Or.inl ⟨hevents, houtbox⟩
    | claimReadyClusters now =>
      exact Or.inl (claimReadyClusters_eq_ok (commit_eq_ok hres).2).2.2.2.2.2
    | setClusterState target state =>
      have hset := (commit_eq_ok hres).2
      simp only [setClusterState, Except.ok.injEq, Prod.mk.injEq] at hset
      rw [show (handle repo w (.setClusterState target state) s).2 = _ from hset.2.symm]
      exact Or.inl ⟨rfl, rfl⟩
    | storeEventWithOutbox event => exact Or.inr ⟨event, a, rfl, (commit_eq_ok hres).2⟩
    | _ => exact Or.inl ⟨(handle_frame repo w _ s rfl).events, (handle_frame repo w _ s rfl).outbox⟩

end Cleansing
