import FeedAnalyzer.CleansingCalls

/-!
# Articles against close sweeps, call by call

A sweep owns the clusters it claimed, as long as no article is added to one that is
`MERGING` or `MERGED`.  `add_article_to_cluster` does not look at the state, so an
article whose candidate lookup came before a claim can reopen the cluster.
-/

namespace Cleansing

open Feed Transact Proc Store Table Avoids

variable {reg : Registry} {s : Store reg} {clusterId : Uuid} {w : Answer reg} {c : Call reg}

namespace Store

/-- At most one `EventDetected` is in the outbox for each cluster. -/
def OneRowPerCluster (s : Store reg) : Prop :=
  ∀ r ∈ s.outbox, ∀ r' ∈ s.outbox, r.payload.clusterId = r'.payload.clusterId → r = r'

/-- Every event in the outbox is stored. -/
def EnqueuedExist (s : Store reg) : Prop :=
  ∀ r ∈ s.outbox, s.events.has r.payload.eventId = true

/-- The cluster is `MERGING` or `MERGED`. -/
def Closed (s : Store reg) (clusterId : Uuid) : Prop :=
  s.stateOf clusterId = some .merging ∨ s.stateOf clusterId = some .merged

theorem not_closed_of_accepts {state : ClusterState} (hstate : s.stateOf clusterId = some state)
    (haccepts : state.acceptsArticles) : ¬ s.Closed clusterId := by
  rintro (hclosed | hclosed)
  · cases hstate.symm.trans hclosed
    cases haccepts
  · cases hstate.symm.trans hclosed
    cases haccepts

/-- Events belong to merged clusters, and the outbox to events. -/
structure EventsMerged (s : Store reg) : Prop where
  merged : ∀ event ∈ s.events, s.stateOf event.clusterId = some .merged
  backed : ∀ r ∈ s.outbox, ∃ event ∈ s.events,
    event.eventId = r.payload.eventId ∧ event.clusterId = r.payload.clusterId
  single : s.OneRowPerCluster

/-- Storing the event of a cluster that is `MERGING`. -/
theorem EventsMerged.storeEvent {s' : Store reg} (hs : s.EventsMerged) {event : EventDetected reg}
    {u : Unit} (hok : s.storeEventWithOutbox event = .ok (u, s'))
    (hmerging : s.stateOf event.clusterId = some .merging) : s'.EventsMerged := by
  obtain ⟨hstate, _, _, houtbox, hevents⟩ := storeEventWithOutbox_eq_ok hok
  -- a stored event would have made the cluster `MERGED`
  have hnone : ∀ row ∈ s.events, row.clusterId ≠ event.clusterId := by
    intro row hrow hid
    have hmerged := hs.merged row hrow
    rw [hid, hmerging] at hmerged
    cases hmerged
  have hnoRow : ∀ r ∈ s.outbox, r.payload.clusterId ≠ event.clusterId := by
    intro r hr hid
    obtain ⟨row, hrow, _, hrowid⟩ := hs.backed r hr
    exact hnone row hrow (hrowid.trans hid)
  rcases hevents with ⟨_, row, hrow, hid⟩ | ⟨_, hfresh, hevents⟩
  · exact absurd hid (hnone row hrow)
  · refine ⟨?_, ?_, ?_⟩
    · intro row hrow
      rw [hevents, mem_insertNew] at hrow
      rcases hrow with hold | ⟨_, rfl⟩
      · rw [hstate, if_neg (hnone row hold)]
        exact hs.merged row hold
      · rw [hstate, if_pos rfl, hmerging]
        rfl
    · intro r hr
      rw [houtbox, mem_insertNew] at hr
      rw [hevents]
      rcases hr with hold | ⟨_, rfl⟩
      · obtain ⟨row, hrow, hids⟩ := hs.backed r hold
        exact ⟨row, mem_insertNew_of_mem hrow, hids⟩
      · exact ⟨_, (mem_insertNew_of_fresh hfresh).mpr (Or.inr rfl), rfl, rfl⟩
    · intro r hr r' hr' hid
      rw [houtbox, mem_insertNew] at hr hr'
      rcases hr with hold | ⟨_, rfl⟩
      · rcases hr' with hold' | ⟨_, rfl⟩
        · exact hs.single r hold r' hold' hid
        · exact absurd hid (hnoRow r hold)
      · rcases hr' with hold' | ⟨_, rfl⟩
        · exact absurd hid.symm (hnoRow r' hold')
        · rfl

end Store

variable {repo : CleansingRepository}

/-- A call that adds to no merged cluster, and ends work on claimed clusters
only, leaves a merged cluster merged. -/
theorem handle_keeps_merged (hmerged : s.stateOf clusterId = some .merged)
    (hadd : c.AddsTo clusterId → (∃ a, (handle repo w c s).1 = .ok a) → ¬ s.Closed clusterId)
    (htouch : c.Touches clusterId → s.stateOf clusterId = some .merging) :
    (handle repo w c s).2.stateOf clusterId = some .merged := by
  rcases handle_state_cases repo clusterId w c s with
    hsame | ⟨hnone, _⟩ | ⟨hadds, hok, _⟩ | ⟨_, ⟨state, hstate, haccepts⟩, _⟩ | ⟨htouches, _, _⟩
  · exact hsame.trans hmerged
  · rw [hmerged] at hnone
    cases hnone
  · exact absurd (Or.inr hmerged) (hadd hadds hok)
  · exact absurd (Or.inr hmerged) (not_closed_of_accepts hstate haccepts)
  · rw [hmerged] at htouch
    cases htouch htouches

theorem handle_keeps_eventsMerged (hs : s.EventsMerged)
    (hadd : ∀ clusterId, c.AddsTo clusterId → (∃ a, (handle repo w c s).1 = .ok a) →
      ¬ s.Closed clusterId)
    (htouch : ∀ clusterId, c.Touches clusterId → s.stateOf clusterId = some .merging) :
    (handle repo w c s).2.EventsMerged := by
  rcases handle_outbox_cases repo w c s with
    ⟨hevents, houtbox⟩ | ⟨event, u, rfl, hok⟩
  · refine ⟨?_, ?_, ?_⟩
    · intro event hevent
      rw [hevents] at hevent
      exact handle_keeps_merged (hs.merged event hevent) (hadd _) (htouch _)
    · rw [hevents, houtbox]
      exact hs.backed
    · intro r hr r' hr'
      rw [houtbox] at hr hr'
      exact hs.single r hr r' hr'
  · exact hs.storeEvent hok (htouch _ rfl)

section Run

variable (repo : CleansingRepository) (P : CleansingPipeline reg)
  (acts : Nat → Action Job (Answer reg))
  {i : Nat} {w : Answer reg} {c : Call reg} {clusterId : Uuid}

/-- Empty tables, and nothing runs. -/
def freshStart (reg : Registry) :
    Config (Surroundings reg) (Store reg) CleansingError JobResult where
  store := ∅
  threads := []

/-- The tables before the `k`-th action. -/
def storeAt (k : Nat) : Store reg :=
  (configAt (handle repo) P.perform (freshStart reg) acts k).store

/-- The `k`-th action commits the call `c` of run `i`, which returns `a`. -/
def CommitsAt (k i : Nat) (c : Call reg) (a : c.Ret) : Prop :=
  ∃ w, CallsAt (handle repo) P.perform (freshStart reg) acts k i w c ∧
    (handle repo w c (storeAt repo P acts k)).1 = .ok a

/-- Run `i` adds its article to the cluster at time `k`. -/
def JoinsAt (k i : Nat) (clusterId : Uuid) : Prop :=
  ∃ facts vector quietDeadline a,
    CommitsAt repo P acts k i (.addArticleToCluster clusterId facts vector quietDeadline) a

/-- The lookup of run `i` returns the cluster as a candidate at time `k`. -/
def LooksUpAt (k i : Nat) (clusterId : Uuid) : Prop :=
  ∃ vector eventType candidates,
    CommitsAt repo P acts k i (.findCandidateClusters vector eventType) candidates ∧
      ∃ candidate ∈ candidates, candidate.clusterId = clusterId

/-- Some sweep claims the cluster at time `k`. -/
def ClaimsAt (k : Nat) (clusterId : Uuid) : Prop :=
  ∃ i now claimed, CommitsAt repo P acts k i (.claimReadyClusters now) claimed ∧
    clusterId ∈ claimed.map ClusterRow.clusterId

/-- A sweep claims a cluster between the lookup of an article run and its join, and still
holds it then. -/
def RacedJoin : Prop :=
  ∃ i l k m clusterId, l < k ∧ k < m ∧ LooksUpAt repo P acts l i clusterId ∧
    ClaimsAt repo P acts k clusterId ∧ JoinsAt repo P acts m i clusterId ∧
    (storeAt repo P acts m).Closed clusterId

variable {repo P acts} {k N n : Nat} {next : Except CleansingError c.Ret → Service reg JobResult}

theorem joinsAt_of_addsTo (hcalls : CallsAt (handle repo) P.perform (freshStart reg) acts k i w c)
    (hadds : c.AddsTo clusterId) (hok : ∃ a, (handle repo w c (storeAt repo P acts k)).1 = .ok a) :
    JoinsAt repo P acts k i clusterId := by
  obtain ⟨a, hok⟩ := hok
  cases c with
  | addArticleToCluster target facts vector quietDeadline =>
    obtain rfl := hadds
    exact ⟨facts, vector, quietDeadline, a, w, hcalls, hok⟩
  | _ => exact hadds.elim

theorem JoinsAt.opens (hjoins : JoinsAt repo P acts k i clusterId)
    (hclosed : (storeAt repo P acts k).Closed clusterId) :
    (storeAt repo P acts (k+1)).stateOf clusterId = some .opened := by
  obtain ⟨facts, vector, quietDeadline, a, w, hcalls, hok⟩ := hjoins
  have hstore : storeAt repo P acts (k+1) = _ := hcalls.store_succ
  rw [hstore]
  obtain ⟨_, _, _, ⟨hnone, _⟩ | ⟨hopen, _⟩⟩ :=
    addArticleToCluster_eq_ok (commit_eq_ok hok).2
  · rcases hclosed with hstate | hstate
    · exact absurd (hstate.symm.trans hnone) (by simp)
    · exact absurd (hstate.symm.trans hnone) (by simp)
  · exact hopen

theorem LooksUpAt.not_closed (hlooks : LooksUpAt repo P acts k i clusterId) :
    ¬ (storeAt repo P acts k).Closed clusterId := by
  obtain ⟨vector, eventType, candidates, ⟨w, _, hok⟩, candidate, hmem, rfl⟩ := hlooks
  have hfind := (commit_eq_ok hok).2
  simp only [findCandidateClusters, Except.ok.injEq, Prod.mk.injEq] at hfind
  rw [← hfind.1] at hmem
  obtain ⟨row, hrow, rfl⟩ := List.mem_map.mp hmem
  obtain ⟨hcluster, hopen⟩ := mem_of_mem_selectOrdered hrow
  simp only [decide_eq_true_eq] at hopen
  exact not_closed_of_accepts (stateOf_of_mem hcluster) hopen.1

/-- A sweep that has not claimed yet. -/
def Unclaimed (P : CleansingPipeline reg) (p : Service reg JobResult) : Prop :=
  p = P.perform .closeSweep ∨
    ∃ now, p = (P.claimAndClose now).bind fun events => .ret (.produced events)

theorem perform_unclaimed_or (j : Job) :
    Unclaimed P (P.perform j) ∨ ∀ clusterId, (P.perform j).Avoids (Call.Touches clusterId) := by
  cases j with
  | article message =>
    right
    intro clusterId
    refine bind ?_ fun _ => trivial
    refine (CleansingPipeline.processArticle_calls message).mono ?_
    intro c htouch hcall
    cases c with
    | setClusterState | storeEventWithOutbox => exact hcall
    | _ => exact htouch
  | closeSweep => exact Or.inl (Or.inl rfl)

theorem Unclaimed.not_touches (hun : Unclaimed P (.call c next)) : ¬ c.Touches clusterId := by
  rcases hun with hun | ⟨now, hun⟩
  · cases hun
    exact id
  · cases hun
    exact id

/-- What a claim hands to its sweep: each cluster once, and each of them
`MERGING` since this call. -/
theorem Unclaimed.call (hun : Unclaimed P (.call c next)) :
    Unclaimed P (next (handle repo w c s).1) ∨
      ∀ clusterId, (next (handle repo w c s).1).TouchesOnce (Call.Touches clusterId) ∧
        (¬ (next (handle repo w c s).1).Avoids (Call.Touches clusterId) →
          ¬ s.stateOf clusterId = some .merging ∧
            (handle repo w c s).2.stateOf clusterId = some .merging) := by
  rcases hun with hun | ⟨now, hun⟩
  · cases hun
    exact Or.inl (Or.inr ⟨w.now, rfl⟩)
  · cases hun
    refine Or.inr fun clusterId => ?_
    cases hres : (handle repo w (.claimReadyClusters now) s).1 with
    | error e => exact ⟨trivial, fun hnot => absurd trivial hnot⟩
    | ok claimed =>
      have hclaim := (commit_eq_ok hres).2
      obtain ⟨hnodup, _, hstate, _⟩ := claimReadyClusters_eq_ok hclaim
      have honce := CleansingPipeline.closeClusters_touchesOnce (P := P) clusterId hnodup 0
      refine ⟨honce.bind_avoids fun _ => trivial, fun hnot => ?_⟩
      have hmem : clusterId ∈ claimed.map ClusterRow.clusterId := by
        apply Classical.byContradiction
        intro hmem
        have havoids := CleansingPipeline.closeClusters_avoids_touches (P := P) hmem 0
        exact hnot (havoids.bind fun _ => trivial)
      obtain ⟨state, hopen, haccepts⟩ := stateOf_of_claimed hclaim hmem
      refine ⟨fun hmerging => ?_, (hstate clusterId).trans (if_pos hmem)⟩
      exact not_closed_of_accepts hopen haccepts (Or.inl hmerging)

/-- Up to time `N`, no article joins a closed cluster. -/
def JoinsOpenBefore (repo : CleansingRepository) (P : CleansingPipeline reg)
    (acts : Nat → Action Job (Answer reg)) (N : Nat) : Prop :=
  ∀ m < N, ∀ i clusterId, JoinsAt repo P acts m i clusterId →
    ¬ (storeAt repo P acts m).Closed clusterId

/-- As long as articles join open clusters only, what a sweep may still touch is `MERGING`,
and no other sweep may touch it. -/
theorem exclusive_before (hjoins : JoinsOpenBefore repo P acts N) :
    ∀ n ≤ N, Exclusive Call.Touches
      (fun (s : Store reg) clusterId => s.stateOf clusterId = some .merging) (Unclaimed P)
      (configAt (handle repo) P.perform (freshStart reg) acts n) := by
  refine exclusive_at rfl perform_unclaimed_or ?_
    fun _ _ _ _ _ _ hun => ⟨fun _ => hun.not_touches, hun.call⟩
  intro n hn i w c hcalls clusterId hmerging htouch
  rcases handle_state_cases repo clusterId w c (storeAt repo P acts n) with
    hsame | ⟨hnone, _⟩ | ⟨hadds, hok, _⟩ | ⟨_, _, hstate⟩ | ⟨htouches, _, _⟩
  · exact hsame.trans hmerging
  · exact absurd (hmerging.symm.trans hnone) (by simp)
  · exact absurd (Or.inl hmerging) (hjoins n hn i clusterId (joinsAt_of_addsTo hcalls hadds hok))
  · exact hstate
  · exact absurd htouches htouch

/-- So work ends only on a cluster that is `MERGING`. -/
theorem merging_of_touches (hjoins : JoinsOpenBefore repo P acts n)
    (hcalls : CallsAt (handle repo) P.perform (freshStart reg) acts n i w c)
    (htouch : c.Touches clusterId) : (storeAt repo P acts n).stateOf clusterId = some .merging :=
  held_of_touches (exclusive_before hjoins n (Nat.le_refl n)) hcalls
    (fun _ hun => hun.not_touches) htouch

/-- As long as articles join open clusters only, the events are in order. -/
theorem eventsMerged_before (hjoins : JoinsOpenBefore repo P acts N) :
    ∀ n ≤ N, (storeAt repo P acts n).EventsMerged := by
  intro n
  induction n with
  | zero =>
    intro _
    exact ⟨fun event hevent => absurd hevent (not_mem_empty event),
      fun r hr => absurd hr (not_mem_empty r),
      fun r hr => absurd hr (not_mem_empty r)⟩
  | succ n ih =>
    intro hn
    have hs := ih (by omega)
    rcases configAt_store_succ (freshStart reg) acts n with
      ⟨i, w, c, hcalls, hstore⟩ | hsame
    · have hstore' : storeAt repo P acts (n+1) = _ := hstore
      rw [hstore']
      refine handle_keeps_eventsMerged hs ?_ ?_
      · intro clusterId hadds hok
        exact hjoins n (by omega) i clusterId (joinsAt_of_addsTo hcalls hadds hok)
      · intro clusterId htouch
        exact merging_of_touches (fun m hm => hjoins m (by omega)) hcalls htouch
    · have hsame' : storeAt repo P acts (n+1) = storeAt repo P acts n := hsame
      rw [hsame']
      exact hs

/-- No procedure writes `OPEN` when it ends the work on a cluster. -/
theorem not_written_opened (hcalls : CallsAt (handle repo) P.perform (freshStart reg) acts n i w c)
    (htouch : c.Touches clusterId) : c.written ≠ .opened := by
  have havoids : ∀ j, (P.perform j).Avoids
      (fun c : Call reg => c.Touches clusterId ∧ c.written = .opened) := by
    intro j
    cases j with
    | article message =>
      refine bind ?_ fun _ => trivial
      refine (CleansingPipeline.processArticle_calls message).mono ?_
      intro c hc hcall
      cases c with
      | setClusterState | storeEventWithOutbox => exact hcall
      | _ => exact hc.1
    | closeSweep =>
      refine bind ?_ fun _ => trivial
      refine CleansingPipeline.closeReadyClusters_calls.mono ?_
      intro c hc hcall
      cases c with
      | setClusterState target state => cases hcall.symm.trans hc.2
      | storeEventWithOutbox event => cases hc.2
      | _ => exact hc.1
  exact fun hwritten => avoids_at rfl havoids hcalls ⟨htouch, hwritten⟩

/-- What one step does to a state. -/
theorem stateOf_succ_cases (repo : CleansingRepository) (P : CleansingPipeline reg)
    (acts : Nat → Action Job (Answer reg)) (n : Nat) (clusterId : Uuid) :
    (storeAt repo P acts (n+1)).stateOf clusterId = (storeAt repo P acts n).stateOf clusterId ∨
    ((storeAt repo P acts n).stateOf clusterId = none ∧
      (storeAt repo P acts (n+1)).stateOf clusterId = some .opened) ∨
    ((∃ i, JoinsAt repo P acts n i clusterId) ∧
      (storeAt repo P acts (n+1)).stateOf clusterId = some .opened) ∨
    (ClaimsAt repo P acts n clusterId ∧
      (storeAt repo P acts (n+1)).stateOf clusterId = some .merging) ∨
    (∃ i w c, CallsAt (handle repo) P.perform (freshStart reg) acts n i w c ∧
      c.Touches clusterId ∧ (storeAt repo P acts (n+1)).stateOf clusterId =
        ((storeAt repo P acts n).stateOf clusterId).map (fun _ => c.written)) := by
  rcases configAt_store_succ (freshStart reg) acts n with
    ⟨i, w, c, hcalls, hstore⟩ | hsame
  · have hstore' : storeAt repo P acts (n+1) = (handle repo w c (storeAt repo P acts n)).2 := hstore
    rw [hstore']
    rcases handle_state_cases repo clusterId w c (storeAt repo P acts n) with
      hsame | hcreated | ⟨hadds, hok, hopen⟩ | ⟨hclaimed, _, hstate⟩ | ⟨htouches, _, hstate⟩
    · exact Or.inl hsame
    · exact Or.inr (Or.inl hcreated)
    · exact Or.inr (Or.inr (Or.inl ⟨⟨i, joinsAt_of_addsTo hcalls hadds hok⟩, hopen⟩))
    · obtain ⟨claimed, hok, hmem⟩ := hclaimed
      cases c with
      | claimReadyClusters now =>
        exact Or.inr (Or.inr (Or.inr (Or.inl ⟨⟨i, now, claimed, ⟨w, hcalls, hok⟩, hmem⟩, hstate⟩)))
      | _ => exact hmem.elim
    · exact Or.inr (Or.inr (Or.inr (Or.inr ⟨i, w, c, hcalls, htouches, hstate⟩)))
  · exact Or.inl (congrArg (fun s => s.stateOf clusterId) hsame)

theorem joinsAt_of_reopened (hclosed : (storeAt repo P acts n).Closed clusterId)
    (hopen : (storeAt repo P acts (n+1)).stateOf clusterId = some .opened) :
    ∃ i, JoinsAt repo P acts n i clusterId := by
  have hbefore : (storeAt repo P acts n).stateOf clusterId ≠ some .opened := by
    intro hstate
    exact not_closed_of_accepts hstate rfl hclosed
  rcases stateOf_succ_cases repo P acts n clusterId with
    hsame | ⟨hnone, _⟩ | ⟨hjoins, _⟩ | ⟨_, hmerging⟩ | ⟨i, w, c, hcalls, htouches, hstate⟩
  · exact absurd (hsame.symm.trans hopen) hbefore
  · rcases hclosed with hstate | hstate
    · cases hnone.symm.trans hstate
    · cases hnone.symm.trans hstate
  · exact hjoins
  · cases hopen.symm.trans hmerging
  · obtain ⟨_, _, hwritten⟩ := Option.map_eq_some_iff.mp (hstate.symm.trans hopen)
    exact absurd hwritten (not_written_opened hcalls htouches)

theorem claimsAt_of_closed (hjoins : JoinsOpenBefore repo P acts n)
    (hbefore : ¬ (storeAt repo P acts n).Closed clusterId)
    (hafter : (storeAt repo P acts (n+1)).Closed clusterId) : ClaimsAt repo P acts n clusterId := by
  have hopened : (storeAt repo P acts (n+1)).stateOf clusterId ≠ some .opened := by
    intro hstate
    exact not_closed_of_accepts hstate rfl hafter
  rcases stateOf_succ_cases repo P acts n clusterId with
    hsame | ⟨_, hopen⟩ | ⟨_, hopen⟩ | ⟨hclaims, _⟩ | ⟨i, w, c, hcalls, htouches, _⟩
  · rw [Closed, hsame] at hafter
    exact absurd hafter hbefore
  · exact absurd hopen hopened
  · exact absurd hopen hopened
  · exact hclaims
  · exact absurd (Or.inl (merging_of_touches hjoins hcalls htouches)) hbefore

/-- A closed cluster is joined by a race. -/
theorem raced_of_joinsAt {m : Nat} (hbefore : JoinsOpenBefore repo P acts m)
    (hjoin : JoinsAt repo P acts m i clusterId) (hclosed : (storeAt repo P acts m).Closed clusterId)
    : RacedJoin repo P acts := by
  obtain ⟨facts, vector, quietDeadline, a, w, hcalls, hok⟩ := hjoin
  have hcode : ∀ j, (P.perform j).PrecededBy (Call.Proposes clusterId) (Call.AddsTo clusterId) := by
    intro j
    cases j with
    | article message =>
      exact (CleansingPipeline.processArticle_precededBy clusterId message).bind_avoids
        fun _ => trivial
    | closeSweep =>
      refine precededBy (bind ?_ fun _ => trivial)
      refine CleansingPipeline.closeReadyClusters_calls.mono ?_
      intro c hadds hcall
      cases c with
      | addArticleToCluster target facts vector quietDeadline => exact hcall
      | _ => exact hadds
  obtain ⟨l, hl, w', c', candidates, hlookup, hfound, hproposes⟩ :=
    preceded_at rfl hcode hcalls rfl
  cases c' with
  | findCandidateClusters vector' eventType =>
    have hlooks : LooksUpAt repo P acts l i clusterId :=
      ⟨vector', eventType, candidates, ⟨w', hlookup, hfound⟩, hproposes⟩
    obtain ⟨k, hlk, hkm, hnot, hafter⟩ := exists_step_of_change
      (A := fun k => (storeAt repo P acts k).Closed clusterId) (Nat.le_of_lt hl)
      hlooks.not_closed hclosed
    have hclaims := claimsAt_of_closed (fun n hn => hbefore n (by omega)) hnot hafter
    -- the lookup itself claims nothing
    have hne : l ≠ k := by
      rintro rfl
      obtain ⟨j, now, claimed, ⟨w₂, hclaim, _⟩, _⟩ := hclaims
      cases (hlookup.unique hclaim).2.2
    exact ⟨i, l, k, m, clusterId, by omega, hkm, hlooks, hclaims,
      ⟨facts, vector, quietDeadline, a, w, hcalls, hok⟩, hclosed⟩
  | _ => exact hproposes.elim

/-- Without a raced join, articles join open clusters only. -/
theorem joinsOpen_of_not_raced (hrace : ¬ RacedJoin repo P acts) (N : Nat) :
    JoinsOpenBefore repo P acts N := by
  induction N with
  | zero => exact fun m hm => absurd hm (Nat.not_lt_zero m)
  | succ N ih =>
    intro m hm i clusterId hjoin hclosed
    exact hrace (raced_of_joinsAt (fun n hn => ih n (by omega)) hjoin hclosed)

/-- **When a cluster closes once.**  In every interleaving, each cluster has at most one
`EventDetected` in the outbox, every enqueued event is stored and no cluster is reopened,
exactly when no sweep claims a cluster between the lookup of an article run and its join. -/
theorem cluster_closes_once_iff (repo : CleansingRepository) (P : CleansingPipeline reg)
    (acts : Nat → Action Job (Answer reg)) :
    (∀ n, (storeAt repo P acts n).OneRowPerCluster ∧ (storeAt repo P acts n).EnqueuedExist ∧
      ∀ clusterId, (storeAt repo P acts n).Closed clusterId →
        (storeAt repo P acts (n+1)).stateOf clusterId ≠ some .opened) ↔
    ¬ RacedJoin repo P acts := by
  constructor
  · rintro hruns ⟨i, l, k, m, clusterId, _, _, _, _, hjoins, hclosed⟩
    exact (hruns m).2.2 clusterId hclosed (hjoins.opens hclosed)
  · intro hrace n
    have hevents := eventsMerged_before (joinsOpen_of_not_raced hrace n) n (Nat.le_refl n)
    refine ⟨hevents.single, ?_, ?_⟩
    · intro r hr
      obtain ⟨event, hevent, hid, _⟩ := hevents.backed r hr
      exact has_eq_true_iff.mpr ⟨event, hevent, hid⟩
    · intro clusterId hclosed hopen
      obtain ⟨i, hjoins⟩ := joinsAt_of_reopened hclosed hopen
      exact joinsOpen_of_not_raced hrace (n+1) n (by omega) i clusterId hjoins hclosed

end Run

/-- An article opens cluster 1; a second one finds it; a sweep merges it; the second one
joins; another sweep follows. -/
def reopeningActions : List (Action Job (Answer goldRegistry)) :=
  [.spawn (.article (plainArticle 1 "Strait closed"))] ++
    List.replicate 11 (.run 0 (articleAnswer 1)) ++
    [.spawn (.article (plainArticle 2 "Tankers turn back"))] ++
    List.replicate 10 (.run 1 (articleAnswer 2)) ++
    [.spawn .closeSweep] ++
    List.replicate 6 (.run 2 (sweepAnswer { messageId := 11, eventId := 21 })) ++
    [.run 1 (articleAnswer 2), .spawn .closeSweep] ++
    List.replicate 6 (.run 3 (sweepAnswer { messageId := 12, eventId := 22 }))

def reopeningSchedule (k : Nat) : Action Job (Answer goldRegistry) :=
  reopeningActions.getD k (.run 4 {})

/-- **The reopened cluster.**  The second article takes cluster 1 from `MERGED` back to
`OPEN`, and it gets a second `EventDetected`, whose event is not stored. -/
theorem reopened_cluster_enqueues_twice :
    (storeAt plainRepository plainPipeline reopeningSchedule 30).stateOf 1 = some .merged ∧
      (storeAt plainRepository plainPipeline reopeningSchedule 31).stateOf 1 = some .opened ∧
      (storeAt plainRepository plainPipeline reopeningSchedule 38).outbox.rows.map
        (fun r => (r.payload.clusterId, r.payload.eventId)) = [(1, 21), (1, 22)] ∧
      (storeAt plainRepository plainPipeline reopeningSchedule 38).events.has 22 = false := by
  decide +kernel

end Cleansing
