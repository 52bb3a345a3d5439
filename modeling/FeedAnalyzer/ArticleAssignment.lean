import FeedAnalyzer.CleansingCalls
import FeedAnalyzer.JobHistory

/-!
# Articles that are delivered again

The replay guard of `process_article` looks only at `article_fingerprints`, the first
of the four tables a call writes.  So a redelivered article ends in one cluster
exactly when no earlier call failed after its fingerprint had committed.
-/

namespace Cleansing

open Feed Transact Proc List Store Table Avoids

variable {reg : Registry} {facts : ArticleFacts} {j : Job}

namespace Store

def clustersOf (s : Store reg) (articleId : Uuid) : List Uuid :=
  (s.members.rows.filter (fun row => row.articleId = articleId)).map MemberRow.clusterId

variable {s' : Store reg} {s : Store reg} {clusterId : Uuid}

section

variable (hmembers : s'.members = s.members.insertNew (memberRow clusterId facts))

include hmembers

theorem clustersOf_insert_other {articleId : Uuid} (hne : facts.articleId ≠ articleId) :
    s'.clustersOf articleId = s.clustersOf articleId := by
  rw [clustersOf, hmembers, filter_insertNew, clustersOf]
  exact decide_eq_false hne

theorem clustersOf_insert_first (hnone : s.clustersOf facts.articleId = []) :
    s'.clustersOf facts.articleId = [clusterId] := by
  have hfilter : s.members.rows.filter (fun row => row.articleId = facts.articleId) = [] := by
    simpa [clustersOf] using hnone
  have hfresh : s.members.has (memberRow clusterId facts).key = false := by
    rw [has_eq_false_iff]
    intro row hrow hkey
    have hnot := filter_eq_nil_iff.mp hfilter row hrow
    exact hnot (decide_eq_true (congrArg Prod.snd hkey))
  rw [clustersOf, hmembers, rows_insertNew_of_fresh hfresh, filter_append, hfilter]
  simp [memberRow]

end

end Store

/-- The call writes a fingerprint or a membership of the article. -/
def Call.Records (articleId : Uuid) : Call reg → Prop
  | .storeFingerprint target _ _ _ => target = articleId
  | .createCluster facts _ _ _ _ => facts.articleId = articleId
  | .addArticleToCluster _ facts _ _ => facts.articleId = articleId
  | _ => False

/-- The fingerprint and the memberships of an article are the same. -/
structure Store.SameArticle (articleId : Uuid) (s s' : Store reg) : Prop where
  fingerprint : s'.fingerprints.has articleId = s.fingerprints.has articleId
  clusters : s'.clustersOf articleId = s.clustersOf articleId

variable {repo : CleansingRepository} {P : CleansingPipeline reg} {articleId : Uuid} {c : Call reg}

/-- Only `Records` calls touch an article. -/
theorem handle_keeps_article (repo : CleansingRepository) (w : Answer reg) (s : Store reg)
    (hc : ¬ c.Records articleId) : s.SameArticle articleId (handle repo w c s).2 := by
  have hsame : s.SameArticle articleId s := ⟨rfl, rfl⟩
  have hframe : ∀ s' : Store reg, s'.fingerprints = s.fingerprints → s'.members = s.members →
      s.SameArticle articleId s' := by
    intro s' hfingerprints hmembers
    exact ⟨by rw [hfingerprints], by rw [clustersOf, hmembers, clustersOf]⟩
  cases c with
  | storeFingerprint target simhash sourceId publishedAt =>
    refine commit_rule hsame fun a s' hok => ?_
    cases hok
    refine ⟨?_, rfl⟩
    rw [has_insertNew]
    have hne : ¬ target = articleId := hc
    simp [hne]
  | createCluster facts eventType vector quietDeadline lifetimeDeadline =>
    refine commit_rule hsame fun a s' hok => ?_
    obtain ⟨_, _, _, hmembers, hfingerprints, _⟩ := createCluster_eq_ok hok
    exact ⟨by rw [hfingerprints], clustersOf_insert_other hmembers hc⟩
  | addArticleToCluster target facts vector quietDeadline =>
    refine commit_rule hsame fun a s' hok => ?_
    obtain ⟨hfingerprints, _, _, ⟨_, hsame'⟩ | ⟨_, _, hmembers⟩⟩ :=
      addArticleToCluster_eq_ok hok
    · rw [hsame']
      exact hsame
    · exact ⟨by rw [hfingerprints], clustersOf_insert_other hmembers hc⟩
  | claimReadyClusters now =>
    refine commit_rule hsame fun a s' hok => ?_
    obtain ⟨_, _, _, hmembers, hfingerprints, _⟩ := claimReadyClusters_eq_ok hok
    exact hframe s' hfingerprints hmembers
  | storeEventWithOutbox event =>
    refine commit_rule hsame fun a s' hok => ?_
    obtain ⟨_, hmembers, hfingerprints, _⟩ := storeEventWithOutbox_eq_ok hok
    exact hframe s' hfingerprints hmembers
  | currentTime | newEvent => exact hsame
  | storeEmbedding target vector =>
    refine commit_rule hsame fun a s' hok => ?_
    unfold storeEmbedding at hok
    split at hok
    · cases hok
    · cases hok
      exact hframe _ rfl rfl
  | _ =>
    refine commit_rule hsame fun a s' hok => ?_
    cases hok
    exact hframe _ rfl rfl

/-- In no cluster when it raises, in one when it returns and has not dropped the article. -/
def AttemptEnds (articleId : Uuid) : Except CleansingError ArticleOutcome → Store reg → Prop
  | .error _, s => s.clustersOf articleId = []
  | .ok (.clusterCreated clusterId), s => s.clustersOf articleId = [clusterId]
  | .ok (.clusterJoined clusterId), s => s.clustersOf articleId = [clusterId]
  | .ok .nearDuplicateDropped, _ => True
  | .ok .replaySkipped, _ => False

/-- Cut off anywhere, the attempt leaves no membership. -/
abbrev Attempt (repo : CleansingRepository) (articleId : Uuid) {β : Type}
    (Q : Except CleansingError β → Store reg → Prop) (p : Service reg β) (s : Store reg) : Prop :=
  p.Meets (handle repo) (fun _ _ _ => True) (fun s => s.clustersOf articleId = []) Q s

variable {s : Store reg}

theorem attempt_ask {f : c.Ret → Service reg ArticleOutcome} (hnone : s.clustersOf articleId = [])
    (hkeep : ∀ w, (handle repo w c s).2.clustersOf articleId = s.clustersOf articleId)
    (hok : ∀ a s', s'.clustersOf articleId = [] →
      Attempt repo articleId (AttemptEnds articleId) (f a) s') :
    Attempt repo articleId (AttemptEnds articleId) ((ask c).bind f) s := by
  refine meets_perform hnone (fun w a _ _ => ?_) fun w e _ _ => ?_
  · exact hok a _ ((hkeep w).trans hnone)
  · exact (hkeep w).trans hnone

/-- One attempt at the writes. -/
theorem writeAssignment_attempt (hid : facts.articleId = articleId) (eventType : EventType)
    (vector : List Rat) (quietAt lifetimeAt : Int) {candidates : List ClusterCandidate}
    (hnone : s.clustersOf articleId = [])
    (hexist : ∀ candidate ∈ candidates, s.stateOf candidate.clusterId ≠ none) :
    Attempt repo articleId (AttemptEnds articleId)
      (P.writeAssignment facts eventType vector quietAt lifetimeAt candidates) s := by
  subst hid
  unfold CleansingPipeline.writeAssignment
  split
  · refine meets_perform hnone (fun w a _ hres => ?_) fun w e _ hres => ?_
    · obtain ⟨rfl, _, _, hmembers, _⟩ := createCluster_eq_ok (commit_eq_ok hres).2
      exact clustersOf_insert_first hmembers hnone
    · rw [handle_eq_error hres]
      exact hnone
  · next target htarget =>
    refine meets_perform hnone (fun w a _ hres => ?_) fun w e _ hres => ?_
    · obtain ⟨candidate, hmem, rfl⟩ := CleansingPipeline.decideAssignment_mem htarget
      obtain ⟨_, _, _, ⟨hmissing, _⟩ | ⟨_, _, hmembers⟩⟩ :=
        addArticleToCluster_eq_ok (commit_eq_ok hres).2
      · exact absurd hmissing (hexist candidate hmem)
      · exact clustersOf_insert_first hmembers hnone
    · rw [handle_eq_error hres]
      exact hnone

theorem assignToCluster_attempt (hid : facts.articleId = articleId) (eventType : EventType)
    (vector : List Rat) (hnone : s.clustersOf articleId = []) :
    Attempt repo articleId (AttemptEnds articleId)
      (P.assignToCluster facts eventType vector) s := by
  refine attempt_ask hnone (fun w => rfl) fun now s₁ hnone₁ => ?_
  split
  · exact writeAssignment_attempt hid _ _ _ _ hnone₁ fun candidate hmem => absurd hmem (by simp)
  · refine meets_perform hnone₁ (fun w candidates _ hres => ?_) fun w e _ hres => ?_
    · -- nothing runs between the lookup and the join, so the candidates exist
      have hfind := (commit_eq_ok hres).2
      simp only [findCandidateClusters, Except.ok.injEq, Prod.mk.injEq] at hfind
      rw [show (handle repo w (.findCandidateClusters vector eventType) s₁).2 = s₁ from
        hfind.2.symm]
      refine writeAssignment_attempt hid _ _ _ _ hnone₁ ?_
      intro candidate hmem
      rw [← hfind.1] at hmem
      obtain ⟨row, hrow, rfl⟩ := mem_map.mp hmem
      rw [stateOf_of_mem (mem_of_mem_selectOrdered hrow).1]
      simp
    · rw [handle_eq_error hres]
      exact hnone₁

variable (message : ArticleIngested)

/-- **An attempt on a new article.**  Cut off or raising, it leaves the article in no
cluster; if it returns, it has dropped the article or put it into one. -/
theorem processArticle_attempt (hnew : s.fingerprints.has message.articleId = false)
    (hnone : s.clustersOf message.articleId = []) :
    Attempt repo message.articleId (AttemptEnds message.articleId) (P.processArticle message) s := by
  have hkeeps : ∀ {c : Call reg} {s : Store reg}, ¬ c.Records message.articleId →
      ∀ w, (handle repo w c s).2.clustersOf message.articleId = s.clustersOf message.articleId :=
    fun hc w => (handle_keeps_article repo w _ hc).clusters
  refine meets_perform hnone (fun w seen _ hres => ?_) fun w e _ hres => (hkeeps id w).trans hnone
  have hseen := (commit_eq_ok hres).2
  simp only [articleAlreadyProcessed, Except.ok.injEq, Prod.mk.injEq] at hseen
  obtain rfl : seen = false := hseen.1.symm.trans hnew
  have hnone' : (handle repo w (.articleAlreadyProcessed message.articleId) s).2.clustersOf
      message.articleId = [] := (hkeeps id w).trans hnone
  refine attempt_ask hnone' (fun w => rfl) fun now s₁ hnone₁ => ?_
  refine attempt_ask hnone₁ (hkeeps id) fun recent s₂ hnone₂ => ?_
  split
  · trivial
  refine attempt_ask hnone₂ (hkeeps id) fun vector s₃ hnone₃ => ?_
  refine attempt_ask hnone₃ (hkeeps id) fun action s₄ hnone₄ => ?_
  refine attempt_ask hnone₄ ?_ fun _ s₅ hnone₅ => ?_
  · intro w
    refine commit_rule
      (Q := fun s' : Store reg => s'.clustersOf message.articleId = s₄.clustersOf message.articleId)
      rfl fun a s' hok => ?_
    cases hok
    rfl
  refine attempt_ask hnone₅ (hkeeps id) fun _ s₆ hnone₆ => ?_
  refine attempt_ask hnone₆ (hkeeps id) fun _ s₇ hnone₇ => ?_
  have hid : (P.usableFacts message).articleId = message.articleId := rfl
  exact assignToCluster_attempt hid _ _ hnone₇

/-- An attempt on an article with a fingerprint changes nothing, and returns at
once if it is not cut off. -/
theorem processArticle_seen (hseen : s.fingerprints.has message.articleId) :
    (P.processArticle message).Meets (handle repo) (fun _ _ _ => True) (fun s' => s' = s)
      (fun r s' => s' = s ∧ ∀ outcome, r = .ok outcome → outcome = .replaySkipped) s := by
  refine meets_perform rfl (fun w seen _ hres => ?_)
    fun w e _ hres => ⟨handle_eq_error hres, fun outcome houtcome => by cases houtcome⟩
  have hguard := (commit_eq_ok hres).2
  simp only [articleAlreadyProcessed, Except.ok.injEq, Prod.mk.injEq] at hguard
  obtain rfl : seen := hguard.1.symm.trans hseen
  exact ⟨hguard.2.symm, fun outcome houtcome => by cases houtcome; rfl⟩

theorem perform_avoids_records (hother : ∀ message, j = .article message →
      message.articleId ≠ articleId) : (P.perform j).Avoids (Call.Records articleId) := by
  cases j with
  | article message =>
    refine bind ?_ fun _ => trivial
    refine (CleansingPipeline.processArticle_calls message).mono ?_
    intro c hrecords hcall
    have hne := hother message rfl
    cases c with
    | storeFingerprint target simhash sourceId publishedAt =>
      exact hne (hcall.symm.trans hrecords)
    | createCluster facts eventType vector quietDeadline lifetimeDeadline =>
      exact hne (hcall.symm.trans hrecords)
    | addArticleToCluster target facts vector quietDeadline =>
      exact hne (hcall.symm.trans hrecords)
    | _ => exact hrecords
  | closeSweep =>
    refine bind ?_ fun _ => trivial
    refine CleansingPipeline.closeReadyClusters_calls.mono ?_
    intro c hrecords hcall
    cases c with
    | storeFingerprint | createCluster | addArticleToCluster => exact hcall
    | _ => exact hrecords

def JobEnds (articleId : Uuid) : Except CleansingError JobResult → Store reg → Prop
  | .error _, s => s.clustersOf articleId = []
  | .ok (.article outcome), s => AttemptEnds articleId (.ok outcome) s
  | .ok (.produced _), _ => False

theorem perform_attempt (repo : CleansingRepository) (P : CleansingPipeline reg)
    (message : ArticleIngested) (hnew : s.fingerprints.has message.articleId = false)
    (hnone : s.clustersOf message.articleId = []) (ws : List (Answer reg)) :
    Attempt repo message.articleId (JobEnds message.articleId)
      ((P.perform (.article message)).advance (handle repo) ws s).1
      ((P.perform (.article message)).advance (handle repo) ws s).2 := by
  refine Meets.advance ?_ ws (admitted_of_forall (fun _ _ _ => trivial) _ _ _)
  refine Meets.bind ((processArticle_attempt message hnew hnone).mono ?_)
  intro r s' hends
  cases r with
  | _ => exact hends

theorem perform_seen (hseen : s.fingerprints.has message.articleId) (ws : List (Answer reg)) :
    ((P.perform (.article message)).advance (handle repo) ws s).2 = s := by
  have hmeets : (P.perform (.article message)).Meets (handle repo) (fun _ _ _ => True)
      (fun s' => s' = s) (fun _ s' => s' = s) s := by
    refine Meets.bind ((processArticle_seen message hseen).mono ?_)
    intro r s' hends
    cases r with
    | _ => exact hends.1
  have hleft := hmeets.advance ws (admitted_of_forall (fun _ _ _ => trivial) _ _ _)
  cases hrest : ((P.perform (.article message)).advance (handle repo) ws s).1 with
  | ret | fail => rw [hrest] at hleft; exact hleft
  | call c next => rw [hrest] at hleft; exact hleft.1

section History

variable (repo : CleansingRepository) (P : CleansingPipeline reg) (articleId : Uuid)
  (past : List (Job × List (Answer reg))) (s : Store reg) {ws : List (Answer reg)}

/-- No delivery of the article among the past jobs has returned. -/
def AttemptsFail : Prop :=
  ∀ before message ws after, past = before ++ (.article message, ws) :: after →
    message.articleId = articleId → ∀ r, ((P.perform (.article message)).advance (handle repo) ws
        (runJobs (handle repo) P.perform before s)).1 ≠ .ret r

/-- Some delivery of the article among the past jobs committed its fingerprint. -/
def FailsAfterFingerprint : Prop :=
  ∃ before message ws after, past = before ++ (.article message, ws) :: after ∧
    message.articleId = articleId ∧
    (runJobs (handle repo) P.perform before s).fingerprints.has articleId = false ∧
    ((P.perform (.article message)).advance (handle repo) ws
      (runJobs (handle repo) P.perform before s)).2.fingerprints.has articleId = true

variable {repo P articleId past s}

theorem other_job_keeps (repo : CleansingRepository) (P : CleansingPipeline reg) (s : Store reg)
    (hother : ∀ message, j = .article message →
      message.articleId ≠ articleId) (ws : List (Answer reg)) :
    s.SameArticle articleId ((P.perform j).advance (handle repo) ws s).2 := by
  refine (perform_avoids_records hother).advance_preserves ?_ ws ⟨rfl, rfl⟩
  intro w c s' hc hsame
  have hstep := handle_keeps_article repo w s' hc
  exact ⟨hstep.fingerprint.trans hsame.fingerprint, hstep.clusters.trans hsame.clusters⟩

/-- Where every delivery of the article fails, it stays in no cluster, and a fingerprint
stays. -/
theorem failing_job_keeps
    (hfail : ∀ message, j = .article message → message.articleId = articleId → ∀ r,
      ((P.perform (.article message)).advance (handle repo) ws s).1 ≠ .ret r)
    (hnone : s.clustersOf articleId = []) :
    ((P.perform j).advance (handle repo) ws s).2.clustersOf articleId = [] ∧
      (s.fingerprints.has articleId →
        ((P.perform j).advance (handle repo) ws s).2.fingerprints.has articleId) := by
  by_cases hdelivery : ∃ message, j = .article message ∧ message.articleId = articleId
  · obtain ⟨message, rfl, rfl⟩ := hdelivery
    cases hseen : s.fingerprints.has message.articleId with
    | true =>
      rw [perform_seen message hseen ws]
      exact ⟨hnone, fun _ => hseen⟩
    | false =>
      refine ⟨?_, fun h => absurd h (by simp)⟩
      have hleft := perform_attempt repo P message hseen hnone ws
      cases hrest : ((P.perform (.article message)).advance (handle repo) ws s).1 with
      | ret r => exact absurd hrest (hfail message rfl rfl r)
      | fail e => rw [hrest] at hleft; exact hleft
      | call c next => rw [hrest] at hleft; exact hleft.1
  · have hother : ∀ message, j = .article message → message.articleId ≠ articleId :=
      fun message hj hid => hdelivery ⟨message, hj, hid⟩
    have hkept := other_job_keeps repo P s hother ws
    exact ⟨hkept.clusters.trans hnone, fun h => hkept.fingerprint.trans h⟩

section

variable (hfails : AttemptsFail repo P articleId ((j, ws) :: past) s)

include hfails

theorem AttemptsFail.head :
    ∀ message, j = .article message → message.articleId = articleId → ∀ r,
      ((P.perform (.article message)).advance (handle repo) ws s).1 ≠ .ret r := by
  intro message hj hid
  exact hfails [] message ws past (by rw [hj]; rfl) hid

theorem AttemptsFail.tail :
    AttemptsFail repo P articleId past ((P.perform j).advance (handle repo) ws s).2 := by
  intro before message ws' after hpast hid
  exact hfails ((j, ws) :: before) message ws' after (by rw [hpast]; rfl) hid

end

theorem stranded_stays (hfails : AttemptsFail repo P articleId past s)
    (hseen : s.fingerprints.has articleId) (hnone : s.clustersOf articleId = []) :
    (runJobs (handle repo) P.perform past s).fingerprints.has articleId ∧
      (runJobs (handle repo) P.perform past s).clustersOf articleId = [] := by
  induction past generalizing s with
  | nil => exact ⟨hseen, hnone⟩
  | cons job rest ih =>
    obtain ⟨hnone', hseen'⟩ := failing_job_keeps hfails.head hnone
    exact ih hfails.tail (hseen' hseen) hnone'

/-- After failing deliveries only, the article is in no cluster, and has a
fingerprint exactly when some delivery failed after storing it. -/
theorem fingerprint_iff_failsAfter (hfails : AttemptsFail repo P articleId past s)
    (hnew : s.fingerprints.has articleId = false) (hnone : s.clustersOf articleId = []) :
    (runJobs (handle repo) P.perform past s).clustersOf articleId = [] ∧
      ((runJobs (handle repo) P.perform past s).fingerprints.has articleId ↔
        FailsAfterFingerprint repo P articleId past s) := by
  induction past generalizing s with
  | nil =>
    refine ⟨hnone, ⟨fun h => ?_, ?_⟩⟩
    · rw [runJobs, hnew] at h
      cases h
    · rintro ⟨before, message, ws, after, hpast, _⟩
      simp at hpast
  | cons job rest ih =>
    obtain ⟨j, ws⟩ := job
    obtain ⟨hnone', _⟩ := failing_job_keeps hfails.head hnone
    cases hstored : ((P.perform j).advance (handle repo) ws s).2.fingerprints.has articleId with
    | true =>
      -- only a delivery of the article can have stored the fingerprint
      obtain ⟨hseen, hclusters⟩ := stranded_stays hfails.tail hstored hnone'
      refine ⟨hclusters, fun _ => ?_, fun _ => hseen⟩
      apply Classical.byContradiction
      intro hnot
      have hother : ∀ message, j = .article message → message.articleId ≠ articleId := by
        rintro message rfl hid
        exact hnot ⟨[], message, ws, rest, rfl, hid, hnew, hstored⟩
      have hkept := other_job_keeps repo P s hother ws
      rw [hkept.fingerprint, hnew] at hstored
      cases hstored
    | false =>
      obtain ⟨hclusters, hiff⟩ := ih hfails.tail hstored hnone'
      refine ⟨hclusters, hiff.trans ⟨?_, ?_⟩⟩
      · rintro ⟨before, message, ws', after, rfl, hafter⟩
        exact ⟨(j, ws) :: before, message, ws', after, rfl, hafter⟩
      · rintro ⟨before, message, ws', after, hpast, hid, hbefore, hafter⟩
        cases before with
        | nil =>
          cases hpast
          cases hstored.symm.trans hafter
        | cons job' before =>
          cases hpast
          exact ⟨before, message, ws', after, rfl, hid, hbefore, hafter⟩

/-- **When an article ends in one cluster.**  Its deliveries fail, with any other work
between them, until one returns without dropping it.  Then it is in exactly one cluster
exactly when none had failed after its fingerprint had committed. -/
theorem member_of_one_cluster_iff {message : ArticleIngested} {ws : List (Answer reg)}
    {outcome : ArticleOutcome} (hfails : AttemptsFail repo P message.articleId past ∅)
    (hreturns : ((P.perform (.article message)).advance (handle repo) ws
      (runJobs (handle repo) P.perform past ∅)).1 = .ret (.article outcome))
    (hkept : outcome ≠ .nearDuplicateDropped) :
    (∃ clusterId, ((P.perform (.article message)).advance (handle repo) ws
      (runJobs (handle repo) P.perform past ∅)).2.clustersOf message.articleId = [clusterId]) ↔
    ¬ FailsAfterFingerprint repo P message.articleId past ∅ := by
  obtain ⟨hnone, hiff⟩ := fingerprint_iff_failsAfter hfails rfl rfl
  cases hseen : (runJobs (handle repo) P.perform past ∅).fingerprints.has message.articleId with
  | true =>
    -- the guard skips the article for good
    rw [perform_seen message hseen ws, hnone]
    refine ⟨?_, fun hnot => absurd (hiff.mp hseen) hnot⟩
    rintro ⟨clusterId, hcluster⟩
    cases hcluster
  | false =>
    have hnot : ¬ FailsAfterFingerprint repo P message.articleId past ∅ := by
      intro hfailsAfter
      rw [hiff.mpr hfailsAfter] at hseen
      cases hseen
    refine ⟨fun _ => hnot, fun _ => ?_⟩
    have hends := perform_attempt repo P message hseen hnone ws
    rw [hreturns] at hends
    cases outcome with
    | replaySkipped => exact hends.elim
    | nearDuplicateDropped => exact absurd rfl hkept
    | clusterCreated clusterId => exact ⟨clusterId, hends⟩
    | clusterJoined clusterId => exact ⟨clusterId, hends⟩

end History

/-- The first delivery is cut off after `store_fingerprint`. -/
def strandingPast : List (Job × List (Answer goldRegistry)) :=
  [(.article (plainArticle 1 "Strait closed"), List.replicate 6 (articleAnswer 1))]

/-- **The stranded article.**  The second delivery returns normally, skips the
article as a replay, and leaves it in no cluster. -/
theorem stranded_article_in_no_cluster :
    ((plainPipeline.perform (.article (plainArticle 1 "Strait closed"))).advance
      (handle plainRepository) (List.replicate 11 (articleAnswer 1))
      (runJobs (handle plainRepository) plainPipeline.perform strandingPast ∅)).1 =
        .ret (.article .replaySkipped) ∧
    ((plainPipeline.perform (.article (plainArticle 1 "Strait closed"))).advance
      (handle plainRepository) (List.replicate 11 (articleAnswer 1))
      (runJobs (handle plainRepository) plainPipeline.perform strandingPast ∅)).2.clustersOf 1 =
        [] := by
  exact ⟨rfl, by decide +kernel⟩

/-- The first delivery is cut off before its sixth call. -/
def earlyCrashPast : List (Job × List (Answer goldRegistry)) :=
  [(.article (plainArticle 1 "Strait closed"), List.replicate 5 (articleAnswer 1))]

/-- After a crash before `store_fingerprint` the next delivery puts the article
into one cluster. -/
theorem early_crash_ends_in_one_cluster :
    ∃ clusterId, ((plainPipeline.perform (.article (plainArticle 1 "Strait closed"))).advance
      (handle plainRepository) (List.replicate 11 (articleAnswer 1))
      (runJobs (handle plainRepository) plainPipeline.perform earlyCrashPast ∅)).2.clustersOf 1 =
        [clusterId] := by
  have hreturns : ((plainPipeline.perform (.article (plainArticle 1 "Strait closed"))).advance
      (handle plainRepository) (replicate 11 (articleAnswer 1))
      (runJobs (handle plainRepository) plainPipeline.perform earlyCrashPast ∅)).1 =
        .ret (.article (.clusterCreated 1)) :=
    eq_ret_of_returned (by decide +kernel)
  refine (member_of_one_cluster_iff ?_ hreturns (by decide)).mpr ?_
  · intro before message ws after hpast _ r hret
    cases before with
    | nil =>
      cases hpast
      cases hret
    | cons job before => cases before <;> cases hpast
  · rintro ⟨before, message, ws, after, hpast, _, _, hstored⟩
    cases before with
    | nil =>
      cases hpast
      cases hstored
    | cons job before => cases before <;> cases hpast

end Cleansing
