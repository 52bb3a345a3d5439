import FeedAnalyzer.JobHistory
import FeedAnalyzer.PredictionCalls

/-!
# Redelivered events

A processed event is a member of the latest version of its window, and stays one
(`handle_records`).  A redelivery changes nothing as long as that version takes events;
once it is claimed, a new version is opened (`redelivery_unchanged_iff`).
-/

namespace Prediction

open Feed Transact Calendar Proc List Store Table

variable {reg : Registry}

variable {u : Unit}

namespace Store

variable {r new : ContextRow} {fresh contextId : Uuid} {windowEnd : Int} {event : ContextEvent}

def IsLatest (s : Store reg) (assetId : String) (windowStart : Int) (row : ContextRow) : Prop :=
  row ∈ s.contexts ∧ row.assetId = assetId ∧ row.windowStart = windowStart ∧
    ∀ r ∈ s.contexts, r.assetId = assetId → r.windowStart = windowStart →
      r.contextVersion ≤ row.contextVersion

variable {s s' : Store reg} {assetId : String} {windowStart : Int} {row : ContextRow}

theorem isLatest_of_latestContext (hlatest : s.latestContext assetId windowStart = some row) :
    s.IsLatest assetId windowStart row := by
  obtain ⟨hrow, hp, hmin⟩ := head?_selectOrdered hlatest
  simp only [decide_eq_true_eq] at hp
  refine ⟨hrow, hp.1, hp.2, fun r hr hasset hwindow => ?_⟩
  have hle := hmin r hr (by simp [hasset, hwindow])
  omega

theorem not_mem_of_latestContext (hnone : s.latestContext assetId windowStart = none)
    (hr : r ∈ s.contexts) : ¬ (r.assetId = assetId ∧ r.windowStart = windowStart) := by
  have hp := head?_selectOrdered_eq_none hnone hr
  simpa using hp

theorem eq_of_version {r' : ContextRow} (hr : r ∈ s.contexts) (hr' : r' ∈ s.contexts)
    (hversion : r.version = r'.version) : r = r' :=
  inj_on_of_nodup_map s.version_nodup hr hr' hversion

variable {p : ContextRow → Bool} {f : ContextRow → ContextRow} {seenAt : Int}

section

variable (hlatest : s.IsLatest assetId windowStart row)

include hlatest

theorem IsLatest.unique {row' : ContextRow} (hlatest' : s.IsLatest assetId windowStart row') :
    row = row' := by
  obtain ⟨hrow, hasset, hwindow, hmax⟩ := hlatest
  obtain ⟨hrow', hasset', hwindow', hmax'⟩ := hlatest'
  have hle := hmax row' hrow' hasset' hwindow'
  have hge := hmax' row hrow hasset hwindow
  apply eq_of_version hrow hrow'
  simp only [ContextRow.version, hasset, hwindow, hasset', hwindow']
  congr 2
  omega

theorem IsLatest.update (hf : ∀ r, (f r).contextId = r.contextId)
    (hversion : ∀ r, (f r).version = r.version)
    (hcontexts : s'.contexts = s.contexts.updateWhere p f hf) :
    s'.IsLatest assetId windowStart (if p row then f row else row) := by
  have hcolumns : ∀ r, (if p r then f r else r).version = r.version := by
    intro r
    split
    · exact hversion r
    · rfl
  simp only [ContextRow.version, Prod.mk.injEq] at hcolumns
  obtain ⟨hrow, hasset, hwindow, hmax⟩ := hlatest
  obtain ⟨hasset', hwindow', hversion'⟩ := hcolumns row
  refine ⟨?_, hasset'.trans hasset, hwindow'.trans hwindow, fun r hr hra hrw => ?_⟩
  · rw [hcontexts]
    exact mem_updateWhere.mpr ⟨row, hrow, rfl⟩
  · rw [hcontexts] at hr
    obtain ⟨r₀, hr₀, rfl⟩ := mem_updateWhere.mp hr
    obtain ⟨hra₀, hrw₀, hrv₀⟩ := hcolumns r₀
    rw [hversion', hrv₀]
    exact hmax r₀ hr₀ (hra₀.symm.trans hra) (hrw₀.symm.trans hrw)

/-- A row of another window does not change which version is the latest. -/
theorem IsLatest.insert_other (hcontexts : s'.contexts = s.contexts.insertNew new)
    (hother : ¬ (new.assetId = assetId ∧ new.windowStart = windowStart)) :
    s'.IsLatest assetId windowStart row := by
  obtain ⟨hrow, hasset, hwindow, hmax⟩ := hlatest
  refine ⟨?_, hasset, hwindow, fun r hr hra hrw => ?_⟩
  · rw [hcontexts]
    exact mem_insertNew_of_mem hrow
  · rw [hcontexts, mem_insertNew] at hr
    rcases hr with hold | ⟨_, rfl⟩
    · exact hmax r hold hra hrw
    · exact absurd ⟨hra, hrw⟩ hother

end

theorem insertContext_of_new (hok : s.insertContext new = .ok s')
    (hnew : ∀ r ∈ s.contexts, r.version ≠ new.version) :
    s.contexts.has new.contextId = false ∧ s'.contexts = s.contexts.insertNew new ∧
      s'.members = s.members := by
  obtain ⟨hmembers, _, _, ⟨_, r, hr, hversion⟩ | ⟨hfresh, hcontexts, _⟩⟩ := insertContext_eq_ok hok
  · exact absurd hversion (hnew r hr)
  · exact ⟨hfresh, hcontexts, hmembers⟩

/-- A new version is the latest, with the members of the one before. -/
structure Supersedes (s s' : Store reg) (new : ContextRow) : Prop where
  fresh : s.contexts.has new.contextId = false
  contexts : s'.contexts = s.contexts.insertNew new
  later : ∀ r ∈ s.contexts, r.assetId = new.assetId → r.windowStart = new.windowStart →
    r.contextVersion < new.contextVersion
  kept : ∀ k, s.members.has k = true → s'.members.has k = true
  inherits : ∀ latest, s.IsLatest new.assetId new.windowStart latest →
    latest.state.joinable = false ∧ ∀ eventId, s.members.has (latest.contextId, eventId) = true →
        s'.members.has (new.contextId, eventId) = true

section

variable (hopening : Opening fresh assetId seenAt windowStart windowEnd s contextId s')

include hopening

/-- An event's context is the latest version, which takes events, or a new
one. -/
theorem Opening.joins_or_supersedes :
    (∃ latest, s.IsLatest assetId windowStart latest ∧ latest.state.joinable ∧
      latest.contextId = contextId ∧ s' = s.setWatermark latest.contextId seenAt) ∨
    ∃ new, new.contextId = contextId ∧ new.assetId = assetId ∧ new.windowStart = windowStart ∧
      s.Supersedes s' new ∧
      (∀ k, s'.members.has k → s.members.has k ∨ k.1 = contextId) ∧
      (new.contextVersion = 1 ∨ ∃ latest, s.IsLatest assetId windowStart latest ∧
        new.contextVersion = latest.contextVersion + 1) := by
  cases hopening with
  | joined hlatest hjoinable =>
    exact Or.inl ⟨_, isLatest_of_latestContext hlatest, hjoinable, rfl, rfl⟩
  | started hnone hinsert =>
    have hother : ∀ r ∈ s.contexts, ¬ (r.assetId = assetId ∧ r.windowStart = windowStart) :=
      fun r hr => not_mem_of_latestContext hnone hr
    obtain ⟨hfresh, hcontexts, hmembers⟩ := insertContext_of_new hinsert (by
      intro r hr hversion
      simp only [ContextRow.version, Prod.mk.injEq] at hversion
      exact hother r hr ⟨hversion.1, hversion.2.1⟩)
    refine Or.inr ⟨_, rfl, rfl, rfl, ⟨hfresh, hcontexts, ?_, ?_, ?_⟩,
      fun k hk => Or.inl (hmembers ▸ hk), Or.inl rfl⟩
    · exact fun r hr hra hrw => absurd ⟨hra, hrw⟩ (hother r hr)
    · intro k hk
      rw [hmembers]
      exact hk
    · intro latest hlatest
      exact absurd ⟨hlatest.2.1, hlatest.2.2.1⟩ (hother latest hlatest.1)
  | @succeeded latest s₁ _ hlatest hclosed hinsert hcarry =>
    have hmax := isLatest_of_latestContext hlatest
    obtain ⟨hfresh, hcontexts, hmembers⟩ := insertContext_of_new hinsert (by
      intro r hr hversion
      simp only [ContextRow.version, Prod.mk.injEq] at hversion
      have hle := hmax.2.2.2 r hr hversion.1 hversion.2.1
      omega)
    obtain ⟨hcontexts', _, hkept, hcarried⟩ := carryMembers_eq_ok hcarry
    refine Or.inr ⟨_, rfl, rfl, rfl, ⟨hfresh, hcontexts'.trans hcontexts, ?_, ?_, ?_⟩,
      fun k hk => hmembers ▸ carryMembers_only hcarry hk, Or.inr ⟨latest, hmax, rfl⟩⟩
    · intro r hr hra hrw
      have hle := hmax.2.2.2 r hr hra hrw
      dsimp only
      omega
    · intro k hk
      apply hkept
      rw [hmembers]
      exact hk
    · intro latest' hlatest'
      obtain rfl := hmax.unique hlatest'
      refine ⟨hclosed, fun eventId hmember => ?_⟩
      obtain ⟨member, hmem, hkey⟩ := has_eq_true_iff.mp hmember
      simp only [MemberRow.key, Prod.mk.injEq] at hkey
      rw [← hkey.2]
      refine hcarried member.event (mem_map.mpr ⟨member, ?_, rfl⟩)
      rw [hmembers]
      exact mem_filter.mpr ⟨hmem, by simpa using hkey.1⟩

omit hopening in
theorem Supersedes.isLatest (hsup : s.Supersedes s' new) :
    s'.IsLatest new.assetId new.windowStart new := by
  refine ⟨?_, rfl, rfl, fun r hr hra hrw => ?_⟩
  · rw [hsup.contexts]
    exact (mem_insertNew_of_fresh hsup.fresh).mpr (Or.inr rfl)
  · rw [hsup.contexts, mem_insertNew] at hr
    rcases hr with hold | ⟨_, rfl⟩
    · exact Nat.le_of_lt (hsup.later r hold hra hrw)
    · exact Nat.le_refl _

theorem Opening.isLatest :
    ∃ row, s'.IsLatest assetId windowStart row ∧ row.contextId = contextId := by
  rcases hopening.joins_or_supersedes with
    ⟨latest, hlatest, _, hid, rfl⟩ | ⟨new, hid, rfl, rfl, hsup, _⟩
  · refine ⟨_, hlatest.update (fun row => row.contextId_withWatermark seenAt) (fun _ => rfl) rfl, ?_⟩
    rw [← hid]
    split <;> rfl
  · exact ⟨new, hsup.isLatest, hid⟩

end

/-- The event is a member of the latest version of the asset's window. -/
def Records (s : Store reg) (assetId : String) (windowStart : Int) (eventId : Uuid) : Prop :=
  ∃ row, s.IsLatest assetId windowStart row ∧ s.members.has (row.contextId, eventId) = true

variable {eventId : Uuid}

section

variable (hrecords : s.Records assetId windowStart eventId)

include hrecords

theorem Records.update (hf : ∀ r, (f r).contextId = r.contextId)
    (hversion : ∀ r, (f r).version = r.version)
    (hcontexts : s'.contexts = s.contexts.updateWhere p f hf) (hmembers : s'.members = s.members) :
    s'.Records assetId windowStart eventId := by
  obtain ⟨row, hlatest, hmember⟩ := hrecords
  refine ⟨_, hlatest.update hf hversion hcontexts, ?_⟩
  have hid : (if p row then f row else row).contextId = row.contextId := by
    split
    · exact hf row
    · rfl
  rw [hid, hmembers]
  exact hmember

theorem Records.setStateWhere (p : ContextRow → Bool) (state : ContextState) :
    (s.setStateWhere p state).Records assetId windowStart eventId :=
  hrecords.update (fun row => row.contextId_withState state) (fun _ => rfl) rfl rfl

theorem Records.opening {other : String} {start : Int}
    (hopening : Opening fresh other seenAt start windowEnd s contextId s') :
    s'.Records assetId windowStart eventId := by
  rcases hopening.joins_or_supersedes with
    ⟨latest, _, _, _, rfl⟩ | ⟨new, rfl, rfl, rfl, hsup, _⟩
  · exact hrecords.update (fun row => row.contextId_withWatermark seenAt) (fun _ => rfl) rfl rfl
  · obtain ⟨row, hlatest, hmember⟩ := hrecords
    by_cases hsame : new.assetId = assetId ∧ new.windowStart = windowStart
    · obtain ⟨rfl, rfl⟩ := hsame
      exact ⟨new, hsup.isLatest, (hsup.inherits row hlatest).2 eventId hmember⟩
    · exact ⟨row, hlatest.insert_other hsup.contexts hsame, hsup.kept _ hmember⟩

theorem Records.insertMember (hok : s.insertMember contextId event = .ok s') :
    s'.Records assetId windowStart eventId := by
  obtain ⟨_, hcontexts, hmembers, _⟩ := insertMember_eq_ok hok
  obtain ⟨row, hlatest, hmember⟩ := hrecords
  refine ⟨row, ?_, ?_⟩
  · unfold IsLatest
    rw [hcontexts]
    exact hlatest
  · rw [hmembers]
    exact has_insertNew_of_has hmember

end

theorem assignEvent_records {assetId : AssetId reg}
    (hok : s.assignEvent fresh assetId event windowStart windowEnd = .ok (u, s')) :
    s'.Records assetId.value windowStart event.eventId := by
  obtain ⟨contextId, s₁, hopening, hmember⟩ := assignEvent_eq_ok hok
  obtain ⟨_, hcontexts, hmembers, _⟩ := insertMember_eq_ok hmember
  obtain ⟨row, hlatest, rfl⟩ := hopening.isLatest
  refine ⟨row, ?_, ?_⟩
  · unfold IsLatest
    rw [hcontexts]
    exact hlatest
  · rw [hmembers]
    exact has_insertNew_self s₁.members ⟨row.contextId, event⟩

/-- The latest version of the asset's window takes events. -/
def Accepts (s : Store reg) (assetId : String) (windowStart : Int) : Prop :=
  ∃ row, s.IsLatest assetId windowStart row ∧ row.state.joinable = true

theorem accepts_of_contexts (hcontexts : s'.contexts = s.contexts) :
    s'.Accepts assetId windowStart ↔ s.Accepts assetId windowStart := by
  unfold Accepts IsLatest
  rw [hcontexts]

theorem exists_isLatest (hr : r ∈ s.contexts) : ∃ row, s.IsLatest r.assetId r.windowStart row := by
  cases hlatest : s.latestContext r.assetId r.windowStart with
  | none => exact absurd ⟨rfl, rfl⟩ (not_mem_of_latestContext hlatest hr)
  | some row => exact ⟨row, isLatest_of_latestContext hlatest⟩

theorem accepts_setWatermark :
    (s.setWatermark contextId seenAt).Accepts assetId windowStart ↔
      s.Accepts assetId windowStart := by
  have hmoves : ∀ row, s.IsLatest assetId windowStart row → ∃ row',
      (s.setWatermark contextId seenAt).IsLatest assetId windowStart row' ∧
        row'.state = row.state := by
    intro row hlatest
    refine ⟨_, hlatest.update (fun row => row.contextId_withWatermark seenAt) (fun _ => rfl) rfl, ?_⟩
    split <;> rfl
  constructor
  · rintro ⟨row', hlatest', hjoinable⟩
    have hmem := hlatest'.1
    simp only [setWatermark, mem_updateWhere] at hmem
    obtain ⟨r, hr, rfl⟩ := hmem
    obtain ⟨row, hlatest⟩ := exists_isLatest hr
    have hcolumns : r.assetId = assetId ∧ r.windowStart = windowStart := by
      obtain ⟨_, hasset, hwindow, _⟩ := hlatest'
      split at hasset <;> split at hwindow <;> exact ⟨hasset, hwindow⟩
    rw [hcolumns.1, hcolumns.2] at hlatest
    obtain ⟨row', hmoved, hstate⟩ := hmoves row hlatest
    obtain rfl := hmoved.unique hlatest'
    exact ⟨row, hlatest, hstate ▸ hjoinable⟩
  · rintro ⟨row, hlatest, hjoinable⟩
    obtain ⟨row', hmoved, hstate⟩ := hmoves row hlatest
    exact ⟨row', hmoved, hstate ▸ hjoinable⟩

/-- The contexts but for their watermarks, and the members. -/
def Unchanged (s s' : Store reg) : Prop :=
  s'.contexts.rows.map (fun row => { row with watermark := 0 }) =
      s.contexts.rows.map (fun row => { row with watermark := 0 }) ∧
    s'.members = s.members

theorem Unchanged.trans {s₁ s₂ : Store reg} (hfirst : s.Unchanged s₁) (hsecond : s₁.Unchanged s₂) :
    s.Unchanged s₂ :=
  ⟨hsecond.1.trans hfirst.1, hsecond.2.trans hfirst.2⟩

theorem Unchanged.length_eq (hsame : s.Unchanged s') :
    s'.contexts.rows.length = s.contexts.rows.length := by
  have hlength := congrArg length hsame.1
  simpa using hlength

/-- **Two outcomes of an assignment.**  The event joins the latest version, or
a context is added. -/
theorem assignEvent_outcomes {assetId : AssetId reg}
    (hok : s.assignEvent fresh assetId event windowStart windowEnd = .ok (u, s')) :
    (s.Accepts assetId.value windowStart ∧
      (∃ contextId, s'.contexts = (s.setWatermark contextId event.firstSeenAt).contexts) ∧
      (s.Records assetId.value windowStart event.eventId → s.Unchanged s')) ∨
    (¬ s.Accepts assetId.value windowStart ∧
      s'.contexts.rows.length = s.contexts.rows.length + 1) := by
  obtain ⟨contextId, s₁, hopening, hmember⟩ := assignEvent_eq_ok hok
  obtain ⟨_, hcontexts, hmembers, _⟩ := insertMember_eq_ok hmember
  rcases hopening.joins_or_supersedes with
    ⟨latest, hlatest, hjoinable, rfl, rfl⟩ | ⟨new, rfl, hasset, hwindow, hsup, _⟩
  · refine Or.inl ⟨⟨latest, hlatest, hjoinable⟩, ⟨latest.contextId, hcontexts⟩, ?_⟩
    rintro ⟨row, hrow, hrecorded⟩
    obtain rfl := hlatest.unique hrow
    refine ⟨?_, ?_⟩
    · rw [hcontexts]
      exact map_rows_updateWhere _ _ (fun row => row.contextId_withWatermark _) fun _ => rfl
    · rw [hmembers]
      exact insertNew_of_has hrecorded
  · refine Or.inr ⟨?_, ?_⟩
    · rintro ⟨row, hlatest, hjoinable⟩
      rw [← hasset, ← hwindow] at hlatest
      rw [(hsup.inherits row hlatest).1] at hjoinable
      cases hjoinable
    · rw [hcontexts, hsup.contexts, rows_insertNew_of_fresh hsup.fresh]
      simp

end Store

section Deliveries

open PredictionPipeline

variable (P : PredictionPipeline) (message : EventDetected reg)
  {s : Store reg} {assetId : AssetId reg}

/-- The start of the window an event belongs to. -/
def windowOf : Int :=
  (windowBounds message.firstSeenAt P.settings.contextWindowMinutes).1

variable (tz : TimeZones) {windowStart : Int} {answers : List (Answer reg)}

/-- A recorded event stays recorded. -/
theorem handle_records {assetId : String} {eventId : Uuid} (w : Answer reg) (c : Call reg)
    (s : Store reg) (hrecords : s.Records assetId windowStart eventId) :
    (handle tz w c s).2.Records assetId windowStart eventId := by
  cases hres : (handle tz w c s).1 with
  | error e =>
    rw [handle_eq_error hres]
    exact hrecords
  | ok a =>
    cases c with
    | assignEvent asset event start windowEnd =>
      obtain ⟨contextId, s₁, hopening, hmember⟩ :=
        assignEvent_eq_ok (commit_eq_ok hres).2
      exact (hrecords.opening hopening).insertMember hmember
    | claimReadyContexts now graceMinutes =>
      obtain ⟨p, hclaim⟩ := (claimReadyContexts_eq_ok (commit_eq_ok hres).2).2.2.2.2.2
      have hsame : (handle tz w (.claimReadyContexts now graceMinutes) s).2 =
        s.setStateWhere p .predicting := hclaim
      rw [hsame]
      exact hrecords.setStateWhere p .predicting
    | setContextState target state =>
      have hset := (commit_eq_ok hres).2
      simp only [setContextState, Except.ok.injEq, Prod.mk.injEq] at hset
      have hsame : (handle tz w (.setContextState target state) s).2 = _ := hset.2.symm
      rw [hsame]
      exact hrecords.setStateWhere _ state
    | storePredictionWithOutbox prediction key withdraws =>
      obtain ⟨hcontexts, hmembers, _⟩ :=
        storePredictionWithOutbox_eq_ok (commit_eq_ok hres).2
      exact hrecords.update (fun row => row.contextId_withState .predicted) (fun _ => rfl)
        hcontexts hmembers
    | _ =>
      rw [handle_frame tz w _ s rfl]
      exact hrecords

variable {P message}

theorem meets_event {A : Answer reg → Call reg → Store reg → Prop} {C : Store reg → Prop}
    {Q : Except PredictionError Nat → Store reg → Prop} (hcut : C s) (hfault : ∀ e, Q (.error e) s)
    (hassign : (assignEvents (contextEvent message) (windowOf P message)
      (windowBounds message.firstSeenAt P.settings.contextWindowMinutes).2
      message.affectedAssetIds).Meets (handle P.tz) A C (fun r s' => Q (r.map fun _ => 0) s') s) :
    (P.perform (.event message)).Meets (handle P.tz) A C Q s := by
  refine Meets.bind (Meets.bind ?_)
  have hrest : (assignEvents (contextEvent message) (windowOf P message)
      (windowBounds message.firstSeenAt P.settings.contextWindowMinutes).2
      message.affectedAssetIds).Meets (handle P.tz) A C
        (fun r s' => (Proc.onOk (fun _ => .ret 0) r).Meets (handle P.tz) A C Q s') s := by
    refine hassign.mono fun r s' hr => ?_
    cases r with
    | _ => exact hr
  unfold PredictionPipeline.recordEvent
  split
  · refine ⟨hcut, fun w _ => ?_⟩
    cases (handle P.tz w (.recordEvent message.eventId) s).1 with
    | ok a => exact hrest
    | error e => exact hfault e
  · exact hrest

/-- A call that raised, or the outcome of the assignment. -/
theorem handle_assignEvent {tz : TimeZones} {w : Answer reg} {event : ContextEvent}
    {windowEnd : Int}
    (hok : (handle tz w (.assignEvent assetId event windowStart windowEnd) s).1 = .ok u) :
    s.assignEvent w.contextId assetId event windowStart windowEnd =
      .ok (u, (handle tz w (.assignEvent assetId event windowStart windowEnd) s).2) :=
  (commit_eq_ok hok).2

variable (event : ContextEvent) (windowStart windowEnd : Int) (assets : List (AssetId reg))

/-- An assigned event is recorded. -/
theorem assignEvents_records (s : Store reg) :
    (assignEvents event windowStart windowEnd assets).Meets (handle tz) (fun _ _ _ => True)
      (fun _ => True)
      (fun r s' => r = .ok () → ∀ assetId : AssetId reg,
        s.Records assetId.value windowStart event.eventId ∨ assetId ∈ assets →
          s'.Records assetId.value windowStart event.eventId) s := by
  induction assets generalizing s with
  | nil =>
    intro _ assetId hrecorded
    rcases hrecorded with hrecords | hmem
    · exact hrecords
    · cases hmem
  | cons head rest ih =>
    refine meets_perform trivial (fun w u _ hok => ?_) fun w e _ _ hr => by cases hr
    refine (ih _).mono fun r s' hrest hr assetId hrecorded => hrest hr assetId ?_
    rcases hrecorded with hrecords | hmem
    · exact Or.inl (handle_records tz w _ s hrecords)
    · rcases mem_cons.mp hmem with rfl | hmem
      · exact Or.inl (assignEvent_records (handle_assignEvent hok))
      · exact Or.inr hmem

/-- Assignments only add contexts, and add none only if every window takes
events. -/
theorem assignEvents_accepts (s : Store reg) :
    (assignEvents event windowStart windowEnd assets).Meets (handle tz) (fun _ _ _ => True)
      (fun _ => True)
      (fun r s' => r = .ok () → s.contexts.rows.length ≤ s'.contexts.rows.length ∧
        (s'.contexts.rows.length = s.contexts.rows.length →
          ∀ assetId ∈ assets, s.Accepts assetId.value windowStart)) s := by
  induction assets generalizing s with
  | nil => exact fun _ => ⟨Nat.le_refl _, fun _ _ hmem => by cases hmem⟩
  | cons head rest ih =>
    refine meets_perform trivial (fun w u _ hok => ?_) fun w e _ _ hr => by cases hr
    refine (ih _).mono fun r s' hrest hr => ?_
    obtain ⟨hle, haccepts⟩ := hrest hr
    rcases assignEvent_outcomes (handle_assignEvent hok) with
      ⟨hhead, ⟨contextId, hcontexts⟩, _⟩ | ⟨_, hgrows⟩
    · have hlength : (handle tz w (.assignEvent head event windowStart windowEnd)
          s).2.contexts.rows.length = s.contexts.rows.length := by
        rw [hcontexts]
        simp [setWatermark, updateWhere]
      refine ⟨hlength ▸ hle, fun hsame assetId hmem => ?_⟩
      rcases mem_cons.mp hmem with rfl | hmem
      · exact hhead
      · exact accepts_setWatermark.mp ((accepts_of_contexts hcontexts).mp
          (haccepts (hsame.trans hlength.symm) assetId hmem))
    · exact ⟨by omega, fun hsame => by omega⟩

/-- A repeated assignment changes nothing. -/
theorem assignEvents_unchanged {before : Store reg} {all assets : List (AssetId reg)}
    (hsub : ∀ assetId ∈ assets, assetId ∈ all) (hsame : before.Unchanged s)
    (hall : ∀ assetId ∈ all, s.Accepts assetId.value windowStart ∧
      s.Records assetId.value windowStart event.eventId) :
    (assignEvents event windowStart windowEnd assets).Meets (handle tz) (fun _ _ _ => True)
      before.Unchanged (fun _ s' => before.Unchanged s') s := by
  induction assets generalizing s with
  | nil => exact hsame
  | cons head rest ih =>
    have hhead := hall head (hsub head mem_cons_self)
    refine meets_perform hsame (fun w u _ hok => ?_) fun w e _ herror => ?_
    · rcases assignEvent_outcomes (handle_assignEvent hok) with
        ⟨_, ⟨contextId, hcontexts⟩, hunchanged⟩ | ⟨hnot, _⟩
      · refine ih (fun a ha => hsub a (mem_cons_of_mem _ ha))
          (hsame.trans (hunchanged hhead.2)) fun assetId hmem => ?_
        obtain ⟨haccepts, hrecords⟩ := hall assetId hmem
        exact ⟨(accepts_of_contexts hcontexts).mpr
          (accepts_setWatermark.mpr haccepts), handle_records tz w _ s hrecords⟩
      · exact absurd hhead.1 hnot
    · rw [handle_eq_error herror]
      exact hsame

variable (P message)

/-- One delivery of the message, with the answers it meets. -/
def deliver (answers : List (Answer reg)) (s : Store reg) : Service reg Nat × Store reg :=
  (P.perform (.event message)).advance (handle P.tz) answers s

variable {P message}

section

variable (hdone : (deliver P message answers s).1.returned = some 0)

include hdone

theorem records_of_deliver (hmem : assetId ∈ message.affectedAssetIds) :
    (deliver P message answers s).2.Records assetId.value (windowOf P message) message.eventId := by
  have hmeets : (P.perform (.event message)).Meets (handle P.tz) (fun _ _ _ => True)
      (fun _ => True) (fun r s' => (∃ n, r = .ok n) → ∀ assetId ∈ message.affectedAssetIds,
        s'.Records assetId.value (windowOf P message) message.eventId) s := by
    refine meets_event trivial (fun e hr => by obtain ⟨n, hn⟩ := hr; cases hn) ?_
    refine (assignEvents_records P.tz (contextEvent message) _ _ _ s).mono ?_
    rintro (e | u) s' hrecords ⟨n, hn⟩ assetId hmem
    · cases hn
    · exact hrecords rfl assetId (Or.inr hmem)
  exact hmeets.of_returned (admitted_of_forall (fun _ _ _ => trivial) _ _ _) hdone
    ⟨0, rfl⟩ assetId hmem

/-- A delivery that adds no context found every window open to events. -/
theorem accepts_of_deliver
    (hlength : (deliver P message answers s).2.contexts.rows.length = s.contexts.rows.length)
    (hmem : assetId ∈ message.affectedAssetIds) : s.Accepts assetId.value (windowOf P message) := by
  have hmeets : (P.perform (.event message)).Meets (handle P.tz) (fun _ _ _ => True)
      (fun _ => True) (fun r s' => (∃ n, r = .ok n) →
        s'.contexts.rows.length = s.contexts.rows.length → ∀ assetId ∈ message.affectedAssetIds,
            s.Accepts assetId.value (windowOf P message)) s := by
    refine meets_event trivial (fun e hr => by obtain ⟨n, hn⟩ := hr; cases hn) ?_
    refine (assignEvents_accepts P.tz (contextEvent message) _ _ _ s).mono ?_
    rintro (e | u) s' haccepts ⟨n, hn⟩
    · cases hn
    · exact (haccepts rfl).2
  exact hmeets.of_returned (admitted_of_forall (fun _ _ _ => trivial) _ _ _) hdone
    ⟨0, rfl⟩ hlength assetId hmem

end

/-- While every window takes events, a redelivery changes nothing, wherever it
is cut off. -/
theorem deliver_unchanged (hall : ∀ assetId ∈ message.affectedAssetIds,
      s.Accepts assetId.value (windowOf P message) ∧
      s.Records assetId.value (windowOf P message) message.eventId) (answers : List (Answer reg)) :
    s.Unchanged (deliver P message answers s).2 := by
  have hstart : s.Unchanged s := ⟨rfl, rfl⟩
  have hmeets : (P.perform (.event message)).Meets (handle P.tz) (fun _ _ _ => True)
      s.Unchanged (fun _ s' => s.Unchanged s') s :=
    meets_event hstart (fun _ => hstart)
      (assignEvents_unchanged P.tz (contextEvent message) _ _ (fun _ hmem => hmem) hstart hall)
  exact hmeets.invariant (admitted_of_forall (fun _ _ _ => trivial) _ _ _)

/-- **Redelivery.**  After any jobs, processing an event again leaves contexts, versions and
members as they are exactly when the latest version of its window takes events, for each
asset it affects. -/
theorem redelivery_unchanged_iff (P : PredictionPipeline) (message : EventDetected reg)
    (start : Store reg) (first again : List (Answer reg))
    (between : List (Job reg × List (Answer reg))) (s : Store reg)
    (hfirst : (deliver P message first start).1.returned = some 0)
    (hs : s = runJobs (handle P.tz) P.perform between (deliver P message first start).2)
    (hagain : (deliver P message again s).1.returned = some 0) :
    s.Unchanged (deliver P message again s).2 ↔
      ∀ assetId ∈ message.affectedAssetIds, s.Accepts assetId.value (windowOf P message) := by
  constructor
  · intro hsame assetId hmem
    exact accepts_of_deliver hagain hsame.length_eq hmem
  · intro haccepts
    refine deliver_unchanged (fun assetId hmem => ⟨haccepts assetId hmem, ?_⟩) again
    have hkept : ∀ w c (s : Store reg), s.Records assetId.value (windowOf P message)
        message.eventId → (handle P.tz w c s).2.Records assetId.value (windowOf P message)
          message.eventId := fun w c s => handle_records P.tz w c s
    rw [hs]
    exact runJobs_preserves hkept between _ (records_of_deliver hfirst hmem)

end Deliveries

/-- The store after one delivery of an event of gold and the jobs. -/
def redeliveryStore (between : List (Job goldRegistry × List (Answer goldRegistry))) :
    Store goldRegistry :=
  runJobs (handle utcPipeline.tz) utcPipeline.perform between
    (deliver utcPipeline (goldEvent 1 0) [{ contextId := 1 }] ∅).2

theorem open_window_unchanged : (redeliveryStore []).Unchanged
      (deliver utcPipeline (goldEvent 1 0) [{ contextId := 2 }] (redeliveryStore [])).2 := by
  refine (redelivery_unchanged_iff utcPipeline (goldEvent 1 0) ∅ [{ contextId := 1 }]
    [{ contextId := 2 }] [] (redeliveryStore []) (by decide +kernel) rfl (by decide +kernel)).mpr ?_
  intro assetId hmem
  obtain rfl : assetId = gold := by simpa [goldEvent] using hmem
  refine ⟨⟨1, "GOLD", 0, 15 * microsPerMinute, 1, .opened, 0⟩, ⟨?_, rfl, ?_, ?_⟩, rfl⟩
  · rw [← mem_rows]
    decide +kernel
  · decide +kernel
  · decide +kernel

/-- **A predicted window is opened again.**  The redelivery adds version 2 of the same
window, with the same event. -/
theorem predicted_window_reopened :
    (deliver utcPipeline (goldEvent 1 0) [{ contextId := 1 }] ∅).1.returned = some 0 ∧
      (redeliveryStore [(.closeSweep, quietSweep)]).stateOf 1 = some .predicted ∧
      (deliver utcPipeline (goldEvent 1 0) [{ contextId := 2 }]
        (redeliveryStore [(.closeSweep, quietSweep)])).1.returned = some 0 ∧
      (deliver utcPipeline (goldEvent 1 0) [{ contextId := 2 }]
        (redeliveryStore [(.closeSweep, quietSweep)])).2.contexts.rows.map
          (fun row => (row.contextId, row.contextVersion)) = [(1, 1), (2, 2)] ∧
      ¬ (redeliveryStore [(.closeSweep, quietSweep)]).Unchanged
        (deliver utcPipeline (goldEvent 1 0) [{ contextId := 2 }]
          (redeliveryStore [(.closeSweep, quietSweep)])).2 := by
  refine ⟨by decide +kernel, by decide +kernel, by decide +kernel, by decide +kernel, ?_⟩
  intro hsame
  exact absurd hsame.length_eq (by decide +kernel)

end Prediction
