import FeedAnalyzer.EventRedelivery

/-!
# Context windows and their versions

Windows cover the time line without overlap exactly when their length divides the
day (`windows_tile_iff`).  The versions of a window form a chain, each with the members
of the one before, as long as `set_context_state` reopens none (`versions_chained`), as
the service never does (`perform_not_reopens`).
-/

namespace Prediction

open Feed Transact Calendar Proc List Store Table Call

section Windows

variable {windowMinutes : Nat}

theorem windowBounds_contains (hpos : 0 < windowMinutes) (t : Int) :
    (windowBounds t windowMinutes).1 ≤ t ∧ t < (windowBounds t windowMinutes).2 := by
  have hlength : 0 < (windowMinutes : Int) * microsPerMinute :=
    Int.mul_pos (by omega) (by decide)
  have hsplit := Int.ediv_mul_add_emod (t % microsPerDay) (windowMinutes * microsPerMinute)
  have hlow := Int.emod_nonneg (t % microsPerDay) (Int.ne_of_gt hlength)
  have hhigh := Int.emod_lt_of_pos (t % microsPerDay) hlength
  simp only [windowBounds]
  constructor <;> omega

theorem windowBounds_of_dvd {length : Int} (hlength : length = windowMinutes * microsPerMinute)
    (hdvd : length ∣ microsPerDay) (t : Int) :
    windowBounds t windowMinutes = (t / length * length, t / length * length + length) := by
  obtain ⟨k, hday⟩ := hdvd
  have hstart : t - t % microsPerDay + t % microsPerDay / length * length = t / length * length := by
    have hmod : t % microsPerDay % length = t % length := by
      rw [hday, Int.emod_emod_of_dvd t (Dvd.intro k rfl)]
    have hsplit := Int.ediv_mul_add_emod (t % microsPerDay) length
    have hsplit' := Int.ediv_mul_add_emod t length
    omega
  simp only [windowBounds, ← hlength, hstart]

/-- **The windows tile the time line exactly when they divide the day.**  Each
contains its event, two of them are the same or disjoint, and every instant is
in one window. -/
theorem windows_tile_iff (settings : PredictionSettings) :
    ((∀ t, (windowBounds t settings.contextWindowMinutes).1 ≤ t ∧
        t < (windowBounds t settings.contextWindowMinutes).2) ∧
      (∀ t t', windowBounds t settings.contextWindowMinutes =
          windowBounds t' settings.contextWindowMinutes ∨
        (windowBounds t settings.contextWindowMinutes).2 ≤
          (windowBounds t' settings.contextWindowMinutes).1 ∨
        (windowBounds t' settings.contextWindowMinutes).2 ≤
          (windowBounds t settings.contextWindowMinutes).1) ∧
      ∀ t, ∃! window, (∃ t', windowBounds t' settings.contextWindowMinutes = window) ∧
        window.1 ≤ t ∧ t < window.2) ↔
      settings.contextWindowMinutes ∣ 24 * 60 := by
  generalize hminutes : settings.contextWindowMinutes = windowMinutes
  have hpos : 0 < windowMinutes := hminutes ▸ settings.window_pos
  obtain ⟨length, hlength⟩ : ∃ length : Int, length = windowMinutes * microsPerMinute := ⟨_, rfl⟩
  have hlengthPos : 0 < length := hlength ▸ Int.mul_pos (by omega) (by decide)
  have hdivides : windowMinutes ∣ 24 * 60 ↔ length ∣ microsPerDay := by
    rw [hlength, show microsPerDay = ((24 * 60 : Nat) : Int) * microsPerMinute from rfl,
      mul_dvd_mul_iff_right (by decide), Int.natCast_dvd_natCast]
  rw [hdivides]
  constructor
  · rintro ⟨_, hapart, _⟩
    -- the last instant of a day, and the midnight after it
    obtain ⟨hfrom, hto⟩ := windowBounds_contains hpos (microsPerDay - 1)
    have hmidnight : windowBounds microsPerDay windowMinutes =
        (microsPerDay, microsPerDay + length) := by
      simp [windowBounds, hlength]
    have hlast : windowBounds (microsPerDay - 1) windowMinutes =
        ((microsPerDay - 1) / length * length, (microsPerDay - 1) / length * length + length) := by
      have hday : (microsPerDay - 1) % microsPerDay = microsPerDay - 1 := by decide
      simp [windowBounds, ← hlength, hday]
    have hcases := hapart (microsPerDay - 1) microsPerDay
    rw [hlast] at hfrom hto
    rw [hlast, hmidnight, Prod.mk.injEq] at hcases
    refine ⟨(microsPerDay - 1) / length + 1, ?_⟩
    rw [Int.mul_comm, Int.add_mul, Int.one_mul]
    omega
  · intro hdvd
    have hbounds := windowBounds_of_dvd hlength hdvd
    refine ⟨windowBounds_contains hpos, fun t t' => ?_, fun t => ?_⟩
    · rw [hbounds, hbounds]
      rcases Int.lt_trichotomy (t / length) (t' / length) with hlt | hsame | hgt
      · have hle := Int.mul_le_mul_of_nonneg_right (Int.add_one_le_of_lt hlt) hlengthPos.le
        rw [Int.add_mul, Int.one_mul] at hle
        exact Or.inr (Or.inl hle)
      · exact Or.inl (by rw [hsame])
      · have hle := Int.mul_le_mul_of_nonneg_right (Int.add_one_le_of_lt hgt) hlengthPos.le
        rw [Int.add_mul, Int.one_mul] at hle
        exact Or.inr (Or.inr hle)
    · refine ⟨_, ⟨⟨t, rfl⟩, windowBounds_contains hpos t⟩, ?_⟩
      rintro _ ⟨⟨t', rfl⟩, hfrom, hto⟩
      rw [hbounds] at hfrom hto ⊢
      have hsame : t / length = t' / length := by
        refine Int.le_antisymm (Int.lt_add_one_iff.mp ?_) ((Int.le_ediv_iff_mul_le hlengthPos).mpr hfrom)
        refine Int.ediv_lt_of_lt_mul hlengthPos ?_
        rw [Int.add_mul, Int.one_mul]
        exact hto
      rw [hbounds, hsame]

/-- The last window of seven minutes of a day overlaps the first of the next. -/
theorem seven_minutes_overlap :
    windowBounds (microsPerDay - 1) 7 = (1435 * microsPerMinute, 1442 * microsPerMinute) ∧
      windowBounds microsPerDay 7 = (1440 * microsPerMinute, 1447 * microsPerMinute) := by
  decide

end Windows

variable {reg : Registry}

/-- What the versions of one window share. -/
def ContextRow.window (row : ContextRow) : String × Int := (row.assetId, row.windowStart)

namespace Store

/-- **The versions of a window are a chain.**  Each but the first has the members of
another, and only the last takes events. -/
structure Chained (s : Store reg) : Prop where
  first : ∀ r ∈ s.contexts, 1 ≤ r.contextVersion
  follows : ∀ r ∈ s.contexts, r.contextVersion = 1 ∨
    ∃ r' ∈ s.contexts, r'.window = r.window ∧ r.contextVersion = r'.contextVersion + 1
  closed : ∀ r ∈ s.contexts, ∀ r' ∈ s.contexts, r.window = r'.window →
    r.contextVersion < r'.contextVersion → r.state.joinable = false
  inherits : ∀ r ∈ s.contexts, ∀ r' ∈ s.contexts, r.window = r'.window →
    r'.contextVersion = r.contextVersion + 1 → ∀ eventId,
      s.members.has (r.contextId, eventId) = true → s.members.has (r'.contextId, eventId) = true

/-- The chains, with no context without a member. -/
structure Versioned (s : Store reg) : Prop extends s.Chained where
  peopled : ∀ contextId, s.contexts.has contextId = true →
    ∃ eventId, s.members.has (contextId, eventId) = true

variable {s s' : Store reg} {p : ContextRow → Bool}

/-- An update that opens no context again keeps the chain. -/
theorem Chained.update {f : ContextRow → ContextRow} (hf : ∀ r, (f r).contextId = r.contextId)
    (hversion : ∀ r, (f r).version = r.version)
    (hopens : ∀ r, (f r).state.joinable → r.state.joinable) (hchained : s.Chained)
    (hcontexts : s'.contexts = s.contexts.updateWhere p f hf) (hmembers : s'.members = s.members) :
    s'.Chained := by
  have hcolumns : ∀ r, (if p r then f r else r).contextId = r.contextId ∧
      (if p r then f r else r).window = r.window ∧
      (if p r then f r else r).contextVersion = r.contextVersion ∧
      ((if p r then f r else r).state.joinable → r.state.joinable) := by
    intro r
    have hv := hversion r
    simp only [ContextRow.version, Prod.mk.injEq] at hv
    split
    · exact ⟨hf r, Prod.ext hv.1 hv.2.1, hv.2.2, hopens r⟩
    · exact ⟨rfl, rfl, rfl, id⟩
  have hrow : ∀ r ∈ s'.contexts, ∃ r₀ ∈ s.contexts, r.contextId = r₀.contextId ∧
      r.window = r₀.window ∧ r.contextVersion = r₀.contextVersion ∧
      (r.state.joinable → r₀.state.joinable) := by
    intro r hr
    rw [hcontexts] at hr
    obtain ⟨r₀, hr₀, rfl⟩ := mem_updateWhere.mp hr
    exact ⟨r₀, hr₀, hcolumns r₀⟩
  refine ⟨fun r hr => ?_, fun r hr => ?_, fun r hr r' hr' hwindow hlt => ?_,
    fun r hr r' hr' hwindow hnext eventId => ?_⟩ <;>
    obtain ⟨r₀, hr₀, hid, hw, hv, hstate⟩ := hrow r hr
  · exact hv ▸ hchained.first r₀ hr₀
  · rw [hw, hv]
    rcases hchained.follows r₀ hr₀ with hone | ⟨r₁, hr₁, hwindow, hnext⟩
    · exact Or.inl hone
    · obtain ⟨_, hw', hv', _⟩ := hcolumns r₁
      exact Or.inr ⟨_, hcontexts ▸ mem_updateWhere.mpr ⟨r₁, hr₁, rfl⟩, hw'.trans hwindow,
        hv'.symm ▸ hnext⟩
  · obtain ⟨r₁, hr₁, _, hw', hv', _⟩ := hrow r' hr'
    have hnot := hchained.closed r₀ hr₀ r₁ hr₁ (hw ▸ hw' ▸ hwindow) (hv ▸ hv' ▸ hlt)
    exact Bool.eq_false_iff.mpr fun hjoinable => by simp [hstate hjoinable] at hnot
  · obtain ⟨r₁, hr₁, hid', hw', hv', _⟩ := hrow r' hr'
    rw [hmembers, hid, hid']
    exact hchained.inherits r₀ hr₀ r₁ hr₁ (hw ▸ hw' ▸ hwindow) (hv ▸ hv' ▸ hnext) eventId

theorem Versioned.close (h : s.Versioned) {state : ContextState} (hclosed : state.joinable = false)
    (hcontexts : s'.contexts = (s.setStateWhere p state).contexts)
    (hmembers : s'.members = s.members) : s'.Versioned where
  toChained := h.update (fun row => row.contextId_withState state) (fun _ => rfl)
    (fun _ hopen => by cases hclosed.symm.trans hopen) hcontexts hmembers
  peopled contextId hhas := by
    rw [hmembers]
    exact h.peopled contextId (by simpa [hcontexts, setStateWhere] using hhas)

section Assigned

variable {fresh contextId : Uuid} {assetId : String} {seenAt windowStart windowEnd : Int}

/-- Opening a version keeps the chain. -/
theorem Chained.opening (hchained : s.Chained)
    (hopening : Opening fresh assetId seenAt windowStart windowEnd s contextId s') :
    s'.Chained := by
  rcases hopening.joins_or_supersedes with
    ⟨latest, _, _, _, rfl⟩ | ⟨new, rfl, rfl, rfl, hsup, honly, hversion⟩
  · exact hchained.update (fun row => row.contextId_withWatermark seenAt) (fun _ => rfl)
      (fun _ hopen => hopen) rfl rfl
  have hold : ∀ r ∈ s'.contexts, r ∈ s.contexts ∨ r = new := by
    intro r hr
    rw [hsup.contexts] at hr
    exact (mem_insertNew_of_fresh hsup.fresh).mp hr
  have hkeeps : ∀ r ∈ s.contexts, r ∈ s'.contexts := fun r hr =>
    hsup.contexts ▸ mem_insertNew_of_mem hr
  have hlater : ∀ r ∈ s.contexts, r.window = new.window → r.contextVersion < new.contextVersion :=
    fun r hr hwindow => hsup.later r hr (congrArg Prod.fst hwindow) (congrArg Prod.snd hwindow)
  have hlast : ∀ r ∈ s.contexts, r.window = new.window →
      ∃ latest, s.IsLatest new.assetId new.windowStart latest ∧
        new.contextVersion = latest.contextVersion + 1 ∧
        (r = latest ∨ r.window = latest.window ∧ r.contextVersion < latest.contextVersion) := by
    intro r hr hwindow
    have hone := hchained.first r hr
    have hlt := hlater r hr hwindow
    obtain ⟨latest, hlatest, hnext⟩ := hversion.resolve_left (by omega)
    have hsame : latest.window = new.window := Prod.ext hlatest.2.1 hlatest.2.2.1
    refine ⟨latest, hlatest, hnext, ?_⟩
    rcases Nat.lt_or_eq_of_le (show r.contextVersion ≤ latest.contextVersion by omega) with
      hless | heq
    · exact Or.inr ⟨hwindow.trans hsame.symm, hless⟩
    · have hcolumns := Prod.mk.inj (hwindow.trans hsame.symm)
      exact Or.inl (eq_of_version hr hlatest.1 (by simp [ContextRow.version, hcolumns, heq]))
  refine ⟨fun r hr => ?_, fun r hr => ?_, fun r hr r' hr' hwindow hlt => ?_,
    fun r hr r' hr' hwindow hnext eventId hmember => ?_⟩ <;>
    rcases hold r hr with hr | rfl
  · exact hchained.first r hr
  · rcases hversion with hone | ⟨latest, _, hnext⟩ <;> omega
  · rcases hchained.follows r hr with hone | ⟨r', hr', hwindow, hnext⟩
    · exact Or.inl hone
    · exact Or.inr ⟨r', hkeeps r' hr', hwindow, hnext⟩
  · rcases hversion with hone | ⟨latest, hlatest, hnext⟩
    · exact Or.inl hone
    · exact Or.inr ⟨latest, hkeeps _ hlatest.1, Prod.ext hlatest.2.1 hlatest.2.2.1, hnext⟩
  · rcases hold r' hr' with hr' | rfl
    · exact hchained.closed r hr r' hr' hwindow hlt
    · obtain ⟨latest, hlatest, _, rfl | ⟨hsame, hless⟩⟩ := hlast r hr hwindow
      · exact (hsup.inherits r hlatest).1
      · exact hchained.closed r hr latest hlatest.1 hsame hless
  · rcases hold r' hr' with hr' | rfl
    · have hless := hlater r' hr' hwindow.symm
      omega
    · omega
  · have hbefore : s.members.has (r.contextId, eventId) :=
      (honly _ hmember).resolve_right fun hid =>
        has_eq_false_iff.mp hsup.fresh r hr hid
    rcases hold r' hr' with hr' | rfl
    · exact hsup.kept _ (hchained.inherits r hr r' hr' hwindow hnext eventId hbefore)
    · obtain ⟨latest, hlatest, hstep, rfl | ⟨_, hless⟩⟩ := hlast r hr hwindow
      · exact (hsup.inherits r hlatest).2 eventId hbefore
      · omega
  · rcases hold r' hr' with hr' | rfl
    · have hless := hlater r' hr' hwindow.symm
      omega
    · omega

variable {event : ContextEvent}

/-- So does a member of the latest. -/
theorem Chained.insertMember {row : ContextRow} (hchained : s.Chained)
    (hlatest : s.IsLatest assetId windowStart row)
    (hok : s.insertMember row.contextId event = .ok s') : s'.Chained := by
  obtain ⟨_, hcontexts, hmembers, _⟩ := insertMember_eq_ok hok
  obtain ⟨hfirst, hfollows, hclosed, hinherits⟩ := hchained
  refine ⟨hcontexts ▸ hfirst, hcontexts ▸ hfollows, hcontexts ▸ hclosed, ?_⟩
  intro r hr r' hr' hwindow hnext eventId hmember
  rw [hcontexts] at hr hr'
  rw [hmembers] at hmember ⊢
  rw [has_insertNew] at hmember
  rcases Bool.or_eq_true_iff.mp hmember with hold | hnew
  · exact has_insertNew_of_has (hinherits r hr r' hr' hwindow hnext eventId hold)
  · -- the latest version has no successor
    have hid : row.contextId = r.contextId := congrArg Prod.fst (of_decide_eq_true hnew)
    obtain rfl := s.contexts.eq_of_key hlatest.1 hr hid
    obtain ⟨hasset, hstart⟩ := Prod.mk.inj hwindow
    have hle := hlatest.2.2.2 r' hr' (hasset.symm.trans hlatest.2.1)
      (hstart.symm.trans hlatest.2.2.1)
    omega

/-- Assigning an event keeps the chains, and leaves no context empty. -/
theorem Versioned.assignEvent {assetId : AssetId reg} {u : Unit} (h : s.Versioned)
    (hok : s.assignEvent fresh assetId event windowStart windowEnd = .ok (u, s')) :
    s'.Versioned := by
  obtain ⟨contextId, s₁, hopening, hmember⟩ := assignEvent_eq_ok hok
  obtain ⟨row, hlatest, rfl⟩ := hopening.isLatest
  refine ⟨(h.opening hopening).insertMember hlatest hmember, fun id hid => ?_⟩
  obtain ⟨_, hcontexts, hmembers, _⟩ := insertMember_eq_ok hmember
  rw [hmembers]
  by_cases hsame : id = row.contextId
  · exact ⟨event.eventId, hsame ▸ has_insertNew_self s₁.members ⟨row.contextId, event⟩⟩
  · have hbefore : s.contexts.has id ∧ ∀ k, s.members.has k →
        s₁.members.has k := by
      rw [hcontexts] at hid
      rcases hopening.joins_or_supersedes with
        ⟨latest, _, _, _, rfl⟩ | ⟨new, hnew, _, _, hsup, _⟩
      · exact ⟨by simpa [setWatermark] using hid, fun _ hk => hk⟩
      · rw [hsup.contexts, has_insertNew, hnew] at hid
        exact ⟨(Bool.or_eq_true_iff.mp hid).resolve_right fun h =>
          hsame (of_decide_eq_true h).symm, hsup.kept⟩
    obtain ⟨eventId, hevent⟩ := h.peopled id hbefore.1
    exact ⟨eventId, has_insertNew_of_has (hbefore.2 _ hevent)⟩

end Assigned

/-- The versions of a window are `1` to the last. -/
theorem Chained.versions (hchained : s.Chained) {last : ContextRow}
    (hlatest : s.IsLatest assetId windowStart last) (v : Nat) :
    (∃ r ∈ s.contexts, r.window = (assetId, windowStart) ∧ r.contextVersion = v) ↔
      1 ≤ v ∧ v ≤ last.contextVersion := by
  have hwindow : last.window = (assetId, windowStart) := Prod.ext hlatest.2.1 hlatest.2.2.1
  constructor
  · rintro ⟨r, hr, hrow, rfl⟩
    obtain ⟨hasset, hstart⟩ := Prod.mk.inj hrow
    exact ⟨hchained.first r hr, hlatest.2.2.2 r hr hasset hstart⟩
  · rintro ⟨hone, hle⟩
    -- down from the last version
    induction hle using Nat.decreasingInduction with
    | self => exact ⟨last, hlatest.1, hwindow, rfl⟩
    | of_succ v hlt ih =>
      obtain ⟨r, hr, hrow, hversion⟩ := ih (by omega)
      obtain ⟨r', hr', hsame, hnext⟩ := (hchained.follows r hr).resolve_left (by omega)
      exact ⟨r', hr', hsame.trans hrow, by omega⟩

end Store

/-- The call is no `set_context_state` to `OPEN` or `READY`. -/
def Call.settles : Call reg → Bool
  | .setContextState _ state => !state.joinable
  | _ => true

/-- The tables after a sequence of operations, each with its answer. -/
def afterOperations (tz : TimeZones) (operations : List (Answer reg × Call reg)) : Store reg :=
  operations.foldl (fun s step => (handle tz step.1 step.2 s).2) ∅

/-- One operation keeps the versions in order. -/
theorem versioned_operation (tz : TimeZones) (w : Answer reg) {c : Call reg}
    (hsettles : c.settles) {s : Store reg} (h : s.Versioned) : (handle tz w c s).2.Versioned := by
  cases c with
  | assignEvent assetId event windowStart windowEnd =>
    exact commit_rule h fun u s' hok => h.assignEvent hok
  | claimReadyContexts now graceMinutes =>
    refine commit_rule h fun claimed s' hok => ?_
    obtain ⟨p, rfl⟩ := (claimReadyContexts_eq_ok hok).2.2.2.2.2
    exact h.close rfl rfl rfl
  | setContextState contextId state =>
    exact commit_done h rfl (h.close (by simpa [settles] using hsettles) rfl rfl)
  | storePredictionWithOutbox message key withdraws =>
    refine commit_rule h fun stored s' hok => ?_
    obtain ⟨hcontexts, hmembers, _⟩ := storePredictionWithOutbox_eq_ok hok
    exact h.close rfl hcontexts hmembers
  | _ =>
    rw [handle_frame tz w _ s rfl]
    exact h

/-- The versions of a window are `1` to `n`, only `n` is open or ready, each has a member
and the members of the one before. -/
def Store.WindowChained (s : Store reg) (assetId : String) (windowStart : Int) : Prop :=
  ∃ n, (∀ v, (∃ r ∈ s.contexts, r.window = (assetId, windowStart) ∧ r.contextVersion = v) ↔
      1 ≤ v ∧ v ≤ n) ∧
    ∀ r ∈ s.contexts, r.window = (assetId, windowStart) →
      (r.state = .opened ∨ r.state = .ready → r.contextVersion = n) ∧
      (∃ eventId, s.members.has (r.contextId, eventId) = true) ∧
      ∀ r' ∈ s.contexts, r'.window = (assetId, windowStart) →
        r'.contextVersion = r.contextVersion + 1 → ∀ eventId,
          s.members.has (r.contextId, eventId) = true →
            s.members.has (r'.contextId, eventId) = true

/-- **The versions of a window.**  After every sequence of operations none of which
sets a context to open or ready, the versions of every window form a chain. -/
theorem versions_chained (tz : TimeZones) (operations : List (Answer reg × Call reg))
    (hsettles : ∀ step ∈ operations, step.2.settles = true) (assetId : String)
    (windowStart : Int) : (afterOperations tz operations).WindowChained assetId windowStart := by
  have h : (afterOperations tz operations).Versioned :=
    foldlRecOn (motive := Store.Versioned) operations _
      ⟨⟨nofun, nofun, nofun, nofun⟩, fun _ hhas => by cases hhas⟩
      fun s hs step hstep => versioned_operation tz step.1 (hsettles step hstep) hs
  generalize afterOperations tz operations = s at h ⊢
  have hmore : ∀ r ∈ s.contexts, r.window = (assetId, windowStart) →
      (∃ eventId, s.members.has (r.contextId, eventId)) ∧
      ∀ r' ∈ s.contexts, r'.window = (assetId, windowStart) →
        r'.contextVersion = r.contextVersion + 1 → ∀ eventId,
          s.members.has (r.contextId, eventId) →
            s.members.has (r'.contextId, eventId) := fun r hr hrow =>
    ⟨h.peopled _ (has_eq_true_iff.mpr ⟨r, hr, rfl⟩), fun r' hr' hrow' =>
      h.inherits r hr r' hr' (hrow.trans hrow'.symm)⟩
  cases hlast : s.latestContext assetId windowStart with
  | none =>
    have hnone : ∀ r ∈ s.contexts, r.window ≠ (assetId, windowStart) := fun r hr hrow =>
      not_mem_of_latestContext hlast hr (Prod.mk.inj hrow)
    refine ⟨0, fun v => ⟨fun ⟨r, hr, hrow, _⟩ => absurd hrow (hnone r hr), by omega⟩,
      fun r hr hrow => absurd hrow (hnone r hr)⟩
  | some last =>
    have hlatest := isLatest_of_latestContext hlast
    refine ⟨last.contextVersion, h.versions hlatest, fun r hr hrow => ⟨fun hopen => ?_, hmore r hr hrow⟩⟩
    obtain ⟨hasset, hstart⟩ := Prod.mk.inj hrow
    by_contra hearlier
    have hclosed := h.closed r hr last hlatest.1
      (hrow.trans (Prod.ext hlatest.2.1 hlatest.2.2.1).symm)
      (Nat.lt_of_le_of_ne (hlatest.2.2.2 r hr hasset hstart) hearlier)
    rcases hopen with hstate | hstate <;> rw [hstate] at hclosed <;> cases hclosed

/-- A window is predicted, and a late event gives it a second version. -/
def lateEvent : List (Answer goldRegistry × Call goldRegistry) :=
  [({ contextId := 1 }, .assignEvent gold ⟨1, .sanctions, 0, .occurrence, []⟩ 0 9),
    ({ now := 0 }, .setContextState 1 .predicted),
    ({ contextId := 2 }, .assignEvent gold ⟨2, .sanctions, 0, .occurrence, []⟩ 0 9)]

theorem late_event_chained : (afterOperations utcOnly lateEvent).WindowChained "GOLD" 0 :=
  versions_chained utcOnly lateEvent (by decide) "GOLD" 0

/-- **A reopened version.**  `set_context_state` opens the first version again, and
both are open. -/
theorem reopened_version_breaks_chain :
    (afterOperations utcOnly (lateEvent ++ [({ now := 0 }, .setContextState 1 .opened)])).contexts.rows.map
        (fun row => (row.contextVersion, row.state)) = [(1, .opened), (2, .opened)] ∧
      ¬ (afterOperations utcOnly
        (lateEvent ++ [({ now := 0 }, .setContextState 1 .opened)])).WindowChained "GOLD" 0 := by
  refine ⟨by decide +kernel, ?_⟩
  rintro ⟨n, -, hrows⟩
  have hfirst := (hrows ⟨1, "GOLD", 0, 9, 1, .opened, 0⟩ (by rw [← mem_rows]; decide +kernel) rfl).1
    (Or.inl rfl)
  have hsecond := (hrows ⟨2, "GOLD", 0, 9, 2, .opened, 0⟩ (by rw [← mem_rows]; decide +kernel)
    rfl).1 (Or.inl rfl)
  exact absurd (hfirst.trans hsecond.symm) (by decide)

end Prediction
