import FeedAnalyzer.LateResults

/-!
# Which result releases an attempt

The first prompt of an attempt and its repair are two commands with one row.  The store
does not look which of them a result belongs to, so a repeated result of the first prompt
releases an attempt whose repair is at large.  `released_by_own_result` says that this is
the only way.
-/

namespace Gateway

open Transact Option

variable {B M : Type} {G : Settings} {F : Formatting B M}
  {start : Threads M} {acts : Nat → Action (Job B) Env}

variable (G F) in
/-- Command `id` has been issued. -/
def Issued (start : Threads M)
    (acts : Nat → Action (Job B) Env) (k : Nat) (id : CommandId) : Prop :=
  ∃ l < k, ∃ i w provider generation,
    Makes G F start acts l i w (.openCommand provider id generation) ∧
      (handle G w (.openCommand provider id generation) (worldAt G F start acts l)).1 = .ok true

variable (G F) in
/-- **Released by its own result.**  An attempt leaves state `unknown` by a reset, or by a
result of its command that was cut off. -/
def ReleasedByOwnResult (start : Threads M)
    (acts : Nat → Action (Job B) Env) : Prop :=
  ∀ k a, (worldAt G F start acts k).tables.stateOf a = some .unknown →
    (worldAt G F start acts (k+1)).tables.stateOf a ≠ some .unknown →
    ∃ i w c, Makes G F start acts k i w c ∧ ((∃ profile, c = .resetAttempts profile) ∨
        ∃ profile provider id, c = .terminal profile provider id ∧ id.row? = some a ∧
          ∀ id', id'.row? = some a → CutOff G F start acts k id' → id' = id)

variable (G F) in
/-- A reconciled result is of its attempt's last command. -/
def OfLastCommand (start : Threads M)
    (acts : Nat → Action (Job B) Env) (k : Nat) : Call → Prop
  | .terminal _ _ (.first a) => ¬ Issued G F start acts k (.repair a)
  | .terminal _ _ (.repair a) => Issued G F start acts k (.repair a)
  | _ => True

variable {id : CommandId} {a : Uuid} {c : Call} {k : Nat}

theorem CommandId.row?_cases (hid : id.row? = some a) : id = .first a ∨ id = .repair a := by
  cases id with
  | first b => cases hid; exact Or.inl rfl
  | repair b => cases hid; exact Or.inr rfl
  | _ => cases hid

theorem cutsOff_gains_nothing {w : Env} {s : World} (hcut : CutsOff G w s id c) (a : Uuid) (n : Nat) :
    Duty.turn a n ∉ gained c (handle G w c s).1 := by
  intro hgained
  cases hcut with
  | unsent hfails =>
    obtain ⟨hok, _⟩ := hgained
    exact hfails () hok
  | unanswered hfails =>
    cases id with
    | first b =>
      obtain ⟨⟨result, hok, hsuccess⟩, _⟩ := hgained
      have hunknown := hfails result hok
      rw [hsuccess] at hunknown
      cases hunknown
    | _ => exact absurd hgained (by simp [gained])

theorem gained_repair_turn {r : Except Raised c.Ret} {n : Nat} (hd : Duty.turn a n ∈ gained c r)
    (hn : 3 < n) :
    (∃ provider generation, c = .openCommand provider (.repair a) generation ∧
      HEq r (.ok true : Except Raised Bool)) ∨
    ∃ m, 3 < m ∧ Duty.turn a m ∈ spent c := by
  cases c with
  | reserve profile provider attempt request slot =>
    obtain ⟨_, hduty | hduty⟩ := hd
    · cases hduty
    · cases hduty
      omega
  | openCommand provider id generation =>
    obtain ⟨hok, b, hid, hduty⟩ := hd
    cases hduty
    rcases CommandId.row?_cases hid with rfl | rfl
    · simp [CommandId.stage] at hn
    · exact Or.inl ⟨provider, generation, rfl, by rw [hok]⟩
  | send message =>
    cases message with
    | command id provider requestId slot prompt timeout =>
      obtain ⟨_, b, hid, hduty⟩ := hd
      cases hduty
      rcases CommandId.row?_cases hid with rfl | rfl
      · simp [CommandId.stage] at hn
      · exact Or.inr ⟨4, by omega, a, rfl, rfl⟩
    | _ => exact absurd hd (by simp [gained])
  | awaitFuture id timeout =>
    cases id with
    | first b =>
      obtain ⟨_, hduty⟩ := hd
      cases hduty
      omega
    | _ => exact absurd hd (by simp [gained])
  | _ => exact absurd hd (by simp [gained])

theorem Issued.mono {m : Nat} (hle : k ≤ m) (hissued : Issued G F start acts k id) :
    Issued G F start acts m id := by
  obtain ⟨l, hl, hopened⟩ := hissued
  exact ⟨l, by omega, hopened⟩

section Runs

variable (hempty : start.threads = [])

include hempty

/-- A repair turn had its command. -/
theorem repair_issued (k : Nat) : ∀ i a n, Duty.turn a n ∈ held G F start acts k i → 3 < n →
    Issued G F start acts k (.repair a) := by
  induction k with
  | zero =>
    intro i a n hd
    cases hd
  | succ k ih =>
    intro i a n hd hn
    rcases world_succ start acts k with ⟨i₀, w, c, hcalls, _⟩ | ⟨_, hidle⟩
    · rcases held_succ_cases hcalls hd with ⟨hheld, _⟩ | ⟨_, hgained⟩
      · exact (ih i a n hheld hn).mono (Nat.le_succ k)
      · rcases gained_repair_turn hgained hn with
          ⟨provider, generation, hc, hanswer⟩ | ⟨m, hm, hspent⟩
        · subst hc
          exact ⟨k, Nat.lt_succ_self k, i₀, w, provider, generation, hcalls, eq_of_heq hanswer⟩
        · have hheld := spend_subset_owned hempty procedure_uses hcalls hspent
          exact (ih i₀ a m hheld hm).mono (Nat.le_succ k)
    · rw [held, owned_succ_idle (hidle i)] at hd
      exact (ih i a n hd hn).mono (Nat.le_succ k)

theorem issued_of_cutOff_repair (hcut : CutOff G F start acts k (.repair a)) :
    Issued G F start acts k (.repair a) := by
  obtain ⟨l, hl, i, w, c, hcalls, hcutsOff⟩ := hcut
  obtain ⟨n, hn, _, hspent⟩ := cutsOff_spent hcutsOff rfl
  have hheld := spend_subset_owned hempty procedure_uses hcalls hspent
  have hissued := repair_issued hempty l i a n hheld hn
  exact hissued.mono (Nat.le_of_lt hl)

theorem not_cutOff_first (hissued : Issued G F start acts k (.repair a)) :
    ¬ CutOff G F start acts k (.first a) := by
  intro hcut
  obtain ⟨o, _, i, w, provider, generation, hopened, _⟩ := hissued
  obtain ⟨l, _, j, w', c, hcalls, hcutsOff⟩ := hcut
  have hturn : Duty.turn a 3 ∈ spent (.openCommand provider (.repair a) generation) :=
    ⟨a, rfl, rfl⟩
  obtain ⟨n, _, hn, hspent⟩ := cutsOff_spent hcutsOff rfl
  have hstage : n < 3 := hn
  rcases Nat.lt_trichotomy l o with hlt | heq | hgt
  · have hheld := spend_subset_owned hempty procedure_uses hopened hturn
    have hended := turn_ends hempty hcalls hspent (cutsOff_gains_nothing hcutsOff a) hlt
    exact hended i 3 hheld
  · subst heq
    obtain ⟨_, _, hc⟩ := hopened.unique hcalls
    subst hc
    cases hcutsOff
  · have hlater := turns_in_order hempty hopened hcalls hturn hspent hgt
    omega

theorem eq_of_cutOff {profile provider : String} {id' : CommandId}
    (hlast : OfLastCommand G F start acts k (.terminal profile provider id))
    (hid : id.row? = some a) (hid' : id'.row? = some a) (hcut : CutOff G F start acts k id') :
    id' = id := by
  rcases CommandId.row?_cases hid with rfl | rfl
  · rcases CommandId.row?_cases hid' with rfl | rfl
    · rfl
    · exact absurd (issued_of_cutOff_repair hempty hcut) hlast
  · rcases CommandId.row?_cases hid' with rfl | rfl
    · exact absurd hcut (not_cutOff_first hempty hlast)
    · rfl

/-- **When an attempt is released by its own result.**  Where each reconciled result is of
its attempt's last command, an attempt of unknown fate is released by a result of the
command that was cut off, or by a reset. -/
theorem released_by_own_result (hshielded : start.store.shielded = [])
    (hlast : ∀ k i w c, Makes G F start acts k i w c → OfLastCommand G F start acts k c) :
    ReleasedByOwnResult G F start acts := by
  intro k a hunknown hleft
  rcases world_succ start acts k with ⟨i, w, c, hcalls, _⟩ | ⟨hsame, _⟩
  · obtain ⟨row, hrow, hstate⟩ := map_eq_some_iff.mp hunknown
    obtain ⟨row', hrow', _⟩ := row_stays (Nat.le_succ k) hrow
    have hended : row.state.running = false := by
      rw [hstate]
      rfl
    refine ⟨i, w, c, hcalls, ?_⟩
    rcases ended_step hempty hshielded hcalls hrow hended hrow' with hkept | ⟨hreleases, _⟩
    · rw [Tables.stateOf_eq, hrow', map_some, hkept, hstate] at hleft
      exact absurd rfl hleft
    · cases hreleases with
      | reset profile => exact Or.inl ⟨profile, rfl⟩
      | @terminal profile provider id hid =>
        refine Or.inr ⟨profile, provider, id, rfl, hid, ?_⟩
        intro id' hid' hcut
        exact eq_of_cutOff hempty (hlast k i w _ hcalls) hid hid' hcut
  · rw [hsame] at hleft
    exact absurd hunknown hleft

end Runs

/-- The first prompt is answered in prose and its repair sent.  The connection is lost with
the acknowledgement, and the first result comes again. -/
def acknowledgementLost : List (Action (Job Unit) Env) :=
  promptSent ++ [.spawn (.result (success (.first 7) "prose")), .run 3 {}, .run 3 {}] ++
  List.replicate 7 (.run 1 {}) ++
  [.spawn .disconnect, .run 4 {}, .run 1 {}, .run 1 {}, .run 1 {}, .spawn .connect, .run 5 {},
    .spawn (.result (success (.first 7) "prose")), .run 6 {}, .run 6 {}]

/-- **A repeated result releases the attempt.**  The repair was cut off, and the
attempt leaves state `unknown` with a result of the first prompt. -/
theorem repeated_result_releases :
    let acts := finitely acknowledgementLost {}
    (worldAt oneTab plainFormatting idleGateway acts 43).tables.stateOf 7 = some .unknown ∧
      CutOff oneTab plainFormatting idleGateway acts 43 (.repair 7) ∧
      Makes oneTab plainFormatting idleGateway acts 43 6 {}
        (.terminal "default" "chatgpt" (.first 7)) ∧
      (worldAt oneTab plainFormatting idleGateway acts 44).tables.stateOf 7 = some .finished ∧
      ¬ ReleasedByOwnResult oneTab plainFormatting idleGateway acts := by
  intro acts
  have hunknown : (worldAt oneTab plainFormatting idleGateway acts 43).tables.stateOf 7 =
      some .unknown := by decide +kernel
  have hfinished : (worldAt oneTab plainFormatting idleGateway acts 44).tables.stateOf 7 =
      some .finished := by decide +kernel
  have hawait : Makes oneTab plainFormatting idleGateway acts 36 1 {}
      (.awaitFuture (.repair 7) 180000000) :=
    callsAt_of_callAt rfl (by decide +kernel)
  have hdropped : (handle oneTab {} (.awaitFuture (.repair 7) 180000000)
      (worldAt oneTab plainFormatting idleGateway acts 36)).1 = .ok (World.dropped true) := by
    decide +kernel
  have hcut : CutOff oneTab plainFormatting idleGateway acts 43 (.repair 7) := by
    refine ⟨36, by decide, 1, {}, _, hawait, .unanswered ?_⟩
    intro result hresult
    rw [hdropped] at hresult
    cases hresult
    rfl
  have hterminal : Makes oneTab plainFormatting idleGateway acts 43 6 {}
      (.terminal "default" "chatgpt" (.first 7)) :=
    callsAt_of_callAt rfl (by decide +kernel)
  refine ⟨hunknown, hcut, hterminal, hfinished, ?_⟩
  intro hreleased
  have hleft : (worldAt oneTab plainFormatting idleGateway acts (43+1)).tables.stateOf 7 ≠
      some .unknown := by
    rw [hfinished]
    simp
  obtain ⟨i, w, c, hcalls, hown⟩ := hreleased 43 7 hunknown hleft
  obtain ⟨_, _, hc⟩ := hterminal.unique hcalls
  subst hc
  rcases hown with ⟨profile, hreset⟩ | ⟨profile, provider, id, hterminal', _, honly⟩
  · cases hreset
  · cases hterminal'
    have hsame := honly (.repair 7) rfl hcut
    cases hsame

/-- No repair is issued, and no result of one is reconciled. -/
def withoutRepair : Call → Bool
  | .openCommand _ (.repair _) _ => false
  | .terminal _ _ (.repair _) => false
  | _ => true

/-- A first prompt that timed out is released by its own result. -/
theorem afterwards_released_by_own_result :
    ReleasedByOwnResult oneTab plainFormatting idleGateway (finitely resultAfterwards {}) ∧
      (worldAt oneTab plainFormatting idleGateway (finitely resultAfterwards {}) 28).tables.stateOf
        7 = some .unknown ∧
      (worldAt oneTab plainFormatting idleGateway (finitely resultAfterwards {}) 32).tables.stateOf
        7 = some .finished := by
  refine ⟨released_by_own_result rfl rfl ?_, by decide +kernel, by decide +kernel⟩
  have hwithout : ∀ k i w c,
      Makes oneTab plainFormatting idleGateway (finitely resultAfterwards {}) k i w c →
      withoutRepair c := by
    refine finitely_forall (I := Service) rfl ?_
    decide +kernel
  intro k i w c hcalls
  cases c with
  | terminal profile provider id =>
    cases id with
    | first a =>
      rintro ⟨l, _, j, w', provider', generation, hopened, _⟩
      have hrepair := hwithout l j w' _ hopened
      cases hrepair
    | repair a =>
      have hrepair := hwithout k i w _ hcalls
      cases hrepair
    | _ => trivial
  | _ => trivial

end Gateway
