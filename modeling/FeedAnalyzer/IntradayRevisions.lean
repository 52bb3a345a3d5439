import FeedAnalyzer.IntradayStreams

/-!
# Revisions of a stream

The transaction of `collect` writes the bars and the revision that leads to them.  It
keeps what holds of the tables, and so does every other call.
-/

namespace Intraday

open Feed Transact Snapshots Proc List Store Table Call Avoids

variable {reg : Registry} {s s' : Store reg}

section Commit

variable {settings : MarketDataSettings} {row : StreamRow reg} {g : Gathered} {now : Int}
  {ms : List (IntradayObserved reg)}

/-- A revision is published: it has the next number, and leads to the new bars. -/
theorem Replayed.publish (h : Replayed ms row) (hpending : row.done = false)
    (hpublish : publishes settings row g now) (messageId : Uuid) :
    Replayed (ms ++ [observation settings row g now messageId])
      (revise (revised settings row g now) row) where
  revisions := by
    have hnext : (revised settings row g now).revision = row.revision + 1 := if_pos hpublish
    show _ = range' 1 (revised settings row g now).revision
    rw [hnext, range'_1_concat, map_append, h.revisions, Nat.add_comm 1]
    rfl
  last_final := by
    rw [dropLast_concat]
    exact h.unfinished hpending
  unfinished hnot m hm := by
    rcases mem_append.mp hm with hold | hnew
    · exact h.unfinished hpending m hold
    · rw [mem_singleton.mp hnew]
      exact hnot
  bars start := by
    rw [replay, foldl_append]
    refine find?_putAll_congr ?_ _ start
    intro k
    show find? (if g.replace then ∅ else replay ms) k =
      find? (if g.replace then ∅ else loaded row.bars) k
    split
    · rfl
    · rw [find?_loaded, h.bars k]

theorem Replayed.keep (h : Replayed ms row) (hpending : row.done = false)
    (hquiet : publishes settings row g now = false) :
    Replayed ms (revise (revised settings row g now) row) := by
  have hparts : changedBars row g = [] ∧ isFinal settings row g now = false ∧
      g.replace = false := by
    simpa [publishes, and_assoc] using hquiet
  have hrevision : (revised settings row g now).revision = row.revision := by
    simp [revised, hquiet]
  refine ⟨?_, h.last_final, fun _ => h.unfinished hpending, ?_⟩
  · show _ = range' 1 (revised settings row g now).revision
    rw [hrevision]
    exact h.revisions
  · intro start
    have hbars : updatedBars row g = loaded row.bars := by
      simp [updatedBars, startFrom, hparts.1, hparts.2.2, putAll]
    show _ = (updatedBars row g).find? start
    rw [hbars, find?_loaded]
    exact h.bars start

end Commit

section

variable (hs : Consistent s)

include hs

/-- The rule for an update. -/
theorem Consistent.update {p : StreamRow reg → Bool} {f : StreamRow reg → StreamRow reg}
    (hf : ∀ r, (f r).streamId = r.streamId) (hstreams : s'.streams = s.streams.updateWhere p f hf)
    (hrequest : ∀ r, (f r).request = r.request) (htokens : s.nextToken ≤ s'.nextToken)
    (hlease : ∀ r token, (f r).lease = some token → s.nextToken ≤ token ∧ token < s'.nextToken)
    (hrow : ∀ r ∈ s.streams, p r → Replayed (s'.messagesOf r.streamId) (f r))
    (hothers : ∀ r ∈ s.streams, p r = false → s'.messagesOf r.streamId = s.messagesOf r.streamId)
    (hnew : ∀ o ∈ s'.outbox, o ∈ s.outbox ∨ ∃ r ∈ s.streams, r.streamId = o.payload.streamId) :
    Consistent s' ∧ Extends s s' := by
  -- each row is an old one, updated or not
  have hcases : ∀ r ∈ s'.streams, ∃ r₀ ∈ s.streams,
      (p r₀ ∧ r = f r₀) ∨ (p r₀ = false ∧ r = r₀) := by
    intro r hr
    rw [hstreams] at hr
    obtain ⟨r₀, hr₀, rfl⟩ := mem_updateWhere.mp hr
    cases hp : p r₀ with
    | true => exact ⟨r₀, hr₀, Or.inl ⟨hp, rfl⟩⟩
    | false => exact ⟨r₀, hr₀, Or.inr ⟨hp, rfl⟩⟩
  refine ⟨⟨fun r hr => ?_, fun r hr token htoken => ?_, fun r hr => ?_, fun o ho => ?_⟩,
    htokens, fun r hr token hlt htoken => ?_⟩
  · obtain ⟨r₀, hr₀, ⟨_, rfl⟩ | ⟨_, rfl⟩⟩ := hcases r hr
    · rw [hf, hrequest]
      exact hs.known r₀ hr₀
    · exact hs.known r hr₀
  · obtain ⟨r₀, hr₀, ⟨_, rfl⟩ | ⟨_, rfl⟩⟩ := hcases r hr
    · exact (hlease r₀ token htoken).2
    · exact Nat.lt_of_lt_of_le (hs.drawn r hr₀ token htoken) htokens
  · obtain ⟨r₀, hr₀, ⟨hp, rfl⟩ | ⟨hp, rfl⟩⟩ := hcases r hr
    · rw [hf]
      exact hrow r₀ hr₀ hp
    · rw [hothers r hr₀ hp]
      exact hs.replayed r hr₀
  · obtain ⟨r, hr, hid⟩ : ∃ r ∈ s.streams, r.streamId = o.payload.streamId := by
      rcases hnew o ho with hold | hmem
      · exact hs.messages o hold
      · exact hmem
    refine ⟨if p r then f r else r, hstreams ▸ mem_updateWhere.mpr ⟨r, hr, rfl⟩, ?_⟩
    split
    · exact (hf r).trans hid
    · exact hid
  · obtain ⟨r₀, hr₀, ⟨_, rfl⟩ | ⟨_, rfl⟩⟩ := hcases r hr
    · exact absurd (hlease r₀ token htoken).1 (Nat.not_le.mpr hlt)
    · exact hr₀

theorem Consistent.messagesOf_nil {streamId : Uuid} (hnone : ∀ r ∈ s.streams, r.streamId ≠ streamId) :
    s.messagesOf streamId = [] := by
  rw [messagesOf, filter_eq_nil_iff]
  intro m hm hid
  obtain ⟨o, ho, rfl⟩ := mem_map.mp hm
  obtain ⟨r, hr, hrid⟩ := hs.messages o ho
  exact hnone r hr (hrid.trans (of_decide_eq_true hid))

theorem register_step (request : IntradayRequested reg) (series : ProviderSeries)
    (mode : SourceMode) :
    Consistent (s.register request series mode) ∧ Extends s (s.register request series mode) := by
  refine ⟨⟨fun r hr => ?_, fun r hr token htoken => ?_, fun r hr => ?_, fun o ho => ?_⟩,
    Nat.le_refl _, fun r hr token _ hlease => ?_⟩
  · rcases mem_insertNew.mp hr with hold | ⟨_, rfl⟩
    · exact hs.known r hold
    · rfl
  · rcases mem_insertNew.mp hr with hold | ⟨_, rfl⟩
    · exact hs.drawn r hold token htoken
    · cases htoken
  · rcases mem_insertNew.mp hr with hold | ⟨hfresh, rfl⟩
    · exact hs.replayed r hold
    · show Replayed (s.messagesOf request.streamId) _
      rw [hs.messagesOf_nil (has_eq_false_iff.mp hfresh)]
      exact ⟨rfl, by simp, by simp, fun _ => rfl⟩
  · obtain ⟨r, hr, hid⟩ := hs.messages o ho
    exact ⟨r, mem_insertNew_of_mem hr, hid⟩
  · rcases mem_insertNew.mp hr with hold | ⟨_, rfl⟩
    · exact hold
    · cases hlease

theorem claim_step (tie : StreamRow reg → Nat) (locked : StreamRow reg → Bool) (dbNow : Int) :
    Consistent (s.claim tie locked dbNow).2 ∧ Extends s (s.claim tie locked dbNow).2 := by
  unfold Store.claim
  split
  · exact ⟨⟨hs.known, fun r hr token htoken => Nat.lt_succ_of_lt (hs.drawn r hr token htoken),
      hs.replayed, hs.messages⟩, Nat.le_succ _, fun _ hr _ _ _ => hr⟩
  · next first _ =>
    refine hs.update
      (f := claimed s.nextToken dbNow) (fun _ => rfl) rfl (fun _ => rfl) (Nat.le_succ _) ?_
      ?_ (fun _ _ _ => rfl) fun o ho => Or.inl ho
    · rintro r token ⟨⟩
      exact ⟨Nat.le_refl _, Nat.lt_succ_self _⟩
    · intro r hr _
      obtain ⟨hrevisions, hlast, hunfinished, hbars⟩ := hs.replayed r hr
      exact ⟨hrevisions, hlast, hunfinished, hbars⟩

theorem release_step (row : StreamRow reg) (nextAttemptAt : Int) (mode : SourceMode)
    (reason : Option String) :
    Consistent (s.release row nextAttemptAt mode reason) ∧
      Extends s (s.release row nextAttemptAt mode reason) := by
  refine hs.update (f := fun r => { r with
      lease := none
      nextAttemptAt := nextAttemptAt
      lastError := some "PROVIDER_UNAVAILABLE"
      sourceMode := mode
      fallbackReason := reason }) (fun _ => rfl) rfl (fun _ => rfl) (Nat.le_refl _)
    (fun r token h => by cases h) (fun r hr _ => ?_) (fun _ _ _ => rfl) fun o ho => Or.inl ho
  obtain ⟨hrevisions, hlast, hunfinished, hbars⟩ := hs.replayed r hr
  exact ⟨hrevisions, hlast, hunfinished, hbars⟩

end

theorem messagesOf_insertNew {m : IntradayObserved reg} (hfresh : s.outbox.has m.messageId = false)
    {streams : Table fun row : StreamRow reg => row.streamId} (streamId : Uuid) :
    messagesOf { s with streams := streams, outbox := s.outbox.insertNew ⟨m.messageId, m⟩ }
      streamId = s.messagesOf streamId ++ if m.streamId = streamId then [m] else [] := by
  unfold messagesOf
  rw [rows_insertNew_of_fresh hfresh, map_append, filter_append]
  congr 1
  by_cases hid : m.streamId = streamId <;> simp [hid]

variable {row : StreamRow reg} {c : Call reg}

/-- **The transaction of `collect`** keeps the tables consistent. -/
theorem commit_step (hs : Consistent s) {settings : MarketDataSettings} {g : Gathered} {now : Int}
    {messageId : Uuid} {message : Option (IntradayObserved reg)} (hheld : Held s row)
    (hmessage : message = if publishes settings row g now then
      some (observation settings row g now messageId) else none)
    (hcommit : s.commit row (revised settings row g now) message = some s') :
    Consistent s' ∧ Extends s s' := by
  unfold Store.commit at hcommit
  split at hcommit
  · next hany =>
    obtain ⟨r, hr, hheldr⟩ := any_eq_true.mp hany
    obtain rfl := hheld.same r hr hheldr
    cases hpublish : publishes settings r g now with
    | false =>
      simp only [hmessage, hpublish, Bool.false_eq_true, if_false, Option.some.injEq] at hcommit
      subst hcommit
      refine hs.update (f := revise (revised settings r g now)) (fun _ => rfl) rfl
        (fun _ => rfl) (Nat.le_refl _) (fun r token h => by cases h) (fun r' hr' hp => ?_)
        (fun _ _ _ => rfl) fun o ho => Or.inl ho
      obtain rfl := hheld.same r' hr' hp
      exact (hs.replayed r' hr').keep hheld.pending hpublish
    | true =>
      simp only [hmessage, hpublish, if_true] at hcommit
      split at hcommit
      · cases hcommit
      · next hfresh =>
        have hfresh' := Bool.eq_false_iff.mpr hfresh
        cases hcommit
        have hid : (observation settings r g now messageId).streamId = r.streamId :=
          (hs.known r hr).symm
        refine hs.update (f := revise (revised settings r g now)) (fun _ => rfl) rfl
          (fun _ => rfl) (Nat.le_refl _) (fun r token h => by cases h) ?_ ?_ ?_
        · intro r' hr' hp
          obtain rfl := hheld.same r' hr' hp
          rw [messagesOf_insertNew hfresh', if_pos hid]
          exact (hs.replayed r' hr').publish hheld.pending hpublish messageId
        · intro r' hr' hp
          rw [messagesOf_insertNew hfresh', if_neg, append_nil]
          intro hsame
          obtain rfl := eq_of_key hr' hr (hsame.symm.trans hid)
          rw [hheldr] at hp
          cases hp
        · intro o ho
          rcases mem_insertNew.mp ho with hold | ⟨_, rfl⟩
          · exact Or.inl hold
          · exact Or.inr ⟨r, hr, hid.symm⟩
  · cases hcommit
    exact ⟨hs, Extends.refl s⟩

/-- Every call that satisfies `CallOk` keeps the tables consistent. -/
theorem effect_step {w : Answer reg} (hs : Consistent s) (hc : CallOk c s) :
    Consistent (effect w c s) ∧ Extends s (effect w c s) := by
  have hsame : Consistent s ∧ Extends s s := ⟨hs, Extends.refl s⟩
  cases c with
  | register request series mode => exact register_step hs request series mode
  | claim => exact claim_step hs w.tie w.locked w.dbNow
  | release row at' mode reason => exact release_step hs row at' mode reason
  | commit row columns message =>
    obtain ⟨hheld, settings, g, now, messageId, rfl, hmessage⟩ := hc
    show Consistent ((s.commit row (revised settings row g now) message).getD s) ∧
      Extends s ((s.commit row (revised settings row g now) message).getD s)
    cases hcommit : s.commit row (revised settings row g now) message with
    | none => exact hsame
    | some s' => exact commit_step hs hheld hmessage hcommit
  | addSample row =>
    exact ⟨⟨hs.known, hs.drawn, hs.replayed, hs.messages⟩, Nat.le_refl _, fun _ hr _ _ _ => hr⟩
  | _ => exact hsame

/-- A call is carried out, or leaves the tables as they were. -/
theorem handle_store (w : Answer reg) (c : Call reg) (s : Store reg) :
    (handle w c s).2 = s ∨ (handle w c s).2 = effect w c s := by
  have hstatement : ∀ {α : Type} (result : α) (after : Store reg),
      (w.statement result s after).2 = s ∨ (w.statement result s after).2 = after := by
    intro α result after
    unfold Answer.statement
    split
    · exact Or.inr rfl
    · split
      · exact Or.inr rfl
      · exact Or.inl rfl
  cases c with
  | utcNow | uuid4 | listing | sessionFor | chart => exact Or.inl rfl
  | commit row columns message =>
    simp only [handle, effect]
    cases s.commit row columns message with
    | none => exact Or.inl rfl
    | some s' => exact hstatement _ _
  | _ => exact hstatement _ _

theorem handle_step (w : Answer reg) (hs : Consistent s) (hc : CallOk c s) :
    Consistent (handle w c s).2 ∧ Extends s (handle w c s).2 := by
  rcases handle_store w c s with hstore | hstore
  · rw [hstore]
    exact ⟨hs, Extends.refl s⟩
  · rw [hstore]
    exact effect_step hs hc

variable (settings : MarketDataSettings)

/-- `gather` writes nothing. -/
theorem gather_reads (localDate : String → Int → Int) (avanza : Bool) (row : StreamRow reg)
    (now : Int) : (gather settings localDate avanza row now).Avoids Writes := by
  have hattempt : ∀ {α : Type} {p : Service reg α}, p.Avoids Writes →
      (attempt p).Avoids Writes := by
    intro α p hp
    refine catchWith (bind hp fun _ => ?_) fun _ => ?_ <;> trivial
  have hlisting : (avanzaListing row.request.assetId).Avoids Writes := by
    refine avoids_perform id fun found => ?_
    cases found <;> trivial
  have hchart : (fetchChart row.request row.series now).Avoids Writes := by
    unfold fetchChart
    split
    · trivial
    · split
      · trivial
      · refine avoids_perform id fun chart => ?_
        split <;> trivial
  have hsamples : (readSamples localDate row now).Avoids Writes := by
    refine bind (hlisting.bind fun listing =>
      avoids_perform id fun window => ?_) fun window => ?_
    · split <;> trivial
    · split
      · trivial
      · refine bind ?_ fun samples => ?_
        · refine avoids_perform id fun initialized => ?_
          split
          · split <;> trivial
          · refine avoids_perform id fun rows => ?_
            split
            · trivial
            · refine hlisting.bind fun listing => ?_
              split <;> trivial
        · split <;> trivial
  have hcharted : ∀ f : Except Raised (List IntradayBar) → Collected,
      ((attempt (fetchChart row.request row.series now)).bind fun outcome =>
        .ret (f outcome)).Avoids Writes := by
    intro f
    refine bind (hattempt hchart) fun _ => ?_
    trivial
  unfold gather
  dsimp only
  generalize (if row.sourceMode = .avanza ∧ avanza = false then SourceMode.finance
    else row.sourceMode) = mode
  by_cases hlate : deadline settings row.request < now
  · rw [if_pos hlate]
    trivial
  · rw [if_neg hlate]
    by_cases hmode : mode = .avanza
    · rw [if_pos hmode]
      refine bind (hattempt hsamples) fun outcome => ?_
      split
      · trivial
      · trivial
      · exact hcharted _
    · rw [if_neg hmode]
      exact hcharted _

/-- `p` is guided beside other collectors. -/
abbrev Guides {α : Type} (Q : Except Raised α → Store reg → Prop)
    (p : Service reg α) (s : Store reg) : Prop :=
  p.Guided handle Rely CallOk Q s

theorem callOk_of_reads (c : Call reg) (s : Store reg) (hc : ¬ c.Writes) : CallOk c s := by
  cases c with
  | commit row columns message => exact absurd trivial hc
  | _ => trivial

theorem guides_read {α : Type} {Q : Except Raised α → Store reg → Prop} {f : Ret c → Service reg α}
    (hc : ¬ c.Writes) (hok : ∀ s' a, Rely s s' → Guides Q (f a) s')
    (herror : ∀ e s', Q (.error e) s') : Guides Q ((ask c).bind f) s := by
  refine guided_perform (fun s' _ => callOk_of_reads c s' hc) ?_ fun _ _ _ _ _ => herror _ _
  intro s' w a hs _
  rw [handle_reads w c s' hc]
  exact hok s' a hs

/-- A collector that holds a row writes what it has read. -/
theorem collect_guides (localDate : String → Int → Int) (avanza : Bool) (hheld : Held s row) :
    Guides (fun _ _ => True) (collect settings localDate avanza row) s := by
  refine guides_read id (fun s₀ now hs₀ => ?_) fun _ _ => trivial
  have hgather : Guides (fun _ s' => Rely s s') (gather settings localDate avanza row now) s₀ := by
    refine guided_of_avoids (gather_reads settings localDate avanza row now)
      (fun _ _ hs hk => hk.trans hs) (fun c s hc _ => callOk_of_reads c s hc) ?_ hs₀
    intro w c s' hc hk
    rw [handle_reads w c s' hc]
    exact hk
  refine hgather.bind ?_ ?_
  · intro collected s₁ hs₁
    cases collected with
    | unavailable mode reason =>
      exact guided_last (I := Surroundings reg) fun _ _ => trivial
    | gathered g =>
      refine guides_read id (fun s₂ messageId hs₂ => ?_) fun _ _ => trivial
      refine guided_last (I := Surroundings reg) fun s' hs => ?_
      exact ⟨hheld.later (hs₁.1.trans (hs₂.1.trans hs.1)), settings, g, now, messageId, rfl, rfl⟩
  · exact fun _ _ _ => trivial

/-- One turn of `tick`. -/
theorem poll_guides (localDate : String → Int → Int) (avanza : Bool) (s : Store reg) :
    Guides (fun _ _ => True) (poll settings localDate avanza) s := by
  refine guided_perform (fun _ _ => trivial) ?_ fun _ _ _ _ _ => trivial
  intro s' w row hs hclaim
  simp only [handle, Answer.statement] at hclaim ⊢
  split at hclaim
  · cases hclaim
    cases hrow : (s'.claim w.tie w.locked w.dbNow).1 with
    | none => trivial
    | some row => exact collect_guides settings localDate avanza (held_of_claim hs.2 hrow)
  · cases hclaim

variable (resolve : String → Except RegistryError ProviderSeries)

theorem registerStream_guides (avanza : Bool) (request : IntradayRequested reg) (s : Store reg) :
    Guides (fun _ _ => True) (registerStream resolve avanza request) s := by
  unfold registerStream
  cases resolve request.assetId.value with
  | error e => trivial
  | ok series =>
    show Guides _ (if _ then _ else _) s
    split
    · trivial
    · exact guided_last (I := Surroundings reg) fun _ _ => trivial

/-- Deliveries of requests, turns of `tick`, and the snapshot worker, which saves samples.
-/
inductive Job (reg : Registry) where
  | register (avanza : Bool) (request : IntradayRequested reg)
  | poll (settings : MarketDataSettings) (avanza : Bool)
  | sample (row : SampleRow reg)

def Job.procedure (resolve : String → Except RegistryError ProviderSeries)
    (localDate : String → Int → Int) : Job reg → Service reg Unit
  | .register avanza request => registerStream resolve avanza request
  | .poll settings avanza => Intraday.poll settings localDate avanza
  | .sample row => ask (.addSample row)

/-- No streams yet; samples may have been saved before. -/
def beginning (priceSamples : Table fun row : SampleRow reg => row.sampleId) (nextToken : Nat) :
    Config (Surroundings reg) (Store reg) Raised Unit :=
  ⟨{ priceSamples := priceSamples, nextToken := nextToken }, []⟩

/-- The tables after `k` actions of a run. -/
abbrev storeAt (resolve : String → Except RegistryError ProviderSeries)
    (localDate : String → Int → Int) (priceSamples : Table fun row : SampleRow reg => row.sampleId)
    (nextToken : Nat) (acts : Nat → Action (Job reg) (Answer reg)) (k : Nat) : Store reg :=
  (configAt handle (Job.procedure resolve localDate) (beginning priceSamples nextToken) acts k).store

/-- **In every run the tables are consistent.** -/
theorem consistent_run (localDate : String → Int → Int)
    (priceSamples : Table fun row : SampleRow reg => row.sampleId) (nextToken : Nat)
    (acts : Nat → Action (Job reg) (Answer reg)) (k : Nat) :
    Consistent (storeAt resolve localDate priceSamples nextToken acts k) := by
  refine (guided_run (I := Surroundings reg) (R := Rely) (C := CallOk) (V := Consistent)
    (fun _ _ _ => Rely.trans) rfl ?_ ?_ (fun s hs => ⟨Extends.refl s, hs⟩) ?_ k).1
  · exact ⟨fun r hr => absurd hr (not_mem_empty r), fun r hr => absurd hr (not_mem_empty r),
      fun r hr => absurd hr (not_mem_empty r),
      fun o ho => absurd ho (not_mem_empty o)⟩
  · intro job s _
    cases job with
    | register avanza request => exact registerStream_guides resolve avanza request s
    | poll settings avanza => exact poll_guides settings localDate avanza s
    | sample row =>
      exact guided_last (I := Surroundings reg) fun _ _ => trivial
  · intro w c s hs hc
    obtain ⟨hconsistent, hext⟩ := handle_step w hs hc
    exact ⟨hconsistent, hext, hconsistent⟩

/-- **Revisions.**  Whatever collectors do, the revisions of a stream are numbered from one
on without a gap, only the last can be final, and replaying them gives its bars. -/
theorem revisions_replay (resolve : String → Except RegistryError ProviderSeries)
    (localDate : String → Int → Int) (priceSamples : Table fun row : SampleRow reg => row.sampleId)
    (nextToken : Nat) (acts : Nat → Action (Job reg) (Answer reg)) (k : Nat) (streamId : Uuid) :
    let s := storeAt resolve localDate priceSamples nextToken acts k
    ∃ n, (s.messagesOf streamId).map (fun m => m.revision) = List.range' 1 n ∧
      (∀ m ∈ (s.messagesOf streamId).dropLast, m.final = false) ∧
      ∀ r, s.streams.find? streamId = some r → n = r.revision ∧
        ∀ b, b ∈ replay (s.messagesOf streamId) ↔ b ∈ r.bars := by
  intro s
  have hs : Consistent s :=
    consistent_run resolve localDate priceSamples nextToken acts k
  cases hfind : s.streams.find? streamId with
  | none =>
    rw [hs.messagesOf_nil (find?_eq_none_iff.mp hfind)]
    exact ⟨0, rfl, by simp, fun r h => by cases h⟩
  | some r =>
    obtain ⟨hr, rfl⟩ := find?_eq_some_iff.mp hfind
    have hreplayed := hs.replayed r hr
    refine ⟨r.revision, hreplayed.revisions, hreplayed.last_final, ?_⟩
    rintro r' ⟨⟩
    refine ⟨rfl, ?_⟩
    intro b
    have hsame := hreplayed.bars b.1.start
    constructor
    · intro hb
      rw [find?_eq_some_iff.mpr ⟨hb, rfl⟩] at hsame
      exact (find?_eq_some_iff.mp hsame.symm).1
    · intro hb
      rw [find?_eq_some_iff.mpr ⟨hb, rfl⟩] at hsame
      exact (find?_eq_some_iff.mp hsame).1

end Intraday
