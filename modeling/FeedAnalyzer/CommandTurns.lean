import FeedAnalyzer.GatewayRuns

/-!
# The order of an attempt's commands

The turn of an attempt only moves on, so each of its commands is opened, sent and
awaited at most once, the repair only after the first prompt was answered.
-/

namespace Gateway

open Transact List World

variable {B M : Type} {G : Settings} {F : Formatting B M}
  {start : Threads M} {acts : Nat → Action (Job B) Env} {c : Call} {a : Uuid} {n k m : Nat}

/-- Where a turn comes from. -/
theorem gained_turn_cases {r : Except Raised c.Ret} (hd : Duty.turn a n ∈ gained c r) :
    (∃ profile provider request slot,
      c = .reserve profile provider a request slot ∧ HEq r (.ok true : Except Raised Bool)) ∨
    ∃ m < n, Duty.turn a m ∈ spent c := by
  cases c with
  | reserve profile provider attempt request slot =>
    obtain ⟨rfl, hduty | hduty⟩ := hd
    · cases hduty
    · cases hduty
      exact Or.inl ⟨profile, provider, request, slot, rfl, HEq.rfl⟩
  | openCommand provider id generation =>
    obtain ⟨_, a', ha, hduty⟩ := hd
    cases hduty
    exact Or.inr ⟨id.stage + 0, by omega, a, ha, rfl⟩
  | send message =>
    cases message with
    | command id provider requestId slot prompt timeout =>
      obtain ⟨_, a', ha, hduty⟩ := hd
      cases hduty
      exact Or.inr ⟨id.stage + 1, by omega, a, ha, rfl⟩
    | _ => exact absurd hd (by simp [gained])
  | awaitFuture id timeout =>
    cases id with
    | first a' =>
      obtain ⟨_, hduty⟩ := hd
      cases hduty
      exact Or.inr ⟨2, by omega, a, rfl, rfl⟩
    | _ => exact absurd hd (by simp [gained])
  | _ => exact absurd hd (by simp [gained])

theorem gained_turn_spent {row : AttemptRow} (hle : k ≤ m)
    (hrow : (worldAt G F start acts k).tables.row? a = some row) {w : Env}
    (hgained : Duty.turn a n ∈ gained c (handle G w c (worldAt G F start acts m)).1) :
    ∃ n' < n, Duty.turn a n' ∈ spent c := by
  rcases gained_turn_cases hgained with ⟨profile, provider, request, slot, hc, hanswer⟩ | hearlier
  · subst hc
    obtain ⟨hnone, _⟩ := reserve_answer (eq_of_heq hanswer)
    obtain ⟨row', hrow', _⟩ := row_stays hle hrow
    rw [hnone] at hrow'
    cases hrow'
  · exact hearlier

section Turns

variable (hempty : start.threads = []) {k i n : Nat} {w : Env} {c : Call} {a : Uuid}

include hempty

section

variable (hcalls : Makes G F start acts k i w c)

include hcalls

variable {i' n' k' : Nat}

section

variable (hspent : Duty.turn a n ∈ spent c)

include hspent

/-- Who spends a turn of an attempt holds it, and the attempt has its row. -/
theorem spent_turn_row : ∃ row, (worldAt G F start acts k).tables.row? a = some row :=
  duty_row hempty k i _ (spend_subset_owned hempty procedure_uses hcalls hspent)

/-- A turn that is held right after another was spent was gained for it. -/
theorem turn_succ (hd : Duty.turn a n' ∈ held G F start acts (k+1) i') :
    Duty.turn a n' ∈ gained c (handle G w c (worldAt G F start acts k)).1 := by
  have hheldAt : Duty.turn a n ∈ held G F start acts k i :=
    spend_subset_owned hempty procedure_uses hcalls hspent
  rcases held_succ_cases hcalls hd with ⟨hheld, hkept⟩ | ⟨_, hgained⟩
  · obtain ⟨hi, hduty⟩ := duty_exclusive hempty k i' i _ _ hheld hheldAt rfl
    cases hduty
    exact absurd hspent (hkept hi)
  · exact hgained

/-- What holds of the turns gained for the one spent, and of every later turn, holds from
then on. -/
theorem turns_after {Q : Nat → Prop}
    (hnext : ∀ n', Duty.turn a n' ∈ gained c (handle G w c (worldAt G F start acts k)).1 → Q n')
    (hlater : ∀ n' n'', n' < n'' → Q n' → Q n'') (hlt : k < k') :
    ∀ i' n', Duty.turn a n' ∈ held G F start acts k' i' → Q n' := by
  obtain ⟨row, hrow⟩ := spent_turn_row hempty hcalls hspent
  induction hlt with
  | refl => exact fun i' n' hd => hnext n' (turn_succ hempty hcalls hspent hd)
  | @step m hle ih =>
    intro i' n' hd
    rcases world_succ start acts m with ⟨i₀, w', c', hcalls', _⟩ | ⟨_, hidle⟩
    · rcases held_succ_cases hcalls' hd with ⟨hheld, _⟩ | ⟨_, hgained⟩
      · exact ih i' n' hheld
      · obtain ⟨n'', hn'', hspent'⟩ :=
          gained_turn_spent (Nat.le_of_succ_le hle) hrow hgained
        have hheld' := spend_subset_owned hempty procedure_uses hcalls' hspent'
        exact hlater n'' n' hn'' (ih i₀ n'' hheld')
    · rw [held, owned_succ_idle (hidle i')] at hd
      exact ih i' n' hd

/-- **Turns move on.**  After a call that spent a turn, only later turns of the
attempt are held. -/
theorem turn_advances (hlt : k < k') :
    ∀ i' n', Duty.turn a n' ∈ held G F start acts k' i' → n < n' := by
  obtain ⟨row, hrow⟩ := spent_turn_row hempty hcalls hspent
  refine turns_after hempty hcalls hspent (fun n' hgained => ?_)
    (fun n' n'' hlt' hn' => Nat.lt_trans hn' hlt') hlt
  obtain ⟨n'', hn'', hspent'⟩ := gained_turn_spent (Nat.le_refl k) hrow hgained
  have hheld := spend_subset_owned hempty procedure_uses hcalls hspent
  have hheld' := spend_subset_owned hempty procedure_uses hcalls hspent'
  obtain ⟨_, hduty⟩ := duty_exclusive hempty k i i _ _ hheld' hheld rfl
  cases hduty
  exact hn''

/-- **Turns end.**  A call that spends a turn of an attempt and gains none ends
the attempt's conversation. -/
theorem turn_ends
    (hnone : ∀ n', Duty.turn a n' ∉ gained c (handle G w c (worldAt G F start acts k)).1)
    (hlt : k < k') : ∀ i' n', Duty.turn a n' ∉ held G F start acts k' i' :=
  turns_after hempty hcalls hspent hnone (fun _ _ _ hno => hno) hlt

end

/-- Two calls of one attempt's conversation come in the order of their turns. -/
theorem turns_in_order {w' : Env} {c' : Call} (hcalls' : Makes G F start acts k' i' w' c')
    (hspent : Duty.turn a n ∈ spent c) (hspent' : Duty.turn a n' ∈ spent c') (hlt : k < k') :
    n < n' := by
  have hheld := spend_subset_owned hempty procedure_uses hcalls' hspent'
  exact turn_advances hempty hcalls hspent hlt i' n' hheld

end

end Turns

theorem World.entryOf_put (s : World) (entry : Pending) (id : CommandId) (hne : id ≠ entry.id)
    (hsome : (s.put entry).entryOf id ≠ none) : s.entryOf id ≠ none := by
  intro hnone
  apply hsome
  have hall : ∀ old ∈ s.pending, ¬ old.id = id := by
    simpa [entryOf] using hnone
  unfold entryOf put
  rw [find?_eq_none]
  intro old hold
  have hmem : old ∈ s.pending.filter (fun old => old.id ≠ entry.id) ++ [entry] := hold
  rcases mem_append.mp hmem with hbefore | hnew
  · simpa using hall old (mem_filter.mp hbefore).1
  · obtain rfl : old = entry := by simpa using hnew
    simpa using Ne.symm hne

theorem World.entryOf_pop (s : World) (id' id : CommandId)
    (hsome : (s.pop id').entryOf id ≠ none) : s.entryOf id ≠ none := by
  intro hnone
  apply hsome
  have hall : ∀ old ∈ s.pending, ¬ old.id = id := by
    simpa [entryOf] using hnone
  unfold entryOf pop
  rw [find?_eq_none]
  intro old hold
  simpa using hall old (mem_filter.mp hold).1

/-- An entry in `pending` comes from opening its command. -/
theorem handle_entry (w : Env) (c : Call) (s : World) (id : CommandId)
    (hopen : ∀ provider generation, c ≠ .openCommand provider id generation)
    (hsome : (handle G w c s).2.entryOf id ≠ none) : s.entryOf id ≠ none := by
  have hmove := handle_move (G := G) w c s
  generalize (handle G w c s).2 = s' at hmove hsome
  cases hmove with
  | opened provider id' generation =>
    have hne : id ≠ id' := fun h => hopen provider generation (h ▸ rfl)
    exact entryOf_put s _ id hne hsome
  | closed id' => exact entryOf_pop s id' id hsome
  | _ => exact hsome

/-- A pending entry was opened. -/
theorem entry_opened (hpending : start.store.pending = []) (k : Nat) (id : CommandId)
    (hsome : (worldAt G F start acts k).entryOf id ≠ none) :
    ∃ o < k, ∃ i w provider generation,
      Makes G F start acts o i w (.openCommand provider id generation) := by
  induction k with
  | zero =>
    have hnone : (worldAt G F start acts 0).entryOf id = none := by
      unfold entryOf
      rw [show (worldAt G F start acts 0).pending = [] from hpending]
      rfl
    exact absurd hnone hsome
  | succ k ih =>
    have hearlier : (∃ o < k, ∃ i w provider generation,
        Makes G F start acts o i w (.openCommand provider id generation)) →
        ∃ o < k + 1, ∃ i w provider generation,
          Makes G F start acts o i w (.openCommand provider id generation) := by
      rintro ⟨o, ho, hopened⟩
      exact ⟨o, by omega, hopened⟩
    rcases world_succ start acts k with ⟨i, w, c, hcalls, hstore⟩ | ⟨hsame, _⟩
    · by_cases hopen : ∃ provider generation, c = .openCommand provider id generation
      · obtain ⟨provider, generation, rfl⟩ := hopen
        exact ⟨k, by omega, i, w, provider, generation, hcalls⟩
      · rw [hstore] at hsome
        apply hearlier
        apply ih
        exact handle_entry w c _ id (fun p g hc => hopen ⟨p, g, hc⟩) hsome
    · rw [hsame] at hsome
      exact hearlier (ih hsome)

theorem future_grows (hle : k ≤ m) {id : CommandId}
    (hopen : ∀ l i w provider generation, k ≤ l → l < m →
      ¬ Makes G F start acts l i w (.openCommand provider id generation)) :
    ((worldAt G F start acts k).futures id).Grows ((worldAt G F start acts m).futures id) := by
  induction hle with
  | refl => exact Future.Grows.refl _
  | @step m hle ih =>
    have hbefore := ih fun l i w p g hk hl => hopen l i w p g hk (by omega)
    rcases world_succ start acts m with ⟨i, w, c, hcalls, hstore⟩ | ⟨hsame, _⟩
    · have hstep := handle_future (G := G) w c (worldAt G F start acts m) id
        (fun provider generation hc =>
          hopen m i w provider generation hle (Nat.lt_succ_self m) (hc ▸ hcalls))
      rw [hstore]
      exact ⟨fun r hr => hstep.result r (hbefore.result r hr),
        fun hcut => hstep.awaited (hbefore.awaited hcut)⟩
    · rw [hsame]
      exact hbefore

end Gateway
