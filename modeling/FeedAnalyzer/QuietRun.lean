import FeedAnalyzer.InterleavedRun

/-!
# Leaving out calls whose answers are not used

`p.Erases Quiet q` says that `p` is `q` with calls of the kind `Quiet` made in between.
Where such calls touch nothing that the others see, every interleaved run is matched,
step by step, by a run without them (`erased_run`).
-/

namespace Transact

variable {I : Interface} {σ σ' ω ω' ε α β J : Type}

namespace Proc

variable {Quiet : I.Call → Prop}

def Erases (Quiet : I.Call → Prop) : Proc I ε α → Proc I ε α → Prop
  | .ret a, q => q = .ret a
  | .fail e, q => q = .fail e
  | .call c next, q => (Quiet c ∧ ∀ a, (next (.ok a)).Erases Quiet q) ∨
      ∃ next', q = .call c next' ∧ ∀ r, (next r).Erases Quiet (next' r)

theorem Erases.refl (p : Proc I ε α) : p.Erases Quiet p := by
  induction p with
  | ret | fail => rfl
  | call c next ih => exact Or.inr ⟨next, rfl, ih⟩

variable {p q : Proc I ε α}

theorem Erases.bind {f g : α → Proc I ε β} (hp : p.Erases Quiet q)
    (hf : ∀ a, (f a).Erases Quiet (g a)) : (p.bind f).Erases Quiet (q.bind g) := by
  induction p generalizing q with
  | ret a =>
    rw [show q = .ret a from hp]
    exact hf a
  | fail e =>
    rw [show q = .fail e from hp]
    rfl
  | call c next ih =>
    rcases hp with ⟨hc, hnext⟩ | ⟨next', rfl, hnext⟩
    · exact Or.inl ⟨hc, fun a => ih _ (hnext a)⟩
    · exact Or.inr ⟨_, rfl, fun r => ih r (hnext r)⟩

theorem Erases.catchWith {f g : ε → Proc I ε α} (hp : p.Erases Quiet q)
    (hf : ∀ e, (f e).Erases Quiet (g e)) : (p.catchWith f).Erases Quiet (q.catchWith g) := by
  induction p generalizing q with
  | ret a =>
    rw [show q = .ret a from hp]
    rfl
  | fail e =>
    rw [show q = .fail e from hp]
    exact hf e
  | call c next ih =>
    rcases hp with ⟨hc, hnext⟩ | ⟨next', rfl, hnext⟩
    · exact Or.inl ⟨hc, fun a => ih _ (hnext a)⟩
    · exact Or.inr ⟨_, rfl, fun r => ih r (hnext r)⟩

end Proc

/-- The configurations agree up to quiet calls; `view` is what the second has of the first
store. -/
structure Mirrors (Quiet : I.Call → Prop) (view : σ → σ') (on : Config I σ ε α)
    (off : Config I σ' ε α) : Prop where
  store : off.store = view on.store
  length : off.threads.length = on.threads.length
  threads : ∀ (i : Nat) (p q : Proc I ε α), on.threads[i]? = some p → off.threads[i]? = some q →
    p.Erases Quiet q

/-- The thread is about to make a call that its counterpart leaves out. -/
def LeavesOut (Quiet : I.Call → Prop) (on : Config I σ ε α) (off : Config I σ' ε α) (i : Nat) :
    Prop :=
  ∃ c next q, on.threads[i]? = some (.call c next) ∧ off.threads[i]? = some q ∧ Quiet c ∧
    ∀ a, (next (.ok a)).Erases Quiet q

open Classical in
noncomputable def matching (Quiet : I.Call → Prop) (given : ω → ω') (on : Config I σ ε α)
    (off : Config I σ' ε α) : Action J ω → Action J ω'
  | .spawn j => .spawn j
  | .run i w => .run (if LeavesOut Quiet on off i then off.threads.length else i) (given w)

section Run

variable {Quiet : I.Call → Prop} {view : σ → σ'} {given : ω → ω'} {h : Handler I σ ω ε}
  {h' : Handler I σ' ω' ε} {code code' : J → Proc I ε α} {on : Config I σ ε α}
  {off : Config I σ' ε α}

/-- **One action.** -/
theorem Mirrors.step (hagree : ∀ w c s, h' (given w) c (view s) = ((h w c s).1, view (h w c s).2))
    (hquiet : ∀ w c s, Quiet c → (∃ a, (h w c s).1 = .ok a) ∧ view (h w c s).2 = view s)
    (hcode : ∀ j, (code j).Erases Quiet (code' j)) (hm : Mirrors Quiet view on off)
    (act : Action J ω) :
    Mirrors Quiet view (on.step h code act)
      (off.step h' code' (matching Quiet given on off act)) := by
  cases act with
  | spawn j =>
    refine ⟨hm.store, by simp [Config.step, matching, hm.length], ?_⟩
    intro i p q hp hq
    simp only [Config.step, matching, List.getElem?_append, hm.length] at hp hq
    split at hp
    · next hlt =>
      rw [if_pos hlt] at hq
      exact hm.threads i p q hp hq
    · next hlt =>
      rw [if_neg hlt] at hq
      obtain ⟨rfl, rfl⟩ : code j = p ∧ code' j = q := by
        cases hi : i - on.threads.length with
        | zero => simpa [hi] using And.intro hp hq
        | succ k => simp [hi] at hp
      exact hcode j
  | run i w =>
    by_cases hskip : LeavesOut Quiet on off i
    · obtain ⟨c, next, q, hp, hq, hc, hnext⟩ := id hskip
      have hoff : off.step h' code' (matching Quiet given on off (.run i w)) = off := by
        simp [Config.step, matching, hskip]
      obtain ⟨⟨a, ha⟩, hview⟩ := hquiet w c on.store hc
      rw [hoff]
      simp only [Config.step, hp]
      refine ⟨hm.store.trans hview.symm, by simpa using hm.length, ?_⟩
      intro i' p' q' hp' hq'
      rw [List.getElem?_set] at hp'
      split at hp'
      · next hsame =>
        subst hsame
        rw [hq] at hq'
        cases hq'
        obtain ⟨_, rfl⟩ : _ ∧ next (h w c on.store).1 = p' := by simpa using hp'
        rw [ha]
        exact hnext a
      · exact hm.threads i' p' q' hp' hq'
    · have hact : matching Quiet given on off (.run i w : Action J ω) = .run i (given w) := by
        simp [matching, hskip]
      rw [hact]
      cases hp : on.threads[i]? with
      | none =>
        have hq : off.threads[i]? = none := by
          rw [List.getElem?_eq_none_iff] at hp ⊢
          rwa [hm.length]
        simpa only [Config.step, hp, hq] using hm
      | some p =>
        obtain ⟨q, hq⟩ : ∃ q, off.threads[i]? = some q := by
          have hlt := (List.getElem?_eq_some_iff.mp hp).1
          exact ⟨_, List.getElem?_eq_getElem (hm.length ▸ hlt)⟩
        have herases := hm.threads i p q hp hq
        cases p with
        | ret a =>
          rw [show q = .ret a from herases] at hq
          simpa only [Config.step, hp, hq] using hm
        | fail e =>
          rw [show q = .fail e from herases] at hq
          simpa only [Config.step, hp, hq] using hm
        | call c next =>
          rcases herases with ⟨hc, hnext⟩ | ⟨next', rfl, hnext⟩
          · exact absurd ⟨c, next, q, hp, hq, hc, hnext⟩ hskip
          simp only [Config.step, hp, hq, hm.store, hagree]
          refine ⟨rfl, by simpa using hm.length, ?_⟩
          intro i' p' q' hp' hq'
          rw [List.getElem?_set] at hp' hq'
          split at hp'
          · next hsame =>
            rw [if_pos hsame] at hq'
            obtain ⟨_, rfl⟩ : _ ∧ next (h w c on.store).1 = p' := by simpa using hp'
            obtain ⟨_, rfl⟩ : _ ∧ next' (h w c on.store).1 = q' := by simpa using hq'
            exact hnext _
          · next hother =>
            rw [if_neg hother] at hq'
            exact hm.threads i' p' q' hp' hq'

variable (h code h' code')

/-- The second run does what the first does, but for its quiet calls. -/
def Follows (Quiet : I.Call → Prop) (given : ω → ω') (start : Config I σ ε α)
    (start' : Config I σ' ε α) (acts : Nat → Action J ω) (acts' : Nat → Action J ω') : Prop :=
  ∀ k, match acts k with
    | .spawn j => acts' k = .spawn j
    | .run i w => acts' k = .run i (given w) ∨ (∃ c, Quiet c ∧ CallsAt h code start acts k i w c) ∧
          configAt h' code' start' acts' (k+1) = configAt h' code' start' acts' k

/-- The run that matches another one. -/
noncomputable def matchedAt (Quiet : I.Call → Prop) (given : ω → ω') (on : Nat → Config I σ ε α)
    (start' : Config I σ' ε α) (acts : Nat → Action J ω) : Nat → Config I σ' ε α
  | 0 => start'
  | k+1 => (matchedAt Quiet given on start' acts k).step h' code'
      (matching Quiet given (on k) (matchedAt Quiet given on start' acts k) (acts k))

variable {h code h' code'}

/-- **The run rule.** -/
theorem erased_run (hagree : ∀ w c s, h' (given w) c (view s) = ((h w c s).1, view (h w c s).2))
    (hquiet : ∀ w c s, Quiet c → (∃ a, (h w c s).1 = .ok a) ∧ view (h w c s).2 = view s)
    (hcode : ∀ j, (code j).Erases Quiet (code' j)) (s : σ) (acts : Nat → Action J ω) :
    ∃ acts', Follows h h' code code' Quiet given ⟨s, []⟩ ⟨view s, []⟩ acts acts' ∧
      ∀ n, (configAt h' code' ⟨view s, []⟩ acts' n).store =
        view (configAt h code ⟨s, []⟩ acts n).store := by
  let on := configAt h code ⟨s, []⟩ acts
  let off := matchedAt h' code' Quiet given on ⟨view s, []⟩ acts
  let acts' := fun k => matching Quiet given (on k) (off k) (acts k)
  have hoff : ∀ k, configAt h' code' ⟨view s, []⟩ acts' k = off k := by
    intro k
    induction k with
    | zero => rfl
    | succ k ih =>
      rw [configAt, ih]
      rfl
  have hmirrors : ∀ k, Mirrors Quiet view (on k) (off k) := by
    intro k
    induction k with
    | zero => exact ⟨rfl, rfl, fun i p q hp => by simp [on, configAt] at hp⟩
    | succ k ih => exact ih.step hagree hquiet hcode (acts k)
  refine ⟨acts', ?_, fun n => (congrArg Config.store (hoff n)).trans (hmirrors n).store⟩
  intro k
  cases hact : acts k with
  | spawn j => simp [acts', hact, matching]
  | run i w =>
    by_cases hskip : LeavesOut Quiet (on k) (off k) i
    · obtain ⟨c, next, q, hp, _, hc, _⟩ := id hskip
      refine Or.inr ⟨⟨c, hc, hact, next, hp⟩, ?_⟩
      rw [configAt, hoff]
      simp [acts', hact, matching, hskip, Config.step]
    · exact Or.inl (by simp [acts', hact, matching, hskip])

end Run

end Transact
