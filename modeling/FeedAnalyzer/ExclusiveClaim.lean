import FeedAnalyzer.InterleavedRun

/-!
# Rows that a procedure has claimed

A procedure claims some rows in one transaction, which marks them as held, and works
on each of them in later ones.  `Touches k c` says that the call `c` works on the row
`k`, and `Held s k` that the row carries the mark.  The rule `exclusive_at` asks that

* a claim takes only rows that were not held and are held afterwards;
* what is left of a procedure after its claim touches each row once;
* a call that does not touch a held row leaves it held;

and gives that a call touches a row only while it is held (`held_of_touches`).
-/

namespace Transact

namespace Proc

variable {I : Interface} {ε α : Type} {Φ : I.Call → Prop} {p : Proc I ε α}

/-- After a call that satisfies `Φ` the procedure makes no other. -/
def TouchesOnce (Φ : I.Call → Prop) : Proc I ε α → Prop
  | .ret _ => True
  | .fail _ => True
  | .call c next =>
    (Φ c → ∀ r, (next r).Avoids Φ) ∧ ∀ r, (next r).TouchesOnce Φ

theorem Avoids.touchesOnce (hp : p.Avoids Φ) : p.TouchesOnce Φ := by
  induction p with
  | ret | fail => trivial
  | call c next ih => exact ⟨fun _ => hp.2, fun r => ih r (hp.2 r)⟩

variable {β : Type} {f : α → Proc I ε β}

theorem touchesOnce_onOk {f : β → Proc I ε α} (hf : ∀ b, (f b).TouchesOnce Φ) :
    ∀ r : Except ε β, (onOk f r).TouchesOnce Φ
  | .ok b => hf b
  | .error _ => trivial

theorem TouchesOnce.bind_avoids (hp : p.TouchesOnce Φ) (hf : ∀ a, (f a).Avoids Φ) :
    (p.bind f).TouchesOnce Φ := by
  induction p with
  | ret a => exact (hf a).touchesOnce
  | fail e => trivial
  | call c next ih =>
    exact ⟨fun hc r => (hp.1 hc r).bind hf, fun r => ih r (hp.2 r)⟩

theorem Avoids.bind_touchesOnce (hp : p.Avoids Φ) (hf : ∀ a, (f a).TouchesOnce Φ) :
    (p.bind f).TouchesOnce Φ := by
  induction p with
  | ret a => exact hf a
  | fail e => trivial
  | call c next ih => exact ⟨fun hc => absurd hc hp.1, fun r => ih r (hp.2 r)⟩

theorem TouchesOnce.catchWith_avoids {handler : ε → Proc I ε α} (hp : p.TouchesOnce Φ)
    (hh : ∀ e, (handler e).Avoids Φ) : (p.catchWith handler).TouchesOnce Φ := by
  induction p with
  | ret a => trivial
  | fail e => exact (hh e).touchesOnce
  | call c next ih =>
    exact ⟨fun hc r => (hp.1 hc r).catchWith hh, fun r => ih r (hp.2 r)⟩

theorem touchesOnce_perform {c : I.Call} {f : I.Ret c → Proc I ε α}
    (hspent : Φ c → ∀ a, (f a).Avoids Φ) (hf : ∀ a, (f a).TouchesOnce Φ) :
    ((perform c).bind f).TouchesOnce Φ := by
  rw [perform_bind]
  exact ⟨fun hc => avoids_onOk (hspent hc), touchesOnce_onOk hf⟩

/-- A part that touches nothing, with a handler for its exceptions. -/
theorem touchesOnce_catchWith {γ : Type} {Q : α → Prop} {f : α → β} {handler : ε → Proc I ε β}
    {k : β → Proc I ε γ} (hp : p.Avoids Φ) (hreturns : p.Returns Q)
    (hok : ∀ a, Q a → (k (f a)).TouchesOnce Φ) (herror : ∀ e, ((handler e).bind k).TouchesOnce Φ) :
    (((p.bind (fun a => .ret (f a))).catchWith handler).bind k).TouchesOnce Φ := by
  induction p with
  | ret a => exact hok a hreturns
  | fail e => exact herror e
  | call c next ih =>
    exact ⟨fun hc => absurd hc hp.1, fun r => ih r (hp.2 r) (hreturns r)⟩

end Proc

variable {i : Nat}

/-- No second touch within one job. -/
theorem touchesOnce_at {I : Interface} {σ ω ε α J : Type} {h : Handler I σ ω ε}
    {code : J → Proc I ε α} {start : Config I σ ε α} {acts : Nat → Action J ω} {Φ : I.Call → Prop}
    (hempty : start.threads = []) (hcode : ∀ j, (code j).TouchesOnce Φ) {l m : Nat} {w w' : ω}
    {c c' : I.Call} (hlt : l < m) (hcalls : CallsAt h code start acts l i w c) (hc : Φ c)
    (hcalls' : CallsAt h code start acts m i w' c') : ¬ Φ c' := by
  have honce : ∀ (k i : Nat) (p : Proc I ε α),
      (configAt h code start acts k).threads[i]? = some p → p.TouchesOnce Φ := by
    apply thread_invariant (fun _ _ p => p.TouchesOnce Φ) hempty
    · intro k i p hp
      exact hp
    · intro k i j
      exact hcode j
    · intro k i w c next _ hp
      exact hp.2 _
  obtain ⟨hact, next, hi⟩ := hcalls
  obtain ⟨_, next', hi'⟩ := hcalls'
  have hrest : (configAt h code start acts (l+1)).threads[i]? =
      some (next (h w c (configAt h code start acts l).store).1) := by
    rw [configAt, hact, Config.step, hi]
    exact List.getElem?_set_self (List.getElem?_eq_some_iff.mp hi).1
  obtain ⟨q, hq, havoids⟩ := thread_stays (fun _ _ r hp => hp.2 r) hlt hrest
    ((honce l i _ hi).1 hc _)
  rw [hi'] at hq
  cases hq
  exact havoids.1

section Exclusive

variable {I : Interface} {σ ω ε α J K : Type} (Touches : K → I.Call → Prop)
  (Held : σ → K → Prop) (Unclaimed : Proc I ε α → Prop)

/-- What a procedure with a claim may still touch is held, and no other one may touch it. -/
def Exclusive (cfg : Config I σ ε α) : Prop :=
  ∀ (i : Nat) (p : Proc I ε α), cfg.threads[i]? = some p → ¬ Unclaimed p →
    ∀ k, p.TouchesOnce (Touches k) ∧ (¬ p.Avoids (Touches k) → Held cfg.store k ∧
        ∀ (j : Nat) (q : Proc I ε α), j ≠ i → cfg.threads[j]? = some q → ¬ Unclaimed q →
          q.Avoids (Touches k))

variable {Touches Held Unclaimed} {h : Handler I σ ω ε} {code : J → Proc I ε α}
  {cfg : Config I σ ε α}

theorem Exclusive.spawn (hcfg : Exclusive Touches Held Unclaimed cfg) {p₀ : Proc I ε α}
    (hp₀ : Unclaimed p₀ ∨ ∀ k, p₀.Avoids (Touches k)) :
    Exclusive Touches Held Unclaimed ⟨cfg.store, cfg.threads ++ [p₀]⟩ := by
  have hsplit : ∀ (i : Nat) (p : Proc I ε α), (cfg.threads ++ [p₀])[i]? = some p →
      cfg.threads[i]? = some p ∨ p = p₀ := by
    intro i p hp
    rw [List.getElem?_append] at hp
    split at hp
    · exact Or.inl hp
    · obtain ⟨_, hget⟩ := List.getElem?_eq_some_iff.mp hp
      exact Or.inr (by simpa using hget.symm)
  intro i p hi hclaimed k
  rcases hsplit i p hi with hold | rfl
  · obtain ⟨honce, hheld⟩ := hcfg i p hold hclaimed k
    refine ⟨honce, fun havoids => ⟨(hheld havoids).1, ?_⟩⟩
    intro j q hne hj hq
    rcases hsplit j q hj with hold' | rfl
    · exact (hheld havoids).2 j q hne hold' hq
    · exact hp₀.resolve_left hq k
  · have havoids := hp₀.resolve_left hclaimed k
    exact ⟨havoids.touchesOnce, fun hnot => absurd havoids hnot⟩

/-- One call of thread `i`. -/
theorem Exclusive.call (hcfg : Exclusive Touches Held Unclaimed cfg) {c : I.Call}
    {next : Except ε (I.Ret c) → Proc I ε α} {r : Except ε (I.Ret c)} {s' : σ}
    (hi : cfg.threads[i]? = some (.call c next))
    (hkeep : ∀ k, Held cfg.store k → ¬ Touches k c → Held s' k)
    (hclaim : Unclaimed (.call c next) → (∀ k, ¬ Touches k c) ∧ (Unclaimed (next r) ∨
      ∀ k, (next r).TouchesOnce (Touches k) ∧
      (¬ (next r).Avoids (Touches k) → ¬ Held cfg.store k ∧ Held s' k))) :
    Exclusive Touches Held Unclaimed ⟨s', cfg.threads.set i (next r)⟩ := by
  have hlt : i < cfg.threads.length := (List.getElem?_eq_some_iff.mp hi).1
  intro j q hj hq k
  by_cases hji : j = i
  · -- the thread that made the call
    subst hji
    rw [List.getElem?_set_self hlt] at hj
    cases hj
    by_cases hun : Unclaimed (.call c next)
    · obtain ⟨honce, hnew⟩ := (hclaim hun).2.resolve_left hq k
      refine ⟨honce, fun hnot => ⟨(hnew hnot).2, ?_⟩⟩
      intro m q' hne hm hq'
      rw [List.getElem?_set_ne (Ne.symm hne)] at hm
      apply Classical.byContradiction
      intro hnot'
      exact (hnew hnot).1 ((hcfg m q' hm hq' k).2 hnot').1
    · obtain ⟨honce, hheld⟩ := hcfg j _ hi hun k
      refine ⟨honce.2 r, fun hnot => ?_⟩
      have hnot' : ¬ (Proc.call c next).Avoids (Touches k) := fun havoids => hnot (havoids.2 r)
      have htouch : ¬ Touches k c := fun htouch => hnot (honce.1 htouch r)
      refine ⟨hkeep k (hheld hnot').1 htouch, ?_⟩
      intro m q' hne hm hq'
      rw [List.getElem?_set_ne (Ne.symm hne)] at hm
      exact (hheld hnot').2 m q' hne hm hq'
  · -- another thread
    rw [List.getElem?_set_ne (Ne.symm hji)] at hj
    obtain ⟨honce, hheld⟩ := hcfg j q hj hq k
    refine ⟨honce, fun hnot => ⟨?_, ?_⟩⟩
    · apply hkeep k (hheld hnot).1
      intro htouch
      by_cases hun : Unclaimed (.call c next)
      · exact (hclaim hun).1 k htouch
      · exact ((hheld hnot).2 i _ (Ne.symm hji) hi hun).1 htouch
    · intro m q' hne hm hq'
      by_cases hmi : m = i
      · subst hmi
        rw [List.getElem?_set_self hlt] at hm
        cases hm
        by_cases hun : Unclaimed (.call c next)
        · apply Classical.byContradiction
          intro hnot'
          exact (((hclaim hun).2.resolve_left hq' k).2 hnot').1 (hheld hnot).1
        · exact ((hheld hnot).2 m _ hne hi hun).2 r
      · rw [List.getElem?_set_ne (Ne.symm hmi)] at hm
        exact (hheld hnot).2 m q' hne hm hq'

variable {start : Config I σ ε α} {acts : Nat → Action J ω}

/-- **The claim rule.**  When calls leave held rows held unless they touch them, and claims
take rows that nobody holds, every claimed row is held by one procedure. -/
theorem exclusive_at {N : Nat} (hempty : start.threads = [])
    (hspawn : ∀ j, Unclaimed (code j) ∨ ∀ k, (code j).Avoids (Touches k))
    (hkeep : ∀ n < N, ∀ i w c, CallsAt h code start acts n i w c →
      ∀ k, Held (configAt h code start acts n).store k → ¬ Touches k c →
      Held (h w c (configAt h code start acts n).store).2 k)
    (hclaim : ∀ n i w c next, CallsAt h code start acts n i w c → Unclaimed (.call c next) →
      (∀ k, ¬ Touches k c) ∧ (Unclaimed (next (h w c (configAt h code start acts n).store).1) ∨
      ∀ k, (next (h w c (configAt h code start acts n).store).1).TouchesOnce (Touches k) ∧
      (¬ (next (h w c (configAt h code start acts n).store).1).Avoids (Touches k) →
      ¬ Held (configAt h code start acts n).store k ∧
      Held (h w c (configAt h code start acts n).store).2 k))) :
    ∀ n ≤ N, Exclusive Touches Held Unclaimed (configAt h code start acts n) := by
  intro n
  induction n with
  | zero =>
    intro _ i p hp
    simp [configAt, hempty] at hp
  | succ n ih =>
    intro hn
    specialize ih (by omega)
    rcases (configAt h code start acts n).step_cases h code (acts n) with
      ⟨j, _, hs⟩ | ⟨i, w, c, next, ha, hi, hs⟩ | hs
    · simp only [configAt, hs]
      exact ih.spawn (hspawn j)
    · simp only [configAt, hs]
      exact ih.call hi (hkeep n hn i w c ⟨ha, next, hi⟩) (hclaim n i w c next ⟨ha, next, hi⟩)
    · simp only [configAt, hs]
      exact ih

theorem held_of_touches {n : Nat} {w : ω} {c : I.Call} {k : K}
    (hexclusive : Exclusive Touches Held Unclaimed (configAt h code start acts n))
    (hcalls : CallsAt h code start acts n i w c)
    (hunclaimed : ∀ next, Unclaimed (.call c next) → ¬ Touches k c) (htouch : Touches k c) :
    Held (configAt h code start acts n).store k := by
  obtain ⟨_, next, hi⟩ := hcalls
  have hclaimed : ¬ Unclaimed (.call c next) := fun hun => hunclaimed next hun htouch
  exact ((hexclusive i _ hi hclaimed k).2 (fun havoids => havoids.1 htouch)).1

end Exclusive

end Transact
