import FeedAnalyzer.TransactionProc

/-!
# Interleaved runs of procedures on one store

A schedule either starts the procedure of a job or lets one running procedure make its
next call, one indivisible step.  It need not be fair, so a procedure that crashed is
one that is never picked again.  Runs are streams of actions, and `configAt` is the
configuration before the `k`-th of them.
-/

namespace Transact

variable {k i : Nat}

/-- The shared store and what is left of each started procedure. -/
structure Config (I : Interface) (σ ε α : Type) where
  store : σ
  threads : List (Proc I ε α)

/-- One action of a schedule. -/
inductive Action (J ω : Type) where
  | spawn (j : J)
  | run (i : Nat) (w : ω)

variable {I : Interface} {σ ω ε α J : Type} (h : Handler I σ ω ε) (code : J → Proc I ε α)

/-- A thread that has ended does nothing. -/
def Config.step (cfg : Config I σ ε α) : Action J ω → Config I σ ε α
  | .spawn j => { cfg with threads := cfg.threads ++ [code j] }
  | .run i w =>
    match cfg.threads[i]? with
    | some (.call c next) =>
      { store := (h w c cfg.store).2, threads := cfg.threads.set i (next (h w c cfg.store).1) }
    | _ => cfg

/-- The configuration before the `k`-th action. -/
def configAt (start : Config I σ ε α) (acts : Nat → Action J ω) : Nat → Config I σ ε α
  | 0 => start
  | k+1 => (configAt start acts k).step h code (acts k)

/-- The jobs started before the `k`-th action. -/
def spawned (acts : Nat → Action J ω) : Nat → List J
  | 0 => []
  | k+1 =>
    match acts k with
    | .spawn j => spawned acts k ++ [j]
    | .run _ _ => spawned acts k

variable {m : Nat}

theorem exists_step_of_change {A : Nat → Prop} {l : Nat} (hle : l ≤ m) (hl : ¬ A l) (hm : A m) :
    ∃ k, l ≤ k ∧ k < m ∧ ¬ A k ∧ A (k+1) := by
  induction hle with
  | refl => exact absurd hm hl
  | @step m hle ih =>
    by_cases hA : A m
    · obtain ⟨k, hlk, hkm, hk⟩ := ih hA
      exact ⟨k, hlk, Nat.lt_succ_of_lt hkm, hk⟩
    · exact ⟨m, hle, Nat.lt_succ_self m, hA, hm⟩

/-- The `k`-th action lets thread `i` make the call `c`, and the environment
answers `w`. -/
def CallsAt (start : Config I σ ε α) (acts : Nat → Action J ω)
    (k i : Nat) (w : ω) (c : I.Call) : Prop :=
  acts k = .run i w ∧ ∃ next, (configAt h code start acts k).threads[i]? = some (.call c next)

/-- What one action does. -/
theorem Config.step_cases (cfg : Config I σ ε α) (a : Action J ω) : (∃ j, a = .spawn j ∧
      cfg.step h code a = ⟨cfg.store, cfg.threads ++ [code j]⟩) ∨
    (∃ i w c next, a = .run i w ∧ cfg.threads[i]? = some (.call c next) ∧ cfg.step h code a =
        ⟨(h w c cfg.store).2, cfg.threads.set i (next (h w c cfg.store).1)⟩) ∨
    cfg.step h code a = cfg := by
  cases a with
  | spawn j => exact Or.inl ⟨j, rfl, rfl⟩
  | run i w =>
    right
    cases hi : cfg.threads[i]? with
    | none => exact Or.inr (by simp [Config.step, hi])
    | some p =>
      cases p with
      | ret | fail => exact Or.inr (by simp [Config.step, hi])
      | call c next =>
        exact Or.inl ⟨i, w, c, next, rfl, hi, by simp [Config.step, hi]⟩

variable {acts : Nat → Action J ω}

theorem spawned_succ_spawn {j : J} (hact : acts k = .spawn j) :
    spawned acts (k+1) = spawned acts k ++ [j] := by
  simp only [spawned, hact]

variable {w : ω}

theorem spawned_succ_run (hact : acts k = .run i w) : spawned acts (k+1) = spawned acts k := by
  simp only [spawned, hact]

theorem spawned_prefix (acts : Nat → Action J ω) (hle : k ≤ m) :
    spawned acts k <+: spawned acts m := by
  induction hle with
  | refl => exact List.prefix_rfl
  | @step m _ hbefore =>
    cases hact : acts m with
    | spawn j =>
      rw [spawned_succ_spawn hact]
      exact hbefore.trans (List.prefix_append _ _)
    | run i w =>
      rw [spawned_succ_run hact]
      exact hbefore

variable {h code} {p : Proc I ε α}

/-- A thread after a step: an old one, one just started, or the rest of the one that made
its call. -/
theorem Config.thread_step {cfg : Config I σ ε α} {a : Action J ω}
    (hp : (cfg.step h code a).threads[i]? = some p) :
    cfg.threads[i]? = some p ∨
    (∃ j, a = .spawn j ∧ p = code j) ∨
    (∃ w c next, a = .run i w ∧ cfg.threads[i]? = some (.call c next) ∧
      p = next (h w c cfg.store).1) := by
  rcases cfg.step_cases h code a with
    ⟨j, rfl, hs⟩ | ⟨i', w, c, next, rfl, hi', hs⟩ | hs
  · rw [hs] at hp
    rw [List.getElem?_append] at hp
    split at hp
    · exact Or.inl hp
    · obtain ⟨_, hget⟩ := List.getElem?_eq_some_iff.mp hp
      exact Or.inr (Or.inl ⟨j, rfl, by simpa using hget.symm⟩)
  · rw [hs] at hp
    by_cases hne : i' = i
    · subst hne
      have hlt : i' < cfg.threads.length := (List.getElem?_eq_some_iff.mp hi').1
      rw [List.getElem?_set_self hlt] at hp
      exact Or.inr (Or.inr ⟨w, c, next, rfl, hi', (Option.some.inj hp).symm⟩)
    · rw [List.getElem?_set_ne hne] at hp
      exact Or.inl hp
  · rw [hs] at hp
    exact Or.inl hp

variable {start : Config I σ ε α}

/-- What every call of a procedure hands on to its rest stays true of a thread. -/
theorem thread_stays {T : Proc I ε α → Prop} (hcall : ∀ c next r, T (.call c next) → T (next r))
    (hle : k ≤ m) (hi : (configAt h code start acts k).threads[i]? = some p) (hp : T p) :
    ∃ q, (configAt h code start acts m).threads[i]? = some q ∧ T q := by
  induction hle with
  | refl => exact ⟨p, hi, hp⟩
  | @step m _ ih =>
    obtain ⟨q, hq, hT⟩ := ih
    have hlt := (List.getElem?_eq_some_iff.mp hq).1
    rw [configAt]
    rcases (configAt h code start acts m).step_cases h code (acts m) with
      ⟨j, _, hs⟩ | ⟨i', w, c, next, _, hi', hs⟩ | hs
    · rw [hs]
      exact ⟨q, (List.getElem?_append_left hlt).trans hq, hT⟩
    · rw [hs]
      by_cases hne : i' = i
      · subst hne
        rw [hi'] at hq
        cases hq
        exact ⟨_, List.getElem?_set_self hlt, hcall c next _ hT⟩
      · exact ⟨q, (List.getElem?_set_ne hne).trans hq, hT⟩
    · rw [hs]
      exact ⟨q, hq, hT⟩

theorem ended_stays (hended : p.ended) (hle : k ≤ m)
    (hi : (configAt h code start acts k).threads[i]? = some p) :
    (configAt h code start acts m).threads[i]? = some p := by
  have hcall : ∀ c next r, p = .call c next → p = next r := by
    rintro c next r rfl
    cases hended
  obtain ⟨q, hq, rfl⟩ := thread_stays hcall hle hi rfl
  exact hq

theorem configAt_store_succ (start : Config I σ ε α) (acts : Nat → Action J ω) (k : Nat) :
    (∃ i w c, CallsAt h code start acts k i w c ∧ (configAt h code start acts (k+1)).store =
        (h w c (configAt h code start acts k).store).2) ∨
    (configAt h code start acts (k+1)).store = (configAt h code start acts k).store := by
  rcases (configAt h code start acts k).step_cases h code (acts k) with
    ⟨j, _, hs⟩ | ⟨i, w, c, next, ha, hi, hs⟩ | hs
  · exact Or.inr (by simp only [configAt, hs])
  · exact Or.inl ⟨i, w, c, ⟨ha, next, hi⟩, by simp only [configAt, hs]⟩
  · exact Or.inr (by simp only [configAt, hs])

/-- What every call of a run keeps, holds of its store from some point on. -/
theorem store_stays {Q : σ → Prop} (hcall : ∀ l i w c, CallsAt h code start acts l i w c →
      Q (configAt h code start acts l).store → Q (h w c (configAt h code start acts l).store).2)
    (hle : k ≤ m) (hk : Q (configAt h code start acts k).store) :
    Q (configAt h code start acts m).store := by
  induction hle with
  | refl => exact hk
  | @step m _ hm =>
    rcases @configAt_store_succ _ _ _ _ _ _ h code start acts m with
      ⟨i, w, c, hcalls, hstore⟩ | hsame
    · rw [hstore]
      exact hcall m i w c hcalls hm
    · rw [hsame]
      exact hm

variable {c : I.Call}

/-- A call made at time `k` acts on the store of that time. -/
theorem CallsAt.store_succ (hcall : CallsAt h code start acts k i w c) :
    (configAt h code start acts (k+1)).store = (h w c (configAt h code start acts k).store).2 := by
  obtain ⟨hact, next, hi⟩ := hcall
  simp only [configAt, hact, Config.step, hi]

theorem CallsAt.unique {i' : Nat} {w' : ω} {c' : I.Call} (hcall : CallsAt h code start acts k i w c)
    (hcall' : CallsAt h code start acts k i' w' c') : i = i' ∧ w = w' ∧ c = c' := by
  obtain ⟨ha, next, hi⟩ := hcall
  obtain ⟨ha', next', hi'⟩ := hcall'
  rw [ha] at ha'
  cases ha'
  rw [hi] at hi'
  cases hi'
  exact ⟨rfl, rfl, rfl⟩

theorem length_threads_le (start : Config I σ ε α) (acts : Nat → Action J ω) (k : Nat) :
    (configAt h code start acts k).threads.length ≤ start.threads.length + k := by
  induction k with
  | zero => exact Nat.le_refl _
  | succ k ih =>
    rw [configAt]
    rcases (configAt h code start acts k).step_cases h code (acts k) with
      ⟨j, _, hs⟩ | ⟨i, w, c, next, _, _, hs⟩ | hs
    · rw [hs, List.length_append, List.length_singleton]
      omega
    · rw [hs, List.length_set]
      omega
    · rw [hs]
      omega

/-- A finite schedule, padded with a thread that does not exist. -/
def finitely (actions : List (Action J ω)) (idle : ω) (k : Nat) : Action J ω :=
  actions.getD k (.run actions.length idle)

variable {actions : List (Action J ω)} {idle : ω}

theorem finitely_of_le (hle : actions.length ≤ k) :
    finitely actions idle k = .run actions.length idle := by
  have hnone : actions[k]? = none := List.getElem?_eq_none hle
  simp [finitely, hnone]

theorem lt_length_of_callsAt (hempty : start.threads = [])
    (hcalls : CallsAt h code start (finitely actions idle) k i w c) : k < actions.length := by
  apply Nat.lt_of_not_le
  intro hlate
  have hbound : ∀ m, actions.length ≤ m →
      (configAt h code start (finitely actions idle) m).threads.length ≤ actions.length := by
    intro m hle
    induction hle with
    | refl =>
      have hlength : (configAt h code start (finitely actions idle)
          actions.length).threads.length ≤ start.threads.length + actions.length :=
        length_threads_le start _ _
      rw [hempty] at hlength
      simpa using hlength
    | @step m hle ih =>
      have hidle : finitely actions idle m = .run actions.length idle := finitely_of_le hle
      rcases (configAt h code start (finitely actions idle) m).step_cases h code
          (finitely actions idle m) with ⟨j, hspawn, _⟩ | ⟨i, w, c, next, _, _, hs⟩ | hs
      · rw [hidle] at hspawn
        cases hspawn
      · rw [configAt, hs, List.length_set]
        exact ih
      · rw [configAt, hs]
        exact ih
  obtain ⟨hact, next, hi⟩ := hcalls
  rw [finitely_of_le hlate] at hact
  cases hact
  have hlt := (List.getElem?_eq_some_iff.mp hi).1
  have hle := hbound k hlate
  omega

variable (h code) in
/-- The call that the `k`-th action makes, with its answer. -/
def callAt (start : Config I σ ε α) (acts : Nat → Action J ω) (k : Nat) : Option (ω × I.Call) :=
  match acts k with
  | .spawn _ => none
  | .run i w =>
    match (configAt h code start acts k).threads[i]? with
    | some (.call c _) => some (w, c)
    | _ => none

theorem CallsAt.callAt_eq (hcalls : CallsAt h code start acts k i w c) :
    callAt h code start acts k = some (w, c) := by
  obtain ⟨hact, next, hi⟩ := hcalls
  simp only [callAt, hact, hi]

theorem callsAt_of_callAt (hact : acts k = .run i w)
    (hcall : callAt h code start acts k = some (w, c)) : CallsAt h code start acts k i w c := by
  simp only [callAt, hact] at hcall
  cases hthread : (configAt h code start acts k).threads[i]? with
  | none => simp [hthread] at hcall
  | some p =>
    cases p with
    | ret | fail => simp [hthread] at hcall
    | call c' next =>
      simp only [hthread, Option.some.injEq, Prod.mk.injEq, true_and] at hcall
      subst hcall
      exact ⟨hact, next, hthread⟩

theorem exists_callsAt (hcall : callAt h code start acts k = some (w, c)) :
    ∃ i, CallsAt h code start acts k i w c := by
  cases hact : acts k with
  | spawn j => simp [callAt, hact] at hcall
  | run i w' =>
    have hcall' := hcall
    simp only [callAt, hact] at hcall'
    split at hcall'
    · cases hcall'
      exact ⟨i, callsAt_of_callAt hact hcall⟩
    · cases hcall'

/-- What holds of every call of a finite schedule can be checked. -/
theorem finitely_forall {Φ : Nat → ω → I.Call → Prop} [∀ k w c, Decidable (Φ k w c)]
    (hempty : start.threads = [])
    (hcheck : ∀ k < actions.length, (callAt h code start (finitely actions idle) k).all
      (fun x => Φ k x.1 x.2)) :
    ∀ k i w c, CallsAt h code start (finitely actions idle) k i w c → Φ k w c := by
  intro k i w c hcalls
  have hk := hcheck k (lt_length_of_callsAt hempty hcalls)
  rw [hcalls.callAt_eq] at hk
  exact of_decide_eq_true hk

/-- **The thread rule.**  What is said of the rest of each procedure holds throughout when
time keeps it, a procedure just started meets it, and one call hands it on. -/
theorem thread_invariant (T : Nat → Nat → Proc I ε α → Prop) (hempty : start.threads = [])
    (hlater : ∀ k i p, T k i p → T (k+1) i p) (hspawn : ∀ k i j, T k i (code j))
    (hcall : ∀ k i w c next, CallsAt h code start acts k i w c → T k i (.call c next) →
      T (k+1) i (next (h w c (configAt h code start acts k).store).1)) :
    ∀ k i p, (configAt h code start acts k).threads[i]? = some p → T k i p := by
  intro k
  induction k with
  | zero => simp [configAt, hempty]
  | succ k ih =>
    intro i p hp
    rcases Config.thread_step hp with hold | ⟨j, _, rfl⟩ | ⟨w, c, next, ha, hi, rfl⟩
    · exact hlater k i p (ih i p hold)
    · exact hspawn (k+1) i j
    · exact hcall k i w c next ⟨ha, next, hi⟩ (ih i _ hi)

variable {Φ : I.Call → Prop}

/-- **The precedence rule.**  When in every procedure a call of the kind `Φ`
comes after one that was answered with `Γ`, it does so in every run. -/
theorem preceded_at {Γ : (c : I.Call) → I.Ret c → Prop} (hempty : start.threads = [])
    (hcode : ∀ j, (code j).PrecededBy Γ Φ) (hcalls : CallsAt h code start acts k i w c) (hc : Φ c) :
    ∃ l < k, ∃ w' c' a, CallsAt h code start acts l i w' c' ∧
      (h w' c' (configAt h code start acts l).store).1 = .ok a ∧ Γ c' a := by
  have hthreads : ∀ k i p, (configAt h code start acts k).threads[i]? = some p →
      p.PrecededBy Γ Φ ∨ ∃ l < k, ∃ w' c' a, CallsAt h code start acts l i w' c' ∧
        (h w' c' (configAt h code start acts l).store).1 = .ok a ∧ Γ c' a := by
    refine thread_invariant _ hempty ?_ (fun k i j => Or.inl (hcode j)) ?_
    · rintro k i p (hpreceded | ⟨l, hl, hbefore⟩)
      · exact Or.inl hpreceded
      · exact Or.inr ⟨l, by omega, hbefore⟩
    · rintro k i w c next hcalls (hpreceded | ⟨l, hl, hbefore⟩)
      · rcases hpreceded.2 (h w c (configAt h code start acts k).store).1 with
          ⟨a, hok, hanswer⟩ | hrest
        · exact Or.inr ⟨k, by omega, w, c, a, hcalls, hok, hanswer⟩
        · exact Or.inl hrest
      · exact Or.inr ⟨l, by omega, hbefore⟩
  obtain ⟨_, next, hi⟩ := hcalls
  rcases hthreads k i _ hi with hpreceded | hbefore
  · exact absurd hc hpreceded.1
  · exact hbefore

theorem avoids_at (hempty : start.threads = []) (hcode : ∀ j, (code j).Avoids Φ)
    (hcalls : CallsAt h code start acts k i w c) : ¬ Φ c := by
  intro hc
  have hpreceded : ∀ j, (code j).PrecededBy (fun _ _ => False) Φ := fun j => (hcode j).precededBy
  obtain ⟨_, _, _, _, _, _, _, hnever⟩ := preceded_at hempty hpreceded hcalls hc
  exact hnever

end Transact
