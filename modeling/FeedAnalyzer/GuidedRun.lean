import FeedAnalyzer.InterleavedRun

/-!
# Procedures among others

A procedure learns something at one call and uses it at a later one, and meanwhile the
store moves on.  `Rely s s'` says what the others can have done between two calls.
`Guided` is a triple for such a procedure, and `guided_run` its run rule.
-/

namespace Transact

namespace Proc

variable {I : Interface} {σ ω ε α β : Type} (h : Handler I σ ω ε) (Rely : σ → σ → Prop)
  (Ok : I.Call → σ → Prop) {Q : Except ε α → σ → Prop} {p : Proc I ε α} {s : σ}

/-- Wherever the procedure makes a call it satisfies `Ok`, and where it ends `Q` holds. -/
def Guided (Q : Except ε α → σ → Prop) : Proc I ε α → σ → Prop
  | .ret a, s => Q (.ok a) s
  | .fail e, s => Q (.error e) s
  | .call c next, s =>
    ∀ s', Rely s s' → Ok c s' ∧ ∀ w, (next (h w c s').1).Guided Q (h w c s').2

variable {h Rely Ok} {Q' : Except ε α → σ → Prop} {c : I.Call}

theorem Guided.mono (hp : p.Guided h Rely Ok Q s) (hQ : ∀ r s, Q r s → Q' r s) :
    p.Guided h Rely Ok Q' s := by
  induction p generalizing s with
  | ret | fail => exact hQ _ _ hp
  | call c next ih =>
    intro s' hs
    exact ⟨(hp s' hs).1, fun w => ih _ ((hp s' hs).2 w)⟩

theorem Guided.bind {Q' : Except ε β → σ → Prop} {f : α → Proc I ε β} (hp : p.Guided h Rely Ok Q s)
    (hok : ∀ a s, Q (.ok a) s → (f a).Guided h Rely Ok Q' s)
    (herror : ∀ e s, Q (.error e) s → Q' (.error e) s) : (p.bind f).Guided h Rely Ok Q' s := by
  induction p generalizing s with
  | ret a => exact hok a s hp
  | fail e => exact herror e s hp
  | call c next ih =>
    intro s' hs
    exact ⟨(hp s' hs).1, fun w => ih _ ((hp s' hs).2 w)⟩

theorem guided_perform {Q : Except ε β → σ → Prop} {f : I.Ret c → Proc I ε β}
    (hc : ∀ s', Rely s s' → Ok c s')
    (hok : ∀ s' w a, Rely s s' → (h w c s').1 = .ok a → (f a).Guided h Rely Ok Q (h w c s').2)
    (herror : ∀ s' w e, Rely s s' → (h w c s').1 = .error e → Q (.error e) (h w c s').2) :
    ((perform c).bind f).Guided h Rely Ok Q s := by
  intro s' hs
  refine ⟨hc s' hs, ?_⟩
  intro w
  cases hanswer : (h w c s').1 with
  | ok a => exact hok s' w a hs hanswer
  | error e => exact herror s' w e hs hanswer

theorem guided_last (hc : ∀ s', Rely s s' → Ok c s') :
    (perform c : Proc I ε (I.Ret c)).Guided h Rely Ok (fun _ _ => True) s := by
  intro s' hs
  refine ⟨hc s' hs, ?_⟩
  intro w
  cases (h w c s').1 <;> trivial

theorem Guided.catchWith {handler : ε → Proc I ε α} (hp : p.Guided h Rely Ok Q s)
    (hok : ∀ a s, Q (.ok a) s → Q' (.ok a) s)
    (herror : ∀ e s, Q (.error e) s → (handler e).Guided h Rely Ok Q' s) :
    (p.catchWith handler).Guided h Rely Ok Q' s := by
  induction p generalizing s with
  | ret a => exact hok a s hp
  | fail e => exact herror e s hp
  | call c next ih =>
    intro s' hs
    exact ⟨(hp s' hs).1, fun w => ih _ ((hp s' hs).2 w)⟩

/-- What the others and the calls outside `Φ` keep guides a procedure without
other calls. -/
theorem guided_of_avoids {Φ : I.Call → Prop} {K : σ → Prop} (hp : p.Avoids Φ)
    (hrely : ∀ s s', Rely s s' → K s → K s') (hok : ∀ c s, ¬ Φ c → K s → Ok c s)
    (hkeep : ∀ w c s, ¬ Φ c → K s → K (h w c s).2) (hs : K s) :
    p.Guided h Rely Ok (fun _ s' => K s') s := by
  induction p generalizing s with
  | ret | fail => exact hs
  | call c next ih =>
    intro s' hs'
    have hk := hrely s s' hs' hs
    exact ⟨hok c s' hp.1 hk, fun w => ih _ (hp.2 _) (hkeep w c s' hp.1 hk)⟩

theorem Guided.later {s' : σ} (htrans : ∀ s s' s'', Rely s s' → Rely s' s'' → Rely s s'')
    (hQ : ∀ r s s', Q r s → Rely s s' → Q r s') (hp : p.Guided h Rely Ok Q s) (hs : Rely s s') :
    p.Guided h Rely Ok Q s' := by
  cases p with
  | ret | fail => exact hQ _ s s' hp hs
  | call c next =>
    intro s'' hs'
    exact hp s'' (htrans s s' s'' hs hs')

end Proc

variable {I : Interface} {σ ω ε α J : Type} {h : Handler I σ ω ε} {code : J → Proc I ε α}
  {R : σ → σ → Prop} {C : I.Call → σ → Prop} {V : σ → Prop}

/-- **The run rule.**  In a run of guided procedures, with `R` as `Rely` and `C` as `Ok`,
`V` holds, and what is left of each is guided. -/
theorem guided_run {start : Config I σ ε α} {acts : Nat → Action J ω}
    (htrans : ∀ s s' s'', R s s' → R s' s'' → R s s'')
    (hempty : start.threads = []) (hstart : V start.store)
    (hcode : ∀ j s, V s → (code j).Guided h R C (fun _ _ => True) s)
    (hrefl : ∀ s, V s → R s s)
    (hstep : ∀ w c s, V s → C c s → V (h w c s).2 ∧ R s (h w c s).2) (k : Nat) :
    V (configAt h code start acts k).store ∧
      ∀ (i : Nat) (p : Proc I ε α), (configAt h code start acts k).threads[i]? = some p →
        p.Guided h R C (fun _ _ => True) (configAt h code start acts k).store := by
  induction k with
  | zero => exact ⟨hstart, fun i p hp => by simp [configAt, hempty] at hp⟩
  | succ k ih =>
    obtain ⟨hinv, hthreads⟩ := ih
    rcases @configAt_store_succ I σ ω ε α J h code start acts k with
      ⟨i₀, w, c, hcalls, hstore⟩ | hstore
    · -- a call is made: it is guided, so it keeps the invariant
      obtain ⟨hact, next, hi₀⟩ := hcalls
      have hguided := hthreads i₀ _ hi₀ _ (hrefl _ hinv)
      obtain ⟨hinv', hrely⟩ := hstep w c _ hinv hguided.1
      rw [hstore]
      refine ⟨hinv', ?_⟩
      intro i p hp
      rcases Config.thread_step hp with hold | ⟨j, hspawn, _⟩ | ⟨w', c', next', hact', hi, rfl⟩
      · exact (hthreads i p hold).later htrans (fun _ _ _ _ _ => trivial) hrely
      · rw [hact] at hspawn
        cases hspawn
      · rw [hact] at hact'
        cases hact'
        rw [hi₀] at hi
        cases hi
        exact hguided.2 w
    · rw [hstore]
      refine ⟨hinv, ?_⟩
      intro i p hp
      rcases Config.thread_step hp with hold | ⟨j, _, rfl⟩ | ⟨w, c, next, hact, hi, rfl⟩
      · exact hthreads i p hold
      · exact hcode j _ hinv
      · have hguided := hthreads i _ hi _ (hrefl _ hinv)
        have hrest := hguided.2 w
        have hcalls : CallsAt h code start acts k i w c := ⟨hact, next, hi⟩
        rw [← hcalls.store_succ, hstore] at hrest
        exact hrest

end Transact
