import FeedAnalyzer.InterleavedRun

/-!
# What a procedure asks for, given what it is told

`Conforms Adm Φ R` says that as long as `Adm` admits every answer, every call satisfies
`Φ` and every normal result `R`.  `conforms_at` is the run rule; `Adm` and `Φ` may
depend on the time, so that it also carries facts about the store.
-/

namespace Transact

namespace Proc

variable {I : Interface} {σ ω ε α β : Type} {R : α → Prop} {p : Proc I ε α}

/-- On every path of admitted answers, each call satisfies `Φ` and a normal
result satisfies `R`. -/
def Conforms (Adm : (c : I.Call) → Except ε (I.Ret c) → Prop) (Φ : I.Call → Prop)
    (R : α → Prop) : Proc I ε α → Prop
  | .ret a => R a
  | .fail _ => True
  | .call c next => Φ c ∧ ∀ r, Adm c r → (next r).Conforms Adm Φ R

variable {Adm : (c : I.Call) → Except ε (I.Ret c) → Prop} {Φ : I.Call → Prop} {f : α → Proc I ε β}
  {Ψ : I.Call → Prop}

section

variable (hp : p.Conforms Adm Φ R)

include hp

theorem Conforms.mono {R' : α → Prop} (hR : ∀ a, R a → R' a) : p.Conforms Adm Φ R' := by
  induction p with
  | ret a => exact hR a hp
  | fail e => trivial
  | call c next ih => exact ⟨hp.1, fun r hr => ih r (hp.2 r hr)⟩

theorem Conforms.bind {R' : β → Prop} (hf : ∀ a, R a → (f a).Conforms Adm Φ R') :
    (p.bind f).Conforms Adm Φ R' := by
  induction p with
  | ret a => exact hf a hp
  | fail e => trivial
  | call c next ih => exact ⟨hp.1, fun r hr => ih r (hp.2 r hr)⟩

theorem Conforms.catchWith {handler : ε → Proc I ε α} (hh : ∀ e, (handler e).Conforms Adm Φ R) :
    (p.catchWith handler).Conforms Adm Φ R := by
  induction p with
  | ret a => exact hp
  | fail e => exact hh e
  | call c next ih => exact ⟨hp.1, fun r hr => ih r (hp.2 r hr)⟩

theorem Conforms.weaken {Φ' : I.Call → Prop} (hΦ : ∀ c, Φ c → Φ' c) : p.Conforms Adm Φ' R := by
  induction p with
  | ret a => exact hp
  | fail e => trivial
  | call c next ih => exact ⟨hΦ c hp.1, fun r hr => ih r (hp.2 r hr)⟩

end

/-- With every answer admitted, the calls outside `Φ` are avoided. -/
theorem Conforms.avoids (hp : p.Conforms (fun _ _ => True) Φ R) (hΦ : ∀ c, Φ c → ¬ Ψ c) :
    p.Avoids Ψ := by
  induction p with
  | ret | fail => trivial
  | call c next ih => exact ⟨hΦ c hp.1, fun r => ih r (hp.2 r trivial)⟩

theorem Avoids.conforms (hp : p.Avoids Ψ) (hΦ : ∀ c, ¬ Ψ c → Φ c) :
    p.Conforms Adm Φ (fun _ => True) := by
  induction p with
  | ret | fail => trivial
  | call c next ih => exact ⟨hΦ c hp.1, fun r _ => ih r (hp.2 r)⟩

theorem conforms_onOk {R : β → Prop} {r : Except ε α} (hf : ∀ a, r = .ok a → (f a).Conforms Adm Φ R) :
    (onOk f r).Conforms Adm Φ R := by
  cases r with
  | ok a => exact hf a rfl
  | error e => trivial

theorem conforms_perform {R : β → Prop} {c : I.Call} {f : I.Ret c → Proc I ε β} (hc : Φ c)
    (hf : ∀ a, Adm c (.ok a) → (f a).Conforms Adm Φ R) : ((perform c).bind f).Conforms Adm Φ R := by
  rw [perform_bind]
  constructor
  · exact hc
  · intro r hr
    apply conforms_onOk
    intro a hok
    subst hok
    exact hf a hr

theorem conforms_call {c : I.Call} (hc : Φ c) :
    (perform c : Proc I ε (I.Ret c)).Conforms Adm Φ (fun a => Adm c (.ok a)) := by
  constructor
  · exact hc
  · intro r hr
    apply conforms_onOk
    intro a hok
    subst hok
    exact hr

end Proc

variable {I : Interface} {σ ω ε α J : Type} {h : Handler I σ ω ε} {code : J → Proc I ε α}

/-- **The conformance rule.**  Where every answer given so far is admitted, the
call that is made now is allowed. -/
theorem conforms_at {start : Config I σ ε α} {acts : Nat → Action J ω}
    {Adm : (c : I.Call) → Except ε (I.Ret c) → Prop} {Φ : I.Call → Prop} {R : α → Prop}
    (hempty : start.threads = []) (hcode : ∀ j, (code j).Conforms Adm Φ R) {k : Nat}
    (hadm : ∀ l i w c, l < k → CallsAt h code start acts l i w c →
      Adm c (h w c (configAt h code start acts l).store).1)
    {i : Nat} {w : ω} {c : I.Call} (hcalls : CallsAt h code start acts k i w c) : Φ c := by
  have hthreads : ∀ (l i : Nat) (p : Proc I ε α),
      (configAt h code start acts l).threads[i]? = some p → l ≤ k → Proc.Conforms Adm Φ R p := by
    apply thread_invariant (fun l _ p => l ≤ k → Proc.Conforms Adm Φ R p) hempty
    · intro l i p hp hle
      exact hp (by omega)
    · intro l i j _
      exact hcode j
    · intro l i w c next hcalls hp hle
      have hbefore : l ≤ k := by omega
      exact (hp hbefore).2 _ (hadm l i w c (by omega) hcalls)
  obtain ⟨_, next, hi⟩ := hcalls
  exact (hthreads k i _ hi (Nat.le_refl k)).1

end Transact
