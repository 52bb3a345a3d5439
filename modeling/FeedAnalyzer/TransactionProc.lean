/-!
# Procedures that act on a store one atomic call at a time

A `Proc` is the tree of a program's calls: repository methods, each one transaction, and
calls to other services.  Running one call is left to a `Handler`, which reads the store and
one answer `w` of the environment.

* `Proc.advance` feeds a list of answers to a procedure; a list that ends early is a crash
  between two calls.
* `Proc.Meets` is a triple with a crash condition: wherever the procedure is cut off the
  store satisfies `C`, and where it ends the result satisfies `Q`.
-/

namespace Transact

/-- The calls of a procedure, and the type of each answer. -/
structure Interface where
  Call : Type
  Ret : Call → Type

/-- A sequential procedure, as the tree of its calls.  A call that raises hands its
exception to the continuation. -/
inductive Proc (I : Interface) (ε α : Type) : Type where
  | ret (a : α)
  | fail (e : ε)
  | call (c : I.Call) (next : Except ε (I.Ret c) → Proc I ε α)

/-- How one call acts on the store, given its answer. -/
abbrev Handler (I : Interface) (σ ω ε : Type) : Type :=
  ω → (c : I.Call) → σ → Except ε (I.Ret c) × σ

/-- Run a transaction: a fault or an exception rolls it back. -/
def commit {σ ε α : Type} (fault : Option ε) (transaction : σ → Except ε (α × σ)) (s : σ) :
    Except ε α × σ :=
  match fault with
  | some e => (.error e, s)
  | none =>
    match transaction s with
    | .ok (a, s') => (.ok a, s')
    | .error e => (.error e, s)

section Commit

variable {σ ε α : Type} {fault : Option ε} {transaction : σ → Except ε (α × σ)} {s : σ}

theorem commit_eq_ok {a : α} (hok : (commit fault transaction s).1 = .ok a) :
    fault = none ∧ transaction s = .ok (a, (commit fault transaction s).2) := by
  unfold commit at hok ⊢
  cases fault with
  | some e => cases hok
  | none =>
    cases hrun : transaction s with
    | ok result =>
      have ha : result.1 = a := by simpa [hrun] using hok
      exact ⟨rfl, by simp [← ha]⟩
    | error e => simp [hrun] at hok

/-- A call raises on a fault or when its transaction does, and then the store
is as before. -/
theorem commit_eq_error {e : ε} (herror : (commit fault transaction s).1 = .error e) :
    (commit fault transaction s).2 = s ∧ (fault = some e ∨ transaction s = .error e) := by
  unfold commit at herror ⊢
  cases fault with
  | some e' =>
    cases herror
    exact ⟨rfl, Or.inl rfl⟩
  | none =>
    cases hrun : transaction s with
    | ok result => simp [hrun] at herror
    | error e' =>
      simp only [hrun, Except.error.injEq] at herror
      exact ⟨rfl, Or.inr (by rw [herror])⟩

variable {Q : σ → Prop}

/-- What holds of the store before a call, and after its transaction, holds
after the call. -/
theorem commit_rule (hbefore : Q s) (hafter : ∀ a s', transaction s = .ok (a, s') → Q s') :
    Q (commit fault transaction s).2 := by
  cases hres : (commit fault transaction s).1 with
  | error e => rw [(commit_eq_error hres).1]; exact hbefore
  | ok a => exact hafter a _ (commit_eq_ok hres).2

/-- A transaction that raises nothing: a fault may keep it from being committed. -/
theorem commit_done {a : α} {s' : σ} (hbefore : Q s) (hdone : transaction s = .ok (a, s'))
    (hafter : Q s') : Q (commit fault transaction s).2 := by
  apply commit_rule hbefore
  intro _ _ hok
  rw [hdone] at hok
  cases hok
  exact hafter

end Commit

namespace Proc

variable {I : Interface} {σ ω ε α β : Type}
  {p : Proc I ε α} {h : Handler I σ ω ε} {c : I.Call} {Φ : I.Call → Prop}
  {f : α → Proc I ε β} {Γ : (c : I.Call) → I.Ret c → Prop}

/-- Sequential composition; an exception skips the rest. -/
def bind : Proc I ε α → (α → Proc I ε β) → Proc I ε β
  | .ret a, f => f a
  | .fail e, _ => .fail e
  | .call c next, f => .call c (fun r => (next r).bind f)

instance : Monad (Proc I ε) where
  pure := .ret
  bind := bind

/-- Continue with `f` on a normal answer and raise on an exception. -/
def onOk (f : α → Proc I ε β) : Except ε α → Proc I ε β
  | .ok a => f a
  | .error e => .fail e

/-- Make one call and return its answer. -/
def perform (c : I.Call) : Proc I ε (I.Ret c) :=
  .call c (onOk .ret)

/-- `try … except`: hand an exception raised by `p` to `handler`. -/
def catchWith (handler : ε → Proc I ε α) : Proc I ε α → Proc I ε α
  | .ret a => .ret a
  | .fail e => handler e
  | .call c next => .call c (fun r => (next r).catchWith handler)

variable (a : α)

@[simp] theorem pure_eq : (pure a : Proc I ε α) = .ret a := rfl

@[simp] theorem bind_eq (p : Proc I ε α) (f : α → Proc I ε β) : (p >>= f) = p.bind f := rfl

@[simp] theorem ret_bind (f : α → Proc I ε β) : (Proc.ret a : Proc I ε α).bind f = f a := rfl

@[simp] theorem fail_bind (e : ε) (f : α → Proc I ε β) :
    (Proc.fail e : Proc I ε α).bind f = .fail e := rfl

theorem bind_assoc {γ : Type} (p : Proc I ε α) (f : α → Proc I ε β) (g : β → Proc I ε γ) :
    (p.bind f).bind g = p.bind (fun a => (f a).bind g) := by
  induction p with
  | ret | fail => rfl
  | call c next ih => exact congrArg (Proc.call c) (funext ih)

@[simp] theorem onOk_ok (f : α → Proc I ε β) (a : α) : onOk f (.ok a : Except ε α) = f a := rfl

@[simp] theorem onOk_error (f : α → Proc I ε β) (e : ε) :
    onOk f (.error e : Except ε α) = .fail e := rfl

@[simp] theorem perform_bind (c : I.Call) (f : I.Ret c → Proc I ε β) :
    (perform c : Proc I ε (I.Ret c)).bind f = .call c (onOk f) := by
  show Proc.call c (fun r => (onOk .ret r).bind f) = _
  congr 1
  funext r
  cases r <;> rfl

/-- Feed answers to a procedure, one for each call: what is left of it, and the store. -/
def advance (h : Handler I σ ω ε) : Proc I ε α → List ω → σ → Proc I ε α × σ
  | .call c next, w :: ws, s => (next (h w c s).1).advance h ws (h w c s).2
  | p, _, s => (p, s)

@[simp] theorem advance_nil (h : Handler I σ ω ε) (p : Proc I ε α) (s : σ) :
    p.advance h [] s = (p, s) := by
  cases p <;> rfl

@[simp] theorem advance_ret (h : Handler I σ ω ε) (a : α) (ws : List ω) (s : σ) :
    (Proc.ret a : Proc I ε α).advance h ws s = (.ret a, s) := by
  cases ws <;> rfl

@[simp] theorem advance_fail (h : Handler I σ ω ε) (e : ε) (ws : List ω) (s : σ) :
    (Proc.fail e : Proc I ε α).advance h ws s = (.fail e, s) := by
  cases ws <;> rfl

@[simp] theorem advance_call (h : Handler I σ ω ε) (c : I.Call)
    (next : Except ε (I.Ret c) → Proc I ε α) (w : ω) (ws : List ω) (s : σ) :
    (Proc.call c next).advance h (w :: ws) s = (next (h w c s).1).advance h ws (h w c s).2 := rfl

def returned : Proc I ε α → Option α
  | .ret a => some a
  | _ => none

theorem eq_ret_of_returned {a : α} (hp : p.returned = some a) : p = .ret a := by
  cases p with
  | ret b => exact congrArg Proc.ret (Option.some.inj hp)
  | _ => cases hp

variable {w : ω} {ws : List ω} {s : σ} {Inv : σ → Prop} {r : Except ε α} {handler : ε → Proc I ε α}
  {Q : α → Prop}

/-- A call of a run that returns has been answered, and the run goes on with
the answer. -/
theorem returned_perform {f : I.Ret c → Proc I ε α} {a : α}
    (hret : (((perform c).bind f).advance h (w :: ws) s).1.returned = some a) :
    ∃ b, (h w c s).1 = .ok b ∧ ∀ ws', ((perform c).bind f).advance h (w :: ws') s =
      (f b).advance h ws' (h w c s).2 := by
  rw [perform_bind, advance_call] at hret
  cases hres : (h w c s).1 with
  | error e =>
    rw [hres, onOk_error, advance_fail] at hret
    cases hret
  | ok b =>
    refine ⟨b, rfl, fun ws' => ?_⟩
    rw [perform_bind, advance_call, hres]
    rfl

/-- A state predicate kept by every call is kept by a procedure, wherever it
is cut off. -/
theorem advance_preserves (hcall : ∀ w c s, Inv s → Inv (h w c s).2) (p : Proc I ε α) (ws : List ω)
    (s : σ) (hs : Inv s) : Inv (p.advance h ws s).2 := by
  induction ws generalizing p s with
  | nil => simpa using hs
  | cons w ws ih =>
    cases p with
    | ret | fail => simpa using hs
    | call c next => exact ih _ _ (hcall w c s hs)

/-- **Complete runs.**  Started on `s`, the procedure ends with `r` on `s'`, for some
answers. -/
def Ends (h : Handler I σ ω ε) : Proc I ε α → σ → Except ε α → σ → Prop
  | .ret a, s, r, s' => r = .ok a ∧ s' = s
  | .fail e, s, r, s' => r = .error e ∧ s' = s
  | .call c next, s, r, s' => ∃ w, (next (h w c s).1).Ends h (h w c s).2 r s'

theorem ends_iff_advance {s' : σ} :
    p.Ends h s r s' ↔ ∃ ws, p.advance h ws s = (onOk .ret r, s') := by
  induction p generalizing s with
  | ret | fail => cases r <;> simp [Ends, eq_comm]
  | call c next ih =>
    constructor
    · rintro ⟨w, hends⟩
      obtain ⟨ws, hws⟩ := (ih _).mp hends
      exact ⟨w :: ws, hws⟩
    · rintro ⟨ws, hws⟩
      cases ws with
      | nil => cases r <;> simp at hws
      | cons w ws => exact ⟨w, (ih _).mpr ⟨ws, hws⟩⟩

/-- Run to the end, with one answer to every call. -/
def finish (h : Handler I σ ω ε) (w : ω) : Proc I ε α → σ → Except ε α × σ
  | .ret a, s => (.ok a, s)
  | .fail e, s => (.error e, s)
  | .call c next, s => (next (h w c s).1).finish h w (h w c s).2

theorem finish_perform {f : I.Ret c → Proc I ε α} {b : I.Ret c} (hok : (h w c s).1 = .ok b) :
    ((perform c).bind f).finish h w s = (f b).finish h w (h w c s).2 := by
  rw [perform_bind]
  show (onOk f (h w c s).1).finish h w (h w c s).2 = _
  rw [hok]
  rfl

/-- A complete run whose first call raises nothing goes on with its answer. -/
theorem ends_call_onOk {f : I.Ret c → Proc I ε α} {s' : σ}
    (hends : (Proc.call c (onOk f)).Ends h s r s') :
    (∃ w a, (h w c s).1 = .ok a ∧ (f a).Ends h (h w c s).2 r s') ∨
      (∃ w e, (h w c s).1 = .error e ∧ r = .error e) := by
  obtain ⟨w, hrest⟩ := hends
  cases hres : (h w c s).1 with
  | ok a =>
    rw [hres] at hrest
    exact Or.inl ⟨w, a, hres, hrest⟩
  | error e =>
    rw [hres] at hrest
    exact Or.inr ⟨w, e, hres, hrest.1⟩

/-- No call that the procedure can still make satisfies `Φ`. -/
def Avoids (Φ : I.Call → Prop) : Proc I ε α → Prop
  | .ret _ => True
  | .fail _ => True
  | .call c next => ¬ Φ c ∧ ∀ r, (next r).Avoids Φ

theorem Avoids.mono {Φ' : I.Call → Prop} (hp : p.Avoids Φ') (himp : ∀ c, Φ c → Φ' c) :
    p.Avoids Φ := by
  induction p with
  | ret | fail => trivial
  | call c next ih => exact ⟨fun hc => hp.1 (himp c hc), fun r => ih r (hp.2 r)⟩

theorem Avoids.bind (hp : p.Avoids Φ) (hf : ∀ a, (f a).Avoids Φ) : (p.bind f).Avoids Φ := by
  induction p with
  | ret a => exact hf a
  | fail e => trivial
  | call c next ih => exact ⟨hp.1, fun r => ih r (hp.2 r)⟩

theorem Avoids.catchWith (hp : p.Avoids Φ) (hh : ∀ e, (handler e).Avoids Φ) :
    (p.catchWith handler).Avoids Φ := by
  induction p with
  | ret a => trivial
  | fail e => exact hh e
  | call c next ih => exact ⟨hp.1, fun r => ih r (hp.2 r)⟩

/-- What every call outside `Φ` keeps, a procedure without such calls keeps,
wherever it is cut off. -/
theorem Avoids.advance_preserves (hp : p.Avoids Φ)
    (hcall : ∀ w c s, ¬ Φ c → Inv s → Inv (h w c s).2) (ws : List ω) (hs : Inv s) :
    Inv (p.advance h ws s).2 := by
  induction ws generalizing p s with
  | nil => simpa using hs
  | cons w ws ih =>
    cases p with
    | ret | fail => simpa using hs
    | call c next => exact ih (hp.2 _) (hcall w c s hp.1 hs)

theorem avoids_onOk (hf : ∀ a, (f a).Avoids Φ) : ∀ r : Except ε α, (onOk f r).Avoids Φ
  | .ok a => hf a
  | .error _ => trivial

theorem avoids_perform {f : I.Ret c → Proc I ε α} (hc : ¬ Φ c) (hf : ∀ a, (f a).Avoids Φ) :
    ((perform c).bind f).Avoids Φ := by
  rw [perform_bind]
  exact ⟨hc, avoids_onOk hf⟩

/-- A call that satisfies `Φ` comes after one answered with `Γ`. -/
def PrecededBy (Γ : (c : I.Call) → I.Ret c → Prop) (Φ : I.Call → Prop) : Proc I ε α → Prop
  | .ret _ => True
  | .fail _ => True
  | .call c next =>
    ¬ Φ c ∧ ∀ r, (∃ a, r = .ok a ∧ Γ c a) ∨ (next r).PrecededBy Γ Φ

theorem Avoids.precededBy (hp : p.Avoids Φ) : p.PrecededBy Γ Φ := by
  induction p with
  | ret | fail => trivial
  | call c next ih => exact ⟨hp.1, fun r => Or.inr (ih r (hp.2 r))⟩

theorem PrecededBy.bind_avoids (hp : p.PrecededBy Γ Φ) (hf : ∀ a, (f a).Avoids Φ) :
    (p.bind f).PrecededBy Γ Φ := by
  induction p with
  | ret a => exact (hf a).precededBy
  | fail e => trivial
  | call c next ih => exact ⟨hp.1, fun r => (hp.2 r).imp id (ih r)⟩

theorem Avoids.bind_precededBy (hp : p.Avoids Φ) (hf : ∀ a, (f a).PrecededBy Γ Φ) :
    (p.bind f).PrecededBy Γ Φ := by
  induction p with
  | ret a => exact hf a
  | fail e => trivial
  | call c next ih => exact ⟨hp.1, fun r => Or.inr (ih r (hp.2 r))⟩

theorem precededBy_perform {f : I.Ret c → Proc I ε α} (hc : ¬ Φ c)
    (hf : ∀ a, Γ c a ∨ (f a).PrecededBy Γ Φ) : ((perform c).bind f).PrecededBy Γ Φ := by
  refine ⟨hc, ?_⟩
  intro r
  cases r with
  | ok a => exact (hf a).imp (fun h => ⟨a, rfl, h⟩) id
  | error e => exact Or.inr trivial

/-- Every normal result of the procedure satisfies `Q`. -/
def Returns (Q : α → Prop) : Proc I ε α → Prop
  | .ret a => Q a
  | .fail _ => True
  | .call _ next => ∀ r, (next r).Returns Q

theorem returns_true (p : Proc I ε α) : p.Returns (fun _ => True) := by
  induction p with
  | ret | fail => trivial
  | call c next ih => exact ih

theorem Returns.bind {Q' : β → Prop} (hp : p.Returns Q) (hf : ∀ a, Q a → (f a).Returns Q') :
    (p.bind f).Returns Q' := by
  induction p with
  | ret a => exact hf a hp
  | fail e => trivial
  | call c next ih => exact fun r => ih r (hp r)

theorem Returns.catchWith (hp : p.Returns Q) (hh : ∀ e, (handler e).Returns Q) :
    (p.catchWith handler).Returns Q := by
  induction p with
  | ret a => exact hp
  | fail e => exact hh e
  | call c next ih => exact fun r => ih r (hp r)

theorem returns_onOk {Q : β → Prop} (hf : ∀ a, (f a).Returns Q) :
    ∀ r : Except ε α, (onOk f r).Returns Q
  | .ok a => hf a
  | .error _ => trivial

theorem returns_perform {Q : β → Prop} {f : I.Ret c → Proc I ε β} (hf : ∀ a, (f a).Returns Q) :
    ((perform c).bind f).Returns Q := by
  rw [perform_bind]
  exact returns_onOk hf

/-- A continuation has to avoid `Φ` only at results the first part can
return. -/
theorem Avoids.bind_returns (hp : p.Avoids Φ) (hreturns : p.Returns Q)
    (hf : ∀ a, Q a → (f a).Avoids Φ) : (p.bind f).Avoids Φ := by
  induction p with
  | ret a => exact hf a hreturns
  | fail e => trivial
  | call c next ih => exact ⟨hp.1, fun r => ih r (hp.2 r) (hreturns r)⟩

section CrashTriples

variable (h : Handler I σ ω ε) (A : ω → I.Call → σ → Prop) (C : σ → Prop)
  {Q : Except ε α → σ → Prop} {p : Proc I ε α} {s : σ} {f : α → Proc I ε β} {c : I.Call}

/-- **Crash triple.**  Answered as `A` admits, the store satisfies `C` wherever the
procedure is cut off, and `Q` when it ends. -/
def Meets (Q : Except ε α → σ → Prop) : Proc I ε α → σ → Prop
  | .ret a, s => Q (.ok a) s
  | .fail e, s => Q (.error e) s
  | .call c next, s => C s ∧ ∀ w, A w c s → (next (h w c s).1).Meets Q (h w c s).2

/-- The answers of a script are admitted, each at the call it meets. -/
def Admitted : Proc I ε α → List ω → σ → Prop
  | .call c next, w :: ws, s => A w c s ∧ (next (h w c s).1).Admitted ws (h w c s).2
  | _, _, _ => True

instance decidableAdmitted [∀ w c s, Decidable (A w c s)] :
    ∀ (p : Proc I ε α) (ws : List ω) (s : σ), Decidable (p.Admitted h A ws s)
  | .ret _, _, _ => isTrue trivial
  | .fail _, _, _ => isTrue trivial
  | .call _ _, [], _ => isTrue trivial
  | .call c next, w :: ws, s =>
    have := decidableAdmitted (next (h w c s).1) ws (h w c s).2
    inferInstanceAs (Decidable (A w c s ∧ (next (h w c s).1).Admitted h A ws (h w c s).2))

variable {h A C}

theorem Meets.mono {Q' : Except ε α → σ → Prop} (hp : p.Meets h A C Q s)
    (hQ : ∀ r s, Q r s → Q' r s) : p.Meets h A C Q' s := by
  induction p generalizing s with
  | ret | fail => exact hQ _ _ hp
  | call c next ih => exact ⟨hp.1, fun w hw => ih _ (hp.2 w hw)⟩

theorem Meets.mono_cut {C' : σ → Prop} (hp : p.Meets h A C Q s) (hC : ∀ s, C s → C' s) :
    p.Meets h A C' Q s := by
  induction p generalizing s with
  | ret | fail => exact hp
  | call c next ih => exact ⟨hC s hp.1, fun w hw => ih _ (hp.2 w hw)⟩

variable {R : α → Prop}

theorem Meets.and_returns (hp : p.Meets h A C Q s) (hR : p.Returns R) :
    p.Meets h A C (fun r s => Q r s ∧ ∀ a, r = .ok a → R a) s := by
  induction p generalizing s with
  | ret a =>
    refine ⟨hp, fun b hb => ?_⟩
    cases hb
    exact hR
  | fail e => exact ⟨hp, fun b hb => by cases hb⟩
  | call c next ih => exact ⟨hp.1, fun w hw => ih _ (hp.2 w hw) (hR _)⟩

/-- The composition rule: what the first part ends in is what the rest starts
from. -/
theorem Meets.bind {Q : Except ε β → σ → Prop}
    (hp : p.Meets h A C (fun r s => (onOk f r).Meets h A C Q s) s) :
    (p.bind f).Meets h A C Q s := by
  induction p generalizing s with
  | ret | fail => exact hp
  | call c next ih => exact ⟨hp.1, fun w hw => ih _ (hp.2 w hw)⟩

theorem Meets.catchWith (hp : p.Meets h A C (fun r s =>
      (match r with
      | .ok a => Proc.ret a
      | .error e => handler e : Proc I ε α).Meets h A C Q s) s) :
    (p.catchWith handler).Meets h A C Q s := by
  induction p generalizing s with
  | ret | fail => exact hp
  | call c next ih => exact ⟨hp.1, fun w hw => ih _ (hp.2 w hw)⟩

/-- The rule for a call: where it raises, the procedure ends. -/
theorem meets_perform {Q : Except ε β → σ → Prop} {f : I.Ret c → Proc I ε β} (hcut : C s)
    (hok : ∀ w a, A w c s → (h w c s).1 = .ok a → (f a).Meets h A C Q (h w c s).2)
    (herror : ∀ w e, A w c s → (h w c s).1 = .error e → Q (.error e) (h w c s).2) :
    ((perform c).bind f).Meets h A C Q s := by
  refine ⟨hcut, fun w hw => ?_⟩
  cases hres : (h w c s).1 with
  | ok a => exact hok w a hw hres
  | error e => exact herror w e hw hres

theorem meets_call {Q : Except ε (I.Ret c) → σ → Prop} (hcut : C s)
    (hend : ∀ w, A w c s → Q (h w c s).1 (h w c s).2) :
    (perform c : Proc I ε (I.Ret c)).Meets h A C Q s := by
  refine ⟨hcut, fun w hw => ?_⟩
  have hQ := hend w hw
  cases hres : (h w c s).1 with
  | _ => rw [hres] at hQ; exact hQ

/-- Soundness: after any admitted answers, what is left of the procedure still
meets its specification. -/
theorem Meets.advance (hp : p.Meets h A C Q s) (ws : List ω) (hws : p.Admitted h A ws s) :
    (p.advance h ws s).1.Meets h A C Q (p.advance h ws s).2 := by
  induction ws generalizing p s with
  | nil => simpa using hp
  | cons w ws ih =>
    cases p with
    | ret | fail => simpa using hp
    | call c next => exact ih (hp.2 w hws.1) hws.2

/-- A run that has come to its end, by a return or an exception. -/
def ended : Proc I ε α → Bool
  | .call _ _ => false
  | _ => true

theorem Meets.ended (hp : p.Meets h A C Q s) (hws : p.Admitted h A ws s)
    (hend : (p.advance h ws s).1.ended) : ∃ r, Q r (p.advance h ws s).2 := by
  have hleft := hp.advance ws hws
  cases hrest : (p.advance h ws s).1 with
  | ret | fail => rw [hrest] at hleft; exact ⟨_, hleft⟩
  | call c next => rw [hrest] at hend; cases hend

theorem Meets.of_returned (hp : p.Meets h A C Q s) (hws : p.Admitted h A ws s) {a : α}
    (hret : (p.advance h ws s).1.returned = some a) : Q (.ok a) (p.advance h ws s).2 := by
  have hleft := hp.advance ws hws
  rw [eq_ret_of_returned hret] at hleft
  exact hleft

/-- A crash condition that also holds at the end holds wherever the procedure
is cut off. -/
theorem Meets.invariant (hp : p.Meets h A C (fun _ s => C s) s) (hws : p.Admitted h A ws s) :
    C (p.advance h ws s).2 := by
  have hleft := hp.advance ws hws
  cases hrest : (p.advance h ws s).1 with
  | ret | fail => rw [hrest] at hleft; exact hleft
  | call c next => rw [hrest] at hleft; exact hleft.1

theorem admitted_of_forall (hall : ∀ w c s, A w c s) (p : Proc I ε α) (ws : List ω) (s : σ) :
    p.Admitted h A ws s := by
  induction ws generalizing p s with
  | nil => cases p <;> trivial
  | cons w ws ih =>
    cases p with
    | ret | fail => trivial
    | call c next => exact ⟨hall w c s, ih _ _⟩

/-- The handler that also remembers the last call. -/
def logged (h : Handler I σ ω ε) : Handler I (σ × Option I.Call) ω ε :=
  fun w c x => ((h w c x.1).1, ((h w c x.1).2, some c))

/-- A specification that does not look at the log holds without it. -/
theorem Meets.of_logged (last : Option I.Call)
    (hp : p.Meets (logged h) (fun w c x => A w c x.1) (fun x => C x.1) (fun r x => Q r x.1)
      (s, last)) : p.Meets h A C Q s := by
  induction p generalizing s last with
  | ret | fail => exact hp
  | call c next ih => exact ⟨hp.1, fun w hw => ih _ _ (hp.2 w hw)⟩

variable (h A)

/-- Answered as `A` admits, it raises nothing and keeps `Inv`. -/
def Keeps (Inv : σ → Prop) (p : Proc I ε α) : Prop :=
  ∀ s, Inv s → p.Meets h A (fun _ => True) (fun r s' => (∃ a, r = .ok a) ∧ Inv s') s

variable {h A} {Inv : σ → Prop}

theorem keeps_ret : (Proc.ret a : Proc I ε α).Keeps h A Inv :=
  fun _ hs => ⟨⟨a, rfl⟩, hs⟩

theorem Keeps.bind (hp : p.Keeps h A Inv) (hf : ∀ a, (f a).Keeps h A Inv) :
    (p.bind f).Keeps h A Inv := by
  intro s hs
  refine Meets.bind ((hp s hs).mono ?_)
  rintro r s' ⟨⟨a, rfl⟩, hs'⟩
  exact hf a s' hs'

theorem keeps_perform (hc : ∀ w s, A w c s → Inv s → (∃ a, (h w c s).1 = .ok a) ∧ Inv (h w c s).2) :
    (perform c : Proc I ε (I.Ret c)).Keeps h A Inv := by
  intro s hs
  refine ⟨trivial, fun w hw => ?_⟩
  obtain ⟨⟨a, hok⟩, hs'⟩ := hc w s hw hs
  rw [hok]
  exact ⟨⟨a, rfl⟩, hs'⟩

variable (h A) in
/-- Answered as `A` admits, it keeps `Inv` at each point. -/
def Maintains (Inv : σ → Prop) (p : Proc I ε α) : Prop :=
  ∀ s, Inv s → p.Meets h A Inv (fun _ s' => Inv s') s

theorem maintains_ret : (Proc.ret a : Proc I ε α).Maintains h A Inv :=
  fun _ hs => hs

theorem maintains_fail (e : ε) : (Proc.fail e : Proc I ε α).Maintains h A Inv :=
  fun _ hs => hs

section

variable (hp : p.Maintains h A Inv)

include hp

theorem Maintains.bind_returns (hR : p.Returns R) (hf : ∀ a, R a → (f a).Maintains h A Inv) :
    (p.bind f).Maintains h A Inv := by
  intro s hs
  refine Meets.bind (((hp s hs).and_returns hR).mono fun r s' hr => ?_)
  cases r with
  | ok a => exact hf a (hr.2 a rfl) s' hr.1
  | error e => exact hr.1

theorem Maintains.bind (hf : ∀ a, (f a).Maintains h A Inv) : (p.bind f).Maintains h A Inv :=
  hp.bind_returns (returns_true p) fun a _ => hf a

theorem Maintains.catchWith (hh : ∀ e, (handler e).Maintains h A Inv) :
    (p.catchWith handler).Maintains h A Inv := by
  intro s hs
  refine Meets.catchWith ((hp s hs).mono fun r s' hs' => ?_)
  cases r with
  | ok a => exact hs'
  | error e => exact hh e s' hs'

end

theorem maintains_call (hc : ∀ w s, A w c s → Inv s → Inv (h w c s).2) :
    (perform c : Proc I ε (I.Ret c)).Maintains h A Inv :=
  fun s hs => meets_call hs fun w hw => hc w s hw hs

end CrashTriples

end Proc

end Transact
