import FeedAnalyzer.InterleavedRun
import Mathlib.Data.Set.Basic

/-!
# Tokens that procedures gain and spend

A procedure may be obliged to make a call once for every answer of another kind.  The
obligation is a token: `Tokens` says which an answer gives and which a call takes, and
`Proc.Uses` that a procedure spends only tokens it holds.

* `spend_subset_owned`: a call that spends a token is made by its owner;
* `uses_at`: what a procedure holds at its end is what was said of it.
-/

namespace Transact

/-- Which tokens an answer gives, and which a call takes. -/
structure Tokens (I : Interface) (ε T : Type) where
  gain : (c : I.Call) → Except ε (I.Ret c) → Set T
  spend : I.Call → Set T

variable {I : Interface} {σ ω ε α β J T : Type} {c : I.Call}

namespace Tokens

variable (τ : Tokens I ε T)

/-- What a holder of `A` holds after the call `c` and its answer. -/
def after (A : Set T) (c : I.Call) (r : Except ε (I.Ret c)) : Set T :=
  A \ τ.spend c ∪ τ.gain c r

/-- A call that neither gives nor takes. -/
def Neutral (c : I.Call) : Prop :=
  τ.spend c = ∅ ∧ ∀ r, τ.gain c r = ∅

variable {τ}

theorem Neutral.after (hc : τ.Neutral c) (A : Set T) (r : Except ε (I.Ret c)) :
    τ.after A c r = A := by
  ext t
  simp [Tokens.after, hc.1, hc.2 r]

end Tokens

namespace Proc

variable (τ : Tokens I ε T) {p : Proc I ε α} {A : Set T} {Q' : Except ε β → Set T → Prop}

/-- **Token discipline.**  Holding `A`, the procedure spends only what it holds, and `Q`
holds of its result and of what it holds then. -/
def Uses (Q : Except ε α → Set T → Prop) : Proc I ε α → Set T → Prop
  | .ret a, A => Q (.ok a) A
  | .fail e, A => Q (.error e) A
  | .call c next, A => τ.spend c ⊆ A ∧ ∀ r, (next r).Uses Q (τ.after A c r)

variable {τ} {Q : Except ε α → Set T → Prop}

theorem Uses.mono {Q' : Except ε α → Set T → Prop} (hp : p.Uses τ Q A)
    (himp : ∀ r A, Q r A → Q' r A) : p.Uses τ Q' A := by
  induction p generalizing A with
  | ret | fail => exact himp _ _ hp
  | call c next ih => exact ⟨hp.1, fun r => ih r (hp.2 r)⟩

variable {f : α → Proc I ε β}

theorem Uses.bind (hp : p.Uses τ Q A) (hok : ∀ a A, Q (.ok a) A → (f a).Uses τ Q' A)
    (herror : ∀ e A, Q (.error e) A → Q' (.error e) A) : (p.bind f).Uses τ Q' A := by
  induction p generalizing A with
  | ret a => exact hok a A hp
  | fail e => exact herror e A hp
  | call c next ih => exact ⟨hp.1, fun r => ih r (hp.2 r)⟩

theorem Uses.catchWith {Q' : Except ε α → Set T → Prop} {handler : ε → Proc I ε α}
    (hp : p.Uses τ Q A) (hok : ∀ a A, Q (.ok a) A → Q' (.ok a) A)
    (herror : ∀ e A, Q (.error e) A → (handler e).Uses τ Q' A) :
    (p.catchWith handler).Uses τ Q' A := by
  induction p generalizing A with
  | ret a => exact hok a A hp
  | fail e => exact herror e A hp
  | call c next ih => exact ⟨hp.1, fun r => ih r (hp.2 r)⟩

theorem uses_perform {f : I.Ret c → Proc I ε β} (hspend : τ.spend c ⊆ A)
    (hok : ∀ a, (f a).Uses τ Q' (τ.after A c (.ok a)))
    (herror : ∀ e, Q' (.error e) (τ.after A c (.error e))) : ((perform c).bind f).Uses τ Q' A := by
  refine ⟨hspend, ?_⟩
  intro r
  cases r with
  | ok a => exact hok a
  | error e => exact herror e

/-- A procedure without tokens ends with what it began with. -/
theorem Avoids.uses (hp : p.Avoids (fun c => ¬ τ.Neutral c)) (A : Set T) :
    p.Uses τ (fun _ A' => A' = A) A := by
  induction p with
  | ret | fail => rfl
  | call c next ih =>
    have hc : τ.Neutral c := Classical.byContradiction hp.1
    refine ⟨?_, fun r => ?_⟩
    · rw [hc.1]
      exact Set.empty_subset A
    · rw [hc.after]
      exact ih r (hp.2 r)

/-- What comes after a procedure without tokens has them as before. -/
theorem Avoids.uses_bind (hp : p.Avoids (fun c => ¬ τ.Neutral c)) (hok : ∀ a, (f a).Uses τ Q' A)
    (herror : ∀ e, Q' (.error e) A) : (p.bind f).Uses τ Q' A := by
  apply (hp.uses A).bind
  · rintro a A' rfl
    exact hok a
  · rintro e A' rfl
    exact herror e

end Proc

section Runs

variable (τ : Tokens I ε T) (h : Handler I σ ω ε) (code : J → Proc I ε α)
  {i : Nat} {Q : Except ε α → Set T → Prop}

/-- The tokens of a thread before the `k`-th action. -/
def owned (start : Config I σ ε α) (acts : Nat → Action J ω) : Nat → Nat → Set T
  | 0, _ => ∅
  | k+1, i =>
    match acts k with
    | .spawn _ => owned start acts k i
    | .run i' w =>
      if i' = i then
        match (configAt h code start acts k).threads[i]? with
        | some (.call c _) =>
          τ.after (owned start acts k i) c (h w c (configAt h code start acts k).store).1
        | _ => owned start acts k i
      else owned start acts k i

variable {τ h code} {start : Config I σ ε α} {acts : Nat → Action J ω} {k : Nat} {w : ω}

theorem owned_succ_calls (hcalls : CallsAt h code start acts k i w c) :
    owned τ h code start acts (k+1) i = τ.after (owned τ h code start acts k i) c
        (h w c (configAt h code start acts k).store).1 := by
  obtain ⟨hact, next, hi⟩ := hcalls
  rw [owned, hact]
  simp only [if_true, hi]

theorem owned_succ_idle (hidle : ∀ w c, ¬ CallsAt h code start acts k i w c) :
    owned τ h code start acts (k+1) i = owned τ h code start acts k i := by
  rw [owned]
  cases hact : acts k with
  | spawn j => rfl
  | run i' w =>
    by_cases hi : i' = i
    · subst hi
      simp only [if_true]
      cases hthread : (configAt h code start acts k).threads[i']? with
      | none => rfl
      | some p =>
        cases p with
        | ret | fail => rfl
        | call c next => exact absurd ⟨hact, next, hthread⟩ (hidle w c)
    · simp only [hi, if_false]

theorem owned_succ_other {i' : Nat} (hcalls : CallsAt h code start acts k i w c) (hne : i' ≠ i) :
    owned τ h code start acts (k+1) i' = owned τ h code start acts k i' := by
  apply owned_succ_idle
  intro w' c' hcalls'
  exact hne (hcalls'.unique hcalls).1

/-- A thread not begun owns nothing. -/
theorem owned_unstarted (k : Nat) (hi : (configAt h code start acts k).threads.length ≤ i) :
    owned τ h code start acts k i = ∅ := by
  induction k with
  | zero => rfl
  | succ k ih =>
    have hbefore : (configAt h code start acts k).threads.length ≤ i := by
      rw [configAt] at hi
      rcases (configAt h code start acts k).step_cases h code (acts k) with
        ⟨j, _, hs⟩ | ⟨i', w, c, next, _, _, hs⟩ | hs
      · rw [hs, List.length_append] at hi
        omega
      · rw [hs, List.length_set] at hi
        exact hi
      · rw [hs] at hi
        exact hi
    rw [owned_succ_idle, ih hbefore]
    rintro w c ⟨_, next, hthread⟩
    have hlt := (List.getElem?_eq_some_iff.mp hthread).1
    omega

section

variable (hempty : start.threads = []) (hcode : ∀ j, (code j).Uses τ Q ∅)

include hempty hcode

/-- **The token rule.**  In a run of disciplined procedures, the rest of each is disciplined
with its tokens. -/
theorem uses_at (k i : Nat) (p : Proc I ε α)
    (hp : (configAt h code start acts k).threads[i]? = some p) :
    p.Uses τ Q (owned τ h code start acts k i) := by
  induction k generalizing i p with
  | zero => simp [configAt, hempty] at hp
  | succ k ih =>
    by_cases hcalls : ∃ w c, CallsAt h code start acts k i w c
    · obtain ⟨w, c, hcalls⟩ := hcalls
      rw [owned_succ_calls hcalls]
      obtain ⟨hact, next, hi⟩ := hcalls
      have hlt := (List.getElem?_eq_some_iff.mp hi).1
      rw [configAt, hact, Config.step, hi, List.getElem?_set_self hlt] at hp
      cases hp
      exact (ih i _ hi).2 _
    · have hidle : ∀ w c, ¬ CallsAt h code start acts k i w c :=
        fun w c hcall => hcalls ⟨w, c, hcall⟩
      rw [owned_succ_idle hidle]
      rcases Config.thread_step hp with hold | ⟨j, hact, rfl⟩ | ⟨w, c, next, hact, hi, _⟩
      · exact ih i p hold
      · by_cases hlt : i < (configAt h code start acts k).threads.length
        · rw [configAt, hact, Config.step, List.getElem?_append_left hlt] at hp
          exact ih i _ hp
        · rw [owned_unstarted k (Nat.le_of_not_lt hlt)]
          exact hcode j
      · exact absurd ⟨hact, next, hi⟩ (hidle w c)

theorem spend_subset_owned (hcalls : CallsAt h code start acts k i w c) :
    τ.spend c ⊆ owned τ h code start acts k i := by
  obtain ⟨_, next, hi⟩ := hcalls
  exact (uses_at hempty hcode k i _ hi).1

/-- **Lines of tokens.**  When a token is gained only in place of a spent one of
its line, or on a line that nobody holds, a line has one token at a time. -/
theorem lines_exclusive {L : Type} {line : T → L}
    (hone : ∀ c r t t', t ∈ τ.gain c r → t' ∈ τ.gain c r → line t = line t' → t = t')
    (hbegin : ∀ k i w c, CallsAt h code start acts k i w c →
      ∀ t ∈ τ.gain c (h w c (configAt h code start acts k).store).1,
      (∃ t' ∈ τ.spend c, line t' = line t) ∨
      ∀ i' t', t' ∈ owned τ h code start acts k i' → line t' ≠ line t) (k : Nat) :
    ∀ i i' t t', t ∈ owned τ h code start acts k i →
      t' ∈ owned τ h code start acts k i' → line t = line t' → i = i' ∧ t = t' := by
  induction k with
  | zero =>
    intro i i' t t' ht
    cases ht
  | succ k ih =>
    by_cases hcalls : ∃ i₀ w c, CallsAt h code start acts k i₀ w c
    · obtain ⟨i₀, w, c, hcalls⟩ := hcalls
      have hspend := spend_subset_owned hempty hcode hcalls
      -- a token held after the call was held before it, or gained by its maker
      have hback : ∀ i t, t ∈ owned τ h code start acts (k+1) i →
          (t ∈ owned τ h code start acts k i ∧ (i = i₀ → t ∉ τ.spend c)) ∨
            (i = i₀ ∧ t ∈ τ.gain c (h w c (configAt h code start acts k).store).1) := by
        intro i t ht
        by_cases hi : i = i₀
        · subst hi
          rw [owned_succ_calls hcalls] at ht
          rcases ht with ⟨hheld, hkept⟩ | hgained
          · exact Or.inl ⟨hheld, fun _ => hkept⟩
          · exact Or.inr ⟨rfl, hgained⟩
        · rw [owned_succ_other hcalls hi] at ht
          exact Or.inl ⟨ht, fun h => absurd h hi⟩
      -- a gained token meets no token that was held before
      have hapart : ∀ i t t', t ∈ τ.gain c (h w c (configAt h code start acts k).store).1 →
          t' ∈ owned τ h code start acts k i → (i = i₀ → t' ∉ τ.spend c) → line t ≠ line t' := by
        intro i t t' hgained hheld hkept hline
        rcases hbegin k i₀ w c hcalls t hgained with ⟨s, hs, hsame⟩ | hnew
        · obtain ⟨hi, hst⟩ := ih i₀ i s t' (hspend hs) hheld (hsame.trans hline)
          exact hkept hi.symm (hst ▸ hs)
        · exact hnew i t' hheld hline.symm
      intro i i' t t' ht ht' hline
      rcases hback i t ht with ⟨hheld, hkept⟩ | ⟨hi, hgained⟩
      · rcases hback i' t' ht' with ⟨hheld', _⟩ | ⟨hi', hgained'⟩
        · exact ih i i' t t' hheld hheld' hline
        · exact absurd hline.symm (hapart i t' t hgained' hheld hkept)
      · rcases hback i' t' ht' with ⟨hheld', hkept'⟩ | ⟨hi', hgained'⟩
        · exact absurd hline (hapart i' t t' hgained hheld' hkept')
        · exact ⟨hi.trans hi'.symm, hone c _ t t' hgained hgained' hline⟩
    · have hidle : ∀ i, owned τ h code start acts (k+1) i = owned τ h code start acts k i :=
        fun i => owned_succ_idle fun w c hcall => hcalls ⟨i, w, c, hcall⟩
      intro i i' t t' ht ht'
      rw [hidle] at ht ht'
      exact ih i i' t t' ht ht'

end

end Runs

end Transact
