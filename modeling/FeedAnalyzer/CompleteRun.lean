import FeedAnalyzer.ConformingProc

/-!
# Complete runs against fixed surroundings

`Proc.finish` runs a procedure to its end, every call answered by the same `w`.

* `Proc.calls` lists the calls of such a run.
* `Reads h w p r`: the run leaves the store alone and ends with `r`.
* `Preserves h w Inv p`: the run keeps `Inv`.
-/

namespace Transact

namespace Proc

variable {I : Interface} {σ ω ε α β : Type} {h : Handler I σ ω ε} {w : ω}
  {p : Proc I ε α} {f : α → Proc I ε β} {s s' : σ} {handler : ε → Proc I ε α} {c : I.Call}

/-- The calls of a complete run. -/
def calls (h : Handler I σ ω ε) (w : ω) : Proc I ε α → σ → List I.Call
  | .ret _, _ => []
  | .fail _, _ => []
  | .call c next, s => c :: (next (h w c s).1).calls h w (h w c s).2

theorem finish_call (c : I.Call) (s : σ) :
    (perform c : Proc I ε (I.Ret c)).finish h w s = h w c s := by
  show (onOk .ret (h w c s).1).finish h w (h w c s).2 = h w c s
  cases hres : (h w c s).1 with
  | _ => exact Prod.ext hres.symm rfl

variable {a : α} {e : ε} {Adm : (c : I.Call) → Except ε (I.Ret c) → Prop} {Φ : I.Call → Prop}
  {R : α → Prop} {r : Except ε α} {g : α → Except ε β}

theorem finish_bind_ok (hp : p.finish h w s = (.ok a, s')) :
    (p.bind f).finish h w s = (f a).finish h w s' := by
  induction p generalizing s with
  | ret b =>
    cases hp
    rfl
  | fail e => cases hp
  | call c next ih => exact ih _ hp

theorem finish_bind_error (hp : p.finish h w s = (.error e, s')) :
    (p.bind f).finish h w s = (.error e, s') := by
  induction p generalizing s with
  | ret b => cases hp
  | fail e' =>
    cases hp
    rfl
  | call c next ih => exact ih _ hp

theorem finish_catch_ok (hp : p.finish h w s = (.ok a, s')) :
    (p.catchWith handler).finish h w s = (.ok a, s') := by
  induction p generalizing s with
  | ret b => exact hp
  | fail e => cases hp
  | call c next ih => exact ih _ hp

theorem finish_catch_error (hp : p.finish h w s = (.error e, s')) :
    (p.catchWith handler).finish h w s = (handler e).finish h w s' := by
  induction p generalizing s with
  | ret b => cases hp
  | fail e' =>
    cases hp
    rfl
  | call c next ih => exact ih _ hp

/-- A run of a composition is a run of its first part, then of the rest. -/
theorem finish_bind_rule {Q : Except ε β × σ → Prop}
    (hok : ∀ a s', p.finish h w s = (.ok a, s') → Q ((f a).finish h w s'))
    (herror : ∀ e s', p.finish h w s = (.error e, s') → Q (.error e, s')) :
    Q ((p.bind f).finish h w s) := by
  cases hp : p.finish h w s with
  | mk r s' =>
    cases r with
    | ok a =>
      rw [finish_bind_ok hp]
      exact hok a s' hp
    | error e =>
      rw [finish_bind_error hp]
      exact herror e s' hp

/-- What is made of the result does not change the store. -/
theorem finish_bind_ret (p : Proc I ε α) (f : α → β) (s : σ) :
    ((p.bind (fun a => .ret (f a))).finish h w s).2 = (p.finish h w s).2 := by
  apply finish_bind_rule (Q := fun result => result.2 = (p.finish h w s).2)
  · intro a s' hrun
    rw [hrun]
    rfl
  · intro e s' hrun
    rw [hrun]

theorem finish_catch_rule {Q : Except ε α × σ → Prop}
    (hok : ∀ a s', p.finish h w s = (.ok a, s') → Q (.ok a, s'))
    (herror : ∀ e s', p.finish h w s = (.error e, s') → Q ((handler e).finish h w s')) :
    Q ((p.catchWith handler).finish h w s) := by
  cases hp : p.finish h w s with
  | mk r s' =>
    cases r with
    | ok a =>
      rw [finish_catch_ok hp]
      exact hok a s' hp
    | error e =>
      rw [finish_catch_error hp]
      exact herror e s' hp

/-- Swallowing every exception does not change the store. -/
theorem finish_catch_ret (p : Proc I ε α) (a : α) (s : σ) :
    ((p.catchWith (fun _ => .ret a)).finish h w s).2 = (p.finish h w s).2 := by
  apply finish_catch_rule (Q := fun result => result.2 = (p.finish h w s).2)
  · intro b s' hrun
    rw [hrun]
  · intro e s' hrun
    rw [hrun]
    rfl

theorem calls_bind_ok (hp : p.finish h w s = (.ok a, s')) :
    (p.bind f).calls h w s = p.calls h w s ++ (f a).calls h w s' := by
  induction p generalizing s with
  | ret b =>
    cases hp
    rfl
  | fail e => cases hp
  | call c next ih => exact congrArg (List.cons c) (ih _ hp)

theorem calls_bind_error (hp : p.finish h w s = (.error e, s')) :
    (p.bind f).calls h w s = p.calls h w s := by
  induction p generalizing s with
  | ret b => cases hp
  | fail e' => rfl
  | call c next ih => exact congrArg (List.cons c) (ih _ hp)

theorem calls_perform {f : I.Ret c → Proc I ε α} {b : I.Ret c} (hc : h w c s = (.ok b, s')) :
    ((perform c).bind f).calls h w s = c :: (f b).calls h w s' := by
  rw [perform_bind]
  show c :: (onOk f (h w c s).1).calls h w (h w c s).2 = _
  rw [hc]
  rfl

theorem mem_calls_bind (p : Proc I ε α) (f : α → Proc I ε β) (s : σ) (hc : c ∈ p.calls h w s) :
    c ∈ (p.bind f).calls h w s := by
  cases hp : p.finish h w s with
  | mk r s' =>
    cases r with
    | ok a =>
      rw [calls_bind_ok hp]
      exact List.mem_append_left _ hc
    | error e =>
      rw [calls_bind_error hp]
      exact hc

theorem mem_calls_catchWith (p : Proc I ε α) (handler : ε → Proc I ε α) (hc : c ∈ p.calls h w s) :
    c ∈ (p.catchWith handler).calls h w s := by
  induction p generalizing s with
  | ret | fail => cases hc
  | call c' next ih =>
    rcases List.mem_cons.mp hc with rfl | hc
    · exact List.mem_cons_self
    · exact List.mem_cons_of_mem _ (ih _ hc)

theorem calls_catch_ok (hp : p.finish h w s = (.ok a, s')) :
    (p.catchWith handler).calls h w s = p.calls h w s := by
  induction p generalizing s with
  | ret b => rfl
  | fail e => cases hp
  | call c next ih => exact congrArg (List.cons c) (ih _ hp)

theorem calls_catch_error (hp : p.finish h w s = (.error e, s')) :
    (p.catchWith handler).calls h w s = p.calls h w s ++ (handler e).calls h w s' := by
  induction p generalizing s with
  | ret b => cases hp
  | fail e' =>
    cases hp
    rfl
  | call c next ih => exact congrArg (List.cons c) (ih _ hp)

theorem Conforms.mem_calls (hp : p.Conforms Adm Φ R) (hadm : ∀ c s, Adm c (h w c s).1)
    (hc : c ∈ p.calls h w s) : Φ c := by
  induction p generalizing s with
  | ret | fail => cases hc
  | call c' next ih =>
    rcases List.mem_cons.mp hc with rfl | hc
    · exact hp.1
    · exact ih _ (hp.2 _ (hadm c' s)) hc

/-- The run reads the surroundings only, and ends with `r`. -/
def Reads (h : Handler I σ ω ε) (w : ω) (p : Proc I ε α) (r : Except ε α) : Prop :=
  ∀ s, p.finish h w s = (r, s)

theorem reads_ret (a : α) : Reads h w (.ret a : Proc I ε α) (.ok a) :=
  fun _ => rfl

theorem reads_fail (e : ε) : Reads h w (.fail e : Proc I ε α) (.error e) :=
  fun _ => rfl

theorem reads_perform {r : Except ε (I.Ret c)} (hc : ∀ s, h w c s = (r, s)) :
    Reads h w (perform c) r := by
  intro s
  rw [finish_call]
  exact hc s

theorem Reads.bind (hp : Reads h w p r) (hf : ∀ a, Reads h w (f a) (g a)) :
    Reads h w (p.bind f) (r.bind g) := by
  intro s
  cases r with
  | ok a =>
    rw [finish_bind_ok (hp s)]
    exact hf a s
  | error e => exact finish_bind_error (hp s)

theorem Reads.catchWith {g : ε → Except ε α} (hp : Reads h w p r)
    (hh : ∀ e, Reads h w (handler e) (g e)) : Reads h w (p.catchWith handler) (r.tryCatch g) := by
  intro s
  cases r with
  | ok a => exact finish_catch_ok (hp s)
  | error e =>
    rw [finish_catch_error (hp s)]
    exact hh e s

theorem reads_onOk (hf : ∀ a, Reads h w (f a) (g a)) (r : Except ε α) :
    Reads h w (onOk f r) (r.bind g) := by
  cases r with
  | ok a => exact hf a
  | error e => exact reads_fail e

/-- A complete run keeps `Inv`, however it ends. -/
def Preserves (h : Handler I σ ω ε) (w : ω) (Inv : σ → Prop) (p : Proc I ε α) : Prop :=
  ∀ s, Inv s → Inv (p.finish h w s).2

section Preserves

variable {Inv : σ → Prop} {p : Proc I ε α}

theorem preserves_of_handle (hcall : ∀ c s, Inv s → Inv (h w c s).2) (p : Proc I ε α) :
    Preserves h w Inv p := by
  induction p with
  | ret | fail => exact fun _ hs => hs
  | call c next ih => exact fun s hs => ih _ _ (hcall c s hs)

theorem preserves_ret (a : α) : Preserves h w Inv (.ret a : Proc I ε α) :=
  fun _ hs => hs

theorem Preserves.bind {f : α → Proc I ε β} (hp : Preserves h w Inv p)
    (hf : ∀ a, Preserves h w Inv (f a)) : Preserves h w Inv (p.bind f) := by
  intro s hs
  have hend := hp s hs
  apply finish_bind_rule (Q := fun result => Inv result.2)
  · intro a s' hrun
    rw [hrun] at hend
    exact hf a s' hend
  · intro e s' hrun
    rw [hrun] at hend
    exact hend

/-- Allowed calls that keep `Inv`, along every path of the answers that `w` gives. -/
theorem Conforms.preserves (hp : p.Conforms Adm Φ R) (hadm : ∀ c s, Adm c (h w c s).1)
    (hcall : ∀ c, Φ c → ∀ s, Inv s → Inv (h w c s).2) : Preserves h w Inv p := by
  induction p with
  | ret a => exact preserves_ret a
  | fail e => exact fun _ hs => hs
  | call c next ih => exact fun s hs => ih _ (hp.2 _ (hadm c s)) _ (hcall c hp.1 s hs)

end Preserves

end Proc

end Transact
