import FeedAnalyzer.TransactionProc

/-!
# Histories of jobs

Jobs, each run on the store that the ones before it left behind, and each cut off
wherever its answers run out: a list (`runJobs`), or an endless stream (`historyAt`).
-/

namespace Transact

/-- Run jobs one after the other; one whose answers run out has crashed there. -/
def runJobs {I : Interface} {σ ω ε α J : Type} (h : Handler I σ ω ε)
    (code : J → Proc I ε α) : List (J × List ω) → σ → σ
  | [], s => s
  | (j, ws) :: rest, s => runJobs h code rest ((code j).advance h ws s).2

section History

variable {I : Interface} {σ ω ε α J : Type} {h : Handler I σ ω ε} {code : J → Proc I ε α}

/-- **The history rule.**  What every call keeps holds after every history of
jobs, crashes included. -/
theorem runJobs_preserves {Inv : σ → Prop} (hcall : ∀ w c s, Inv s → Inv (h w c s).2)
    (jobs : List (J × List ω)) (s : σ) (hs : Inv s) : Inv (runJobs h code jobs s) := by
  induction jobs generalizing s with
  | nil => exact hs
  | cons job rest ih =>
    exact ih _ (Proc.advance_preserves hcall _ _ _ hs)

variable (h code) in
def JobsAdmitted (A : ω → I.Call → σ → Prop) : List (J × List ω) → σ → Prop
  | [], _ => True
  | (j, ws) :: rest, s =>
    (code j).Admitted h A ws s ∧ JobsAdmitted A rest ((code j).advance h ws s).2

instance decidableJobsAdmitted {A : ω → I.Call → σ → Prop} [∀ w c s, Decidable (A w c s)] :
    ∀ (jobs : List (J × List ω)) (s : σ), Decidable (JobsAdmitted h code A jobs s)
  | [], _ => isTrue trivial
  | (j, ws) :: rest, s =>
    have : Decidable (JobsAdmitted h code A rest ((code j).advance h ws s).2) :=
      decidableJobsAdmitted rest _
    inferInstanceAs (Decidable ((code j).Admitted h A ws s ∧
      JobsAdmitted h code A rest ((code j).advance h ws s).2))

theorem jobsAdmitted_of_forall {A : ω → I.Call → σ → Prop} (hall : ∀ w c s, A w c s)
    (jobs : List (J × List ω)) (s : σ) : JobsAdmitted h code A jobs s := by
  induction jobs generalizing s with
  | nil => trivial
  | cons job rest ih => exact ⟨Proc.admitted_of_forall hall _ _ _, ih _⟩

variable (h code)

/-- The store before the `n`-th job of an endless history. -/
def historyAt (start : σ) (jobs : Nat → J × List ω) : Nat → σ
  | 0 => start
  | n+1 => ((code (jobs n).1).advance h (jobs n).2 (historyAt start jobs n)).2

variable {h code}

/-- What every job keeps from some point on, holds from there on. -/
theorem historyAt_stays (Inv : σ → Prop) {start : σ} {jobs : Nat → J × List ω}
    (hjob : ∀ j ws s, Inv s → Inv ((code j).advance h ws s).2) {n m : Nat} (hle : n ≤ m)
    (hn : Inv (historyAt h code start jobs n)) : Inv (historyAt h code start jobs m) := by
  induction hle with
  | refl => exact hn
  | step _ ih => exact hjob _ _ _ ih

end History

end Transact
