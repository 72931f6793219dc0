import Mathlib.Data.Nat.Find
import Mathlib.Tactic.Common

/-! # Runs over a stream of inputs

    A machine that takes one input a tick, for ever.  An invariant that a step keeps
    holds at every tick; a measure that falls with every step of some activity bounds
    how long the activity can last. -/

namespace StreamRun

variable {σ ε : Type} (step : σ → ε → σ)

/-- The state after a number of ticks. -/
def after (s : σ) (inputs : Nat → ε) : Nat → σ
  | 0 => s
  | n + 1 => step (after s inputs n) (inputs n)

variable {step} {s : σ} {inputs : Nat → ε}

@[simp] theorem after_zero : after step s inputs 0 = s := rfl

@[simp] theorem after_succ (n : Nat) :
    after step s inputs (n + 1) = step (after step s inputs n) (inputs n) := rfl

/-- What a step keeps, the run keeps. -/
theorem after_keeps {I : σ → Prop} (hstep : ∀ s e, I s → I (step s e)) (h : I s)
    (inputs : Nat → ε) (n : Nat) : I (after step s inputs n) := by
  induction n with
  | zero => exact h
  | succ n ih => exact hstep _ _ ih

/-- What a step keeps holds from the tick on at which it holds. -/
theorem after_keeps_from {I : σ → Prop} (hstep : ∀ s e, I s → I (step s e)) {m n : Nat}
    (hle : m ≤ n) (h : I (after step s inputs m)) : I (after step s inputs n) := by
  induction n, hle using Nat.le_induction with
  | base => exact h
  | succ n _ ih => exact hstep _ _ ih

/-- **BOUNDED ACTIVITY**: an activity whose every step makes a measure smaller is over
    after no more ticks than the measure counts, and was on until then. -/
theorem leaves_within {I : σ → Prop} (active : σ → Prop) (measure : σ → Nat)
    (hstep : ∀ s e, I s → I (step s e))
    (hfall : ∀ s e, I s → active s → active (step s e) → measure (step s e) < measure s)
    (hstart : ∀ s, I s → active s → 0 < measure s) (h : I s) (inputs : Nat → ε) :
    ∃ n, n ≤ measure s ∧ ¬ active (after step s inputs n) ∧
      ∀ m, m < n → active (after step s inputs m) := by
  classical
  -- as long as it lasts, the ticks so far are paid for
  have hpaid : ∀ n, (∀ m, m ≤ n → active (after step s inputs m)) →
      n + measure (after step s inputs n) ≤ measure s := by
    intro n
    induction n with
    | zero =>
        intro _
        rw [after_zero, Nat.zero_add]
    | succ n ih =>
        intro hactive
        have hprev := ih (fun m hm => hactive m (Nat.le_succ_of_le hm))
        have hless := hfall (after step s inputs n) (inputs n) (after_keeps hstep h inputs n)
          (hactive n (Nat.le_succ n)) (hactive (n + 1) (Nat.le_refl _))
        rw [after_succ]
        omega
  have hend : ∃ n, ¬ active (after step s inputs n) := by
    by_contra hnone
    have hall : ∀ n, active (after step s inputs n) := fun n => not_not.mp (not_exists.mp hnone n)
    have htoo := hpaid (measure s) (fun m _ => hall m)
    have hpos := hstart _ (after_keeps hstep h inputs (measure s))
      (hall (measure s))
    omega
  refine ⟨Nat.find hend, ?_, Nat.find_spec hend, ?_⟩
  · rcases hn : Nat.find hend with _ | n
    · exact Nat.zero_le _
    · have hbefore : ∀ m, m ≤ n → active (after step s inputs m) := by
        intro m hm
        exact not_not.mp (Nat.find_min hend (by omega))
      have hpos := hstart _ (after_keeps hstep h inputs n)
        (hbefore n (Nat.le_refl n))
      have := hpaid n hbefore
      omega
  · intro m hm
    exact not_not.mp (Nat.find_min hend hm)

end StreamRun
