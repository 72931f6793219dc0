import Mathlib.Algebra.Order.Monoid.Defs
import Mathlib.Algebra.Order.Monoid.Unbundled.Basic
import Mathlib.Algebra.Group.Basic
import Mathlib.Algebra.Group.Nat.Defs
import Mathlib.Algebra.Order.Group.Nat
import Mathlib.Order.Lattice
import Stm32Foc.EventRun

/-! # A periodic deadline served in passes

    A deadline that every pass which finds it due moves on by one period, whatever
    time the pass came at.  `hits` are those passes.  The deadline is always its first
    value and a period for every hit, so no hit is early, and none is left out or made
    twice. -/

namespace PeriodicDeadline

variable {α T : Type}

/-- The time of the last pass. -/
def lastOf (time : α → T) (last : T) (passes : List α) : T := (passes.map time).getLastD last

variable {time : α → T}

@[simp] theorem lastOf_nil (last : T) : lastOf time last [] = last := rfl

@[simp] theorem lastOf_cons (last : T) (p : α) (passes : List α) :
    lastOf time last (p :: passes) = lastOf time (time p) passes :=
  List.getLastD_cons ..

/-- The passes come one after the other, the first no sooner than `last`. -/
def Ordered [LE T] (time : α → T) : T → List α → Prop
  | _, [] => True
  | last, p :: passes => last ≤ time p ∧ Ordered time (time p) passes

theorem lastOf_ge [Preorder T] (passes : List α) :
    ∀ last, Ordered time last passes → last ≤ lastOf time last passes := by
  induction passes with
  | nil => exact fun _ _ => le_refl _
  | cons p passes ih =>
      intro last h
      rw [lastOf_cons]
      exact h.1.trans (ih (time p) h.2)

variable [AddCommMonoid T] [LinearOrder T]

/-- The deadline after a pass at `now`. -/
def advance (period due now : T) : T := if due ≤ now then due + period else due

/-- The deadline after some passes. -/
def dueAfter (time : α → T) (period due : T) (passes : List α) : T :=
  EventRun.run (fun due p => advance period due (time p)) due passes

/-- The passes that found the deadline due. -/
def hits (time : α → T) (period : T) : T → List α → List α
  | _, [] => []
  | due, p :: passes =>
      if due ≤ time p then p :: hits time period (due + period) passes
      else hits time period due passes

/-- No pass comes later than `slack` after the deadline, or after the pass before it
    where that one came later still. -/
def Prompt (time : α → T) (period slack : T) : T → T → List α → Prop
  | _, _, [] => True
  | last, due, p :: passes =>
      time p ≤ max due last + slack ∧
        Prompt time period slack (time p) (advance period due (time p)) passes

variable {period slack : T}

theorem advance_of_due {due now : T} (h : due ≤ now) :
    advance period due now = due + period := if_pos h

theorem advance_of_lt {due now : T} (h : now < due) : advance period due now = due :=
  if_neg (not_le.mpr h)

theorem hits_of_due {due : T} {p : α} (h : due ≤ time p) (passes : List α) :
    hits time period due (p :: passes) = p :: hits time period (due + period) passes :=
  if_pos h

theorem hits_of_lt {due : T} {p : α} (h : time p < due) (passes : List α) :
    hits time period due (p :: passes) = hits time period due passes :=
  if_neg (not_le.mpr h)

theorem dueAfter_cons (due : T) (p : α) (passes : List α) :
    dueAfter time period due (p :: passes)
      = dueAfter time period (advance period due (time p)) passes := rfl

theorem hits_sublist (passes : List α) :
    ∀ due, (hits time period due passes).Sublist passes := by
  induction passes with
  | nil => exact fun _ => List.Sublist.refl _
  | cons p passes ih =>
      intro due
      rcases le_or_gt due (time p) with h | h
      · rw [hits_of_due h]
        exact (ih _).cons_cons p
      · rw [hits_of_lt h]
        exact (ih due).cons p

/-- **SCHEDULE**: the deadline is its first value and a period for every hit. -/
theorem dueAfter_eq (passes : List α) :
    ∀ due, dueAfter time period due passes
      = due + (hits time period due passes).length • period := by
  induction passes with
  | nil =>
      intro due
      show due = due + 0 • period
      rw [zero_nsmul, add_zero]
  | cons p passes ih =>
      intro due
      rw [dueAfter_cons, ih]
      rcases le_or_gt due (time p) with h | h
      · rw [advance_of_due h, hits_of_due h, List.length_cons, succ_nsmul, add_assoc,
          add_comm period]
      · rw [advance_of_lt h, hits_of_lt h]

/-- **NEVER EARLY**: a hit comes no sooner than its own deadline. -/
theorem le_hits (passes : List α) :
    ∀ due j (h : j < (hits time period due passes).length),
      due + j • period ≤ time (hits time period due passes)[j] := by
  induction passes with
  | nil => exact fun _ j h => absurd h (Nat.not_lt_zero j)
  | cons p passes ih =>
      intro due j h
      rcases le_or_gt due (time p) with hdue | hdue
      · simp only [hits_of_due hdue] at h ⊢
        cases j with
        | zero =>
            show due + 0 • period ≤ time p
            rw [zero_nsmul, add_zero]
            exact hdue
        | succ j =>
            have hle := ih (due + period) j (Nat.lt_of_succ_lt_succ h)
            rw [add_assoc, ← succ_nsmul'] at hle
            exact hle
      · simp only [hits_of_lt hdue] at h ⊢
        exact ih due j h

/-- A hit comes no later than the last pass. -/
theorem hits_le (passes : List α) :
    ∀ last due, Ordered time last passes →
      ∀ p ∈ hits time period due passes, time p ≤ lastOf time last passes := by
  induction passes with
  | nil => exact fun _ _ _ p hp => absurd hp List.not_mem_nil
  | cons first passes ih =>
      intro last due h p hp
      rw [lastOf_cons]
      rcases le_or_gt due (time first) with hdue | hdue
      · rw [hits_of_due hdue] at hp
        rcases List.mem_cons.mp hp with rfl | hp
        · exact lastOf_ge passes (time p) h.2
        · exact ih (time first) _ h.2 p hp
      · rw [hits_of_lt hdue] at hp
        exact ih (time first) due h.2 p hp

/-- The deadline of the last hit has passed. -/
theorem due_of_hits_pos {due last : T} {passes : List α} (h : Ordered time last passes)
    {n : Nat} (hn : (hits time period due passes).length = n + 1) :
    due + n • period ≤ lastOf time last passes := by
  have hlt : n < (hits time period due passes).length := by omega
  exact (le_hits passes due n hlt).trans
    (hits_le passes last due h _ (List.getElem_mem hlt))

variable [IsOrderedCancelAddMonoid T]

/-- The deadline stays ahead of prompt passes, if the slack is shorter than the
    period. -/
theorem lt_advance (hslack : slack < period) {last due now : T} (hahead : last < due)
    (hnow : now ≤ max due last + slack) : now < advance period due now := by
  rcases le_or_gt due now with h | h
  · rw [advance_of_due h]
    rw [max_eq_left hahead.le] at hnow
    exact hnow.trans_lt (by gcongr)
  · rw [advance_of_lt h]
    exact h

/-- **ON TIME**: if the slack is shorter than the period, every hit of prompt passes
    comes within the slack of its own deadline. -/
theorem hits_le_of_prompt (hslack : slack < period) (passes : List α) :
    ∀ last due, last < due → Prompt time period slack last due passes →
      ∀ j (h : j < (hits time period due passes).length),
        time (hits time period due passes)[j] ≤ due + j • period + slack := by
  induction passes with
  | nil => exact fun _ _ _ _ j h => absurd h (Nat.not_lt_zero j)
  | cons p passes ih =>
      intro last due hahead hprompt j h
      have hnext := ih (time p) _ (lt_advance hslack hahead hprompt.1) hprompt.2
      rcases le_or_gt due (time p) with hdue | hdue
      · simp only [hits_of_due hdue] at h ⊢
        rw [advance_of_due hdue] at hnext
        cases j with
        | zero =>
            show time p ≤ due + 0 • period + slack
            rw [zero_nsmul, add_zero]
            exact hprompt.1.trans_eq (by rw [max_eq_left hahead.le])
        | succ j =>
            have hle := hnext j (Nat.lt_of_succ_lt_succ h)
            rw [add_assoc due, ← succ_nsmul'] at hle
            exact hle
      · simp only [hits_of_lt hdue] at h ⊢
        rw [advance_of_lt hdue] at hnext
        exact hnext j h

/-- ... and after every pass the deadline is ahead. -/
theorem lastOf_lt_dueAfter (hslack : slack < period) (passes : List α) :
    ∀ last due, last < due → Prompt time period slack last due passes →
      lastOf time last passes < dueAfter time period due passes := by
  induction passes with
  | nil => exact fun _ _ hahead _ => hahead
  | cons p passes ih =>
      intro last due hahead hprompt
      rw [lastOf_cons, dueAfter_cons]
      exact ih (time p) _ (lt_advance hslack hahead hprompt.1) hprompt.2

/-! ## How many hits -/

section Counts

variable {time : α → Nat} {period start last : Nat} {passes : List α}

theorem start_le_hits (passes : List α) (start j : Nat)
    (h : j < (hits time period (start + period) passes).length) :
    start + (j + 1) * period ≤ time (hits time period (start + period) passes)[j] := by
  have hle := le_hits passes (start + period) j h
  rw [Nat.nsmul_eq_mul] at hle
  rw [Nat.succ_mul]
  omega

theorem hits_le_start_of_prompt {slack : Nat} (hslack : slack < period)
    (passes : List α) (last start : Nat) (hlast : last < start + period)
    (hprompt : Prompt time period slack last (start + period) passes) (j : Nat)
    (h : j < (hits time period (start + period) passes).length) :
    time (hits time period (start + period) passes)[j]
      ≤ start + (j + 1) * period + slack := by
  have hle := hits_le_of_prompt hslack passes last _ hlast hprompt j h
  rw [Nat.nsmul_eq_mul] at hle
  rw [Nat.succ_mul]
  omega

/-- There are no more hits than whole periods have passed. -/
theorem hits_length_le (hperiod : 0 < period) (h : Ordered time last passes) :
    (hits time period (start + period) passes).length
      ≤ (lastOf time last passes - start) / period := by
  cases hn : (hits time period (start + period) passes).length with
  | zero => exact Nat.zero_le _
  | succ n =>
      have hdue := due_of_hits_pos h hn
      rw [Nat.nsmul_eq_mul] at hdue
      rw [Nat.le_div_iff_mul_le hperiod, Nat.succ_mul]
      omega

/-- **COUNT**: once the deadline is ahead, there are that many. -/
theorem hits_length_eq (hperiod : 0 < period) (h : Ordered time last passes)
    (hahead : lastOf time last passes < dueAfter time period (start + period) passes) :
    (hits time period (start + period) passes).length
      = (lastOf time last passes - start) / period := by
  refine le_antisymm (hits_length_le hperiod h) (Nat.le_of_lt_succ ?_)
  rw [dueAfter_eq, Nat.nsmul_eq_mul] at hahead
  rw [Nat.div_lt_iff_lt_mul hperiod, Nat.succ_mul]
  omega

end Counts

end PeriodicDeadline
