import Mathlib.Tactic.Common

/-! # Append-only slot logs

    A log of `n` SLOTS without an index: slots are written in order, a slot is
    ERASED until it is written to, and a written slot is INTACT or not.  What
    such a log holds is its LATEST intact slot below the FRONTIER, the first
    erased slot.  A writer that only ever touches the slot at the frontier, or
    wipes the whole log, keeps a frontier (`Frontier.append`, `Frontier.wipe`);
    whatever it leaves in that slot, the slots below it still count. -/

namespace SlotLog

variable {σ : Type} {erased intact : σ → Bool} {n k : Nat} {slots slots' : Nat → σ}

/-- The slots below `k` are used, those from `k` on are erased. -/
structure Frontier (erased : σ → Bool) (n : Nat) (slots : Nat → σ) (k : Nat) :
    Prop where
  bound : k ≤ n
  used : ∀ i, i < k → erased (slots i) = false
  free : ∀ i, k ≤ i → i < n → erased (slots i) = true

/-- The last intact slot below `k`. -/
def latest (intact : σ → Bool) (slots : Nat → σ) : Nat → Option σ
  | 0 => none
  | k + 1 => if intact (slots k) then some (slots k) else latest intact slots k

/-- Only the slots below `k` matter. -/
theorem latest_congr :
    ∀ {k : Nat}, (∀ i, i < k → slots' i = slots i) →
      latest intact slots' k = latest intact slots k := by
  intro k
  induction k with
  | zero => exact fun _ => rfl
  | succ k ih =>
      intro h
      rw [latest, latest, h k (Nat.lt_succ_self k),
        ih (fun i hi => h i (Nat.lt_succ_of_lt hi))]

/-- A slot that is not intact is passed over. -/
theorem latest_skip (h : intact (slots k) = false) :
    latest intact slots (k + 1) = latest intact slots k := by
  rw [latest, if_neg (by rw [h]; exact Bool.false_ne_true)]

theorem latest_take (h : intact (slots k) = true) :
    latest intact slots (k + 1) = some (slots k) := by
  rw [latest, if_pos h]

/-- Behind an erased slot there is nothing. -/
theorem Frontier.erased_after (h : Frontier erased n slots k) {i j : Nat}
    (hi : erased (slots i) = true) (hij : i ≤ j) (hj : j < n) :
    erased (slots j) = true := by
  refine h.free j ?_ hj
  by_contra hlt
  rw [h.used i (by omega)] at hi
  exact nomatch hi

/-- **APPEND**: whatever is left in the slot at the frontier, there is a frontier
    again, at that slot or behind it. -/
theorem Frontier.append (h : Frontier erased n slots k) (hk : k < n)
    (hother : ∀ i, i < n → i ≠ k → slots' i = slots i) :
    Frontier erased n slots' (if erased (slots' k) then k else k + 1) := by
  by_cases he : erased (slots' k) = true
  · rw [if_pos he]
    refine ⟨h.bound, ?_, ?_⟩
    · intro i hi
      rw [hother i (by omega) (by omega)]
      exact h.used i hi
    · intro i hi hin
      by_cases hik : i = k
      · rw [hik]
        exact he
      · rw [hother i hin hik]
        exact h.free i hi hin
  · rw [if_neg he]
    rw [Bool.not_eq_true] at he
    refine ⟨hk, ?_, ?_⟩
    · intro i hi
      by_cases hik : i = k
      · rw [hik]
        exact he
      · rw [hother i (by omega) hik]
        exact h.used i (by omega)
    · intro i hi hin
      rw [hother i hin (by omega)]
      exact h.free i (by omega) hin

/-- **WIPE**: an erased log has its frontier at the start. -/
theorem Frontier.wipe (h : ∀ i, i < n → erased (slots i) = true) :
    Frontier erased n slots 0 :=
  ⟨Nat.zero_le n, fun i hi => absurd hi (Nat.not_lt_zero i),
    fun i _ hi => h i hi⟩

end SlotLog
