import Mathlib.Algebra.BigOperators.Fin
import Mathlib.Algebra.Group.Fin.Basic
import Mathlib.Algebra.Group.Units.Equiv
import Mathlib.Algebra.Order.Group.Basic
import Mathlib.Order.Fin.Basic
import Mathlib.Tactic.Abel
import Mathlib.Tactic.Common

/-! # Marks around a circle

    Marks in `[0, turn)` on a circle.  `ahead` is how far one must go forward from one
    mark to the other; of marks in order, the one that follows is the nearest ahead. -/

namespace CircularMarks

universe u

variable {K : Type u} [AddCommGroup K] [LinearOrder K]

/-- The way forward from `a` to `b`. -/
def ahead (turn a b : K) : K := if b < a then b - a + turn else b - a

theorem ahead_of_lt {turn a b : K} (h : b < a) : ahead turn a b = b - a + turn :=
  if_pos h

theorem ahead_of_le {turn a b : K} (h : a ≤ b) : ahead turn a b = b - a :=
  if_neg (not_lt.mpr h)

/-- The way forward leads to the mark, in this turn or in the next. -/
theorem add_ahead (turn a b : K) : a + ahead turn a b = b ∨ a + ahead turn a b = b + turn := by
  rcases lt_or_ge b a with h | h
  · right
    rw [ahead_of_lt h]
    abel
  · left
    rw [ahead_of_le h]
    abel

/-- There and on to the start again is a turn. -/
theorem ahead_add_back {turn a b : K} (hne : a ≠ b) : ahead turn a b + ahead turn b a = turn := by
  rcases lt_or_gt_of_ne hne with h | h
  · rw [ahead_of_le h.le, ahead_of_lt h]
    abel
  · rw [ahead_of_lt h, ahead_of_le h.le]
    abel

section Order

variable [IsOrderedAddMonoid K] {turn : K}

theorem ahead_nonneg {a b : K} (ha : a < turn) (hb : 0 ≤ b) : 0 ≤ ahead turn a b := by
  rcases lt_or_ge b a with h | h
  · rw [ahead_of_lt h, sub_add_eq_add_sub]
    exact sub_nonneg.mpr (ha.le.trans (le_add_of_nonneg_left hb))
  · rw [ahead_of_le h]
    exact sub_nonneg.mpr h

/-- Two marks are some way apart. -/
theorem ahead_pos {a b : K} (ha : a < turn) (hb : 0 ≤ b) (hne : a ≠ b) :
    0 < ahead turn a b := by
  rcases lt_or_ge b a with h | h
  · rw [ahead_of_lt h, sub_add_eq_add_sub]
    exact sub_pos.mpr (lt_of_lt_of_le ha (le_add_of_nonneg_left hb))
  · rw [ahead_of_le h]
    exact sub_pos.mpr (lt_of_le_of_ne h hne)

/-- The way to a mark leads by every mark that is nearer. -/
theorem ahead_add {a b c : K} (hb : 0 ≤ b) (hc : c < turn)
    (hle : ahead turn a b ≤ ahead turn a c) :
    ahead turn a c = ahead turn a b + ahead turn b c := by
  rcases lt_or_ge b a with hba | hba
  · rw [ahead_of_lt hba] at hle ⊢
    rcases lt_or_ge c a with hca | hca
    · rw [ahead_of_lt hca] at hle ⊢
      rw [add_le_add_iff_right, sub_le_sub_iff_right] at hle
      rw [ahead_of_le hle]
      abel
    · -- the second mark would be a turn or more away
      rw [ahead_of_le hca, sub_add_eq_add_sub, sub_le_sub_iff_right] at hle
      exact absurd ((le_add_of_nonneg_left hb).trans hle) (not_le.mpr hc)
  · rw [ahead_of_le hba] at hle ⊢
    rcases lt_or_ge c a with hca | hca
    · rw [ahead_of_lt hca, ahead_of_lt (lt_of_lt_of_le hca hba)]
      abel
    · rw [ahead_of_le hca, sub_le_sub_iff_right] at hle
      rw [ahead_of_le hca, ahead_of_le hle]
      abel

/-- Marks equally far ahead are one. -/
theorem ahead_inj {a b c : K} (hb : 0 ≤ b) (hb' : b < turn) (hc : 0 ≤ c) (hc' : c < turn)
    (h : ahead turn a b = ahead turn a c) : b = c := by
  by_contra hne
  have hadd := ahead_add hb hc' h.le
  rw [h, left_eq_add] at hadd
  exact absurd hadd (ahead_pos hb' hc hne).ne'

/-- Of two marks, only one can be the first after the other. -/
theorem not_nearest_back {a b c : K} (ha : 0 ≤ a) (hb : 0 ≤ b) (hc : c < turn)
    (hturn : 0 < turn) (hne : a ≠ b) (hforth : ahead turn a b ≤ ahead turn a c) :
    ahead turn b c < ahead turn b a := by
  by_contra hback
  have hac := ahead_add hb hc hforth
  rw [ahead_add ha hc (not_lt.mp hback), ← add_assoc, ahead_add_back hne, right_eq_add] at hac
  exact hturn.ne' hac

omit [IsOrderedAddMonoid K] in
/-- The way ahead of the last mark is the only one that leads into the next turn. -/
theorem ahead_next {n : Nat} {marks : Fin (n + 1) → K} (hmono : Monotone marks)
    (hfirst : marks 0 < marks (Fin.last n)) (i : Fin (n + 1)) :
    ahead turn (marks i) (marks (i + 1))
      = marks (i + 1) - marks i + if i = Fin.last n then turn else 0 := by
  by_cases hi : i = Fin.last n
  · rw [if_pos hi, hi, Fin.last_add_one]
    exact ahead_of_lt hfirst
  · rw [if_neg hi, add_zero]
    exact ahead_of_le (hmono (Fin.lt_add_one_iff.mpr (Fin.lt_last_iff_ne_last.mpr hi)).le)

omit [IsOrderedAddMonoid K] in
/-- **ONCE AROUND**: the ways from each mark in order to the one that follows, the first
    one following the last, add up to a turn. -/
theorem sum_ahead {n : Nat} {marks : Fin (n + 1) → K} (hmono : Monotone marks)
    (hfirst : marks 0 < marks (Fin.last n)) :
    ∑ i, ahead turn (marks i) (marks (i + 1)) = turn := by
  have hshift : ∑ i, marks (i + 1) = ∑ i, marks i :=
    Equiv.sum_comp (Equiv.addRight (1 : Fin (n + 1))) marks
  calc ∑ i, ahead turn (marks i) (marks (i + 1))
      = ∑ i, (marks (i + 1) - marks i + if i = Fin.last n then turn else 0) :=
        Finset.sum_congr rfl fun i _ => ahead_next hmono hfirst i
    _ = ∑ i, marks (i + 1) - ∑ i, marks i + turn := by
        rw [Finset.sum_add_distrib, Finset.sum_sub_distrib, Finset.sum_ite_eq',
          if_pos (Finset.mem_univ _)]
    _ = turn := by
        rw [hshift, sub_self, zero_add]

variable {n : Nat} {marks : Fin (n + 1) → K}

/-- **THE NEXT IS THE NEAREST**: of marks in order, no other is sooner ahead than the one
    that follows, the first one following the last. -/
theorem nearest_next (hmono : StrictMono marks) (hnonneg : ∀ i, 0 ≤ marks i)
    (hturn : ∀ i, marks i < turn) (i j : Fin (n + 1)) (hji : j ≠ i) :
    ahead turn (marks i) (marks (i + 1)) ≤ ahead turn (marks i) (marks j) := by
  rcases Nat.lt_or_eq_of_le (Nat.le_of_lt_succ i.isLt) with hi | hi
  · -- a mark follows in this turn
    have hnext : (i + 1).val = i.val + 1 := Fin.val_add_one_of_lt (Fin.lt_def.mpr hi)
    have hlt : i < i + 1 := Fin.lt_def.mpr (by omega)
    rw [ahead_of_le (hmono hlt).le]
    rcases lt_or_gt_of_ne hji with hj | hj
    · rw [ahead_of_lt (hmono hj), sub_add_eq_add_sub]
      have hwrap : marks (i + 1) ≤ marks j + turn :=
        (hturn (i + 1)).le.trans (le_add_of_nonneg_left (hnonneg j))
      exact sub_le_sub_right hwrap _
    · have hle : i + 1 ≤ j := Fin.le_def.mpr (by rw [hnext]; exact hj)
      rw [ahead_of_le (hmono hj).le]
      exact sub_le_sub_right (hmono.monotone hle) _
  · -- the first mark follows, in the next turn
    have hlast : i = Fin.last n := Fin.ext hi
    have hnext : i + 1 = 0 := by rw [hlast, Fin.last_add_one]
    have hj : j < i := lt_of_le_of_ne (hlast ▸ Fin.le_last j) hji
    have hzero : (0 : Fin (n + 1)) < i := lt_of_le_of_lt (Fin.zero_le j) hj
    rw [hnext, ahead_of_lt (hmono hzero), ahead_of_lt (hmono hj)]
    exact add_le_add_left (sub_le_sub_right (hmono.monotone (Fin.zero_le j)) _) _

end Order

end CircularMarks
