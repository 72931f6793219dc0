import Mathlib.Data.List.Basic
import Mathlib.Data.List.GetD

/-! # A stream in frames of one size

    A list sent in frames of a fixed size, the last filled up with padding, and put
    together again as rows of another size.  Where the padding is shorter than a row
    the rows are those that were sent. -/

namespace PaddedFrames

universe u

variable {α : Type u}

/-- How many frames hold `length` items. -/
def frameCount (size length : Nat) : Nat := (length + (size - 1)) / size

/-- The `k`-th frame of a stream. -/
def frame (size : Nat) (pad : α) (stream : List α) (k : Nat) : List α :=
  (List.range size).map fun i => stream.getD (k * size + i) pad

/-- The whole rows of a stream; a shorter rest is left out. -/
def rows (size : Nat) (stream : List α) : List (List α) :=
  (List.range (stream.length / size)).map fun r => (stream.drop (r * size)).take size

/-- The first frames one after the other. -/
theorem flatMap_frame (size : Nat) (pad : α) (stream : List α) (n : Nat) :
    (List.range n).flatMap (frame size pad stream)
      = (List.range (n * size)).map fun j => stream.getD j pad := by
  induction n with
  | zero => rw [Nat.zero_mul]; rfl
  | succ n ih =>
      rw [List.range_succ, List.flatMap_append, ih, Nat.succ_mul, List.range_add,
        List.map_append, List.map_map, List.flatMap_singleton]
      rfl

theorem map_getD_range (pad : α) (stream : List α) {m : Nat} (h : stream.length ≤ m) :
    (List.range m).map (fun j => stream.getD j pad)
      = stream ++ List.replicate (m - stream.length) pad := by
  refine List.ext_getElem ?_ fun j hj hj' => ?_
  · rw [List.length_map, List.length_range, List.length_append, List.length_replicate]
    omega
  · rw [List.getElem_map, List.getElem_range]
    rcases Nat.lt_or_ge j stream.length with hlt | hge
    · rw [List.getElem_append_left hlt, List.getD_eq_getElem _ _ hlt]
    · rw [List.getElem_append_right hge, List.getElem_replicate, List.getD_eq_default _ _ hge]

theorem length_le_frameCount_mul {size : Nat} (hsize : 0 < size) (length : Nat) :
    length ≤ frameCount size length * size := by
  have hdiv := Nat.lt_div_mul_add hsize (a := length + (size - 1))
  rw [frameCount]
  omega

theorem frameCount_mul_lt {size : Nat} (hsize : 0 < size) (length : Nat) :
    frameCount size length * size < length + size := by
  have hdiv := Nat.div_mul_le_self (length + (size - 1)) size
  rw [frameCount]
  omega

/-- **FRAMES**: all frames of a stream are the stream and less than one frame of
    padding. -/
theorem flatMap_frames {size : Nat} (hsize : 0 < size) (pad : α) (stream : List α) :
    ∃ rest, rest < size ∧ (List.range (frameCount size stream.length)).flatMap
      (frame size pad stream) = stream ++ List.replicate rest pad := by
  refine ⟨_, ?_, (flatMap_frame ..).trans
    (map_getD_range pad stream (length_le_frameCount_mul hsize _))⟩
  have hlt := frameCount_mul_lt hsize stream.length
  omega

/-- An item of joined rows, by its row and its place there. -/
theorem getD_flatMap {β : Type u} {size : Nat} (hsize : 0 < size) (pad : α)
    (row : β → List α) (hrow : ∀ b, (row b).length = size) (bs : List β) (j : Nat) :
    (bs.flatMap row).getD j pad
      = (bs[j / size]?.map fun b => (row b).getD (j % size) pad).getD pad := by
  induction bs generalizing j with
  | nil => rfl
  | cons b bs ih =>
      rw [List.flatMap_cons]
      rcases Nat.lt_or_ge j size with hlt | hge
      · rw [List.getD_append _ _ _ _ (by rw [hrow]; exact hlt), Nat.div_eq_of_lt hlt,
          Nat.mod_eq_of_lt hlt]
        rfl
      · obtain ⟨k, rfl⟩ := Nat.exists_eq_add_of_le hge
        rw [List.getD_append_right _ _ _ _ (by rw [hrow]; exact hge), hrow,
          Nat.add_sub_cancel_left, ih, Nat.add_div_left _ hsize, Nat.add_mod_left]
        rfl

theorem rows_of_lt {size : Nat} {stream : List α} (h : stream.length < size) :
    rows size stream = [] := by
  rw [rows, Nat.div_eq_of_lt h]
  rfl

theorem rows_append {size : Nat} (hsize : 0 < size) {row : List α} (hrow : row.length = size)
    (stream : List α) : rows size (row ++ stream) = row :: rows size stream := by
  have hlen : (row ++ stream).length / size = stream.length / size + 1 := by
    rw [List.length_append, hrow, Nat.add_div_left _ hsize]
  rw [rows, hlen, List.range_succ_eq_map, List.map_cons, List.map_map]
  congr 1
  · rw [Nat.zero_mul, List.drop_zero, List.take_left' hrow]
  · refine List.map_congr_left fun r _ => ?_
    show ((row ++ stream).drop ((r + 1) * size)).take size = _
    rw [Nat.succ_mul, Nat.add_comm, ← hrow, ← List.drop_drop, List.drop_left]

/-- **ROUND TRIP**: rows that were joined, framed and put together again. -/
theorem rows_flatMap {β : Type u} {size : Nat} (hsize : 0 < size) (row : β → List α)
    (hrow : ∀ b, (row b).length = size) {rest : List α} (hrest : rest.length < size)
    (bs : List β) : rows size (bs.flatMap row ++ rest) = bs.map row := by
  induction bs with
  | nil => exact rows_of_lt hrest
  | cons b bs ih =>
      rw [List.flatMap_cons, List.append_assoc, rows_append hsize (hrow b), ih, List.map_cons]

end PaddedFrames
