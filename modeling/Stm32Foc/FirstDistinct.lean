import Mathlib.Data.List.Basic

/-! # The first distinct entries of a stream

    A log of fixed size that takes an entry only if it has room for it and has
    not seen it yet.  What it holds after a stream is the first `n` distinct
    entries, in the order they came; in memory it is a buffer of `n` cells, filled
    from the front and padded. -/

namespace FirstDistinct

universe u

variable {α : Type u} {n : Nat} {pad : α} {entries : List α}

/-! ## The buffer -/

/-- The cells of a buffer of size `n` that holds `entries`. -/
def padded (n : Nat) (pad : α) (entries : List α) : List α :=
  entries ++ List.replicate (n - entries.length) pad

theorem take_padded : (padded n pad entries).take entries.length = entries :=
  List.take_left

/-- Writing the first free cell of the buffer adds an entry. -/
theorem set_padded {x : α} (h : entries.length < n) :
    (padded n pad entries).set entries.length x
      = padded n pad (entries ++ [x]) := by
  obtain ⟨k, hk⟩ : ∃ k, n - entries.length = k + 1 :=
    ⟨n - entries.length - 1, by omega⟩
  have hrest : n - (entries ++ [x]).length = k := by
    rw [List.length_append, List.length_singleton]
    omega
  rw [padded, padded, hk, hrest, List.replicate_succ,
    List.set_append_right _ _ (Nat.le_refl _), Nat.sub_self, List.set_cons_zero,
    List.append_assoc]
  rfl

/-! ## The entries -/

variable [BEq α]

/-- The first `n` distinct entries, in the order they came. -/
def firstDistinct (n : Nat) (entries : List α) : List α :=
  entries.eraseDups.take n

/-- Short of `n` entries, the log has dropped none. -/
theorem firstDistinct_of_lt (h : (firstDistinct n entries).length < n) :
    firstDistinct n entries = entries.eraseDups := by
  rw [firstDistinct, List.length_take] at h
  exact List.take_of_length_le (by omega)

variable [LawfulBEq α]

/-- Entries that have all been seen add nothing. -/
private theorem eraseDups_snoc_of_mem {x : α} (h : x ∈ entries) :
    (entries ++ [x]).eraseDups = entries.eraseDups := by
  rw [List.eraseDups_append]
  have hnone : [x].removeAll entries = [] := by
    simp [List.removeAll, h]
  rw [hnone, List.eraseDups_nil, List.append_nil]

private theorem eraseDups_snoc_of_not_mem {x : α} (h : x ∉ entries) :
    (entries ++ [x]).eraseDups = entries.eraseDups ++ [x] := by
  rw [List.eraseDups_append]
  have hone : [x].removeAll entries = [x] := by
    simp [List.removeAll, h]
  rw [hone]
  rfl

/-- **ONE MORE ENTRY** is taken if there is room for it and it is new. -/
theorem firstDistinct_snoc (x : α) :
    firstDistinct n (entries ++ [x])
      = if (firstDistinct n entries).length < n ∧ x ∉ firstDistinct n entries
        then firstDistinct n entries ++ [x] else firstDistinct n entries := by
  by_cases hroom : (firstDistinct n entries).length < n
  · have hall := firstDistinct_of_lt hroom
    by_cases hnew : x ∈ firstDistinct n entries
    · rw [if_neg (fun h => h.2 hnew)]
      rw [hall, List.mem_eraseDups] at hnew
      rw [firstDistinct, eraseDups_snoc_of_mem hnew, ← firstDistinct]
    · rw [if_pos ⟨hroom, hnew⟩]
      rw [hall] at hnew hroom ⊢
      rw [List.mem_eraseDups] at hnew
      rw [firstDistinct, eraseDups_snoc_of_not_mem hnew]
      refine List.take_of_length_le ?_
      rw [List.length_append, List.length_singleton]
      omega
  · rw [if_neg (fun h => hroom h.1)]
    have hfull : n ≤ entries.eraseDups.length := by
      rw [firstDistinct, List.length_take] at hroom
      omega
    by_cases hnew : x ∈ entries
    · rw [firstDistinct, eraseDups_snoc_of_mem hnew, ← firstDistinct]
    · rw [firstDistinct, eraseDups_snoc_of_not_mem hnew,
        List.take_append_of_le_length hfull]
      rfl

end FirstDistinct
