import Mathlib.Data.List.GetD
import Mathlib.Data.List.Range
import Mathlib.Tactic.Common

/-! # Byte memories: slices, patches, erased ranges

    A memory is a function from addresses to bytes.  Programs move bytes in
    RANGES, so the vocabulary here is `slice` (the bytes of a range), `patch`
    (put a list of bytes at an address) and `Erased` (a range reads all ones,
    the erased state of NOR flash).  The lemmas say how the three meet: a slice
    of a patch is the patch where they coincide, and what it was where they are
    apart. -/

namespace ByteMemory

/-- A byte-addressed memory. -/
abbrev Mem : Type := Nat → UInt8

/-- The value of an erased flash byte. -/
def erasedByte : UInt8 := 0xFF

/-- The `len` bytes from `off` on. -/
def slice (m : Mem) (off len : Nat) : List UInt8 :=
  (List.range len).map (fun i => m (off + i))

/-- The memory with the bytes `bs` put at `off`. -/
def patch (m : Mem) (off : Nat) (bs : List UInt8) : Mem := fun a =>
  if off ≤ a then bs.getD (a - off) (m a) else m a

/-- The memory with the range `[start, stop)` erased. -/
def erase (m : Mem) (start stop : Nat) : Mem := fun a =>
  if start ≤ a ∧ a < stop then erasedByte else m a

/-- Every byte of a list is erased. -/
def allErased (bs : List UInt8) : Bool := bs.all (· == erasedByte)

/-- The range `[off, off + len)` reads erased. -/
def Erased (m : Mem) (off len : Nat) : Prop :=
  ∀ a, off ≤ a → a < off + len → m a = erasedByte

variable {m m' : Mem} {off off' len len' a : Nat} {bs : List UInt8}

/-! ## Slices -/

@[simp] theorem length_slice (m : Mem) (off len : Nat) :
    (slice m off len).length = len := by
  simp [slice]

@[simp] theorem getElem_slice {i : Nat} (h : i < (slice m off len).length) :
    (slice m off len)[i] = m (off + i) := by
  simp [slice]

theorem getElem?_slice {i : Nat} (h : i < len) :
    (slice m off len)[i]? = some (m (off + i)) := by
  rw [List.getElem?_eq_getElem (by simpa using h), getElem_slice]

/-- Two slices agree when the memories agree byte by byte. -/
theorem slice_ext (h : ∀ i, i < len → m (off + i) = m' (off' + i)) :
    slice m off len = slice m' off' len := by
  refine List.map_congr_left ?_
  intro i hi
  exact h i (List.mem_range.mp hi)

theorem byte_of_slice_eq (h : slice m off len = slice m' off' len) {i : Nat}
    (hi : i < len) : m (off + i) = m' (off' + i) := by
  have h1 : (slice m off len)[i]? = some (m (off + i)) := getElem?_slice hi
  rw [h, getElem?_slice hi] at h1
  exact (Option.some.inj h1).symm

theorem slice_take (n : Nat) (h : n ≤ len) :
    (slice m off len).take n = slice m off n := by
  refine List.ext_getElem (by simp [h]) ?_
  intro i h1 h2
  simp

theorem slice_drop (n : Nat) :
    (slice m off len).drop n = slice m (off + n) (len - n) := by
  refine List.ext_getElem (by simp) ?_
  intro i h1 h2
  simp [Nat.add_assoc]

/-- A sub-range of a slice is a slice. -/
theorem slice_sub (k n : Nat) (h : k + n ≤ len) :
    ((slice m off len).drop k).take n = slice m (off + k) n := by
  rw [slice_drop, slice_take n (by omega)]

/-- Two ranges, one behind the other. -/
theorem slice_add (m : Mem) (off n k : Nat) :
    slice m off (n + k) = slice m off n ++ slice m (off + n) k := by
  refine List.ext_getElem (by simp) ?_
  intro i h1 h2
  rw [getElem_slice]
  by_cases hi : i < n
  · rw [List.getElem_append_left (by simpa using hi), getElem_slice]
  · rw [List.getElem_append_right (by simpa using Nat.not_lt.mp hi), getElem_slice,
      length_slice, Nat.add_assoc, Nat.add_sub_cancel' (Nat.not_lt.mp hi)]

/-- A region of `n` pages is read page by page. -/
theorem slice_pages {n p : Nat}
    (h : ∀ i, i < n → slice m (off + i * p) p = slice m' (off' + i * p) p) :
    slice m off (n * p) = slice m' off' (n * p) := by
  refine slice_ext ?_
  intro x hx
  have hp : 0 < p := Nat.pos_of_ne_zero (by
    intro h0
    rw [h0, Nat.mul_zero] at hx
    exact absurd hx (Nat.not_lt_zero x))
  have hdiv : x / p < n := (Nat.div_lt_iff_lt_mul hp).mpr hx
  have hsplit : x / p * p + x % p = x := Nat.div_add_mod' x p
  have hbyte := byte_of_slice_eq (h (x / p) hdiv) (Nat.mod_lt x hp)
  rw [Nat.add_assoc, Nat.add_assoc, hsplit] at hbyte
  exact hbyte

/-- ... and two regions that read alike read alike page by page. -/
theorem page_of_slice_eq {n p i : Nat}
    (h : slice m off (n * p) = slice m' off' (n * p)) (hi : i < n) :
    slice m (off + i * p) p = slice m' (off' + i * p) p := by
  have hbound : i * p + p ≤ n * p := by
    calc i * p + p = (i + 1) * p := (Nat.succ_mul i p).symm
      _ ≤ n * p := Nat.mul_le_mul_right p hi
  rw [← slice_sub (m := m) _ _ hbound, ← slice_sub (m := m') _ _ hbound, h]

/-! ## Patches -/

theorem patch_below (h : a < off) : patch m off bs a = m a := by
  show (if off ≤ a then bs.getD (a - off) (m a) else m a) = m a
  rw [if_neg (by omega)]

theorem patch_above (h : off + bs.length ≤ a) : patch m off bs a = m a := by
  show (if off ≤ a then bs.getD (a - off) (m a) else m a) = m a
  rw [if_pos (by omega), List.getD_eq_default _ _ (by omega)]

theorem patch_inside {i : Nat} (h : i < bs.length) :
    patch m off bs (off + i) = bs[i] := by
  show (if off ≤ off + i then bs.getD (off + i - off) (m (off + i))
    else m (off + i)) = bs[i]
  rw [if_pos (by omega), Nat.add_sub_cancel_left, List.getD_eq_getElem _ _ h]

theorem patch_nil (m : Mem) (off : Nat) : patch m off [] = m := by
  funext a
  by_cases h : a < off
  · exact patch_below h
  · exact patch_above (by simpa using h)

/-- **READ BACK**: the patched range reads as the patch. -/
theorem slice_patch_self (m : Mem) (off : Nat) (bs : List UInt8) :
    slice (patch m off bs) off bs.length = bs := by
  refine List.ext_getElem (by simp) ?_
  intro i h1 h2
  rw [getElem_slice, patch_inside h2]

/-- **FRAME**: a range apart from the patch reads as before. -/
theorem slice_patch_apart
    (h : off + len ≤ off' ∨ off' + bs.length ≤ off) :
    slice (patch m off' bs) off len = slice m off len := by
  refine slice_ext ?_
  intro i hi
  rcases h with h | h
  · exact patch_below (by omega)
  · exact patch_above (by omega)

/-! ## Erased ranges -/

theorem erase_inside {start stop : Nat} (h : start ≤ a) (h' : a < stop) :
    erase m start stop a = erasedByte := by
  show (if start ≤ a ∧ a < stop then erasedByte else m a) = erasedByte
  rw [if_pos ⟨h, h'⟩]

theorem erase_outside {start stop : Nat} (h : a < start ∨ stop ≤ a) :
    erase m start stop a = m a := by
  show (if start ≤ a ∧ a < stop then erasedByte else m a) = m a
  rw [if_neg (by omega)]

theorem erased_erase (m : Mem) {start stop : Nat} (hs : start ≤ off)
    (he : off + len ≤ stop) : Erased (erase m start stop) off len := by
  intro a h1 h2
  exact erase_inside (by omega) (by omega)

theorem allErased_iff : allErased bs = true ↔ ∀ b ∈ bs, b = erasedByte := by
  simp [allErased]

/-- A range is erased exactly when its slice is. -/
theorem erased_iff_slice :
    Erased m off len ↔ allErased (slice m off len) = true := by
  rw [allErased_iff]
  constructor
  · intro h b hb
    obtain ⟨i, hi, hib⟩ := List.mem_map.mp hb
    rw [← hib]
    exact h (off + i) (by omega) (by
      have := List.mem_range.mp hi
      omega)
  · intro h a h1 h2
    refine h (m a) ?_
    refine List.mem_map.mpr ⟨a - off, List.mem_range.mpr (by omega), ?_⟩
    rw [Nat.add_sub_cancel' h1]

theorem Erased.sub (h : Erased m off len) (h1 : off ≤ off')
    (h2 : off' + len' ≤ off + len) : Erased m off' len' :=
  fun a ha ha' => h a (by omega) (by omega)

theorem Erased.patch_apart (h : Erased m off len)
    (ha : off + len ≤ off' ∨ off' + bs.length ≤ off) :
    Erased (patch m off' bs) off len := by
  intro a h1 h2
  rcases ha with ha | ha
  · rw [patch_below (by omega)]
    exact h a h1 h2
  · rw [patch_above (by omega)]
    exact h a h1 h2

/-! ## Changes confined to a range -/

/-- The memories agree outside `[off, off + len)`. -/
def SameOutside (off len : Nat) (m m' : Mem) : Prop :=
  ∀ a, a < off ∨ off + len ≤ a → m' a = m a

theorem SameOutside.refl (off len : Nat) (m : Mem) : SameOutside off len m m :=
  fun _ _ => rfl

theorem SameOutside.trans {m'' : Mem} (h : SameOutside off len m m')
    (h' : SameOutside off len m' m'') : SameOutside off len m m'' :=
  fun a ha => (h' a ha).trans (h a ha)

theorem SameOutside.widen (h : SameOutside off len m m') (h1 : off' ≤ off)
    (h2 : off + len ≤ off' + len') : SameOutside off' len' m m' :=
  fun a ha => h a (by omega)

theorem sameOutside_patch (m : Mem) (off : Nat) (h : bs.length ≤ len) :
    SameOutside off len m (patch m off bs) := by
  intro a ha
  rcases ha with ha | ha
  · exact patch_below ha
  · exact patch_above (by omega)

theorem sameOutside_erase (m : Mem) (off len : Nat) :
    SameOutside off len m (erase m off (off + len)) :=
  fun _ ha => erase_outside ha

/-- A range apart from the changed one reads as before. -/
theorem SameOutside.slice_eq (h : SameOutside off len m m')
    (ha : off' + len' ≤ off ∨ off + len ≤ off') :
    slice m' off' len' = slice m off' len' := by
  refine slice_ext ?_
  intro i hi
  exact h _ (by omega)

/-- Bytes put at the start of an erased range: the rest of it still reads all
    ones. -/
theorem slice_patch_erased (h : Erased m off len) (hlen : bs.length ≤ len) :
    slice (patch m off bs) off len
      = bs ++ List.replicate (len - bs.length) erasedByte := by
  refine List.ext_getElem (by simp [hlen]) ?_
  intro i h1 h2
  rw [getElem_slice]
  by_cases hi : i < bs.length
  · rw [patch_inside hi, List.getElem_append_left hi]
  · rw [patch_above (by omega), List.getElem_append_right (by omega),
      List.getElem_replicate]
    exact h _ (by omega) (by simpa using h1)

/-- Two patches, one behind the other. -/
theorem patch_patch (m : Mem) (off : Nat) (bs cs : List UInt8) :
    patch (patch m off bs) (off + bs.length) cs = patch m off (bs ++ cs) := by
  funext a
  by_cases hlow : a < off
  · rw [patch_below (by omega), patch_below hlow, patch_below hlow]
  by_cases hmid : a < off + bs.length
  · obtain ⟨i, rfl⟩ := Nat.exists_eq_add_of_le (Nat.not_lt.mp hlow)
    have hi : i < bs.length := by omega
    rw [patch_below hmid, patch_inside hi,
      patch_inside (by rw [List.length_append]; omega),
      List.getElem_append_left hi]
  by_cases hhigh : a < off + bs.length + cs.length
  · obtain ⟨i, rfl⟩ := Nat.exists_eq_add_of_le (Nat.not_lt.mp hmid)
    have hi : i < cs.length := by omega
    rw [patch_inside hi, Nat.add_assoc,
      patch_inside (by rw [List.length_append]; omega),
      List.getElem_append_right (by omega)]
    simp only [Nat.add_sub_cancel_left]
  · rw [patch_above (by omega), patch_above (by omega),
      patch_above (by rw [List.length_append]; omega)]

/-! ## Chunks -/

/-- The complete `n`-byte chunks of a list, in order; a shorter rest is left
    out. -/
def chunksExact (n : Nat) (bs : List UInt8) : List (List UInt8) :=
  (List.range (bs.length / n)).map (fun i => (bs.drop (i * n)).take n)

@[simp] theorem length_chunksExact (n : Nat) (bs : List UInt8) :
    (chunksExact n bs).length = bs.length / n := by
  simp [chunksExact]

/-- The chunks of a slice are slices. -/
theorem getElem_chunksExact_slice {n i : Nat}
    (h : i < (chunksExact n (slice m off len)).length) :
    (chunksExact n (slice m off len))[i] = slice m (off + i * n) n := by
  have hi : i < len / n := by simpa using h
  have hbound : i * n + n ≤ len := by
    calc i * n + n = (i + 1) * n := (Nat.succ_mul i n).symm
      _ ≤ (len / n) * n := Nat.mul_le_mul_right n hi
      _ ≤ len := Nat.div_mul_le_self len n
  simp only [chunksExact, List.getElem_map, List.getElem_range]
  exact slice_sub (i * n) n hbound

/-- The first chunks, put together again. -/
theorem flatten_take_chunksExact {n k : Nat} (bs : List UInt8)
    (hk : k * n ≤ bs.length) :
    ((chunksExact n bs).take k).flatten = bs.take (k * n) := by
  induction k with
  | zero => rw [List.take_zero, Nat.zero_mul, List.take_zero, List.flatten_nil]
  | succ k ih =>
      rw [Nat.succ_mul] at hk ⊢
      by_cases hn : n = 0
      · subst hn
        simp [chunksExact]
      have hlt : k < (chunksExact n bs).length := by
        rw [length_chunksExact, Nat.lt_div_iff_mul_lt (by omega)]
        omega
      rw [List.take_succ_eq_append_getElem hlt, List.flatten_append, ih (by omega),
        List.flatten_singleton, List.take_add]
      simp [chunksExact]

end ByteMemory
