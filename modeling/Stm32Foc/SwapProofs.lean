import Stm32Foc.Boot
import Stm32Foc.PageRotation

/-! # The image swap is a redo-journaled page rotation

    `swapImages` is the page rotation of `PageRotation` carried out on flash
    offsets: its even steps save a firmware page in the DFU region, its odd
    steps refill it, and the swap log is the redo journal.  This file proves
    that (`swapCopy_spec`) for every device whose operations copy pages
    (`CopiesPages`), and derives what a call of `swapImages` does from any state
    an interrupted call can leave (`swapImages_spec`). -/

namespace SwapProofs

open ActionLogic ByteMemory WireBytes CopyJournal PageRotation Boot

/-! ## Layouts -/

/-- The number of image pages. -/
def pages (L : BootloaderLayout) : Nat := L.imagePages.toNat

/-- The page size. -/
def pageBytes (L : BootloaderLayout) : Nat := L.pageSizeBytes.toNat

/-- A layout with at least one image page, one spare DFU page, disjoint regions,
    and no `u32` overflow in the offsets the swap computes. -/
structure Sound (L : BootloaderLayout) : Prop where
  somePage : 0 < pages L
  someByte : 0 < pageBytes L
  dfuSize : L.dfuSizeBytes.toNat = (pages L + 1) * pageBytes L
  steps : 2 * pages L < 2 ^ 32
  firmwareEnd : L.firmwareOffsetBytes.toNat + pages L * pageBytes L ≤ 2 ^ 32
  dfuEnd : L.dfuOffsetBytes.toNat + (pages L + 1) * pageBytes L < 2 ^ 32
  scratchEnd : L.dfuOffsetBytes.toNat + (2 * pages L - 1) * pageBytes L < 2 ^ 32
  apart : L.firmwareOffsetBytes.toNat + pages L * pageBytes L
      ≤ L.dfuOffsetBytes.toNat ∨
    L.dfuOffsetBytes.toNat + (pages L + 1) * pageBytes L
      ≤ L.firmwareOffsetBytes.toNat

/-- The flash offset of a page: the firmware region is the front bank of the
    rotation, the DFU region the back bank. -/
def offset (L : BootloaderLayout) : Cell (pages L) → Nat
  | .front i => L.firmwareOffsetBytes.toNat + i.val * pageBytes L
  | .back j => L.dfuOffsetBytes.toNat + j.val * pageBytes L

variable {L : BootloaderLayout}

private theorem mul_page_le {i j p : Nat} (h : i < j) : i * p + p ≤ j * p := by
  calc i * p + p = (i + 1) * p := (Nat.succ_mul i p).symm
    _ ≤ j * p := Nat.mul_le_mul_right p h

theorem offset_front_le (i : Fin (pages L)) :
    offset L (.front i) + pageBytes L
      ≤ L.firmwareOffsetBytes.toNat + pages L * pageBytes L := by
  have := mul_page_le (p := pageBytes L) i.isLt
  show L.firmwareOffsetBytes.toNat + i.val * pageBytes L + pageBytes L ≤ _
  omega

theorem offset_back_le (j : Fin (pages L + 1)) :
    offset L (.back j) + pageBytes L
      ≤ L.dfuOffsetBytes.toNat + (pages L + 1) * pageBytes L := by
  have := mul_page_le (p := pageBytes L) j.isLt
  show L.dfuOffsetBytes.toNat + j.val * pageBytes L + pageBytes L ≤ _
  omega

private theorem pages_apart {i j : Nat} (base p : Nat) (h : i ≠ j) :
    base + i * p + p ≤ base + j * p ∨ base + j * p + p ≤ base + i * p := by
  rcases Nat.lt_or_gt_of_ne h with hlt | hlt
  · have := mul_page_le (p := p) hlt
    left
    omega
  · have := mul_page_le (p := p) hlt
    right
    omega

private theorem banks_apart (hL : Sound L) (i : Fin (pages L))
    (j : Fin (pages L + 1)) :
    offset L (.front i) + pageBytes L ≤ offset L (.back j) ∨
      offset L (.back j) + pageBytes L ≤ offset L (.front i) := by
  have hi := offset_front_le i
  have hj := offset_back_le j
  have hfront : L.firmwareOffsetBytes.toNat ≤ offset L (.front i) :=
    Nat.le_add_right _ _
  have hback : L.dfuOffsetBytes.toNat ≤ offset L (.back j) :=
    Nat.le_add_right _ _
  rcases hL.apart with ha | ha
  · left
    omega
  · right
    omega

/-- Different pages do not overlap. -/
theorem offset_apart (hL : Sound L) {c d : Cell (pages L)} (h : c ≠ d) :
    offset L c + pageBytes L ≤ offset L d ∨
      offset L d + pageBytes L ≤ offset L c := by
  cases c with
  | front i =>
      cases d with
      | front i' => exact pages_apart _ _ (fun he => h (by rw [Fin.ext he]))
      | back j => exact banks_apart hL i j
  | back j =>
      cases d with
      | front i => exact (banks_apart hL i j).symm
      | back j' => exact pages_apart _ _ (fun he => h (by rw [Fin.ext he]))

/-! ## The offsets the swap computes -/

/-- `page_offset` of a step. -/
theorem pageOffset_toNat (hL : Sound L) {s : Nat} (hs : s < 2 * pages L) :
    (UInt32.ofNat s / 2 * L.pageSizeBytes).toNat = s / 2 * pageBytes L := by
  have hs' : s < 2 ^ 32 := Nat.lt_trans hs hL.steps
  have hdiv : (UInt32.ofNat s / 2).toNat = s / 2 := by
    rw [UInt32.toNat_div, toNat_ofNat_of_lt hs']
    rfl
  have hle : s / 2 * pageBytes L < 2 ^ 32 := by
    have h1 := mul_page_le (p := pageBytes L) (show s / 2 < pages L by omega)
    have h2 := hL.someByte
    have h3 := hL.firmwareEnd
    omega
  rw [toNat_mul_of_lt (by rw [hdiv]; exact hle), hdiv]
  rfl

theorem firmwareOffset_toNat (hL : Sound L) {s : Nat} (hs : s < 2 * pages L) :
    (L.firmwareOffsetBytes + UInt32.ofNat s / 2 * L.pageSizeBytes).toNat
      = offset L (.front (cellOf ⟨s, hs⟩)) := by
  have hp := pageOffset_toNat hL hs
  have hle := offset_front_le (L := L) (cellOf ⟨s, hs⟩)
  have hb := hL.someByte
  have hend := hL.firmwareEnd
  simp only [offset, cellOf] at hle ⊢
  rw [toNat_add_of_lt (by rw [hp]; omega), hp]

theorem dfuOffset_toNat (hL : Sound L) {s : Nat} (hs : s < 2 * pages L) :
    (L.dfuOffsetBytes + UInt32.ofNat s / 2 * L.pageSizeBytes).toNat
      = offset L (.back (cellOf ⟨s, hs⟩).castSucc) := by
  have hp := pageOffset_toNat hL hs
  have hle := offset_back_le (L := L) (cellOf ⟨s, hs⟩).castSucc
  have hend := hL.dfuEnd
  simp only [offset, cellOf, Fin.castSucc_mk] at hle ⊢
  rw [toNat_add_of_lt (by rw [hp]; omega), hp]

/-- `wrap_offset_to_dfu` takes a page index past the region back to its
    start. -/
theorem wrapOffsetToDfu_toNat (hL : Sound L) {o : UInt32} {q : Nat}
    (ho : o.toNat = L.dfuOffsetBytes.toNat + q * pageBytes L)
    (hq : q < 2 * (pages L + 1)) :
    (L.wrapOffsetToDfu o).toNat
      = L.dfuOffsetBytes.toNat
        + (if q ≤ pages L then q else q - (pages L + 1)) * pageBytes L := by
  have hb := hL.someByte
  have hsize := hL.dfuSize
  have hend := hL.dfuEnd
  have hexp : (pages L + 1) * pageBytes L
      = pages L * pageBytes L + pageBytes L := Nat.succ_mul _ _
  have hsum : (L.dfuOffsetBytes + L.dfuSizeBytes).toNat
      = L.dfuOffsetBytes.toNat + (pages L + 1) * pageBytes L := by
    rw [toNat_add_of_lt (by rw [hsize]; exact hend), hsize]
  have hlast : (L.dfuOffsetBytes + L.dfuSizeBytes - L.pageSizeBytes).toNat
      = L.dfuOffsetBytes.toNat + pages L * pageBytes L := by
    rw [UInt32.toNat_sub_of_le _ _ (by
      rw [UInt32.le_iff_toNat_le, hsum]
      show pageBytes L ≤ _
      omega), hsum]
    show _ - pageBytes L = _
    omega
  rw [BootloaderLayout.wrapOffsetToDfu]
  by_cases hin : q ≤ pages L
  · have hle : q * pageBytes L ≤ pages L * pageBytes L :=
      Nat.mul_le_mul_right _ hin
    rw [if_neg (by
      rw [gt_iff_lt, UInt32.lt_iff_toNat_lt, hlast, ho]
      omega), if_pos hin, ho]
  · have hlt : pages L * pageBytes L + pageBytes L ≤ q * pageBytes L :=
      mul_page_le (by omega)
    rw [if_pos (by
      rw [gt_iff_lt, UInt32.lt_iff_toNat_lt, hlast, ho]
      omega), if_neg hin]
    have hdiff : (o - L.dfuOffsetBytes).toNat = q * pageBytes L := by
      rw [UInt32.toNat_sub_of_le _ _ (by
        rw [UInt32.le_iff_toNat_le, ho]
        omega), ho]
      omega
    have hsplit : q * pageBytes L
        = (q - (pages L + 1)) * pageBytes L
          + (pages L + 1) * pageBytes L := by
      rw [← Nat.add_mul]
      congr 1
      omega
    have hrest : (q - (pages L + 1)) * pageBytes L
        < (pages L + 1) * pageBytes L :=
      Nat.mul_lt_mul_of_pos_right (by omega) hb
    have hmod : ((o - L.dfuOffsetBytes) % L.dfuSizeBytes).toNat
        = (q - (pages L + 1)) * pageBytes L := by
      rw [UInt32.toNat_mod, hdiff, hsize, hsplit, Nat.add_mod_right,
        Nat.mod_eq_of_lt hrest]
    rw [toNat_add_of_lt (by rw [hmod]; omega), hmod]

/-- The DFU page `back` pages before the region's end, moved on by a step's page
    offset: the scratch page of the step before it is wrapped. -/
theorem scratchOffset_toNat (hL : Sound L) {s : Nat} (hs : s < 2 * pages L)
    {back : UInt32} {b : Nat} (hb : back.toNat = b * pageBytes L)
    (hb1 : 1 ≤ b) (hb2 : b ≤ pages L + 1) :
    (L.dfuOffsetBytes + L.dfuSizeBytes - back
        + UInt32.ofNat s / 2 * L.pageSizeBytes).toNat
      = L.dfuOffsetBytes.toNat + (pages L + 1 - b + s / 2) * pageBytes L := by
  have hsize := hL.dfuSize
  have hend := hL.dfuEnd
  have hscratch := hL.scratchEnd
  have hp := pageOffset_toNat hL hs
  have hsum : (L.dfuOffsetBytes + L.dfuSizeBytes).toNat
      = L.dfuOffsetBytes.toNat + (pages L + 1) * pageBytes L := by
    rw [toNat_add_of_lt (by rw [hsize]; exact hend), hsize]
  have hsplit : (pages L + 1) * pageBytes L
      = (pages L + 1 - b) * pageBytes L + b * pageBytes L := by
    rw [← Nat.add_mul]
    congr 1
    omega
  have hsub : (L.dfuOffsetBytes + L.dfuSizeBytes - back).toNat
      = L.dfuOffsetBytes.toNat + (pages L + 1 - b) * pageBytes L := by
    rw [UInt32.toNat_sub_of_le _ _ (by
      rw [UInt32.le_iff_toNat_le, hsum, hb]
      omega), hsum, hb]
    omega
  have hadd : (pages L + 1 - b + s / 2) * pageBytes L
      = (pages L + 1 - b) * pageBytes L + s / 2 * pageBytes L :=
    Nat.add_mul _ _ _
  have hle : (pages L + 1 - b + s / 2) * pageBytes L
      ≤ (2 * pages L - 1) * pageBytes L :=
    Nat.mul_le_mul_right _ (by omega)
  rw [toNat_add_of_lt (by rw [hsub, hp]; omega), hsub, hp]
  omega

/-- The scratch page of a forward save, and the source of a backward refill. -/
theorem slotOffset_toNat (hL : Sound L) {s : Nat} (hs : s < 2 * pages L) :
    (L.wrapOffsetToDfu (L.dfuOffsetBytes + L.dfuSizeBytes - L.pageSizeBytes
        + UInt32.ofNat s / 2 * L.pageSizeBytes)).toNat
      = offset L (.back (slot (cellOf ⟨s, hs⟩))) := by
  have hN := hL.somePage
  rw [wrapOffsetToDfu_toNat hL
    (scratchOffset_toNat (b := 1) hL hs (by simp [pageBytes]) (by omega)
      (by omega)) (by omega)]
  simp only [offset, slot_val, cellOf]
  congr 2
  split <;> split <;> omega

/-- The scratch page of a backward save. -/
theorem parkOffset_toNat (hL : Sound L) {s : Nat} (hs : s < 2 * pages L) :
    (L.wrapOffsetToDfu (L.dfuOffsetBytes + L.dfuSizeBytes
        - 2 * L.pageSizeBytes
        + UInt32.ofNat s / 2 * L.pageSizeBytes)).toNat
      = offset L (.back (park (cellOf ⟨s, hs⟩))) := by
  have hN := hL.somePage
  have hend := hL.dfuEnd
  have htwo : 2 * pageBytes L ≤ (pages L + 1) * pageBytes L :=
    Nat.mul_le_mul_right _ (by omega)
  have hpb : (2 * L.pageSizeBytes).toNat = 2 * pageBytes L := by
    rw [toNat_mul_of_lt (by
      show 2 * pageBytes L < _
      omega)]
    rfl
  rw [wrapOffsetToDfu_toNat hL
    (scratchOffset_toNat (b := 2) hL hs hpb (by omega) (by omega)) (by omega)]
  simp only [offset, park_val, cellOf]
  congr 2
  split <;> split
  all_goals first | omega | (split <;> omega)

/-! ## Devices that copy pages -/

/-- The copy program a mode runs. -/
def program (n : Nat) : SwapMode → List (Copy (Cell n))
  | .normal => forward n
  | .revert => backward n

@[simp] theorem length_program (n : Nat) (mode : SwapMode) :
    (program n mode).length = 2 * n := by
  cases mode <;> simp [program]

section Device

variable {T ε ρ : Type}

/-- How a device is seen by the swap: its pages, which entries of its log have
    been written to, and the rest of it, which the swap leaves alone. -/
structure View (L : BootloaderLayout) (T ρ : Type) where
  page : T → Cell (pages L) → List UInt8
  logged : T → Nat → Bool
  rest : T → ρ

/-- An operation carries out the copy `c`: when it returns, the copy is made;
    when it stops, anything may be in the destination and nothing else has
    changed.  Log and rest are left alone either way. -/
def Copies (v : View L T ρ) (c : Copy (Cell (pages L))) (x : Act T ε Unit) :
    Prop :=
  ∀ t, Spec (fun t' => t' = t) x
    (fun _ t' => v.page t' = c.run (v.page t) ∧ v.logged t' = v.logged t ∧
      v.rest t' = v.rest t)
    (fun _ t' => (∀ y, y ≠ c.dst → v.page t' y = v.page t y) ∧
      v.logged t' = v.logged t ∧ v.rest t' = v.rest t)

/-- An operation logs step `s`: when it stops, the entry may read as logged or
    not. -/
def Logs (v : View L T ρ) (s : Nat) (x : Act T ε Unit) : Prop :=
  ∀ t, Spec (fun t' => t' = t) x
    (fun _ t' => v.page t' = v.page t ∧
      v.logged t' = Function.update (v.logged t) s true ∧ v.rest t' = v.rest t)
    (fun _ t' => v.page t' = v.page t ∧
      (∀ i, i ≠ s → v.logged t' i = v.logged t i) ∧ v.rest t' = v.rest t)

/-- **THE DEVICE'S SIDE OF THE SWAP**: its operations copy pages and log
    steps. -/
structure CopiesPages [SwapOps T ε] (v : View L T ρ) : Prop where
  firmwareToDfu : ∀ i j (a b : UInt32), a.toNat = offset L (.front i) →
    b.toNat = offset L (.back j) →
    Copies v (save i j) (SwapOps.firmwareToDfu a b : Act T ε Unit)
  dfuToFirmware : ∀ j i (a b : UInt32), a.toNat = offset L (.back j) →
    b.toNat = offset L (.front i) →
    Copies v (fill j i) (SwapOps.dfuToFirmware a b : Act T ε Unit)
  logStep : ∀ s, s < 2 * pages L →
    Logs v s (SwapOps.logStep (UInt32.ofNat s) : Act T ε Unit)

variable [SwapOps T ε] {v : View L T ρ}

/-- **REFINEMENT**: the page copy of step `s` is the `s`-th copy of the mode's
    rotation program. -/
theorem swapCopy_spec (hL : Sound L) (hdev : CopiesPages v)
    (mode : SwapMode) {s : Nat} (hs : s < 2 * pages L)
    {c : Copy (Cell (pages L))} (hc : (program (pages L) mode)[s]? = some c) :
    Copies v c (swapCopy L mode (UInt32.ofNat s) : Act T ε Unit) := by
  have hs' : s < 2 ^ 32 := Nat.lt_trans hs hL.steps
  have hparity : UInt32.ofNat s % 2 = 0 ↔ s % 2 = 0 := by
    rw [← UInt32.toNat_inj, UInt32.toNat_mod, toNat_ofNat_of_lt hs']
    rfl
  unfold swapCopy
  cases mode with
  | normal =>
      have hstep := (getElem?_forward ⟨s, hs⟩).symm.trans hc
      by_cases heven : s % 2 = 0
      · rw [if_pos (hparity.mpr heven)]
        rw [← Option.some.inj hstep, forwardStep, if_pos heven]
        exact hdev.firmwareToDfu _ _ _ _ (firmwareOffset_toNat hL hs)
          (slotOffset_toNat hL hs)
      · rw [if_neg (fun h => heven (hparity.mp h))]
        rw [← Option.some.inj hstep, forwardStep, if_neg heven]
        exact hdev.dfuToFirmware _ _ _ _ (dfuOffset_toNat hL hs)
          (firmwareOffset_toNat hL hs)
  | revert =>
      have hstep := (getElem?_backward ⟨s, hs⟩).symm.trans hc
      by_cases heven : s % 2 = 0
      · rw [if_pos (hparity.mpr heven)]
        rw [← Option.some.inj hstep, backwardStep, if_pos heven]
        exact hdev.firmwareToDfu _ _ _ _ (firmwareOffset_toNat hL hs)
          (parkOffset_toNat hL hs)
      · rw [if_neg (fun h => heven (hparity.mp h))]
        rw [← Option.some.inj hstep, backwardStep, if_neg heven]
        exact hdev.dfuToFirmware _ _ _ _ (slotOffset_toNat hL hs)
          (firmwareOffset_toNat hL hs)

/-- The swap log names step `k` next, and the pages can be resumed there.  `cap`
    is the number of entries the log has room for. -/
structure ResumableAt (v : View L T ρ) (cap : Nat) (mode : SwapMode)
    (base : Cell (pages L) → List UInt8) (r : ρ) (k : Nat) (t : T) : Prop where
  bound : k ≤ 2 * pages L
  log : ∀ i, i < cap → v.logged t i = decide (i < k)
  pages : Resumable (program (pages L) mode) base k (v.page t)
  rest : v.rest t = r

variable {cap : Nat} {mode : SwapMode} {base : Cell (pages L) → List UInt8}
  {r : ρ}

/-- **STEP LEMMA**: the body of the loop takes a device resumable at `k` to one
    resumable at `k + 1`; stopped anywhere, it leaves the device resumable. -/
theorem swapStep_spec (hL : Sound L) (hdev : CopiesPages v) {k : Nat}
    (hk : k < 2 * pages L) :
    Spec (ResumableAt v cap mode base r k)
      (swapStep L mode (UInt32.ofNat k) : Act T ε Unit)
      (fun _ => ResumableAt v cap mode base r (k + 1))
      (fun _ t => ∃ k', ResumableAt v cap mode base r k' t) := by
  have hlen : k < (program (pages L) mode).length := by simpa using hk
  have hc : (program (pages L) mode)[k]? = some (program (pages L) mode)[k] :=
    List.getElem?_eq_getElem hlen
  -- between the copy and its log entry the pages are exact, the log is behind
  refine Spec.bind (M := fun _ t =>
    (∀ i, i < cap → v.logged t i = decide (i < k)) ∧
      v.page t = runUpTo (program (pages L) mode) base (k + 1) ∧
      v.rest t = r) ?_ ?_
  · intro t ht
    refine Spec.weaken (swapCopy_spec hL hdev mode hk hc t) (fun _ h => h)
      ?_ ?_ t rfl
    · rintro _ t' ⟨hpage, hlog, hrest⟩
      refine ⟨fun i hi => by rw [hlog]; exact ht.log i hi, ?_,
        hrest.trans ht.rest⟩
      rw [hpage]
      exact ht.pages.redo hlen
    · rintro _ t' ⟨hpage, hlog, hrest⟩
      exact ⟨k, ht.bound, fun i hi => by rw [hlog]; exact ht.log i hi,
        ht.pages.spoil hc hpage, hrest.trans ht.rest⟩
  · rintro _ t ⟨hlog, hexact, hr⟩
    refine Spec.weaken (hdev.logStep k hk t) (fun _ h => h) ?_ ?_ t rfl
    · rintro _ t' ⟨hpage, hlog', hrest⟩
      refine ⟨hk, ?_, Resumable.of_eq (hpage.trans hexact), hrest.trans hr⟩
      intro i hi
      rw [hlog']
      by_cases hik : i = k
      · subst hik
        simp
      · rw [Function.update_of_ne hik, hlog i hi]
        exact decide_eq_decide.mpr (by omega)
    · rintro _ t' ⟨hpage, hlog', hrest⟩
      -- a torn entry reads as logged, or as still erased: resumable either way
      have hpages := hpage.trans hexact
      cases hentry : v.logged t' k with
      | true =>
          refine ⟨k + 1, hk, ?_, Resumable.of_eq hpages, hrest.trans hr⟩
          intro i hi
          by_cases hik : i = k
          · subst hik
            simp [hentry]
          · rw [hlog' i hik, hlog i hi]
            exact decide_eq_decide.mpr (by omega)
      | false =>
          refine ⟨k, Nat.le_of_lt hk, ?_, ?_, hrest.trans hr⟩
          · intro i hi
            by_cases hik : i = k
            · subst hik
              simp [hentry]
            · rw [hlog' i hik, hlog i hi]
          · intro x hx
            rw [hpages, runUpTo_succ hlen, Copy.run_of_ne _ _ (hx _ hc)]

/-- A log read off the device agrees with what it shows of its entries. -/
def ReadsLog (logged : Nat → Bool) (cap : Nat) (swapLog : List UInt8) : Prop :=
  (chunksExact logEntryBytes swapLog).length = cap ∧
    ∀ (i : Nat) (h : i < (chunksExact logEntryBytes swapLog).length),
      allErased (chunksExact logEntryBytes swapLog)[i] = !logged i

/-- The step the swap starts from is the one its log names next. -/
theorem startStep_eq {logged : Nat → Bool} {swapLog : List UInt8} {k : Nat}
    (hread : ReadsLog logged cap swapLog) (hk : k ≤ cap)
    (hlog : ∀ i, i < cap → logged i = decide (i < k)) :
    startStep swapLog = if k < cap then some (UInt32.ofNat k) else none := by
  obtain ⟨hlen, hentry⟩ := hread
  rw [startStep]
  -- entry `k` is the first that is still erased, if the log has one
  by_cases hkc : k < cap
  · have hfind : (chunksExact logEntryBytes swapLog).findIdx? allErased
        = some k := by
      refine List.findIdx?_eq_some_iff_getElem.mpr ⟨by omega, ?_, ?_⟩
      · rw [hentry k (by omega), hlog k hkc]
        simp
      · intro j hj
        rw [hentry j (by omega), hlog j (by omega)]
        simp [hj]
    rw [hfind, if_pos hkc]
    rfl
  · have hfind : (chunksExact logEntryBytes swapLog).findIdx? allErased
        = none := by
      refine List.findIdx?_eq_none_iff.mpr ?_
      intro entry hmem
      obtain ⟨i, hi, hie⟩ := List.mem_iff_getElem.mp hmem
      rw [← hie, hentry i hi, hlog i (by omega)]
      simp only [Bool.not_eq_eq_eq_not, Bool.not_false, decide_eq_true_eq]
      omega
    rw [hfind, if_neg hkc]
    rfl

/-- **THE SWAP, RESUMED**: from a device resumable at `k`, a call that returns
    has run the whole program; a call that is stopped leaves the device
    resumable. -/
theorem swapImages_spec (hL : Sound L) (hdev : CopiesPages v)
    (hcap : 2 * pages L ≤ cap) {k : Nat} {swapLog : List UInt8} (t₀ : T)
    (hread : ReadsLog (v.logged t₀) cap swapLog)
    (h₀ : ResumableAt v cap mode base r k t₀) :
    Spec (fun t => t = t₀) (swapImages L mode swapLog : Act T ε Unit)
      (fun _ => ResumableAt v cap mode base r (2 * pages L))
      (fun _ t => ∃ k', ResumableAt v cap mode base r k' t) := by
  have hsteps := hL.steps
  have hk := h₀.bound
  have hstop : (2 * L.imagePages).toNat = 2 * pages L := by
    rw [toNat_mul_of_lt (by
      show 2 * pages L < _
      omega)]
    rfl
  have hstart := startStep_eq hread (by omega) h₀.log
  rw [swapImages]
  rw [hstart]
  by_cases hkc : k < cap
  · rw [if_pos hkc]
    simp only [hstop, toNat_ofNat_of_lt (show k < 2 ^ 32 by omega)]
    refine Spec.weaken (Spec.forRange
      (I := fun i => ResumableAt v cap mode base r i) hk
      (fun i hi => swapStep_spec hL hdev hi)) ?_ (fun _ _ h => h)
      (fun _ _ h => h)
    rintro t rfl
    exact h₀
  · rw [if_neg hkc]
    refine Spec.ret ?_
    rintro t rfl
    -- a full log names no step: the program has run already
    have hend : k = 2 * pages L := by omega
    rw [← hend]
    exact h₀

end Device

end SwapProofs
