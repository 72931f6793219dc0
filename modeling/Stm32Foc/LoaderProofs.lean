import Stm32Foc.Loader
import Stm32Foc.SwapProofs
import Mathlib.Algebra.Ring.Parity

/-! # What the bootloader jumps to

    The status record, the swap log, the direction of the swap in progress and
    the contents of the pages, tied together by one invariant (`Phase`) that
    every boot keeps however it is cut short.  Its only hole is `main` itself:
    the revert is entered only when the watchdog flag is set, so a boot without
    the flag skips a revert that is half-way (`halfReverted`) and jumps to pages
    of both images.  `jumps_whole` says that this is the only way to jump to
    anything but one whole image. -/

namespace LoaderProofs

open ActionLogic ByteMemory WireBytes CopyJournal PageRotation Boot SwapProofs
open Loader

/-- A layout whose status page is behind the DFU region, apart from the firmware
    region, and has room for the record and a log entry for every step. -/
structure HasStatusPage (L : BootloaderLayout) : Prop extends Sound L where
  eraseEnd : L.firmwareOffsetBytes.toNat + pages L * pageBytes L < 2 ^ 32
  statusEnd : L.dfuOffsetBytes.toNat + (pages L + 2) * pageBytes L < 2 ^ 32
  statusApart : L.firmwareOffsetBytes.toNat + pages L * pageBytes L
      ≤ L.dfuOffsetBytes.toNat ∨
    L.dfuOffsetBytes.toNat + (pages L + 2) * pageBytes L
      ≤ L.firmwareOffsetBytes.toNat
  logRoom : statusBytes + 2 * pages L * logEntryBytes ≤ pageBytes L

/-- The board's memory map: 16 KiB of bootloader, 236 KiB of firmware, the DFU
    region at the start of the second bank. -/
example : HasStatusPage ⟨118, 2048, 0x4000, 0x40000, 243712⟩ := by
  constructor
  · constructor <;> decide
  all_goals decide

variable {L : BootloaderLayout}

/-- Where the status page starts. -/
def status (L : BootloaderLayout) : Nat :=
  L.dfuOffsetBytes.toNat + (pages L + 1) * pageBytes L

/-- The number of entries the swap log has room for. -/
def entries (L : BootloaderLayout) : Nat := swapLogBytes L / logEntryBytes

/-! ## Offsets -/

theorem statusOffset_toNat (hL : HasStatusPage L) :
    (bootloaderStatusOffset L).toNat = status L := by
  have hsize := hL.dfuSize
  have hend := hL.dfuEnd
  rw [bootloaderStatusOffset, toNat_add_of_lt (by omega), hsize]
  rfl

private theorem status_page_lt (hL : HasStatusPage L) :
    status L + pageBytes L < 2 ^ 32 := by
  have hend := hL.statusEnd
  have hsplit : (pages L + 2) * pageBytes L
      = (pages L + 1) * pageBytes L + pageBytes L := Nat.succ_mul _ _
  simp only [status]
  omega

theorem statusPageEnd_toNat (hL : HasStatusPage L) :
    (bootloaderStatusOffset L + L.pageSizeBytes).toNat
      = status L + pageBytes L := by
  have hlt := status_page_lt hL
  have hstatus := statusOffset_toNat hL
  rw [toNat_add_of_lt (by rw [hstatus]; exact hlt), hstatus]
  rfl

theorem swapLogOffset_toNat (hL : HasStatusPage L) :
    (bootloaderStatusOffset L + 16).toNat = status L + statusBytes := by
  have hlt := status_page_lt hL
  have hroom := hL.logRoom
  have hstatus := statusOffset_toNat hL
  have h16 : (16 : UInt32).toNat = 16 := rfl
  rw [toNat_add_of_lt (by
    rw [hstatus, h16]
    simp only [statusBytes] at hroom
    omega), hstatus]
  rfl

theorem logEntryOffset_toNat (hL : HasStatusPage L) {s : Nat}
    (hs : s < 2 * pages L) :
    (bootloaderStatusOffset L + (16 + UInt32.ofNat s * 8)).toNat
      = status L + statusBytes + s * logEntryBytes := by
  have hlt := status_page_lt hL
  have hroom := hL.logRoom
  have hstatus := statusOffset_toNat hL
  have h16 : (16 : UInt32).toNat = 16 := rfl
  have h8 : (8 : UInt32).toNat = 8 := rfl
  simp only [statusBytes, logEntryBytes] at hroom ⊢
  have hs' : (UInt32.ofNat s).toNat = s := toNat_ofNat_of_lt (by omega)
  have hmul : (UInt32.ofNat s * 8).toNat = s * 8 := by
    rw [toNat_mul_of_lt (by rw [hs', h8]; omega), hs', h8]
  have hadd : (16 + UInt32.ofNat s * 8).toNat = 16 + s * 8 := by
    rw [toNat_add_of_lt (by omega), hmul, h16]
  rw [toNat_add_of_lt (by omega), hadd, hstatus]
  omega

/-- The status page overlaps no page the swap copies. -/
theorem offset_apart_status (hL : HasStatusPage L) (c : Cell (pages L)) :
    offset L c + pageBytes L ≤ status L ∨
      status L + pageBytes L ≤ offset L c := by
  cases c with
  | front i =>
      have hi := offset_front_le (L := L) i
      have hsplit : (pages L + 2) * pageBytes L
          = (pages L + 1) * pageBytes L + pageBytes L := Nat.succ_mul _ _
      have hfirst : L.firmwareOffsetBytes.toNat ≤ offset L (.front i) :=
        Nat.le_add_right _ _
      simp only [status]
      rcases hL.statusApart with h | h
      · left
        omega
      · right
        omega
  | back j =>
      left
      exact offset_back_le j

/-! ## Flash operations -/

/-- From a flash `m`, the operation returns with the flash in `Q` or is cut short
    with the flash in `C`, whatever the budget. -/
def Runs {α : Type} (m : Mem) (x : Act (Bootloader L) Reset α)
    (Q : α → Mem → Prop) (C : Mem → Prop) : Prop :=
  Spec (fun d => d.flash = m) x (fun a d => Q a d.flash) (fun _ d => C d.flash)

theorem Runs.bind {α β : Type} {m : Mem} {x : Act (Bootloader L) Reset α}
    {f : α → Act (Bootloader L) Reset β} {M : α → Mem → Prop}
    {Q : β → Mem → Prop} {C : Mem → Prop} (hx : Runs m x M C)
    (hf : ∀ a m', M a m' → Runs m' (f a) Q C) : Runs m (x >>= f) Q C :=
  Spec.bind hx (fun a d hd => hf a d.flash hd d rfl)

theorem Runs.mono {α : Type} {m : Mem} {x : Act (Bootloader L) Reset α}
    {Q Q' : α → Mem → Prop} {C C' : Mem → Prop} (h : Runs m x Q C)
    (hQ : ∀ a m', Q a m' → Q' a m') (hC : ∀ m', C m' → C' m') :
    Runs m x Q' C' :=
  Spec.weaken h (fun _ hd => hd) (fun a d => hQ a d.flash)
    (fun _ d => hC d.flash)

theorem Runs.pure {α : Type} {m : Mem} {a : α} {Q : α → Mem → Prop}
    {C : Mem → Prop} (h : Q a m) :
    Runs m (pure a : Act (Bootloader L) Reset α) Q C := by
  refine Spec.ret ?_
  rintro d rfl
  exact h

theorem blockingRead_spec (m : Mem) (offset : UInt32) (len : Nat)
    {C : Mem → Prop} :
    Runs m (blockingRead offset len : Act (Bootloader L) Reset _)
      (fun bytes m' => bytes = slice m offset.toNat len ∧ m' = m) C := by
  refine Spec.read ?_
  rintro d rfl
  exact ⟨rfl, rfl⟩

theorem powered_spec (m : Mem) :
    Runs m (powered : Act (Bootloader L) Reset Unit) (fun _ m' => m' = m)
      (fun m' => m' = m) := by
  rintro d rfl
  rw [powered]
  constructor
  · intro _ d' hrun
    split at hrun
    · exact nomatch (Prod.mk.inj hrun).1
    · rw [← (Prod.mk.inj hrun).2]
  · intro _ d' hrun
    split at hrun
    · rw [← (Prod.mk.inj hrun).2]
    · exact nomatch (Prod.mk.inj hrun).1

theorem blockingErase_spec (m : Mem) (start stop : UInt32) :
    Runs m (blockingErase start stop : Act (Bootloader L) Reset Unit)
      (fun _ m' => m' = erase m start.toNat stop.toNat) (fun m' => m' = m) := by
  rintro d rfl
  unfold blockingErase
  constructor
  · intro _ d' hrun
    dsimp only at hrun
    split at hrun
    · exact nomatch (Prod.mk.inj hrun).1
    · rw [← (Prod.mk.inj hrun).2]
    · rw [← (Prod.mk.inj hrun).2]
  · intro _ d' hrun
    dsimp only at hrun
    split at hrun
    · rw [← (Prod.mk.inj hrun).2]
    · exact nomatch (Prod.mk.inj hrun).1
    · exact nomatch (Prod.mk.inj hrun).1

theorem blockingWrite_spec (m : Mem) (offset : UInt32) (bytes : List UInt8) :
    Runs m (blockingWrite offset bytes : Act (Bootloader L) Reset Unit)
      (fun _ m' => m' = patch m offset.toNat bytes)
      (fun m' => ∃ n, n < bytes.length ∧
        m' = patch m offset.toNat (bytes.take n)) := by
  rintro d rfl
  rw [blockingWrite]
  constructor
  · intro _ d' hrun
    split at hrun
    · split at hrun
      · exact nomatch (Prod.mk.inj hrun).1
      · rw [← (Prod.mk.inj hrun).2]
    · rw [← (Prod.mk.inj hrun).2]
  · intro _ d' hrun
    split at hrun
    · rename_i n _
      split at hrun
      · rename_i hn
        rw [← (Prod.mk.inj hrun).2]
        exact ⟨n, hn, rfl⟩
      · exact nomatch (Prod.mk.inj hrun).1
    · exact nomatch (Prod.mk.inj hrun).1

/-! ## The swap on this flash -/

/-- The contents of a page. -/
def page (L : BootloaderLayout) (m : Mem) (c : Cell (pages L)) : List UInt8 :=
  slice m (offset L c) (pageBytes L)

/-- Whether an entry of the swap log has been written to. -/
def logged (L : BootloaderLayout) (m : Mem) (i : Nat) : Bool :=
  decide (i < entries L) &&
    !allErased (slice m (status L + statusBytes + i * logEntryBytes)
      logEntryBytes)

/-- The bytes of the status record. -/
def record (L : BootloaderLayout) (m : Mem) : List UInt8 :=
  slice m (status L) statusBytes

/-- The view of the flash: besides the pages and the log there is the status
    record, which the swap leaves alone. -/
def view (L : BootloaderLayout) : View L (Bootloader L) (List UInt8) :=
  ⟨fun d => page L d.flash, fun d => logged L d.flash,
    fun d => record L d.flash⟩

private theorem entry_inside (hL : HasStatusPage L) {i : Nat}
    (hi : i < entries L) :
    statusBytes + i * logEntryBytes + logEntryBytes ≤ pageBytes L := by
  have hroom := hL.logRoom
  have hp : L.pageSizeBytes.toNat = pageBytes L := rfl
  simp only [entries, swapLogBytes, hp, statusBytes, logEntryBytes]
    at hi hroom ⊢
  omega

/-- What changes inside a page leaves the other pages and the status page
    alone. -/
theorem page_frame (hL : HasStatusPage L) {m m' : Mem} {c : Cell (pages L)}
    (h : SameOutside (offset L c) (pageBytes L) m m') :
    (∀ y, y ≠ c → page L m' y = page L m y) ∧ logged L m' = logged L m ∧
      record L m' = record L m := by
  have hstatus := offset_apart_status hL c
  refine ⟨?_, ?_, ?_⟩
  · intro y hy
    exact h.slice_eq (offset_apart hL.toSound hy)
  · funext i
    unfold logged
    by_cases hi : i < entries L
    · have hin := entry_inside hL hi
      rw [h.slice_eq (by omega)]
    · simp [hi]
  · have hroom := hL.logRoom
    exact h.slice_eq (by omega)

/-- What changes inside the status page leaves the other pages alone. -/
theorem status_frame (hL : HasStatusPage L) {m m' : Mem}
    (h : SameOutside (status L) (pageBytes L) m m') : page L m' = page L m := by
  funext c
  exact h.slice_eq (offset_apart_status hL c)

private theorem pageEnd_toNat (hL : HasStatusPage L) {b : UInt32}
    {c : Cell (pages L)} (hb : b.toNat = offset L c) :
    (b + L.pageSizeBytes).toNat = offset L c + pageBytes L := by
  have hlast : offset L c + pageBytes L < 2 ^ 32 := by
    cases c with
    | front i =>
        have hi := offset_front_le (L := L) i
        have hend := hL.eraseEnd
        omega
    | back j =>
        have hj := offset_back_le (L := L) j
        have hend := hL.dfuEnd
        omega
  rw [toNat_add_of_lt (by rw [hb]; exact hlast), hb]
  rfl

theorem Runs.spec {α : Type} {d : Bootloader L} {x : Act (Bootloader L) Reset α}
    {Q : α → Mem → Prop} {C : Mem → Prop} (h : Runs d.flash x Q C) :
    Spec (fun d' => d' = d) x (fun a d' => Q a d'.flash)
      (fun _ d' => C d'.flash) :=
  Spec.weaken h (fun _ hd => by rw [hd]) (fun _ _ hq => hq) (fun _ _ hc => hc)

/-- Erasing a page and writing another one's contents to it is a page copy, cut
    short in its destination. -/
theorem copyPage_copies (hL : HasStatusPage L) {c : Copy (Cell (pages L))}
    {a b : UInt32} (ha : a.toNat = offset L c.src)
    (hb : b.toNat = offset L c.dst) :
    Copies (view L) c (do
      blockingErase b (b + L.pageSizeBytes)
      let bytes ← blockingRead a L.pageSizeBytes.toNat
      blockingWrite b bytes : Act (Bootloader L) Reset Unit) := by
  intro d
  have hend := pageEnd_toNat hL hb
  refine Spec.weaken (Runs.spec (Q := fun _ m' =>
      page L m' = c.run (page L d.flash) ∧ logged L m' = logged L d.flash ∧
        record L m' = record L d.flash)
    (C := fun m' => SameOutside (offset L c.dst) (pageBytes L) d.flash m') ?_)
    (fun _ h => h) (fun _ _ h => h)
    (fun _ _ h => ⟨(page_frame hL h).1, (page_frame hL h).2⟩)
  refine Runs.bind (M := fun _ m' =>
    m' = erase d.flash (offset L c.dst) (offset L c.dst + pageBytes L)) ?_ ?_
  · refine Runs.mono (blockingErase_spec _ _ _) ?_ ?_
    · rintro _ m' rfl
      rw [hb, hend]
    · rintro m' rfl
      exact SameOutside.refl _ _ _
  rintro _ m₁ rfl
  have herase := sameOutside_erase d.flash (offset L c.dst) (pageBytes L)
  refine Runs.bind (blockingRead_spec _ _ _) ?_
  rintro bytes m₂ ⟨rfl, rfl⟩
  -- the page read is not the one just erased
  have hread : slice (erase d.flash (offset L c.dst)
        (offset L c.dst + pageBytes L)) a.toNat L.pageSizeBytes.toNat
      = page L d.flash c.src := by
    rw [ha]
    exact (page_frame hL herase).1 c.src c.apart
  have hlen : (page L d.flash c.src).length = pageBytes L := length_slice ..
  rw [hread]
  refine Runs.mono (blockingWrite_spec _ _ _) ?_ ?_
  · rintro _ m' rfl
    rw [hb]
    have hsame := herase.trans
      (sameOutside_patch _ (offset L c.dst) (Nat.le_of_eq hlen))
    obtain ⟨hpages, hrest⟩ := page_frame hL hsame
    refine ⟨?_, hrest⟩
    funext y
    by_cases hy : y = c.dst
    · subst hy
      rw [Copy.run_dst]
      have hself := slice_patch_self (erase d.flash (offset L c.dst)
        (offset L c.dst + pageBytes L)) (offset L c.dst) (page L d.flash c.src)
      rw [hlen] at hself
      exact hself
    · rw [Copy.run_of_ne _ _ hy]
      exact hpages y hy
  · rintro m' ⟨n, hn, rfl⟩
    rw [hb]
    refine herase.trans (sameOutside_patch _ _ ?_)
    rw [List.length_take]
    omega

theorem steps_le_entries (hL : HasStatusPage L) :
    2 * pages L ≤ entries L := by
  have hroom := hL.logRoom
  have hp : L.pageSizeBytes.toNat = pageBytes L := rfl
  simp only [entries, swapLogBytes, hp, statusBytes, logEntryBytes] at hroom ⊢
  omega

/-- What changes inside a log entry leaves the pages, the other entries and the
    record alone. -/
theorem entry_frame (hL : HasStatusPage L) {m m' : Mem} {s : Nat}
    (hs : s < entries L)
    (h : SameOutside (status L + statusBytes + s * logEntryBytes) logEntryBytes
      m m') :
    page L m' = page L m ∧ (∀ i, i ≠ s → logged L m' i = logged L m i) ∧
      record L m' = record L m := by
  have hin := entry_inside hL hs
  refine ⟨status_frame hL (h.widen (by omega) (by omega)), ?_, ?_⟩
  · intro i hi
    unfold logged
    rw [h.slice_eq (by simp only [logEntryBytes]; omega)]
  · exact h.slice_eq (by omega)

theorem logStep_logs (hL : HasStatusPage L) {s : Nat} (hs : s < 2 * pages L) :
    Logs (view L) s (SwapOps.logStep (UInt32.ofNat s) :
      Act (Bootloader L) Reset Unit) := by
  have hs' : s < entries L := Nat.lt_of_lt_of_le hs (steps_le_entries hL)
  have hoff := logEntryOffset_toNat hL hs
  intro d
  refine Spec.weaken (Runs.spec (Q := fun _ m' =>
      page L m' = page L d.flash ∧
        logged L m' = Function.update (logged L d.flash) s true ∧
        record L m' = record L d.flash)
    (C := fun m' => SameOutside (status L + statusBytes + s * logEntryBytes)
      logEntryBytes d.flash m') ?_) (fun _ h => h) (fun _ _ h => h)
    (fun _ _ h => entry_frame hL hs' h)
  refine Runs.mono (blockingWrite_spec _ _ _) ?_ ?_
  · rintro _ m' rfl
    rw [hoff]
    obtain ⟨hpage, hother, hrecord⟩ := entry_frame hL hs'
      (sameOutside_patch d.flash _
        (Nat.le_of_eq (List.length_replicate (n := logEntryBytes)
          (a := stepMark))))
    refine ⟨hpage, ?_, hrecord⟩
    funext i
    by_cases hi : i = s
    · subst hi
      have hself := slice_patch_self d.flash
        (status L + statusBytes + i * logEntryBytes)
        (List.replicate logEntryBytes stepMark)
      rw [List.length_replicate] at hself
      rw [Function.update_self, logged, hself]
      simp only [hs', decide_true, Bool.true_and]
      decide
    · rw [Function.update_of_ne hi]
      exact hother i hi
  · rintro m' ⟨n, _, rfl⟩
    rw [hoff]
    refine sameOutside_patch _ _ ?_
    rw [List.length_take, List.length_replicate]
    omega

/-- **REFINEMENT**: the bootloader's flash is a device that copies pages. -/
theorem copiesPages (hL : HasStatusPage L) : CopiesPages (view L) where
  firmwareToDfu i j _ _ ha hb := copyPage_copies (c := save i j) hL ha hb
  dfuToFirmware j i _ _ ha hb := copyPage_copies (c := fill j i) hL ha hb
  logStep _ hs := logStep_logs hL hs

/-! ## One swap, one status write -/

/-- The flash can take up a swap of the pages `base` at step `k`, under the
    status record `r`. -/
abbrev SwapAt (L : BootloaderLayout) (mode : SwapMode)
    (base : Cell (pages L) → List UInt8) (r : List UInt8) (k : Nat) (m : Mem) :
    Prop :=
  ResumableAt (view L) (entries L) mode base r k ⟨m, none⟩

theorem readsLog (m : Mem) :
    ReadsLog (logged L m) (entries L)
      (slice m (status L + statusBytes) (swapLogBytes L)) := by
  refine ⟨by simp [entries], ?_⟩
  intro i hi
  have hi' : i < entries L := by simpa [entries] using hi
  rw [getElem_chunksExact_slice hi, logged]
  simp [hi']

theorem performSwap_spec (hL : HasStatusPage L) {mode : SwapMode}
    {base : Cell (pages L) → List UInt8} {r : List UInt8} {k : Nat} {m : Mem}
    (h : SwapAt L mode base r k m) :
    Runs m (performSwap mode : Act (Bootloader L) Reset Unit)
      (fun _ => SwapAt L mode base r (2 * pages L))
      (fun m' => ∃ k', SwapAt L mode base r k' m') := by
  refine Runs.bind (blockingRead_spec _ _ _) ?_
  rintro swapLog m' ⟨hlog, rfl⟩ d rfl
  rw [swapLogOffset_toNat hL] at hlog
  have hd : ResumableAt (view L) (entries L) mode base r k d :=
    ⟨h.bound, h.log, h.pages, h.rest⟩
  have hread : ReadsLog (logged L d.flash) (entries L) swapLog := by
    rw [hlog]
    exact readsLog d.flash
  have hspec := swapImages_spec hL.toSound (copiesPages hL)
    (steps_le_entries hL) d hread hd
  refine Spec.weaken hspec (fun _ h => h) ?_ ?_ d rfl
  · intro _ d' h'
    exact ⟨h'.bound, h'.log, h'.pages, h'.rest⟩
  · rintro _ d' ⟨k', h'⟩
    exact ⟨k', h'.bound, h'.log, h'.pages, h'.rest⟩

/-- What a status write, complete or cut short after its erase, makes of the
    flash: nothing but the state being written can be read off the record. -/
structure StatusWritten (L : BootloaderLayout) (m m' : Mem)
    (s : BootloaderState) : Prop where
  pages : page L m' = page L m
  log : ∀ i, logged L m' i = false
  reads : (BootloaderStatus.fromBytes (record L m')).readsAs s

/-- A record, or its first bytes, on the erased status page. -/
theorem patch_statusPage (hL : HasStatusPage L) (m : Mem)
    (status' : BootloaderStatus) {n : Nat} (hn : n ≤ statusBytes) :
    let m' := patch (erase m (status L) (status L + pageBytes L)) (status L)
      (status'.toBytes.take n)
    page L m' = page L m ∧ (∀ i, logged L m' i = false) ∧
      record L m' = tornBytes status'.toBytes n := by
  have hroom := hL.logRoom
  have hlen : (status'.toBytes.take n).length = n := by
    rw [List.length_take, BootloaderStatus.length_toBytes]
    omega
  have herase := sameOutside_erase m (status L) (pageBytes L)
  have hpatch := sameOutside_patch
    (erase m (status L) (status L + pageBytes L)) (status L) (Nat.le_of_eq hlen)
  refine ⟨?_, ?_, ?_⟩
  · refine status_frame hL (herase.trans (hpatch.widen (Nat.le_refl _) ?_))
    omega
  · intro i
    rw [logged]
    by_cases hi : i < entries L
    · have hin := entry_inside hL hi
      rw [hpatch.slice_eq (by omega), erased_iff_slice.mp
        (erased_erase m (by omega) (by omega))]
      simp
    · simp [hi]
  · have hfree : Erased (erase m (status L) (status L + pageBytes L))
        (status L) statusBytes := erased_erase m (Nat.le_refl _) (by omega)
    have hrecord := slice_patch_erased hfree
      (show (status'.toBytes.take n).length ≤ statusBytes by omega)
    rw [hlen] at hrecord
    exact hrecord

theorem writeStatus_spec (hL : HasStatusPage L) (m : Mem)
    (s : BootloaderState) :
    Runs m (writeStatus s : Act (Bootloader L) Reset Unit)
      (fun _ m' => StatusWritten L m m' s)
      (fun m' => m' = m ∨ StatusWritten L m m' s) := by
  refine Runs.bind (Runs.mono (blockingErase_spec _ _ _) (fun _ _ h => h)
    (fun _ h => Or.inl h)) ?_
  rintro _ m₁ rfl
  rw [statusPageEnd_toNat hL, statusOffset_toNat hL]
  have htake : (bareStatus s).toBytes.take statusBytes
      = (bareStatus s).toBytes := List.take_of_length_le (Nat.le_refl _)
  refine Runs.mono (blockingWrite_spec _ _ _) ?_ ?_
  · rintro _ m' rfl
    obtain ⟨hp, hl, hr⟩ := patch_statusPage hL m (bareStatus s)
      (Nat.le_refl statusBytes)
    rw [htake] at hp hl hr
    rw [statusOffset_toNat hL]
    refine ⟨hp, hl, ?_⟩
    rw [hr]
    exact tornStatus_readsAs s ⟨16, by decide⟩
  · rintro m' ⟨n, hn, rfl⟩
    have hn' : n < statusBytes := hn
    obtain ⟨hp, hl, hr⟩ := patch_statusPage hL m (bareStatus s)
      (Nat.le_of_lt hn')
    rw [statusOffset_toNat hL]
    refine Or.inr ⟨hp, hl, ?_⟩
    rw [hr]
    exact tornStatus_readsAs s ⟨n, by simp only [statusBytes] at hn'; omega⟩

/-! ## The phases of an update -/

/-- The firmware region holds one whole image: the old one, which the front bank
    of `base` holds, or the new one, which its back bank holds. -/
def Whole (L : BootloaderLayout) (base : Cell (pages L) → List UInt8)
    (m : Mem) : Prop :=
  (∀ i, page L m (.front i) = base (.front i)) ∨
    ∀ i, page L m (.front i) = base (.back (Fin.castSucc i))

/-- The pages after the complete swap. -/
def swapped (base : Cell (pages L) → List UInt8) : Cell (pages L) → List UInt8 :=
  runUpTo (forward (pages L)) base (2 * pages L)

/-- A record that asks for neither the swap nor the revert. -/
def Idle (r : DecodeResult) : Prop :=
  ∀ st, r = .valid st →
    st.state ≠ .dfuFreshlyWritten ∧ st.state ≠ .swappedImageTrialBooted

/-- **THE INVARIANT**: the swap is under way under a freshly written record, or
    the revert under a trial record, each at the step its log names; or the
    record asks for neither, and the firmware region is whole. -/
inductive Phase (L : BootloaderLayout) (base : Cell (pages L) → List UInt8)
    (m : Mem) : Prop where
  | swapping (st : BootloaderStatus) (k : Nat)
      (hr : BootloaderStatus.fromBytes (record L m) = .valid st)
      (hst : st.state = .dfuFreshlyWritten)
      (hk : SwapAt L .normal base (record L m) k m)
  | trial (st : BootloaderStatus) (k : Nat)
      (hr : BootloaderStatus.fromBytes (record L m) = .valid st)
      (hst : st.state = .swappedImageTrialBooted)
      (hk : SwapAt L .revert (swapped base) (record L m) k m)
  | settled (hr : Idle (BootloaderStatus.fromBytes (record L m)))
      (hw : Whole L base m)

variable {base : Cell (pages L) → List UInt8} {m m' : Mem}

theorem Whole.congr (h : Whole L base m) (hp : page L m' = page L m) :
    Whole L base m' := by
  rw [Whole, hp]
  exact h

/-- A swap that has run all its steps has brought the new image in. -/
theorem whole_of_swapped (h : page L m = swapped base) : Whole L base m := by
  right
  intro i
  rw [h]
  exact forward_front _ _

/-- A swap about to start, on any pages, with an erased log. -/
theorem swapAt_start {mode : SwapMode} (hlog : ∀ i, logged L m i = false) :
    SwapAt L mode (page L m) (record L m) 0 m :=
  ⟨Nat.zero_le _, fun i _ => (hlog i).trans (by simp), Resumable.start _ _, rfl⟩

/-- The trial record after a swap: the revert can start. -/
theorem phase_of_trialWritten
    (h : StatusWritten L m m' .swappedImageTrialBooted)
    (hm : page L m = swapped base) : Phase L base m' ∧ Whole L base m' := by
  have hp : page L m' = swapped base := h.pages.trans hm
  have hw := whole_of_swapped hp
  refine ⟨?_, hw⟩
  by_cases hvalid : ∃ st, BootloaderStatus.fromBytes (record L m') = .valid st
  · obtain ⟨st, hst⟩ := hvalid
    refine .trial st 0 hst (h.reads st hst) ?_
    rw [← hp]
    exact swapAt_start h.log
  · exact .settled (fun st hst => absurd ⟨st, hst⟩ hvalid) hw

/-- Any other record: nothing is left to do. -/
theorem phase_of_statusWritten {s : BootloaderState}
    (h : StatusWritten L m m' s) (hs : s ≠ .dfuFreshlyWritten)
    (hs' : s ≠ .swappedImageTrialBooted) (hw : Whole L base m) :
    Phase L base m' ∧ Whole L base m' := by
  have hw' := hw.congr h.pages
  refine ⟨.settled ?_ hw', hw'⟩
  intro st hst
  rw [h.reads st hst]
  exact ⟨hs, hs'⟩

/-! ## A revert that is half-way -/

/-- The page the last step of the revert refills the last firmware page from. -/
def lastSlot (L : BootloaderLayout) : Nat :=
  if pages L = 1 then 1 else pages L - 2

/-- A revert is half-way: under a trial record the swap log names a step inside
    the revert, and the pages are not those of one image after all: the first
    one not overwritten yet, or the last one already complete. -/
def halfReverted (L : BootloaderLayout) (m : Mem) : Bool :=
  let p := pageBytes L
  let firmwarePage i := slice m (L.firmwareOffsetBytes.toNat + i * p) p
  let dfuPage j := slice m (L.dfuOffsetBytes.toNat + j * p) p
  let log := slice m (status L + statusBytes) (swapLogBytes L)
  match BootloaderStatus.fromBytes (record L m), startStep log with
  | .valid st, some k =>
      st.state == .swappedImageTrialBooted &&
        decide (0 < k.toNat ∧ k.toNat < 2 * pages L) &&
        !(k.toNat == 1 && firmwarePage 0 == dfuPage (pages L - 1)) &&
        !(k.toNat + 1 == 2 * pages L &&
          firmwarePage (pages L - 1) == dfuPage (lastSlot L))
  | _, _ => false

/-- The condition, at the step the invariant names. -/
theorem halfReverted_trial (hL : HasStatusPage L) {st : BootloaderStatus}
    {k : Nat} (hr : BootloaderStatus.fromBytes (record L m) = .valid st)
    (hst : st.state = .swappedImageTrialBooted)
    (hk : SwapAt L .revert (swapped base) (record L m) k m)
    (hfirst : 0 < pages L) :
    halfReverted L m = true ↔ (0 < k ∧ k < 2 * pages L) ∧
      ¬ (k = 1 ∧ page L m (.front ⟨0, hfirst⟩)
          = page L m (.back (park ⟨0, hfirst⟩))) ∧
      ¬ (k + 1 = 2 * pages L ∧ page L m (.front ⟨pages L - 1, by omega⟩)
          = page L m (.back (slot ⟨pages L - 1, by omega⟩))) := by
  have hsteps := hL.steps
  have hcap := steps_le_entries hL
  have hbound := hk.bound
  have hpark : (park (⟨0, hfirst⟩ : Fin (pages L))).val = pages L - 1 := by
    rw [park_val, if_pos rfl]
  have hslot : (slot (⟨pages L - 1, by omega⟩ : Fin (pages L))).val
      = lastSlot L := by
    rw [slot_val, lastSlot]
    simp only
    split <;> split <;> omega
  have hstart := startStep_eq (readsLog m) (by omega) hk.log
  have hstate : (st.state == BootloaderState.swappedImageTrialBooted) = true := by
    rw [hst]
    decide
  rw [halfReverted]
  simp only [hr, hstart]
  -- a full log names no step, and so none inside the revert
  by_cases hkc : k < entries L
  · have hkk : (UInt32.ofNat k).toNat = k := toNat_ofNat_of_lt (by omega)
    simp only [if_pos hkc, hkk, hstate, page, offset, hpark, hslot,
      Bool.and_eq_true, Bool.not_eq_true', Bool.and_eq_false_iff,
      beq_eq_false_iff_ne, decide_eq_true_eq, true_and]
    tauto
  · simp only [if_neg hkc, Bool.false_eq_true, false_iff]
    rintro ⟨⟨_, hlt⟩, _⟩
    omega

/-- The new and the old contents of a page, as the revert finds them. -/
private theorem swapped_front (base : Cell (pages L) → List UInt8)
    (i : Fin (pages L)) :
    swapped base (.front i) = base (.back i.castSucc) := forward_front _ _

private theorem swapped_slot (base : Cell (pages L) → List UInt8)
    (i : Fin (pages L)) : swapped base (.back (slot i)) = base (.front i) :=
  forward_slot _ _

/-- The firmware pages of a revert between two refills. -/
theorem front_even {r : List UInt8} {i : Nat} (hi : i ≤ pages L)
    (hk : SwapAt L .revert (swapped base) r (2 * i) m) (j : Fin (pages L)) :
    page L m (.front j)
      = if j.val < i then base (.front j) else base (.back j.castSucc) := by
  rw [← swapped_slot base j, ← swapped_front base j]
  exact resumable_backward_even hi hk.pages j

/-- The pages of a revert during the refill of page `i`. -/
theorem front_odd {r : List UInt8} (i : Fin (pages L))
    (hk : SwapAt L .revert (swapped base) r (2 * i.val + 1) m) :
    (∀ j : Fin (pages L), j ≠ i → page L m (.front j)
      = if j.val < i.val then base (.front j) else base (.back j.castSucc)) ∧
    page L m (.back (park i)) = base (.back i.castSucc) ∧
    page L m (.back (slot i)) = base (.front i) := by
  obtain ⟨hfront, hpark, hslot⟩ := resumable_backward_odd i hk.pages
  refine ⟨?_, hpark.trans (swapped_front _ _), hslot.trans (swapped_slot _ _)⟩
  intro j hj
  rw [← swapped_slot base j, ← swapped_front base j]
  exact hfront j hj

/-- A revert that is not half-way leaves one whole image. -/
theorem whole_of_not_half (hL : HasStatusPage L) {st : BootloaderStatus}
    {k : Nat} (hr : BootloaderStatus.fromBytes (record L m) = .valid st)
    (hst : st.state = .swappedImageTrialBooted)
    (hk : SwapAt L .revert (swapped base) (record L m) k m)
    (hhalf : halfReverted L m = false) : Whole L base m := by
  have hfirst := hL.somePage
  have hbound := hk.bound
  have hnot := mt (halfReverted_trial hL hr hst hk hfirst).mpr
    (by rw [hhalf]; exact Bool.false_ne_true)
  by_cases hzero : k = 0
  · -- nothing done yet
    subst hzero
    right
    intro i
    rw [front_even (i := 0) (Nat.zero_le _) hk i, if_neg (Nat.not_lt_zero _)]
  by_cases hend : k = 2 * pages L
  · subst hend
    left
    intro i
    rw [front_even (Nat.le_refl _) hk i, if_pos i.isLt]
  -- inside the revert only the two edges are left
  have hedge : (k = 1 ∧ page L m (.front ⟨0, hfirst⟩)
        = page L m (.back (park ⟨0, hfirst⟩))) ∨
      (k + 1 = 2 * pages L ∧ page L m (.front ⟨pages L - 1, by omega⟩)
        = page L m (.back (slot ⟨pages L - 1, by omega⟩))) := by
    by_contra hne
    rw [not_or] at hne
    exact hnot ⟨⟨by omega, by omega⟩, hne⟩
  rcases hedge with ⟨rfl, heq⟩ | ⟨hlast, heq⟩
  · -- the first page is still what was saved of it
    obtain ⟨hfront, hpark, -⟩ := front_odd ⟨0, hfirst⟩ hk
    right
    intro i
    by_cases hi : i = ⟨0, hfirst⟩
    · subst hi
      exact heq.trans hpark
    · rw [hfront i hi, if_neg (Nat.not_lt_zero _)]
  · -- the last page is already what it is refilled with
    obtain rfl : k = 2 * (pages L - 1) + 1 := by omega
    obtain ⟨hfront, -, hslot⟩ := front_odd ⟨pages L - 1, by omega⟩ hk
    left
    intro i
    by_cases hi : i = ⟨pages L - 1, by omega⟩
    · subst hi
      exact heq.trans hslot
    · have hlt : i.val < pages L - 1 := by
        have hne : i.val ≠ pages L - 1 := fun he => hi (Fin.ext he)
        omega
      rw [hfront i hi, if_pos hlt]

/-- A revert that is half-way leaves pages of both images, if the images differ
    on every page. -/
theorem not_whole_of_half (hL : HasStatusPage L) {st : BootloaderStatus}
    {k : Nat} (hr : BootloaderStatus.fromBytes (record L m) = .valid st)
    (hst : st.state = .swappedImageTrialBooted)
    (hk : SwapAt L .revert (swapped base) (record L m) k m)
    (hdiffer : ∀ i, base (.front i) ≠ base (.back (Fin.castSucc i)))
    (hhalf : halfReverted L m = true) : ¬ Whole L base m := by
  have hfirst := hL.somePage
  obtain ⟨⟨hpos, hlt⟩, hnfirst, hnlast⟩ :=
    (halfReverted_trial hL hr hst hk hfirst).mp hhalf
  -- a page that is old and a page that is new exclude both whole images
  have hmixed : ∀ i j : Fin (pages L),
      page L m (.front i) ≠ base (.back i.castSucc) →
      page L m (.front j) ≠ base (.front j) → ¬ Whole L base m := by
    rintro i j hi hj (hold | hnew)
    · exact hj (hold j)
    · exact hi (hnew i)
  -- between two refills a page before `i` is old and `i` is new
  rcases Nat.even_or_odd' k with ⟨i, rfl | rfl⟩
  · have hi : i < pages L := by omega
    have hfront := front_even (Nat.le_of_lt hi) hk
    refine hmixed ⟨0, hfirst⟩ ⟨i, hi⟩ ?_ ?_
    · rw [hfront, if_pos (show (0 : Nat) < i by omega)]
      exact hdiffer _
    · rw [hfront, if_neg (Nat.lt_irrefl _)]
      exact (hdiffer _).symm
  · have hi : i < pages L := by omega
    obtain ⟨hfront, hpark, hslot⟩ := front_odd ⟨i, hi⟩ hk
    refine hmixed ⟨0, hfirst⟩ ⟨pages L - 1, by omega⟩ ?_ ?_
    · by_cases hi0 : i = 0
      · subst hi0
        intro he
        exact hnfirst ⟨rfl, he.trans hpark.symm⟩
      · rw [hfront _ (fun he => hi0 (congrArg Fin.val he).symm),
          if_pos (show (0 : Nat) < i by omega)]
        exact hdiffer _
    · by_cases hilast : i = pages L - 1
      · subst hilast
        intro he
        exact hnlast ⟨by omega, he.trans hslot.symm⟩
      · rw [hfront _ (fun he => hilast (congrArg Fin.val he).symm),
          if_neg (show ¬ pages L - 1 < i by omega)]
        exact (hdiffer _).symm

/-! ## One boot -/

theorem readStatus_spec (hL : HasStatusPage L) (m : Mem) {C : Mem → Prop} :
    Runs m (readStatus : Act (Bootloader L) Reset _)
      (fun r m' => r = BootloaderStatus.fromBytes (record L m) ∧ m' = m) C := by
  refine Runs.bind (blockingRead_spec _ _ _) ?_
  rintro buf m' ⟨rfl, rfl⟩
  rw [statusOffset_toNat hL]
  exact Runs.pure ⟨rfl, rfl⟩

/-- A status write in a settled phase. -/
private theorem settle_spec (hL : HasStatusPage L) {s : BootloaderState}
    (hs : s ≠ .dfuFreshlyWritten) (hs' : s ≠ .swappedImageTrialBooted)
    (hw : Whole L base m) (hm : Phase L base m) :
    Runs m (writeStatus s : Act (Bootloader L) Reset Unit)
      (fun _ m' => Phase L base m' ∧ Whole L base m') (Phase L base) := by
  refine Runs.mono (writeStatus_spec hL m s) ?_ ?_
  · intro _ m' h
    exact phase_of_statusWritten h hs hs' hw
  · rintro m' (rfl | h)
    · exact hm
    · exact (phase_of_statusWritten h hs hs' hw).1

/-- The swap leaves the record alone, so any step of it is a phase. -/
private theorem swapping_of {st : BootloaderStatus} {k : Nat}
    (hr : BootloaderStatus.fromBytes (record L m) = .valid st)
    (hst : st.state = .dfuFreshlyWritten)
    (hk : SwapAt L .normal base (record L m) k m') : Phase L base m' := by
  have hrest : record L m' = record L m := hk.rest
  rw [← hrest] at hr hk
  exact .swapping st k hr hst hk

private theorem trial_of {st : BootloaderStatus} {k : Nat}
    (hr : BootloaderStatus.fromBytes (record L m) = .valid st)
    (hst : st.state = .swappedImageTrialBooted)
    (hk : SwapAt L .revert (swapped base) (record L m) k m') :
    Phase L base m' := by
  have hrest : record L m' = record L m := hk.rest
  rw [← hrest] at hr hk
  exact .trial st k hr hst hk

/-- The swap under a freshly written record, from whatever step it is at. -/
private theorem settleSwap_spec (hL : HasStatusPage L) {st : BootloaderStatus}
    {k : Nat} (hr : BootloaderStatus.fromBytes (record L m) = .valid st)
    (hst : st.state = .dfuFreshlyWritten)
    (hk : SwapAt L .normal base (record L m) k m) :
    Runs m (do performSwap .normal; writeStatus .swappedImageTrialBooted :
        Act (Bootloader L) Reset Unit)
      (fun _ m' => Phase L base m' ∧ Whole L base m') (Phase L base) := by
  refine Runs.bind (Runs.mono (performSwap_spec hL hk) (fun _ _ h => h) ?_) ?_
  · rintro m' ⟨k', hk'⟩
    exact swapping_of hr hst hk'
  · intro _ m₁ h₁
    have hdone : page L m₁ = swapped base := h₁.pages.finished (by simp)
    refine Runs.mono (writeStatus_spec hL m₁ _) ?_ ?_
    · intro _ m' h
      exact phase_of_trialWritten h hdone
    · rintro m' (rfl | h)
      · exact swapping_of hr hst h₁
      · exact (phase_of_trialWritten h hdone).1

/-- The revert under a trial record. -/
private theorem settleRevert_spec (hL : HasStatusPage L) {st : BootloaderStatus}
    {k : Nat} (hr : BootloaderStatus.fromBytes (record L m) = .valid st)
    (hst : st.state = .swappedImageTrialBooted)
    (hk : SwapAt L .revert (swapped base) (record L m) k m) :
    Runs m (do performSwap .revert; writeStatus .swappedImageBootTimeout :
        Act (Bootloader L) Reset Unit)
      (fun _ m' => Phase L base m' ∧ Whole L base m') (Phase L base) := by
  refine Runs.bind (Runs.mono (performSwap_spec hL hk) (fun _ _ h => h) ?_) ?_
  · rintro m' ⟨k', hk'⟩
    exact trial_of hr hst hk'
  · intro _ m₁ h₁
    refine settle_spec hL (by decide) (by decide) ?_ (trial_of hr hst h₁)
    left
    intro i
    rw [front_even (Nat.le_refl _) h₁ i, if_pos i.isLt]

theorem settleStatus_spec (hL : HasStatusPage L) (wd : Bool)
    (hm : Phase L base m) (hskip : wd = false → halfReverted L m = false) :
    Runs m (settleStatus wd (BootloaderStatus.fromBytes (record L m)) :
        Act (Bootloader L) Reset Unit)
      (fun _ m' => Phase L base m' ∧ Whole L base m') (Phase L base) := by
  have hphase := hm
  cases hm with
  | swapping st k hr hst hk =>
      rw [hr]
      simp only [settleStatus, hst]
      exact settleSwap_spec hL hr hst hk
  | trial st k hr hst hk =>
      rw [hr]
      simp only [settleStatus, hst]
      cases wd with
      | false =>
          simp only [Bool.false_eq_true, if_false]
          exact Runs.pure ⟨hphase, whole_of_not_half hL hr hst hk (hskip rfl)⟩
      | true =>
          simp only [if_true]
          exact settleRevert_spec hL hr hst hk
  | settled hr hw =>
      cases hdec : BootloaderStatus.fromBytes (record L m) with
      | empty => exact Runs.pure ⟨hphase, hw⟩
      | corrupt => exact settle_spec hL (by decide) (by decide) hw hphase
      | valid st =>
          obtain ⟨hfresh, htrial⟩ := hr st hdec
          cases hst : st.state with
          | dfuFreshlyWritten => exact absurd hst hfresh
          | swappedImageTrialBooted => exact absurd hst htrial
          | invalid | dfuContentsRejected | swappedImageBootTimeout =>
              simp only [settleStatus, hst]
              exact Runs.pure ⟨hphase, hw⟩

/-- **STEP LEMMA**: `main` keeps the phase wherever it is cut short, and jumps to
    a whole image, unless it skips a revert that is half-way. -/
theorem main_spec (hL : HasStatusPage L) (wd : Bool) (hm : Phase L base m)
    (hskip : wd = false → halfReverted L m = false) :
    Runs m (main wd : Act (Bootloader L) Reset Unit)
      (fun _ m' => Phase L base m' ∧ Whole L base m') (Phase L base) := by
  refine Runs.bind (readStatus_spec hL m) ?_
  rintro r m₁ ⟨rfl, rfl⟩
  refine Runs.bind (settleStatus_spec hL wd hm hskip) ?_
  intro _ m₂ h₂
  refine Runs.mono (powered_spec m₂) ?_ ?_
  · rintro _ m' rfl
    exact h₂
  · rintro m' rfl
    exact h₂.1

theorem confirmBoot_spec (hL : HasStatusPage L) (hm : Phase L base m)
    (hw : Whole L base m) :
    Runs m (confirmBoot : Act (Bootloader L) Reset Unit)
      (fun _ => Phase L base) (Phase L base) := by
  refine Runs.bind (readStatus_spec hL m) ?_
  rintro r m₁ ⟨rfl, rfl⟩
  split
  · split
    · refine Runs.mono (blockingErase_spec _ _ _) ?_ ?_
      · rintro _ m' rfl
        rw [statusPageEnd_toNat hL, statusOffset_toNat hL]
        have hroom := hL.logRoom
        -- the record is erased with its page, the firmware is not touched
        have hempty : allErased (record L (erase m₁ (status L)
            (status L + pageBytes L))) = true :=
          erased_iff_slice.mp (erased_erase m₁ (Nat.le_refl _) (by omega))
        refine .settled ?_ (hw.congr (status_frame hL (sameOutside_erase m₁ _ _)))
        intro st hst
        rw [BootloaderStatus.fromBytes, if_pos hempty] at hst
        cases hst
      · rintro m' rfl
        exact hm
    · exact Runs.pure hm
  · exact Runs.pure hm

theorem boot_spec (hL : HasStatusPage L) (b : Boot) (hm : Phase L base m)
    (hskip : b.watchdog = false → halfReverted L m = false) :
    Phase L base (boot L m b).2 ∧
      ∀ r, (boot L m b).1 = some r →
        ∃ m', r = firmware L m' ∧ Whole L base m' := by
  obtain ⟨hok, herr⟩ := main_spec hL b.watchdog hm hskip ⟨m, b.budget⟩ rfl
  rw [boot]
  rcases hrun : main b.watchdog (⟨m, b.budget⟩ : Bootloader L) with ⟨res, d⟩
  cases res with
  | ok u =>
      obtain ⟨hphase, hw⟩ := hok u d hrun
      constructor
      · obtain ⟨hok', herr'⟩ :=
          confirmBoot_spec hL hphase hw ⟨d.flash, b.confirmBudget⟩ rfl
        rcases hconf : confirmBoot (⟨d.flash, b.confirmBudget⟩ : Bootloader L)
          with ⟨res', d'⟩
        show Phase L base (confirmBoot
          (⟨d.flash, b.confirmBudget⟩ : Bootloader L)).2.flash
        rw [hconf]
        cases res' with
        | ok u' => exact hok' u' d' hconf
        | error e => exact herr' e d' hconf
      · intro r hr
        exact ⟨d.flash, (Option.some.inj hr).symm, hw⟩
  | error e =>
      refine ⟨herr e d hrun, ?_⟩
      intro r hr
      exact nomatch hr

/-- Without the watchdog flag `main` leaves a trial record alone. -/
theorem main_skips (hL : HasStatusPage L) (d : Bootloader L)
    {st : BootloaderStatus}
    (hr : BootloaderStatus.fromBytes (record L d.flash) = .valid st)
    (hst : st.state = .swappedImageTrialBooted) :
    main false d = powered d := by
  have hread : readStatus d = (.ok (.valid st), d) := by
    show (Except.ok (BootloaderStatus.fromBytes
      (slice d.flash (bootloaderStatusOffset L).toNat statusBytes)), d) = _
    rw [statusOffset_toNat hL]
    exact congrArg (fun r => (Except.ok r, d)) hr
  have hsettle : settleStatus false (.valid st) d = (.ok (), d) := by
    simp only [settleStatus, hst, Bool.false_eq_true, if_false]
    rfl
  exact (bind_ok hread).trans (bind_ok hsettle)

/-- A revert that is half-way is under a trial record. -/
theorem trial_of_half (hhalf : halfReverted L m = true) :
    ∃ st, BootloaderStatus.fromBytes (record L m) = .valid st ∧
      st.state = .swappedImageTrialBooted := by
  rw [halfReverted] at hhalf
  dsimp only at hhalf
  split at hhalf
  · rename_i st k hr _
    simp only [Bool.and_eq_true, beq_iff_eq] at hhalf
    exact ⟨st, hr, hhalf.1.1.1⟩
  · exact nomatch hhalf

/-- A boot that skips a revert half-way jumps to what it finds, unless it is
    reset before it does anything. -/
theorem boot_skips (hL : HasStatusPage L) (b : Boot)
    (hhalf : halfReverted L m = true) (hwd : b.watchdog = false) :
    if b.budget = some 0 then boot L m b = (none, m)
    else (boot L m b).1 = some (firmware L m) := by
  obtain ⟨st, hr, hst⟩ := trial_of_half hhalf
  have hmain := main_skips hL ⟨m, b.budget⟩ hr hst
  rw [boot, hwd, hmain, powered]
  by_cases hb : b.budget = some 0
  · rw [if_pos hb, if_pos hb]
  · rw [if_neg hb, if_neg hb]

/-! ## Runs of boots -/

/-- No boot of the run skips a revert that is half-way: one that finds it so has
    the watchdog flag, or is reset before it does anything. -/
def RevertsResumed (L : BootloaderLayout) : Mem → List Boot → Prop
  | _, [] => True
  | m, b :: bs =>
      ¬ (b.watchdog = false ∧ b.budget ≠ some 0 ∧ halfReverted L m = true) ∧
        RevertsResumed L (boot L m b).2 bs

instance decidableRevertsResumed (L : BootloaderLayout) :
    (m : Mem) → (bs : List Boot) → Decidable (RevertsResumed L m bs)
  | _, [] => isTrue trivial
  | m, b :: bs =>
      have := decidableRevertsResumed L (boot L m b).2 bs
      inferInstanceAs (Decidable (¬ (b.watchdog = false ∧ b.budget ≠ some 0 ∧
        halfReverted L m = true) ∧ RevertsResumed L (boot L m b).2 bs))

/-- A whole image, page by page and as a region. -/
theorem whole_iff (m₀ : Mem) :
    Whole L (page L m₀) m ↔
      firmware L m = firmware L m₀ ∨ firmware L m = dfuImage L m₀ := by
  refine or_congr ⟨?_, ?_⟩ ⟨?_, ?_⟩
  · intro h
    exact slice_pages (fun i hi => h ⟨i, hi⟩)
  · intro h i
    exact page_of_slice_eq h i.isLt
  · intro h
    exact slice_pages (fun i hi => h ⟨i, hi⟩)
  · intro h i
    exact page_of_slice_eq h i.isLt

/-- A boot of a run that resumes its reverts keeps the phase. -/
theorem boot_resumed (hL : HasStatusPage L) (b : Boot) (hm : Phase L base m)
    (hb : ¬ (b.watchdog = false ∧ b.budget ≠ some 0 ∧
      halfReverted L m = true)) :
    Phase L base (boot L m b).2 ∧
      ∀ r, (boot L m b).1 = some r →
        ∃ m', r = firmware L m' ∧ Whole L base m' := by
  by_cases hskip : b.watchdog = false ∧ halfReverted L m = true
  · have hdead : b.budget = some 0 := by
      by_contra hne
      exact hb ⟨hskip.1, hne, hskip.2⟩
    have hboot := boot_skips hL b hskip.2 hskip.1
    rw [if_pos hdead] at hboot
    rw [hboot]
    exact ⟨hm, fun r hr => nomatch hr⟩
  · refine boot_spec hL b hm ?_
    intro hwd
    rw [not_and, Bool.not_eq_true] at hskip
    exact hskip hwd

/-- **RUN LEMMA**: a run that resumes its reverts jumps to whole images only. -/
theorem jumps_of_resumed (hL : HasStatusPage L) (m₀ : Mem) :
    ∀ (boots : List Boot) (m : Mem), Phase L (page L m₀) m →
      RevertsResumed L m boots →
      ∀ r ∈ jumps L m boots, r = firmware L m₀ ∨ r = dfuImage L m₀ := by
  intro boots
  induction boots with
  | nil =>
      intro m _ _ r hr
      exact absurd hr List.not_mem_nil
  | cons b bs ih =>
      intro m hm hres r hr
      obtain ⟨hphase, hjump⟩ := boot_resumed hL b hm hres.1
      rcases List.mem_append.mp hr with hr | hr
      · obtain ⟨m', rfl, hw⟩ := hjump r (Option.mem_toList.mp hr)
        exact (whole_iff m₀).mp hw
      · exact ih _ hphase hres.2 r hr

/-- ... and, if the images differ on every page, one that does not resume them
    jumps to something else. -/
theorem resumed_of_jumps (hL : HasStatusPage L) (m₀ : Mem)
    (hdiffer : ∀ i : Fin (pages L),
      page L m₀ (.front i) ≠ page L m₀ (.back i.castSucc)) :
    ∀ (boots : List Boot) (m : Mem), Phase L (page L m₀) m →
      (∀ r ∈ jumps L m boots, r = firmware L m₀ ∨ r = dfuImage L m₀) →
      RevertsResumed L m boots := by
  intro boots
  induction boots with
  | nil =>
      intro m _ _
      exact trivial
  | cons b bs ih =>
      intro m hm hjumps
      have hb : ¬ (b.watchdog = false ∧ b.budget ≠ some 0 ∧
          halfReverted L m = true) := by
        rintro ⟨hwd, hbudget, hhalf⟩
        have hboot := boot_skips hL b hhalf hwd
        rw [if_neg hbudget] at hboot
        have hw : Whole L (page L m₀) m := by
          refine (whole_iff m₀).mpr (hjumps _ ?_)
          exact List.mem_append_left _ (Option.mem_toList.mpr hboot)
        obtain ⟨st, hr, hst⟩ := trial_of_half hhalf
        cases hm with
        | swapping st' k hr' hst' _ =>
            obtain rfl := DecodeResult.valid.inj (hr.symm.trans hr')
            rw [hst'] at hst
            exact nomatch hst
        | trial st' k hr' hst' hk =>
            exact not_whole_of_half hL hr' hst' hk hdiffer hhalf hw
        | settled hidle _ => exact (hidle st hr).2 hst
      refine ⟨hb, ih _ (boot_resumed hL b hm hb).1 ?_⟩
      intro r hr
      exact hjumps r (List.mem_append_right _ hr)

/-- A verified update as the firmware leaves it: the swap is about to start. -/
theorem phase_updateStaged (hL : HasStatusPage L) (m : Mem)
    (imageLength imageCrc32 : UInt32) :
    Phase L (page L m) (updateStaged L m imageLength imageCrc32) := by
  have hflash : updateStaged L m imageLength imageCrc32
      = patch (erase m (bootloaderStatusOffset L).toNat
          (bootloaderStatusOffset L + L.pageSizeBytes).toNat)
        (bootloaderStatusOffset L).toNat
        ((BootloaderStatus.mk .dfuFreshlyWritten imageLength
          imageCrc32).toBytes.take statusBytes) := rfl
  rw [statusPageEnd_toNat hL, statusOffset_toNat hL] at hflash
  obtain ⟨hp, hl, hr⟩ := patch_statusPage hL m
    (BootloaderStatus.mk .dfuFreshlyWritten imageLength imageCrc32)
    (Nat.le_refl statusBytes)
  rw [← hflash] at hp hl hr
  have hrecord : record L (updateStaged L m imageLength imageCrc32)
      = (BootloaderStatus.mk .dfuFreshlyWritten imageLength
          imageCrc32).toBytes := hr
  rw [← hp]
  refine .swapping (BootloaderStatus.mk .dfuFreshlyWritten imageLength
    imageCrc32) 0 ?_ rfl (swapAt_start hl)
  rw [hrecord]
  exact BootloaderStatus.fromBytes_toBytes _

/-- **JUMPS ARE WHOLE, WHILE REVERTS ARE RESUMED**: whatever cuts the boots short,
    every jump of a run that resumes its reverts is to the old or the new image;
    if the two differ on every page, only such a run's jumps are. -/
theorem jumps_whole (hL : HasStatusPage L) (m : Mem)
    (imageLength imageCrc32 : UInt32) (boots : List Boot) :
    (RevertsResumed L (updateStaged L m imageLength imageCrc32) boots →
      ∀ r ∈ jumps L (updateStaged L m imageLength imageCrc32) boots,
        r = firmware L m ∨ r = dfuImage L m) ∧
    ((∀ i : Fin (pages L),
        page L m (.front i) ≠ page L m (.back i.castSucc)) →
      (∀ r ∈ jumps L (updateStaged L m imageLength imageCrc32) boots,
        r = firmware L m ∨ r = dfuImage L m) →
      RevertsResumed L (updateStaged L m imageLength imageCrc32) boots) := by
  have hstart := phase_updateStaged hL m imageLength imageCrc32
  constructor
  · exact jumps_of_resumed hL m boots _ hstart
  · intro hdiffer
    exact resumed_of_jumps hL m hdiffer boots _ hstart

/-- Two pages of 48 bytes, the DFU region and the status page behind them. -/
def twoPages : BootloaderLayout := ⟨2, 48, 0, 96, 144⟩

theorem twoPages_hasStatusPage : HasStatusPage twoPages := by
  constructor
  · constructor <;> decide
  all_goals decide

/-- A flash with another byte in each page. -/
def numberedFlash : Mem := fun a => UInt8.ofNat (a / 48)

/-- The swap, two steps of the revert, and a power-on in the middle of it. -/
def powerOnRun : List Boot :=
  [⟨false, none, some 0⟩, ⟨true, some 114, some 0⟩, ⟨false, none, some 0⟩]

/-- The same with a watchdog reset in place of the power-on. -/
def watchdogRun : List Boot :=
  [⟨false, none, some 0⟩, ⟨true, some 114, some 0⟩, ⟨true, none, some 0⟩]

theorem powerOnRun_jumps_mixed :
    ∃ r ∈ jumps twoPages (updateStaged twoPages numberedFlash 96 0) powerOnRun,
      r ≠ firmware twoPages numberedFlash ∧
        r ≠ dfuImage twoPages numberedFlash := by
  decide +kernel

theorem jumps_whole_watchdogRun :
    (∀ r ∈ jumps twoPages (updateStaged twoPages numberedFlash 96 0)
        watchdogRun, r = firmware twoPages numberedFlash ∨
          r = dfuImage twoPages numberedFlash) ∧
      RevertsResumed twoPages (updateStaged twoPages numberedFlash 96 0)
        watchdogRun := by
  have h := jumps_whole twoPages_hasStatusPage numberedFlash 96 0 watchdogRun
  have hwhole := h.1 (by decide +kernel)
  exact ⟨hwhole, h.2 (by decide +kernel) hwhole⟩

end LoaderProofs
