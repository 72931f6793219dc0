import Stm32Foc.SwapProofs

/-! # The swap survives interruptions

    A flash and a swap log as the swap sees them, and calls of `swapImages` that
    may be interrupted at any operation: the interrupted copy leaves any bytes
    in its destination page, the interrupted log write any bytes in its entry.
    However often the calls are interrupted, the one that returns has exchanged
    the images; the revert, run the same way, brings the old firmware back. -/

namespace InterruptedSwap

open ActionLogic ByteMemory CopyJournal PageRotation Boot SwapProofs

/-- The mark `log_step` writes. -/
def stepMark : UInt8 := 0x55

/-- How a call is interrupted: after how many complete operations, and the bytes
    that show through what the interrupted operation was writing. -/
abbrev Plan : Type := Option (Nat × Mem)

/-- A flash with pages of `pageSize` bytes, the swap log of `logSize` bytes kept
    next to it, and the interruption that is to come. -/
structure SwapFlash (pageSize logSize : Nat) where
  flash : Mem
  swapLog : Mem
  plan : Plan

inductive Interrupted where
  | interrupted
  deriving DecidableEq

variable {p q : Nat}

/-- An operation that puts `bytes` into the flash at `dst`, or is interrupted
    and leaves other bytes there. -/
def SwapFlash.program (dst : Nat) (bytes : SwapFlash p q → List UInt8) :
    Act (SwapFlash p q) Interrupted Unit := fun d =>
  match d.plan with
  | some (0, torn) =>
      (.error .interrupted,
        { d with
          flash := patch d.flash dst (slice torn 0 (bytes d).length)
          plan := none })
  | some (n + 1, torn) =>
      (.ok (),
        { d with flash := patch d.flash dst (bytes d), plan := some (n, torn) })
  | none => (.ok (), { d with flash := patch d.flash dst (bytes d) })

/-- The log write of a step. -/
def SwapFlash.mark (entry : Nat) : Act (SwapFlash p q) Interrupted Unit := fun d =>
  match d.plan with
  | some (0, torn) =>
      (.error .interrupted,
        { d with
          swapLog := patch d.swapLog entry (slice torn 0 logEntryBytes)
          plan := none })
  | some (n + 1, torn) =>
      (.ok (),
        { d with
          swapLog :=
            patch d.swapLog entry (List.replicate logEntryBytes stepMark)
          plan := some (n, torn) })
  | none =>
      (.ok (),
        { d with
          swapLog :=
            patch d.swapLog entry (List.replicate logEntryBytes stepMark) })

instance : SwapOps (SwapFlash p q) Interrupted where
  firmwareToDfu firmwarePageOffset scratchPageOffset :=
    SwapFlash.program scratchPageOffset.toNat
      (fun d => slice d.flash firmwarePageOffset.toNat p)
  dfuToFirmware dfuPageOffset firmwarePageOffset :=
    SwapFlash.program firmwarePageOffset.toNat
      (fun d => slice d.flash dfuPageOffset.toNat p)
  logStep step := SwapFlash.mark (step.toNat * logEntryBytes)

/-- The device about to be interrupted as planned. -/
def SwapFlash.planned (d : SwapFlash p q) (plan : Plan) : SwapFlash p q :=
  { d with plan := plan }

/-- A fresh call of `swapImages`, interrupted as planned. -/
def swapCall (L : BootloaderLayout) (mode : SwapMode) (plan : Plan) :
    Act (SwapFlash (pageBytes L) q) Interrupted Unit := fun d =>
  swapImages L mode (slice d.swapLog 0 q) (d.planned plan)

/-- The swap log is erased between a swap and its revert. -/
def SwapFlash.eraseLog (d : SwapFlash p q) : SwapFlash p q :=
  { d with swapLog := erase d.swapLog 0 q }

/-- The firmware region. -/
def firmware (L : BootloaderLayout) (d : SwapFlash p q) : List UInt8 :=
  slice d.flash L.firmwareOffsetBytes.toNat (pages L * pageBytes L)

/-- The image in the DFU region. -/
def dfuImage (L : BootloaderLayout) (d : SwapFlash p q) : List UInt8 :=
  slice d.flash L.dfuOffsetBytes.toNat (pages L * pageBytes L)

/-! ## The flash copies pages -/

variable {L : BootloaderLayout}

/-- The contents of a page. -/
def page (L : BootloaderLayout) (d : SwapFlash (pageBytes L) q)
    (c : Cell (pages L)) : List UInt8 :=
  slice d.flash (offset L c) (pageBytes L)

/-- Whether a log entry has been written to. -/
def logged (d : SwapFlash p q) (i : Nat) : Bool :=
  !allErased (slice d.swapLog (i * logEntryBytes) logEntryBytes)

/-- The view of the flash: there is nothing besides the pages and the log. -/
def view (L : BootloaderLayout) (q : Nat) :
    View L (SwapFlash (pageBytes L) q) Unit :=
  ⟨page L, logged, fun _ => ()⟩

/-- Bytes put into a page replace its contents and leave the other pages
    alone. -/
private theorem page_patch (hL : Sound L) (d : SwapFlash (pageBytes L) q)
    {c : Cell (pages L)} {bs : List UInt8} (hbs : bs.length = pageBytes L)
    {d' : SwapFlash (pageBytes L) q}
    (hd : d'.flash = patch d.flash (offset L c) bs) :
    page L d' c = bs ∧ ∀ y, y ≠ c → page L d' y = page L d y := by
  constructor
  · have hself := slice_patch_self d.flash (offset L c) bs
    rw [hbs] at hself
    show slice d'.flash (offset L c) (pageBytes L) = bs
    rw [hd]
    exact hself
  · intro y hy
    show slice d'.flash (offset L y) (pageBytes L) = _
    rw [hd]
    refine slice_patch_apart ?_
    rw [hbs]
    exact offset_apart hL hy

theorem program_copies (hL : Sound L) {c : Copy (Cell (pages L))} {a : Nat}
    (ha : a = offset L c.src) {b : Nat} (hb : b = offset L c.dst) :
    Copies (view L q) c
      (SwapFlash.program b (fun d => slice d.flash a (pageBytes L))) := by
  subst ha hb
  rintro t d rfl
  constructor
  · intro _ d' hrun
    have hd : d'.flash = patch d.flash (offset L c.dst) (page L d c.src) ∧
        d'.swapLog = d.swapLog := by
      rw [SwapFlash.program] at hrun
      split at hrun
      · exact nomatch (Prod.mk.inj hrun).1
      · rw [← (Prod.mk.inj hrun).2]
        exact ⟨rfl, rfl⟩
      · rw [← (Prod.mk.inj hrun).2]
        exact ⟨rfl, rfl⟩
    obtain ⟨hself, hother⟩ := page_patch hL d (length_slice ..) hd.1
    refine ⟨?_, ?_, rfl⟩
    · funext y
      by_cases hy : y = c.dst
      · subst hy
        rw [Copy.run_dst]
        exact hself
      · rw [Copy.run_of_ne _ _ hy]
        exact hother y hy
    · funext i
      show logged d' i = logged d i
      rw [logged, logged, hd.2]
  · intro e d' hrun
    -- a torn write leaves some page in the place of the target, and no other
    obtain ⟨bs, hbs, hd, hlog⟩ : ∃ bs : List UInt8, bs.length = pageBytes L ∧
        d'.flash = patch d.flash (offset L c.dst) bs ∧
        d'.swapLog = d.swapLog := by
      rw [SwapFlash.program] at hrun
      split at hrun
      · rename_i torn _
        refine ⟨slice torn 0 (pageBytes L), length_slice .., ?_, ?_⟩
        · rw [← (Prod.mk.inj hrun).2, length_slice]
        · rw [← (Prod.mk.inj hrun).2]
      · exact nomatch (Prod.mk.inj hrun).1
      · exact nomatch (Prod.mk.inj hrun).1
    refine ⟨(page_patch hL d hbs hd).2, ?_, rfl⟩
    funext i
    show logged d' i = logged d i
    rw [logged, logged, hlog]

/-- Entries are disjoint: a write to one leaves the others as they were. -/
private theorem entry_patch_apart {m : Mem} {bs : List UInt8}
    (hbs : bs.length = logEntryBytes) {i s : Nat} (hi : i ≠ s) :
    slice (patch m (s * logEntryBytes) bs) (i * logEntryBytes) logEntryBytes
      = slice m (i * logEntryBytes) logEntryBytes := by
  refine slice_patch_apart ?_
  rw [hbs]
  simp only [logEntryBytes]
  omega

theorem mark_logs (s : Nat) :
    Logs (view L q) s (SwapFlash.mark (s * logEntryBytes)) := by
  rintro t d rfl
  constructor
  · intro _ d' hrun
    have hd : d'.flash = d.flash ∧ d'.swapLog
        = patch d.swapLog (s * logEntryBytes)
            (List.replicate logEntryBytes stepMark) := by
      rw [SwapFlash.mark] at hrun
      split at hrun
      · exact nomatch (Prod.mk.inj hrun).1
      · rw [← (Prod.mk.inj hrun).2]
        exact ⟨rfl, rfl⟩
      · rw [← (Prod.mk.inj hrun).2]
        exact ⟨rfl, rfl⟩
    refine ⟨?_, ?_, rfl⟩
    · funext y
      show page L d' y = page L d y
      rw [page, page, hd.1]
    · funext i
      show logged d' i = Function.update (logged d) s true i
      by_cases hi : i = s
      · subst hi
        rw [Function.update_self, logged, hd.2]
        have hself := slice_patch_self d.swapLog (i * logEntryBytes)
          (List.replicate logEntryBytes stepMark)
        rw [List.length_replicate] at hself
        rw [hself]
        decide
      · rw [Function.update_of_ne hi, logged, logged, hd.2,
          entry_patch_apart (by simp) hi]
  · intro e d' hrun
    obtain ⟨bs, hbs, hd⟩ : ∃ bs : List UInt8, bs.length = logEntryBytes ∧
        d'.flash = d.flash ∧
        d'.swapLog = patch d.swapLog (s * logEntryBytes) bs := by
      rw [SwapFlash.mark] at hrun
      split at hrun
      · rename_i torn _
        refine ⟨slice torn 0 logEntryBytes, length_slice .., ?_⟩
        rw [← (Prod.mk.inj hrun).2]
        exact ⟨rfl, rfl⟩
      · exact nomatch (Prod.mk.inj hrun).1
      · exact nomatch (Prod.mk.inj hrun).1
    refine ⟨?_, ?_, rfl⟩
    · funext y
      show page L d' y = page L d y
      rw [page, page, hd.1]
    · intro i hi
      show logged d' i = logged d i
      rw [logged, logged, hd.2, entry_patch_apart hbs hi]

theorem copiesPages (hL : Sound L) : CopiesPages (view L q) where
  firmwareToDfu i j _ _ ha hb := program_copies (c := save i j) hL ha hb
  dfuToFirmware j i _ _ ha hb := program_copies (c := fill j i) hL ha hb
  logStep s hs := by
    have hs' := Nat.lt_trans hs hL.steps
    show Logs (view L q) s
      (SwapFlash.mark ((UInt32.ofNat s).toNat * logEntryBytes))
    rw [UInt32.toNat_ofNat', Nat.mod_eq_of_lt hs']
    exact mark_logs s

/-! ## Runs of interrupted calls -/

theorem readsLog (d : SwapFlash p q) :
    ReadsLog (logged d) (q / logEntryBytes) (slice d.swapLog 0 q) := by
  refine ⟨by simp, ?_⟩
  intro i hi
  rw [getElem_chunksExact_slice hi, Nat.zero_add, logged, Bool.not_not]

variable {mode : SwapMode} {base : Cell (pages L) → List UInt8}

/-- One call, on any resumable device. -/
theorem swapCall_spec (hL : Sound L) (hroom : 2 * pages L * logEntryBytes ≤ q)
    (mode : SwapMode) (base : Cell (pages L) → List UInt8) (plan : Plan) :
    Spec (fun d => ∃ k, ResumableAt (view L q) (q / logEntryBytes) mode
        base () k d)
      (swapCall L mode plan : Act (SwapFlash (pageBytes L) q) Interrupted Unit)
      (fun _ d => (∃ k, ResumableAt (view L q) (q / logEntryBytes) mode
          base () k d) ∧
        ResumableAt (view L q) (q / logEntryBytes) mode base
          () (2 * pages L) d)
      (fun _ d => ∃ k, ResumableAt (view L q) (q / logEntryBytes) mode
        base () k d) := by
  have hcap : 2 * pages L ≤ q / logEntryBytes :=
    (Nat.le_div_iff_mul_le (by decide)).mpr hroom
  rintro d ⟨k, hk⟩
  have hk' : ResumableAt (view L q) (q / logEntryBytes) mode base () k
      (d.planned plan) := ⟨hk.bound, hk.log, hk.pages, rfl⟩
  have hspec := swapImages_spec hL (copiesPages hL) hcap (d.planned plan)
    (readsLog _) hk'
  refine Spec.weaken hspec (fun _ h => h) ?_ (fun _ _ h => h) _ rfl
  intro _ d' h
  exact ⟨⟨_, h⟩, h⟩

/-- The swap starts at its first step on an erased log. -/
theorem resumableAt_start {d : SwapFlash (pageBytes L) q}
    (herased : Erased d.swapLog 0 q) :
    ResumableAt (view L q) (q / logEntryBytes) mode (page L d) () 0 d := by
  refine ⟨Nat.zero_le _, ?_, Resumable.start _ _, rfl⟩
  intro i hi
  have hle : i * logEntryBytes + logEntryBytes ≤ q := by
    simp only [logEntryBytes] at hi ⊢
    omega
  have hentry : Erased d.swapLog (i * logEntryBytes) logEntryBytes :=
    herased.sub (Nat.zero_le _) (by omega)
  show logged d i = _
  rw [logged, erased_iff_slice.mp hentry]
  simp

/-- A run of calls whose last one returns has run the whole program. -/
theorem interruptedRun_spec (hL : Sound L)
    (hroom : 2 * pages L * logEntryBytes ≤ q)
    {d d' : SwapFlash (pageBytes L) q} (herased : Erased d.swapLog 0 q)
    {plans : List Plan} {last : Plan}
    (hrun : swapCall L mode last (attempts (swapCall L mode) d plans)
      = (.ok (), d')) :
    page L d' = runUpTo (program (pages L) mode) (page L d) (2 * pages L) := by
  have hI := Spec.attempts
    (swapCall_spec hL hroom mode (page L d))
    plans d ⟨0, resumableAt_start herased⟩
  obtain ⟨-, hdone⟩ := hI.2 last () d' hrun
  exact hdone.pages.finished (by simp)

/-- **INTERRUPTED SWAP AND REVERT**: whatever interrupts the calls, once a call
    in normal mode returns the firmware region is the DFU image; once the log is
    erased and a call in revert mode returns, it is the old firmware again. -/
theorem interrupted_swap_then_revert (hL : Sound L)
    (hroom : 2 * pages L * logEntryBytes ≤ q)
    (d : SwapFlash (pageBytes L) q) (herased : Erased d.swapLog 0 q)
    (plans : List Plan) (last : Plan) (d₁ : SwapFlash (pageBytes L) q)
    (hnormal : swapCall L .normal last (attempts (swapCall L .normal) d plans)
      = (.ok (), d₁)) :
    firmware L d₁ = dfuImage L d ∧
    ∀ (plans' : List Plan) (last' : Plan) (d₂ : SwapFlash (pageBytes L) q),
      swapCall L .revert last'
          (attempts (swapCall L .revert) d₁.eraseLog plans') = (.ok (), d₂) →
        firmware L d₂ = firmware L d := by
  have hforward := interruptedRun_spec hL hroom herased hnormal
  constructor
  · refine slice_pages ?_
    intro i hi
    have hpage := congrFun hforward (.front ⟨i, hi⟩)
    exact hpage.trans (forward_front _ _)
  · intro plans' last' d₂ hrevert
    -- the revert starts on the pages that the swap has left
    have hbackward := interruptedRun_spec hL hroom
      (erased_erase d₁.swapLog (Nat.zero_le 0) (by omega)) hrevert
    refine slice_pages ?_
    intro i hi
    have hpage := congrFun hbackward (.front ⟨i, hi⟩)
    have hbase : page L d₁.eraseLog = page L d₁ := rfl
    rw [hbase, hforward] at hpage
    exact hpage.trans (backward_forward_front _ _)

/-- Three pages of four bytes, the DFU region behind the firmware region. -/
def threePages : BootloaderLayout := ⟨3, 4, 0, 12, 16⟩

theorem threePages_sound : Sound threePages := by
  constructor <;> decide

/-- A flash whose bytes all differ, with an erased log of six entries. -/
def countingFlash : SwapFlash (pageBytes threePages) 48 :=
  ⟨fun a => UInt8.ofNat a, fun _ => erasedByte, none⟩

/-- The swap of `countingFlash`, interrupted in a copy and in a log write. -/
def swappedFlash : SwapFlash (pageBytes threePages) 48 :=
  (swapCall threePages .normal none (attempts (swapCall threePages .normal)
    countingFlash [some (2, fun _ => 0), some (1, fun _ => 0)])).2

/-- Its revert, interrupted in a log write that left the entry erased. -/
def revertedFlash : SwapFlash (pageBytes threePages) 48 :=
  (swapCall threePages .revert none (attempts (swapCall threePages .revert)
    swappedFlash.eraseLog [some (3, fun _ => erasedByte)])).2

theorem interrupted_swap_then_revert_threePages :
    firmware threePages swappedFlash = dfuImage threePages countingFlash ∧
      firmware threePages revertedFlash = firmware threePages countingFlash := by
  have h := interrupted_swap_then_revert threePages_sound (by decide)
    countingFlash (fun _ _ _ => rfl)
    [some (2, fun _ => 0), some (1, fun _ => 0)] none swappedFlash
    (returned (by decide +kernel))
  exact ⟨h.1, h.2 [some (3, fun _ => erasedByte)] none revertedFlash
    (returned (by decide +kernel))⟩

end InterruptedSwap
