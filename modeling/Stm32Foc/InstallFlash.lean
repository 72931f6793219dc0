import Stm32Foc.Install
import Stm32Foc.LoaderProofs
import Stm32Foc.StatusProofs
import Stm32Foc.UpdateProofs

/-! # The flash work of an update

    The operations an update is made of, on the bootloader's flash: what each makes of
    the flash when it returns and when the reset cuts it (`Does`), that with no work
    left it leaves the flash as it is (`Quiet`), and that with no reset to come it goes
    through (`Sure`). -/

namespace InstallFlash

open ActionLogic ByteMemory WireBytes PageRotation Boot Loader SwapProofs LoaderProofs
open Update UpdateProofs Faults Dfu Install

/-- The area the receiver writes to is the layout's DFU region, and it has no more
    chunks than there are counters. -/
structure Serves (L : BootloaderLayout) (area : DfuArea) : Prop where
  pageSize : area.pageSize = pageBytes L
  dfuOffset : area.dfuOffset = L.dfuOffsetBytes.toNat
  firmwareSize : area.firmwareSize.toNat = pages L * pageBytes L
  counters : area.firmwareSize.toNat ≤ updateChunkBytes * maxChunks

variable {L : BootloaderLayout} {area : DfuArea} {α β ε : Type} {m m' : Mem}

/-! ## Operations and what is left of the flash work -/

/-- From a flash `m`, the action returns with the flash in `Q`, or stops with no flash
    work left and the flash in `C`. -/
def Does (m : Mem) (x : Act (Bootloader L) ε α) (Q : α → Mem → Prop)
    (C : Mem → Prop) : Prop :=
  Spec (fun d => d.flash = m) x (fun a d => Q a d.flash)
    (fun _ d => d.budget = some 0 ∧ C d.flash)

theorem Does.bind {x : Act (Bootloader L) ε α} {f : α → Act (Bootloader L) ε β}
    {M : α → Mem → Prop} {Q : β → Mem → Prop} {C : Mem → Prop} (hx : Does m x M C)
    (hf : ∀ a m', M a m' → Does m' (f a) Q C) : Does m (x >>= f) Q C :=
  Spec.bind hx (fun a d hd => hf a d.flash hd d rfl)

theorem Does.mono {x : Act (Bootloader L) ε α} {Q Q' : α → Mem → Prop}
    {C C' : Mem → Prop} (h : Does m x Q C) (hQ : ∀ a m', Q a m' → Q' a m')
    (hC : ∀ m', C m' → C' m') : Does m x Q' C' :=
  Spec.weaken h (fun _ hd => hd) (fun a d => hQ a d.flash)
    (fun _ d hd => ⟨hd.1, hC d.flash hd.2⟩)

theorem Does.mapErr {ε' : Type} {x : Act (Bootloader L) ε α} {f : ε → ε'}
    {Q : α → Mem → Prop} {C : Mem → Prop} (h : Does m x Q C) : Does m (x.mapErr f) Q C :=
  Spec.mapErr h (fun _ _ hd => hd)

theorem Does.gives {x : Act (Bootloader L) ε α} {f : Bootloader L → α}
    {Q : α → Mem → Prop} {C : Mem → Prop} (hx : ∀ d, x d = (.ok (f d), d))
    (h : ∀ d, d.flash = m → Q (f d) m) : Does m x Q C := by
  refine Spec.gives hx ?_
  rintro d rfl
  exact h d rfl

/-- With no flash work left, the flash is `m` and stays so. -/
def Dead (m : Mem) (d : Bootloader L) : Prop := d.budget = some 0 ∧ d.flash = m

/-- With no flash work left, the action leaves the flash as it is. -/
def Quiet (x : Act (Bootloader L) ε α) : Prop :=
  ∀ m, Spec (Dead m) x (fun _ => Dead m) (fun _ => Dead m)

theorem Quiet.bind {x : Act (Bootloader L) ε α} {f : α → Act (Bootloader L) ε β}
    (hx : Quiet x) (hf : ∀ a, Quiet (f a)) : Quiet (x >>= f) :=
  fun m => Spec.bind (hx m) (fun a => hf a m)

theorem Quiet.mapErr {ε' : Type} {x : Act (Bootloader L) ε α} {f : ε → ε'}
    (hx : Quiet x) : Quiet (x.mapErr f) :=
  fun m => Spec.mapErr (hx m) (fun _ _ hd => hd)

theorem Quiet.lift (r : Except ε α) : Quiet (Act.lift r : Act (Bootloader L) ε α) := by
  intro m d hd
  constructor
  · intro a d' hrun
    rw [← (Prod.mk.inj hrun).2]
    exact hd
  · intro e d' hrun
    rw [← (Prod.mk.inj hrun).2]
    exact hd

theorem Quiet.read (f : Bootloader L → α) : Quiet (Act.read f : Act (Bootloader L) ε α) :=
  fun _ => Spec.read (fun _ hd => hd)

/-- With no reset to come, the action goes through. -/
def Sure (x : Act (Bootloader L) ε α) : Prop :=
  Spec (fun d => d.budget = none) x (fun _ d => d.budget = none) (fun _ _ => False)

theorem Sure.bind {x : Act (Bootloader L) ε α} {f : α → Act (Bootloader L) ε β}
    (hx : Sure x) (hf : ∀ a, Sure (f a)) : Sure (x >>= f) :=
  Spec.bind hx hf

theorem Sure.mapErr {ε' : Type} {x : Act (Bootloader L) ε α} {f : ε → ε'}
    (hx : Sure x) : Sure (x.mapErr f) :=
  Spec.mapErr hx (fun _ _ hd => hd)

theorem Sure.gives {x : Act (Bootloader L) ε α} {f : Bootloader L → α}
    (hx : ∀ d, x d = (.ok (f d), d)) : Sure x :=
  Spec.gives hx (fun _ hd => hd)

theorem blockingErase_does (m : Mem) (start stop : UInt32) :
    Does m (Loader.blockingErase start stop : Act (Bootloader L) Reset Unit)
      (fun _ m' => m' = erase m start.toNat stop.toNat) (fun m' => m' = m) := by
  rintro ⟨flash, budget⟩ rfl
  unfold Loader.blockingErase
  match budget with
  | none =>
      constructor
      · intro _ d' hrun
        rw [← (Prod.mk.inj hrun).2]
      · intro _ d' hrun
        cases hrun
  | some 0 =>
      constructor
      · intro _ d' hrun
        cases hrun
      · intro _ d' hrun
        rw [← (Prod.mk.inj hrun).2]
        exact ⟨rfl, rfl⟩
  | some (n + 1) =>
      constructor
      · intro _ d' hrun
        rw [← (Prod.mk.inj hrun).2]
      · intro _ d' hrun
        cases hrun

theorem blockingErase_quiet (start stop : UInt32) :
    Quiet (Loader.blockingErase start stop : Act (Bootloader L) Reset Unit) := by
  rintro m ⟨flash, budget⟩ ⟨hbudget, hflash⟩
  obtain rfl : budget = some 0 := hbudget
  constructor
  · intro _ d' hrun
    cases hrun
  · intro _ d' hrun
    rw [← (Prod.mk.inj hrun).2]
    exact ⟨rfl, hflash⟩

theorem blockingErase_sure (start stop : UInt32) :
    Sure (Loader.blockingErase start stop : Act (Bootloader L) Reset Unit) := by
  rintro ⟨flash, budget⟩ hbudget
  obtain rfl : budget = none := hbudget
  constructor
  · intro _ d' hrun
    rw [← (Prod.mk.inj hrun).2]
  · intro _ d' hrun
    cases hrun

theorem blockingWrite_does (m : Mem) (offset : UInt32) (bytes : List UInt8) :
    Does m (Loader.blockingWrite offset bytes : Act (Bootloader L) Reset Unit)
      (fun _ m' => m' = patch m offset.toNat bytes)
      (fun m' => ∃ n, n < bytes.length ∧ m' = patch m offset.toNat (bytes.take n)) := by
  rintro ⟨flash, budget⟩ rfl
  unfold Loader.blockingWrite
  match budget with
  | none =>
      constructor
      · intro _ d' hrun
        rw [← (Prod.mk.inj hrun).2]
      · intro _ d' hrun
        cases hrun
  | some n =>
      by_cases hn : n < bytes.length
      · simp only [if_pos hn]
        constructor
        · intro _ d' hrun
          cases hrun
        · intro _ d' hrun
          rw [← (Prod.mk.inj hrun).2]
          exact ⟨rfl, n, hn, rfl⟩
      · simp only [if_neg hn]
        constructor
        · intro _ d' hrun
          rw [← (Prod.mk.inj hrun).2]
        · intro _ d' hrun
          cases hrun

theorem blockingWrite_quiet (offset : UInt32) (bytes : List UInt8) :
    Quiet (Loader.blockingWrite offset bytes : Act (Bootloader L) Reset Unit) := by
  rintro m ⟨flash, budget⟩ ⟨hbudget, hflash⟩
  obtain rfl : budget = some 0 := hbudget
  obtain rfl : flash = m := hflash
  unfold Loader.blockingWrite
  by_cases hn : 0 < bytes.length
  · simp only [if_pos hn]
    constructor
    · intro _ d' hrun
      cases hrun
    · intro _ d' hrun
      rw [← (Prod.mk.inj hrun).2]
      exact ⟨rfl, by rw [List.take_zero]; exact patch_nil _ _⟩
  · -- nothing to write, so nothing is written
    obtain rfl : bytes = [] := List.eq_nil_of_length_eq_zero (by omega)
    constructor
    · intro _ d' hrun
      rw [← (Prod.mk.inj hrun).2]
      exact ⟨rfl, patch_nil _ _⟩
    · intro _ d' hrun
      cases hrun

theorem blockingWrite_sure (offset : UInt32) (bytes : List UInt8) :
    Sure (Loader.blockingWrite offset bytes : Act (Bootloader L) Reset Unit) := by
  rintro ⟨flash, budget⟩ hbudget
  obtain rfl : budget = none := hbudget
  constructor
  · intro _ d' hrun
    rw [← (Prod.mk.inj hrun).2]
  · intro _ d' hrun
    cases hrun

/-! ## Writes to the DFU area -/

theorem stop_eq (hA : Serves L area) :
    area.stop = L.dfuOffsetBytes.toNat + pages L * pageBytes L := by
  rw [DfuArea.stop, hA.dfuOffset, hA.firmwareSize]

/-- The area ends on a page, below the end of the addresses. -/
theorem stop_lt (hL : HasStatusPage L) (hA : Serves L area) : area.stop < 2 ^ 32 := by
  have hend := hL.dfuEnd
  have hsplit : (pages L + 1) * pageBytes L = pages L * pageBytes L + pageBytes L :=
    Nat.succ_mul _ _
  rw [stop_eq hA]
  omega

theorem stop_aligned (area : DfuArea) : area.pageSize ∣ area.stop :=
  Nat.dvd_add area.aligned area.whole

/-- A page of the area that starts before its end is inside it. -/
theorem page_le_stop {page : Nat} (hpage : area.pageSize ∣ page) (hlt : page < area.stop) :
    page + area.pageSize ≤ area.stop := by
  obtain ⟨i, rfl⟩ := hpage
  obtain ⟨n, hn⟩ := stop_aligned area
  have hi : i < n := by
    refine Nat.lt_of_mul_lt_mul_left (a := area.pageSize) ?_
    omega
  rw [hn, ← Nat.mul_succ]
  exact Nat.mul_le_mul_left _ hi

/-- **LOOP LEMMA**: the loop of `dfu_write` changes nothing before the page it starts at
    and nothing behind the area. -/
theorem erasePages_does (hL : HasStatusPage L) (hA : Serves L area) (stop page : Nat)
    (hpage : area.pageSize ∣ page) (hle : page ≤ area.stop) (hstop : stop ≤ area.stop)
    (m : Mem) :
    Does m (erasePages area stop page : Act (Bootloader L) MemoryFault Unit)
      (fun _ => SameOutside page (area.stop - page) m)
      (SameOutside page (area.stop - page) m) := by
  rw [erasePages]
  by_cases hlt : page < stop
  · rw [if_pos hlt]
    have hnext := page_le_stop hpage (Nat.lt_of_lt_of_le hlt hstop)
    have hend := stop_lt hL hA
    have hfrom : (UInt32.ofNat page).toNat = page := toNat_ofNat_of_lt (by omega)
    have hto : (UInt32.ofNat (page + area.pageSize)).toNat = page + area.pageSize :=
      toNat_ofNat_of_lt (by omega)
    refine Does.bind (Does.mono (blockingErase_does m _ _).mapErr (fun _ _ h => h) ?_) ?_
    · rintro m' rfl
      exact SameOutside.refl _ _ _
    · rintro _ m₁ rfl
      rw [hfrom, hto]
      have herase : SameOutside page (area.stop - page) m
          (erase m page (page + area.pageSize)) :=
        (sameOutside_erase m page area.pageSize).widen (Nat.le_refl _) (by omega)
      have hrest := erasePages_does hL hA stop (page + area.pageSize)
        (Nat.dvd_add hpage (Nat.dvd_refl _)) hnext hstop
        (erase m page (page + area.pageSize))
      refine Does.mono hrest ?_ ?_
      · intro _ m' h
        exact herase.trans (h.widen (Nat.le_add_right _ _) (by omega))
      · intro m' h
        exact herase.trans (h.widen (Nat.le_add_right _ _) (by omega))
  · rw [if_neg hlt]
    exact Does.gives (fun _ => rfl) (fun _ _ => SameOutside.refl _ _ _)
termination_by stop - page
decreasing_by
  have := area.pageSize_pos
  omega

theorem erasePages_quiet (stop page : Nat) :
    Quiet (erasePages area stop page : Act (Bootloader L) MemoryFault Unit) := by
  rw [erasePages]
  by_cases hlt : page < stop
  · rw [if_pos hlt]
    exact Quiet.bind (blockingErase_quiet _ _).mapErr
      (fun _ => erasePages_quiet stop (page + area.pageSize))
  · rw [if_neg hlt]
    exact Quiet.lift (.ok ())
termination_by stop - page
decreasing_by
  have := area.pageSize_pos
  omega

theorem erasePages_sure (stop page : Nat) :
    Sure (erasePages area stop page : Act (Bootloader L) MemoryFault Unit) := by
  rw [erasePages]
  by_cases hlt : page < stop
  · rw [if_pos hlt]
    exact Sure.bind (blockingErase_sure _ _).mapErr
      (fun _ => erasePages_sure stop (page + area.pageSize))
  · rw [if_neg hlt]
    exact Sure.gives (fun _ => rfl)
termination_by stop - page
decreasing_by
  have := area.pageSize_pos
  omega

/-- The page the loop starts at: the first of the area that starts at `start` or
    behind it. -/
theorem firstPage (area : DfuArea) {start : Nat} (hle : start ≤ area.stop) :
    let page := if start % area.pageSize = 0 then start
      else Config.nextMultipleOf start area.pageSize
    area.pageSize ∣ page ∧ start ≤ page ∧ page ≤ area.stop := by
  have hpos := area.pageSize_pos
  by_cases hzero : start % area.pageSize = 0
  · simp only [if_pos hzero]
    exact ⟨Nat.dvd_of_mod_eq_zero hzero, Nat.le_refl _, hle⟩
  · simp only [if_neg hzero, Config.nextMultipleOf]
    have hmod := Nat.div_add_mod start area.pageSize
    have hlt := Nat.mod_lt start hpos
    have hnext : start + (area.pageSize - start % area.pageSize)
        = area.pageSize * (start / area.pageSize + 1) := by
      rw [Nat.mul_succ]
      omega
    refine ⟨⟨_, hnext⟩, Nat.le_add_right _ _, ?_⟩
    have hfloor : area.pageSize ∣ start - start % area.pageSize :=
      ⟨start / area.pageSize, by omega⟩
    have hinside : start - start % area.pageSize + area.pageSize ≤ area.stop := by
      refine page_le_stop hfloor ?_
      -- `start` is not on a page, so it is not the end of the area
      rcases Nat.lt_or_eq_of_le hle with hlt' | rfl
      · omega
      · exact absurd (Nat.mod_eq_zero_of_dvd (stop_aligned area)) hzero
    omega

/-- **WRITE LEMMA**: a write inside the area leaves what is before it, puts its bytes
    there, and changes nothing behind the area; if it is cut short, nothing before it
    or behind the area is changed. -/
theorem dfuWrite_does (hL : HasStatusPage L) (hA : Serves L area) {offset : Nat}
    {data : List UInt8} (hfits : offset + data.length ≤ area.firmwareSize.toNat) (m : Mem) :
    Does m (dfuWrite area offset data : Act (Bootloader L) MemoryFault Unit)
      (fun _ m' =>
        SameOutside (area.dfuOffset + offset) (area.stop - (area.dfuOffset + offset)) m m' ∧
          slice m' (area.dfuOffset + offset) data.length = data)
      (SameOutside (area.dfuOffset + offset) (area.stop - (area.dfuOffset + offset)) m) := by
  have hroom : area.dfuOffset + offset + data.length ≤ area.stop := by
    rw [DfuArea.stop]
    omega
  have hend := stop_lt hL hA
  have hstart : (UInt32.ofNat (area.dfuOffset + offset)).toNat = area.dfuOffset + offset :=
    toNat_ofNat_of_lt (by omega)
  obtain ⟨hpage, hfirst, hlast⟩ :=
    firstPage area (Nat.le_trans (Nat.le_add_right _ data.length) hroom)
  rw [dfuWrite]
  simp only [if_neg (Nat.not_lt.mpr hroom)]
  have hloop := erasePages_does hL hA (area.dfuOffset + offset + data.length) _ hpage hlast
    hroom m
  refine Does.bind (M := fun _ => SameOutside (area.dfuOffset + offset)
    (area.stop - (area.dfuOffset + offset)) m) ?_ ?_
  · refine Does.mono hloop ?_ ?_
    · intro _ m' h
      exact h.widen hfirst (by omega)
    · intro m' h
      exact h.widen hfirst (by omega)
  · intro _ m₁ h₁
    refine Does.mono (blockingWrite_does m₁ _ data).mapErr ?_ ?_
    · rintro _ m' rfl
      rw [hstart]
      exact ⟨h₁.trans (sameOutside_patch m₁ _ (by omega)), slice_patch_self _ _ _⟩
    · rintro m' ⟨n, hn, rfl⟩
      rw [hstart]
      refine h₁.trans (sameOutside_patch m₁ _ ?_)
      rw [List.length_take]
      omega

theorem dfuWrite_quiet (offset : Nat) (data : List UInt8) :
    Quiet (dfuWrite area offset data : Act (Bootloader L) MemoryFault Unit) := by
  rw [dfuWrite]
  dsimp only
  split
  · exact Quiet.lift _
  · exact Quiet.bind (erasePages_quiet _ _) (fun _ => (blockingWrite_quiet _ _).mapErr)

theorem dfuWrite_sure {offset : Nat} {data : List UInt8}
    (hfits : offset + data.length ≤ area.firmwareSize.toNat) :
    Sure (dfuWrite area offset data : Act (Bootloader L) MemoryFault Unit) := by
  have hroom : area.dfuOffset + offset + data.length ≤ area.stop := by
    rw [DfuArea.stop]
    omega
  rw [dfuWrite]
  simp only [if_neg (Nat.not_lt.mpr hroom)]
  exact Sure.bind (erasePages_sure _ _) (fun _ => (blockingWrite_sure _ _).mapErr)

/-! ## The checksum of the written image -/

theorem blockingRead_does (offset len : Nat) (h : offset < 2 ^ 32) (m : Mem)
    {C : Mem → Prop} :
    Does m (ReadableFlash.blockingRead offset len : Act (Bootloader L) Reset (List UInt8))
      (fun bytes m' => bytes = slice m offset len ∧ m' = m) C := by
  refine Does.gives (f := fun d => slice d.flash (UInt32.ofNat offset).toNat len)
    (fun _ => rfl) ?_
  rintro d rfl
  rw [toNat_ofNat_of_lt h]
  exact ⟨rfl, rfl⟩

theorem digestFrom_does (length offset : Nat) (register : UInt32)
    (hend : area.dfuOffset + length < 2 ^ 32) (m : Mem) {C : Mem → Prop} :
    Does m (digestFrom area length offset register : Act (Bootloader L) MemoryFault UInt32)
      (fun r m' => m' = m ∧ r = digestUpdate register
        (slice m (area.dfuOffset + offset) (length - offset))) C := by
  rw [digestFrom]
  by_cases hlt : offset < length
  · rw [if_pos hlt]
    dsimp only
    refine Does.bind (blockingRead_does _ _ (by omega) m).mapErr ?_
    rintro buf m₁ ⟨rfl, rfl⟩
    have hn : 0 < min (length - offset) crcBufferBytes :=
      Nat.lt_min.mpr ⟨by omega, by decide⟩
    have hle := Nat.min_le_left (length - offset) crcBufferBytes
    generalize min (length - offset) crcBufferBytes = n at hn hle
    refine Does.mono (digestFrom_does length (offset + n) _ hend m₁ (C := C)) ?_
      (fun _ h => h)
    rintro r m' ⟨rfl, rfl⟩
    refine ⟨rfl, ?_⟩
    -- the buffer and what is read after it are the range in one piece
    have hsplit : length - offset = n + (length - (offset + n)) := by omega
    rw [hsplit, slice_add, Nat.add_assoc]
    simp only [digestUpdate, List.foldl_append]
  · rw [if_neg hlt]
    refine Does.gives (f := fun _ => register) (fun _ => rfl) ?_
    rintro d rfl
    refine ⟨rfl, ?_⟩
    rw [Nat.sub_eq_zero_of_le (Nat.not_lt.mp hlt)]
    rfl
termination_by length - offset
decreasing_by
  omega

/-- **THE CHECKSUM**: reading the image through the buffer gives the CRC-32 of its
    first `length` bytes. -/
theorem dfuCrc32_does (length : UInt32) (hend : area.dfuOffset + length.toNat < 2 ^ 32)
    (m : Mem) {C : Mem → Prop} :
    Does m (dfuCrc32 area length : Act (Bootloader L) MemoryFault UInt32)
      (fun crc m' => m' = m ∧ crc = crc32 (slice m area.dfuOffset length.toNat)) C := by
  refine Does.bind (digestFrom_does length.toNat 0 digest hend m) ?_
  rintro register m₁ ⟨rfl, rfl⟩
  refine Does.gives (f := fun _ => _) (fun _ => rfl) ?_
  rintro d rfl
  exact ⟨rfl, rfl⟩

theorem digestFrom_quiet (length offset : Nat) (register : UInt32) :
    Quiet (digestFrom area length offset register :
      Act (Bootloader L) MemoryFault UInt32) := by
  rw [digestFrom]
  by_cases hlt : offset < length
  · rw [if_pos hlt]
    dsimp only
    have hn : 0 < min (length - offset) crcBufferBytes :=
      Nat.lt_min.mpr ⟨by omega, by decide⟩
    generalize min (length - offset) crcBufferBytes = n at hn
    exact Quiet.bind (Quiet.read _).mapErr (fun _ => digestFrom_quiet length (offset + n) _)
  · rw [if_neg hlt]
    exact Quiet.lift (.ok register)
termination_by length - offset
decreasing_by
  omega

/-- A status write, complete or cut short: nothing but its own state can be read off
    the record, and the pages are left alone. -/
theorem replaceStatus_does (hL : HasStatusPage L) (record' : BootloaderStatus) (m : Mem) :
    Does m (replaceStatus record' : Act (Bootloader L) Reset Unit)
      (fun _ m' => StatusWritten L m m' record'.state ∧
        BootloaderStatus.fromBytes (record L m') = .valid record')
      (fun m' => m' = m ∨ StatusWritten L m m' record'.state) := by
  have hwritten : ∀ n, n ≤ statusBytes → StatusWritten L m
      (patch (erase m (status L) (status L + pageBytes L)) (status L)
        (record'.toBytes.take n)) record'.state := by
    intro n hn
    obtain ⟨hp, hl, hr⟩ := patch_statusPage hL m record' hn
    refine ⟨hp, hl, ?_⟩
    rw [hr]
    exact StatusProofs.tornBytes_readsAs record' n
  refine Does.bind (Does.mono (blockingErase_does m _ _) (fun _ _ h => h)
    (fun _ h => Or.inl h)) ?_
  rintro _ m₁ rfl
  rw [statusPageEnd_toNat hL, statusOffset_toNat hL]
  refine Does.mono (blockingWrite_does _ _ _) ?_ ?_
  · rintro _ m' rfl
    rw [statusOffset_toNat hL]
    obtain ⟨-, -, hr⟩ := patch_statusPage hL m record' (Nat.le_refl statusBytes)
    have hfull := hwritten statusBytes (Nat.le_refl _)
    have htake : record'.toBytes.take statusBytes = record'.toBytes :=
      List.take_of_length_le (Nat.le_refl _)
    have htorn : tornBytes record'.toBytes statusBytes = record'.toBytes := by
      rw [tornBytes, htake, BootloaderStatus.length_toBytes, Nat.sub_self]
      exact List.append_nil _
    rw [htake] at hfull hr
    rw [htorn] at hr
    refine ⟨hfull, ?_⟩
    rw [hr]
    exact BootloaderStatus.fromBytes_toBytes record'
  · rintro m' ⟨n, hn, rfl⟩
    rw [statusOffset_toNat hL]
    exact Or.inr (hwritten n (Nat.le_of_lt hn))

theorem replaceStatus_quiet (record' : BootloaderStatus) :
    Quiet (replaceStatus record' : Act (Bootloader L) Reset Unit) :=
  Quiet.bind (blockingErase_quiet _ _) (fun _ => blockingWrite_quiet _ _)

end InstallFlash
