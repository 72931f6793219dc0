import Stm32Foc.InstallFlash

/-! # What a board that is updated jumps to

    The receiver, the DFU area, the mark and the bootloader put together.  Between
    two power cycles the flash is `Settled`: whatever the next boots make of it,
    they jump to a region known to be good.  While the firmware runs it is `Live`,
    its own region and the status record untouched and the accepted chunks in the
    DFU area, or `Stopped`, with nothing reaching the flash any more.
    `life_delivered` is what follows for every life of the board: each jump is to
    the firmware it started with, or to an image that arrived whole. -/

namespace InstallProofs

open ActionLogic ByteMemory WireBytes PageRotation Boot Loader SwapProofs LoaderProofs
open Update Update.FirmwareUpdateState UpdateProofs Faults Dfu Install InstallFlash

variable {L : BootloaderLayout} {area : DfuArea} {α ε : Type} {m m' : Mem}

/-! ## Between two power cycles -/

/-- Whatever boots make of the flash, however they are cut short, they jump to a good
    region, as long as they resume their reverts. -/
def Settled (L : BootloaderLayout) (Good : List UInt8 → Prop) (m : Mem) : Prop :=
  ∃ base : Cell (pages L) → List UInt8, Phase L base m ∧
    ∀ m', Whole L base m' → Good (firmware L m')

variable {Good : List UInt8 → Prop}

/-- The firmware pages of a flash, in both banks. -/
def frontTwice (L : BootloaderLayout) (m : Mem) : Cell (pages L) → List UInt8
  | .front i => page L m (.front i)
  | .back j => if h : j.val < pages L then page L m (.front ⟨j.val, h⟩) else []

theorem frontTwice_back (i : Fin (pages L)) :
    frontTwice L m (.back i.castSucc) = page L m (.front i) := by
  show (if h : i.val < pages L then page L m (.front ⟨i.val, h⟩) else []) = _
  rw [dif_pos i.isLt]

/-- The firmware region is its pages. -/
theorem firmware_congr (h : ∀ i, page L m' (.front i) = page L m (.front i)) :
    firmware L m' = firmware L m :=
  slice_pages (fun i hi => h ⟨i, hi⟩)

/-- A record that asks for nothing: the firmware region stays what it is. -/
theorem settled_of_idle (hr : Idle (BootloaderStatus.fromBytes (record L m)))
    (hgood : Good (firmware L m)) : Settled L Good m := by
  refine ⟨frontTwice L m, .settled hr (.inl fun _ => rfl), ?_⟩
  rintro m' (hfront | hback)
  · rw [firmware_congr (m := m) hfront]
    exact hgood
  · rw [firmware_congr (m := m) (fun i => (hback i).trans (frontTwice_back i))]
    exact hgood

/-- A marked image: the boots go on with the region there is, or with the image. -/
theorem settled_of_marked (h : StatusWritten L m m' .dfuFreshlyWritten)
    (hfirmware : Good (firmware L m)) (himage : Good (dfuImage L m)) :
    Settled L Good m' := by
  have hp := h.pages
  by_cases hvalid : ∃ st, BootloaderStatus.fromBytes (record L m') = .valid st
  · obtain ⟨st, hst⟩ := hvalid
    refine ⟨page L m, .swapping st 0 hst (h.reads st hst) ?_, ?_⟩
    · rw [← hp]
      exact swapAt_start h.log
    · intro m₂ hw
      rcases (whole_iff m).mp hw with hfront | hback
      · rw [hfront]
        exact hfirmware
      · rw [hback]
        exact himage
  · refine settled_of_idle (fun st hst => absurd ⟨st, hst⟩ hvalid) ?_
    rw [firmware_congr (m := m) (fun i => congrFun hp (.front i))]
    exact hfirmware

/-! ## While the firmware runs -/

/-- The firmware region and the status record are left alone. -/
structure Kept (L : BootloaderLayout) (m m' : Mem) : Prop where
  firmware : firmware L m' = firmware L m
  record : record L m' = record L m

theorem Kept.trans {m'' : Mem} (h : Kept L m m') (h' : Kept L m' m'') : Kept L m m'' :=
  ⟨h'.firmware.trans h.firmware, h'.record.trans h.record⟩

/-- What changes inside the DFU area leaves the firmware region and the record alone. -/
theorem kept_of_area (hL : HasStatusPage L) (hA : Serves L area) {from' : Nat}
    (hfrom : area.dfuOffset ≤ from') (hle : from' ≤ area.stop)
    (h : SameOutside from' (area.stop - from') m m') : Kept L m m' := by
  have hstop := stop_eq hA
  have hoff := hA.dfuOffset
  have hroom := hL.logRoom
  have hstatus : status L = L.dfuOffsetBytes.toNat + (pages L * pageBytes L + pageBytes L) :=
    congrArg (_ + ·) (Nat.succ_mul _ _)
  have hend : (pages L + 2) * pageBytes L = pages L * pageBytes L + 2 * pageBytes L :=
    Nat.add_mul _ _ _
  have hwide : SameOutside area.dfuOffset (pages L * pageBytes L) m m' :=
    h.widen hfrom (by omega)
  constructor
  · refine hwide.slice_eq ?_
    show L.firmwareOffsetBytes.toNat + pages L * pageBytes L ≤ area.dfuOffset ∨
      area.dfuOffset + pages L * pageBytes L ≤ L.firmwareOffsetBytes.toNat
    rcases hL.statusApart with hapart | hapart
    · left
      omega
    · right
      omega
  · refine hwide.slice_eq (Or.inr ?_)
    omega

/-- What changes apart from the update's regions leaves the update alone. -/
theorem sameUpdate_storeElsewhere (found : Mem) (d : Bootloader L) {a : Nat}
    (h : updateRegions L a = true) : (storeElsewhere found d).flash a = d.flash a := by
  rw [storeElsewhere]
  split
  · rfl
  · exact if_pos h

theorem kept_storeElsewhere (hL : HasStatusPage L) (found : Mem) (d : Bootloader L) :
    Kept L d.flash (storeElsewhere found d).flash := by
  have hroom := hL.logRoom
  have hsplit : (pages L + 2) * pageBytes L
      = (pages L + 1) * pageBytes L + pageBytes L := Nat.succ_mul _ _
  constructor
  · refine slice_ext ?_
    intro i hi
    refine sameUpdate_storeElsewhere found d ?_
    simp only [updateRegions, Bool.or_eq_true, decide_eq_true_eq]
    omega
  · refine slice_ext ?_
    intro i hi
    refine sameUpdate_storeElsewhere found d ?_
    simp only [updateRegions, Bool.or_eq_true, decide_eq_true_eq]
    right
    show L.dfuOffsetBytes.toNat ≤ status L + i ∧
      status L + i < L.dfuOffsetBytes.toNat + (pages L + 2) * pageBytes L
    simp only [status]
    omega

/-- What the receiver sees of what reaches the flash. -/
def event : Received → Option Event
  | .data counter chunk => some (.data counter chunk)
  | .apply length crc32 => some (.apply length crc32)
  | .stored _ => none

/-- **THE INVARIANT** of the running firmware, started on the flash `m₀` and sent
    `events`: its own region and the record are left alone, the receiver is where the
    events bring it, and what it has written so far is in the DFU area. -/
structure Live (L : BootloaderLayout) (area : DfuArea) (m₀ : Mem) (events : List Event)
    (s : FirmwareUpdateState) (d : Bootloader L) : Prop where
  kept : Kept L m₀ d.flash
  receiver : s = (run area.firmwareSize events).1
  written : s.active = true → ∀ (dfu : Mem) (i : Nat), i < s.writeOffset.toNat →
    d.flash (area.dfuOffset + i) = performAll dfu (run area.firmwareSize events).2.writes i

/-- The reset has come, on a flash that can be booted. -/
def Stopped (Good : List UInt8 → Prop) (d : Bootloader L) : Prop :=
  d.budget = some 0 ∧ Settled L Good d.flash

/-- What a run of the receiver was started on. -/
structure Started (L : BootloaderLayout) (Good : List UInt8 → Prop) (m₀ : Mem) : Prop where
  idle : Idle (BootloaderStatus.fromBytes (record L m₀))
  good : Good (firmware L m₀)

theorem Started.settled {m₀ : Mem} (h : Started L Good m₀) (hk : Kept L m₀ m) :
    Settled L Good m := by
  refine settled_of_idle ?_ ?_
  · rw [hk.record]
    exact h.idle
  · rw [hk.firmware]
    exact h.good

theorem run_snoc (capacity : UInt32) (events : List Event) (e : Event) :
    run capacity (events ++ [e]) = UpdateProofs.step (run capacity events) e :=
  List.foldl_concat ..

variable {m₀ : Mem} {events : List Event} {s s' : FirmwareUpdateState} {d d' : Bootloader L}
  {counter : UInt16} {chunk : Chunk}

/-- A receiver that is not active promises nothing of the area. -/
theorem live_inactive (hk : Kept L m₀ d.flash)
    (hs : s = (run area.firmwareSize events).1) (hinactive : s.active = false) :
    Live L area m₀ events s d := by
  refine ⟨hk, hs, ?_⟩
  intro hactive
  rw [hinactive] at hactive
  cases hactive

/-- An action that was cut short leaves the reset and what was kept. -/
theorem stopped_of_does {x : Act (Bootloader L) ε α} {Q : α → Mem → Prop} {e : ε}
    (hstart : Started L Good m₀) (hx : Does d.flash x Q (Kept L m₀))
    (hrun : x d = (.error e, d')) : Stopped Good d' := by
  obtain ⟨hbudget, hk⟩ := (hx d rfl).2 e d' hrun
  exact ⟨hbudget, hstart.settled hk⟩

/-- A staged write takes the bytes where they belong, or is cut short. -/
theorem writeStaged_does (hL : HasStatusPage L) (hA : Serves L area) {w : DfuWriteData}
    (hw : Writable area.firmwareSize.toNat w) (hk : Kept L m₀ m) :
    Does m (writeStaged area w : Act (Bootloader L) MemoryFault Unit)
      (fun _ m' => Kept L m₀ m' ∧
        (∀ i, i < w.offset.toNat → m' (area.dfuOffset + i) = m (area.dfuOffset + i)) ∧
        ∀ (j : Nat) (h : j < updateStageBytes), j < w.len →
          m' (area.dfuOffset + (w.offset.toNat + j)) = w.data[j]) (Kept L m₀) := by
  have hlen : (w.data.toList.take w.len).length = w.len := by
    rw [List.length_take, Vector.length_toList]
    exact Nat.min_eq_left hw.staged
  have hfits := hw.fits
  have hkeeps : ∀ m', SameOutside (area.dfuOffset + w.offset.toNat)
      (area.stop - (area.dfuOffset + w.offset.toNat)) m m' → Kept L m₀ m' := by
    intro m' h
    refine hk.trans (kept_of_area hL hA (Nat.le_add_right _ _) ?_ h)
    rw [DfuArea.stop]
    omega
  refine Does.mono (dfuWrite_does hL hA (by rw [hlen]; exact hfits) m) ?_ hkeeps
  rintro _ m' ⟨hsame, hbytes⟩
  refine ⟨hkeeps m' hsame, ?_, ?_⟩
  · intro i hi
    exact hsame _ (Or.inl (by omega))
  · intro j hj hjlen
    have hjslice : j < (slice m' (area.dfuOffset + w.offset.toNat)
        (w.data.toList.take w.len).length).length := by
      rw [length_slice, hlen]
      exact hjlen
    rw [← Nat.add_assoc, ← getElem_slice hjslice]
    simp only [hbytes, List.getElem_take, Vector.getElem_toList]

theorem writeStaged_sure {w : DfuWriteData} (hw : Writable area.firmwareSize.toNat w) :
    Sure (writeStaged area w : Act (Bootloader L) MemoryFault Unit) := by
  refine dfuWrite_sure ?_
  have hfits := hw.fits
  rw [List.length_take, Vector.length_toList, Nat.min_eq_left hw.staged]
  exact hfits

theorem writeStaged_quiet (w : DfuWriteData) :
    Quiet (writeStaged area w : Act (Bootloader L) MemoryFault Unit) :=
  dfuWrite_quiet _ _

/-- The write that completes a stage. -/
theorem emit_write {w : DfuWriteData} (h : s.emit = (.accepted (some w), s')) :
    w.offset = s.writeOffset ∧ w.len = updateStageBytes ∧
      s'.writeOffset = s.writeOffset + UInt32.ofNat updateStageBytes := by
  rw [emit] at h
  split at h
  · obtain ⟨hw, rfl⟩ := Prod.mk.inj h
    obtain rfl := Option.some.inj (DataOutcome.accepted.inj hw)
    exact ⟨rfl, rfl, rfl⟩
  · cases h

theorem emit_none (h : s.emit = (.accepted none, s')) : s'.writeOffset = s.writeOffset := by
  rw [emit] at h
  split at h
  · cases h
  · rw [← (Prod.mk.inj h).2]

/-- What a write adds to the written bytes. -/
theorem written_snoc {w : DfuWriteData} {writes : List DfuWriteData} {n : Nat}
    (hn : n = w.offset.toNat + w.len) (hstage : w.len ≤ updateStageBytes)
    (hbefore : ∀ i, i < w.offset.toNat → m' (area.dfuOffset + i) = m (area.dfuOffset + i))
    (hinside : ∀ (j : Nat) (h : j < updateStageBytes), j < w.len →
      m' (area.dfuOffset + (w.offset.toNat + j)) = w.data[j])
    (hwritten : ∀ (dfu : Mem) (i : Nat), i < w.offset.toNat →
      m (area.dfuOffset + i) = performAll dfu writes i) :
    ∀ (dfu : Mem) (i : Nat), i < n →
      m' (area.dfuOffset + i) = performAll dfu (writes ++ [w]) i := by
  intro dfu i hi
  rw [performAll_append]
  by_cases hlt : i < w.offset.toNat
  · rw [perform_below hlt, hbefore i hlt]
    exact hwritten dfu i hlt
  · obtain ⟨j, rfl⟩ := Nat.exists_eq_add_of_le (Nat.not_lt.mp hlt)
    rw [perform_inside (by omega) (by omega)]
    exact hinside j (by omega) (by omega)

/-- **DATA**: a chunk leaves the firmware live, or the reset has come. -/
theorem live_data (hL : HasStatusPage L) (hA : Serves L area) (hstart : Started L Good m₀)
    (h : Live L area m₀ events s d) {reply : Reply}
    (hrun : firmwareUpdateData area counter chunk s d = (reply, s', d')) :
    Live L area m₀ (events ++ [.data counter chunk]) s' d' ∨ Stopped Good d' := by
  have hI := run_inv hA.counters events
  have hrec := h.receiver
  have hnext := run_snoc area.firmwareSize events (.data counter chunk)
  rcases hst : run area.firmwareSize events with ⟨s₀, t⟩
  rw [hst] at hI hrec hnext
  obtain rfl : s = s₀ := hrec
  have hwritten := h.written
  rw [hst] at hwritten
  rw [firmwareUpdateData] at hrun
  rcases hdata : onData counter chunk s with ⟨r, s₁⟩
  rw [hdata] at hrun
  have hstep : run area.firmwareSize (events ++ [.data counter chunk])
      = (s₁, t.observe counter chunk r) := by
    rw [hnext]
    show ((onData counter chunk s).2, t.observe counter chunk (onData counter chunk s).1) = _
    rw [hdata]
  rcases onData_cases hdata with ⟨rfl, rfl, -⟩ | ⟨rfl, rfl, -⟩ | ⟨w, rfl, hord, hsmall, hemit⟩
  · -- out of sequence: nothing changes
    obtain ⟨-, rfl, rfl⟩ := hrun
    refine .inl ⟨h.kept, by rw [hstep], ?_⟩
    rw [hstep]
    exact hwritten
  · -- too large: the transfer is given up
    obtain ⟨-, rfl, rfl⟩ := hrun
    exact .inl (live_inactive h.kept (by rw [hstep]) rfl)
  · obtain ⟨hr, hcounter⟩ := begun_receiving (fun h0 =>
      ⟨hI.receiving (inOrder_iff.mp hord h0).1, (inOrder_iff.mp hord h0).2⟩)
    have hcap' : (s.begun counter).capacity.toNat ≤ updateChunkBytes * maxChunks := by
      rw [begun_capacity, hI.capacity]
      exact hA.counters
    have hfit := Nat.not_lt.mp (mt (tooLarge_iff hr hcap').mpr hsmall)
    have hr' := accept_receiving hr hcounter hfit hcap' hemit
    have hcapacity : s₁.capacity = area.firmwareSize :=
      (emit_frame hemit).1.trans ((begun_capacity s counter).trans hI.capacity)
    -- what the transfer has written before this chunk
    have hbegun : ∀ (dfu : Mem) (i : Nat), i < (s.begun counter).writeOffset.toNat →
        d.flash (area.dfuOffset + i) = performAll dfu (t.begun counter).writes i := by
      by_cases h0 : counter = 0
      · intro dfu i hi
        rw [FirmwareUpdateState.begun, if_pos h0] at hi
        exact absurd hi (Nat.not_lt_zero i)
      · rw [FirmwareUpdateState.begun, if_neg h0, Transfer.begun, if_neg h0]
        exact hwritten (inOrder_iff.mp hord h0).1
    cases w with
    | none =>
        obtain ⟨-, rfl, rfl⟩ := hrun
        refine .inl ⟨h.kept, by rw [hstep], ?_⟩
        intro _ dfu i hi
        rw [emit_none hemit] at hi
        rw [hstep]
        show _ = performAll dfu ((t.begun counter).writes ++ []) i
        rw [List.append_nil]
        exact hbegun dfu i hi
    | some w =>
        obtain ⟨hoffset, hlen, hgrown⟩ := emit_write hemit
        have hw : Writable area.firmwareSize.toNat w := by
          rw [← hcapacity]
          exact hr'.writable w (List.mem_append_right _ (List.mem_singleton_self w))
        have hgrow : s₁.writeOffset.toNat = w.offset.toNat + w.len := by
          have hroom := hw.fits
          have hsize := area.firmwareSize.toNat_lt
          have hstage : (UInt32.ofNat updateStageBytes).toNat = updateStageBytes := rfl
          rw [hgrown, toNat_add_of_lt (by rw [hstage, ← hoffset, ← hlen]; omega), hstage,
            hoffset, hlen]
        have hdoes := writeStaged_does hL hA hw h.kept
        rcases hwrite : writeStaged area w d with ⟨res, d₁⟩
        simp only [hwrite] at hrun
        cases res with
        | ok _ =>
            obtain ⟨-, rfl, rfl⟩ := hrun
            obtain ⟨hk, hbefore, hinside⟩ := (hdoes d rfl).1 () d' hwrite
            refine .inl ⟨hk, by rw [hstep], ?_⟩
            rw [hstep]
            intro _
            have hstarted : (s.begun counter).writeOffset = w.offset := hoffset.symm
            rw [hstarted] at hbegun
            exact written_snoc hgrow (Nat.le_of_eq hlen) hbefore hinside hbegun
        | error e =>
            obtain ⟨-, rfl, rfl⟩ := hrun
            exact .inr (stopped_of_does hstart hdoes hwrite)

/-- **STORED**: records stored elsewhere leave the firmware live. -/
theorem live_stored (hL : HasStatusPage L) (hA : Serves L area)
    (h : Live L area m₀ events s d) (found : Mem) :
    Live L area m₀ events s (storeElsewhere found d) := by
  refine ⟨h.kept.trans (kept_storeElsewhere hL found d), h.receiver, ?_⟩
  intro hactive dfu i hi
  have hI := run_inv hA.counters events
  rw [← h.receiver] at hI
  have hr := hI.receiving hactive
  have hrec := hr.received
  have hfits := hr.fits
  rw [hI.capacity, hA.firmwareSize] at hfits
  have hsplit : (pages L + 2) * pageBytes L = pages L * pageBytes L + 2 * pageBytes L :=
    Nat.add_mul _ _ _
  -- what is written so far is inside the area
  have hinside : updateRegions L (area.dfuOffset + i) = true := by
    rw [hA.dfuOffset]
    simp only [updateRegions, Bool.or_eq_true, decide_eq_true_eq]
    right
    show L.dfuOffsetBytes.toNat ≤ L.dfuOffsetBytes.toNat + i ∧
      L.dfuOffsetBytes.toNat + i < L.dfuOffsetBytes.toNat + (pages L + 2) * pageBytes L
    omega
  rw [sameUpdate_storeElsewhere found d hinside]
  exact h.written hactive dfu i hi

/-- With the reset come, a quiet action changes nothing. -/
theorem stopped_quiet {x : Act (Bootloader L) ε α} (hx : Quiet x) (h : Stopped Good d)
    {r : Except ε α} (hrun : x d = (r, d')) : Stopped Good d' := by
  have hsame : Dead d.flash d' := by
    cases r with
    | ok a => exact (hx d.flash d ⟨h.1, rfl⟩).1 a d' hrun
    | error e => exact (hx d.flash d ⟨h.1, rfl⟩).2 e d' hrun
  refine ⟨hsame.1, ?_⟩
  rw [hsame.2]
  exact h.2

theorem stopped_data (h : Stopped Good d) {reply : Reply}
    (hrun : firmwareUpdateData area counter chunk s d = (reply, s', d')) :
    Stopped Good d' := by
  rw [firmwareUpdateData] at hrun
  rcases hdata : onData counter chunk s with ⟨r, s₁⟩
  rw [hdata] at hrun
  rcases r with e | (_ | w) | expected
  · obtain ⟨-, -, rfl⟩ := hrun
    exact h
  · obtain ⟨-, -, rfl⟩ := hrun
    exact h
  · rcases hwrite : writeStaged area w d with ⟨res, d₁⟩
    simp only [hwrite] at hrun
    cases res with
    | ok _ =>
        obtain ⟨-, -, rfl⟩ := hrun
        exact stopped_quiet (writeStaged_quiet w) h hwrite
    | error e =>
        obtain ⟨-, -, rfl⟩ := hrun
        exact stopped_quiet (writeStaged_quiet w) h hwrite
  · obtain ⟨-, -, rfl⟩ := hrun
    exact h

/-- A region that holds an image that arrived whole: its first `length` bytes are the
    accepted chunks, counted `0, 1, ...`, and have the CRC the sender gave. -/
structure Arrived (accepted : List (UInt16 × Chunk)) (length crc : UInt32)
    (region : List UInt8) : Prop where
  nonempty : 0 < length.toNat
  counters : accepted.map (fun a => a.1.toNat) = List.range accepted.length
  chunks : accepted.length = (length.toNat + 5) / 6
  bytes : ∀ i, i < length.toNat → chunkByte accepted i = region[i]?
  checked : crc32 (region.take length.toNat) = crc

/-- The check and the mark: an image is marked only if its CRC is right. -/
theorem verifyWritten_spec (hL : HasStatusPage L) (verify : DfuVerification)
    (hend : area.dfuOffset + verify.length.toNat < 2 ^ 32) (m : Mem) :
    Spec (fun d : Bootloader L => d.flash = m) (verifyWritten area verify)
      (fun _ d => crc32 (slice m area.dfuOffset verify.length.toNat) = verify.crc32 ∧
        StatusWritten L m d.flash .dfuFreshlyWritten ∧
        BootloaderStatus.fromBytes (record L d.flash)
          = .valid ⟨.dfuFreshlyWritten, verify.length, verify.crc32⟩)
      (fun _ d => d.flash = m ∨ d.budget = some 0 ∧
        crc32 (slice m area.dfuOffset verify.length.toNat) = verify.crc32 ∧
        StatusWritten L m d.flash .dfuFreshlyWritten) := by
  refine Spec.bind (M := fun crc d => d.flash = m ∧
    crc = crc32 (slice m area.dfuOffset verify.length.toNat)) ?_ ?_
  · refine Spec.weaken (dfuCrc32_does verify.length hend m (C := fun _ => False)).mapErr
      (fun _ h => h) (fun _ _ h => h) ?_
    rintro _ _ ⟨-, hfalse⟩
    exact hfalse.elim
  · intro crc
    by_cases hcrc : crc ≠ verify.crc32
    · rw [if_pos hcrc]
      rintro d ⟨hd, -⟩
      constructor
      · intro _ d' hrun
        cases hrun
      · intro _ d' hrun
        rw [← (Prod.mk.inj hrun).2]
        exact Or.inl hd
    · rw [if_neg hcrc]
      rw [not_not] at hcrc
      rintro d ⟨hd, hread⟩
      have hmark := (replaceStatus_does hL
        ⟨.dfuFreshlyWritten, verify.length, verify.crc32⟩ m).mapErr
        (f := fun _ => FaultCause.ofMemoryFault .flashInternalFault)
      have hright := hread.symm.trans hcrc
      refine Spec.weaken hmark (fun _ h => h) ?_ ?_ d hd
      · intro _ d' h
        exact ⟨hright, h.1, h.2⟩
      · rintro _ d' ⟨hbudget, hsame | hwritten⟩
        · exact Or.inl hsame
        · exact Or.inr ⟨hbudget, hright, hwritten⟩

theorem verifyWritten_quiet (verify : DfuVerification) :
    Quiet (verifyWritten area verify : Act (Bootloader L) FaultCause Unit) := by
  refine Quiet.bind (Quiet.bind (digestFrom_quiet _ _ _)
    (fun r => Quiet.lift (.ok (digestFinalize r)))).mapErr ?_
  intro crc
  split
  · exact Quiet.lift _
  · exact (replaceStatus_quiet _).mapErr

/-- The image in the DFU region, byte by byte, and its first bytes. -/
theorem dfuImage_getElem? (hA : Serves L area) {i : Nat}
    (hi : i < area.firmwareSize.toNat) :
    (dfuImage L m)[i]? = some (m (area.dfuOffset + i)) := by
  rw [hA.firmwareSize] at hi
  rw [hA.dfuOffset]
  exact getElem?_slice hi

theorem dfuImage_take (hA : Serves L area) {n : Nat} (hn : n ≤ area.firmwareSize.toNat) :
    (dfuImage L m).take n = slice m area.dfuOffset n := by
  rw [hA.firmwareSize] at hn
  rw [hA.dfuOffset]
  exact slice_take n hn

/-- What the receiver says of an image that it finds complete. -/
structure Complete (capacity : UInt32) (accepted : List (UInt16 × Chunk))
    (length : UInt32) : Prop where
  nonempty : 0 < length.toNat
  counters : accepted.map (fun a => a.1.toNat) = List.range accepted.length
  chunks : accepted.length = (length.toNat + 5) / 6
  fits : length.toNat ≤ capacity.toNat

/-- The firmware that reboots has marked an image that arrived whole; one whose mark was
    cut short is stopped. -/
theorem settled_of_verified (hL : HasStatusPage L) (hA : Serves L area)
    (hstart : Started L Good m₀) {length crc : UInt32} {accepted : List (UInt16 × Chunk)}
    (hgood : ∀ region, Arrived accepted length crc region → Good region)
    (hc : Complete area.firmwareSize accepted length) (hk : Kept L m₀ d.flash)
    (hbytes : ∀ i, i < length.toNat →
      chunkByte accepted i = some (d.flash (area.dfuOffset + i))) :
    (∀ u d', verifyWritten area ⟨length, crc⟩ d = (.ok u, d') → Settled L Good d'.flash) ∧
      ∀ e d', verifyWritten area ⟨length, crc⟩ d = (.error e, d') →
        Kept L m₀ d'.flash ∨ Stopped Good d' := by
  have hfits := hc.fits
  have hend : area.dfuOffset + length.toNat < 2 ^ 32 := by
    have hstop := stop_lt hL hA
    rw [DfuArea.stop] at hstop
    omega
  have hmarked : ∀ m', crc32 (slice d.flash area.dfuOffset length.toNat) = crc →
      StatusWritten L d.flash m' .dfuFreshlyWritten → Settled L Good m' := by
    intro m' hcrc hwritten
    refine settled_of_marked hwritten ?_ (hgood _ ?_)
    · rw [hk.firmware]
      exact hstart.good
    · refine ⟨hc.nonempty, hc.counters, hc.chunks, ?_, ?_⟩
      · intro i hi
        rw [hbytes i hi, dfuImage_getElem? hA (by omega)]
      · rw [dfuImage_take hA hfits]
        exact hcrc
  obtain ⟨hok, herr⟩ := verifyWritten_spec hL ⟨length, crc⟩ hend d.flash d rfl
  constructor
  · intro u d' hrun
    obtain ⟨hcrc, hwritten, -⟩ := hok u d' hrun
    exact hmarked _ hcrc hwritten
  · intro e d' hrun
    rcases herr e d' hrun with hsame | ⟨hbudget, hcrc, hwritten⟩
    · left
      rw [hsame]
      exact hk
    · exact Or.inr ⟨hbudget, hmarked _ hcrc hwritten⟩

theorem onApply_reset (s : FirmwareUpdateState) (length crc : UInt32) :
    (onApply length crc s).2 = s.reset := by
  rw [onApply]
  split
  · rfl
  · rfl

/-- The write of what is still staged. -/
theorem flush_write {length : UInt32} {w : DfuWriteData} (h : s.flush length = some w) :
    w.offset = s.writeOffset ∧ w.len = (nextMultipleOf (length - s.writeOffset) 8).toNat ∧
      0 < s.stagedLen := by
  rw [flush] at h
  split at h
  · rename_i hstaged
    rw [← Option.some.inj h]
    exact ⟨rfl, rfl, hstaged⟩
  · cases h

/-- The flush reaches the end of the image. -/
theorem flush_reaches {t : Transfer} (hr : Receiving s t)
    (hcap : s.capacity.toNat ≤ updateChunkBytes * maxChunks) {length : UInt32}
    (hle : length.toNat ≤ updateChunkBytes * t.accepted.length)
    (hlast : updateChunkBytes * t.accepted.length < length.toNat + updateChunkBytes)
    {w : DfuWriteData} (h : s.flush length = some w) :
    ∀ i, i < length.toNat → i < w.offset.toNat + w.len := by
  obtain ⟨hoffset, hlen, hstaged⟩ := flush_write h
  have hrec := hr.received
  have hstage := hr.stage
  have hfits := hr.fits
  simp only [updateChunkBytes, updateStageBytes, maxChunks]
    at hrec hstage hfits hle hlast hcap
  -- a staged chunk is six bytes, so the image ends behind the write offset
  have hdiff : (length - s.writeOffset).toNat = length.toNat - s.writeOffset.toNat :=
    UInt32.toNat_sub_of_le _ _ (by
      rw [UInt32.le_iff_toNat_le]
      omega)
  rw [hoffset, hlen, nextMultipleOf_eight (by rw [hdiff]; omega), hdiff]
  intro i hi
  omega

/-- **FLUSH**: the complete image is in the area, or the reset has come. -/
theorem live_flush (hL : HasStatusPage L) (hA : Serves L area) (hstart : Started L Good m₀)
    (h : Live L area m₀ events s d) {length : UInt32} (crc : UInt32)
    (hcomplete : s.complete length = true) :
    Complete area.firmwareSize (run area.firmwareSize events).2.accepted length ∧
    ((∃ d₁, firmwareUpdateApply area length crc s d = (.ok ⟨length, crc⟩, s.reset, d₁) ∧
        Kept L m₀ d₁.flash ∧
        (∀ i, i < length.toNat → chunkByte (run area.firmwareSize events).2.accepted i
          = some (d₁.flash (area.dfuOffset + i))) ∧
        (d.budget = none → d₁.budget = none)) ∨
      ∃ e d₁, firmwareUpdateApply area length crc s d = (.error e, s.reset, d₁) ∧
        Stopped Good d₁ ∧ d.budget ≠ none) := by
  have hI := run_inv hA.counters events
  have hrec := h.receiver
  rcases hst : run area.firmwareSize events with ⟨s₀, t⟩
  rw [hst] at hI hrec
  obtain rfl : s = s₀ := hrec
  have hwritten := h.written
  rw [hst] at hwritten
  have hactive : s.active = true := by
    simp only [complete, Bool.and_eq_true] at hcomplete
    exact hcomplete.1.1.1
  have hr := hI.receiving hactive
  have hcap' : s.capacity.toNat ≤ updateChunkBytes * maxChunks := by
    rw [hI.capacity]
    exact hA.counters
  obtain ⟨-, hpos, hle, hlast⟩ := (complete_iff hr hcap' length).mp hcomplete
  have h8 : 8 ∣ s.capacity.toNat := by
    rw [hI.capacity]
    exact Nat.dvd_trans area.words area.whole
  obtain ⟨-, hwritable, hbytes⟩ := flush_spec hr h8 hle hlast
  constructor
  · refine ⟨hpos, hr.counters, ?_, ?_⟩
    · show t.accepted.length = (length.toNat + 5) / 6
      simp only [updateChunkBytes] at hle hlast
      omega
    · have hfits := hr.fits
      rw [hI.capacity] at hfits
      exact Nat.le_trans hle hfits
  rw [firmwareUpdateApply, onApply, if_pos hcomplete]
  cases hflush : s.flush length with
  | none =>
      rw [hflush] at hbytes
      refine .inl ⟨d, rfl, h.kept, ?_, id⟩
      intro i hi
      -- nothing was staged, so the whole image is written
      have hoffset : i < s.writeOffset.toNat := by
        rw [flush] at hflush
        have hrecd := hr.received
        by_cases hstaged : 0 < s.stagedLen
        · rw [if_pos hstaged] at hflush
          cases hflush
        · simp only [updateChunkBytes] at hrecd hle
          omega
      rw [hwritten hactive d.flash i hoffset, hbytes d.flash i hi]
      show some (performAll d.flash (t.writes ++ []) i) = _
      rw [List.append_nil]
  | some w =>
      rw [hflush] at hbytes hwritable
      have hw : Writable area.firmwareSize.toNat w := by
        rw [← hI.capacity]
        exact hwritable w (List.mem_append_right _ (List.mem_singleton_self w))
      have hoffset := (flush_write hflush).1
      have hdoes := writeStaged_does hL hA hw h.kept
      have hsure := writeStaged_sure (L := L) hw
      rcases hwrite : writeStaged area w d with ⟨res, d₁⟩
      cases res with
      | ok _ =>
          obtain ⟨hk, hbefore, hinside⟩ := (hdoes d rfl).1 () d₁ hwrite
          simp only [hwrite]
          refine .inl ⟨d₁, rfl, hk, ?_, fun hbudget => (hsure d hbudget).1 () d₁ hwrite⟩
          intro i hi
          have hall := flush_reaches hr hcap' hle hlast hflush i hi
          have hin := written_snoc rfl hw.staged hbefore hinside
            (fun dfu i hi => hwritten hactive dfu i (by rw [← hoffset]; exact hi))
          rw [hin d.flash i hall, hbytes d.flash i hi]
          rfl
      | error e =>
          simp only [hwrite]
          exact .inr ⟨_, d₁, rfl, stopped_of_does hstart hdoes hwrite,
            fun hbudget => (hsure d hbudget).2 e d₁ hwrite⟩

/-- **APPLY**: the device is rebooted on a marked image that arrived whole; otherwise the
    firmware is live, its receiver reset, or the reset has come. -/
theorem live_apply (hL : HasStatusPage L) (hA : Serves L area) (hstart : Started L Good m₀)
    (h : Live L area m₀ events s d) {length crc : UInt32}
    (hgood : ∀ region, Arrived (run area.firmwareSize events).2.accepted length crc region →
      Good region)
    {r : Except FaultCause Unit} (hrun : applied area length crc s d = (r, s', d')) :
    (∀ u, r = .ok u → Settled L Good d'.flash) ∧
      ∀ e, r = .error e →
        Live L area m₀ (events ++ [.apply length crc]) s' d' ∨ Stopped Good d' := by
  have hstep : (run area.firmwareSize (events ++ [.apply length crc])).1 = s.reset := by
    rw [run_snoc, h.receiver]
    exact onApply_reset _ length crc
  have hlive : ∀ d', Kept L m₀ d'.flash →
      Live L area m₀ (events ++ [.apply length crc]) s.reset d' :=
    fun d' hk => live_inactive hk hstep.symm rfl
  rw [applied] at hrun
  by_cases hcomplete : s.complete length = true
  · obtain ⟨hc, ⟨d₁, hflush, hk, hbytes, -⟩ | ⟨e, d₁, hflush, hstopped, -⟩⟩ :=
      live_flush hL hA hstart h crc hcomplete
    · -- with the image in the area, the check decides
      rcases hverify : verifyWritten area ⟨length, crc⟩ d₁ with ⟨r', d₂⟩
      simp only [hflush, hverify] at hrun
      obtain ⟨rfl, rfl, rfl⟩ := hrun
      obtain ⟨hok, herr⟩ := settled_of_verified hL hA hstart hgood hc hk hbytes
      constructor
      · rintro u rfl
        exact hok u _ hverify
      · rintro e rfl
        exact (herr e _ hverify).imp (hlive _) id
    · simp only [hflush] at hrun
      obtain ⟨rfl, rfl, rfl⟩ := hrun
      constructor
      · intro u hu
        cases hu
      · intro _ _
        exact .inr hstopped
  · rw [firmwareUpdateApply, onApply, if_neg hcomplete] at hrun
    obtain ⟨rfl, rfl, rfl⟩ := hrun
    constructor
    · intro u hu
      cases hu
    · intro _ _
      exact .inl (hlive d h.kept)

theorem stopped_apply (h : Stopped Good d) {length crc : UInt32}
    {r : Except FaultCause Unit} (hrun : applied area length crc s d = (r, s', d')) :
    Stopped Good d' := by
  rw [applied, firmwareUpdateApply] at hrun
  have hverify : ∀ (verify : DfuVerification) (d₁ : Bootloader L), Stopped Good d₁ →
      ∀ r' d₂, verifyWritten area verify d₁ = (r', d₂) → Stopped Good d₂ := by
    intro verify d₁ hd r' d₂ hrun'
    exact stopped_quiet (verifyWritten_quiet verify) hd hrun'
  rcases happly : onApply length crc s with ⟨res, s₁⟩
  rw [happly] at hrun
  rcases res with e | ⟨_ | w, verify⟩
  · obtain ⟨-, -, rfl⟩ := hrun
    exact h
  · rcases hmark : verifyWritten area verify d with ⟨r', d₂⟩
    simp only [hmark] at hrun
    obtain ⟨-, -, rfl⟩ := hrun
    exact hverify verify d h _ _ hmark
  · rcases hwrite : writeStaged area w d with ⟨res', d₁⟩
    have hd₁ := stopped_quiet (writeStaged_quiet w) h hwrite
    simp only [hwrite] at hrun
    cases res' with
    | ok _ =>
        rcases hmark : verifyWritten area verify d₁ with ⟨r', d₂⟩
        simp only [hmark] at hrun
        obtain ⟨-, -, rfl⟩ := hrun
        exact hverify verify d₁ hd₁ _ _ hmark
    | error e =>
        obtain ⟨-, -, rfl⟩ := hrun
        exact hd₁

/-! ## Power cycles -/

/-- What is received delivers an image: it arrived whole by the time it was applied. -/
def Delivered (capacity : UInt32) (received : List Received) (region : List UInt8) : Prop :=
  ∃ seen length crc rest, received = seen ++ .apply length crc :: rest ∧
    Arrived (run capacity (seen.filterMap event)).2.accepted length crc region

/-- **RUN LEMMA**: whatever the firmware is sent and wherever the reset cuts it, it leaves
    a flash to boot from. -/
theorem serve_settled (hL : HasStatusPage L) (hA : Serves L area) (hstart : Started L Good m₀) :
    ∀ (received seen : List Received) (s : FirmwareUpdateState) (d : Bootloader L),
      Live L area m₀ (seen.filterMap event) s d ∨ Stopped Good d →
      (∀ region, Delivered area.firmwareSize (seen ++ received) region → Good region) →
      Settled L Good (serve area received s d) := by
  intro received
  induction received with
  | nil =>
      rintro seen s d (h | h) -
      · exact hstart.settled h.kept
      · exact h.2
  | cons r rest ih =>
      intro seen s d h hgood
      have hseen : seen ++ r :: rest = (seen ++ [r]) ++ rest := by simp
      have hgood' : ∀ region, Delivered area.firmwareSize ((seen ++ [r]) ++ rest) region →
          Good region := by
        rw [← hseen]
        exact hgood
      have hevents : (seen ++ [r]).filterMap event
          = seen.filterMap event ++ (event r).toList := by
        rw [List.filterMap_append]
        cases hr : event r <;> simp [hr]
      cases r with
      | data counter chunk =>
          rcases hrun : firmwareUpdateData area counter chunk s d with ⟨reply, s', d'⟩
          rw [serve, hrun]
          refine ih (seen ++ [.data counter chunk]) s' d' ?_ hgood'
          rw [hevents]
          rcases h with h | h
          · exact live_data hL hA hstart h hrun
          · exact .inr (stopped_data h hrun)
      | apply length crc =>
          rcases hrun : applied area length crc s d with ⟨res, s', d'⟩
          have hnow : ∀ region, Arrived
              (run area.firmwareSize (seen.filterMap event)).2.accepted length crc region →
              Good region :=
            fun region harrived => hgood region ⟨seen, length, crc, rest, rfl, harrived⟩
          have hrest := ih (seen ++ [.apply length crc]) s' d'
          rw [hevents] at hrest
          rw [serve, hrun]
          rcases h with h | h
          · obtain ⟨hok, herr⟩ := live_apply hL hA hstart h hnow hrun
            cases res with
            | ok u => exact hok u rfl
            | error e => exact hrest (herr e rfl) hgood'
          · have hstopped := stopped_apply h hrun
            cases res with
            | ok u => exact hstopped.2
            | error e => exact hrest (.inr hstopped) hgood'
      | stored found =>
          rw [serve]
          refine ih (seen ++ [.stored found]) s _ ?_ hgood'
          rw [hevents]
          show Live L area m₀ (seen.filterMap event ++ []) s (storeElsewhere found d) ∨ _
          rw [List.append_nil]
          rcases h with h | h
          · exact .inl (live_stored hL hA h found)
          · right
            rw [storeElsewhere, if_pos h.1]
            exact h

/-- The record does not ask for the swap. -/
def NotFresh (L : BootloaderLayout) (m : Mem) : Prop :=
  ∀ st, BootloaderStatus.fromBytes (record L m) = .valid st → st.state ≠ .dfuFreshlyWritten

/-- `main` never jumps on a record that asks for the swap: it has done it. -/
theorem main_notFresh (hL : HasStatusPage L) (wd : Bool) (m : Mem) :
    Runs m (main wd : Act (Bootloader L) Reset Unit) (fun _ => NotFresh L)
      (fun _ => True) := by
  have hwrite : ∀ (m : Mem) (s : BootloaderState), s ≠ .dfuFreshlyWritten →
      Runs m (writeStatus s : Act (Bootloader L) Reset Unit) (fun _ => NotFresh L)
        (fun _ => True) := by
    intro m s hs
    refine Runs.mono (writeStatus_spec hL m s) ?_ (fun _ _ => trivial)
    intro _ m' h st hst
    rw [h.reads st hst]
    exact hs
  have hswap : ∀ (m : Mem) (mode : SwapMode),
      Runs m (performSwap mode : Act (Bootloader L) Reset Unit) (fun _ _ => True)
        (fun _ => True) :=
    fun _ _ _ _ => ⟨fun _ _ _ => trivial, fun _ _ _ => trivial⟩
  refine Runs.bind (readStatus_spec hL m) ?_
  rintro r m₁ ⟨hr, rfl⟩
  refine Runs.bind (M := fun _ => NotFresh L) ?_ ?_
  · cases r with
    | empty =>
        refine Runs.pure ?_
        intro st hst
        cases hr.trans hst
    | corrupt => exact hwrite m₁ _ (by decide)
    | valid st =>
        have hsame : st.state ≠ .dfuFreshlyWritten → NotFresh L m₁ := by
          intro hne st' hst'
          rw [← DecodeResult.valid.inj (hr.trans hst')]
          exact hne
        cases hst : st.state with
        | dfuFreshlyWritten =>
            simp only [settleStatus, hst]
            exact Runs.bind (hswap m₁ .normal) (fun _ m₂ _ => hwrite m₂ _ (by decide))
        | swappedImageTrialBooted =>
            simp only [settleStatus, hst]
            split
            · exact Runs.bind (hswap m₁ .revert) (fun _ m₂ _ => hwrite m₂ _ (by decide))
            · exact Runs.pure (hsame (by rw [hst]; decide))
        | invalid | dfuContentsRejected | swappedImageBootTimeout =>
            simp only [settleStatus, hst]
            exact Runs.pure (hsame (by rw [hst]; decide))
  · intro _ m₂ h₂
    refine Runs.mono (powered_spec m₂) ?_ (fun _ _ => trivial)
    rintro _ m' rfl
    exact h₂

/-- `confirm_boot` leaves a record that asks for nothing, and the firmware region. -/
theorem confirmBoot_idle (hL : HasStatusPage L) (hm : NotFresh L m) :
    Runs m (confirmBoot : Act (Bootloader L) Reset Unit)
      (fun _ m' => Idle (BootloaderStatus.fromBytes (record L m')) ∧
        firmware L m' = firmware L m) (fun _ => True) := by
  refine Runs.bind (readStatus_spec hL m) ?_
  rintro r m₁ ⟨hr, rfl⟩
  cases r with
  | empty =>
      refine Runs.pure ⟨?_, rfl⟩
      intro st hst
      cases hr.trans hst
  | corrupt =>
      refine Runs.pure ⟨?_, rfl⟩
      intro st hst
      cases hr.trans hst
  | valid st =>
      by_cases hclear : clearedByConfirm st.state = true
      · simp only [if_pos hclear]
        refine Runs.mono (blockingErase_spec _ _ _) ?_ (fun _ _ => trivial)
        rintro _ m' rfl
        rw [statusPageEnd_toNat hL, statusOffset_toNat hL]
        have hroom := hL.logRoom
        have hempty : allErased (record L (erase m₁ (status L)
            (status L + pageBytes L))) = true :=
          erased_iff_slice.mp (erased_erase m₁ (Nat.le_refl _) (by omega))
        constructor
        · intro st' hst'
          rw [BootloaderStatus.fromBytes, if_pos hempty] at hst'
          cases hst'
        · have hpages := status_frame hL (sameOutside_erase m₁ (status L) (pageBytes L))
          exact firmware_congr (fun i => congrFun hpages (.front i))
      · simp only [if_neg hclear]
        refine Runs.pure ⟨?_, rfl⟩
        intro st' hst'
        obtain rfl := DecodeResult.valid.inj (hr.trans hst')
        refine ⟨hm st hst', ?_⟩
        intro htrial
        rw [htrial] at hclear
        exact hclear rfl

/-- A power cycle does not skip a revert that is half-way: if it finds one, it has the
    watchdog flag, or is reset before it does anything. -/
def ResumesRevert (L : BootloaderLayout) (m : Mem) (c : PowerCycle) : Prop :=
  ¬ (c.watchdog = false ∧ c.bootBudget ≠ some 0 ∧ halfReverted L m = true)

instance (L : BootloaderLayout) (m : Mem) (c : PowerCycle) : Decidable (ResumesRevert L m c) :=
  inferInstanceAs (Decidable (¬ (_ ∧ _ ∧ _)))

/-- **STEP LEMMA**: a power cycle jumps to a good region and leaves a flash that the next
    one can start from. -/
theorem powerCycle_settled (hL : HasStatusPage L) (hA : Serves L area) (c : PowerCycle)
    (hm : Settled L Good m) (hresumes : ResumesRevert L m c)
    (hgood : ∀ region, Delivered area.firmwareSize c.received region → Good region) :
    Settled L Good (powerCycle L area m c).2 ∧
      ∀ r, (powerCycle L area m c).1 = some r → Good r := by
  obtain ⟨base, hphase, hbase⟩ := hm
  by_cases hskip : c.watchdog = false ∧ halfReverted L m = true
  · -- it would skip the revert, but gets nothing done
    have hdead : c.bootBudget = some 0 := by
      by_contra hne
      exact hresumes ⟨hskip.1, hne, hskip.2⟩
    obtain ⟨st, hr, hst⟩ := trial_of_half hskip.2
    have hmain : main c.watchdog (⟨m, c.bootBudget⟩ : Bootloader L)
        = (.error .reset, ⟨m, c.bootBudget⟩) := by
      rw [hskip.1, main_skips hL ⟨m, c.bootBudget⟩ hr hst, powered, if_pos hdead]
    rw [powerCycle, hmain]
    refine ⟨⟨base, hphase, hbase⟩, ?_⟩
    intro r hr
    cases hr
  · have hresumed : c.watchdog = false → halfReverted L m = false := by
      intro hwd
      rw [not_and, Bool.not_eq_true] at hskip
      exact hskip hwd
    obtain ⟨hok, herr⟩ := main_spec hL c.watchdog hphase hresumed ⟨m, c.bootBudget⟩ rfl
    obtain ⟨hfresh, -⟩ := main_notFresh hL c.watchdog m ⟨m, c.bootBudget⟩ rfl
    rw [powerCycle]
    rcases hrun : main c.watchdog (⟨m, c.bootBudget⟩ : Bootloader L) with ⟨res, d⟩
    cases res with
    | error e =>
        refine ⟨⟨base, herr e d hrun, hbase⟩, ?_⟩
        intro r hr
        cases hr
    | ok u =>
        obtain ⟨hphase', hwhole⟩ := hok u d hrun
        have hgoodHere : Good (firmware L d.flash) := hbase d.flash hwhole
        constructor
        · obtain ⟨-, hcut⟩ := confirmBoot_spec hL hphase' hwhole ⟨d.flash, c.firmwareBudget⟩ rfl
          obtain ⟨hidle, -⟩ :=
            confirmBoot_idle hL (hfresh u d hrun) ⟨d.flash, c.firmwareBudget⟩ rfl
          rcases hconf : confirmBoot (⟨d.flash, c.firmwareBudget⟩ : Bootloader L)
            with ⟨res', d'⟩
          cases res' with
          | error e =>
              simp only [hconf]
              exact ⟨base, hcut e d' hconf, hbase⟩
          | ok u' =>
              obtain ⟨hrecord, hsame⟩ := hidle u' d' hconf
              have hstart : Started L Good d'.flash := ⟨hrecord, by rw [hsame]; exact hgoodHere⟩
              simp only [hconf]
              refine serve_settled hL hA hstart c.received [] _ d' (.inl ?_) hgood
              exact live_inactive ⟨rfl, rfl⟩ rfl rfl
        · intro r hr
          rw [← Option.some.inj hr]
          exact hgoodHere

/-- No power cycle of a life skips a revert that is half-way. -/
def Resumes (L : BootloaderLayout) (area : DfuArea) : Mem → List PowerCycle → Prop
  | _, [] => True
  | m, c :: cs => ResumesRevert L m c ∧ Resumes L area (powerCycle L area m c).2 cs

instance decidableResumes (L : BootloaderLayout) (area : DfuArea) :
    (m : Mem) → (cycles : List PowerCycle) → Decidable (Resumes L area m cycles)
  | _, [] => isTrue trivial
  | m, c :: cs =>
      have := decidableResumes L area (powerCycle L area m c).2 cs
      inferInstanceAs (Decidable (ResumesRevert L m c ∧
        Resumes L area (powerCycle L area m c).2 cs))

theorem life_good (hL : HasStatusPage L) (hA : Serves L area) :
    ∀ (cycles : List PowerCycle) (m : Mem), Settled L Good m → Resumes L area m cycles →
      (∀ c ∈ cycles, ∀ region, Delivered area.firmwareSize c.received region → Good region) →
      ∀ r ∈ life L area m cycles, Good r := by
  intro cycles
  induction cycles with
  | nil =>
      intro m _ _ _ r hr
      exact absurd hr List.not_mem_nil
  | cons c cs ih =>
      intro m hm hresumes hgood r hr
      obtain ⟨hnext, hjump⟩ := powerCycle_settled hL hA c hm hresumes.1
        (hgood c List.mem_cons_self)
      rcases List.mem_append.mp hr with hr | hr
      · exact hjump r (Option.mem_toList.mp hr)
      · exact ih _ hnext hresumes.2 (fun c' hc' => hgood c' (List.mem_cons_of_mem c hc')) r hr

/-- **ONLY WHAT ARRIVED WHOLE IS BOOTED**: over every life of the board, whatever its
    firmware is sent and wherever its resets cut the work on the flash, every jump of a
    life that resumes its reverts is to the firmware the board started with, or to an
    image whose chunks all arrived, in order, with the CRC they were sent with. -/
theorem life_delivered (hL : HasStatusPage L) (hA : Serves L area) (m₀ : Mem)
    (hidle : Idle (BootloaderStatus.fromBytes (record L m₀))) (cycles : List PowerCycle)
    (hresumes : Resumes L area m₀ cycles) :
    ∀ r ∈ life L area m₀ cycles, r = firmware L m₀ ∨
      ∃ c ∈ cycles, Delivered area.firmwareSize c.received r :=
  life_good hL hA cycles m₀ (settled_of_idle hidle (Or.inl rfl)) hresumes
    (fun c hc _ hregion => Or.inr ⟨c, hc, hregion⟩)

/-- The DFU area of the two pages. -/
def twoPagesArea : DfuArea where
  pageSize := 48
  dfuOffset := 96
  firmwareSize := 96
  words := by decide
  room := by decide
  aligned := by decide
  whole := by decide

theorem twoPages_serves : Serves twoPages twoPagesArea := by
  constructor <;> decide

/-- A flash with another byte in each page, and an erased status page. -/
def freshBoard : Mem := fun a => if a < 240 then UInt8.ofNat (a / 48) else erasedByte

theorem freshBoard_idle :
    Idle (BootloaderStatus.fromBytes (record twoPages freshBoard)) := by
  have hempty : BootloaderStatus.fromBytes (record twoPages freshBoard) = .empty := by
    decide +kernel
  intro st hst
  rw [hempty] at hst
  cases hst

/-- An image of thirteen bytes, a reset in the middle of its swap, and a boot. -/
def deliveringLife : List PowerCycle :=
  [⟨false, none, none, [.data 0 (filled 1), .data 1 (filled 2), .data 2 (filled 3),
      .apply 13 (crc32 [1, 1, 1, 1, 1, 1, 2, 2, 2, 2, 2, 2, 3])]⟩,
    ⟨false, some 60, none, []⟩, ⟨false, none, none, []⟩]

theorem life_delivered_deliveringLife :
    (∀ r ∈ life twoPages twoPagesArea freshBoard deliveringLife,
      r = firmware twoPages freshBoard ∨
        ∃ c ∈ deliveringLife, Delivered twoPagesArea.firmwareSize c.received r) ∧
      (life twoPages twoPagesArea freshBoard deliveringLife).length = 2 :=
  ⟨life_delivered twoPages_hasStatusPage twoPages_serves freshBoard freshBoard_idle
    deliveringLife (by decide +kernel), by decide +kernel⟩

end InstallProofs
