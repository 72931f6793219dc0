import Stm32Foc.ActionLogic
import Stm32Foc.ByteMemory
import Stm32Foc.WireBytes

/-! # The boot status record and the image swap

    What the application and the bootloader share about a firmware update: the
    16-byte status record in the status page, and the resumable exchange of the
    firmware region with the image staged in the DFU region (`swapImages`).
    Offsets are `u32` as in the source; the swap is generic in the device that
    carries out its page copies (`SwapOps`). -/

namespace Boot

open ActionLogic ByteMemory WireBytes

/-! ## The status record -/

inductive BootloaderState where
  | invalid
  | dfuFreshlyWritten
  | dfuContentsRejected
  | swappedImageTrialBooted
  | swappedImageBootTimeout
  deriving DecidableEq, Repr

/-- The state word of a state (`state as u32`). -/
def BootloaderState.toU32 : BootloaderState → UInt32
  | .invalid => 0
  | .dfuFreshlyWritten => 1
  | .dfuContentsRejected => 2
  | .swappedImageTrialBooted => 3
  | .swappedImageBootTimeout => 4

/-- `impl From<u32> for BootloaderState`: unknown words read as `invalid`. -/
def BootloaderState.fromU32 (raw : UInt32) : BootloaderState :=
  if raw = 1 then .dfuFreshlyWritten
  else if raw = 2 then .dfuContentsRejected
  else if raw = 3 then .swappedImageTrialBooted
  else if raw = 4 then .swappedImageBootTimeout
  else .invalid

structure BootloaderStatus where
  state : BootloaderState
  imageLength : UInt32
  imageCrc32 : UInt32
  deriving DecidableEq, Repr

inductive DecodeResult where
  | empty
  | corrupt
  | valid (status : BootloaderStatus)
  deriving DecidableEq, Repr

/-- Size of the status record, and the offset of the swap log behind it. -/
def statusBytes : Nat := 16

/-- `BootloaderStatus::from_bytes`, on 16 bytes. -/
def BootloaderStatus.fromBytes (bytes : List UInt8) : DecodeResult :=
  -- a board flashed for the first time has nothing in its status page
  if allErased bytes then .empty
  else
    let stateU32 := u32FromLeBytes ((bytes.drop 0).take 4)
    let imageLength := u32FromLeBytes ((bytes.drop 4).take 4)
    let imageCrc32 := u32FromLeBytes ((bytes.drop 8).take 4)
    let statusCrc32 := u32FromLeBytes ((bytes.drop 12).take 4)
    if crc32 (bytes.take 12) ≠ statusCrc32 then .corrupt
    else .valid ⟨.fromU32 stateU32, imageLength, imageCrc32⟩

/-- The twelve bytes of a status that its checksum covers. -/
def BootloaderStatus.body (status : BootloaderStatus) : List UInt8 :=
  u32ToLeBytes status.state.toU32 ++ u32ToLeBytes status.imageLength
    ++ u32ToLeBytes status.imageCrc32

/-- `BootloaderStatus::to_bytes` -/
def BootloaderStatus.toBytes (status : BootloaderStatus) : List UInt8 :=
  status.body ++ u32ToLeBytes (crc32 status.body)

@[simp] theorem BootloaderState.fromU32_toU32 (s : BootloaderState) :
    BootloaderState.fromU32 s.toU32 = s := by
  cases s <;> rfl

@[simp] theorem BootloaderStatus.length_body (status : BootloaderStatus) :
    status.body.length = 12 := rfl

@[simp] theorem BootloaderStatus.length_toBytes (status : BootloaderStatus) :
    status.toBytes.length = statusBytes := rfl

/-- The lowest byte of a state word tells it from an erased page. -/
private theorem lowByte_ne_erased (s : BootloaderState) :
    UInt8.ofNat (s.toU32.toNat % 256) ≠ erasedByte := by
  cases s <;> decide

/-- **ROUND TRIP**: a written status reads back. -/
theorem BootloaderStatus.fromBytes_toBytes (status : BootloaderStatus) :
    fromBytes status.toBytes = .valid status := by
  have hfull : ¬ allErased status.toBytes = true := by
    intro h
    exact lowByte_ne_erased status.state
      (allErased_iff.mp h _ (List.mem_cons_self ..))
  have hcrc : u32FromLeBytes ((status.toBytes.drop 12).take 4)
      = crc32 (status.toBytes.take 12) := by
    show u32FromLeBytes (u32ToLeBytes (crc32 status.body)) = crc32 status.body
    exact u32FromLeBytes_toLeBytes _
  rw [fromBytes, if_neg hfull]
  simp only [hcrc, ne_eq, not_true_eq_false, if_false]
  show DecodeResult.valid
    ⟨.fromU32 (u32FromLeBytes (u32ToLeBytes status.state.toU32)),
      u32FromLeBytes (u32ToLeBytes status.imageLength),
      u32FromLeBytes (u32ToLeBytes status.imageCrc32)⟩ = .valid status
  rw [u32FromLeBytes_toLeBytes, u32FromLeBytes_toLeBytes,
    u32FromLeBytes_toLeBytes, BootloaderState.fromU32_toU32]

/-- The status record the bootloader writes: no image length, no image CRC. -/
def bareStatus (state : BootloaderState) : BootloaderStatus :=
  BootloaderStatus.mk state 0 0

/-- A decoded record stands for the state `s`, if it stands for any. -/
def DecodeResult.readsAs (r : DecodeResult) (s : BootloaderState) : Prop :=
  ∀ status, r = .valid status → status.state = s

instance (r : DecodeResult) (s : BootloaderState) : Decidable (r.readsAs s) :=
  match r with
  | .empty => isTrue (fun _ h => nomatch h)
  | .corrupt => isTrue (fun _ h => nomatch h)
  | .valid st =>
      if h : st.state = s then
        isTrue (fun _ he => by rw [← DecodeResult.valid.inj he]; exact h)
      else isFalse (fun hr => h (hr st rfl))

/-- The first `k` bytes of a record on an erased page. -/
def tornBytes (bytes : List UInt8) (k : Nat) : List UInt8 :=
  bytes.take k ++ List.replicate (bytes.length - k) erasedByte

/-- **TORN STATUS WRITES**: a status record the bootloader writes, cut after any
    number of bytes, reads as no state but the one being written. -/
theorem tornStatus_readsAs (s : BootloaderState) :
    ∀ k : Fin 17,
      (BootloaderStatus.fromBytes (tornBytes (bareStatus s).toBytes k)).readsAs
        s := by
  cases s <;> decide +kernel

/-! ## The swap -/

inductive SwapMode where
  | normal
  | revert
  deriving DecidableEq, Repr

/-- `trait SwapOps`: the page copies and the log writes of the swap, on a device
    `T` that may stop with an `Error`. -/
class SwapOps (T : Type) (Error : outParam Type) where
  firmwareToDfu (firmwarePageOffset scratchPageOffset : UInt32) :
    Act T Error Unit
  dfuToFirmware (dfuPageOffset firmwarePageOffset : UInt32) : Act T Error Unit
  logStep (step : UInt32) : Act T Error Unit

structure BootloaderLayout where
  imagePages : UInt32
  pageSizeBytes : UInt32
  firmwareOffsetBytes : UInt32
  dfuOffsetBytes : UInt32
  dfuSizeBytes : UInt32

/-- `BootloaderLayout::wrap_offset_to_dfu` -/
def BootloaderLayout.wrapOffsetToDfu (layout : BootloaderLayout)
    (offset : UInt32) : UInt32 :=
  if offset > layout.dfuOffsetBytes + layout.dfuSizeBytes
      - layout.pageSizeBytes then
    layout.dfuOffsetBytes
      + (offset - layout.dfuOffsetBytes) % layout.dfuSizeBytes
  else offset

/-- The page copy of one step. -/
def swapCopy {T ε : Type} [SwapOps T ε] (layout : BootloaderLayout)
    (mode : SwapMode) (step : UInt32) : Act T ε Unit :=
  let pageOffset := step / 2 * layout.pageSizeBytes
  if step % 2 = 0 then
    match mode with
    | .normal =>
        SwapOps.firmwareToDfu (layout.firmwareOffsetBytes + pageOffset)
          (layout.wrapOffsetToDfu (layout.dfuOffsetBytes + layout.dfuSizeBytes
            - layout.pageSizeBytes + pageOffset))
    | .revert =>
        SwapOps.firmwareToDfu (layout.firmwareOffsetBytes + pageOffset)
          (layout.wrapOffsetToDfu (layout.dfuOffsetBytes + layout.dfuSizeBytes
            - 2 * layout.pageSizeBytes + pageOffset))
  else
    match mode with
    | .normal =>
        SwapOps.dfuToFirmware (layout.dfuOffsetBytes + pageOffset)
          (layout.firmwareOffsetBytes + pageOffset)
    | .revert =>
        SwapOps.dfuToFirmware
          (layout.wrapOffsetToDfu (layout.dfuOffsetBytes + layout.dfuSizeBytes
            - layout.pageSizeBytes + pageOffset))
          (layout.firmwareOffsetBytes + pageOffset)

/-- The body of the swap's loop: copy a page, then log the step. -/
def swapStep {T ε : Type} [SwapOps T ε] (layout : BootloaderLayout)
    (mode : SwapMode) (step : UInt32) : Act T ε Unit := do
  swapCopy layout mode step
  SwapOps.logStep step

/-- Bytes of one entry of the swap log. -/
def logEntryBytes : Nat := 8

/-- The first entry of the swap log that is still erased. -/
def startStep (swapLog : List UInt8) : Option UInt32 :=
  ((chunksExact logEntryBytes swapLog).findIdx? allErased).map UInt32.ofNat

/-- `swap_images`: two steps for each page, resumed at the first step the log
    does not hold. -/
def swapImages {T ε : Type} [SwapOps T ε] (layout : BootloaderLayout)
    (mode : SwapMode) (swapLog : List UInt8) : Act T ε Unit :=
  match startStep swapLog with
  | some start =>
      forRange (fun step => swapStep layout mode (UInt32.ofNat step))
        start.toNat (2 * layout.imagePages).toNat
  | none => pure ()

end Boot
