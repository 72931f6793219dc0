import Stm32Foc.Config

/-! # The DFU area

    The firmware writes an update into the DFU area of its flash, each page of
    which is erased as a write first reaches it (`dfuWrite`).  The flash is any
    device with the two operations (`BlockingFlash`), either of which may fail.
    Offsets are counted from the start of the flash; that the area ends below
    `2^32` is asserted at compile time, so they are plain numbers here. -/

namespace Dfu

open ActionLogic Update Update.FirmwareUpdateState Faults

/-- The flash driver. -/
class BlockingFlash (T : Type) (Error : outParam Type) where
  blockingErase (start stop : Nat) : Act T Error Unit
  blockingWrite (offset : Nat) (bytes : List UInt8) : Act T Error Unit

/-- `PAGE_SIZE`, `DFU_OFFSET` and `FIRMWARE_SIZE`, with what holds of them. -/
structure DfuArea where
  pageSize : Nat
  dfuOffset : Nat
  firmwareSize : UInt32
  /-- A page is a whole number of flash words ... -/
  words : 8 ∣ pageSize
  /-- ... and has room for a staged write. -/
  room : updateStageBytes ≤ pageSize
  aligned : pageSize ∣ dfuOffset
  whole : pageSize ∣ firmwareSize.toNat

/-- Where the area of the image ends. -/
def DfuArea.stop (area : DfuArea) : Nat := area.dfuOffset + area.firmwareSize.toNat

theorem DfuArea.pageSize_pos (area : DfuArea) : 0 < area.pageSize :=
  Nat.lt_of_lt_of_le (by decide) area.room

variable {T E : Type} [BlockingFlash T E]

/-- The loop of `dfu_write`: erase the pages from `page` to `stop`. -/
def erasePages (area : DfuArea) (stop page : Nat) : Act T MemoryFault Unit :=
  if page < stop then do
    (BlockingFlash.blockingErase page (page + area.pageSize) :
      Act T E Unit).mapErr (fun _ => .flashInternalFault)
    erasePages area stop (page + area.pageSize)
  else pure ()
termination_by stop - page
decreasing_by
  have := area.pageSize_pos
  omega

/-- `Memory::dfu_write` -/
def dfuWrite (area : DfuArea) (offset : Nat) (data : List UInt8) :
    Act T MemoryFault Unit :=
  let start := area.dfuOffset + offset
  let stop := start + data.length
  if stop > area.stop then Act.lift (.error .tooLarge)
  else do
    let page :=
      if start % area.pageSize = 0 then start
      else Config.nextMultipleOf start area.pageSize
    erasePages area stop page
    (BlockingFlash.blockingWrite start data :
      Act T E Unit).mapErr (fun _ => .flashInternalFault)

/-! ## The handlers of `can_process` -/

/-- What a handler answers: the counter it acknowledges, and the fault it asserts. -/
structure Reply where
  ack : Option UInt16
  fault : Option FaultCause
  deriving DecidableEq

/-- The write of a staged part of the image. -/
def writeStaged (area : DfuArea) (write : DfuWriteData) : Act T MemoryFault Unit :=
  dfuWrite area write.offset.toNat (write.data.toList.take write.len)

/-- The handler of `FirmwareUpdateData`. -/
def firmwareUpdateData (area : DfuArea) (counter : UInt16) (chunk : Chunk)
    (update : FirmwareUpdateState) (memory : T) : Reply × FirmwareUpdateState × T :=
  match onData counter chunk update with
  | (.ok (.accepted (some write)), update) =>
      match writeStaged area write memory with
      | (.ok (), memory) => (⟨some update.expected, none⟩, update, memory)
      | (.error e, memory) =>
          (⟨none, some (.ofMemoryFault e)⟩, update.reset, memory)
  | (.ok (.accepted none), update) => (⟨none, none⟩, update, memory)
  | (.ok (.outOfSequence expected), update) => (⟨some expected, none⟩, update, memory)
  | (.error e, update) => (⟨none, some (.ofFirmwareUpdateFault e)⟩, update, memory)

/-- The handler of `FirmwareUpdateApply`, up to the check of the image: the part of
    it that writes to the area. -/
def firmwareUpdateApply (area : DfuArea) (length crc32 : UInt32)
    (update : FirmwareUpdateState) (memory : T) :
    Except FaultCause DfuVerification × FirmwareUpdateState × T :=
  match onApply length crc32 update with
  | (.ok (some write, verify), update) =>
      match writeStaged area write memory with
      | (.ok (), memory) => (.ok verify, update, memory)
      | (.error e, memory) => (.error (.ofMemoryFault e), update, memory)
  | (.ok (none, verify), update) => (.ok verify, update, memory)
  | (.error e, update) => (.error (.ofFirmwareUpdateFault e), update, memory)

end Dfu
