import Stm32Foc.Dfu
import Stm32Foc.Loader

/-! # The life of a board that is updated

    What the firmware does with a complete image (`FirmwareUpdateApply`): flush,
    check the image's CRC off the flash (`dfuCrc32`), mark it for the bootloader and
    reboot.  A POWER CYCLE is one boot and what the firmware it jumps to is sent
    before the next reset; the life of a board is a list of them, each cut short by
    its reset wherever the flash work it gets done runs out. -/

namespace Install

open ActionLogic ByteMemory WireBytes Boot Loader Update Update.FirmwareUpdateState
  Faults Dfu

/-! ## `Memory::dfu_crc32` -/

/-- The flash driver, with its reads. -/
class ReadableFlash (T : Type) (Error : outParam Type) extends BlockingFlash T Error where
  blockingRead (offset len : Nat) : Act T Error (List UInt8)

/-- `CRC32.digest()`: the register of a checksum under way. -/
def digest : UInt32 := 0xFFFFFFFF

/-- `Digest::update` -/
def digestUpdate (register : UInt32) (bytes : List UInt8) : UInt32 :=
  bytes.foldl crcByte register

/-- `Digest::finalize` -/
def digestFinalize (register : UInt32) : UInt32 := register ^^^ 0xFFFFFFFF

/-- Bytes of the buffer the checksum is read through. -/
def crcBufferBytes : Nat := 64

section Crc

variable {T E : Type} [ReadableFlash T E]

/-- The loop of `dfu_crc32`. -/
def digestFrom (area : DfuArea) (length offset : Nat) (register : UInt32) :
    Act T MemoryFault UInt32 :=
  if offset < length then do
    let n := min (length - offset) crcBufferBytes
    let buf ← (ReadableFlash.blockingRead (area.dfuOffset + offset) n :
      Act T E (List UInt8)).mapErr (fun _ => .flashInternalFault)
    digestFrom area length (offset + n) (digestUpdate register buf)
  else pure register
termination_by length - offset
decreasing_by
  simp only [crcBufferBytes]
  omega

/-- `Memory::dfu_crc32` -/
def dfuCrc32 (area : DfuArea) (length : UInt32) : Act T MemoryFault UInt32 := do
  let register ← digestFrom area length.toNat 0 digest
  pure (digestFinalize register)

end Crc

/-! ## The handler of `FirmwareUpdateApply` -/

/-- The flash of the firmware is the bootloader's. -/
instance {L : BootloaderLayout} : ReadableFlash (Bootloader L) Reset where
  blockingErase start stop := Loader.blockingErase (UInt32.ofNat start) (UInt32.ofNat stop)
  blockingWrite offset bytes := Loader.blockingWrite (UInt32.ofNat offset) bytes
  blockingRead offset len := Loader.blockingRead (UInt32.ofNat offset) len

/-- The check of the written image, and its mark for the bootloader. -/
def verifyWritten {L : BootloaderLayout} (area : DfuArea) (verify : DfuVerification) :
    Act (Bootloader L) FaultCause Unit := do
  let crc ← (dfuCrc32 area verify.length).mapErr .ofMemoryFault
  if crc ≠ verify.crc32 then Act.lift (.error (.ofFirmwareUpdateFault .crcMismatch))
  else
    (dfuMarkWritten verify.length verify.crc32).mapErr
      (fun _ => .ofMemoryFault .flashInternalFault)

/-- The handler of `FirmwareUpdateApply`: it returns when the device is to be
    rebooted into the bootloader.  An operation the reset cuts fails like any other
    here; what the handler does after it never reaches the flash. -/
def applied {L : BootloaderLayout} (area : DfuArea) (length crc32 : UInt32)
    (update : FirmwareUpdateState) (memory : Bootloader L) :
    Except FaultCause Unit × FirmwareUpdateState × Bootloader L :=
  match firmwareUpdateApply area length crc32 update memory with
  | (.ok verify, update, memory) =>
      let (result, memory) := verifyWritten area verify memory
      (result, update, memory)
  | (.error cause, update, memory) => (.error cause, update, memory)

/-! ## Power cycles -/

/-- What reaches the firmware's flash while it runs. -/
inductive Received where
  | data (counter : UInt16) (chunk : Chunk)
  | apply (length crc32 : UInt32)
  /-- The firmware stores records of its own, in pages apart from the update's. -/
  | stored (found : Mem)

/-- The firmware region, the DFU region and the status page. -/
def updateRegions (L : BootloaderLayout) (a : Nat) : Bool :=
  let page := L.pageSizeBytes.toNat
  let pages := L.imagePages.toNat
  decide (L.firmwareOffsetBytes.toNat ≤ a ∧
    a < L.firmwareOffsetBytes.toNat + pages * page) ||
  decide (L.dfuOffsetBytes.toNat ≤ a ∧
    a < L.dfuOffsetBytes.toNat + (pages + 2) * page)

/-- Records stored elsewhere, unless the reset has come. -/
def storeElsewhere {L : BootloaderLayout} (found : Mem) (memory : Bootloader L) :
    Bootloader L :=
  if memory.budget = some 0 then memory
  else
    { memory with flash := fun a => if updateRegions L a then memory.flash a else found a }

/-- The firmware takes what it is sent, until it reboots: the flash it leaves. -/
def serve {L : BootloaderLayout} (area : DfuArea) :
    List Received → FirmwareUpdateState → Bootloader L → Mem
  | [], _, memory => memory.flash
  | .data counter chunk :: rest, update, memory =>
      let (_, update, memory) := firmwareUpdateData area counter chunk update memory
      serve area rest update memory
  | .apply length crc32 :: rest, update, memory =>
      match applied area length crc32 update memory with
      | (.ok (), _, memory) => memory.flash
      | (.error _, update, memory) => serve area rest update memory
  | .stored found :: rest, update, memory =>
      serve area rest update (storeElsewhere found memory)

/-- One power cycle: whether the reset before it left the watchdog flag set, how much
    flash work the bootloader and the firmware get done, and what the firmware is
    sent. -/
structure PowerCycle where
  watchdog : Bool
  bootBudget : Option Nat
  firmwareBudget : Option Nat
  received : List Received

/-- What a power cycle jumps to, if it gets there, and the flash it leaves. -/
def powerCycle (L : BootloaderLayout) (area : DfuArea) (flash : Mem) (c : PowerCycle) :
    Option (List UInt8) × Mem :=
  match main c.watchdog (⟨flash, c.bootBudget⟩ : Bootloader L) with
  | (.error .reset, d) => (none, d.flash)
  | (.ok (), d) =>
      (some (firmware L d.flash),
        -- `confirm_boot` is part of the firmware's `init`, before it receives anything
        match confirmBoot (⟨d.flash, c.firmwareBudget⟩ : Bootloader L) with
        | (.error .reset, d) => d.flash
        | (.ok (), d) => serve area c.received (.new area.firmwareSize) d)

/-- The firmware regions a life jumps to, in order. -/
def life (L : BootloaderLayout) (area : DfuArea) : Mem → List PowerCycle → List (List UInt8)
  | _, [] => []
  | flash, c :: cs =>
      (powerCycle L area flash c).1.toList ++ life L area (powerCycle L area flash c).2 cs

end Install
