import Stm32Foc.Boot

/-! # The bootloader

    The bootloader's main and the flash it works on: the firmware region, the
    DFU region behind it, and the STATUS PAGE behind that, which holds the
    status record and the swap log.  A reset may cut any flash operation short:
    a page erase happens or does not, a write leaves some first part of its
    bytes.  `boot` is one power cycle, `jumps` what a run of them starts. -/

namespace Loader

open ActionLogic ByteMemory Boot

/-- The device is reset: the only way an operation stops, as the flash
    operations themselves succeed. -/
inductive Reset where
  | reset

/-- The bootloader's flash, and how much more flash work is done on it before
    the reset comes: a page erase is one unit, a programmed byte another. -/
structure Bootloader (L : BootloaderLayout) where
  flash : Mem
  budget : Option Nat

variable {L : BootloaderLayout}

/-! ## Flash operations -/

/-- The device gets past a point without flash work. -/
def powered : Act (Bootloader L) Reset Unit := fun d =>
  if d.budget = some 0 then (.error .reset, d) else (.ok (), d)

/-- `Flash::blocking_read` -/
def blockingRead (offset : UInt32) (len : Nat) :
    Act (Bootloader L) Reset (List UInt8) :=
  Act.read (fun d => slice d.flash offset.toNat len)

/-- `Flash::blocking_erase`, of one page. -/
def blockingErase (start stop : UInt32) : Act (Bootloader L) Reset Unit :=
  fun d =>
    let erased := erase d.flash start.toNat stop.toNat
    match d.budget with
    | some 0 => (.error .reset, d)
    | some (n + 1) => (.ok (), ⟨erased, some n⟩)
    | none => (.ok (), ⟨erased, none⟩)

/-- `Flash::blocking_write` -/
def blockingWrite (offset : UInt32) (bytes : List UInt8) :
    Act (Bootloader L) Reset Unit := fun d =>
  match d.budget with
  | some n =>
      if n < bytes.length then
        (.error .reset, ⟨patch d.flash offset.toNat (bytes.take n), some 0⟩)
      else
        (.ok (), ⟨patch d.flash offset.toNat bytes, some (n - bytes.length)⟩)
  | none => (.ok (), ⟨patch d.flash offset.toNat bytes, none⟩)

/-! ## loader.rs -/

/-- `BOOTLOADER_STATUS_OFFSET` -/
def bootloaderStatusOffset (L : BootloaderLayout) : UInt32 :=
  L.dfuOffsetBytes + L.dfuSizeBytes

/-- `STEP_MARK` -/
def stepMark : UInt8 := 0x55

/-- `Bootloader::read_status` -/
def readStatus : Act (Bootloader L) Reset DecodeResult := do
  let buf ← blockingRead (bootloaderStatusOffset L) statusBytes
  pure (BootloaderStatus.fromBytes buf)

/-- Erase the status page, its swap log included, and write a record to it. -/
def replaceStatus (status : BootloaderStatus) :
    Act (Bootloader L) Reset Unit := do
  blockingErase (bootloaderStatusOffset L)
    (bootloaderStatusOffset L + L.pageSizeBytes)
  blockingWrite (bootloaderStatusOffset L) status.toBytes

/-- `Bootloader::write_status` -/
def writeStatus (state : BootloaderState) : Act (Bootloader L) Reset Unit :=
  replaceStatus (bareStatus state)

/-- `impl SwapOps for Bootloader` -/
instance : SwapOps (Bootloader L) Reset where
  firmwareToDfu firmwarePageOffset scratchPageOffset := do
    blockingErase scratchPageOffset (scratchPageOffset + L.pageSizeBytes)
    let firmwarePage ← blockingRead firmwarePageOffset L.pageSizeBytes.toNat
    blockingWrite scratchPageOffset firmwarePage
  dfuToFirmware dfuPageOffset firmwarePageOffset := do
    blockingErase firmwarePageOffset (firmwarePageOffset + L.pageSizeBytes)
    let dfuPage ← blockingRead dfuPageOffset L.pageSizeBytes.toNat
    blockingWrite firmwarePageOffset dfuPage
  logStep step :=
    blockingWrite (bootloaderStatusOffset L + (16 + step * 8))
      (List.replicate logEntryBytes stepMark)

/-- Bytes of the swap log: the rest of the status page. -/
def swapLogBytes (L : BootloaderLayout) : Nat :=
  L.pageSizeBytes.toNat - statusBytes

/-- `Bootloader::perform_swap` -/
def performSwap (mode : SwapMode) : Act (Bootloader L) Reset Unit := do
  let swapLog ← blockingRead (bootloaderStatusOffset L + 16) (swapLogBytes L)
  swapImages L mode swapLog

/-! ## main.rs -/

/-- The status match of `main`. -/
def settleStatus (watchdogReboot : Bool) :
    DecodeResult → Act (Bootloader L) Reset Unit
  | .corrupt => writeStatus .dfuContentsRejected
  | .valid status =>
      match status.state with
      | .dfuFreshlyWritten => do
          performSwap .normal
          writeStatus .swappedImageTrialBooted
      | .swappedImageTrialBooted =>
          if watchdogReboot then do
            performSwap .revert
            writeStatus .swappedImageBootTimeout
          else pure ()
      | _ => pure ()
  | .empty => pure ()

/-- `main`, up to the jump: it returns when the jump is made. -/
def main (watchdogReboot : Bool) : Act (Bootloader L) Reset Unit := do
  let bootloaderStatus ← readStatus
  settleStatus watchdogReboot bootloaderStatus
  powered

/-! ## The firmware's side -/

/-- `Memory::dfu_mark_written` -/
def dfuMarkWritten (imageLength imageCrc32 : UInt32) :
    Act (Bootloader L) Reset Unit :=
  replaceStatus ⟨.dfuFreshlyWritten, imageLength, imageCrc32⟩

/-- The states `confirm_boot` clears. -/
def clearedByConfirm : BootloaderState → Bool
  | .dfuContentsRejected => true
  | .swappedImageTrialBooted => true
  | .swappedImageBootTimeout => true
  | _ => false

/-- `Memory::confirm_boot` -/
def confirmBoot : Act (Bootloader L) Reset Unit := do
  let status ← readStatus
  match status with
  | .valid status =>
      if clearedByConfirm status.state then
        blockingErase (bootloaderStatusOffset L)
          (bootloaderStatusOffset L + L.pageSizeBytes)
      else pure ()
  | _ => pure ()

/-! ## Runs of boots -/

/-- The firmware region. -/
def firmware (L : BootloaderLayout) (flash : Mem) : List UInt8 :=
  slice flash L.firmwareOffsetBytes.toNat
    (L.imagePages.toNat * L.pageSizeBytes.toNat)

/-- The image in the DFU region. -/
def dfuImage (L : BootloaderLayout) (flash : Mem) : List UInt8 :=
  slice flash L.dfuOffsetBytes.toNat
    (L.imagePages.toNat * L.pageSizeBytes.toNat)

/-- One power cycle: whether the reset before it left the watchdog flag set, how
    much flash work the bootloader gets done, and how much the firmware gets
    done of `confirm_boot` if the bootloader jumps to it. -/
structure Boot where
  watchdog : Bool
  budget : Option Nat
  confirmBudget : Option Nat

/-- What a boot jumps to, if it gets there, and the flash it leaves. -/
def boot (L : BootloaderLayout) (flash : Mem) (b : Boot) :
    Option (List UInt8) × Mem :=
  match main b.watchdog (⟨flash, b.budget⟩ : Bootloader L) with
  | (.ok (), d) =>
      (some (firmware L d.flash),
        (confirmBoot (⟨d.flash, b.confirmBudget⟩ : Bootloader L)).2.flash)
  | (.error .reset, d) => (none, d.flash)

/-- The firmware regions a run of boots jumps to, in order. -/
def jumps (L : BootloaderLayout) : Mem → List Boot → List (List UInt8)
  | _, [] => []
  | flash, b :: bs =>
      (boot L flash b).1.toList ++ jumps L (boot L flash b).2 bs

/-- The flash the firmware leaves with a verified update. -/
def updateStaged (L : BootloaderLayout) (flash : Mem)
    (imageLength imageCrc32 : UInt32) : Mem :=
  (dfuMarkWritten imageLength imageCrc32
    (⟨flash, none⟩ : Bootloader L)).2.flash

end Loader
