import Stm32Foc.ActionLogic
import Stm32Foc.ByteMemory

/-! # The firmware update receiver

    The state the firmware keeps of an image that arrives in six-byte chunks:
    chunks are staged, four make a write to the DFU area, and the rest is
    flushed when the image is applied. -/

namespace Update

open ActionLogic ByteMemory

/-- `UPDATE_CHUNK_BYTES` -/
def updateChunkBytes : Nat := 6

/-- `UPDATE_STAGE_BYTES` -/
def updateStageBytes : Nat := 24

abbrev Chunk : Type := Vector UInt8 updateChunkBytes

inductive FirmwareUpdateFault where
  | imageTooLarge
  | lengthMismatch
  | crcMismatch
  deriving DecidableEq, Repr

/-- Firmware bytes to be written: the first `len` of `data`. -/
structure DfuWriteData where
  offset : UInt32
  len : Nat
  data : Vector UInt8 updateStageBytes
  deriving DecidableEq

inductive DataOutcome where
  | accepted (write : Option DfuWriteData)
  | outOfSequence (expected : UInt16)
  deriving DecidableEq

/-- What the written image is to be verified against. -/
structure DfuVerification where
  length : UInt32
  crc32 : UInt32
  deriving DecidableEq, Repr

structure FirmwareUpdateState where
  capacity : UInt32
  active : Bool
  nextCounter : UInt16
  staged : Vector UInt8 updateStageBytes
  stagedLen : Nat
  writeOffset : UInt32
  deriving DecidableEq

namespace FirmwareUpdateState

def new (capacity : UInt32) : FirmwareUpdateState where
  capacity := capacity
  active := false
  nextCounter := 0
  staged := Vector.replicate updateStageBytes 0
  stagedLen := 0
  writeOffset := 0

def reset (self : FirmwareUpdateState) : FirmwareUpdateState :=
  { self with active := false, nextCounter := 0, stagedLen := 0, writeOffset := 0 }

/-- The first chunk counter not yet accepted (0 when no transfer is active). -/
def expected (self : FirmwareUpdateState) : UInt16 := self.nextCounter

/-- The staging buffer with a chunk copied to `start`. -/
def copyFromSlice (staged : Vector UInt8 updateStageBytes) (start : Nat)
    (chunk : Chunk) : Vector UInt8 updateStageBytes :=
  Vector.ofFn fun i =>
    if start ≤ i.val then chunk.toList.getD (i.val - start) staged[i.val]
    else staged[i.val]

/-- The staging buffer with everything from `start` on padded. -/
def padTail (staged : Vector UInt8 updateStageBytes) (start : Nat) :
    Vector UInt8 updateStageBytes :=
  Vector.ofFn fun i => if start ≤ i.val then erasedByte else staged[i.val]

/-- Whether a chunk does not continue the transfer in progress. -/
def outOfOrder (self : FirmwareUpdateState) (counter : UInt16) : Bool :=
  counter != 0 && (!self.active || counter != self.nextCounter)

/-- The transfer a chunk belongs to: counter 0 starts a new one. -/
def begun (self : FirmwareUpdateState) (counter : UInt16) :
    FirmwareUpdateState :=
  if counter = 0 then { self.reset with active := true } else self

/-- The state with a chunk staged. -/
def stage (self : FirmwareUpdateState) (counter : UInt16) (chunk : Chunk) :
    FirmwareUpdateState :=
  { self with
    nextCounter := counter + 1
    staged := copyFromSlice self.staged self.stagedLen chunk
    stagedLen := self.stagedLen + updateChunkBytes }

/-- A full staging buffer is handed out to be written. -/
def emit (self : FirmwareUpdateState) : DataOutcome × FirmwareUpdateState :=
  if self.stagedLen = updateStageBytes then
    (.accepted (some ⟨self.writeOffset, updateStageBytes, self.staged⟩),
      { self with
        writeOffset := self.writeOffset + UInt32.ofNat updateStageBytes
        stagedLen := 0 })
  else (.accepted none, self)

/-- `FirmwareUpdateState::on_data` -/
def onData (counter : UInt16) (chunk : Chunk) :
    Act FirmwareUpdateState FirmwareUpdateFault DataOutcome := fun self =>
  if self.outOfOrder counter then (.ok (.outOfSequence self.expected), self)
  else
    let self := self.begun counter
    if self.writeOffset + UInt32.ofNat (self.stagedLen + updateChunkBytes)
        > self.capacity then
      (.error .imageTooLarge, self.reset)
    else
      let (outcome, self) := (self.stage counter chunk).emit
      (.ok outcome, self)

/-- `u32::next_multiple_of` -/
def nextMultipleOf (x n : UInt32) : UInt32 :=
  if x % n = 0 then x else x + (n - x % n)

/-- The bytes received so far. -/
def received (self : FirmwareUpdateState) : UInt32 :=
  self.writeOffset + UInt32.ofNat self.stagedLen

/-- The received bytes are the whole image and its last chunk's padding. -/
def complete (self : FirmwareUpdateState) (length : UInt32) : Bool :=
  self.active && length > 0 && length ≤ self.received
    && self.received - length < UInt32.ofNat updateChunkBytes

/-- The write of what is still staged, its tail padded. -/
def flush (self : FirmwareUpdateState) (length : UInt32) :
    Option DfuWriteData :=
  if 0 < self.stagedLen then
    some
      { offset := self.writeOffset
        len := (nextMultipleOf (length - self.writeOffset) 8).toNat
        data := padTail self.staged self.stagedLen }
  else none

/-- `FirmwareUpdateState::on_apply` -/
def onApply (length crc32 : UInt32) :
    Act FirmwareUpdateState FirmwareUpdateFault
      (Option DfuWriteData × DfuVerification) := fun self =>
  if self.complete length then
    (.ok (self.flush length, ⟨length, crc32⟩), self.reset)
  else (.error .lengthMismatch, self.reset)

end FirmwareUpdateState

end Update
