import Stm32Foc.Faults
import Stm32Foc.WireBytes

/-! # The configuration store

    Records of serialized values in the slots of one flash page:

    record = `[version: u16 le][payload len: u16 le][postcard payload][crc32 le]`

    A store appends to the first erased slot and erases the page when there is
    none; a load decodes the last intact slot.  Both are generic in the flash
    (`NorFlash`) and in the value (`Postcard`). -/

namespace Config

open ActionLogic ByteMemory WireBytes Faults

/-- `trait NorFlash`: a flash `F` whose operations may fail with an `E`. -/
class NorFlash (F : Type) (E : outParam Type) where
  writeSize : Nat
  eraseSize : Nat
  read (offset : UInt32) (len : Nat) : Act F E (List UInt8)
  erase (start stop : UInt32) : Act F E Unit
  write (offset : UInt32) (bytes : List UInt8) : Act F E Unit

/-- The serializer of the values: `postcard::to_slice` into a buffer that is
    large enough, and `postcard::take_from_bytes`. -/
class Postcard (T : Type) where
  toBytes : T → List UInt8
  takeFromBytes : List UInt8 → Option (T × List UInt8)

/-- Size in bytes of one slot. -/
def maxRecordBytes : Nat := 128
def headerBytes : Nat := 4
def crcBytes : Nat := 4

/-- The version, the length and the payload: what the checksum covers. -/
def recordBody (version : UInt16) (payload : List UInt8) : List UInt8 :=
  u16ToLeBytes version ++ u16ToLeBytes (UInt16.ofNat payload.length) ++ payload

/-- A complete record. -/
def recordBytes (version : UInt16) (payload : List UInt8) : List UInt8 :=
  recordBody version payload ++ u32ToLeBytes (crc32 (recordBody version payload))

/-- `encode_record`: the slot buffer with the record at its start, and the
    record's length. -/
def encodeRecord {T : Type} [Postcard T] (value : T) (version : UInt16) :
    Except MemoryFault (List UInt8 × Nat) :=
  let payload := Postcard.toBytes value
  if payload.length > maxRecordBytes - crcBytes - headerBytes then
    .error .tooLarge
  else
    let record := recordBytes version payload
    .ok (record ++ List.replicate (maxRecordBytes - record.length) 0,
      record.length)

inductive RecordState where
  | erased
  | corrupt
  | intact
  deriving DecidableEq, Repr

/-- The payload length a record's header gives. -/
def payloadLen (record : List UInt8) : Nat :=
  (u16FromLeBytes ((record.drop 2).take 2)).toNat

/-- `record_state` -/
def recordState (slot : List UInt8) : RecordState :=
  if allErased slot then .erased
  else
    let crcAt := headerBytes + payloadLen slot
    if crcAt + crcBytes ≤ slot.length then
      let storedCrc := u32FromLeBytes ((slot.drop crcAt).take crcBytes)
      if crc32 (slot.take crcAt) = storedCrc then .intact else .corrupt
    else .corrupt

/-- `decode_record` -/
def decodeRecord {T : Type} [Postcard T] (record : List UInt8)
    (version : UInt16) : Except MemoryFault (Option T) :=
  let storedVersion := u16FromLeBytes (record.take 2)
  if storedVersion ≠ version then .ok none
  else
    match Postcard.takeFromBytes
        ((record.drop headerBytes).take (payloadLen record)) with
    | some (value, []) => .ok (some value)
    | some (_, _ :: _) => .error .corruptedData
    | none => .error .corruptedData

structure PageScan where
  /-- Contents of the last slot holding an intact record. -/
  latest : Option (List UInt8)
  /-- First erased slot, `none` when every slot is used. -/
  freeSlot : Option UInt32
  deriving DecidableEq

section Store

variable {F E : Type} [NorFlash F E]

/-- `slot_count` -/
def slotCount (F : Type) {E : Type} [NorFlash F E] : Nat :=
  NorFlash.eraseSize F / maxRecordBytes

/-- `slot_offset` -/
def slotOffset (pageOffset slot : UInt32) : UInt32 :=
  pageOffset + slot * UInt32.ofNat maxRecordBytes

/-- The loop of `scan`: the `n` slots from `slot` on. -/
def scanFrom (pageOffset : UInt32) :
    Nat → Nat → PageScan → Act F MemoryFault PageScan
  | 0, _, found => pure found
  | n + 1, slot, found => do
      let buf ← (NorFlash.read (slotOffset pageOffset (UInt32.ofNat slot))
        maxRecordBytes : Act F E (List UInt8)).mapErr (fun _ => .flashInternalFault)
      match recordState buf with
      | .erased => pure { found with freeSlot := some (UInt32.ofNat slot) }
      | .intact => scanFrom pageOffset n (slot + 1) { found with latest := some buf }
      | .corrupt => scanFrom pageOffset n (slot + 1) found

/-- `scan`: slots are written in order, so it stops at the first erased slot. -/
def scan (pageOffset : UInt32) : Act F MemoryFault PageScan :=
  scanFrom pageOffset (slotCount F) 0 ⟨none, none⟩

variable {T : Type} [Postcard T]

/-- What `load_record` makes of a scan. -/
def loaded (found : PageScan) (version : UInt16) : Except MemoryFault (Option T) :=
  match found.latest with
  | some record => decodeRecord record version
  | none => if found.freeSlot = some 0 then .ok none else .error .corruptedData

/-- `load_record` -/
def loadRecord (pageOffset : UInt32) (version : UInt16) :
    Act F MemoryFault (Option T) := do
  let found ← scan pageOffset
  Act.lift (loaded found version)

/-- `usize::next_multiple_of` -/
def nextMultipleOf (x n : Nat) : Nat :=
  if x % n = 0 then x else x + (n - x % n)

/-- The current record already is what would be written. -/
def matchesCurrent (found : PageScan) (buf : List UInt8) (writeLen : Nat) : Bool :=
  match found.latest with
  | some current => current.take writeLen == buf.take writeLen
  | none => false

/-- The slot to write to, in a page that has been erased if it was full. -/
def freeSlot (pageOffset : UInt32) (found : PageScan) : Act F MemoryFault UInt32 :=
  match found.freeSlot with
  | some slot => pure slot
  | none => do
      (NorFlash.erase pageOffset (pageOffset + UInt32.ofNat (NorFlash.eraseSize F)) :
        Act F E Unit).mapErr (fun _ => .flashInternalFault)
      pure 0

/-- `store_record` -/
def storeRecord (pageOffset : UInt32) (version : UInt16) (value : T) :
    Act F MemoryFault Unit := do
  let (buf, recordLen) ← Act.lift (encodeRecord value version)
  let writeLen := nextMultipleOf recordLen (NorFlash.writeSize F)
  let found ← scan pageOffset
  if matchesCurrent found buf writeLen then pure ()
  else
    let slot ← freeSlot pageOffset found
    (NorFlash.write (slotOffset pageOffset slot) (buf.take writeLen) :
      Act F E Unit).mapErr (fun _ => .flashInternalFault)

end Store

end Config
