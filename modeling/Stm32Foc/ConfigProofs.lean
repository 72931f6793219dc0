import Stm32Foc.FlashPage
import Stm32Foc.SlotLog

/-! # The configuration store keeps its records

    The slots of the page are an append-only log whose frontier every store
    keeps, completed or cut short (`store_cases`): it never programs a word that
    is not erased, and what it completed is what a load finds (`store_run`).
    What an interruption can lose is the previous value, and only by way of the
    erase of a full page (`interrupted_store_keeps_iff`). -/

namespace ConfigProofs

open ActionLogic ByteMemory WireBytes Faults Config FlashPage SlotLog

/-- The page is aligned and holds whole slots, a slot holds whole words, and the
    offsets do not overflow. -/
structure Geometry (W S : Nat) (page : UInt32) : Prop where
  word : 0 < W
  wordSlot : W ∣ maxRecordBytes
  oneSlot : maxRecordBytes ≤ S
  slots : maxRecordBytes ∣ S
  aligned : S ∣ page.toNat
  inside : page.toNat + S < 2 ^ 32

variable {W S : Nat} {page : UInt32}

/-- The contents of a slot. -/
def slot (f : FakeFlash W S page) (i : Nat) : List UInt8 :=
  slice f.bytes (page.toNat + i * maxRecordBytes) maxRecordBytes

/-- A slot that holds a complete record, as the scan sees it. -/
def intact (s : List UInt8) : Bool := recordState s == .intact

/-- The number of slots. -/
def count (S : Nat) : Nat := S / maxRecordBytes

/-- The slots of the page are used up to `k`. -/
abbrev UsedTo (f : FakeFlash W S page) (k : Nat) : Prop :=
  Frontier allErased (count S) (slot f) k

/-- What a scan of a page used up to `k` finds. -/
def scanned (f : FakeFlash W S page) (k : Nat) : PageScan where
  latest := latest intact (slot f) k
  freeSlot := if k < count S then some (UInt32.ofNat k) else none

/-! ## Records -/

@[simp] theorem length_recordBytes (version : UInt16) (payload : List UInt8) :
    (recordBytes version payload).length = payload.length + 8 := by
  simp [recordBytes, recordBody]
  omega

/-- A record, byte by byte up to its payload. -/
private theorem recordBytes_append (version : UInt16) (payload rest : List UInt8) :
    recordBytes version payload ++ rest
      = u16ToLeBytes version ++ (u16ToLeBytes (UInt16.ofNat payload.length)
        ++ (payload ++ (u32ToLeBytes (crc32 (recordBody version payload))
          ++ rest))) := by
  rw [recordBytes, recordBody, List.append_assoc, List.append_assoc,
    List.append_assoc]

/-- The header of a record gives its payload's length. -/
theorem payloadLen_record (version : UInt16) {payload : List UInt8}
    (rest : List UInt8) (hfit : payload.length ≤ 120) :
    payloadLen (recordBytes version payload ++ rest) = payload.length := by
  rw [recordBytes_append, payloadLen,
    List.drop_left' (length_u16ToLeBytes version),
    List.take_left' (length_u16ToLeBytes _), u16FromLeBytes_toLeBytes,
    UInt16.toNat_ofNat']
  exact Nat.mod_eq_of_lt (by omega)

/-- A record is not erased: the high byte of its length field is zero. -/
theorem allErased_record (version : UInt16) {payload : List UInt8}
    (rest : List UInt8) (hfit : payload.length ≤ 120) :
    allErased (recordBytes version payload ++ rest) = false := by
  rw [Bool.eq_false_iff]
  intro h
  have hmem : UInt8.ofNat ((UInt16.ofNat payload.length).toNat / 256)
      ∈ recordBytes version payload ++ rest := by
    rw [recordBytes_append]
    simp [u16ToLeBytes]
  have hbyte := allErased_iff.mp h _ hmem
  rw [UInt16.toNat_ofNat', Nat.mod_eq_of_lt (by omega),
    Nat.div_eq_of_lt (by omega)] at hbyte
  exact absurd hbyte (by decide)

/-- Its checksum is the one behind its payload. -/
theorem recordState_record (version : UInt16) {payload : List UInt8}
    (rest : List UInt8) (hfit : payload.length ≤ 120) :
    recordState (recordBytes version payload ++ rest) = .intact := by
  have hlen := payloadLen_record version rest hfit
  have hused := allErased_record version rest hfit
  have hbody : (recordBody version payload).length
      = headerBytes + payload.length := by
    simp [recordBody, headerBytes]
    omega
  have htake : (recordBytes version payload ++ rest).take
      (headerBytes + payload.length) = recordBody version payload := by
    rw [recordBytes, List.append_assoc, List.take_left' hbody]
  have hcrc : ((recordBytes version payload ++ rest).drop
      (headerBytes + payload.length)).take crcBytes
        = u32ToLeBytes (crc32 (recordBody version payload)) := by
    rw [recordBytes, List.append_assoc, List.drop_left' hbody]
    exact List.take_left' (length_u32ToLeBytes _)
  have hroom : headerBytes + payload.length + crcBytes
      ≤ (recordBytes version payload ++ rest).length := by
    rw [List.length_append, length_recordBytes]
    simp only [headerBytes, crcBytes]
    omega
  rw [recordState, if_neg (by rw [hused]; exact Bool.false_ne_true)]
  simp only [hlen]
  rw [if_pos hroom, htake, hcrc, u32FromLeBytes_toLeBytes, if_pos rfl]

/-- Its payload decodes to the value. -/
theorem decodeRecord_record {T : Type} [Postcard T] (version : UInt16)
    {payload : List UInt8} {value : T} (rest : List UInt8)
    (hfit : payload.length ≤ 120)
    (hlaw : Postcard.takeFromBytes payload = some (value, [])) :
    decodeRecord (recordBytes version payload ++ rest) version
      = .ok (some value) := by
  have hlen := payloadLen_record version rest hfit
  have hversion : u16FromLeBytes ((recordBytes version payload ++ rest).take 2)
      = version := by
    rw [recordBytes_append, List.take_left' (length_u16ToLeBytes version),
      u16FromLeBytes_toLeBytes]
  have hdrop : ((recordBytes version payload ++ rest).drop headerBytes).take
      payload.length = payload := by
    have hhead : (u16ToLeBytes version
        ++ u16ToLeBytes (UInt16.ofNat payload.length)).length = headerBytes :=
      rfl
    rw [recordBytes_append, ← List.append_assoc, List.drop_left' hhead,
      List.take_left' rfl]
  rw [decodeRecord]
  simp only [hversion, ne_eq, not_true_eq_false, if_false, hlen, hdrop, hlaw]

/-- **READ BACK**: a slot that starts with a complete record is intact, and
    decodes to the record's value. -/
theorem record_readBack {T : Type} [Postcard T] {value : T} {version : UInt16}
    {s : List UInt8} (hfit : (Postcard.toBytes value).length ≤ 120)
    (hlaw : Postcard.takeFromBytes (Postcard.toBytes value) = some (value, []))
    (hs : s.take (recordBytes version (Postcard.toBytes value)).length
      = recordBytes version (Postcard.toBytes value)) :
    allErased s = false ∧ recordState s = .intact ∧
      decodeRecord s version = .ok (some value) := by
  obtain ⟨rest, rfl⟩ : ∃ rest, s
      = recordBytes version (Postcard.toBytes value) ++ rest := by
    refine ⟨s.drop (recordBytes version (Postcard.toBytes value)).length, ?_⟩
    nth_rewrite 1 [← hs]
    exact (List.take_append_drop _ s).symm
  exact ⟨allErased_record version rest hfit, recordState_record version rest hfit,
    decodeRecord_record version rest hfit hlaw⟩

/-! ## Encoding -/

/-- The bytes a store programs: the record, padded to whole words. -/
def wordBytes (W : Nat) (record : List UInt8) : List UInt8 :=
  (record ++ List.replicate (maxRecordBytes - record.length) 0).take
    (nextMultipleOf record.length W)

/-- A length rounded up to whole words of a slot stays inside the slot. -/
theorem nextMultipleOf_spec (hG : Geometry W S page) {n : Nat}
    (hn : n ≤ maxRecordBytes) :
    n ≤ nextMultipleOf n W ∧ nextMultipleOf n W ≤ maxRecordBytes ∧
      nextMultipleOf n W % W = 0 := by
  have hW := hG.word
  have hmod := Nat.mod_lt n hW
  rw [nextMultipleOf]
  by_cases h : n % W = 0
  · rw [if_pos h]
    exact ⟨Nat.le_refl n, hn, h⟩
  · rw [if_neg h]
    have hsplit : n + (W - n % W) = W * (n / W + 1) := by
      have := Nat.div_add_mod n W
      rw [Nat.mul_add, Nat.mul_one]
      omega
    refine ⟨Nat.le_add_right _ _, ?_, ?_⟩
    · obtain ⟨k, hk⟩ := hG.wordSlot
      rw [hsplit, hk]
      refine Nat.mul_le_mul_left W ?_
      -- otherwise the length would be a whole number of words
      by_contra hlt
      have hle : k ≤ n / W := by omega
      have hnk : W * k ≤ W * (n / W) := Nat.mul_le_mul_left W hle
      have := Nat.div_add_mod n W
      omega
    · rw [hsplit]
      exact Nat.mul_mod_right W _

theorem length_wordBytes (hG : Geometry W S page) {record : List UInt8}
    (h : record.length ≤ maxRecordBytes) :
    (wordBytes W record).length = nextMultipleOf record.length W := by
  have hspec := nextMultipleOf_spec hG h
  rw [wordBytes, List.length_take, List.length_append, List.length_replicate]
  omega

theorem take_wordBytes (hG : Geometry W S page) {record : List UInt8}
    (h : record.length ≤ maxRecordBytes) :
    (wordBytes W record).take record.length = record := by
  have hspec := nextMultipleOf_spec hG h
  rw [wordBytes, List.take_take, Nat.min_eq_left hspec.1, List.take_left]

/-- What `encode_record` returns. -/
theorem encodeRecord_eq {T : Type} [Postcard T] (value : T) (version : UInt16) :
    encodeRecord value version
      = if (Postcard.toBytes value).length ≤ 120 then
          .ok (recordBytes version (Postcard.toBytes value)
            ++ List.replicate (maxRecordBytes
              - (recordBytes version (Postcard.toBytes value)).length) 0,
            (recordBytes version (Postcard.toBytes value)).length)
        else .error .tooLarge := by
  have hlimit : maxRecordBytes - crcBytes - headerBytes = 120 := rfl
  rw [encodeRecord, hlimit]
  by_cases h : (Postcard.toBytes value).length ≤ 120
  · rw [if_pos h, if_neg (Nat.not_lt.mpr h)]
  · rw [if_neg h, if_pos (Nat.not_le.mp h)]

/-! ## Scanning -/

theorem count_le (hG : Geometry W S page) :
    count S * maxRecordBytes = S := Nat.div_mul_cancel hG.slots

theorem slotEnd_le (hG : Geometry W S page) {i : Nat} (hi : i < count S) :
    i * maxRecordBytes + maxRecordBytes ≤ S := by
  rw [← Nat.succ_mul, ← count_le hG]
  exact Nat.mul_le_mul_right _ hi

theorem slotOffset_toNat (hG : Geometry W S page) {i : Nat} (hi : i < count S) :
    (slotOffset page (UInt32.ofNat i)).toNat
      = page.toNat + i * maxRecordBytes := by
  have hend := slotEnd_le hG hi
  have hin := hG.inside
  simp only [maxRecordBytes] at hend ⊢
  have hi' : (UInt32.ofNat i).toNat = i := toNat_ofNat_of_lt (by omega)
  have h128 : (UInt32.ofNat maxRecordBytes).toNat = 128 := rfl
  have hmul : (UInt32.ofNat i * UInt32.ofNat maxRecordBytes).toNat = i * 128 := by
    rw [toNat_mul_of_lt (by rw [hi', h128]; omega), hi', h128]
  rw [slotOffset, toNat_add_of_lt (by rw [hmul]; omega), hmul]

/-- The loop of the scan, from a slot it has reached. -/
private theorem scanFrom_spec (hG : Geometry W S page) (f : FakeFlash W S page)
    {k : Nat} (hk : UsedTo f k) :
    ∀ n i, i + n = count S → i ≤ k →
      scanFrom page n i ⟨latest intact (slot f) i, none⟩ f
        = (.ok (scanned f k), f) := by
  -- by induction on the slots that are left, with the latest intact one so far
  intro n
  induction n with
  | zero =>
      intro i hi hik
      have hbound := hk.bound
      obtain rfl : i = k := by omega
      rw [scanned, if_neg (by omega)]
      rfl
  | succ n ih =>
      intro i hi hik
      have hlt : i < count S := by omega
      have hread : ((NorFlash.read (slotOffset page (UInt32.ofNat i))
          maxRecordBytes : Act (FakeFlash W S page) FlashError _).mapErr
            (fun _ => MemoryFault.flashInternalFault)) f
          = (.ok (slot f i), f) := by
        rw [mapErr_run]
        show (Except.ok (slice f.bytes (slotOffset page (UInt32.ofNat i)).toNat
          maxRecordBytes), f) = _
        rw [slotOffset_toNat hG hlt]
        rfl
      refine (bind_ok hread).trans ?_
      by_cases hend : i = k
      · -- the frontier: the scan stops here
        subst hend
        have herased : recordState (slot f i) = .erased := by
          rw [recordState, if_pos (hk.free i (Nat.le_refl i) hlt)]
        simp only [herased]
        rw [scanned, if_pos hlt]
        rfl
      · have hused : recordState (slot f i) ≠ .erased := by
          have hnot := hk.used i (by omega)
          rw [recordState, if_neg (by rw [hnot]; exact Bool.false_ne_true)]
          dsimp only
          split
          · split <;> exact fun h => nomatch h
          · exact fun h => nomatch h
        cases hstate : recordState (slot f i) with
        | erased => exact absurd hstate hused
        | intact =>
            have hnext := ih (i + 1) (by omega) (by omega)
            rw [latest_take (by rw [intact, hstate]; rfl)] at hnext
            exact hnext
        | corrupt =>
            have hnext := ih (i + 1) (by omega) (by omega)
            rw [latest_skip (by rw [intact, hstate]; rfl)] at hnext
            exact hnext

/-- **THE SCAN** finds the latest intact slot and the first erased one. -/
theorem scan_spec (hG : Geometry W S page) {f : FakeFlash W S page} {k : Nat}
    (hk : UsedTo f k) : scan page f = (.ok (scanned f k), f) :=
  scanFrom_spec hG f hk (count S) 0 (Nat.zero_add _) (Nat.zero_le k)

theorem loadRecord_spec (hG : Geometry W S page) {T : Type} [Postcard T]
    {f : FakeFlash W S page} {k : Nat} (hk : UsedTo f k) (version : UInt16) :
    (loadRecord page version f : Except MemoryFault (Option T) × _)
      = (loaded (scanned f k) version, f) :=
  bind_ok (scan_spec hG hk)

/-! ## Storing -/

/-- An erased slot with `bytes` put at its start. -/
def slotWith (bytes : List UInt8) : List UInt8 :=
  bytes ++ List.replicate (maxRecordBytes - bytes.length) erasedByte

/-- `bytes` have been put into slot `k`, and nothing else has changed. -/
structure Landed (f f' : FakeFlash W S page) (k : Nat) (bytes : List UInt8) :
    Prop where
  slot : slot f' k = slotWith bytes
  other : ∀ i, i < count S → i ≠ k → ConfigProofs.slot f' i = ConfigProofs.slot f i
  outside : ∀ a, a < page.toNat ∨ page.toNat + S ≤ a → f'.bytes a = f.bytes a
  rejected : f'.rejected = f.rejected

/-- The page after its erase. -/
def wiped (f : FakeFlash W S page) : FakeFlash W S page :=
  { f with
    bytes := erase f.bytes page.toNat (page.toNat + S)
    powerLoss := later 1 f.powerLoss }

theorem wiped_erased (hG : Geometry W S page) (f : FakeFlash W S page) {i : Nat}
    (hi : i < count S) : allErased (slot (wiped f) i) = true := by
  have hend := slotEnd_le hG hi
  exact erased_iff_slice.mp
    (erased_erase f.bytes (Nat.le_add_right _ _) (by omega))

/-- A page has at least one slot. -/
theorem count_pos (hG : Geometry W S page) : 0 < count S :=
  Nat.div_pos hG.oneSlot (by decide)

theorem wiped_usedTo (hG : Geometry W S page) (f : FakeFlash W S page) :
    UsedTo (wiped f) 0 :=
  Frontier.wipe (fun _ hi => wiped_erased hG f hi)

/-- A write to an erased slot. -/
theorem writeSlot_spec (hG : Geometry W S page) {f : FakeFlash W S page}
    {k : Nat} (hk : k < count S) (her : allErased (slot f k) = true)
    {record : List UInt8} (hrec : record.length ≤ maxRecordBytes) :
    (FlashPage.write (slotOffset page (UInt32.ofNat k)) (wordBytes W record) f).1
        = (if cut W (wordBytes W record) f.powerLoss then .error .powerLoss
          else .ok ()) ∧
      Landed f (FlashPage.write (slotOffset page (UInt32.ofNat k))
        (wordBytes W record) f).2 k
        (landed W (wordBytes W record) f.powerLoss) := by
  have hoff := slotOffset_toNat hG hk
  have hend := slotEnd_le hG hk
  obtain ⟨-, hmax, hwords⟩ := nextMultipleOf_spec hG hrec
  have hlen := length_wordBytes hG hrec
  rw [← hlen] at hmax hwords
  -- slots are whole words, and so is what stands before them
  have haligned : (page.toNat + k * maxRecordBytes) % W = 0 := by
    have hpage : W ∣ page.toNat :=
      Nat.dvd_trans hG.wordSlot (Nat.dvd_trans hG.slots hG.aligned)
    have hslot : W ∣ k * maxRecordBytes := Nat.dvd_mul_left_of_dvd hG.wordSlot k
    exact Nat.mod_eq_zero_of_dvd (Nat.dvd_add hpage hslot)
  have hfree : Erased f.bytes (page.toNat + k * maxRecordBytes) maxRecordBytes :=
    erased_iff_slice.mpr her
  obtain ⟨hres, hbytes, hrej⟩ := write_spec (f := f) hG.word
    (by rw [hoff]; exact haligned) hwords (by rw [hoff]; omega)
    (by rw [hoff]; omega)
    (by rw [hoff]; exact hfree.sub (Nat.le_refl _) (by omega))
  have hle := length_landed_le hwords f.powerLoss
  rw [hoff] at hbytes
  -- the write stays inside its slot, so the others keep their bytes
  have hsame := sameOutside_patch f.bytes (page.toNat + k * maxRecordBytes)
    (Nat.le_trans hle hmax)
  refine ⟨hres, ?_, ?_, ?_, hrej⟩
  · show slice _ _ _ = _
    rw [hbytes]
    exact slice_patch_erased hfree (Nat.le_trans hle hmax)
  · intro i hi hik
    show slice _ _ _ = slice _ _ _
    rw [hbytes]
    refine hsame.slice_eq ?_
    rcases Nat.lt_or_gt_of_ne hik with h | h
    · left
      have := Nat.mul_le_mul_right maxRecordBytes (Nat.succ_le_of_lt h)
      rw [Nat.succ_mul] at this
      omega
    · right
      have := Nat.mul_le_mul_right maxRecordBytes (Nat.succ_le_of_lt h)
      rw [Nat.succ_mul] at this
      omega
  · intro a ha
    rw [hbytes]
    exact hsame a (by omega)

/-- The current record is the one to be stored. -/
def Current (W : Nat) (found : PageScan) (record : List UInt8) : Prop :=
  matchesCurrent found
    (record ++ List.replicate (maxRecordBytes - record.length) 0)
    (nextMultipleOf record.length W) = true

/-- What the result of the write says. -/
def writeResult (W : Nat) (bytes : List UInt8) (loss : Option (Nat × Mem)) :
    Except MemoryFault Unit :=
  if cut W bytes loss then .error .flashInternalFault else .ok ()

/-- What a store of `record` can do to a page used up to `k`. -/
inductive Stored (f : FakeFlash W S page) (k : Nat) (record : List UInt8) :
    Except MemoryFault Unit × FakeFlash W S page → Prop where
  /-- The record is the current one already. -/
  | current (h : Current W (scanned f k) record) : Stored f k record (.ok (), f)
  /-- It goes to the first erased slot. -/
  | appended (h : ¬ Current W (scanned f k) record) (hk : k < count S) {r}
      (hr : r.1 = writeResult W (wordBytes W record) f.powerLoss)
      (hl : Landed f r.2 k (landed W (wordBytes W record) f.powerLoss)) :
      Stored f k record r
  /-- The page is full, and the power is lost before its erase. -/
  | full (h : ¬ Current W (scanned f k) record) (hk : k = count S) {torn : Mem}
      (hl : f.powerLoss = some (0, torn)) :
      Stored f k record (.error .flashInternalFault, f)
  /-- The page is full and erased; the record goes to the first slot. -/
  | erased (h : ¬ Current W (scanned f k) record) (hk : k = count S)
      (hl : ∀ torn, f.powerLoss ≠ some (0, torn)) {r}
      (hr : r.1 = writeResult W (wordBytes W record) (later 1 f.powerLoss))
      (hl' : Landed (wiped f) r.2 0
        (landed W (wordBytes W record) (later 1 f.powerLoss))) :
      Stored f k record r

/-- The write at the end of a store. -/
private theorem finish_spec (hG : Geometry W S page) {f : FakeFlash W S page}
    {k : Nat} (hk : k < count S) (her : allErased (slot f k) = true)
    {record : List UInt8} (hrec : record.length ≤ maxRecordBytes) :
    let r := (NorFlash.write (slotOffset page (UInt32.ofNat k))
      (wordBytes W record) : Act (FakeFlash W S page) FlashError Unit).mapErr
        (fun _ => MemoryFault.flashInternalFault) f
    r.1 = writeResult W (wordBytes W record) f.powerLoss ∧
      Landed f r.2 k (landed W (wordBytes W record) f.powerLoss) := by
  obtain ⟨hres, hland⟩ := writeSlot_spec hG hk her hrec
  rw [mapErr_run]
  refine ⟨?_, hland⟩
  show (FlashPage.write _ _ f).1.mapError _ = _
  rw [hres, writeResult]
  split <;> rfl

/-- The slot a store asks for on a full page is the first one, behind an erase. -/
private theorem freeSlot_full (hG : Geometry W S page) {f : FakeFlash W S page}
    {k : Nat} (hfull : ¬ k < count S) :
    (∃ torn, f.powerLoss = some (0, torn) ∧
      freeSlot page (scanned f k) f = (.error .flashInternalFault, f)) ∨
    ((∀ torn, f.powerLoss ≠ some (0, torn)) ∧
      freeSlot page (scanned f k) f = (.ok (UInt32.ofNat 0), wiped f)) := by
  have hstop : (page + UInt32.ofNat S).toNat = page.toNat + S := by
    have hin := hG.inside
    have hS : (UInt32.ofNat S).toNat = S := toNat_ofNat_of_lt (by omega)
    rw [toNat_add_of_lt (by rw [hS]; exact hin), hS]
  have herase : (freeSlot page (scanned f k) :
      Act (FakeFlash W S page) MemoryFault UInt32)
      = (erasePage page (page + UInt32.ofNat S)).mapErr
          (fun _ => MemoryFault.flashInternalFault) >>= fun _ => pure 0 := by
    rw [freeSlot, scanned, if_neg hfull]
    rfl
  rw [herase]
  -- the power is lost before the erase, or the page is wiped
  rcases erasePage_spec (f := f) hstop with ⟨torn, hloss, hout⟩ | ⟨hloss, hout⟩
  · have hstopped : ((erasePage page (page + UInt32.ofNat S)).mapErr
        (fun _ => MemoryFault.flashInternalFault) f)
        = (.error .flashInternalFault, f) := by
      rw [mapErr_run, hout]
      rfl
    exact Or.inl ⟨torn, hloss, bind_error hstopped⟩
  · have hdone : ((erasePage page (page + UInt32.ofNat S)).mapErr
        (fun _ => MemoryFault.flashInternalFault) f) = (.ok (), wiped f) := by
      rw [mapErr_run, hout]
      rfl
    exact Or.inr ⟨hloss, bind_ok hdone⟩

/-- **STORE**: what a call of `store_record` can do, wherever it is cut short. -/
theorem store_cases (hG : Geometry W S page) {T : Type} [Postcard T]
    {f : FakeFlash W S page} {k : Nat} (hk : UsedTo f k) (version : UInt16)
    (value : T) (hfit : (Postcard.toBytes value).length ≤ 120) :
    Stored f k (recordBytes version (Postcard.toBytes value))
      (storeRecord page version value f) := by
  generalize hrecord : recordBytes version (Postcard.toBytes value) = record
  have hrec : record.length ≤ maxRecordBytes := by
    rw [← hrecord, length_recordBytes]
    simp only [maxRecordBytes]
    omega
  have hencode : (Act.lift (encodeRecord value version) :
      Act (FakeFlash W S page) MemoryFault _) f
      = (.ok (record ++ List.replicate (maxRecordBytes - record.length) 0,
          record.length), f) := by
    rw [encodeRecord_eq, if_pos hfit, hrecord]
    rfl
  -- past the encoding and the scan, what is left is to look at the scan
  have hrun : storeRecord page version value f
      = (if matchesCurrent (scanned f k)
            (record ++ List.replicate (maxRecordBytes - record.length) 0)
            (nextMultipleOf record.length W) then pure ()
        else (do
          let slot ← freeSlot page (scanned f k)
          (NorFlash.write (slotOffset page slot) (wordBytes W record) :
            Act (FakeFlash W S page) FlashError Unit).mapErr
              (fun _ => MemoryFault.flashInternalFault))) f :=
    (bind_ok hencode).trans (bind_ok (scan_spec hG hk))
  rw [hrun]
  by_cases hcur : matchesCurrent (scanned f k)
      (record ++ List.replicate (maxRecordBytes - record.length) 0)
      (nextMultipleOf record.length W) = true
  · rw [if_pos hcur]
    exact .current hcur
  rw [if_neg hcur]
  -- there is an erased slot, or the page is erased first
  by_cases hfull : k < count S
  · have hslot : (freeSlot page (scanned f k) :
        Act (FakeFlash W S page) MemoryFault UInt32) f
        = (.ok (UInt32.ofNat k), f) := by
      rw [freeSlot, scanned, if_pos hfull]
      rfl
    rw [bind_ok hslot]
    obtain ⟨hr, hl⟩ := finish_spec hG hfull (hk.free k (Nat.le_refl k) hfull) hrec
    exact .appended hcur hfull hr hl
  · have hkc : k = count S := Nat.le_antisymm hk.bound (Nat.not_lt.mp hfull)
    have hpos : 0 < count S := count_pos hG
    rcases freeSlot_full hG hfull with ⟨torn, hloss, hslot⟩ | ⟨hloss, hslot⟩
    · rw [bind_error hslot]
      exact .full hcur hkc hloss
    · rw [bind_ok hslot]
      obtain ⟨hr, hl⟩ := finish_spec hG hpos (wiped_erased hG f hpos) hrec
      exact .erased hcur hkc hloss hr hl

/-! ## Runs of stores -/

/-- A call of `store_record`: the type of the value with its serializer, the
    version, the value, and the power loss that is to come. -/
structure StoreCall where
  T : Type
  codec : Postcard T
  version : UInt16
  value : T
  powerLoss : Option (Nat × Mem)

/-- The value is serialized within a slot. -/
def StoreCall.Fits (c : StoreCall) : Prop := (c.codec.toBytes c.value).length ≤ 120

/-- The serializer round-trips. -/
def StoreCall.RoundTrips (c : StoreCall) : Prop :=
  ∀ v, c.codec.takeFromBytes (c.codec.toBytes v) = some (v, [])

/-- The call, on a page whose power is on again. -/
def StoreCall.perform (c : StoreCall) : Act (FakeFlash W S page) MemoryFault Unit :=
  fun f =>
    have := c.codec
    storeRecord page c.version c.value { f with powerLoss := c.powerLoss }

/-- A load of the call's type at the call's version. -/
def StoreCall.load (c : StoreCall) (f : FakeFlash W S page) :
    Except MemoryFault (Option c.T) :=
  have := c.codec
  (loadRecord page c.version f).1

/-- **THE INVARIANT**: the slots have a frontier, no rule has been broken, and
    nothing outside the page has changed. -/
structure Kept (f₀ f : FakeFlash W S page) : Prop where
  frontier : ∃ k, UsedTo f k
  rejected : f.rejected = false
  outside : ∀ a, a < page.toNat ∨ page.toNat + S ≤ a → f.bytes a = f₀.bytes a

/-- A slot with a write landed in it has a frontier at it or behind it. -/
theorem Landed.usedTo {f f' : FakeFlash W S page} {k : Nat} {bytes : List UInt8}
    (hl : Landed f f' k bytes) (hk : UsedTo f k) (hkc : k < count S) :
    UsedTo f' (if allErased (slotWith bytes) then k else k + 1) := by
  rw [← hl.slot]
  exact hk.append hkc hl.other

/-- A store keeps the invariant. -/
theorem Stored.kept (hG : Geometry W S page) {f₀ f : FakeFlash W S page} {k : Nat}
    {record : List UInt8} {r : Except MemoryFault Unit × FakeFlash W S page}
    (h : Stored f k record r) (hk : UsedTo f k) (hf : Kept f₀ f) :
    Kept f₀ r.2 := by
  cases h with
  | current => exact hf
  | full => exact hf
  | appended _ hkc _ hl =>
      exact ⟨⟨_, hl.usedTo hk hkc⟩, hl.rejected.trans hf.rejected,
        fun a ha => (hl.outside a ha).trans (hf.outside a ha)⟩
  | erased _ _ _ _ hl =>
      refine ⟨⟨_, hl.usedTo (wiped_usedTo hG f) (count_pos hG)⟩,
        hl.rejected.trans hf.rejected, ?_⟩
      intro a ha
      have herase : (wiped f).bytes a = f.bytes a := erase_outside ha
      exact ((hl.outside a ha).trans herase).trans (hf.outside a ha)

/-- A record that does not fit is refused before anything else. -/
theorem store_tooLarge {T : Type} [Postcard T] (version : UInt16) {value : T}
    (f : FakeFlash W S page) (h : ¬ (Postcard.toBytes value).length ≤ 120) :
    storeRecord page version value f = (.error .tooLarge, f) := by
  refine bind_error ?_
  rw [encodeRecord_eq, if_neg h]
  rfl

/-- **STEP LEMMA**: so does a call, whatever its value and its power loss. -/
theorem perform_kept (hG : Geometry W S page) {f₀ f : FakeFlash W S page}
    (c : StoreCall) (hf : Kept f₀ f) : Kept f₀ (c.perform f).2 := by
  let := c.codec
  obtain ⟨k, hk⟩ := hf.frontier
  have hf' : Kept f₀ ({ f with powerLoss := c.powerLoss } :
      FakeFlash W S page) := ⟨⟨k, hk⟩, hf.rejected, hf.outside⟩
  by_cases hfit : c.Fits
  · exact (store_cases hG (f := { f with powerLoss := c.powerLoss }) hk
      c.version c.value hfit).kept hG hk hf'
  · have hrun := store_tooLarge c.version
      ({ f with powerLoss := c.powerLoss } : FakeFlash W S page) hfit
    show Kept f₀ (storeRecord page c.version c.value _).2
    rw [hrun]
    exact hf'

/-- The current record starts with the bytes to be stored. -/
theorem current_take (hG : Geometry W S page) {found : PageScan}
    {record : List UInt8} (hrec : record.length ≤ maxRecordBytes)
    (h : Current W found record) :
    ∃ cur, found.latest = some cur ∧ cur.take record.length = record := by
  rw [Current, matchesCurrent] at h
  split at h
  · rename_i cur hcur
    refine ⟨cur, hcur, ?_⟩
    have hspec := nextMultipleOf_spec hG hrec
    -- the current slot and the new record agree on whole words
    have htake := congrArg (List.take record.length) (eq_of_beq h)
    rw [List.take_take, Nat.min_eq_left hspec.1] at htake
    exact htake.trans (take_wordBytes hG hrec)
  · exact nomatch h

/-- A slot with a whole record landed in it starts with the record. -/
theorem slotWith_take (hG : Geometry W S page) {record : List UInt8}
    (hrec : record.length ≤ maxRecordBytes) :
    (slotWith (wordBytes W record)).take record.length = record := by
  have hspec := nextMultipleOf_spec hG hrec
  rw [slotWith, List.take_append_of_le_length (by
    rw [length_wordBytes hG hrec]
    exact hspec.1)]
  exact take_wordBytes hG hrec

/-- **COMPLETED**: after a store that returned, the latest intact slot holds its
    record. -/
theorem Stored.completed (hG : Geometry W S page) {f : FakeFlash W S page}
    {k : Nat} {record : List UInt8}
    {r : Except MemoryFault Unit × FakeFlash W S page}
    (h : Stored f k record r) (hk : UsedTo f k)
    (hrec : record.length ≤ maxRecordBytes)
    (hintact : ∀ s : List UInt8, s.take record.length = record →
      allErased s = false ∧ recordState s = .intact)
    (hok : r.1 = .ok ()) :
    ∃ k' s, UsedTo r.2 k' ∧ (scanned r.2 k').latest = some s ∧
      s.take record.length = record := by
  -- a write that was not cut short has landed, and the slot is the latest
  have hlatest : ∀ {g g' : FakeFlash W S page} {j : Nat}
      {loss : Option (Nat × Mem)}, UsedTo g j → j < count S →
      writeResult W (wordBytes W record) loss = .ok () →
      Landed g g' j (landed W (wordBytes W record) loss) →
      ∃ k' s, UsedTo g' k' ∧ (scanned g' k').latest = some s ∧
        s.take record.length = record := by
    intro g g' j loss hj hjc hres hl
    have hcut : cut W (wordBytes W record) loss = false := by
      rw [writeResult] at hres
      by_contra hne
      rw [Bool.not_eq_false] at hne
      rw [if_pos hne] at hres
      exact nomatch hres
    rw [landed_of_not_cut hcut] at hl
    have htake := slotWith_take hG hrec
    obtain ⟨hused, hstate⟩ := hintact _ htake
    have hto := hl.usedTo hj hjc
    rw [if_neg (by rw [hused]; exact Bool.false_ne_true)] at hto
    refine ⟨j + 1, _, hto, ?_, htake⟩
    have hslot : latest intact (slot g') (j + 1) = some (slot g' j) :=
      latest_take (by rw [hl.slot, intact, hstate]; rfl)
    rw [hl.slot] at hslot
    exact hslot
  cases h with
  | current hcur =>
      obtain ⟨cur, hlat, htake⟩ := current_take hG hrec hcur
      exact ⟨k, cur, hk, hlat, htake⟩
  | full => exact nomatch hok
  | appended _ hkc hr hl => exact hlatest hk hkc (hr.symm.trans hok) hl
  | erased _ _ _ hr hl =>
      exact hlatest (wiped_usedTo hG f) (count_pos hG)
        (hr.symm.trans hok) hl

/-- An erased page keeps the invariant with itself. -/
theorem kept_erased (hG : Geometry W S page) {f₀ : FakeFlash W S page}
    (h₀ : Erased f₀.bytes page.toNat S) (hr₀ : f₀.rejected = false) :
    Kept f₀ f₀ := by
  refine ⟨⟨0, Frontier.wipe ?_⟩, hr₀, fun _ _ => rfl⟩
  intro i hi
  have hend := slotEnd_le hG hi
  exact erased_iff_slice.mp (h₀.sub (Nat.le_add_right _ _) (by omega))

/-- **RUN LEMMA**: every run of calls keeps the invariant. -/
theorem run_kept (hG : Geometry W S page) {f₀ : FakeFlash W S page}
    (h₀ : Erased f₀.bytes page.toNat S) (hr₀ : f₀.rejected = false)
    (calls : List StoreCall) : Kept f₀ (attempts StoreCall.perform f₀ calls) := by
  refine (Spec.attempts (I := Kept f₀) (Q := fun _ _ => True) ?_ calls f₀
    (kept_erased hG h₀ hr₀)).1
  intro c f hf
  have hkept := perform_kept hG c hf
  constructor
  · intro a f' hrun
    rw [hrun] at hkept
    exact ⟨hkept, trivial⟩
  · intro e f' hrun
    rw [hrun] at hkept
    exact hkept

/-- **LOAD AFTER STORE**: a store that returned is what a load then finds. -/
theorem load_of_completed (hG : Geometry W S page) {f₀ f : FakeFlash W S page}
    (hf : Kept f₀ f) (c : StoreCall) (hlaw : c.RoundTrips)
    (hok : (c.perform f).1 = .ok ()) :
    c.load (c.perform f).2 = .ok (some c.value) := by
  let := c.codec
  obtain ⟨k, hk⟩ := hf.frontier
  have hfit : c.Fits := by
    by_contra hfit
    have hrun := store_tooLarge c.version
      ({ f with powerLoss := c.powerLoss } : FakeFlash W S page) hfit
    exact nomatch (congrArg Prod.fst hrun).symm.trans hok
  have hstored := store_cases hG (f := { f with powerLoss := c.powerLoss }) hk
    c.version c.value hfit
  have hreads : ∀ s : List UInt8,
      s.take (recordBytes c.version (Postcard.toBytes c.value)).length
        = recordBytes c.version (Postcard.toBytes c.value) →
      allErased s = false ∧ recordState s = .intact ∧
        decodeRecord s c.version = .ok (some c.value) :=
    fun _ hs => record_readBack hfit (hlaw c.value) hs
  obtain ⟨k', s, hk', hlat, htake⟩ := hstored.completed hG hk (by
      rw [length_recordBytes]
      exact Nat.add_le_add_right hfit 8)
    (fun s hs => ⟨(hreads s hs).1, (hreads s hs).2.1⟩) hok
  have hload := congrArg Prod.fst (loadRecord_spec hG (T := c.T) hk' c.version)
  refine hload.trans ?_
  rw [loaded, hlat]
  exact (hreads s htake).2.2

/-- A store that is not interrupted returns. -/
theorem perform_returns (hG : Geometry W S page) {f₀ f : FakeFlash W S page}
    (hf : Kept f₀ f) (c : StoreCall) (hfit : c.Fits) (hloss : c.powerLoss = none) :
    (c.perform f).1 = .ok () := by
  let := c.codec
  obtain ⟨k, hk⟩ := hf.frontier
  have hstored := store_cases hG (f := { f with powerLoss := c.powerLoss }) hk
    c.version c.value hfit
  have hres : ∀ {r : Except MemoryFault Unit × FakeFlash W S page}
      {record : List UInt8},
      Stored ({ f with powerLoss := c.powerLoss } : FakeFlash W S page) k record r →
      r.1 = .ok () := by
    intro r record h
    cases h with
    | current => rfl
    | full _ _ hl => exact nomatch hloss.symm.trans hl
    | appended _ _ hr _ =>
        rw [hr, hloss]
        rfl
    | erased _ _ _ hr _ =>
        rw [hr, hloss]
        rfl
  exact hres hstored

/-- **THE STORE OVER ALL RUNS**: whatever interrupts the stores, none breaks a
    programming rule or writes outside the page, behind the first erased slot
    all slots are erased, and a completed store is what a load at its version
    finds. -/
theorem store_run (hG : Geometry W S page) (f₀ : FakeFlash W S page)
    (h₀ : Erased f₀.bytes page.toNat S) (hr₀ : f₀.rejected = false)
    (calls : List StoreCall) :
    let f := attempts StoreCall.perform f₀ calls
    f.rejected = false ∧
      (∀ a, a < page.toNat ∨ page.toNat + S ≤ a → f.bytes a = f₀.bytes a) ∧
      (∀ i j, i ≤ j → j < count S → allErased (slot f i) = true →
        allErased (slot f j) = true) ∧
      ∀ c : StoreCall, c.RoundTrips →
        (c.Fits → c.powerLoss = none → (c.perform f).1 = .ok ()) ∧
        ((c.perform f).1 = .ok () →
          c.load (c.perform f).2 = .ok (some c.value)) := by
  have hf := run_kept hG h₀ hr₀ calls
  refine ⟨hf.rejected, hf.outside, ?_, ?_⟩
  · intro i j hij hj hi
    obtain ⟨k, hk⟩ := hf.frontier
    exact hk.erased_after hi hij hj
  · intro c hlaw
    exact ⟨perform_returns hG hf c, load_of_completed hG hf c hlaw⟩

/-! ## A page of two slots -/

/-- The serializer of single bytes. -/
instance postcardU8 : Postcard UInt8 where
  toBytes v := [v]
  takeFromBytes
    | [] => none
    | v :: rest => some (v, rest)

theorem postcardU8_roundTrips (v : UInt8) :
    Postcard.takeFromBytes (Postcard.toBytes v) = some (v, []) := rfl

/-- An erased page of two slots, programmed in words of eight bytes. -/
def smallPage : FakeFlash 8 256 0 := ⟨fun _ => erasedByte, none, false⟩

theorem smallPage_geometry : Geometry 8 256 0 := by
  constructor <;> decide

/-- A store of one byte, at version 1. -/
def storeU8 (v : UInt8) (powerLoss : Option (Nat × Mem)) : StoreCall :=
  ⟨UInt8, postcardU8, 1, v, powerLoss⟩

/-- The second record is torn, so the third one is put on an erased page. -/
theorem store_run_smallPage :
    (storeU8 3 none).load ((storeU8 3 none).perform (attempts StoreCall.perform
      smallPage [storeU8 1 none, storeU8 2 (some (0, fun _ => 0))])).2
      = .ok (some (3 : UInt8)) := by
  obtain ⟨-, -, -, hload⟩ := store_run smallPage_geometry smallPage
    (fun _ _ _ => rfl) rfl [storeU8 1 none, storeU8 2 (some (0, fun _ => 0))]
  obtain ⟨hdone, hloads⟩ := hload (storeU8 3 none) postcardU8_roundTrips
  exact hloads (hdone (Nat.le_of_ble_eq_true rfl) rfl)

/-! ## Interrupted stores -/

/-- The power loss as the write of a store meets it: the erase of a full page
    comes first. -/
def writeLoss (found : PageScan) (loss : Option (Nat × Mem)) :
    Option (Nat × Mem) :=
  if found.freeSlot = none then later 1 loss else loss

/-- What a power loss leaves of `bytes` in an erased slot. -/
def tornSlot (W : Nat) (bytes : List UInt8) (loss : Option (Nat × Mem)) :
    List UInt8 :=
  slotWith (landed W bytes loss)

/-- A load that finds a value has a latest slot, and decodes it. -/
theorem loaded_some {T : Type} [Postcard T] {found : PageScan} {version : UInt16}
    {v : T} (h : loaded found version = .ok (some v)) :
    ∃ s, found.latest = some s ∧ decodeRecord s version = .ok (some v) := by
  rw [loaded] at h
  split at h
  · rename_i s hs
    exact ⟨s, hs, h⟩
  · split at h
    · exact nomatch Except.ok.inj h
    · exact nomatch h

/-- What a load makes of a page depends on its latest slot only, if there is
    one. -/
theorem loaded_of_latest {T : Type} [Postcard T] {found : PageScan}
    {version : UInt16} {s : List UInt8} (h : found.latest = some s) :
    (loaded found version : Except MemoryFault (Option T))
      = decodeRecord s version := by
  rw [loaded, h]

/-- A page whose one used slot is torn, or that is erased, loads no value. -/
theorem loaded_torn {T : Type} [Postcard T] {f : FakeFlash W S page} {k : Nat}
    (hk : k ≤ 1) (hstate : recordState (slot f 0) ≠ .intact) (version : UInt16)
    (v : T) : (loaded (scanned f k) version : Except MemoryFault (Option T))
      ≠ .ok (some v) := by
  intro h
  obtain ⟨s, hs, -⟩ := loaded_some h
  have hnone : latest intact (slot f) k = none := by
    have hfalse : intact (slot f 0) = false := by
      rw [intact, beq_eq_false_iff_ne]
      exact hstate
    rcases Nat.le_one_iff_eq_zero_or_eq_one.mp hk with rfl | rfl
    · rfl
    · exact latest_skip hfalse
  exact nomatch hnone.symm.trans hs

/-- The value of a page with a free slot survives whatever a store leaves in that
    slot, or the new one has landed. -/
private theorem appended_keeps {T : Type} [Postcard T]
    {f f' : FakeFlash W S page} {k : Nat} {bytes : List UInt8}
    (hl : Landed f f' k bytes) (hk : UsedTo f k) (hkc : k < count S)
    {version : UInt16} {v w : T} (hload : loaded (scanned f k) version = .ok (some v))
    (htorn : decodeRecord (slotWith bytes) version = .ok (some w) ∨
      recordState (slotWith bytes) ≠ .intact) :
    ∃ k', UsedTo f' k' ∧
      (loaded (scanned f' k') version = .ok (some v) ∨
        loaded (scanned f' k') version = .ok (some w)) := by
  refine ⟨_, hl.usedTo hk hkc, ?_⟩
  obtain ⟨s, hs, hdec⟩ := loaded_some hload
  have hbelow : latest intact (slot f') k = some s :=
    (latest_congr (fun i hi => hl.other i (by omega) (by omega))).trans hs
  by_cases he : allErased (slotWith bytes) = true
  · rw [if_pos he]
    exact Or.inl ((loaded_of_latest hbelow).trans hdec)
  · rw [if_neg he]
    by_cases hi : intact (slotWith bytes) = true
    · have htop : latest intact (slot f') (k + 1) = some (slot f' k) :=
        latest_take (by rw [hl.slot]; exact hi)
      rw [hl.slot] at htop
      rcases htorn with hw | hstate
      · exact Or.inr ((loaded_of_latest htop).trans hw)
      · exact absurd (eq_of_beq hi) hstate
    · rw [Bool.not_eq_true] at hi
      have hskip : latest intact (slot f') (k + 1) = latest intact (slot f') k :=
        latest_skip (by rw [hl.slot]; exact hi)
      exact Or.inl ((loaded_of_latest (hskip.trans hbelow)).trans hdec)

/-- A page that has been erased for a store loads the new value if the whole record
    has landed, and no value otherwise. -/
private theorem erased_keeps_iff (hG : Geometry W S page) {T : Type} [Postcard T]
    {f f' : FakeFlash W S page} {record : List UInt8} {loss : Option (Nat × Mem)}
    (hl : Landed (wiped f) f' 0 (landed W (wordBytes W record) loss))
    {version : UInt16} {v w : T}
    (hreads : ∀ s : List UInt8, s.take record.length = record →
      decodeRecord s version = .ok (some w))
    (hcrc : (tornSlot W (wordBytes W record) loss).take record.length = record ∨
      recordState (tornSlot W (wordBytes W record) loss) ≠ .intact)
    (hintact : ∀ s : List UInt8, s.take record.length = record →
      allErased s = false ∧ recordState s = .intact) :
    ∃ k', UsedTo f' k' ∧
      ((loaded (scanned f' k') version = .ok (some v) ∨
          loaded (scanned f' k') version = .ok (some w)) ↔
        (tornSlot W (wordBytes W record) loss).take record.length = record) := by
  have hto := hl.usedTo (wiped_usedTo hG f) (count_pos hG)
  have hslot : slot f' 0 = tornSlot W (wordBytes W record) loss := hl.slot
  have hused : allErased (slotWith (landed W (wordBytes W record) loss))
      = allErased (tornSlot W (wordBytes W record) loss) := rfl
  rw [hused] at hto
  refine ⟨_, hto, ?_⟩
  by_cases hwhole : (tornSlot W (wordBytes W record) loss).take record.length
      = record
  · -- the whole record has landed: it is the only one in the page
    obtain ⟨hnot, hstate⟩ := hintact _ hwhole
    have hlat : latest intact (slot f') (0 + 1) = some (slot f' 0) :=
      latest_take (by rw [hslot, intact]; exact beq_iff_eq.mpr hstate)
    rw [if_neg (by rw [hnot]; exact Bool.false_ne_true)]
    refine iff_of_true (Or.inr ?_) hwhole
    rw [loaded_of_latest hlat, hslot]
    exact hreads _ hwhole
  · -- a torn record, and nothing else: no value is left
    have hstate := hcrc.resolve_left hwhole
    have hle : (if allErased (tornSlot W (wordBytes W record) loss) then 0
        else 0 + 1) ≤ 1 := by split <;> decide
    have hlost : ∀ u : T, loaded (scanned f' _) version ≠ .ok (some u) :=
      loaded_torn hle (by rw [hslot]; exact hstate) version
    exact iff_of_false (not_or.mpr ⟨hlost v, hlost w⟩) hwhole

/-- What a store of `record` leaves for a load, case by case. -/
theorem Stored.keeps_iff (hG : Geometry W S page) {T : Type} [Postcard T]
    {f : FakeFlash W S page} {k : Nat} {record : List UInt8}
    {r : Except MemoryFault Unit × FakeFlash W S page}
    (h : Stored f k record r) (hk : UsedTo f k) {version : UInt16} {v w : T}
    (hload : loaded (scanned f k) version = .ok (some v))
    (hreads : ∀ s : List UInt8, s.take record.length = record →
      decodeRecord s version = .ok (some w))
    (hcrc : (tornSlot W (wordBytes W record)
        (writeLoss (scanned f k) f.powerLoss)).take record.length = record ∨
      recordState (tornSlot W (wordBytes W record)
        (writeLoss (scanned f k) f.powerLoss)) ≠ .intact)
    (hintact : ∀ s : List UInt8, s.take record.length = record →
      allErased s = false ∧ recordState s = .intact) :
    ∃ k', UsedTo r.2 k' ∧
      ((loaded (scanned r.2 k') version = .ok (some v) ∨
          loaded (scanned r.2 k') version = .ok (some w)) ↔
        (scanned f k).freeSlot ≠ none ∨ Current W (scanned f k) record ∨
          (∃ torn, f.powerLoss = some (0, torn)) ∨
          (tornSlot W (wordBytes W record)
            (writeLoss (scanned f k) f.powerLoss)).take record.length
              = record) := by
  have hfree : (scanned f k).freeSlot = none ↔ ¬ k < count S := by
    rw [scanned]
    by_cases hkc : k < count S
    · simp [hkc]
    · simp [hkc]
  cases h with
  | current hcur =>
      exact ⟨k, hk, iff_of_true (Or.inl hload) (Or.inr (Or.inl hcur))⟩
  | full _ _ hl =>
      exact ⟨k, hk, iff_of_true (Or.inl hload) (Or.inr (Or.inr (Or.inl ⟨_, hl⟩)))⟩
  | appended _ hkc _ hl =>
      have hsome : (scanned f k).freeSlot ≠ none := fun he => hfree.mp he hkc
      rw [writeLoss, if_neg hsome] at hcrc
      obtain ⟨k', hk', hkeep⟩ := appended_keeps hl hk hkc hload
        (hcrc.imp (hreads _) (fun hs => hs))
      exact ⟨k', hk', iff_of_true hkeep (Or.inl hsome)⟩
  | erased hcur hkc hloss _ hl =>
      have hnone : (scanned f k).freeSlot = none :=
        hfree.mpr (by rw [hkc]; exact Nat.lt_irrefl _)
      rw [writeLoss, if_pos hnone] at hcrc ⊢
      obtain ⟨k', hk', hkeep⟩ := erased_keeps_iff (v := v) hG hl hreads hcrc hintact
      refine ⟨k', hk', hkeep.trans ⟨fun h => Or.inr (Or.inr (Or.inr h)), ?_⟩⟩
      rintro (he | he | ⟨torn, he⟩ | he)
      · exact absurd hnone he
      · exact absurd he hcur
      · exact absurd he (hloss torn)
      · exact he

/-- **POWER-FAIL ATOMICITY, AND ITS LIMIT**: on any reachable page that loads `v`,
    a store of `w` that a power loss interrupts leaves a page that loads `v` or
    `w` exactly when the page has an erased slot, or holds the record already,
    or the power is lost before the erase, or only after the whole record. -/
theorem interrupted_store_keeps_iff (hG : Geometry W S page)
    (f₀ : FakeFlash W S page) (h₀ : Erased f₀.bytes page.toNat S)
    (hr₀ : f₀.rejected = false) (calls : List StoreCall) {T : Type} [Postcard T]
    (hlaw : ∀ v : T, Postcard.takeFromBytes (Postcard.toBytes v) = some (v, []))
    (version : UInt16) (v w : T) (loss : Option (Nat × Mem))
    {buf : List UInt8} {recordLen : Nat} {found : PageScan} :
    let f : FakeFlash W S page :=
      { attempts StoreCall.perform f₀ calls with powerLoss := loss }
    let bytes := buf.take (nextMultipleOf recordLen W)
    (loadRecord page version f).1 = .ok (some v) →
    encodeRecord w version = .ok (buf, recordLen) →
    (scan page f).1 = .ok found →
    ((tornSlot W bytes (writeLoss found loss)).take recordLen
        = buf.take recordLen ∨
      recordState (tornSlot W bytes (writeLoss found loss)) ≠ .intact) →
    let f' := (storeRecord page version w f).2
    ((loadRecord page version f').1 = .ok (some v) ∨
        (loadRecord page version f').1 = .ok (some w)) ↔
      found.freeSlot ≠ none ∨
        matchesCurrent found buf (nextMultipleOf recordLen W) = true ∨
        (∃ torn, loss = some (0, torn)) ∨
        (tornSlot W bytes (writeLoss found loss)).take recordLen
          = buf.take recordLen := by
  intro f bytes hload hencode hscan hcrc f'
  obtain ⟨k, hk⟩ := (run_kept hG h₀ hr₀ calls).frontier
  have hkf : UsedTo f k := hk
  have hfit : (Postcard.toBytes w).length ≤ 120 := by
    by_contra hfit
    rw [encodeRecord_eq, if_neg hfit] at hencode
    exact nomatch hencode
  obtain rfl : found = scanned f k :=
    Except.ok.inj (hscan.symm.trans (congrArg Prod.fst (scan_spec hG hkf)))
  rw [encodeRecord_eq, if_pos hfit] at hencode
  obtain ⟨hbuf, hlen⟩ := Prod.mk.inj (Except.ok.inj hencode)
  have hload' : (loaded (scanned f k) version : Except MemoryFault (Option T))
      = .ok (some v) := (congrArg Prod.fst (loadRecord_spec hG hkf version)).symm.trans
        hload
  have hreads : ∀ s : List UInt8,
      s.take (recordBytes version (Postcard.toBytes w)).length
        = recordBytes version (Postcard.toBytes w) →
      allErased s = false ∧ recordState s = .intact ∧
        decodeRecord s version = .ok (some w) :=
    fun _ hs => record_readBack hfit (hlaw w) hs
  have hstored := store_cases hG hkf version w hfit
  generalize recordBytes version (Postcard.toBytes w) = record at *
  subst hlen
  have htake : buf.take record.length = record := by
    rw [← hbuf, List.take_left]
  have hbytes : bytes = wordBytes W record := by
    show buf.take _ = _
    rw [← hbuf]
    rfl
  rw [htake, hbytes] at hcrc
  obtain ⟨k', hk', hiff⟩ := hstored.keeps_iff hG hkf hload'
    (fun s hs => (hreads s hs).2.2) hcrc
    (fun s hs => ⟨(hreads s hs).1, (hreads s hs).2.1⟩)
  have hafter : (loadRecord page version f' : Except MemoryFault (Option T) × _).1
      = loaded (scanned f' k') version :=
    congrArg Prod.fst (loadRecord_spec hG hk' version)
  rw [htake, hbytes, hafter, ← hbuf]
  exact hiff

/-- A store to a page with a free slot, cut short in its first word. -/
theorem interrupted_store_keeps_iff_smallPage :
    let f : FakeFlash 8 256 0 :=
      { attempts StoreCall.perform smallPage [storeU8 1 none] with
        powerLoss := some (0, fun _ => 0) }
    let f' := (storeRecord 0 1 (2 : UInt8) f).2
    (loadRecord 0 1 f').1 = .ok (some (1 : UInt8)) ∨
      (loadRecord 0 1 f').1 = .ok (some (2 : UInt8)) := by
  intro f f'
  have hscan : (scan 0 f).1 = .ok (scanned f 1) := by decide +kernel
  have hload : (loadRecord 0 1 f).1 = .ok (some (1 : UInt8)) := by decide +kernel
  have htorn : recordState (tornSlot 8
      ((recordBytes 1 [2] ++ List.replicate 119 0).take (nextMultipleOf 9 8))
      (writeLoss (scanned f 1) (some (0, fun _ => 0)))) ≠ .intact := by
    decide +kernel
  refine (interrupted_store_keeps_iff smallPage_geometry smallPage
    (fun _ _ _ => rfl) rfl [storeU8 1 none] postcardU8_roundTrips 1 1 2
    (some (0, fun _ => 0)) hload rfl hscan (Or.inr htorn)).mpr (Or.inl ?_)
  decide +kernel

/-- The erase of a full page has lost the value: the power is gone before the new
    record is there, and a load finds an erased page. -/
theorem interrupted_store_loses :
    let f := attempts StoreCall.perform smallPage [storeU8 1 none, storeU8 2 none]
    let f' := ((storeU8 3 (some (1, fun _ => erasedByte))).perform f).2
    (loadRecord 0 1 f).1 = .ok (some (2 : UInt8)) ∧
      recordState (slot f' 0) = .erased ∧
      (loadRecord 0 1 f').1 = .ok (none : Option UInt8) := by
  refine ⟨?_, ?_, ?_⟩
  · decide +kernel
  · decide +kernel
  · decide +kernel

end ConfigProofs
