import Stm32Foc.Boot

/-! # The status codec

    What the bootloader can make of the sixteen bytes of its status page: a written
    record reads back, a record that reads back is the one written, and a record cut
    short says nothing that was not being written. -/

namespace StatusProofs

open ByteMemory WireBytes Boot

/-! ## Words -/

/-- A word of four bytes is the bytes of the word it reads as. -/
theorem u32ToLeBytes_fromLeBytes {bytes : List UInt8} (h : bytes.length = 4) :
    u32ToLeBytes (u32FromLeBytes bytes) = bytes := by
  obtain ⟨b0, b1, b2, b3, rfl⟩ : ∃ b0 b1 b2 b3, bytes = [b0, b1, b2, b3] := by
    match bytes, h with
    | [b0, b1, b2, b3], _ => exact ⟨b0, b1, b2, b3, rfl⟩
  have h0 := b0.toNat_lt
  have h1 := b1.toNat_lt
  have h2 := b2.toNat_lt
  have h3 := b3.toNat_lt
  have hword : (u32FromLeBytes [b0, b1, b2, b3]).toNat
      = b0.toNat + 256 * b1.toNat + 65536 * b2.toNat + 16777216 * b3.toNat :=
    toNat_ofNat_of_lt (by omega)
  have hbyte : ∀ {n : Nat} {b : UInt8}, n = b.toNat → UInt8.ofNat n = b := by
    intro n b hn
    rw [hn]
    exact UInt8.ofNat_toNat
  rw [u32ToLeBytes, hword, hbyte (b := b0) (by omega), hbyte (b := b1) (by omega),
    hbyte (b := b2) (by omega), hbyte (b := b3) (by omega)]

/-- A word read from the bytes at an offset, written back. -/
private theorem rewritten (bytes : List UInt8) (off : Nat) (h : off + 4 ≤ bytes.length) :
    u32ToLeBytes (u32FromLeBytes ((bytes.drop off).take 4)) = (bytes.drop off).take 4 := by
  refine u32ToLeBytes_fromLeBytes ?_
  rw [List.length_take, List.length_drop]
  omega

/-! ## States -/

/-- A state word that stands for a state is the word of that state. -/
theorem toU32_fromU32 {raw : UInt32} (h : raw ≤ 4) :
    (BootloaderState.fromU32 raw).toU32 = raw := by
  have hcases : raw = 0 ∨ raw = 1 ∨ raw = 2 ∨ raw = 3 ∨ raw = 4 := by
    have hn : raw.toNat ≤ 4 := h
    have := UInt32.ofNat_toNat (x := raw)
    generalize raw.toNat = n at hn this
    subst this
    match n, hn with
    | 0, _ | 1, _ | 2, _ | 3, _ | 4, _ => simp
  rcases hcases with rfl | rfl | rfl | rfl | rfl <;> rfl

/-- The state word of a record. -/
def stateWord (bytes : List UInt8) : UInt32 := u32FromLeBytes (bytes.take 4)

/-! ## Records -/

/-- What a valid record says, and why it is valid. -/
theorem fromBytes_valid {bytes : List UInt8} {status : BootloaderStatus}
    (h : BootloaderStatus.fromBytes bytes = .valid status) :
    status = ⟨.fromU32 (stateWord bytes), u32FromLeBytes ((bytes.drop 4).take 4),
        u32FromLeBytes ((bytes.drop 8).take 4)⟩ ∧
      crc32 (bytes.take 12) = u32FromLeBytes ((bytes.drop 12).take 4) := by
  rw [BootloaderStatus.fromBytes] at h
  by_cases herased : allErased bytes
  · rw [if_pos herased] at h
    cases h
  · rw [if_neg herased] at h
    by_cases hcrc : crc32 (bytes.take 12) = u32FromLeBytes ((bytes.drop 12).take 4)
    · simp only [hcrc, ne_eq, not_true_eq_false, if_false] at h
      exact ⟨(DecodeResult.valid.inj h).symm, hcrc⟩
    · simp only [ne_eq, hcrc, not_false_eq_true, if_true] at h
      cases h

/-- **THE RECORD IS ITS STATUS**: a valid record whose state word stands for a state
    is the record of the status it reads as. -/
theorem toBytes_fromBytes {bytes : List UInt8} {status : BootloaderStatus}
    (hlen : bytes.length = statusBytes) (hstate : stateWord bytes ≤ 4)
    (h : BootloaderStatus.fromBytes bytes = .valid status) :
    status.toBytes = bytes := by
  rw [statusBytes] at hlen
  obtain ⟨rfl, hcrc⟩ := fromBytes_valid h
  have hbody : BootloaderStatus.body
      ⟨.fromU32 (stateWord bytes), u32FromLeBytes ((bytes.drop 4).take 4),
        u32FromLeBytes ((bytes.drop 8).take 4)⟩ = bytes.take 12 := by
    show u32ToLeBytes (BootloaderState.fromU32 (stateWord bytes)).toU32
      ++ u32ToLeBytes (u32FromLeBytes ((bytes.drop 4).take 4))
      ++ u32ToLeBytes (u32FromLeBytes ((bytes.drop 8).take 4)) = bytes.take 12
    have hword := rewritten bytes 0 (by omega)
    rw [List.drop_zero] at hword
    rw [toU32_fromU32 hstate, rewritten _ _ (by omega), rewritten _ _ (by omega), stateWord, hword,
      ← List.take_add, ← List.take_add]
  rw [BootloaderStatus.toBytes, hbody, hcrc, rewritten _ _ (by omega)]
  calc bytes.take 12 ++ (bytes.drop 12).take 4
      = bytes.take 16 := List.take_add.symm
    _ = bytes := List.take_of_length_le (by omega)

/-! ## Torn records -/

/-- A record cut within its state word is the same for every status of the state. -/
theorem tornBytes_state (status : BootloaderStatus) {k : Nat} (hk : k < 4) :
    tornBytes status.toBytes k = tornBytes (bareStatus status.state).toBytes k := by
  have htake : ∀ s : BootloaderStatus,
      s.toBytes.take k = (u32ToLeBytes s.state.toU32).take k := by
    intro s
    rw [BootloaderStatus.toBytes, BootloaderStatus.body, List.append_assoc,
      List.append_assoc, List.take_append_of_le_length (by simp; omega)]
  rw [tornBytes, tornBytes, htake, htake, BootloaderStatus.length_toBytes,
    BootloaderStatus.length_toBytes]
  rfl

/-- A record cut behind its state word keeps the word. -/
theorem stateWord_tornBytes (status : BootloaderStatus) {k : Nat} (hk : 4 ≤ k) :
    stateWord (tornBytes status.toBytes k) = status.state.toU32 := by
  have htake : (tornBytes status.toBytes k).take 4 = u32ToLeBytes status.state.toU32 := by
    rw [tornBytes, List.take_append_of_le_length
      (by rw [List.length_take, BootloaderStatus.length_toBytes, statusBytes]; omega),
      List.take_take, Nat.min_eq_left hk]
    rfl
  rw [stateWord, htake, u32FromLeBytes_toLeBytes]

/-- **TORN RECORDS**: a record cut after any number of bytes reads as no state but its
    own. -/
theorem tornBytes_readsAs (status : BootloaderStatus) (k : Nat) :
    (BootloaderStatus.fromBytes (tornBytes status.toBytes k)).readsAs status.state := by
  by_cases hk : k < 4
  · -- within the state word, only the state matters
    rw [tornBytes_state status hk]
    exact tornStatus_readsAs status.state ⟨k, by omega⟩
  · intro read hread
    obtain ⟨rfl, -⟩ := fromBytes_valid hread
    show BootloaderState.fromU32 (stateWord (tornBytes status.toBytes k)) = status.state
    rw [stateWord_tornBytes status (not_lt.mp hk), BootloaderState.fromU32_toU32]

/-- **THE STATUS CODEC**: a written status reads back as itself; a record that reads as
    valid, with a state word that stands for a state, is the record of what it reads as;
    and a write cut short leaves an empty page, a corrupt record, or a valid one of the
    state that was being written. -/
theorem status_codec :
    (∀ status : BootloaderStatus,
      BootloaderStatus.fromBytes status.toBytes = .valid status) ∧
    (∀ (bytes : List UInt8) (status : BootloaderStatus),
      bytes.length = statusBytes →
      BootloaderStatus.fromBytes bytes = .valid status →
      stateWord bytes ≤ 4 →
      status.toBytes = bytes) ∧
    (∀ (status : BootloaderStatus) (k : Nat),
      BootloaderStatus.fromBytes (tornBytes status.toBytes k) = .empty ∨
      BootloaderStatus.fromBytes (tornBytes status.toBytes k) = .corrupt ∨
      ∃ read, BootloaderStatus.fromBytes (tornBytes status.toBytes k) = .valid read ∧
        read.state = status.state) := by
  refine ⟨BootloaderStatus.fromBytes_toBytes, ?_, ?_⟩
  · intro bytes status hlen hvalid hstate
    exact toBytes_fromBytes hlen hstate hvalid
  · intro status k
    have hreads := tornBytes_readsAs status k
    cases hread : BootloaderStatus.fromBytes (tornBytes status.toBytes k) with
    | empty => exact .inl rfl
    | corrupt => exact .inr (.inl rfl)
    | valid read => exact .inr (.inr ⟨read, rfl, hreads read hread⟩)

/-- A record of a freshly written image is the record of what it reads as. -/
theorem status_codec_freshlyWritten :
    (BootloaderStatus.mk .dfuFreshlyWritten 2048 7).toBytes
      = [1, 0, 0, 0, 0, 8, 0, 0, 7, 0, 0, 0, 222, 252, 72, 78] :=
  status_codec.2.1 [1, 0, 0, 0, 0, 8, 0, 0, 7, 0, 0, 0, 222, 252, 72, 78] _ rfl
    (by decide +kernel) (by decide +kernel)

end StatusProofs
