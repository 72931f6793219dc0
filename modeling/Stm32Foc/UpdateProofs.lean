import Stm32Foc.EventRun
import Stm32Foc.Update
import Stm32Foc.WireBytes

/-! # The receiver writes the image it was sent

    A run of the receiver over arbitrary chunks, applies and resets is observed
    from outside: `Transfer` collects the chunks it accepted since it last
    accepted counter 0, and the writes it emitted since.  `Receiving` ties these
    to the staging buffer, the write offset and the counter, and a successful
    apply reads off it what the DFU area holds (`applied_image`).  What a whole
    transfer needs of the capacity is `transfer_completes_iff`. -/

namespace UpdateProofs

open ActionLogic ByteMemory WireBytes Update Update.FirmwareUpdateState

/-! ## Runs, observed from outside -/

/-- What reaches the receiver. -/
inductive Event where
  | data (counter : UInt16) (chunk : Chunk)
  | apply (length crc32 : UInt32)
  | reset

/-- The chunks accepted since the last accepted counter 0, with their counters,
    and the writes emitted since. -/
structure Transfer where
  accepted : List (UInt16 × Chunk)
  writes : List DfuWriteData

/-- An accepted counter 0 starts the record anew. -/
def Transfer.begun (t : Transfer) (counter : UInt16) : Transfer :=
  if counter = 0 then ⟨[], []⟩ else t

def Transfer.add (t : Transfer) (counter : UInt16) (chunk : Chunk)
    (write : Option DfuWriteData) : Transfer :=
  ⟨t.accepted ++ [(counter, chunk)], t.writes ++ write.toList⟩

/-- What the outcome of a chunk adds to the record. -/
def Transfer.observe (t : Transfer) (counter : UInt16) (chunk : Chunk) :
    Except FirmwareUpdateFault DataOutcome → Transfer
  | .ok (.accepted write) => (t.begun counter).add counter chunk write
  | _ => t

/-- The receiver takes an event. -/
def step (s : FirmwareUpdateState × Transfer) :
    Event → FirmwareUpdateState × Transfer
  | .data counter chunk =>
      let (outcome, self) := onData counter chunk s.1
      (self, s.2.observe counter chunk outcome)
  | .apply length crc32 => ((onApply length crc32 s.1).2, s.2)
  | .reset => (s.1.reset, s.2)

/-- A run from a new receiver. -/
def run (capacity : UInt32) (events : List Event) :
    FirmwareUpdateState × Transfer :=
  events.foldl step (.new capacity, ⟨[], []⟩)

/-- A write to the DFU area. -/
def perform (dfu : Mem) (w : DfuWriteData) : Mem :=
  patch dfu w.offset.toNat (w.data.toList.take w.len)

def performAll (dfu : Mem) (ws : List DfuWriteData) : Mem :=
  ws.foldl perform dfu

/-- The writes go from `start` to `stop`, each from where the one before it
    ended. -/
def Contiguous : Nat → List DfuWriteData → Nat → Prop
  | start, [], stop => start = stop
  | start, w :: ws, stop =>
      w.offset.toNat = start ∧ Contiguous (start + w.len) ws stop

/-- Byte `i` of the chunks, laid out one behind the other. -/
def chunkByte (accepted : List (UInt16 × Chunk)) (i : Nat) : Option UInt8 :=
  accepted[i / updateChunkBytes]?.map fun c =>
    c.2.get ⟨i % updateChunkBytes, Nat.mod_lt i (by decide)⟩

/-- A write the flash accepts: whole flash words, from the staging buffer, inside
    the area. -/
structure Writable (capacity : Nat) (w : DfuWriteData) : Prop where
  offset : 8 ∣ w.offset.toNat
  len : 8 ∣ w.len
  staged : w.len ≤ updateStageBytes
  fits : w.offset.toNat + w.len ≤ capacity

/-! ## Chunk bytes and writes -/

variable {acc : List (UInt16 × Chunk)} {i : Nat}

theorem chunkByte_append_old (a : UInt16 × Chunk)
    (h : i < updateChunkBytes * acc.length) :
    chunkByte (acc ++ [a]) i = chunkByte acc i := by
  have hdiv : i / updateChunkBytes < acc.length :=
    Nat.div_lt_of_lt_mul h
  rw [chunkByte, chunkByte, List.getElem?_append_left hdiv]

theorem chunkByte_append_new (a : UInt16 × Chunk) {j : Nat}
    (hj : j < updateChunkBytes) :
    chunkByte (acc ++ [a]) (updateChunkBytes * acc.length + j)
      = some (a.2.get ⟨j, hj⟩) := by
  have hdiv : (updateChunkBytes * acc.length + j) / updateChunkBytes
      = acc.length := by
    rw [Nat.mul_add_div (by decide), Nat.div_eq_of_lt hj, Nat.add_zero]
  have hmod : (updateChunkBytes * acc.length + j) % updateChunkBytes = j := by
    rw [Nat.mul_add_mod, Nat.mod_eq_of_lt hj]
  simp only [chunkByte, hdiv, hmod, List.getElem?_append_right (Nat.le_refl _),
    Nat.sub_self, List.getElem?_cons_zero, Option.map_some]

theorem copyFromSlice_old {staged : Vector UInt8 updateStageBytes}
    {chunk : Chunk} {start i : Nat} (hi : i < updateStageBytes)
    (h : i < start) :
    (copyFromSlice staged start chunk)[i] = staged[i] := by
  rw [copyFromSlice, Vector.getElem_ofFn, if_neg (Nat.not_le.mpr h)]

theorem copyFromSlice_new {staged : Vector UInt8 updateStageBytes}
    {chunk : Chunk} {start j : Nat} (hj : j < updateChunkBytes)
    (hi : start + j < updateStageBytes) :
    (copyFromSlice staged start chunk)[start + j] = chunk.get ⟨j, hj⟩ := by
  rw [copyFromSlice, Vector.getElem_ofFn, if_pos (Nat.le_add_right _ _)]
  simp only [Nat.add_sub_cancel_left]
  rw [List.getD_eq_getElem _ _ (by simpa using hj), Vector.getElem_toList]
  rfl

theorem padTail_old {staged : Vector UInt8 updateStageBytes} {start i : Nat}
    (hi : i < updateStageBytes) (h : i < start) :
    (padTail staged start)[i] = staged[i] := by
  rw [padTail, Vector.getElem_ofFn, if_neg (Nat.not_le.mpr h)]

theorem perform_below {dfu : Mem} {w : DfuWriteData} {a : Nat}
    (h : a < w.offset.toNat) : perform dfu w a = dfu a :=
  patch_below h

theorem perform_inside {dfu : Mem} {w : DfuWriteData} {j : Nat}
    (hj : j < w.len) (hs : j < updateStageBytes) :
    perform dfu w (w.offset.toNat + j) = w.data[j] := by
  have hlen : j < (w.data.toList.take w.len).length := by
    rw [List.length_take, Vector.length_toList]
    exact Nat.lt_min.mpr ⟨hj, hs⟩
  rw [perform, patch_inside hlen, List.getElem_take, Vector.getElem_toList]

theorem performAll_append (dfu : Mem) (ws : List DfuWriteData)
    (w : DfuWriteData) :
    performAll dfu (ws ++ [w]) = perform (performAll dfu ws) w :=
  List.foldl_concat ..

/-- A write behind the others: what the writes hold grows by the bytes of the
    write that are known. -/
theorem written_append {writes : List DfuWriteData} {w : DfuWriteData}
    {n : Nat} (hn : n ≤ w.len) (hstage : n ≤ updateStageBytes)
    (hold : ∀ (dfu : Mem) (i : Nat), i < w.offset.toNat →
      chunkByte acc i = some (performAll dfu writes i))
    (hnew : ∀ (j : Nat) (h : j < updateStageBytes), j < n →
      chunkByte acc (w.offset.toNat + j) = some w.data[j]) :
    ∀ (dfu : Mem) (i : Nat), i < w.offset.toNat + n →
      chunkByte acc i = some (performAll dfu (writes ++ [w]) i) := by
  intro dfu i hi
  rw [performAll_append]
  by_cases hlt : i < w.offset.toNat
  · rw [perform_below hlt]
    exact hold dfu i hlt
  · obtain ⟨j, rfl⟩ := Nat.exists_eq_add_of_le (Nat.not_lt.mp hlt)
    have hj : j < n := by omega
    rw [perform_inside (by omega) (by omega)]
    exact hnew j (by omega) hj

theorem Contiguous.append {ws : List DfuWriteData} {w : DfuWriteData} :
    ∀ {start stop : Nat}, Contiguous start ws stop → w.offset.toNat = stop →
      Contiguous start (ws ++ [w]) (stop + w.len) := by
  induction ws with
  | nil =>
      intro start stop h hw
      rw [show start = stop from h]
      exact ⟨hw, rfl⟩
  | cons v ws ih =>
      intro start stop h hw
      exact ⟨h.1, ih h.2 hw⟩

/-! ## The receiver's invariant -/

/-- The limit of the counters: an image has at most this many chunks. -/
def maxChunks : Nat := 65535

/-- **THE INVARIANT** of an active receiver: the accepted counters are `0, 1, ...`,
    the writes hold the bytes before the write offset, the staging buffer those
    behind it, and everything is inside the capacity.  The buffer may be full: it is
    between staging a chunk and emitting a write. -/
structure Staged (s : FirmwareUpdateState) (t : Transfer) : Prop where
  counters : t.accepted.map (fun a => a.1.toNat)
    = List.range t.accepted.length
  next : s.nextCounter.toNat = t.accepted.length
  received : s.writeOffset.toNat + s.stagedLen
    = updateChunkBytes * t.accepted.length
  stage : updateStageBytes ∣ s.writeOffset.toNat
  room : s.stagedLen ≤ updateStageBytes
  fits : updateChunkBytes * t.accepted.length ≤ s.capacity.toNat
  contiguous : Contiguous 0 t.writes s.writeOffset.toNat
  writable : ∀ w ∈ t.writes, Writable s.capacity.toNat w
  staged : ∀ (i : Nat) (h : i < updateStageBytes), i < s.stagedLen →
    chunkByte t.accepted (s.writeOffset.toNat + i) = some s.staged[i]
  written : ∀ (dfu : Mem) (i : Nat), i < s.writeOffset.toNat →
    chunkByte t.accepted i = some (performAll dfu t.writes i)

/-- Between two chunks the buffer is never full. -/
structure Receiving (s : FirmwareUpdateState) (t : Transfer) : Prop
    extends Staged s t where
  short : s.stagedLen < updateStageBytes

/-- The capacity never changes, and an active receiver is receiving. -/
structure Inv (capacity : UInt32) (s : FirmwareUpdateState) (t : Transfer) :
    Prop where
  capacity : s.capacity = capacity
  receiving : s.active = true → Receiving s t

variable {s s' : FirmwareUpdateState} {t : Transfer} {counter : UInt16}
  {chunk : Chunk}

/-- What a chunk can do to the receiver. -/
theorem onData_cases {r : Except FirmwareUpdateFault DataOutcome}
    (h : onData counter chunk s = (r, s')) :
    (r = .ok (.outOfSequence s.expected) ∧ s' = s ∧
      s.outOfOrder counter = true) ∨
    (r = .error .imageTooLarge ∧ s' = (s.begun counter).reset ∧
      s.outOfOrder counter = false ∧
      (s.begun counter).capacity < (s.begun counter).writeOffset
        + UInt32.ofNat ((s.begun counter).stagedLen + updateChunkBytes)) ∨
    (∃ w, r = .ok (.accepted w) ∧ s.outOfOrder counter = false ∧
      ¬ (s.begun counter).capacity < (s.begun counter).writeOffset
        + UInt32.ofNat ((s.begun counter).stagedLen + updateChunkBytes) ∧
      ((s.begun counter).stage counter chunk).emit = (.accepted w, s')) := by
  rw [onData] at h
  by_cases hord : s.outOfOrder counter = true
  · rw [if_pos hord] at h
    obtain ⟨rfl, rfl⟩ := Prod.mk.inj h
    exact Or.inl ⟨rfl, rfl, hord⟩
  rw [if_neg hord] at h
  rw [Bool.not_eq_true] at hord
  dsimp only at h
  split at h
  · rename_i hbig
    obtain ⟨rfl, rfl⟩ := Prod.mk.inj h
    exact Or.inr (Or.inl ⟨rfl, rfl, hord, hbig⟩)
  · rename_i hbig
    obtain ⟨rfl, rfl⟩ := Prod.mk.inj h
    refine Or.inr (Or.inr ?_)
    rw [emit]
    split
    · exact ⟨_, rfl, hord, hbig, rfl⟩
    · exact ⟨_, rfl, hord, hbig, rfl⟩

/-- A chunk is in order when it starts a transfer or continues the one in
    progress. -/
theorem inOrder_iff : s.outOfOrder counter = false ↔
    (counter ≠ 0 → s.active = true ∧ counter = s.nextCounter) := by
  rw [outOfOrder, Bool.and_eq_false_iff, Bool.or_eq_false_iff, bne_eq_false_iff_eq,
    Bool.not_eq_false', bne_eq_false_iff_eq, or_iff_not_imp_left]

/-- A chunk in order belongs to a transfer that is at its counter. -/
theorem begun_receiving
    (h : counter ≠ 0 → Receiving s t ∧ counter = s.nextCounter) :
    Receiving (s.begun counter) (t.begun counter) ∧
      (s.begun counter).nextCounter = counter := by
  by_cases h0 : counter = 0
  · subst h0
    -- a transfer that starts anew has nothing staged and nothing written
    refine ⟨?_, rfl⟩
    exact
      { counters := rfl
        next := rfl
        received := rfl
        stage := Nat.dvd_zero _
        room := Nat.zero_le _
        fits := Nat.zero_le _
        contiguous := rfl
        writable := fun w hw => absurd hw List.not_mem_nil
        staged := fun i _ hi => absurd hi (Nat.not_lt_zero i)
        written := fun _ i hi => absurd hi (Nat.not_lt_zero i)
        short := show 0 < updateStageBytes by decide }
  · rw [begun, if_neg h0, Transfer.begun, if_neg h0]
    exact ⟨(h h0).1, (h h0).2.symm⟩

/-- The capacity test, on numbers. -/
theorem tooLarge_iff (hr : Receiving s t)
    (hcap : s.capacity.toNat ≤ updateChunkBytes * maxChunks) :
    s.capacity < s.writeOffset + UInt32.ofNat (s.stagedLen + updateChunkBytes) ↔
      s.capacity.toNat < updateChunkBytes * (t.accepted.length + 1) := by
  have hrec := hr.received
  have hfits := hr.fits
  simp only [updateChunkBytes, maxChunks] at hrec hfits hcap ⊢
  have hlen : (UInt32.ofNat (s.stagedLen + 6)).toNat = s.stagedLen + 6 :=
    toNat_ofNat_of_lt (by omega)
  rw [UInt32.lt_iff_toNat_lt, toNat_add_of_lt (by rw [hlen]; omega), hlen]
  omega

/-- A chunk that fits the capacity is staged. -/
theorem Receiving.stageChunk (chunk : Chunk) (hr : Receiving s t)
    (hnext : s.nextCounter = counter)
    (hfit : updateChunkBytes * (t.accepted.length + 1) ≤ s.capacity.toNat)
    (hcap : s.capacity.toNat ≤ updateChunkBytes * maxChunks) :
    Staged (s.stage counter chunk)
      ⟨t.accepted ++ [(counter, chunk)], t.writes⟩ := by
  have hrec := hr.received
  have hcounter : counter.toNat = t.accepted.length := by
    rw [← hnext]
    exact hr.next
  have hlen : (t.accepted ++ [(counter, chunk)]).length
      = t.accepted.length + 1 := by simp
  -- the bytes before the chunk are those of the chunks before it
  have hold : ∀ i, i < s.writeOffset.toNat + s.stagedLen →
      chunkByte (t.accepted ++ [(counter, chunk)]) i
        = chunkByte t.accepted i := by
    intro i hi
    exact chunkByte_append_old _ (by omega)
  refine
    { counters := ?_
      next := ?_
      received := ?_
      stage := hr.stage
      room := ?_
      fits := ?_
      contiguous := hr.contiguous
      writable := hr.writable
      staged := ?_
      written := ?_ }
  · rw [List.map_append, hr.counters, hlen, List.range_succ]
    exact congrArg (_ ++ [·]) hcounter
  · show (counter + 1).toNat = _
    rw [hlen, UInt16.toNat_add, hcounter]
    refine Nat.mod_eq_of_lt ?_
    simp only [updateChunkBytes, maxChunks] at hfit hcap
    show t.accepted.length + 1 < 2 ^ 16
    omega
  · show s.writeOffset.toNat + (s.stagedLen + updateChunkBytes) = _
    rw [hlen, ← Nat.add_assoc, hrec]
    rfl
  · -- a stage is a whole number of chunks, so the chunk found room
    have hroom := hr.short
    have hstage := hr.stage
    show s.stagedLen + updateChunkBytes ≤ updateStageBytes
    simp only [updateChunkBytes, updateStageBytes] at hroom hstage hrec ⊢
    omega
  · show updateChunkBytes * (t.accepted ++ [(counter, chunk)]).length
      ≤ s.capacity.toNat
    rw [hlen]
    exact hfit
  · intro i hi hi'
    have hlt' : i < s.stagedLen + updateChunkBytes := hi'
    show chunkByte _ (s.writeOffset.toNat + i)
      = some (copyFromSlice s.staged s.stagedLen chunk)[i]
    by_cases hlt : i < s.stagedLen
    · rw [hold _ (by omega), copyFromSlice_old hi hlt]
      exact hr.staged i hi hlt
    · obtain ⟨j, rfl⟩ := Nat.exists_eq_add_of_le (Nat.not_lt.mp hlt)
      have hj : j < updateChunkBytes := by omega
      rw [copyFromSlice_new hj hi, ← Nat.add_assoc, hrec]
      exact chunkByte_append_new _ hj
  · intro dfu i hi
    have hi' : i < s.writeOffset.toNat := hi
    rw [hold i (by omega)]
    exact hr.written dfu i hi'

/-- A full buffer is emitted as the next write. -/
theorem Staged.emitFull (hs : Staged s t)
    (hcap : s.capacity.toNat ≤ updateChunkBytes * maxChunks)
    (hfull : s.stagedLen = updateStageBytes) :
    Receiving
      { s with
        writeOffset := s.writeOffset + UInt32.ofNat updateStageBytes
        stagedLen := 0 }
      ⟨t.accepted, t.writes ++ [⟨s.writeOffset, updateStageBytes, s.staged⟩]⟩ := by
  -- the full buffer ends where the chunks accepted so far end
  have hend : s.writeOffset.toNat + updateStageBytes
      = updateChunkBytes * t.accepted.length := by
    rw [← hs.received, hfull]
  have hoffset : (s.writeOffset + UInt32.ofNat updateStageBytes).toNat
      = s.writeOffset.toNat + updateStageBytes := by
    have hfits := hs.fits
    rw [toNat_add_of_lt]
    · rfl
    · show s.writeOffset.toNat + updateStageBytes < 2 ^ 32
      simp only [updateChunkBytes, maxChunks] at hend hfits hcap
      omega
  refine
    { counters := hs.counters
      next := hs.next
      received := ?_
      stage := ?_
      room := Nat.zero_le _
      fits := hs.fits
      contiguous := ?_
      writable := ?_
      staged := fun i _ hi => absurd hi (Nat.not_lt_zero i)
      written := ?_
      short := show 0 < updateStageBytes by decide }
  · show (s.writeOffset + UInt32.ofNat updateStageBytes).toNat + 0 = _
    rw [hoffset, Nat.add_zero]
    exact hend
  · show updateStageBytes ∣
      (s.writeOffset + UInt32.ofNat updateStageBytes).toNat
    rw [hoffset]
    exact Nat.dvd_add hs.stage (Nat.dvd_refl _)
  · show Contiguous 0 (t.writes ++ [_])
      (s.writeOffset + UInt32.ofNat updateStageBytes).toNat
    rw [hoffset]
    exact hs.contiguous.append rfl
  · intro v hv
    rcases List.mem_append.mp hv with hv | hv
    · exact hs.writable v hv
    · obtain rfl := List.mem_singleton.mp hv
      refine ⟨Nat.dvd_trans (by decide) hs.stage,
        show 8 ∣ updateStageBytes by decide, Nat.le_refl _, ?_⟩
      show s.writeOffset.toNat + updateStageBytes ≤ s.capacity.toNat
      rw [hend]
      exact hs.fits
  · intro dfu i hi
    have hi' : i < s.writeOffset.toNat + updateStageBytes := by
      rw [← hoffset]
      exact hi
    exact written_append (Nat.le_refl _) (Nat.le_refl _) hs.written
      (fun j hj hj' => hs.staged j hj (by rw [hfull]; exact hj')) dfu i hi'

/-- Any other buffer waits for the next chunk. -/
theorem Staged.emitNone (hs : Staged s t)
    (hshort : s.stagedLen ≠ updateStageBytes) : Receiving s t :=
  ⟨hs, lt_of_le_of_ne hs.room hshort⟩

/-- **STEP LEMMA**: an accepted chunk and the write it completes. -/
theorem accept_receiving (hr : Receiving s t) (hnext : s.nextCounter = counter)
    (hfit : updateChunkBytes * (t.accepted.length + 1) ≤ s.capacity.toNat)
    (hcap : s.capacity.toNat ≤ updateChunkBytes * maxChunks)
    {w : Option DfuWriteData}
    (h : (s.stage counter chunk).emit = (.accepted w, s')) :
    Receiving s' (t.add counter chunk w) := by
  have hstaged := hr.stageChunk chunk hnext hfit hcap
  rw [emit] at h
  by_cases hfull : (s.stage counter chunk).stagedLen = updateStageBytes
  · rw [if_pos hfull] at h
    obtain ⟨hw, rfl⟩ := Prod.mk.inj h
    obtain rfl := DataOutcome.accepted.inj hw
    exact hstaged.emitFull hcap hfull
  · rw [if_neg hfull] at h
    obtain ⟨hw, rfl⟩ := Prod.mk.inj h
    obtain rfl := DataOutcome.accepted.inj hw
    have hnone : t.add counter chunk none
        = ⟨t.accepted ++ [(counter, chunk)], t.writes⟩ :=
      congrArg (Transfer.mk _) (List.append_nil _)
    rw [hnone]
    exact hstaged.emitNone hfull

theorem reset_inv {capacity : UInt32} (hI : Inv capacity s t) :
    Inv capacity s.reset t :=
  ⟨hI.capacity, fun h => nomatch h⟩

theorem begun_capacity (s : FirmwareUpdateState) (counter : UInt16) :
    (s.begun counter).capacity = s.capacity := by
  rw [begun]
  split <;> rfl

theorem emit_frame {o : DataOutcome} (h : s.emit = (o, s')) :
    s'.capacity = s.capacity ∧ s'.active = s.active := by
  rw [emit] at h
  split at h
  · rw [← (Prod.mk.inj h).2]
    exact ⟨rfl, rfl⟩
  · rw [← (Prod.mk.inj h).2]
    exact ⟨rfl, rfl⟩

/-- Every event keeps the invariant. -/
theorem step_inv {capacity : UInt32}
    (hcap : capacity.toNat ≤ updateChunkBytes * maxChunks)
    {st : FirmwareUpdateState × Transfer} (hI : Inv capacity st.1 st.2)
    (e : Event) : Inv capacity (step st e).1 (step st e).2 := by
  cases e with
  | reset => exact reset_inv hI
  | apply length crc32 =>
      show Inv capacity (onApply length crc32 st.1).2 st.2
      rw [onApply]
      split
      · exact reset_inv hI
      · exact reset_inv hI
  | data counter chunk =>
      show Inv capacity (onData counter chunk st.1).2
        (st.2.observe counter chunk (onData counter chunk st.1).1)
      have hbegun := begun_capacity st.1 counter
      rcases hrun : onData counter chunk st.1 with ⟨r, s'⟩
      rcases onData_cases hrun with ⟨rfl, rfl, -⟩ | ⟨rfl, rfl, -⟩ |
        ⟨w, rfl, hord, hsmall, hemit⟩
      · exact hI
      · exact ⟨hbegun.trans hI.capacity, fun h => nomatch h⟩
      -- in order: the transfer is at the counter, and the chunk fits
      · obtain ⟨hr, hnext⟩ := begun_receiving (fun h0 =>
          ⟨hI.receiving (inOrder_iff.mp hord h0).1, (inOrder_iff.mp hord h0).2⟩)
        have hcap' : (st.1.begun counter).capacity.toNat
            ≤ updateChunkBytes * maxChunks := by
          rw [hbegun, hI.capacity]
          exact hcap
        have hfit := Nat.not_lt.mp (mt (tooLarge_iff hr hcap').mpr hsmall)
        refine ⟨?_, fun _ => accept_receiving hr hnext hfit hcap' hemit⟩
        exact ((emit_frame hemit).1.trans hbegun).trans hI.capacity

/-- **RUN LEMMA**: so does every run. -/
theorem run_inv {capacity : UInt32}
    (hcap : capacity.toNat ≤ updateChunkBytes * maxChunks)
    (events : List Event) :
    Inv capacity (run capacity events).1 (run capacity events).2 :=
  EventRun.run_keeps (I := fun st => Inv capacity st.1 st.2) (A := fun _ => True)
    (fun _ e _ hI => step_inv hcap hI e) events (.new capacity, ⟨[], []⟩)
    (fun _ _ => trivial) ⟨rfl, fun h => nomatch h⟩

/-! ## A successful apply -/

theorem nextMultipleOf_eight {x : UInt32} (hx : x.toNat + 8 ≤ 2 ^ 32) :
    (nextMultipleOf x 8).toNat = (x.toNat + 7) / 8 * 8 := by
  have h8 : (8 : UInt32).toNat = 8 := rfl
  have hmod : (x % 8).toNat = x.toNat % 8 := by rw [UInt32.toNat_mod, h8]
  have hzero : x % 8 = 0 ↔ x.toNat % 8 = 0 := by
    rw [← UInt32.toNat_inj, hmod]
    rfl
  rw [nextMultipleOf]
  by_cases h : x % 8 = 0
  · rw [if_pos h]
    have := hzero.mp h
    omega
  · rw [if_neg h]
    have hne : x.toNat % 8 ≠ 0 := fun he => h (hzero.mpr he)
    have hsub : (8 - x % 8).toNat = 8 - x.toNat % 8 := by
      rw [UInt32.toNat_sub_of_le _ _ (by
        rw [UInt32.le_iff_toNat_le, hmod, h8]
        omega), hmod, h8]
    rw [toNat_add_of_lt (by rw [hsub]; omega), hsub]
    omega

/-- What the completeness test says of an active receiver. -/
theorem complete_iff (hr : Receiving s t)
    (hcap : s.capacity.toNat ≤ updateChunkBytes * maxChunks) (length : UInt32) :
    s.complete length = true ↔ s.active = true ∧ 0 < length.toNat ∧
      length.toNat ≤ updateChunkBytes * t.accepted.length ∧
      updateChunkBytes * t.accepted.length < length.toNat + updateChunkBytes := by
  have hrec := hr.received
  have hfits := hr.fits
  have hsum : s.received.toNat = updateChunkBytes * t.accepted.length := by
    rw [← hrec]
    simp only [updateChunkBytes, maxChunks] at hrec hfits hcap
    have hlen : (UInt32.ofNat s.stagedLen).toNat = s.stagedLen :=
      toNat_ofNat_of_lt (by omega)
    rw [received, toNat_add_of_lt (by rw [hlen]; omega), hlen]
  have hsix : (UInt32.ofNat updateChunkBytes).toNat = updateChunkBytes := rfl
  have hzero : (0 : UInt32).toNat = 0 := rfl
  simp only [complete, Bool.and_eq_true, decide_eq_true_eq, gt_iff_lt,
    UInt32.lt_iff_toNat_lt, UInt32.le_iff_toNat_le, hsum, hsix, hzero, and_assoc]
  refine and_congr_right (fun _ => and_congr_right (fun _ =>
    and_congr_right (fun hle => ?_)))
  rw [UInt32.toNat_sub_of_le _ _ (by
    rw [UInt32.le_iff_toNat_le, hsum]
    exact hle), hsum]
  omega

/-- The flush of what is still staged completes the image. -/
theorem flush_spec (hr : Receiving s t) (h8 : 8 ∣ s.capacity.toNat)
    {length : UInt32}
    (hle : length.toNat ≤ updateChunkBytes * t.accepted.length)
    (hlast : updateChunkBytes * t.accepted.length
      < length.toNat + updateChunkBytes) :
    (∃ stop, Contiguous 0 (t.writes ++ (s.flush length).toList) stop) ∧
      (∀ w ∈ t.writes ++ (s.flush length).toList,
        Writable s.capacity.toNat w) ∧
      ∀ (dfu : Mem) (i : Nat), i < length.toNat → chunkByte t.accepted i
        = some (performAll dfu (t.writes ++ (s.flush length).toList) i) := by
  have hrec := hr.received
  have hstage := hr.stage
  have hroom := hr.short
  have hfits := hr.fits
  simp only [updateChunkBytes, updateStageBytes]
    at hrec hstage hroom hfits hle hlast
  rw [flush]
  by_cases hsome : 0 < s.stagedLen
  · rw [if_pos hsome]
    -- a staged chunk is six bytes, so the image ends behind the write offset
    have hdiff : (length - s.writeOffset).toNat
        = length.toNat - s.writeOffset.toNat :=
      UInt32.toNat_sub_of_le _ _ (by
        rw [UInt32.le_iff_toNat_le]
        omega)
    have hlen : (nextMultipleOf (length - s.writeOffset) 8).toNat
        = (length.toNat - s.writeOffset.toNat + 7) / 8 * 8 := by
      rw [nextMultipleOf_eight (by rw [hdiff]; omega), hdiff]
    rw [hlen]
    refine ⟨⟨_, hr.contiguous.append rfl⟩, ?_, ?_⟩
    · intro w hw
      rcases List.mem_append.mp hw with hw | hw
      · exact hr.writable w hw
      · obtain rfl := List.mem_singleton.mp hw
        refine ⟨Nat.dvd_trans (by decide) hstage, Nat.dvd_mul_left _ _, ?_, ?_⟩
        · simp only [updateStageBytes]
          omega
        · simp only
          omega
    · intro dfu i hi
      refine written_append (n := length.toNat - s.writeOffset.toNat) ?_ ?_
        hr.written ?_ dfu i ?_
      · simp only
        omega
      · simp only [updateStageBytes]
        omega
      · intro j hj hj'
        have hlt : j < s.stagedLen := by omega
        exact (hr.staged j hj hlt).trans
          (congrArg some (padTail_old hj hlt).symm)
      · simp only
        omega
  · rw [if_neg hsome]
    -- with nothing staged the writes so far are the image
    have hnone : t.writes ++ (none : Option DfuWriteData).toList = t.writes :=
      List.append_nil _
    rw [hnone]
    refine ⟨⟨_, hr.contiguous⟩, hr.writable, ?_⟩
    intro dfu i hi
    exact hr.written dfu i (by omega)

/-- **THE IMAGE ARRIVES**: after any run, an apply that succeeds has accepted
    counters `0, 1, ...` for as many chunks as the image has, and performing the
    writes since, with the flush, leaves the chunks' bytes in the DFU area. -/
theorem applied_image {capacity : UInt32} (h8 : 8 ∣ capacity.toNat)
    (hcap : capacity.toNat ≤ 6 * 65535) (events : List Event)
    {length crc32 : UInt32} {flushed : Option DfuWriteData}
    {verification : DfuVerification} {s' : FirmwareUpdateState}
    (happly : onApply length crc32 (run capacity events).1
      = (.ok (flushed, verification), s')) :
    let t := (run capacity events).2
    let writes := t.writes ++ flushed.toList
    t.accepted.map (fun a => a.1.toNat) = List.range t.accepted.length ∧
      t.accepted.length = (length.toNat + 5) / 6 ∧
      (∃ stop, Contiguous 0 writes stop) ∧
      (∀ w ∈ writes, Writable capacity.toNat w) ∧
      ∀ (dfu : Mem) (i : Nat), i < length.toNat →
        chunkByte t.accepted i = some (performAll dfu writes i) := by
  have hI := run_inv hcap events
  rw [onApply] at happly
  by_cases hcomplete : (run capacity events).1.complete length = true
  · rw [if_pos hcomplete] at happly
    obtain ⟨hok, -⟩ := Prod.mk.inj happly
    obtain ⟨rfl, -⟩ := Prod.mk.inj (Except.ok.inj hok)
    have hactive : (run capacity events).1.active = true := by
      simp only [complete, Bool.and_eq_true] at hcomplete
      exact hcomplete.1.1.1
    have hr := hI.receiving hactive
    have hcap' := hcap
    rw [← hI.capacity] at hcap' h8
    obtain ⟨-, hpos, hle, hlast⟩ := (complete_iff hr hcap' length).mp hcomplete
    obtain ⟨hcont, hwritable, hbytes⟩ := flush_spec hr h8 hle hlast
    rw [hI.capacity] at hwritable
    refine ⟨hr.counters, ?_, hcont, hwritable, hbytes⟩
    simp only [updateChunkBytes] at hle hlast
    omega
  · rw [if_neg hcomplete] at happly
    exact nomatch (Prod.mk.inj happly).1

/-- Six bytes of the same value. -/
def filled (b : UInt8) : Chunk := Vector.replicate updateChunkBytes b

/-- A transfer abandoned, restarted, with a lost and a repeated chunk. -/
def restartedRun : List Event :=
  [.data 0 (filled 9), .data 2 (filled 9), .apply 13 0, .data 1 (filled 9),
    .data 0 (filled 1), .data 1 (filled 2), .data 3 (filled 9),
    .data 1 (filled 9), .data 2 (filled 3), .data 3 (filled 4),
    .data 4 (filled 5)]

theorem applied_image_restartedRun :
    let t := (run 48 restartedRun).2
    let writes := t.writes ++ ((run 48 restartedRun).1.flush 27).toList
    t.accepted.map (fun a => a.1.toNat) = List.range t.accepted.length ∧
      t.accepted.length = 5 ∧ (∃ stop, Contiguous 0 writes stop) ∧
      (∀ w ∈ writes, Writable 48 w) ∧
      ∀ (dfu : Mem) (i : Nat), i < 27 →
        chunkByte t.accepted i = some (performAll dfu writes i) :=
  applied_image (by decide) (by decide) restartedRun
    (show onApply 27 0 (run 48 restartedRun).1
      = (.ok ((run 48 restartedRun).1.flush 27, ⟨27, 0⟩), _) from by rfl)

/-! ## Whole transfers -/

/-- Send chunks in order, from a counter on: the state the receiver ends in, if
    it accepts every one of them. -/
def sendAll : Nat → List Chunk → FirmwareUpdateState → Option FirmwareUpdateState
  | _, [], s => some s
  | counter, chunk :: chunks, s =>
      match onData (UInt16.ofNat counter) chunk s with
      | (.ok (.accepted _), s') => sendAll (counter + 1) chunks s'
      | _ => none

/-- The receiver accepts the chunks of an image in order and applies it. -/
def Transfers (s : FirmwareUpdateState) (chunks : List Chunk)
    (length crc32 : UInt32) : Prop :=
  ∃ s', sendAll 0 chunks s = some s' ∧
    ∃ applied, (onApply length crc32 s').1 = .ok applied

/-- The receiver has taken the chunks below counter `k`. -/
def AtChunk (capacity : UInt32) (k : Nat) (s : FirmwareUpdateState) : Prop :=
  s.capacity = capacity ∧
    (0 < k → s.active = true ∧ ∃ t, Receiving s t ∧ t.accepted.length = k)

/-- **STEP LEMMA**: the next chunk is accepted exactly when all of it is inside
    the capacity. -/
theorem onData_next {capacity : UInt32}
    (hcap : capacity.toNat ≤ updateChunkBytes * maxChunks) {k : Nat}
    (hk : k ≤ maxChunks) (hs : AtChunk capacity k s) (chunk : Chunk) :
    if updateChunkBytes * (k + 1) ≤ capacity.toNat then
      ∃ w s', onData (UInt16.ofNat k) chunk s = (.ok (.accepted w), s') ∧
        AtChunk capacity (k + 1) s'
    else
      ∃ s', onData (UInt16.ofNat k) chunk s = (.error .imageTooLarge, s') := by
  have hkk : (UInt16.ofNat k).toNat = k := by
    rw [UInt16.toNat_ofNat']
    refine Nat.mod_eq_of_lt ?_
    simp only [maxChunks] at hk
    omega
  obtain ⟨t, ht⟩ : ∃ t, UInt16.ofNat k ≠ 0 →
      s.active = true ∧ Receiving s t ∧ UInt16.ofNat k = s.nextCounter ∧
        t.accepted.length = k := by
    by_cases hpos : 0 < k
    · obtain ⟨hactive, t, hr, hlen⟩ := hs.2 hpos
      refine ⟨t, fun _ => ⟨hactive, hr, ?_, hlen⟩⟩
      rw [← UInt16.toNat_inj, hkk, hr.next, hlen]
    · refine ⟨⟨[], []⟩, fun h => absurd ?_ h⟩
      rw [Nat.eq_zero_of_not_pos hpos]
      rfl
  have hord : s.outOfOrder (UInt16.ofNat k) = false :=
    inOrder_iff.mpr (fun h => ⟨(ht h).1, (ht h).2.2.1⟩)
  obtain ⟨hr, hnext⟩ := begun_receiving (fun h => ⟨(ht h).2.1, (ht h).2.2.1⟩)
  have hlen : (t.begun (UInt16.ofNat k)).accepted.length = k := by
    rw [← hr.next, hnext, hkk]
  have hbegun := begun_capacity s (UInt16.ofNat k)
  have hcap' : (s.begun (UInt16.ofNat k)).capacity.toNat
      ≤ updateChunkBytes * maxChunks := by
    rw [hbegun, hs.1]
    exact hcap
  have hlarge := tooLarge_iff hr hcap'
  rw [hlen, hbegun, hs.1] at hlarge
  rcases hrun : onData (UInt16.ofNat k) chunk s with ⟨r, s'⟩
  rcases onData_cases hrun with ⟨-, -, hout⟩ | ⟨rfl, -, -, hbig⟩ |
    ⟨w, rfl, -, hsmall, hemit⟩
  · rw [hord] at hout
    exact nomatch hout
  · rw [hbegun, hs.1] at hbig
    rw [if_neg (Nat.not_le.mpr (hlarge.mp hbig))]
    exact ⟨s', rfl⟩
  · rw [hbegun, hs.1] at hsmall
    have hfit := Nat.not_lt.mp (mt hlarge.mpr hsmall)
    rw [if_pos hfit]
    have hr' := accept_receiving hr hnext (by
      rw [hlen, hbegun, hs.1]
      exact hfit) hcap' hemit
    obtain ⟨hcapacity, hactive⟩ := emit_frame hemit
    refine ⟨w, s', rfl, (hcapacity.trans hbegun).trans hs.1, fun _ =>
      ⟨hactive.trans ?_, _, hr', ?_⟩⟩
    · show (s.begun (UInt16.ofNat k)).active = true
      rw [begun]
      split
      · rfl
      · rename_i h0
        exact (ht h0).1
    · show (_ ++ [_]).length = k + 1
      rw [List.length_append, hlen]
      rfl

/-- **RUN LEMMA**: so is a list of chunks. -/
theorem sendAll_spec {capacity : UInt32}
    (hcap : capacity.toNat ≤ updateChunkBytes * maxChunks) :
    ∀ (chunks : List Chunk) (k : Nat) (s : FirmwareUpdateState),
      updateChunkBytes * k ≤ capacity.toNat → AtChunk capacity k s →
      if updateChunkBytes * (k + chunks.length) ≤ capacity.toNat then
        ∃ s', sendAll k chunks s = some s' ∧
          AtChunk capacity (k + chunks.length) s'
      else sendAll k chunks s = none := by
  intro chunks
  induction chunks with
  | nil =>
      intro k s hk hs
      rw [List.length_nil, Nat.add_zero, if_pos hk]
      exact ⟨s, rfl, hs⟩
  | cons chunk chunks ih =>
      intro k s hk hs
      have hmax : k ≤ maxChunks :=
        Nat.le_of_mul_le_mul_left (Nat.le_trans hk hcap) (by decide)
      have hnext := onData_next hcap hmax hs chunk
      have hsum : k + (chunk :: chunks).length = k + 1 + chunks.length := by
        rw [List.length_cons]
        omega
      rw [hsum]
      by_cases hfit : updateChunkBytes * (k + 1) ≤ capacity.toNat
      · rw [if_pos hfit] at hnext
        obtain ⟨w, s', hrun, hs'⟩ := hnext
        have hsend : sendAll k (chunk :: chunks) s
            = sendAll (k + 1) chunks s' := by
          rw [sendAll, hrun]
        rw [hsend]
        exact ih (k + 1) s' hfit hs'
      · rw [if_neg hfit] at hnext
        obtain ⟨s', hrun⟩ := hnext
        rw [if_neg (by
          intro hle
          exact hfit (Nat.le_trans (Nat.mul_le_mul_left _ (by omega)) hle)),
          sendAll, hrun]

/-- A transfer of `n` chunks, each of them part of the image, completes exactly
    when all of them are inside the capacity. -/
theorem transfers_iff_fit {capacity : UInt32}
    (hcap : capacity.toNat ≤ updateChunkBytes * maxChunks)
    (hs : s.capacity = capacity) {length : UInt32} (crc32 : UInt32)
    (hpos : 0 < length.toNat) {chunks : List Chunk}
    (hchunks : chunks.length = (length.toNat + 5) / 6) :
    Transfers s chunks length crc32 ↔
      updateChunkBytes * chunks.length ≤ capacity.toNat := by
  have hspec := sendAll_spec hcap chunks 0 s (Nat.zero_le _)
    ⟨hs, fun h => absurd h (Nat.lt_irrefl 0)⟩
  rw [Nat.zero_add] at hspec
  by_cases hfit : updateChunkBytes * chunks.length ≤ capacity.toNat
  · rw [if_pos hfit] at hspec
    obtain ⟨s', hsend, hcapacity, hs'⟩ := hspec
    obtain ⟨hactive, t, hr, hlen⟩ := hs' (by omega)
    have hcomplete : s'.complete length = true := by
      rw [complete_iff hr (by rw [hcapacity]; exact hcap), hlen]
      refine ⟨hactive, hpos, ?_, ?_⟩
      · simp only [updateChunkBytes]
        omega
      · simp only [updateChunkBytes]
        omega
    refine iff_of_true ⟨s', hsend, (s'.flush length, ⟨length, crc32⟩), ?_⟩ hfit
    rw [onApply, if_pos hcomplete]
  · rw [if_neg hfit] at hspec
    refine iff_of_false ?_ hfit
    rintro ⟨s', hsend, -⟩
    rw [hspec] at hsend
    exact nomatch hsend

/-- **WHICH IMAGES GO THROUGH**: the chunks of an image are accepted and applied
    exactly when its length, rounded up to whole chunks, is inside the
    capacity. -/
theorem transfer_completes_iff {capacity : UInt32}
    (hcap : capacity.toNat ≤ 6 * 65535) (s : FirmwareUpdateState)
    (hs : s.capacity = capacity) (length crc32 : UInt32)
    (hpos : 1 ≤ length.toNat) (chunks : List Chunk)
    (hchunks : chunks.length = (length.toNat + 5) / 6) :
    Transfers s chunks length crc32 ↔
      6 * ((length.toNat + 5) / 6) ≤ capacity.toNat := by
  rw [transfers_iff_fit hcap hs crc32 hpos hchunks, hchunks]
  rfl

theorem transfer_completes_iff_page :
    Transfers (.new 2048) (List.replicate 341 (filled 0)) 2046 0 ↔
      6 * ((2046 + 5) / 6) ≤ 2048 :=
  transfer_completes_iff (by decide) (.new 2048) rfl 2046 0 (by decide) _
    (by rw [List.length_replicate]; rfl)

/-- An image of exactly the board's capacity, 118 pages, is rejected. -/
theorem full_image_rejected :
    ¬ Transfers (.new 241664) (List.replicate 40278 (filled 0)) 241664 0 := by
  have hcap : (241664 : UInt32).toNat ≤ updateChunkBytes * maxChunks := by decide
  rw [transfers_iff_fit hcap rfl 0 (by decide)
    (by rw [List.length_replicate]; rfl), List.length_replicate]
  decide

end UpdateProofs
