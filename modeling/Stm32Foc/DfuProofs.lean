import Stm32Foc.Dfu
import Stm32Foc.UpdateProofs

/-! # Updates and the words of the flash

    What the receiver writes is put on a flash that knows which bytes were
    programmed since their last erase, and that may fail at any operation and then
    hold anything.  `Allowed` says what an operation of a transfer may do; the log
    of every transfer consists of allowed operations (`log_legal`).  `Reached`
    carries it: how far the transfer has written, and how far it has erased. -/

namespace DfuProofs

open ActionLogic ByteMemory WireBytes Update Update.FirmwareUpdateState Faults Dfu

/-! ## The flash -/

/-- What the flash holds: its bytes, and which of them were programmed since they
    were last erased. -/
structure Content where
  bytes : Mem
  programmed : Nat → Bool

def Content.erase (content : Content) (start stop : Nat) : Content where
  bytes := ByteMemory.erase content.bytes start stop
  programmed a := if start ≤ a ∧ a < stop then false else content.programmed a

def Content.program (content : Content) (offset : Nat) (bytes : List UInt8) :
    Content where
  bytes := patch content.bytes offset bytes
  programmed a :=
    if offset ≤ a ∧ a < offset + bytes.length then true else content.programmed a

/-- The range is erased, and no byte of it was programmed since. -/
def Content.Blank (content : Content) (start stop : Nat) : Prop :=
  ∀ a, start ≤ a → a < stop →
    content.bytes a = erasedByte ∧ content.programmed a = false

inductive FlashOp where
  | erase (start stop : Nat)
  | write (offset : Nat) (bytes : List UInt8)
  deriving DecidableEq

/-- What the flash holds after an operation. -/
def FlashOp.effect (content : Content) : FlashOp → Content
  | .erase start stop => content.erase start stop
  | .write offset bytes => content.program offset bytes

/-- A flash that has been asked to do something it failed at. -/
inductive FlashError where
  | failed

/-- The flash, with what it leaves behind at the operations to come that fail, and
    the log of the transfer: its operations and what each found. -/
structure Chip where
  content : Content
  failures : List (Option Content)
  log : List (Content × FlashOp)

/-- The flash is asked for an operation. -/
def Chip.attempt (op : FlashOp) : Act Chip FlashError Unit := fun chip =>
  let log := chip.log ++ [(chip.content, op)]
  match chip.failures with
  | some left :: failures => (.error .failed, ⟨left, failures, log⟩)
  | none :: failures => (.ok (), ⟨op.effect chip.content, failures, log⟩)
  | [] => (.ok (), ⟨op.effect chip.content, [], log⟩)

instance : BlockingFlash Chip FlashError where
  blockingErase start stop := Chip.attempt (.erase start stop)
  blockingWrite offset bytes := Chip.attempt (.write offset bytes)

/-! ## What an operation may do -/

variable (area : DfuArea)

/-- The erase of one page of the area. -/
def erasePage (page : Nat) : FlashOp :=
  .erase (area.dfuOffset + page * area.pageSize)
    (area.dfuOffset + page * area.pageSize + area.pageSize)

/-- What an operation of a transfer may do after the `earlier` ones, on the flash it
    finds: an erase takes one page of the area, once, and no byte of it is written
    yet; a write programs whole words of the area, all of them blank, on pages that
    were erased once. -/
def Allowed (earlier : List FlashOp) (found : Content) : FlashOp → Prop
  | .erase start stop =>
      (∃ page, .erase start stop = erasePage area page) ∧
        area.dfuOffset ≤ start ∧ stop ≤ area.stop ∧
        .erase start stop ∉ earlier ∧
        ∀ offset bytes, .write offset bytes ∈ earlier →
          offset + bytes.length ≤ start ∨ stop ≤ offset
  | .write offset bytes =>
      (8 ∣ offset ∧ 8 ∣ bytes.length) ∧
        area.dfuOffset ≤ offset ∧ offset + bytes.length ≤ area.stop ∧
        found.Blank offset (offset + bytes.length) ∧
        ∀ page, area.dfuOffset + page * area.pageSize < offset + bytes.length →
          offset < area.dfuOffset + page * area.pageSize + area.pageSize →
          earlier.count (erasePage area page) = 1

/-- The operations of a log. -/
def ops (log : List (Content × FlashOp)) : List FlashOp := log.map Prod.snd

/-- Every operation of a log was allowed when it was attempted. -/
inductive Legal : List (Content × FlashOp) → Prop
  | start : Legal []
  | next {log : List (Content × FlashOp)} {found : Content} {op : FlashOp} :
      Legal log → Allowed area (ops log) found op → Legal (log ++ [(found, op)])

/-! ## How far a transfer is -/

/-- **THE INVARIANT** of a transfer: `written` bytes of the area are written, the
    pages before `erased` are erased, each once, and what of them is not written
    is blank. -/
structure Reached (written erased : Nat) (chip : Chip) : Prop where
  legal : Legal area chip.log
  aligned : area.pageSize ∣ erased
  le : written ≤ erased
  blank : chip.content.Blank (area.dfuOffset + written) (area.dfuOffset + erased)
  once : ∀ page, page * area.pageSize < erased →
    (ops chip.log).count (erasePage area page) = 1
  fresh : ∀ page, erased ≤ page * area.pageSize → erasePage area page ∉ ops chip.log
  behind : ∀ offset bytes, .write offset bytes ∈ ops chip.log →
    offset + bytes.length ≤ area.dfuOffset + written

variable {area} {chip : Chip} {written erased : Nat}

theorem ops_snoc (log : List (Content × FlashOp)) (found : Content) (op : FlashOp) :
    ops (log ++ [(found, op)]) = ops log ++ [op] :=
  List.map_append

/-- What an operation leaves that goes through. -/
def Chip.after (chip : Chip) (op : FlashOp) : Chip where
  content := op.effect chip.content
  failures := chip.failures.tail
  log := chip.log ++ [(chip.content, op)]

/-- **OPERATION RULE**: an allowed operation leaves its effect, or fails and leaves
    anything; the log stays legal either way. -/
theorem attempt_spec {op : FlashOp} {P Q : Chip → Prop}
    (hallowed : ∀ chip, P chip →
      Legal area chip.log ∧ Allowed area (ops chip.log) chip.content op)
    (hafter : ∀ chip, P chip → Q (chip.after op)) :
    Spec P ((Chip.attempt op).mapErr (fun _ => MemoryFault.flashInternalFault))
      (fun _ => Q) (fun _ chip => Legal area chip.log) := by
  intro chip hchip
  have hlegal : Legal area (chip.log ++ [(chip.content, op)]) :=
    .next (hallowed chip hchip).1 (hallowed chip hchip).2
  have hdone := hafter chip hchip
  obtain ⟨content, failures, log⟩ := chip
  rw [mapErr_run]
  -- no failure is due, or one that spares this operation, or one that hits it
  rcases failures with _ | ⟨_ | left, failures⟩
  · constructor
    · intro _ chip' h
      obtain ⟨-, rfl⟩ := Prod.mk.inj h
      exact hdone
    · intro _ _ h
      cases (Prod.mk.inj h).1
  · constructor
    · intro _ chip' h
      obtain ⟨-, rfl⟩ := Prod.mk.inj h
      exact hdone
    · intro _ _ h
      cases (Prod.mk.inj h).1
  · constructor
    · intro _ _ h
      cases (Prod.mk.inj h).1
    · intro _ chip' h
      obtain ⟨-, rfl⟩ := Prod.mk.inj h
      exact hlegal

theorem erase_blank {content : Content} {start stop from' until' : Nat}
    (h : content.Blank from' until') :
    (content.erase start stop).Blank from' until' := by
  intro a hlow hhigh
  obtain ⟨hbytes, hprogrammed⟩ := h a hlow hhigh
  show ByteMemory.erase content.bytes start stop a = erasedByte ∧
    (if start ≤ a ∧ a < stop then false else content.programmed a) = false
  by_cases hin : start ≤ a ∧ a < stop
  · rw [if_pos hin]
    exact ⟨erase_inside hin.1 hin.2, rfl⟩
  · rw [if_neg hin, erase_outside (by omega)]
    exact ⟨hbytes, hprogrammed⟩

/-- An erased range joins the blank one in front of it. -/
theorem blank_erase {content : Content} {start middle stop : Nat}
    (h : content.Blank start middle) :
    (content.erase middle stop).Blank start stop := by
  intro a hlow hhigh
  by_cases ha : a < middle
  · exact erase_blank h a hlow ha
  · have hin : middle ≤ a ∧ a < stop := ⟨Nat.not_lt.mp ha, hhigh⟩
    refine ⟨erase_inside hin.1 hin.2, ?_⟩
    show (if middle ≤ a ∧ a < stop then false else content.programmed a) = false
    rw [if_pos hin]

/-- What is programmed leaves the range behind it blank. -/
theorem blank_program {content : Content} {start stop : Nat} {bytes : List UInt8}
    (h : content.Blank start stop) :
    (content.program start bytes).Blank (start + bytes.length) stop := by
  intro a hlow hhigh
  obtain ⟨hbytes, hprogrammed⟩ := h a (by omega) hhigh
  constructor
  · exact (patch_above hlow).trans hbytes
  · show (if start ≤ a ∧ a < start + bytes.length then true
      else content.programmed a) = false
    rw [if_neg (by omega)]
    exact hprogrammed

theorem erasePage_inj {page page' : Nat} :
    erasePage area page = erasePage area page' ↔ page = page' := by
  constructor
  · intro h
    obtain ⟨hstart, -⟩ := FlashOp.erase.inj h
    exact Nat.eq_of_mul_eq_mul_right area.pageSize_pos (Nat.add_left_cancel hstart)
  · rintro rfl
    rfl

theorem count_erasePage_snoc (earlier : List FlashOp) (page page' : Nat) :
    (earlier ++ [erasePage area page']).count (erasePage area page)
      = earlier.count (erasePage area page) + if page' = page then 1 else 0 := by
  rw [List.count_append, List.count_singleton]
  simp only [beq_iff_eq, erasePage_inj]

/-- **PAGE STEP**: the next page is erased. -/
theorem Reached.eraseNext {page : Nat} (hpage : erased = page * area.pageSize)
    (hroom : erased + area.pageSize ≤ area.firmwareSize.toNat)
    (h : Reached area written erased chip) :
    Allowed area (ops chip.log) chip.content (erasePage area page) ∧
      Reached area written (erased + area.pageSize)
        (chip.after (erasePage area page)) := by
  have hpos := area.pageSize_pos
  have hallowed : Allowed area (ops chip.log) chip.content (erasePage area page) := by
    refine ⟨⟨page, rfl⟩, Nat.le_add_right _ _, ?_, h.fresh page (Nat.le_of_eq hpage),
      ?_⟩
    · rw [DfuArea.stop, ← hpage, Nat.add_assoc]
      exact Nat.add_le_add_left hroom _
    -- what is written lies behind the pages that are erased, so before this one
    · intro offset bytes hmem
      have hle := h.le
      have hbehind := h.behind offset bytes hmem
      exact Or.inl (by omega)
  refine ⟨hallowed, ?_⟩
  have hops : ops (chip.after (erasePage area page)).log
      = ops chip.log ++ [erasePage area page] := ops_snoc _ _ _
  exact
    { legal := .next h.legal hallowed
      aligned := Nat.dvd_add h.aligned (Nat.dvd_refl _)
      le := Nat.le_trans h.le (Nat.le_add_right _ _)
      blank := by
        show (chip.content.erase _ _).Blank _ _
        rw [← hpage, ← Nat.add_assoc]
        exact blank_erase h.blank
      once := by
        intro other hother
        rw [hops, count_erasePage_snoc]
        by_cases hlt : other * area.pageSize < erased
        · have hne : page ≠ other := by
            rintro rfl
            omega
          rw [h.once other hlt, if_neg hne]
        · -- the page that was erased just now
          have hsame : page = other := by
            have hlow : page ≤ other :=
              Nat.le_of_mul_le_mul_right (by omega) hpos
            have hhigh : other < page + 1 := by
              refine Nat.lt_of_mul_lt_mul_right (a := area.pageSize) ?_
              rw [Nat.succ_mul]
              omega
            omega
          have hzero := List.count_eq_zero.mpr (h.fresh other (Nat.not_lt.mp hlt))
          rw [hzero, if_pos hsame]
      fresh := by
        intro other hother hmem
        rw [hops, List.mem_append, List.mem_singleton, erasePage_inj] at hmem
        rcases hmem with hmem | rfl
        · exact h.fresh other (by omega) hmem
        · omega
      behind := by
        intro offset bytes hmem
        rw [hops, List.mem_append, List.mem_singleton] at hmem
        rcases hmem with hmem | hmem
        · exact h.behind offset bytes hmem
        · cases hmem }

/-- **WRITE STEP**: whole words are written to what is erased. -/
theorem Reached.writeNext {bytes : List UInt8} (hwritten : 8 ∣ written)
    (hlen : 8 ∣ bytes.length) (herased : written + bytes.length ≤ erased)
    (hfits : written + bytes.length ≤ area.firmwareSize.toNat)
    (h : Reached area written erased chip) :
    Allowed area (ops chip.log) chip.content
        (.write (area.dfuOffset + written) bytes) ∧
      Reached area (written + bytes.length) erased
        (chip.after (.write (area.dfuOffset + written) bytes)) := by
  have hallowed : Allowed area (ops chip.log) chip.content
      (.write (area.dfuOffset + written) bytes) := by
    refine ⟨⟨?_, hlen⟩, Nat.le_add_right _ _, ?_, ?_, ?_⟩
    · exact Nat.dvd_add (Nat.dvd_trans area.words area.aligned) hwritten
    · rw [DfuArea.stop, Nat.add_assoc]
      exact Nat.add_le_add_left hfits _
    -- the write stays inside what is erased and not yet written
    · intro a hlow hhigh
      exact h.blank a hlow (by omega)
    · intro page hlow _
      exact h.once page (by omega)
  refine ⟨hallowed, ?_⟩
  have hops : ops (chip.after (.write (area.dfuOffset + written) bytes)).log
      = ops chip.log ++ [.write (area.dfuOffset + written) bytes] := ops_snoc _ _ _
  exact
    { legal := .next h.legal hallowed
      aligned := h.aligned
      le := herased
      blank := by
        show (chip.content.program _ _).Blank _ _
        rw [← Nat.add_assoc]
        exact blank_program h.blank
      once := by
        intro page hpage
        rw [hops, List.count_append, h.once page hpage, List.count_singleton]
        rfl
      fresh := by
        intro page hpage hmem
        rw [hops, List.mem_append, List.mem_singleton] at hmem
        rcases hmem with hmem | hmem
        · exact h.fresh page hpage hmem
        · cases hmem
      behind := by
        intro offset bytes' hmem
        rw [hops, List.mem_append, List.mem_singleton] at hmem
        rcases hmem with hmem | hmem
        · exact Nat.le_trans (h.behind offset bytes' hmem) (by omega)
        · obtain ⟨rfl, rfl⟩ := FlashOp.write.inj hmem
          omega }

/-- The log of a flash is legal. -/
def Sound (area : DfuArea) (chip : Chip) : Prop := Legal area chip.log

/-- The loop of `dfu_write`, done and going on. -/
theorem erasePages_done {stop page : Nat} (h : stop ≤ page) :
    (erasePages area stop page : Act Chip MemoryFault Unit) = pure () := by
  rw [erasePages, if_neg (Nat.not_lt.mpr h)]

theorem erasePages_next {stop page : Nat} (h : page < stop) :
    (erasePages area stop page : Act Chip MemoryFault Unit)
      = (do
        (Chip.attempt (.erase page (page + area.pageSize))).mapErr
          (fun _ => .flashInternalFault)
        erasePages area stop (page + area.pageSize)) := by
  rw [erasePages, if_pos h]
  rfl

/-- **LOOP LEMMA**: the loop erases the pages it reaches, up to the page the write
    ends on. -/
theorem erasePages_spec {need : Nat} (hneed : need ≤ area.firmwareSize.toNat)
    (written erased : Nat) (hshort : erased < need + area.pageSize) :
    Spec (Reached area written erased)
      (erasePages area (area.dfuOffset + need) (area.dfuOffset + erased))
      (fun _ chip => ∃ erased', need ≤ erased' ∧ erased' < need + area.pageSize ∧
        Reached area written erased' chip)
      (fun _ => Sound area) := by
  have hpos := area.pageSize_pos
  by_cases hdone : need ≤ erased
  · rw [erasePages_done (Nat.add_le_add_left hdone _)]
    exact Spec.ret fun _ hchip => ⟨erased, hdone, hshort, hchip⟩
  · rw [erasePages_next (by omega)]
    refine Spec.bind (M := fun _ => Reached area written (erased + area.pageSize)) ?_ ?_
    · -- the area is a whole number of pages, so the page is inside it
      have hroom : area.pageSize ∣ erased → erased + area.pageSize
          ≤ area.firmwareSize.toNat := by
        rintro ⟨page, rfl⟩
        obtain ⟨pages, hpages⟩ := area.whole
        have hlt : page < pages := by
          refine Nat.lt_of_mul_lt_mul_left (a := area.pageSize) ?_
          omega
        rw [hpages, ← Nat.mul_succ]
        exact Nat.mul_le_mul_left _ hlt
      have hpage : ∀ chip, Reached area written erased chip → ∃ page,
          erased = page * area.pageSize ∧
            FlashOp.erase (area.dfuOffset + erased)
              (area.dfuOffset + erased + area.pageSize) = erasePage area page := by
        intro chip hchip
        obtain ⟨page, rfl⟩ := hchip.aligned
        exact ⟨page, Nat.mul_comm _ _, by rw [erasePage, Nat.mul_comm]⟩
      refine attempt_spec ?_ ?_
      · intro chip hchip
        obtain ⟨page, hpage, hop⟩ := hpage chip hchip
        rw [hop]
        exact ⟨hchip.legal, (hchip.eraseNext hpage (hroom hchip.aligned)).1⟩
      · intro chip hchip
        obtain ⟨page, hpage, hop⟩ := hpage chip hchip
        rw [hop]
        exact (hchip.eraseNext hpage (hroom hchip.aligned)).2
    · intro _
      rw [Nat.add_assoc]
      exact erasePages_spec hneed written (erased + area.pageSize) (by omega)
termination_by need - erased

/-- A transfer has written so much, and erased up to the end of a page. -/
def At (area : DfuArea) (written : Nat) (chip : Chip) : Prop :=
  ∃ erased, erased < written + area.pageSize ∧ Reached area written erased chip

/-- The page that `dfu_write` starts to erase is the first that is not erased. -/
theorem firstPage_eq (h : Reached area written erased chip)
    (hshort : erased < written + area.pageSize) :
    (if (area.dfuOffset + written) % area.pageSize = 0 then area.dfuOffset + written
      else Config.nextMultipleOf (area.dfuOffset + written) area.pageSize)
      = area.dfuOffset + erased := by
  have hpos := area.pageSize_pos
  have hle := h.le
  obtain ⟨page, hpage⟩ := Nat.dvd_add area.aligned h.aligned
  have hmod := Nat.div_add_mod (area.dfuOffset + written) area.pageSize
  have hlt := Nat.mod_lt (area.dfuOffset + written) hpos
  by_cases hzero : (area.dfuOffset + written) % area.pageSize = 0
  · rw [if_pos hzero]
    -- two multiples of the page size less than a page apart
    have hdiv : (area.dfuOffset + written) / area.pageSize = page := by
      have hlow : (area.dfuOffset + written) / area.pageSize ≤ page := by
        refine Nat.le_of_mul_le_mul_left ?_ hpos
        omega
      have hhigh : page < (area.dfuOffset + written) / area.pageSize + 1 := by
        refine Nat.lt_of_mul_lt_mul_left (a := area.pageSize) ?_
        rw [Nat.mul_succ]
        omega
      omega
    rw [hdiv] at hmod
    omega
  · rw [if_neg hzero, Config.nextMultipleOf, if_neg hzero]
    have hdiv : (area.dfuOffset + written) / area.pageSize + 1 = page := by
      have hlow : (area.dfuOffset + written) / area.pageSize < page := by
        refine Nat.lt_of_mul_lt_mul_left (a := area.pageSize) ?_
        omega
      have hhigh : page < (area.dfuOffset + written) / area.pageSize + 2 := by
        refine Nat.lt_of_mul_lt_mul_left (a := area.pageSize) ?_
        rw [Nat.mul_add]
        omega
      omega
    rw [← hdiv, Nat.mul_succ] at hpage
    omega

/-- **WRITE LEMMA**: a write of whole words where the transfer stands goes through
    and takes it on, or fails; either way the log stays legal. -/
theorem dfuWrite_spec {data : List UInt8} (hwritten : 8 ∣ written)
    (hlen : 8 ∣ data.length)
    (hfits : written + data.length ≤ area.firmwareSize.toNat) :
    Spec (At area written) (dfuWrite area written data)
      (fun _ => At area (written + data.length)) (fun _ => Sound area) := by
  have hinside : ¬ area.dfuOffset + (written + data.length) > area.stop := by
    rw [DfuArea.stop]
    omega
  rintro chip ⟨erased, hshort, hchip⟩
  rw [dfuWrite]
  simp only [if_neg hinside, firstPage_eq hchip hshort, Nat.add_assoc]
  have hloop := erasePages_spec hfits written erased (by omega)
  -- first the loop, up to the page of the last word, then the write
  refine Spec.bind hloop (fun _ => ?_) chip hchip
  rintro chip ⟨erased', hneed, hshort', hchip⟩
  refine attempt_spec (P := Reached area written erased')
    (Q := At area (written + data.length)) ?_ ?_ chip hchip
  · intro chip hchip
    exact ⟨hchip.legal, (hchip.writeNext hwritten hlen hneed hfits).1⟩
  · intro chip hchip
    exact ⟨erased', hshort', (hchip.writeNext hwritten hlen hneed hfits).2⟩

/-! ## The receiver -/

/-- Chunks of an image that are numbered without repetition. -/
def maxCounters : Nat := 65536

/-- Where an active receiver stands: the chunks so far, numbered modulo `2^16`, fill
    whole stages and a part of the next, inside the capacity. -/
structure Counting (s : FirmwareUpdateState) (chunks : Nat) : Prop where
  max : chunks ≤ maxCounters
  next : s.nextCounter.toNat = chunks % maxCounters
  received : s.writeOffset.toNat + s.stagedLen = updateChunkBytes * chunks
  stage : updateStageBytes ∣ s.writeOffset.toNat
  short : s.stagedLen < updateStageBytes
  fits : updateChunkBytes * chunks ≤ s.capacity.toNat

variable {s s' : FirmwareUpdateState} {counter : UInt16} {chunk : Chunk} {chunks : Nat}

/-- A chunk that is accepted belongs to a transfer that is at its counter. -/
theorem begun_counting (hs : s.active = true → ∃ chunks, Counting s chunks)
    (hord : s.outOfOrder counter = false) :
    ∃ chunks, Counting (s.begun counter) chunks ∧ counter.toNat = chunks ∧
      chunks < maxCounters ∧ (s.begun counter).active = true := by
  have hlt : counter.toNat < maxCounters := counter.toNat_lt
  by_cases hzero : counter = 0
  · subst hzero
    refine ⟨0, ?_, rfl, by decide, rfl⟩
    exact
      { max := Nat.zero_le _
        next := rfl
        received := rfl
        stage := Nat.dvd_zero _
        short := show 0 < updateStageBytes by decide
        fits := Nat.zero_le _ }
  · obtain ⟨hactive, hnext⟩ := UpdateProofs.inOrder_iff.mp hord hzero
    obtain ⟨chunks, hc⟩ := hs hactive
    have hpos : counter.toNat ≠ 0 := fun h => hzero (UInt16.toNat_inj.mp h)
    have hmod := hc.next
    have hmax := hc.max
    rw [← hnext] at hmod
    simp only [maxCounters] at hmod hmax hlt
    have hcount : counter.toNat = chunks := by omega
    rw [FirmwareUpdateState.begun, if_neg hzero]
    exact ⟨chunks, hc, hcount, by simp only [maxCounters]; omega, hactive⟩

/-- The capacity test, on numbers. -/
theorem fits_of_not_tooLarge (hc : Counting s chunks) (hlt : chunks < maxCounters)
    (h : ¬ s.capacity < s.writeOffset + UInt32.ofNat (s.stagedLen + updateChunkBytes)) :
    updateChunkBytes * (chunks + 1) ≤ s.capacity.toNat := by
  have hreceived := hc.received
  simp only [updateChunkBytes, maxCounters] at hreceived hlt h ⊢
  have hlen : (UInt32.ofNat (s.stagedLen + 6)).toNat = s.stagedLen + 6 :=
    toNat_ofNat_of_lt (by omega)
  rw [UInt32.lt_iff_toNat_lt, toNat_add_of_lt (by rw [hlen]; omega), hlen] at h
  omega

/-- The write that a receiver hands out: a whole stage, from where it stands. -/
def Emits (s s' : FirmwareUpdateState) : Option DfuWriteData → Prop
  | some write => write.offset = s.writeOffset ∧ write.len = updateStageBytes ∧
      s'.writeOffset.toNat = s.writeOffset.toNat + updateStageBytes
  | none => s'.writeOffset = s.writeOffset

/-- **STEP LEMMA**: an accepted chunk is counted, and fills a stage or not. -/
theorem Counting.accept (hc : Counting s chunks) (hcounter : counter.toNat = chunks)
    (hlt : chunks < maxCounters)
    (hfits : updateChunkBytes * (chunks + 1) ≤ s.capacity.toNat)
    {write : Option DfuWriteData}
    (h : (s.stage counter chunk).emit = (.accepted write, s')) :
    Counting s' (chunks + 1) ∧ Emits s s' write := by
  have hreceived := hc.received
  have hstage := hc.stage
  have hshort := hc.short
  have hnext : (counter + 1).toNat = (chunks + 1) % maxCounters := by
    rw [UInt16.toNat_add, hcounter]
    rfl
  simp only [updateChunkBytes, updateStageBytes, maxCounters]
    at hreceived hstage hshort hfits hlt
  rw [emit] at h
  by_cases hfull : (s.stage counter chunk).stagedLen = updateStageBytes
  · rw [if_pos hfull] at h
    obtain ⟨hwrite, rfl⟩ := Prod.mk.inj h
    obtain rfl := DataOutcome.accepted.inj hwrite
    have hfull' : s.stagedLen + 6 = 24 := hfull
    have hoffset : (s.writeOffset + UInt32.ofNat updateStageBytes).toNat
        = s.writeOffset.toNat + updateStageBytes := by
      rw [toNat_add_of_lt]
      · rfl
      · show s.writeOffset.toNat + 24 < 2 ^ 32
        omega
    refine ⟨?_, rfl, rfl, hoffset⟩
    exact
      { max := hlt
        next := hnext
        received := by
          show (s.writeOffset + UInt32.ofNat updateStageBytes).toNat + 0 = _
          rw [hoffset]
          simp only [updateChunkBytes, updateStageBytes]
          omega
        stage := by
          show updateStageBytes ∣ (s.writeOffset + UInt32.ofNat updateStageBytes).toNat
          rw [hoffset]
          exact Nat.dvd_add hc.stage (Nat.dvd_refl _)
        short := show 0 < updateStageBytes by decide
        fits := hfits }
  · rw [if_neg hfull] at h
    obtain ⟨hwrite, rfl⟩ := Prod.mk.inj h
    obtain rfl := DataOutcome.accepted.inj hwrite
    have hfull' : s.stagedLen + 6 ≠ 24 := hfull
    refine ⟨?_, rfl⟩
    exact
      { max := hlt
        next := hnext
        received := by
          show s.writeOffset.toNat + (s.stagedLen + 6) = 6 * (chunks + 1)
          omega
        stage := hc.stage
        short := by
          -- a stage is four chunks, so a part of it is a whole number of them
          show s.stagedLen + 6 < 24
          omega
        fits := hfits }

/-- **FLUSH LEMMA**: what is still staged is whole words, from where the receiver
    stands. -/
theorem Counting.flush (hc : Counting s chunks) (h8 : 8 ∣ s.capacity.toNat)
    {length : UInt32} (hcomplete : s.complete length = true) {write : DfuWriteData}
    (h : s.flush length = some write) :
    write.offset = s.writeOffset ∧ 8 ∣ write.len ∧ write.len ≤ updateStageBytes ∧
      s.writeOffset.toNat + write.len ≤ s.capacity.toNat := by
  have hreceived := hc.received
  have hstage := hc.stage
  have hshort := hc.short
  have hfits := hc.fits
  have hmax := hc.max
  simp only [updateChunkBytes, updateStageBytes, maxCounters]
    at hreceived hstage hshort hfits hmax
  rw [FirmwareUpdateState.flush] at h
  split at h
  · rename_i hpos
    have hlen : (UInt32.ofNat s.stagedLen).toNat = s.stagedLen :=
      toNat_ofNat_of_lt (by omega)
    have hsum : s.received.toNat = s.writeOffset.toNat + s.stagedLen := by
      rw [FirmwareUpdateState.received, toNat_add_of_lt (by rw [hlen]; omega), hlen]
    simp only [complete, Bool.and_eq_true, decide_eq_true_eq, gt_iff_lt,
      UInt32.lt_iff_toNat_lt, UInt32.le_iff_toNat_le] at hcomplete
    obtain ⟨⟨-, hle⟩, hlast⟩ := hcomplete
    rw [UInt32.toNat_sub_of_le _ _ (UInt32.le_iff_toNat_le.mpr hle), hsum,
      show (UInt32.ofNat updateChunkBytes).toNat = 6 from rfl] at hlast
    rw [hsum] at hle
    have hdiff : (length - s.writeOffset).toNat
        = length.toNat - s.writeOffset.toNat :=
      UInt32.toNat_sub_of_le _ _ (by
        rw [UInt32.le_iff_toNat_le]
        omega)
    have hlen : (nextMultipleOf (length - s.writeOffset) 8).toNat
        = (length.toNat - s.writeOffset.toNat + 7) / 8 * 8 := by
      rw [UpdateProofs.nextMultipleOf_eight (by rw [hdiff]; omega), hdiff]
    obtain rfl := Option.some.inj h
    refine ⟨rfl, ?_⟩
    simp only [hlen, updateStageBytes]
    refine ⟨Nat.dvd_mul_left _ _, ?_, ?_⟩
    · omega
    · omega
  · cases h

/-! ## Runs -/

/-- What reaches the firmware. -/
inductive Event where
  | data (counter : UInt16) (chunk : Chunk)
  | apply (length crc32 : UInt32)
  /-- The device restarts, with anything in the area. -/
  | reboot (found : Content)

structure System where
  update : FirmwareUpdateState
  chip : Chip

/-- Counter 0 starts a transfer, and its log. -/
def Chip.begun (chip : Chip) (counter : UInt16) : Chip :=
  if counter = 0 then { chip with log := [] } else chip

/-- The firmware takes an event. -/
def step (area : DfuArea) (s : System) : Event → System
  | .data counter chunk =>
      let (_, update, chip) :=
        firmwareUpdateData area counter chunk s.update (s.chip.begun counter)
      ⟨update, chip⟩
  | .apply length crc32 =>
      let (_, update, chip) := firmwareUpdateApply area length crc32 s.update s.chip
      ⟨update, chip⟩
  | .reboot found =>
      ⟨.new area.firmwareSize, { s.chip with content := found, log := [] }⟩

/-- The firmware as it starts. -/
def System.start (area : DfuArea) (found : Content) (failures : List (Option Content)) :
    System :=
  ⟨.new area.firmwareSize, ⟨found, failures, []⟩⟩

/-- **THE INVARIANT** of the firmware: an active receiver stands where its transfer
    has written to. -/
structure Inv (area : DfuArea) (s : System) : Prop where
  capacity : s.update.capacity = area.firmwareSize
  sound : Sound area s.chip
  counting : s.update.active = true → ∃ chunks, Counting s.update chunks
  reached : s.update.active = true → At area s.update.writeOffset.toNat s.chip

theorem At.sound (h : At area written chip) : Sound area chip := by
  obtain ⟨erased, -, h⟩ := h
  exact h.legal

/-- An inactive receiver promises nothing. -/
theorem inv_inactive {s : System} (hcapacity : s.update.capacity = area.firmwareSize)
    (hsound : Sound area s.chip) (hinactive : s.update.active = false) : Inv area s := by
  have habsurd : s.update.active ≠ true := by
    rw [hinactive]
    exact Bool.false_ne_true
  exact ⟨hcapacity, hsound, fun h => absurd h habsurd, fun h => absurd h habsurd⟩

/-- A transfer that begins has written nothing. -/
theorem at_zero (hlog : chip.log = []) : At area 0 chip := by
  have hops : ops chip.log = [] := by
    rw [hlog]
    rfl
  refine ⟨0, Nat.lt_of_lt_of_le area.pageSize_pos (Nat.le_add_left _ _), ?_⟩
  exact
    { legal := by
        rw [hlog]
        exact .start
      aligned := Nat.dvd_zero _
      le := Nat.le_refl _
      blank := fun a hlow hhigh => absurd hhigh (Nat.not_lt.mpr hlow)
      once := fun page hpage => absurd hpage (Nat.not_lt_zero _)
      fresh := by
        intro page _
        rw [hops]
        exact List.not_mem_nil
      behind := by
        intro offset bytes hmem
        rw [hops] at hmem
        cases hmem }

theorem sound_begun (hsound : Sound area chip) (counter : UInt16) :
    Sound area (chip.begun counter) := by
  rw [Chip.begun]
  split
  · exact .start
  · exact hsound

/-- The transfer that an accepted chunk belongs to stands at its write offset. -/
theorem at_begun {s : System} (hI : Inv area s)
    (hord : s.update.outOfOrder counter = false) :
    At area (s.update.begun counter).writeOffset.toNat (s.chip.begun counter) := by
  by_cases hzero : counter = 0
  · rw [Chip.begun, if_pos hzero, FirmwareUpdateState.begun, if_pos hzero]
    exact at_zero rfl
  · rw [Chip.begun, if_neg hzero, FirmwareUpdateState.begun, if_neg hzero]
    exact hI.reached (UpdateProofs.inOrder_iff.mp hord hzero).1

/-- A staged write takes the transfer on, or fails. -/
theorem writeStaged_cases {write : DfuWriteData} (hword : 8 ∣ write.offset.toNat)
    (hlen : 8 ∣ write.len) (hstage : write.len ≤ updateStageBytes)
    (hfits : write.offset.toNat + write.len ≤ area.firmwareSize.toNat)
    (h : At area write.offset.toNat chip) :
    (∃ chip', writeStaged area write chip = (.ok (), chip') ∧
      At area (write.offset.toNat + write.len) chip') ∨
    ∃ e chip', writeStaged area write chip = (.error e, chip') ∧ Sound area chip' := by
  have hbytes : (write.data.toList.take write.len).length = write.len := by
    rw [List.length_take, Vector.length_toList]
    exact Nat.min_eq_left hstage
  have hwords : 8 ∣ (write.data.toList.take write.len).length := hbytes.symm ▸ hlen
  have hinside : write.offset.toNat + (write.data.toList.take write.len).length
      ≤ area.firmwareSize.toNat := hbytes.symm ▸ hfits
  have hspec := dfuWrite_spec hword hwords hinside chip h
  rw [hbytes] at hspec
  obtain ⟨hok, herror⟩ := hspec
  rcases hrun : writeStaged area write chip with ⟨r, chip'⟩
  cases r with
  | ok _ => exact Or.inl ⟨chip', rfl, hok () chip' hrun⟩
  | error e => exact Or.inr ⟨e, chip', rfl, herror e chip' hrun⟩

/-- **DATA**: a chunk keeps the invariant. -/
theorem inv_data {s : System} (hI : Inv area s) (counter : UInt16) (chunk : Chunk) :
    Inv area (step area s (.data counter chunk)) := by
  have hbegun := UpdateProofs.begun_capacity s.update counter
  have hsound := sound_begun hI.sound counter
  rcases hrun : onData counter chunk s.update with ⟨r, update⟩
  rcases UpdateProofs.onData_cases hrun with ⟨rfl, rfl, hout⟩ | ⟨rfl, rfl, -⟩ |
    ⟨write, rfl, hord, hsmall, hemit⟩
  · -- an out-of-order chunk is not counter 0, so the transfer goes on
    have hzero : counter ≠ 0 := by
      rintro rfl
      cases hout
    have hsame : s.chip.begun counter = s.chip := if_neg hzero
    rw [step, firmwareUpdateData, hrun, hsame]
    exact hI
  · rw [step, firmwareUpdateData, hrun]
    exact inv_inactive (hbegun.trans hI.capacity) hsound rfl
  · obtain ⟨chunks, hc, hcounter, hlt, hactive⟩ := begun_counting hI.counting hord
    have hat := at_begun hI hord
    have hfits := fits_of_not_tooLarge hc hlt hsmall
    obtain ⟨hc', hemits⟩ := hc.accept hcounter hlt hfits hemit
    obtain ⟨hcapacity, -⟩ := UpdateProofs.emit_frame hemit
    have hcapacity' : update.capacity = area.firmwareSize :=
      (hcapacity.trans hbegun).trans hI.capacity
    cases write with
    | none =>
        have hoffset : update.writeOffset = (s.update.begun counter).writeOffset := hemits
        rw [step, firmwareUpdateData, hrun]
        refine ⟨hcapacity', hsound, fun _ => ⟨_, hc'⟩, fun _ => ?_⟩
        show At area update.writeOffset.toNat _
        rw [hoffset]
        exact hat
    | some write =>
        obtain ⟨hfrom, hlen, hoffset⟩ := hemits
        have hroom : write.offset.toNat + write.len ≤ area.firmwareSize.toNat := by
          have hend := hc'.received
          have hle := hc'.fits
          rw [← hcapacity', hfrom, hlen, ← hoffset]
          omega
        have hword : 8 ∣ write.offset.toNat := by
          rw [hfrom]
          exact Nat.dvd_trans (by decide) hc.stage
        rw [← hfrom] at hat
        rw [← hfrom, ← hlen] at hoffset
        rw [step, firmwareUpdateData, hrun]
        rcases writeStaged_cases hword (by rw [hlen]; decide) (Nat.le_of_eq hlen) hroom
          hat with ⟨chip', hwrite, hat'⟩ | ⟨e, chip', hwrite, hsound'⟩
        · simp only [hwrite]
          refine ⟨hcapacity', hat'.sound, fun _ => ⟨_, hc'⟩, fun _ => ?_⟩
          show At area update.writeOffset.toNat chip'
          rw [hoffset]
          exact hat'
        · simp only [hwrite]
          exact inv_inactive hcapacity' hsound' rfl

/-- **APPLY**: so does an apply. -/
theorem inv_apply {s : System} (hI : Inv area s) (length crc32 : UInt32) :
    Inv area (step area s (.apply length crc32)) := by
  rw [step, firmwareUpdateApply, onApply]
  by_cases hcomplete : s.update.complete length = true
  · rw [if_pos hcomplete]
    have hactive : s.update.active = true := by
      simp only [complete, Bool.and_eq_true] at hcomplete
      exact hcomplete.1.1.1
    obtain ⟨chunks, hc⟩ := hI.counting hactive
    cases hflush : s.update.flush length with
    | none => exact inv_inactive hI.capacity hI.sound rfl
    | some write =>
        have h8 : 8 ∣ s.update.capacity.toNat := by
          rw [hI.capacity]
          exact Nat.dvd_trans area.words area.whole
        obtain ⟨hfrom, hlen, hstage, hfits⟩ := hc.flush h8 hcomplete hflush
        have hat := hI.reached hactive
        rw [hI.capacity] at hfits
        rw [← hfrom] at hat hfits
        have hword : 8 ∣ write.offset.toNat := by
          rw [hfrom]
          exact Nat.dvd_trans (by decide) hc.stage
        rcases writeStaged_cases hword hlen hstage hfits hat with
          ⟨chip', hwrite, hat'⟩ | ⟨e, chip', hwrite, hsound'⟩
        · simp only [hwrite]
          exact inv_inactive hI.capacity hat'.sound rfl
        · simp only [hwrite]
          exact inv_inactive hI.capacity hsound' rfl
  · rw [if_neg hcomplete]
    exact inv_inactive hI.capacity hI.sound rfl

theorem step_inv {s : System} (hI : Inv area s) (event : Event) :
    Inv area (step area s event) := by
  cases event with
  | data counter chunk => exact inv_data hI counter chunk
  | apply length crc32 => exact inv_apply hI length crc32
  | reboot found => exact inv_inactive rfl .start rfl

/-- **EVERY WORD ONCE**: whatever the area held, whatever is received and whatever
    fails, every operation of a transfer is one that is allowed: erases take one
    page of the area, once, before anything is written to it, and writes program
    blank words of the area on pages that were erased. -/
theorem log_legal (area : DfuArea) (found : Content) (failures : List (Option Content))
    (events : List Event) :
    Legal area (EventRun.run (step area) (.start area found failures) events).chip.log := by
  have hrun := EventRun.run_keeps (I := Inv area) (A := fun _ => True)
    (fun _ event _ hI => step_inv hI event) events (.start area found failures)
    (fun _ _ => trivial) (inv_inactive rfl .start rfl)
  exact hrun.sound

end DfuProofs
