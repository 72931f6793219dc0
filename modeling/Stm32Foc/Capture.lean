import Stm32Foc.CanTx
import Stm32Foc.PaddedFrames

/-! # Debug capture

    The interrupt of the current loop records one sample a tick into a buffer that
    fills once; the host asks for the full buffer, and `can_tx_task` sends it, three
    words a frame.  The interrupt preempts the sending between any two of its accesses
    to what they share.  `CAPTURE_LEN` is the parameter `len`. -/

namespace Capture

structure Record where
  idMeasMa : Int16
  iqMeasMa : Int16
  idTargetMa : Int16
  iqTargetMa : Int16
  thetaMrad : Int16
  omega100mrad : Int16
  ud10mv : Int16
  uq10mv : Int16
  deriving DecidableEq, Repr

/-- `WORDS_PER_RECORD` -/
def wordsPerRecord : Nat := 8

/-- `WORDS_PER_FRAME` -/
def wordsPerFrame : Nat := 3

namespace Record

/-- `Record::words` -/
def words (self : Record) : Vector Int16 8 :=
  #v[self.idMeasMa, self.iqMeasMa, self.idTargetMa, self.iqTargetMa, self.thetaMrad,
    self.omega100mrad, self.ud10mv, self.uq10mv]

/-- `EMPTY` -/
def empty : Record := ⟨0, 0, 0, 0, 0, 0, 0, 0⟩

end Record

/-- `DUMP_FRAMES` -/
def dumpFrames (len : Nat) : Nat :=
  PaddedFrames.frameCount wordsPerFrame (len * wordsPerRecord)

/-- `STATE_IDLE`, `STATE_RECORDING` and `STATE_FULL` -/
inductive State where
  | idle
  | recording
  | full
  deriving DecidableEq, Repr

/-- `CAPTURE`, `STATE`, `WRITE_INDEX` and `DUMP_CURSOR`.  The buffer is not empty, and
    the write index never leaves it. -/
structure Buffer (len : Nat) where
  capture : Vector Record len
  state : State
  writeIndex : Fin len
  dumpCursor : Nat

/-- A frame of the dump: its number and its words. -/
abbrev DumpFrame : Type := UInt16 × Vector Int16 3

variable {len : Nat}

namespace Buffer

/-- The buffer after a reset. -/
def reset (h : 0 < len) : Buffer len where
  capture := Vector.replicate len Record.empty
  state := .idle
  writeIndex := ⟨0, h⟩
  dumpCursor := dumpFrames len

/-- `capture::start` -/
def start (self : Buffer len) : Buffer len :=
  { self with
    writeIndex := ⟨0, self.writeIndex.pos⟩
    dumpCursor := dumpFrames len
    state := .recording }

/-- `capture::record` -/
def record (self : Buffer len) (sample : Record) : Bool × Buffer len :=
  match self.state with
  | .recording =>
      let index := self.writeIndex
      let self := { self with capture := self.capture.set index sample }
      if h : index + 1 = len then (true, { self with state := .full })
      else (false, { self with writeIndex := ⟨index + 1, by omega⟩ })
  | _ => (false, self)

/-- `capture::request_dump` -/
def requestDump (self : Buffer len) : Bool × Buffer len :=
  match self.state with
  | .full => (true, { self with dumpCursor := 0 })
  | _ => (false, self)

/-- The word of the dump at `index`, zero past the last record. -/
def word (self : Buffer len) (index : Nat) : Int16 :=
  if h : index / wordsPerRecord < len then
    (self.capture.get ⟨index / wordsPerRecord, h⟩).words.get
      ⟨index % wordsPerRecord, Nat.mod_lt _ (by decide)⟩
  else 0

/-- `capture::next_dump_frame`, where nothing preempts it -/
def nextDumpFrame (self : Buffer len) : Option DumpFrame × Buffer len :=
  let frame := self.dumpCursor
  if frame ≥ dumpFrames len then (none, self)
  else
    let words := Vector.ofFn fun i : Fin 3 => self.word (frame * wordsPerFrame + i)
    (some (UInt16.ofNat frame, words), { self with dumpCursor := frame + 1 })

end Buffer

/-- Where a call of `next_dump_frame` stands: no call, or `frame` loaded and the words
    before `i` read. -/
inductive Call where
  | idle
  | reading (frame i : Nat) (words : Vector Int16 3)

/-- The next access of `next_dump_frame` to what it shares, and what it returns if
    that was the last. -/
def Call.access (call : Call) (buffer : Buffer len) :
    Call × Buffer len × Option (Option DumpFrame) :=
  match call with
  | .idle =>
      let frame := buffer.dumpCursor
      if frame ≥ dumpFrames len then (.idle, buffer, some none)
      else (.reading frame 0 (Vector.replicate 3 0), buffer, none)
  | .reading frame i words =>
      if i < wordsPerFrame then
        let word := buffer.word (frame * wordsPerFrame + i)
        (.reading frame (i + 1) (words.setIfInBounds i word), buffer, none)
      else
        (.idle, { buffer with dumpCursor := frame + 1 },
          some (some (UInt16.ofNat frame, words)))

/-- What the interrupt and the tasks do.  `dump` is one access of `can_tx_task`. -/
inductive Event where
  | tick (sample : Record)
  | start
  | requestDump
  | dump
  deriving DecidableEq

/-- The buffer, the call under way, and what `next_dump_frame` has returned. -/
structure Session (len : Nat) where
  buffer : Buffer len
  call : Call
  returned : List (Option DumpFrame)

namespace Session

def step (s : Session len) (event : Event) : Session len :=
  match event with
  | .tick sample => { s with buffer := (s.buffer.record sample).2 }
  | .start => { s with buffer := s.buffer.start }
  | .requestDump => { s with buffer := s.buffer.requestDump.2 }
  | .dump =>
      let (call, buffer, result) := s.call.access s.buffer
      ⟨buffer, call, s.returned ++ result.toList⟩

/-- The two tasks have one priority: a request is served between two calls of
    `next_dump_frame`, not within one. -/
def Cooperates (s : Session len) (event : Event) : Prop :=
  event = .start ∨ event = .requestDump → s.call = .idle

end Session

/-- The rows of `analysis.py`: the words of all frames, eight to a row. -/
def hostRecords (frames : List DumpFrame) : List (List Int16) :=
  PaddedFrames.rows wordsPerRecord (frames.flatMap fun frame => frame.2.toList)

end Capture
