import Stm32Foc.Capture
import Stm32Foc.EventRun

/-! # The dump of a capture

    What the host has in hand after it started a capture, waited until the buffer was
    full, and asked for it: the first records taken after the start, each once and in
    order, whatever the interrupt does between the accesses of the sending task. -/

namespace CaptureProofs

open Capture EventRun

variable {len : Nat}

/-- The samples of the ticks among some events. -/
def ticks (events : List Event) : List Record :=
  events.filterMap fun
    | .tick sample => some sample
    | _ => none

/-- How many accesses of the sending task are among some events. -/
def accesses (events : List Event) : Nat :=
  events.countP fun
    | .dump => true
    | _ => false

/-- The words of the first `len` records. -/
def stream (len : Nat) (samples : List Record) : List Int16 :=
  (samples.take len).flatMap fun sample => sample.words.toList

/-- The `k`-th frame of the dump of these records. -/
def dumpFrame (len : Nat) (samples : List Record) (k : Nat) : DumpFrame :=
  (UInt16.ofNat k,
    Vector.ofFn fun i : Fin 3 => (stream len samples).getD (k * wordsPerFrame + i) 0)

/-- What the `k`-th call of `next_dump_frame` after a request returns. -/
def answer (len : Nat) (samples : List Record) (k : Nat) : Option DumpFrame :=
  if k < dumpFrames len then some (dumpFrame len samples k) else none

/-! ## Recording -/

/-- What the buffer holds once `samples` were taken since the start. -/
structure Captured (samples : List Record) (buffer : Buffer len) : Prop where
  recording : samples.length < len →
    buffer.state = .recording ∧ buffer.writeIndex.val = samples.length
  full : len ≤ samples.length → buffer.state = .full
  holds : ∀ i (h : i < len) (h' : i < samples.length),
    buffer.capture.get ⟨i, h⟩ = samples[i]

/-- Only the cursor has changed. -/
theorem Captured.congr {samples : List Record} {buffer : Buffer len}
    (h : Captured samples buffer) (dumpCursor : Nat) :
    Captured samples { buffer with dumpCursor := dumpCursor } :=
  ⟨h.recording, h.full, h.holds⟩

theorem captured_start (buffer : Buffer len) : Captured [] buffer.start where
  recording := fun _ => ⟨rfl, rfl⟩
  full := fun h => absurd buffer.writeIndex.pos (Nat.not_lt.mpr h)
  holds := fun i _ h' => absurd h' (Nat.not_lt_zero i)

/-- What `record` does while it records. -/
theorem record_recording {buffer : Buffer len} (h : buffer.state = .recording)
    (sample : Record) :
    (∀ i, (buffer.record sample).2.capture.get i
        = if buffer.writeIndex = i then sample else buffer.capture.get i) ∧
      (buffer.writeIndex.val + 1 = len → (buffer.record sample).2.state = .full) ∧
      (buffer.writeIndex.val + 1 ≠ len → (buffer.record sample).2.state = .recording ∧
        (buffer.record sample).2.writeIndex.val = buffer.writeIndex + 1) := by
  have hget : ∀ i : Fin len, (buffer.capture.set buffer.writeIndex sample).get i
      = if buffer.writeIndex = i then sample else buffer.capture.get i := by
    intro i
    simp only [Fin.ext_iff]
    exact Vector.getElem_set ..
  simp only [Buffer.record, h]
  by_cases hlast : buffer.writeIndex.val + 1 = len
  · rw [dif_pos hlast]
    exact ⟨hget, fun _ => rfl, fun hne => absurd hlast hne⟩
  · rw [dif_neg hlast]
    exact ⟨hget, fun heq => absurd heq hlast, fun _ => ⟨rfl, rfl⟩⟩

theorem record_full {buffer : Buffer len} (h : buffer.state = .full) (sample : Record) :
    (buffer.record sample).2 = buffer := by
  simp only [Buffer.record, h]

/-- A tick records its sample, if there is room for it. -/
theorem captured_record {samples : List Record} {buffer : Buffer len}
    (h : Captured samples buffer) (sample : Record) :
    Captured (samples ++ [sample]) (buffer.record sample).2 := by
  have hlen : (samples ++ [sample]).length = samples.length + 1 := List.length_append
  rcases Nat.lt_or_ge samples.length len with hlt | hge
  · obtain ⟨hstate, hindex⟩ := h.recording hlt
    obtain ⟨hset, hend, hnext⟩ := record_recording hstate sample
    rw [hindex] at hend hnext
    refine ⟨fun hroom => ?_, fun hfull => ?_, fun i hi hi' => ?_⟩
    · rw [hlen] at hroom ⊢
      exact hnext (Nat.ne_of_lt hroom)
    · rw [hlen] at hfull
      exact hend (Nat.le_antisymm hlt hfull)
    · rw [hset]
      rcases Nat.lt_or_ge i samples.length with hold | hnew
      · have hne : buffer.writeIndex ≠ ⟨i, hi⟩ := by
          intro heq
          have hval : buffer.writeIndex.val = i := congrArg Fin.val heq
          omega
        rw [if_neg hne, List.getElem_append_left hold]
        exact h.holds i hi hold
      · have hlast : i = samples.length := by omega
        subst hlast
        have heq : buffer.writeIndex = ⟨samples.length, hi⟩ := Fin.ext hindex
        rw [if_pos heq, List.getElem_concat_length rfl]
  · rw [record_full (h.full hge)]
    refine ⟨fun hroom => by omega, fun _ => h.full hge, fun i hi _ => ?_⟩
    rw [List.getElem_append_left (Nat.lt_of_lt_of_le hi hge)]
    exact h.holds i hi _

/-- A sending task leaves the records and the state alone. -/
theorem captured_access {samples : List Record} {buffer : Buffer len}
    (h : Captured samples buffer) (call : Call) :
    Captured samples (call.access buffer).2.1 := by
  cases call with
  | idle =>
      rw [Call.access]
      split <;> exact h
  | reading frame i words =>
      rw [Call.access]
      split
      · exact h
      · exact h.congr _

theorem captured_requestDump {samples : List Record} {buffer : Buffer len}
    (h : Captured samples buffer) : Captured samples buffer.requestDump.2 := by
  rw [Buffer.requestDump]
  split
  · exact h.congr _
  · exact h

/-- **CAPTURE**: after a start the buffer fills with the samples of the ticks that
    follow, whatever else happens, until the next start. -/
theorem captured_run (events : List Event) (h : Event.start ∉ events) :
    ∀ (s : Session len) (samples : List Record), Captured samples s.buffer →
      Captured (samples ++ ticks events) (run Session.step s events).buffer := by
  induction events with
  | nil =>
      intro s samples hs
      rw [ticks, List.filterMap_nil, List.append_nil]
      exact hs
  | cons event events ih =>
      intro s samples hs
      have hne : Event.start ≠ event := fun heq => h (heq ▸ List.mem_cons_self)
      have hrest : Event.start ∉ events := fun hmem => h (List.mem_cons_of_mem _ hmem)
      cases event with
      | start => exact absurd rfl hne
      | tick sample =>
          have hnext := ih hrest (s.step (.tick sample)) _ (captured_record hs sample)
          rw [List.append_assoc] at hnext
          exact hnext
      | requestDump =>
          exact ih hrest (s.step .requestDump) samples (captured_requestDump hs)
      | dump => exact ih hrest (s.step .dump) samples (captured_access hs s.call)

/-! ## Sending -/

theorem length_stream {samples : List Record} (h : len ≤ samples.length) :
    (stream len samples).length = len * wordsPerRecord := by
  rw [stream, List.length_flatMap]
  simp [Nat.min_eq_left h, wordsPerRecord]

/-- The words of a full buffer. -/
theorem word_eq {samples : List Record} {buffer : Buffer len} (h : Captured samples buffer)
    (hfull : len ≤ samples.length) (index : Nat) :
    buffer.word index = (stream len samples).getD index 0 := by
  have hsize : 0 < wordsPerRecord := by decide
  have hrow : ∀ sample : Record, sample.words.toList.length = wordsPerRecord :=
    fun _ => Vector.length_toList
  rw [stream, PaddedFrames.getD_flatMap hsize 0 _ hrow, Buffer.word]
  by_cases hindex : index / wordsPerRecord < len
  · have hlt := Nat.lt_of_lt_of_le hindex hfull
    rw [dif_pos hindex, List.getElem?_take_of_lt hindex, List.getElem?_eq_getElem hlt,
      h.holds _ hindex hlt]
    have hmod := Nat.mod_lt index hsize
    show _ = (samples[index / wordsPerRecord].words.toList).getD (index % wordsPerRecord) 0
    rw [List.getD_eq_getElem _ _ (by rw [hrow]; exact hmod), Vector.getElem_toList]
    rfl
  · rw [dif_neg hindex, List.getElem?_take_eq_none (Nat.not_lt.mp hindex)]
    rfl

/-- A call of `next_dump_frame` that is to return the `n`-th frame, and the accesses
    since the request. -/
inductive InCall (len : Nat) (samples : List Record) (n accessed : Nat) : Call → Prop
  | idle : accessed ≤ 5 * n → InCall len samples n accessed .idle
  | reading {i : Nat} {words : Vector Int16 3} : n < dumpFrames len → i ≤ wordsPerFrame →
      (∀ j : Fin 3, j.val < i →
        words.get j = (stream len samples).getD (n * wordsPerFrame + j) 0) →
      accessed ≤ 5 * n + i + 1 → InCall len samples n accessed (.reading n i words)

/-- The session `accessed` accesses after a request, `n` of its calls returned. -/
structure Dumping (samples : List Record) (earlier : List (Option DumpFrame))
    (n accessed : Nat) (s : Session len) : Prop where
  captured : Captured samples s.buffer
  returned : s.returned = earlier ++ (List.range n).map (answer len samples)
  cursor : s.buffer.dumpCursor = min n (dumpFrames len)
  call : InCall len samples n accessed s.call

/-- The words read so far, and one more. -/
theorem inCall_read {samples : List Record} {n accessed i : Nat} {words : Vector Int16 3}
    (hn : n < dumpFrames len) (hi : i < wordsPerFrame)
    (hwords : ∀ j : Fin 3, j.val < i →
      words.get j = (stream len samples).getD (n * wordsPerFrame + j) 0)
    (hcount : accessed ≤ 5 * n + i + 1) :
    InCall len samples n (accessed + 1) (.reading n (i + 1)
      (words.setIfInBounds i ((stream len samples).getD (n * wordsPerFrame + i) 0))) := by
  refine .reading hn hi (fun j hj => ?_) (by omega)
  have hget : (words.setIfInBounds i ((stream len samples).getD (n * wordsPerFrame + i) 0)).get j
      = if i = j.val then (stream len samples).getD (n * wordsPerFrame + i) 0
        else words.get j := Vector.getElem_setIfInBounds ..
  rw [hget]
  by_cases heq : i = j.val
  · rw [if_pos heq, heq]
  · rw [if_neg heq]
    exact hwords j (by omega)

/-! What the next access of a call is. -/

theorem step_dump {s : Session len} {call : Call} {buffer : Buffer len}
    {result : Option (Option DumpFrame)} (h : s.call.access s.buffer = (call, buffer, result)) :
    s.step .dump = ⟨buffer, call, s.returned ++ result.toList⟩ := by
  simp only [Session.step, h]

theorem access_idle_of_lt {buffer : Buffer len} {n : Nat} (hcursor : buffer.dumpCursor = n)
    (h : n < dumpFrames len) : Call.idle.access buffer
      = (.reading n 0 (Vector.replicate 3 0), buffer, none) := by
  subst hcursor
  exact if_neg (Nat.not_le.mpr h)

theorem access_idle_of_ge {buffer : Buffer len} (h : dumpFrames len ≤ buffer.dumpCursor) :
    Call.idle.access buffer = (.idle, buffer, some none) := if_pos h

theorem access_reading_of_lt (buffer : Buffer len) (frame : Nat) {i : Nat}
    (words : Vector Int16 3) (h : i < wordsPerFrame) :
    (Call.reading frame i words).access buffer
      = (.reading frame (i + 1)
          (words.setIfInBounds i (buffer.word (frame * wordsPerFrame + i))), buffer, none) :=
  if_pos h

theorem access_reading_of_ge (buffer : Buffer len) (frame : Nat) {i : Nat}
    (words : Vector Int16 3) (h : wordsPerFrame ≤ i) :
    (Call.reading frame i words).access buffer
      = (.idle, { buffer with dumpCursor := frame + 1 },
          some (some (UInt16.ofNat frame, words))) :=
  if_neg (Nat.not_lt.mpr h)

/-- **ONE CALL**: where nothing comes between them, the accesses of a call are
    `next_dump_frame`. -/
theorem run_nextDumpFrame (buffer : Buffer len) (returned : List (Option DumpFrame))
    (h : buffer.dumpCursor < dumpFrames len) :
    run Session.step ⟨buffer, .idle, returned⟩ [.dump, .dump, .dump, .dump, .dump]
      = ⟨buffer.nextDumpFrame.2, .idle, returned ++ [buffer.nextDumpFrame.1]⟩ := by
  have hcall : buffer.nextDumpFrame = (some (UInt16.ofNat buffer.dumpCursor, Vector.ofFn
      fun i : Fin 3 => buffer.word (buffer.dumpCursor * wordsPerFrame + i)),
      { buffer with dumpCursor := buffer.dumpCursor + 1 }) := if_neg (Nat.not_le.mpr h)
  have hcons : ∀ (s : Session len) (events : List Event),
      run Session.step s (.dump :: events) = run Session.step (s.step .dump) events :=
    fun _ _ => rfl
  rw [hcall, hcons, step_dump (access_idle_of_lt rfl h),
    hcons, step_dump (access_reading_of_lt _ _ _ (by decide)),
    hcons, step_dump (access_reading_of_lt _ _ _ (by decide)),
    hcons, step_dump (access_reading_of_lt _ _ _ (by decide)),
    hcons, step_dump (access_reading_of_ge _ _ _ (by decide))]
  simp only [Option.toList_none, List.append_nil, Option.toList_some]
  congr 4

theorem returned_snoc {samples : List Record} {earlier returned : List (Option DumpFrame)}
    {n : Nat} (h : returned = earlier ++ (List.range n).map (answer len samples))
    {result : Option DumpFrame} (hresult : result = answer len samples n) :
    returned ++ [result] = earlier ++ (List.range (n + 1)).map (answer len samples) := by
  rw [h, hresult, List.range_succ, List.map_append, List.append_assoc]
  rfl

/-- One access of the sending task. -/
theorem dumping_access {samples : List Record} {earlier : List (Option DumpFrame)}
    {n accessed : Nat} {s : Session len} (hfull : len ≤ samples.length)
    (h : Dumping samples earlier n accessed s) :
    ∃ n', Dumping samples earlier n' (accessed + 1) (s.step .dump) := by
  obtain ⟨buffer, call, returned⟩ := s
  obtain ⟨hcaptured, hreturned, hcursor, hcall⟩ := h
  have hcursor : buffer.dumpCursor = min n (dumpFrames len) := hcursor
  cases hcall with
  | idle hcount =>
      rcases Nat.lt_or_ge n (dumpFrames len) with hn | hn
      · -- the call loads the cursor
        rw [Nat.min_eq_left (Nat.le_of_lt hn)] at hcursor
        rw [step_dump (access_idle_of_lt hcursor hn)]
        refine ⟨n, hcaptured, (List.append_nil _).trans hreturned, ?_,
          .reading hn (Nat.zero_le _) ?_ (by omega)⟩
        · rw [Nat.min_eq_left (Nat.le_of_lt hn)]
          exact hcursor
        · exact fun j hj => absurd hj (Nat.not_lt_zero _)
      · -- nothing is left to send
        rw [Nat.min_eq_right hn] at hcursor
        rw [step_dump (access_idle_of_ge (Nat.le_of_eq hcursor.symm))]
        refine ⟨n + 1, hcaptured, returned_snoc hreturned ?_, ?_, .idle (by omega)⟩
        · rw [answer, if_neg (Nat.not_lt.mpr hn)]
        · rw [Nat.min_eq_right (Nat.le_succ_of_le hn)]
          exact hcursor
  | @reading i words hn hi hwords hcount =>
      rcases Nat.lt_or_ge i wordsPerFrame with hlt | hge
      · rw [step_dump (access_reading_of_lt buffer n words hlt), word_eq hcaptured hfull]
        exact ⟨n, hcaptured, (List.append_nil _).trans hreturned, hcursor,
          inCall_read hn hlt hwords hcount⟩
      · -- the call stores the cursor and returns its frame
        have hthree : i = wordsPerFrame := Nat.le_antisymm hi hge
        subst hthree
        rw [step_dump (access_reading_of_ge buffer n words hge)]
        refine ⟨n + 1, hcaptured.congr _, returned_snoc hreturned ?_, ?_, .idle ?_⟩
        · rw [answer, if_pos hn, dumpFrame]
          congr 2
          refine Vector.ext fun j hj => ?_
          rw [Vector.getElem_ofFn]
          exact hwords ⟨j, hj⟩ hj
        · exact (Nat.min_eq_left hn).symm
        · rw [wordsPerFrame] at hcount
          omega

/-- The interrupt does not touch a full buffer. -/
theorem dumping_tick {samples : List Record} {earlier : List (Option DumpFrame)}
    {n accessed : Nat} {s : Session len} (hfull : len ≤ samples.length)
    (h : Dumping samples earlier n accessed s) (sample : Record) :
    Dumping samples earlier n accessed (s.step (.tick sample)) := by
  have hkeep : s.step (.tick sample) = s := by
    rw [Session.step, record_full (h.captured.full hfull)]
  rw [hkeep]
  exact h

/-- An event between a request and the next request or start. -/
def Sends (event : Event) : Prop := event ≠ .start ∧ event ≠ .requestDump

instance : DecidablePred Sends := fun event =>
  inferInstanceAs (Decidable (event ≠ .start ∧ event ≠ .requestDump))

theorem dumping_run {samples : List Record} {earlier : List (Option DumpFrame)}
    (hfull : len ≤ samples.length) (events : List Event) (hsends : ∀ e ∈ events, Sends e) :
    ∀ (s : Session len) (n accessed : Nat), Dumping samples earlier n accessed s →
      ∃ n', Dumping samples earlier n' (accessed + accesses events)
        (run Session.step s events) := by
  induction events with
  | nil => exact fun s n accessed h => ⟨n, h⟩
  | cons event events ih =>
      intro s n accessed h
      have hrest : ∀ e ∈ events, Sends e := fun e he => hsends e (List.mem_cons_of_mem _ he)
      obtain ⟨hstart, hrequest⟩ := hsends event List.mem_cons_self
      cases event with
      | start => exact absurd rfl hstart
      | requestDump => exact absurd rfl hrequest
      | tick sample => exact ih hrest _ n accessed (dumping_tick hfull h sample)
      | dump =>
          obtain ⟨n', h'⟩ := dumping_access hfull h
          have hcount : accesses (.dump :: events) = accesses events + 1 :=
            List.countP_cons_of_pos rfl
          rw [hcount, Nat.add_comm (accesses events), ← Nat.add_assoc]
          exact ih hrest _ n' (accessed + 1) h'

/-! ## What the host has in hand -/

theorem filterMap_answer (samples : List Record) (n : Nat) :
    ((List.range n).map (answer len samples)).filterMap id
      = (List.range (min n (dumpFrames len))).map (dumpFrame len samples) := by
  induction n with
  | zero => rw [Nat.zero_min]; rfl
  | succ n ih =>
      rw [List.range_succ, List.map_append, List.filterMap_append, ih]
      rcases Nat.lt_or_ge n (dumpFrames len) with hn | hn
      · rw [Nat.min_eq_left (Nat.le_of_lt hn), Nat.min_eq_left hn, List.range_succ,
          List.map_append]
        simp [answer, hn]
      · rw [Nat.min_eq_right hn, Nat.min_eq_right (Nat.le_succ_of_le hn)]
        simp [answer, Nat.not_lt.mpr hn]

/-- All frames of a dump. -/
def allFrames (len : Nat) (samples : List Record) : List DumpFrame :=
  (List.range (dumpFrames len)).map (dumpFrame len samples)

/-- **ROUND TRIP**: the rows of all frames are the records. -/
theorem hostRecords_allFrames {samples : List Record} (h : len ≤ samples.length) :
    hostRecords (allFrames len samples)
      = (samples.take len).map fun sample => sample.words.toList := by
  have hwords : (allFrames len samples).flatMap (fun frame => frame.2.toList)
      = (List.range (dumpFrames len)).flatMap
        (PaddedFrames.frame wordsPerFrame 0 (stream len samples)) := by
    rw [allFrames, List.flatMap_map]
    refine congrArg (List.flatMap · _) (funext fun k => ?_)
    show (Vector.ofFn _).toList = _
    rw [Vector.toList_ofFn]
    rfl
  obtain ⟨rest, hrest, hframes⟩ :=
    PaddedFrames.flatMap_frames (show 0 < wordsPerFrame by decide) 0 (stream len samples)
  rw [length_stream h] at hframes
  have hrow : ∀ sample : Record, sample.words.toList.length = wordsPerRecord :=
    fun _ => Vector.length_toList
  rw [hostRecords, hwords]
  refine (congrArg _ hframes).trans (PaddedFrames.rows_flatMap (by decide) _ hrow ?_ _)
  rw [List.length_replicate]
  exact Nat.lt_trans hrest (by decide)

theorem dumpFrames_le_of_inCall {samples : List Record} {n accessed : Nat} {call : Call}
    (h : InCall len samples n accessed call) (hmany : 5 * dumpFrames len ≤ accessed) :
    dumpFrames len ≤ n := by
  cases h with
  | idle hcount => omega
  | reading hn hi _ hcount =>
      rw [wordsPerFrame] at hi
      omega

/-- A request that finds the buffer full begins a dump. -/
theorem dumping_requestDump {samples : List Record} {s : Session len}
    (hfull : len ≤ samples.length) (h : Captured samples s.buffer) (hidle : s.call = .idle) :
    Dumping samples s.returned 0 0 (s.step .requestDump) := by
  have hrequest : s.buffer.requestDump.2 = { s.buffer with dumpCursor := 0 } := by
    simp only [Buffer.requestDump, h.full hfull]
  have hstep : s.step .requestDump = { s with buffer := { s.buffer with dumpCursor := 0 } } :=
    congrArg (fun buffer => { s with buffer := buffer }) hrequest
  rw [hstep]
  refine ⟨h.congr 0, (List.append_nil _).symm, (Nat.zero_min _).symm, ?_⟩
  show InCall len samples 0 0 s.call
  rw [hidle]
  exact .idle (Nat.le_refl _)

theorem cooperates_of_sends (events : List Event) (h : ∀ e ∈ events, Sends e) (s : Session len) :
    Always Session.step Session.Cooperates s events :=
  always_of_forall (A := Sends)
    (fun _ _ he hrequest => hrequest.elim (absurd · he.1) (absurd · he.2)) events s h

/-- **DUMP**: after a start and ticks that fill the buffer, what is sent from a request
    on is always a first part of the frames of the records taken after the start; once
    `can_tx_task` came to it often enough the host has all of them, in order, and the
    rows it makes of them are these records. -/
theorem dump_recovers (s : Session len) (recording sending : List Event)
    (hstart : .start ∉ recording) (hfull : len ≤ (ticks recording).length)
    (hsends : ∀ e ∈ sending, Sends e)
    (hcooperates : Always Session.step Session.Cooperates s
      (.start :: recording ++ .requestDump :: sending)) :
    let asked := run Session.step s (.start :: recording)
    let answers := (run Session.step s
      (.start :: recording ++ .requestDump :: sending)).returned.drop asked.returned.length
    let frames := answers.filterMap id
    frames <+: allFrames len (ticks recording) ∧
      (5 * dumpFrames len ≤ accesses sending →
        frames.map (·.1) = (List.range (dumpFrames len)).map UInt16.ofNat ∧
          hostRecords frames
            = ((ticks recording).take len).map fun sample => sample.words.toList) := by
  intro asked answers frames
  have hcaptured : Captured (ticks recording) asked.buffer :=
    captured_run recording hstart (s.step .start) [] (captured_start s.buffer)
  have hidle : asked.call = .idle :=
    (always_iff _ s).mp hcooperates (.start :: recording) .requestDump sending rfl (.inr rfl)
  obtain ⟨n, hdumping⟩ := dumping_run hfull sending hsends _ 0 0
    (dumping_requestDump hfull hcaptured hidle)
  have hrun : run Session.step s (.start :: recording ++ .requestDump :: sending)
      = run Session.step (asked.step .requestDump) sending := run_append ..
  have hanswers : answers = (List.range n).map (answer len (ticks recording)) := by
    show List.drop _ _ = _
    rw [hrun, hdumping.returned, List.drop_left]
  have hframes : frames = (List.range (min n (dumpFrames len))).map
      (dumpFrame len (ticks recording)) := by
    show answers.filterMap id = _
    rw [hanswers]
    exact filterMap_answer _ n
  refine ⟨?_, fun hmany => ?_⟩
  · rw [hframes, ← List.take_range, List.map_take]
    exact List.take_prefix _ _
  · rw [Nat.zero_add] at hdumping
    have hall : frames = allFrames len (ticks recording) := by
      rw [hframes, Nat.min_eq_right (dumpFrames_le_of_inCall hdumping.call hmany)]
      rfl
    rw [hall]
    exact ⟨List.map_map, hostRecords_allFrames hfull⟩

/-- A sample with a value of its own in every field. -/
def oneToEight : Record := ⟨1, 2, 3, 4, 5, 6, 7, 8⟩

/-- A buffer of one record, and the tick of another sample while it is sent. -/
theorem dump_recovers_oneToEight :
    let s : Session 1 := ⟨.reset Nat.one_pos, .idle, []⟩
    let sending := .dump :: .tick .empty :: List.replicate 14 .dump
    let frames := ((run Session.step s
      (.start :: [.tick oneToEight] ++ .requestDump :: sending)).returned.drop 0).filterMap id
    frames.map (·.1) = [0, 1, 2] ∧ hostRecords frames = [[1, 2, 3, 4, 5, 6, 7, 8]] := by
  intro s sending frames
  have hsends : ∀ e ∈ sending, Sends e := by decide
  have hcooperates : Always Session.step Session.Cooperates s
      (.start :: [.tick oneToEight] ++ .requestDump :: sending) :=
    ⟨fun _ => rfl, fun _ => rfl, fun _ => rfl, cooperates_of_sends sending hsends _⟩
  exact (dump_recovers s [.tick oneToEight] sending (by decide) (by decide) hsends
    hcooperates).2 (by decide)

end CaptureProofs
