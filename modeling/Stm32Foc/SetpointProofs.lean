import Stm32Foc.Setpoint
import Stm32Foc.GateProofs

/-! # The age of the torque setpoint

    Ticks, setpoint frames and mode requests in any order.  The tick of a write is
    counted by the ticks after it, so what a tick reads is said by the last write of
    the run alone, and a frame that is not accepted is no write. -/

namespace SetpointProofs

open EventRun FieldOriented Debounce Faults SafeStrategy Calibration Modes Control
open Saliency TickProofs GateProofs Setpoint Receiver

variable {K : Type} [Field K] [LinearOrder K] {C : Type} [Calibrator C K]
  {F A E : Type} [CurrentController F K] [DoesFocMath A K] [SaliencyBasedEstimator E K]

/-! ## Modes that need a setpoint -/

omit [Field K] [Calibrator C K] [LinearOrder K] in
theorem needsSetpoint_not_fault {mode : OperatingMode K C}
    (h : needsSetpoint mode = true) : ¬ mode.IsFault := by
  cases mode with
  | fault safeStrategy writeIndex trace => exact nomatch h
  | _ => exact id

/-- A tick diagnosed to need a setpoint has one. -/
theorem diagnose_target {params : MotorParamsEstimate K} {inputs : FocStepInputs K}
    {drive : Drive K C F A E}
    (h : needsSetpoint (diagnose params inputs drive).drive.mode = true) :
    ∃ v, inputs.targetTorque = some v := by
  obtain ⟨mode', -, -, hmode⟩ := diagnose_stages params inputs drive
  have hnotFault := needsSetpoint_not_fault h
  obtain ⟨-, hset⟩ := assertIf_passed hmode.symm hnotFault
  obtain ⟨hsetpoint, hsame⟩ := assertIf_passed hset hnotFault
  rw [hsame, h, Bool.true_and] at hsetpoint
  exact Option.isSome_iff_exists.mp (Option.isNone_eq_false_iff.mp hsetpoint)

theorem needsSetpoint_safetyCommand {input : SafeControlStrategyInput K}
    {mode : OperatingMode K C}
    (h : needsSetpoint (safetyCommand input mode).2 = true) :
    needsSetpoint mode = true := by
  cases mode with
  | calibration calibrator =>
      rw [safetyCommand_calibration] at h
      split at h <;> exact nomatch h
  | idle safeStrategy => exact nomatch h
  | fault safeStrategy writeIndex trace => exact nomatch h
  | _ => rfl

variable {t : Tick K F A E} {mode : OperatingMode K C}

theorem needsSetpoint_supervised {dcBusVoltageV : K}
    (h : needsSetpoint (t.supervised mode dcBusVoltageV).mode = true) :
    needsSetpoint (t.diagnosed mode).drive.mode = true := by
  have hcal : ∀ calibrator,
      (t.supervised mode dcBusVoltageV).mode ≠ .calibration calibrator := by
    intro calibrator hc
    rw [hc] at h
    exact nomatch h
  rw [(supervise_other rfl (needsSetpoint_not_fault h) hcal).1]
  exact h

theorem prepare_target
    (h : needsSetpoint (prepare t.params t.inputs (t.drive mode)).drive.mode = true) :
    ∃ v, t.inputs.targetTorque = some v := by
  suffices hdiagnosed : needsSetpoint (t.diagnosed mode).drive.mode = true from
    diagnose_target hdiagnosed
  rw [prepare] at h
  cases hdc : t.inputs.dcBusReadingV with
  | none =>
      simp only [hdc] at h
      exact h
  | some dcBusVoltageV =>
      simp only [hdc] at h
      exact needsSetpoint_supervised (needsSetpoint_safetyCommand h)

/-- **KEPT ALIVE**: only a tick with a setpoint leaves a mode that needs one. -/
theorem tick_target (h : needsSetpoint (TickProofs.step mode (.tick t)) = true) :
    ∃ v, t.inputs.targetTorque = some v := by
  rw [TickProofs.step, (focStep_inner t.params t.inputs (t.drive mode)).2] at h
  cases hp : (prepare t.params t.inputs (t.drive mode)).call with
  | error outcome =>
      rw [focStepInner] at h
      simp only [hp] at h
      exact prepare_target h
  | ok call =>
      obtain ⟨input, estimate⟩ := call
      cases hc : (callController input estimate
          (prepare t.params t.inputs (t.drive mode)).drive).1 with
      | ok result =>
          rw [(focStepInner_ok hp hc).2] at h
          exact prepare_target h
      | error fault =>
          rw [focStepInner] at h
          simp only [hp, hc] at h
          exact absurd (assertFault_isFault _ _) (needsSetpoint_not_fault h)

/-! ## Events -/

/-- What happens: a tick, which finds the setpoint timeout of the configuration,
    what follows a tick, a setpoint frame, or a command to the mode. -/
inductive Event (K F A E : Type) where
  | tick (t : Tick K F A E) (setpointTimeoutMs : UInt16)
  | afterTick (params : ConstantMotorParameters K) (outcome : FocStepOutcome K)
      (stageResult : Option (StageResult K))
  | setpoint (msg : SetpointMsg K)
  | command (command : Command K)

def Event.isTick : Event K F A E → Bool
  | .tick _ _ => true
  | _ => false

/-- How many ticks there are among the events. -/
def ticks (events : List (Event K F A E)) : Nat := events.countP Event.isTick

/-- The target torque that a tick gives to `foc_step`. -/
def given (receiver : Receiver K C) (setpointTimeoutMs : UInt16) : Option K :=
  (receiver.runtimeValues.readTarget setpointTimeoutMs).1

/-- The tick with the target torque that is given to it. -/
def withTarget (t : Tick K F A E) (targetTorque : Option K) : Tick K F A E :=
  { t with inputs := { t.inputs with targetTorque := targetTorque } }

def step (receiver : Receiver K C) : Event K F A E → Receiver K C
  | .tick t setpointTimeoutMs =>
      let (targetTorque, rtv) := receiver.runtimeValues.readTarget setpointTimeoutMs
      { receiver with
        runtimeValues := rtv
        mode := TickProofs.step receiver.mode (.tick (withTarget t targetTorque)) }
  | .afterTick params outcome stageResult =>
      { receiver with
        mode := TickProofs.step (F := F) (A := A) (E := E) receiver.mode
          (.afterTick params outcome stageResult) }
  | .setpoint msg => receiver.setpoint msg
  | .command command => receiver.command command

/-! ## Frames -/

/-- The frame is accepted: its checksum matches, and its counter is not that of the
    frame accepted before it. -/
def Accepted (receiver : Receiver K C) (msg : SetpointMsg K) : Prop :=
  crc8 msg.covered.toList = msg.checksum ∧
    receiver.setpointIntegrity.lastCounter ≠ some msg.rollingCounter

instance (receiver : Receiver K C) (msg : SetpointMsg K) :
    Decidable (Accepted receiver msg) :=
  inferInstanceAs (Decidable (_ ∧ _))

/-- The counter of an accepted frame. -/
def acceptedCounter (receiver : Receiver K C) : Event K F A E → Option UInt8
  | .setpoint msg => if Accepted receiver msg then some msg.rollingCounter else none
  | _ => none

/-- What an effective write carries: the torque of an accepted frame, or the zero of
    a request for torque control in a mode without a setpoint. -/
def written (receiver : Receiver K C) : Event K F A E → Option K
  | .setpoint msg => if Accepted receiver msg then some msg.targetTorque else none
  | .command command => if startsTorque receiver.mode command then some 0 else none
  | _ => none

theorem check_accepted {integrity : FrameIntegrity} {covered : List UInt8}
    {counter checksum : UInt8} (hcrc : crc8 covered = checksum)
    (hcounter : integrity.lastCounter ≠ some counter) :
    integrity.check covered counter checksum = (.ok (), ⟨some counter⟩) := by
  rw [FrameIntegrity.check, if_neg (not_not_intro hcrc), if_neg hcounter]

/-- A frame that does not pass leaves the last accepted counter as it is. -/
theorem check_rejected {integrity : FrameIntegrity} {covered : List UInt8}
    {counter checksum : UInt8}
    (h : ¬ (crc8 covered = checksum ∧ integrity.lastCounter ≠ some counter)) :
    ∃ fault, integrity.check covered counter checksum = (.error fault, integrity) := by
  rw [FrameIntegrity.check]
  by_cases hcrc : crc8 covered = checksum
  · have hcounter : integrity.lastCounter = some counter := by
      by_contra hne
      exact h ⟨hcrc, hne⟩
    rw [if_neg (not_not_intro hcrc), if_pos hcounter]
    exact ⟨_, rfl⟩
  · rw [if_pos hcrc]
    exact ⟨_, rfl⟩

variable {receiver : Receiver K C} {msg : SetpointMsg K}

omit [LinearOrder K] in
theorem setpoint_accepted (h : Accepted receiver msg) :
    (receiver.setpoint msg).setpointIntegrity.lastCounter = some msg.rollingCounter ∧
      (receiver.setpoint msg).runtimeValues
        = receiver.runtimeValues.setTarget msg.targetTorque := by
  rw [Receiver.setpoint, check_accepted h.1 h.2]
  exact ⟨rfl, rfl⟩

omit [LinearOrder K] in
/-- **REJECTED**: neither the torque nor its age nor the last counter changes. -/
theorem setpoint_rejected (h : ¬ Accepted receiver msg) :
    (receiver.setpoint msg).setpointIntegrity = receiver.setpointIntegrity ∧
      (receiver.setpoint msg).runtimeValues = receiver.runtimeValues := by
  obtain ⟨fault, hcheck⟩ := check_rejected h
  rw [Receiver.setpoint, hcheck]
  exact ⟨rfl, rfl⟩

/-! ## One event -/

variable {event : Event K F A E}

/-- An event that accepts no frame leaves the last counter. -/
theorem step_keeps_counter (h : acceptedCounter receiver event = none) :
    (step receiver event).setpointIntegrity.lastCounter
      = receiver.setpointIntegrity.lastCounter := by
  cases event with
  | setpoint msg =>
      have hrejected : ¬ Accepted receiver msg := by
        intro haccepted
        exact nomatch (if_pos haccepted).symm.trans h
      exact congrArg FrameIntegrity.lastCounter (setpoint_rejected hrejected).1
  | _ => rfl

theorem step_sets_counter {counter : UInt8}
    (h : acceptedCounter receiver event = some counter) :
    (step receiver event).setpointIntegrity.lastCounter = some counter := by
  cases event with
  | setpoint msg =>
      obtain ⟨haccepted, hcounter⟩ := Option.ite_none_right_eq_some.mp h
      exact (setpoint_accepted haccepted).1.trans hcounter
  | _ => exact nomatch h

/-- An event that writes nothing leaves the stamped torque. -/
theorem step_keeps_target (h : written receiver event = none) :
    (step receiver event).runtimeValues.targetTorque
      = receiver.runtimeValues.targetTorque := by
  cases event with
  | setpoint msg =>
      have hrejected : ¬ Accepted receiver msg := by
        intro haccepted
        exact nomatch (if_pos haccepted).symm.trans h
      exact congrArg RuntimeValues.targetTorque (setpoint_rejected hrejected).2
  | command command =>
      have hstarts : ¬ startsTorque receiver.mode command = true := by
        intro hstarts
        exact nomatch (if_pos hstarts).symm.trans h
      exact congrArg RuntimeValues.targetTorque (if_neg hstarts)
  | _ => rfl

theorem step_sets_target {v : K} (h : written receiver event = some v) :
    (step receiver event).runtimeValues = receiver.runtimeValues.setTarget v := by
  cases event with
  | setpoint msg =>
      obtain ⟨haccepted, hv⟩ := Option.ite_none_right_eq_some.mp h
      rw [← Option.some.inj hv]
      exact (setpoint_accepted haccepted).2
  | command command =>
      obtain ⟨hstarts, hv⟩ := Option.ite_none_right_eq_some.mp h
      rw [← Option.some.inj hv]
      exact if_pos hstarts
  | _ => exact nomatch h

/-- Only ticks count. -/
theorem step_tick : (step receiver event).runtimeValues.tick
    = receiver.runtimeValues.tick + ticks [event] := by
  cases event with
  | setpoint msg =>
      by_cases haccepted : Accepted receiver msg
      · rw [step, (setpoint_accepted haccepted).2]
        rfl
      · rw [step, (setpoint_rejected haccepted).2]
        rfl
  | command command =>
      rw [step, Receiver.command]
      split <;> rfl
  | _ => rfl

/-! ## Runs -/

theorem run_tick (receiver : Receiver K C) (events : List (Event K F A E)) :
    (run step receiver events).runtimeValues.tick
      = receiver.runtimeValues.tick + ticks events := by
  induction events using List.reverseRecOn with
  | nil => rfl
  | append_singleton events event ih =>
      rw [run_snoc, step_tick, ih, ticks, ticks, ticks, List.countP_append, Nat.add_assoc]

/-- The counter that a frame is compared with is that of the last accepted frame. -/
theorem lastCounter_iff (mode : OperatingMode K C) (events : List (Event K F A E))
    (counter : UInt8) :
    (run step (Receiver.init mode) events).setpointIntegrity.lastCounter = some counter ↔
      ∃ after, LastWrite step acceptedCounter (Receiver.init mode) events counter after :=
  cell_eq_some_iff (fun receiver : Receiver K C => receiver.setpointIntegrity.lastCounter)
    (fun _ _ _ h => step_sets_counter h) (fun _ _ h => step_keeps_counter h) rfl
    events counter

/-- What is stamped is the last write, at the tick of the write. -/
theorem target_iff (mode : OperatingMode K C) (events : List (Event K F A E)) (v : K)
    (writtenAt : Nat) :
    (run step (Receiver.init mode) events).runtimeValues.targetTorque.inner
        = some (v, writtenAt) ↔
      ∃ after, LastWrite step written (Receiver.init mode) events v after ∧
        (run step (Receiver.init mode) events).runtimeValues.tick
          = writtenAt + ticks after := by
  let stamped (receiver : Receiver K C) (event : Event K F A E) : Option (K × Nat) :=
    (written receiver event).map (fun v => (v, receiver.runtimeValues.tick))
  -- the cell holds the last stamp; what is left is to read its tick back
  have hcell : (run step (Receiver.init mode) events).runtimeValues.targetTorque.inner
        = some (v, writtenAt) ↔
      ∃ after, LastWrite step stamped (Receiver.init mode) events (v, writtenAt) after := by
    refine cell_eq_some_iff
      (fun receiver : Receiver K C => receiver.runtimeValues.targetTorque.inner)
      ?_ ?_ rfl events (v, writtenAt)
    · intro receiver event stamp hstamp
      obtain ⟨v, hv, rfl⟩ := Option.map_eq_some_iff.mp hstamp
      exact congrArg (fun rtv => rtv.targetTorque.inner) (step_sets_target hv)
    · intro receiver event hnone
      exact congrArg Stamped.inner (step_keeps_target (Option.map_eq_none_iff.mp hnone))
  have hquiet : (fun receiver event => stamped receiver event = none)
      = fun receiver event => written receiver event = none := by
    funext receiver event
    exact propext Option.map_eq_none_iff
  -- the tick of the write and the ticks after it are the ticks of the run
  have hticks : ∀ (before : List (Event K F A E)) event after,
      events = before ++ event :: after → (written (run step (Receiver.init mode) before)
        event).isSome → (run step (Receiver.init mode) events).runtimeValues.tick
          = (run step (Receiver.init mode) before).runtimeValues.tick + ticks after := by
    rintro before event after rfl hwritten
    obtain ⟨v, hv⟩ := Option.isSome_iff_exists.mp hwritten
    rw [← List.singleton_append, ← List.append_assoc, run_append, run_tick, run_snoc,
      step_sets_target hv]
    rfl
  refine hcell.trans (exists_congr fun after => ?_)
  constructor
  · rintro ⟨before, event, hsplit, hwrite, hafter⟩
    rw [hquiet] at hafter
    obtain ⟨v', hv, hstamp⟩ := Option.map_eq_some_iff.mp hwrite
    obtain ⟨rfl, rfl⟩ := Prod.mk.inj hstamp
    exact ⟨⟨before, event, hsplit, hv, hafter⟩,
      hticks before event after hsplit (Option.isSome_iff_exists.mpr ⟨_, hv⟩)⟩
  · rintro ⟨⟨before, event, hsplit, hv, hafter⟩, htick⟩
    have hat := hticks before event after hsplit (Option.isSome_iff_exists.mpr ⟨_, hv⟩)
    refine ⟨before, event, hsplit, ?_, hquiet ▸ hafter⟩
    have hsame : (run step (Receiver.init mode) before).runtimeValues.tick = writtenAt :=
      Nat.add_right_cancel (hat.symm.trans htick)
    exact Option.map_eq_some_iff.mpr ⟨v, hv, by rw [hsame]⟩

/-- **FRESHNESS**: a tick is given the last write, if that is recent enough. -/
theorem given_iff (mode : OperatingMode K C) (events : List (Event K F A E))
    (setpointTimeoutMs : UInt16) (v : K) :
    given (run step (Receiver.init mode) events) setpointTimeoutMs = some v ↔
      ∃ after, LastWrite step written (Receiver.init mode) events v after ∧
        ticks after + 1 < setpointTimeoutMs.toNat * ticksPerMs := by
  rw [given, RuntimeValues.readTarget]
  simp only [Stamped.fresh_eq_some_iff, target_iff]
  constructor
  · rintro ⟨writtenAt, ⟨after, hlast, htick⟩, hage⟩
    refine ⟨after, hlast, ?_⟩
    omega
  · rintro ⟨after, hlast, hage⟩
    -- the write is not in the future, so its age is the ticks after it
    have hle : ticks after
        ≤ (run step (Receiver.init mode) events).runtimeValues.tick := by
      obtain ⟨before, event, rfl, -⟩ := hlast
      rw [run_tick]
      refine (List.Sublist.countP_le ?_).trans (Nat.le_add_left _ _)
      exact (List.sublist_cons_self event after).trans (List.sublist_append_right _ _)
    refine ⟨_, ⟨after, hlast, (Nat.sub_add_cancel hle).symm⟩, ?_⟩
    omega

/-! ## Stuck senders -/

/-- The event does nothing for a sender that repeats one counter: no other counter
    comes with a right checksum, and torque control is not requested. -/
def Stuck (counter : UInt8) : Event K F A E → Prop
  | .setpoint msg =>
      crc8 msg.covered.toList = msg.checksum → msg.rollingCounter = counter
  | .command command => command ≠ .requestTorqueControl
  | _ => True

omit [LinearOrder K] [Calibrator C K] [CurrentController F K] [DoesFocMath A K]
  [SaliencyBasedEstimator E K] in
theorem stuck_writes_nothing {counter : UInt8}
    (hcounter : receiver.setpointIntegrity.lastCounter = some counter)
    (h : Stuck counter event) :
    acceptedCounter receiver event = none ∧ written receiver event = none := by
  cases event with
  | setpoint msg =>
      have hrejected : ¬ Accepted receiver msg := by
        rintro ⟨hcrc, hne⟩
        rw [h hcrc] at hne
        exact hne hcounter
      exact ⟨if_neg hrejected, if_neg hrejected⟩
  | command command =>
      refine ⟨rfl, if_neg ?_⟩
      cases command with
      | requestTorqueControl => exact absurd rfl h
      | _ => exact fun hstarts => nomatch hstarts
  | _ => exact ⟨rfl, rfl⟩

/-- **STUCK SENDER**: whatever it sends, it leaves what is stamped as it is. -/
theorem run_stuck {counter : UInt8} (receiver : Receiver K C)
    (hcounter : receiver.setpointIntegrity.lastCounter = some counter)
    (later : List (Event K F A E)) (h : ∀ event ∈ later, Stuck counter event) :
    (run step receiver later).setpointIntegrity.lastCounter = some counter ∧
      (run step receiver later).runtimeValues.targetTorque
        = receiver.runtimeValues.targetTorque := by
  refine run_keeps (A := Stuck counter)
    (I := fun r => r.setpointIntegrity.lastCounter = some counter ∧
      r.runtimeValues.targetTorque = receiver.runtimeValues.targetTorque)
    ?_ later receiver h ⟨hcounter, rfl⟩
  rintro r event hstuck ⟨hsame, htarget⟩
  obtain ⟨haccepted, hwritten⟩ := stuck_writes_nothing hsame hstuck
  exact ⟨(step_keeps_counter haccepted).trans hsame,
    (step_keeps_target hwritten).trans htarget⟩

/-- After the timeout a stuck sender has no setpoint left. -/
theorem given_stuck (mode : OperatingMode K C) (events later : List (Event K F A E))
    {counter : UInt8}
    (hcounter : (run step (Receiver.init mode) events).setpointIntegrity.lastCounter
      = some counter)
    (h : ∀ event ∈ later, Stuck counter event) {setpointTimeoutMs : UInt16}
    (htimeout : setpointTimeoutMs.toNat * ticksPerMs ≤ ticks later + 1) :
    given (run step (run step (Receiver.init mode) events) later) setpointTimeoutMs
      = none := by
  rw [Option.eq_none_iff_forall_ne_some]
  intro v hgiven
  rw [given, RuntimeValues.readTarget, Stamped.fresh_eq_some_iff] at hgiven
  -- the stamp is as old as the start of the stuck part, at the least
  obtain ⟨writtenAt, hinner, hage⟩ := hgiven
  simp only [(run_stuck _ hcounter later h).2, run_tick] at hinner hage
  obtain ⟨after, -, htick⟩ := (target_iff mode events v writtenAt).mp hinner
  rw [run_tick] at htick
  omega

/-- **SETPOINT FRESHNESS**: at every moment of a run the counter compared with is
    that of the last accepted frame; a tick is given exactly the last write younger
    than the timeout; a frame that is not accepted changes nothing of this; a tick
    that leaves a mode that needs a setpoint has been given one; and a sender stuck
    at a counter has lost it when the timeout is over. -/
theorem setpoint_fresh (mode : OperatingMode K C) (events : List (Event K F A E)) :
    let receiver := run step (Receiver.init mode) events
    (∀ counter, receiver.setpointIntegrity.lastCounter = some counter ↔
        ∃ after : List (Event K F A E),
          LastWrite step acceptedCounter (Receiver.init mode) events counter after) ∧
      (∀ setpointTimeoutMs v, given receiver setpointTimeoutMs = some v ↔
        ∃ after, LastWrite step written (Receiver.init mode) events v after ∧
          ticks after + 1 < setpointTimeoutMs.toNat * ticksPerMs) ∧
      (∀ msg, ¬ Accepted receiver msg →
        (receiver.setpoint msg).setpointIntegrity = receiver.setpointIntegrity ∧
          (receiver.setpoint msg).runtimeValues = receiver.runtimeValues) ∧
      (∀ (t : Tick K F A E) setpointTimeoutMs,
        needsSetpoint (step receiver (.tick t setpointTimeoutMs)).mode = true →
          (given receiver setpointTimeoutMs).isSome) ∧
      ∀ counter (later : List (Event K F A E)) (t : Tick K F A E) setpointTimeoutMs,
        receiver.setpointIntegrity.lastCounter = some counter →
        (∀ event ∈ later, Stuck counter event) →
        setpointTimeoutMs.toNat * ticksPerMs ≤ ticks later + 1 →
          needsSetpoint (step (run step receiver later)
            (.tick t setpointTimeoutMs)).mode = false := by
  have halive : ∀ (receiver : Receiver K C) (t : Tick K F A E) setpointTimeoutMs,
      needsSetpoint (step receiver (.tick t setpointTimeoutMs)).mode = true →
        (given receiver setpointTimeoutMs).isSome := by
    intro receiver t setpointTimeoutMs h
    obtain ⟨v, hv⟩ := tick_target h
    exact Option.isSome_iff_exists.mpr ⟨v, hv⟩
  refine ⟨lastCounter_iff mode events, given_iff mode events,
    fun msg => setpoint_rejected, halive _, ?_⟩
  intro counter later t setpointTimeoutMs hcounter hstuck htimeout
  rw [Bool.eq_false_iff]
  intro hneeds
  have hsome := halive _ t setpointTimeoutMs hneeds
  rw [given_stuck mode events later hcounter hstuck htimeout] at hsome
  exact nomatch hsome

end SetpointProofs
