import Stm32Foc.Modes
import Stm32Foc.Debounce

/-! # The torque setpoint

    How a setpoint reaches the current loop.  A frame is taken only if its checksum
    and its rolling counter are right; what it carries is stamped with the tick, and
    the interrupt reads it only while it is fresh. -/

namespace Setpoint

open Debounce Faults Calibration Modes

/-! ## Frame integrity -/

/-- One bit of CRC-8 SAE J1850, most significant bit first. -/
def crc8Shift (crc : UInt8) : UInt8 :=
  if crc &&& 0x80 = 0 then crc <<< 1 else (crc <<< 1) ^^^ 0x1D

/-- `CRC8.checksum` -/
def crc8 (bytes : List UInt8) : UInt8 :=
  bytes.foldl (fun crc byte => Nat.repeat crc8Shift 8 (crc ^^^ byte)) 0xFF ^^^ 0xFF

-- the catalogue's check value, of the digits 1 to 9
example : crc8 [0x31, 0x32, 0x33, 0x34, 0x35, 0x36, 0x37, 0x38, 0x39] = 0x4B := by
  decide +kernel

inductive FrameIntegrityFault where
  | checksumMismatch
  | repeatedCounter
  deriving DecidableEq, Repr

/-- The counter of the last frame that passed. -/
structure FrameIntegrity where
  lastCounter : Option UInt8
  deriving DecidableEq, Repr

/-- `FrameIntegrity::new` -/
def FrameIntegrity.new : FrameIntegrity := ⟨none⟩

/-- `FrameIntegrity::check`: a checksum failure does not consume the counter. -/
def FrameIntegrity.check (integrity : FrameIntegrity) (covered : List UInt8)
    (counter checksum : UInt8) : Except FrameIntegrityFault Unit × FrameIntegrity :=
  if crc8 covered ≠ checksum then (.error .checksumMismatch, integrity)
  else if integrity.lastCounter = some counter then (.error .repeatedCounter, integrity)
  else (.ok (), ⟨some counter⟩)

/-! ## Stamped values -/

/-- A value with the tick it was last written at. -/
structure Stamped (T : Type) where
  inner : Option (T × Nat)
  deriving DecidableEq, Repr

/-- `Stamped::new` -/
def Stamped.new {T : Type} : Stamped T := ⟨none⟩

/-- `Stamped::set`, which keeps nothing of what was stamped before. -/
def Stamped.set {T : Type} (_ : Stamped T) (value : T) (now : Nat) : Stamped T :=
  ⟨some (value, now)⟩

/-- `Stamped::fresh`: a value aged exactly `maxAge` is stale. -/
def Stamped.fresh {T : Type} (stamped : Stamped T) (now maxAge : Nat) : Option T :=
  match stamped.inner with
  | some (value, writtenAt) => if now - writtenAt < maxAge then some value else none
  | none => none

theorem Stamped.fresh_eq_some_iff {T : Type} {stamped : Stamped T} {now maxAge : Nat}
    {value : T} : stamped.fresh now maxAge = some value ↔
      ∃ writtenAt, stamped.inner = some (value, writtenAt) ∧
        now - writtenAt < maxAge := by
  rw [fresh]
  rcases stamped.inner with _ | ⟨value', writtenAt⟩
  · exact iff_of_false (fun h => nomatch h) (fun ⟨_, h, _⟩ => nomatch h)
  · constructor
    · intro h
      obtain ⟨hage, hvalue⟩ := Option.ite_none_right_eq_some.mp h
      exact ⟨writtenAt, congrArg (fun v => some (v, writtenAt)) (Option.some.inj hvalue),
        hage⟩
    · rintro ⟨_, h, hage⟩
      obtain ⟨rfl, rfl⟩ := Prod.mk.inj (Option.some.inj h)
      exact if_pos hage

/-! ## The interrupt and the message handlers -/

variable {K C : Type}

structure RuntimeValues (K : Type) where
  tick : Nat
  targetTorque : Stamped K

/-- The signals of a setpoint frame, and the bytes its checksum is computed over. -/
structure SetpointMsg (K : Type) where
  covered : Vector UInt8 3
  targetTorque : K
  rollingCounter : UInt8
  checksum : UInt8

/-- What the message handlers and the interrupt have to do with setpoints. -/
structure Receiver (K C : Type) where
  mode : OperatingMode K C
  runtimeValues : RuntimeValues K
  setpointIntegrity : FrameIntegrity
  setpointFault : LeakyBucket

/-- What it starts with. -/
def Receiver.init (mode : OperatingMode K C) : Receiver K C where
  mode := mode
  runtimeValues := ⟨0, .new⟩
  setpointIntegrity := .new
  setpointFault := .new 2 1 3

def ticksPerMs : Nat := 40000 / 1000

/-- The interrupt's reading of the setpoint: an outdated one becomes `none`. -/
def RuntimeValues.readTarget (rtv : RuntimeValues K) (setpointTimeoutMs : UInt16) :
    Option K × RuntimeValues K :=
  let rtv := { rtv with tick := rtv.tick + 1 }
  (rtv.targetTorque.fresh rtv.tick (setpointTimeoutMs.toNat * ticksPerMs), rtv)

def RuntimeValues.setTarget (rtv : RuntimeValues K) (torque : K) : RuntimeValues K :=
  { rtv with targetTorque := rtv.targetTorque.set torque rtv.tick }

namespace Receiver

variable [Field K] [LinearOrder K] [Calibrator C K]

/-- The command asks for torque control in a mode that does not follow a setpoint
    yet. -/
def startsTorque (mode : OperatingMode K C) : Command K → Bool
  | .requestTorqueControl =>
      match mode with
      | .saliencyPolarityTest => false
      | .torqueControl => false
      | _ => true
  | _ => false

/-- `can_process` of a mode request, and every other command to the mode. -/
def command (receiver : Receiver K C) (command : Command K) : Receiver K C :=
  { receiver with
    runtimeValues :=
      if startsTorque receiver.mode command then receiver.runtimeValues.setTarget 0
      else receiver.runtimeValues
    mode := receiver.mode.after command }

/-- `can_process` of a setpoint frame. -/
def setpoint (receiver : Receiver K C) (msg : SetpointMsg K) : Receiver K C :=
  let (checked, integrity) := receiver.setpointIntegrity.check msg.covered.toList
    msg.rollingCounter msg.checksum
  match checked with
  | .ok () =>
      { receiver with
        setpointIntegrity := integrity
        runtimeValues := receiver.runtimeValues.setTarget msg.targetTorque
        setpointFault := receiver.setpointFault.drain }
  | .error _ =>
      let bucket := receiver.setpointFault.fill
      { receiver with
        setpointIntegrity := integrity
        setpointFault := bucket
        mode := if bucket.tripped then
            receiver.mode.after (.assertFault .canMessageIntegrity)
          else receiver.mode }

end Receiver

end Setpoint
