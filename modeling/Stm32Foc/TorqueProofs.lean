import Stm32Foc.TickProofs
import Mathlib.Tactic.Linarith

/-! # When a torque is commanded

    A torque other than zero comes from torque control only, and there it has
    passed every check of the tick (`SafeTorque`): the limits can take away from
    the setpoint, but neither add to it nor turn it. -/

namespace TorqueProofs

open EventRun FieldOriented Faults SafeStrategy Calibration Modes Control TickProofs
open Saliency

variable {K : Type} [Field K] [LinearOrder K] [IsStrictOrderedRing K]

/-! ## The limits -/

/-- The speed limit, in the feedback's angle domain. -/
def speedLimit (inputs : FocStepInputs K) (scale : K) : K :=
  rpmToRads * scale * inputs.rotorSpeedLimitMechRpm.toNat

theorem speedLimit_nonneg (inputs : FocStepInputs K) {scale : K} (h : 0 ≤ scale) :
    0 ≤ speedLimit inputs scale :=
  mul_nonneg (mul_nonneg rpmToRads_nonneg h) (Nat.cast_nonneg _)

/-- A limit that takes away from a torque, or leaves it. -/
structure Reduces (torque torque' : K) : Prop where
  sameSign : 0 ≤ torque' * torque
  bounded : |torque'| ≤ |torque|

theorem Reduces.refl (torque : K) : Reduces torque torque :=
  ⟨mul_self_nonneg torque, le_refl _⟩

theorem Reduces.zero (torque : K) : Reduces torque 0 :=
  ⟨by rw [zero_mul], by rw [abs_zero]; exact abs_nonneg torque⟩

/-- The speed limit reduces the torque, and lets none through that accelerates a
    rotor beyond it. -/
theorem speedLimited_spec (inputs : FocStepInputs K) {scale : K} (hscale : 0 ≤ scale)
    (omega torque : K) :
    Reduces torque (speedLimited inputs (some scale) omega torque) ∧
      (|omega| > speedLimit inputs scale →
        speedLimited inputs (some scale) omega torque * omega ≤ 0) := by
  have hlimit := speedLimit_nonneg inputs hscale
  have hdef : speedLimited inputs (some scale) omega torque
      = if omega > speedLimit inputs scale ∧ torque > 0 then 0
        else if omega < -speedLimit inputs scale ∧ torque < 0 then 0
        else torque := rfl
  rw [hdef]
  by_cases hforward : omega > speedLimit inputs scale ∧ torque > 0
  · rw [if_pos hforward]
    exact ⟨Reduces.zero torque, fun _ => by rw [zero_mul]⟩
  rw [if_neg hforward]
  by_cases hbackward : omega < -speedLimit inputs scale ∧ torque < 0
  · rw [if_pos hbackward]
    exact ⟨Reduces.zero torque, fun _ => by rw [zero_mul]⟩
  rw [if_neg hbackward]
  refine ⟨Reduces.refl torque, ?_⟩
  intro hfast
  -- neither branch was taken, so the torque brakes
  rcases lt_abs.mp hfast with h | h
  · have htorque : torque ≤ 0 := by
      by_contra hpos
      exact hforward ⟨h, not_le.mp hpos⟩
    exact mul_nonpos_of_nonpos_of_nonneg htorque (by linarith)
  · have htorque : 0 ≤ torque := by
      by_contra hneg
      exact hbackward ⟨by linarith, not_le.mp hneg⟩
    exact mul_nonpos_of_nonneg_of_nonpos htorque (by linarith)

/-- The braking limit reduces the torque, and bounds one that opposes a rotor that
    is not stationary. -/
theorem brakingLimited_spec {threshold maxTorque : K} (hthreshold : 0 ≤ threshold)
    (hmax : 0 ≤ maxTorque) (omega torque : K) :
    Reduces torque (brakingLimited threshold maxTorque omega torque) ∧
      (torque * omega ≤ 0 →
        brakingLimited threshold maxTorque omega torque * omega ≤ 0) ∧
      (|omega| > threshold →
        brakingLimited threshold maxTorque omega torque * omega < 0 →
        |brakingLimited threshold maxTorque omega torque| ≤ maxTorque) := by
  rw [brakingLimited]
  by_cases hforward : omega > threshold ∧ torque < -maxTorque
  · -- braking a forward rotor
    rw [if_pos hforward]
    have habs : |-maxTorque| = maxTorque := by rw [abs_neg, abs_of_nonneg hmax]
    have htorque : torque < 0 := by linarith [hforward.2]
    refine ⟨⟨?_, ?_⟩, ?_, ?_⟩
    · exact mul_nonneg_of_nonpos_of_nonpos (by linarith) htorque.le
    · rw [habs, abs_of_neg htorque]
      linarith [hforward.2]
    · intro _
      exact mul_nonpos_of_nonpos_of_nonneg (by linarith) (by linarith [hforward.1])
    · intro _ _
      exact habs.le
  rw [if_neg hforward]
  by_cases hbackward : omega < -threshold ∧ torque > maxTorque
  · -- braking a backward rotor
    rw [if_pos hbackward]
    have habs : |maxTorque| = maxTorque := abs_of_nonneg hmax
    have htorque : 0 < torque := by linarith [hbackward.2]
    refine ⟨⟨mul_nonneg hmax htorque.le, ?_⟩, ?_, ?_⟩
    · rw [habs, abs_of_pos htorque]
      exact hbackward.2.le
    · intro _
      exact mul_nonpos_of_nonneg_of_nonpos hmax (by linarith [hbackward.1])
    · intro _ _
      exact habs.le
  rw [if_neg hbackward]
  -- nothing was cut: a torque that opposes the rotor is within the bound
  refine ⟨Reduces.refl torque, id, ?_⟩
  intro hmoving hopposed
  rcases lt_abs.mp hmoving with h | h
  · have hlow : -maxTorque ≤ torque := by
      by_contra hlt
      exact hforward ⟨h, not_le.mp hlt⟩
    have htorque : torque < 0 := by
      by_contra hnot
      have := mul_nonneg (not_lt.mp hnot) (by linarith : (0 : K) ≤ omega)
      linarith
    rw [abs_of_neg htorque]
    linarith
  · have hhigh : torque ≤ maxTorque := by
      by_contra hgt
      exact hbackward ⟨by linarith, not_le.mp hgt⟩
    have htorque : 0 < torque := by
      by_contra hnot
      have := mul_nonneg_of_nonpos_of_nonpos (not_lt.mp hnot)
        (by linarith : omega ≤ 0)
      linarith
    rw [abs_of_pos htorque]
    exact hhigh

theorem Reduces.trans {a b c : K} (hb : Reduces a b) (hc : Reduces b c) :
    Reduces a c := by
  refine ⟨?_, hc.bounded.trans hb.bounded⟩
  -- both have the sign of `b`, and where that is zero so is `c`
  rcases lt_trichotomy b 0 with h | rfl | h
  · have ha : a ≤ 0 := by
      by_contra hpos
      have := mul_neg_of_neg_of_pos h (not_le.mp hpos)
      linarith [hb.sameSign]
    have hc' : c ≤ 0 := by
      by_contra hpos
      have := mul_neg_of_pos_of_neg (not_le.mp hpos) h
      linarith [hc.sameSign]
    exact mul_nonneg_of_nonpos_of_nonpos hc' ha
  · have hzero : c = 0 := by
      have hle := hc.bounded
      rw [abs_zero] at hle
      exact abs_eq_zero.mp (le_antisymm hle (abs_nonneg c))
    rw [hzero, zero_mul]
  · have ha : 0 ≤ a := by
      by_contra hneg
      have := mul_neg_of_pos_of_neg h (not_le.mp hneg)
      linarith [hb.sameSign]
    have hc' : 0 ≤ c := by
      by_contra hneg
      have := mul_neg_of_neg_of_pos (not_le.mp hneg) h
      linarith [hc.sameSign]
    exact mul_nonneg hc' ha

/-- A torque that is left of another one has its sign. -/
theorem Reduces.pos {torque torque' : K} (h : Reduces torque torque')
    (hne : torque' ≠ 0) : 0 < torque' * torque := by
  have htorque : torque ≠ 0 := by
    rintro rfl
    have hle := h.bounded
    rw [abs_zero] at hle
    exact hne (abs_eq_zero.mp (le_antisymm hle (abs_nonneg torque')))
  exact lt_of_le_of_ne h.sameSign (mul_ne_zero hne htorque).symm

/-! ## The torque of torque control -/

variable {C F A E : Type}

/-- The limits and the torque constant that a tick is given are not negative. -/
structure ValidTick (t : Tick K F A E) : Prop where
  threshold : 0 ≤ t.inputs.stationaryOmegaThreshold
  torqueConstant : 0 ≤ t.params.torqueConstant.getD 0
  brakingLimit : 0 ≤ t.inputs.brakingCurrentLimitA

/-- The braking torque that the limit allows. -/
def maxBrakingTorque (t : Tick K F A E) : K :=
  t.params.torqueConstant.getD 0 * t.inputs.brakingCurrentLimitA

/-- **THE DEMAND** is what the limits leave of the setpoint. -/
theorem torqueDemand_spec {t : Tick K F A E} (ht : ValidTick t)
    (feedback : RotorFeedback K) :
    let torque := torqueDemand t.inputs feedback t.params
    Reduces (t.inputs.targetTorque.getD 0) torque ∧
      ∀ scale, mechToFeedback feedback.angleType t.params = some scale →
        (|feedback.omega| > speedLimit t.inputs scale →
          torque * feedback.omega ≤ 0) ∧
        (|feedback.omega| > t.inputs.stationaryOmegaThreshold * scale →
          torque * feedback.omega < 0 → |torque| ≤ maxBrakingTorque t) := by
  have hmax : 0 ≤ maxBrakingTorque t := mul_nonneg ht.torqueConstant ht.brakingLimit
  cases hscale : mechToFeedback feedback.angleType t.params with
  | none =>
      have hdef : torqueDemand t.inputs feedback t.params
          = brakingLimited (t.inputs.stationaryOmegaThreshold * 1)
            (maxBrakingTorque t) feedback.omega
            (t.inputs.targetTorque.getD 0) := by
        rw [torqueDemand, hscale]
        rfl
      have hbrake := brakingLimited_spec (mul_nonneg ht.threshold zero_le_one) hmax
        feedback.omega (t.inputs.targetTorque.getD 0)
      rw [hdef]
      exact ⟨hbrake.1, fun scale h => nomatch h⟩
  | some scale =>
      have hscale₀ := mechToFeedback_nonneg hscale
      have hdef : torqueDemand t.inputs feedback t.params
          = brakingLimited (t.inputs.stationaryOmegaThreshold * scale)
            (maxBrakingTorque t) feedback.omega
            (speedLimited t.inputs (some scale) feedback.omega
              (t.inputs.targetTorque.getD 0)) := by
        rw [torqueDemand, hscale]
        rfl
      obtain ⟨hreduced, hslow⟩ := speedLimited_spec t.inputs hscale₀ feedback.omega
        (t.inputs.targetTorque.getD 0)
      -- what the speed limit leaves is then bounded by the braking limit
      obtain ⟨hbraked, hkept, hbound⟩ := brakingLimited_spec
        (mul_nonneg ht.threshold hscale₀) hmax feedback.omega
        (speedLimited t.inputs (some scale) feedback.omega
          (t.inputs.targetTorque.getD 0))
      rw [hdef]
      refine ⟨hreduced.trans hbraked, ?_⟩
      intro scale' h
      obtain rfl := Option.some.inj h
      exact ⟨fun hfast => hkept (hslow hfast), hbound⟩

/-- **A SAFE TORQUE**: all that is known of a tick that commands one. -/
structure SafeTorque (t : Tick K F A E) (c : ComputeCall K C)
    (torque setpoint : K) (feedback : RotorFeedback K) : Prop where
  mode : c.mode = .torqueControl
  noWatchdogFault : t.inputs.watchdogFault = false
  noOvercurrent : t.inputs.overcurrent = false
  noBrakingFault : t.inputs.brakingLimitExceeded = false
  commanded : t.inputs.targetTorque = some setpoint
  measured : t.inputs.rotorFeedback = .ok feedback
  angleType : c.input.angleType = feedback.angleType
  theta : c.input.theta = feedback.theta
  omega : c.input.omega = feedback.omega
  dcBus : t.inputs.dcBusReadingV = some c.input.dcBusVoltageV
  sameSign : 0 < torque * setpoint
  bounded : |torque| ≤ |setpoint|
  notTooFast : ∀ scale, mechToFeedback feedback.angleType t.params = some scale →
    |feedback.omega| ≤ maxOmega t.inputs scale
  notFaster : ∀ scale, mechToFeedback feedback.angleType t.params = some scale →
    |feedback.omega| > speedLimit t.inputs scale → torque * feedback.omega ≤ 0
  braking : ∀ scale, mechToFeedback feedback.angleType t.params = some scale →
    |feedback.omega| > t.inputs.stationaryOmegaThreshold * scale →
    torque * feedback.omega < 0 → |torque| ≤ maxBrakingTorque t

variable [Calibrator C K] [CurrentController F K] [DoesFocMath A K]
  [SaliencyBasedEstimator E K]

/-- A torque other than zero, from a calibrator and an estimator that command
    none, is a safe one. -/
theorem call_safeTorque (hcal : CommandsNoTorque K C)
    (hest : ∀ (estimator : E) (torque : K),
      SaliencyBasedEstimator.polarityTestCommand estimator ≠ .targetTorque torque)
    {t : Tick K F A E} (ht : ValidTick t) {mode : OperatingMode K C}
    {c : ComputeCall K C} {torque : K} (hcall : t.call mode = some c)
    (htorque : c.input.command = .targetTorque torque) (hne : torque ≠ 0) :
    ∃ setpoint feedback, SafeTorque t c torque setpoint feedback := by
  obtain ⟨dcBusVoltageV, hdc, hpassed, -, hangle, htheta, homega, hsource⟩ :=
    torqueCall_cases hcal hcall htorque
  cases hsource with
  | safety _ hzero => exact absurd hzero hne
  | polarityTest _ hp => exact absurd hp (hest _ torque)
  | torqueControl hm hc hdemand =>
      obtain ⟨hmode, -, hestimate, hspeed⟩ := supervise_other hm id
        (fun _ h => nomatch h)
      obtain ⟨hboard, ⟨setpoint, hset⟩, hmissed, feedback, hmeasured, hfeedback⟩ :=
        diagnose_torqueControl hmode
      have hused : t.feedback mode = feedback := by
        rw [Tick.feedback, Tick.diagnosed, hfeedback]
        rfl
      have hestimate' : (t.supervised mode dcBusVoltageV).activeEstimate = t.params :=
        hestimate
      obtain ⟨hreduced, hlimits⟩ := torqueDemand_spec ht feedback
      rw [hused] at hdemand hangle htheta homega
      rw [hestimate'] at hdemand
      rw [← hdemand, hset, Option.getD_some] at hreduced
      rw [← hdemand] at hlimits
      rw [boardFault, Bool.or_eq_false_iff, Bool.or_eq_false_iff] at hboard
      -- every check of the tick was passed, for the call to be made
      refine ⟨setpoint, feedback, ?_⟩
      exact
        { mode := hc
          noWatchdogFault := hboard.1.1
          noOvercurrent := hboard.1.2
          noBrakingFault := hboard.2
          commanded := hset
          measured := hmeasured
          angleType := hangle
          theta := htheta
          omega := homega
          dcBus := by rw [hdc, hpassed]
          sameSign := hreduced.pos hne
          bounded := hreduced.bounded
          notTooFast := by
            intro scale hscale
            have hfalse : overspeed t.inputs (t.diagnosed mode).rotorFeedbackFault
                (mechToFeedback (t.feedback mode).angleType t.params)
                (t.feedback mode).omega = false := hspeed
            have hmissed' : (t.diagnosed mode).rotorFeedbackFault = false := hmissed
            rw [hmissed', hused, hscale, overspeed,
              if_neg Bool.false_ne_true] at hfalse
            exact not_lt.mp (of_decide_eq_false hfalse)
          notFaster := fun scale hscale => (hlimits scale hscale).1
          braking := fun scale hscale => (hlimits scale hscale).2 }

omit [IsStrictOrderedRing K] in
/-- The polarity test commands a voltage, which is zero. -/
theorem polarityTest_commandsNoTorque (estimator : SinusoidalPulsingEstimator K)
    (torque : K) :
    SaliencyBasedEstimator.polarityTestCommand estimator ≠ .targetTorque torque := by
  intro h
  have hraw : (.rawVoltages ⟨0, 0⟩ : FocInputType K) = .targetTorque torque := h
  exact nomatch hraw

/-! ## Runs -/

/-- A tick that commands a torque other than zero commands a safe one. -/
def CommandsSafeTorque (mode : OperatingMode K C) : Event K F A E → Prop
  | .tick t => ∀ c torque, t.call mode = some c →
      c.input.command = .targetTorque torque → torque ≠ 0 →
      ∃ setpoint feedback, SafeTorque t c torque setpoint feedback
  | _ => True

/-- What the ticks of a run are given is valid. -/
def ValidEvent : Event K F A E → Prop
  | .tick t => ValidTick t
  | _ => True

/-- **SAFE TORQUE OVER ALL RUNS**: along every run of ticks and commands from any
    mode, every torque other than zero is a safe one. -/
theorem run_commandsSafeTorque {H P : Type} [HallCalibrates H K]
    [EstimatesMotorParams P K] (start : OperatingMode K (CalibrationRunner K H P))
    (events : List (Event K F A (SinusoidalPulsingEstimator K)))
    (hevents : ∀ event ∈ events, ValidEvent event) :
    Always step CommandsSafeTorque start events := by
  refine always_of_forall ?_ events start hevents
  intro mode event hevent
  cases event with
  | tick t =>
      intro c torque hcall htorque hne
      exact call_safeTorque runner_commandsNoTorque polarityTest_commandsNoTorque
        hevent hcall htorque hne
  | _ => exact trivial

/-- A turning motor in torque control. -/
theorem run_commandsSafeTorque_turning :
    let t := tickQ (.ok ⟨.electrical, 1, 100⟩) (some 1)
    let mode : OperatingMode ℚ RunnerQ := .torqueControl
    Always step CommandsSafeTorque mode [.tick t] ∧
      (t.call mode).map (fun c => c.input.command) = some (.targetTorque 1) := by
  intro t mode
  refine ⟨run_commandsSafeTorque mode [.tick t] ?_, ?_⟩
  · intro event hevent
    obtain rfl := List.mem_singleton.mp hevent
    refine ⟨?_, ?_, ?_⟩ <;> decide +kernel
  · decide +kernel

end TorqueProofs
