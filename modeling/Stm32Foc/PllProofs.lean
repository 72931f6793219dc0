import Stm32Foc.AdcIsr
import Stm32Foc.StreamRun
import Mathlib.Data.Rat.Floor
import Mathlib.Tactic.LinearCombination

/-! # The phase locked loop

    On the angle of a rotor of constant speed, read within a turn of zero, the loop locks: the
    errors of its angle and of its speed shrink together, by the same share with every
    tick, and no wrapping of an angle is ever mistaken for a turn. -/

namespace PllProofs

open FieldOriented Saliency Filtering StreamRun

variable {K : Type} [Field K] [LinearOrder K]

/-! ## A loop along a stream -/

section Loop

variable [FloorRing K]

/-- The loop is shown an angle, as its callers do. -/
def follow (dtS : K) (pll : PLL K) (angle : K) : PLL K :=
  pll.update (wrappedDiff angle pll.state.theta) dtS

/-- The loop after a number of angles. -/
def loopAt (dtS : K) (pll : PLL K) (angles : Nat → K) : Nat → PLL K :=
  after (follow dtS) pll angles

/-- The loop is off by no more than the bound, and its speed by what suits that. -/
structure Within (g dtS omega bound angle : K) (pll : PLL K) : Prop where
  theta : |pll.state.theta| ≤ tau
  error : |wrappedDiff angle pll.state.theta| ≤ bound
  speed : |dtS * (omega - pll.state.omega) - g * wrappedDiff angle pll.state.theta|
    ≤ g * bound
  kp : dtS * pll.kp = g + g
  ki : dtS * (dtS * pll.ki) = g * g

variable [IsStrictOrderedRing K] {g dtS omega bound angle angle' : K} {pll : PLL K}

omit [FloorRing K] in
/-- The error of the angle, after a step at a gain of a half at most. -/
theorem error_shrinks {e w : K} (hgain : 0 < g) (hhalf : g ≤ 1 / 2) (he : |e| ≤ bound)
    (hw : |w - g * e| ≤ g * bound) :
    |(1 - (g + g) - g * g) * e + w| ≤ (1 - g * g) * bound := by
  have hsplit : (1 - (g + g) - g * g) * e + w
      = (1 - g - g * g) * e + (w - g * e) := by ring
  have hpos : 0 ≤ 1 - g - g * g := by nlinarith
  rw [hsplit]
  calc |(1 - g - g * g) * e + (w - g * e)|
      ≤ |(1 - g - g * g) * e| + |w - g * e| := abs_add_le _ _
    _ = (1 - g - g * g) * |e| + |w - g * e| := by rw [abs_mul, abs_of_nonneg hpos]
    _ ≤ (1 - g - g * g) * bound + g * bound :=
        add_le_add (mul_le_mul_of_nonneg_left he hpos) hw
    _ = (1 - g * g) * bound := by ring

omit [FloorRing K] in
/-- And that of the speed, less what the error of the angle is about to correct. -/
theorem speed_shrinks {e w : K} (hgain : 0 < g) (hhalf : g ≤ 1 / 2) (he : |e| ≤ bound)
    (hw : |w - g * e| ≤ g * bound) :
    |(w - g * g * e) - g * ((1 - (g + g) - g * g) * e + w)|
      ≤ g * ((1 - g * g) * bound) := by
  have hsplit : (w - g * g * e) - g * ((1 - (g + g) - g * g) * e + w)
      = (1 - g) * (w - g * e) + g * g * g * e := by ring
  have hpos : 0 ≤ 1 - g := by linarith
  have hcube : 0 ≤ g * g * g := by positivity
  have hslack : 0 ≤ g * g * bound * (1 - (g + g)) :=
    mul_nonneg (mul_nonneg (mul_nonneg hgain.le hgain.le) ((abs_nonneg e).trans he))
      (by linarith)
  rw [hsplit]
  calc |(1 - g) * (w - g * e) + g * g * g * e|
      ≤ |(1 - g) * (w - g * e)| + |g * g * g * e| := abs_add_le _ _
    _ = (1 - g) * |w - g * e| + g * g * g * |e| := by
        rw [abs_mul, abs_mul _ e, abs_of_nonneg hpos, abs_of_nonneg hcube]
    _ ≤ (1 - g) * (g * bound) + g * g * g * bound :=
        add_le_add (mul_le_mul_of_nonneg_left hw hpos)
          (mul_le_mul_of_nonneg_left he hcube)
    _ ≤ g * ((1 - g * g) * bound) := by linarith

/-- The error the loop is shown next, from the one it was shown.  The rotor moves by less
    than half a turn, so that the angles are told apart whatever turn they are in. -/
theorem next_error (hgain : 0 < g) (hhalf : g ≤ 1 / 2) (hbound : bound < pi)
    (hspeed : |dtS * omega| ≤ pi) (hread' : |angle'| ≤ tau)
    (hrotor : SameAngle angle' (angle + dtS * omega))
    (h : Within g dtS omega bound angle pll) :
    |(follow dtS pll angle).state.theta| ≤ pi ∧
      wrappedDiff angle' (follow dtS pll angle).state.theta
        = (1 - (g + g) - g * g) * wrappedDiff angle pll.state.theta
          + dtS * (omega - pll.state.omega) := by
  have htau : (tau : K) = 2 * pi := rfl
  have hpi := pi_pos (K := K)
  obtain ⟨turns, hturns⟩ := sameAngle_wrapToPi (angle - pll.state.theta)
  rw [← wrappedDiff] at hturns
  have hnext := error_shrinks hgain hhalf h.error h.speed
  have herror := h.error
  obtain ⟨e, he⟩ : ∃ e, e = wrappedDiff angle pll.state.theta := ⟨_, rfl⟩
  rw [← he] at hturns hnext herror ⊢
  obtain ⟨e', he'⟩ : ∃ e', e' = (1 - (g + g) - g * g) * e
      + dtS * (omega - pll.state.omega) := ⟨_, rfl⟩
  rw [← he'] at hnext ⊢
  have hless : |e'| < pi := by
    have hnonneg : 0 ≤ g * g * bound :=
      mul_nonneg (mul_nonneg hgain.le hgain.le) ((abs_nonneg e).trans herror)
    refine hnext.trans_lt ?_
    linarith
  -- the loop moves with the rotor, and by the error that it takes away
  have hmoved : (follow dtS pll angle).state.theta
      = wrapToPi (pll.state.theta + dtS * omega + e - e') := by
    show wrapToPi (pll.state.theta + dtS * (pll.kp * wrappedDiff angle pll.state.theta
      + (pll.state.omega + dtS * pll.ki * wrappedDiff angle pll.state.theta))) = _
    rw [← he, he']
    congr 1
    linear_combination e * h.kp + e * h.ki
  have hwrapped : |(follow dtS pll angle).state.theta| ≤ pi := by
    rw [hmoved]
    refine abs_wrapToPi_le ?_
    have hsum := abs_sub (pll.state.theta + dtS * omega + e) e'
    have hsum' := abs_add_le (pll.state.theta + dtS * omega) e
    have hsum'' := abs_add_le pll.state.theta (dtS * omega)
    have htheta := h.theta
    linarith
  refine ⟨hwrapped, eq_of_sameAngle ?_ hless ?_⟩
  · refine abs_wrapToPi_le ?_
    have hsum := abs_sub angle' (follow dtS pll angle).state.theta
    linarith
  · refine (sameAngle_wrapToPi _).trans ?_
    rw [hmoved]
    refine (hrotor.sub (sameAngle_wrapToPi _)).trans ⟨-turns, ?_⟩
    push_cast
    linarith

/-- **ONE STEP** of the loop takes the square of the gain off the bound. -/
theorem within_follow (hgain : 0 < g) (hhalf : g ≤ 1 / 2) (hbound : bound < pi)
    (hspeed : |dtS * omega| ≤ pi) (hread' : |angle'| ≤ tau)
    (hrotor : SameAngle angle' (angle + dtS * omega))
    (h : Within g dtS omega bound angle pll) :
    Within g dtS omega ((1 - g * g) * bound) angle' (follow dtS pll angle) := by
  obtain ⟨htheta, herror⟩ := next_error hgain hhalf hbound hspeed hread' hrotor h
  have htau : (tau : K) = 2 * pi := rfl
  have hpi := pi_pos (K := K)
  refine ⟨htheta.trans (by linarith), ?_, ?_, h.kp, h.ki⟩
  · rw [herror]
    exact error_shrinks hgain hhalf h.error h.speed
  · have homega : dtS * (omega - (follow dtS pll angle).state.omega)
        = dtS * (omega - pll.state.omega)
          - g * g * wrappedDiff angle pll.state.theta := by
      show dtS * (omega - (pll.state.omega
        + dtS * pll.ki * wrappedDiff angle pll.state.theta)) = _
      linear_combination (-wrappedDiff angle pll.state.theta) * h.ki
    rw [homega, herror]
    exact speed_shrinks hgain hhalf h.error h.speed

/-- **THE RUN**: the bound shrinks geometrically. -/
theorem within_loopAt {angles : Nat → K} (hgain : 0 < g) (hhalf : g ≤ 1 / 2)
    (hbound : bound < pi) (hspeed : |dtS * omega| ≤ pi) (hread : ∀ n, |angles n| ≤ tau)
    (hrotor : ∀ n, SameAngle (angles (n + 1)) (angles n + dtS * omega))
    (h : Within g dtS omega bound (angles 0) pll) (n : Nat) :
    Within g dtS omega ((1 - g * g) ^ n * bound) (angles n) (loopAt dtS pll angles n) := by
  have hpos : 0 ≤ bound := (abs_nonneg _).trans h.error
  have hshare : 0 ≤ 1 - g * g := by nlinarith
  have hless : 1 - g * g ≤ 1 := by nlinarith
  induction n with
  | zero =>
      rw [pow_zero, one_mul]
      exact h
  | succ n ih =>
      have hsmall : (1 - g * g) ^ n * bound < pi :=
        (mul_le_of_le_one_left hpos (pow_le_one₀ hshare hless)).trans_lt hbound
      rw [pow_succ', mul_assoc]
      exact within_follow hgain hhalf hsmall hspeed (hread _) (hrotor n) ih

end Loop

/-! ## The loop locks -/

variable [FloorRing K] [IsStrictOrderedRing K]

/-- The loop at the gains of its frequency: the errors of the angle and of the speed. -/
theorem loopAt_locks {pll : PLL K} {frequencyHz dtS omega bound : K} {angles : Nat → K}
    (htuned : setFrequency pll frequencyHz = pll)
    (hgain : 0 < dtS * (tau * frequencyHz)) (hhalf : dtS * (tau * frequencyHz) ≤ 1 / 2)
    (htheta : |pll.state.theta| ≤ tau) (hspeed : |dtS * omega| ≤ pi)
    (hread : ∀ n, |angles n| ≤ tau)
    (hrotor : ∀ n, SameAngle (angles (n + 1)) (angles n + dtS * omega))
    (hbound : bound < pi) (herror : |wrappedDiff (angles 0) pll.state.theta| ≤ bound)
    (hslip : |dtS * (omega - pll.state.omega)
        - dtS * (tau * frequencyHz) * wrappedDiff (angles 0) pll.state.theta|
      ≤ dtS * (tau * frequencyHz) * bound) :
    let g := dtS * (tau * frequencyHz)
    let loop := loopAt dtS pll angles
    ∀ n, |wrappedDiff (angles n) (loop n).state.theta| ≤ (1 - g * g) ^ n * bound ∧
      |dtS * (omega - (loop n).state.omega)| ≤ (g + g) * ((1 - g * g) ^ n * bound) := by
  have htwo : (2.0 : K) = 1 + 1 := by norm_num
  have hstart : Within (dtS * (tau * frequencyHz)) dtS omega bound (angles 0) pll := by
    refine ⟨htheta, herror, hslip, ?_, ?_⟩
    · rw [← htuned]
      show dtS * (2.0 * (tau * frequencyHz)) = _
      rw [htwo]
      ring
    · rw [← htuned]
      show dtS * (dtS * (tau * frequencyHz * (tau * frequencyHz))) = _
      ring
  intro g loop n
  obtain ⟨_, herrorAt, hslipAt, _, _⟩ :=
    within_loopAt hgain hhalf hbound hspeed hread hrotor hstart n
  refine ⟨herrorAt, ?_⟩
  have hsplit : dtS * (omega - (loop n).state.omega)
      = (dtS * (omega - (loop n).state.omega)
          - g * wrappedDiff (angles n) (loop n).state.theta)
        + g * wrappedDiff (angles n) (loop n).state.theta := by ring
  calc |dtS * (omega - (loop n).state.omega)|
      ≤ |dtS * (omega - (loop n).state.omega)
          - g * wrappedDiff (angles n) (loop n).state.theta|
        + |g * wrappedDiff (angles n) (loop n).state.theta| := by
        conv_lhs => rw [hsplit]
        exact abs_add_le _ _
    _ ≤ g * ((1 - g * g) ^ n * bound) + g * ((1 - g * g) ^ n * bound) := by
        refine add_le_add hslipAt ?_
        rw [abs_mul, abs_of_pos hgain]
        exact mul_le_mul_of_nonneg_left herrorAt hgain.le
    _ = (g + g) * ((1 - g * g) ^ n * bound) := by ring

/-! ## The estimator between two injections -/

open SinusoidalPulsingEstimator

variable [HasNormal K]

/-- A tick at which the estimator knows its motor, and there is nothing to demodulate. -/
structure Slaved (dtS : K) (input : SensorlessEstimatorInput K) : Prop where
  dInductance : input.motorParams.dInductance.isSome
  qInductance : input.motorParams.qInductance.isSome
  silent : input.isInjecting = false
  dt : input.dtS = dtS

omit [IsStrictOrderedRing K] in
/-- At such a tick the loop is shown the angle that the estimator is given. -/
theorem update_pll {dtS : K} {input : SensorlessEstimatorInput K} (h : Slaved dtS input)
    (estimator : SinusoidalPulsingEstimator K) :
    (estimator.update input).pll = follow dtS estimator.pll input.theta := by
  obtain ⟨ld, hld⟩ := Option.isSome_iff_exists.mp h.dInductance
  obtain ⟨lq, hlq⟩ := Option.isSome_iff_exists.mp h.qInductance
  rw [SinusoidalPulsingEstimator.update, hld, hlq]
  simp only [h.silent, Bool.false_and, Bool.false_eq_true, if_false, slave, h.dt]
  rfl

omit [IsStrictOrderedRing K] in
/-- As long as it lasts, the loop of the estimator is the loop along the angles. -/
theorem after_update_pll {dtS : K} {inputs : Nat → SensorlessEstimatorInput K}
    (h : ∀ n, Slaved dtS (inputs n)) (estimator : SinusoidalPulsingEstimator K) (n : Nat) :
    (after SinusoidalPulsingEstimator.update estimator inputs n).pll
      = loopAt dtS estimator.pll (fun n => (inputs n).theta) n := by
  induction n with
  | zero => rfl
  | succ n ih =>
      rw [after_succ, update_pll (h n), ih]
      rfl

/-- **THE LOOP LOCKS** while the estimator is slaved: on the angles of a rotor of constant
    speed, given within a turn of zero, the errors of the angle and of the speed are held
    below bounds that shrink by the square of the gain with every tick. -/
theorem slaved_locks {estimator : SinusoidalPulsingEstimator K}
    {inputs : Nat → SensorlessEstimatorInput K} {frequencyHz dtS omega bound : K}
    (hslaved : ∀ n, Slaved dtS (inputs n))
    (htuned : setFrequency estimator.pll frequencyHz = estimator.pll)
    (hgain : 0 < dtS * (tau * frequencyHz)) (hhalf : dtS * (tau * frequencyHz) ≤ 1 / 2)
    (htheta : |estimator.pll.state.theta| ≤ tau) (hspeed : |dtS * omega| ≤ pi)
    (hread : ∀ n, |(inputs n).theta| ≤ tau)
    (hrotor : ∀ n, SameAngle (inputs (n + 1)).theta ((inputs n).theta + dtS * omega))
    (hbound : bound < pi)
    (herror : |wrappedDiff (inputs 0).theta estimator.pll.state.theta| ≤ bound)
    (hslip : |dtS * (omega - estimator.pll.state.omega)
        - dtS * (tau * frequencyHz)
          * wrappedDiff (inputs 0).theta estimator.pll.state.theta|
      ≤ dtS * (tau * frequencyHz) * bound) :
    let g := dtS * (tau * frequencyHz)
    let loop := fun n => (after SinusoidalPulsingEstimator.update estimator inputs n).pll.state
    ∀ n, |wrappedDiff (inputs n).theta (loop n).theta| ≤ (1 - g * g) ^ n * bound ∧
      |dtS * (omega - (loop n).omega)| ≤ (g + g) * ((1 - g * g) ^ n * bound) := by
  intro g loop n
  have hlocks := loopAt_locks htuned hgain hhalf htheta hspeed hread hrotor hbound herror
    hslip n
  rw [← after_update_pll hslaved] at hlocks
  exact hlocks

/-- A rotor that is at one radian, and makes thirty turns a second. -/
def spinning (n : Nat) : SensorlessEstimatorInput ℚ where
  theta := wrapTo2pi (1 + n * (1 / 40000 * (tau * 30)))
  iDq := ⟨0, 0⟩
  isInjecting := false
  hfiIDq := ⟨0, 0⟩
  motorParams := ⟨some 7, some 1, some 1, some 2, some (1 / 100), none⟩
  hfiParams := ⟨1, 1000, 30⟩
  dtS := 1 / 40000

/-- The estimator of a board that has just started. -/
theorem slaved_locks_spinning :
    let loop := fun n => (after SinusoidalPulsingEstimator.update
      (AdcIsr.Isr.init AdcIsr.startQ).saliencyEstimator spinning n).pll.state
    let g : ℚ := 1 / 40000 * (tau * 10)
    (0 < g ∧ g ≤ 1 / 2) ∧
      ∀ n, |wrappedDiff (spinning n).theta (loop n).theta| ≤ (1 - g * g) ^ n * 3 ∧
        |1 / 40000 * (tau * 30 - (loop n).omega)| ≤ (g + g) * ((1 - g * g) ^ n * 3) := by
  have hgain : 0 < 1 / 40000 * (tau * 10 : ℚ) := by decide +kernel
  have hhalf : 1 / 40000 * (tau * 10 : ℚ) ≤ 1 / 2 := by decide +kernel
  refine ⟨⟨hgain, hhalf⟩, slaved_locks (fun n => ⟨rfl, rfl, rfl, rfl⟩) (by decide +kernel)
    hgain hhalf (by decide +kernel) (by decide +kernel) (fun n => ?_) (fun n => ?_)
    (by decide +kernel) (by decide +kernel) (by decide +kernel)⟩
  · obtain ⟨⟨hlow, hhigh⟩, _⟩ :=
      wrapTo2pi_spec (1 + n * (1 / 40000 * (tau * 30)) : ℚ)
    exact abs_le.mpr ⟨(neg_nonpos.mpr tau_pos.le).trans hlow, hhigh.le⟩
  · obtain ⟨_, turns, hturns⟩ := wrapTo2pi_spec (1 + n * (1 / 40000 * (tau * 30)) : ℚ)
    obtain ⟨_, turns', hturns'⟩ :=
      wrapTo2pi_spec (1 + (n + 1 : ℕ) * (1 / 40000 * (tau * 30)) : ℚ)
    refine ⟨turns' - turns, ?_⟩
    show wrapTo2pi _ = wrapTo2pi _ + _ + _
    rw [hturns, hturns']
    push_cast
    ring

end PllProofs
