import Stm32Foc.Arbitration
import Stm32Foc.LimitProofs
import Mathlib.Data.Rat.Floor

/-! # The blend stays between its estimates

    An accepted pair of thresholds may be equal: then the reciprocal is that of zero, and
    where the blend speed stands right on the pair the weight is not a number.  Pairs that
    differ are sound, and only they are (`blend_sound_iff`). -/

namespace ArbitrationProofs

open EventRun FieldOriented FirmwareTypes Arbitration Arbitration.FeedbackArbitrator

variable {K : Type} [Field K] [LinearOrder K]

/-- What reaches the arbitrator. -/
inductive Event (K : Type) where
  | updateHall (result : Feedback K) (pattern : UInt8)
  | updateSensorless (saliency flux : Feedback K)
  | setThresholds (low high : K)

/-- The pair of thresholds is one that `set_sensorless_1` takes. -/
def Accepted (low high : K) : Prop :=
  ∃ (config config' : FirmwareConfig K) (hfi startup lowPll highPll : K),
    config.setSensorless1 hfi startup low high lowPll highPll = .ok config'

/-- The angle of an estimate, if there is one, lies in `[0, TAU)`. -/
def InTurn (estimate : Feedback K) : Prop :=
  ∀ feedback, estimate = .ok feedback → 0 ≤ feedback.theta ∧ feedback.theta < tau

/-- What is promised of an event: angles in one turn, thresholds accepted. -/
def Admitted : Event K → Prop
  | .updateHall _ _ => True
  | .updateSensorless saliency flux => InTurn saliency ∧ InTurn flux
  | .setThresholds low high => Accepted low high

/-- An angle is on the shorter arc from `start` to `stop`, at the fraction `alpha` of
    it. -/
def OnShorterArc (start stop alpha theta : K) : Prop :=
  ∃ arc : K, |arc| ≤ pi ∧ SameAngle (start + arc) stop ∧
    SameAngle theta (start + alpha * arc)

variable [FloorRing K]

/-- The arbitrator takes an event. -/
def step (self : FeedbackArbitrator K) : Event K → FeedbackArbitrator K
  | .updateHall result pattern => self.updateHall result pattern
  | .updateSensorless saliency flux => self.updateSensorless saliency flux
  | .setThresholds low high => self.setThresholds low high

/-- Two estimates are mixed: by a weight between 0 and 1, to an angle in one turn, on
    the shorter arc between theirs, and a speed between theirs. -/
def Mixes (self : FeedbackArbitrator K) (low high : RotorFeedback K) : Prop :=
  ∃ alpha theta omega : K, self.weight = some alpha ∧ (0 ≤ alpha ∧ alpha ≤ 1) ∧
    (self.updateSensorless (.ok low) (.ok high)).sensorlessFeedback
      = some (.ok ⟨.electrical, some theta, some omega⟩) ∧
    (0 ≤ theta ∧ theta < tau) ∧ OnShorterArc high.theta low.theta alpha theta ∧
    min low.omega high.omega ≤ omega ∧ omega ≤ max low.omega high.omega

/-- Two estimates are mixed as they should be, and one alone is used in its own range of
    speeds only. -/
def Blends (self : FeedbackArbitrator K) : Event K → Prop
  | .updateSensorless (.ok low) (.ok high) => Mixes self low high
  | .updateSensorless (.ok low) (.error fault) => ∀ feedback,
      (self.updateSensorless (.ok low) (.error fault)).sensorlessFeedback
        = some (.ok feedback) → |low.omega| < self.highSpeedThresholdOmegaRads
  | .updateSensorless (.error fault) (.ok high) => ∀ feedback,
      (self.updateSensorless (.error fault) (.ok high)).sensorlessFeedback
        = some (.ok feedback) → self.lowSpeedThresholdOmegaRads < |high.omega|
  | _ => True

/-- What a blend multiplies by is a number: nothing was divided by zero for it. -/
def FiniteReciprocal (self : FeedbackArbitrator K) : Prop :=
  ∃ reciprocal, self.blendReciprocal = some reciprocal

/-- **SOUNDNESS** of an event: it blends as it should, and leaves a reciprocal that is a
    number. -/
def Sound (self : FeedbackArbitrator K) (event : Event K) : Prop :=
  Blends self event ∧ FiniteReciprocal (step self event)

/-- The thresholds differ, or the blend speed is not on them. -/
def Apart (self : FeedbackArbitrator K) : Prop :=
  self.lowSpeedThresholdOmegaRads < self.highSpeedThresholdOmegaRads ∨
    self.blendOmega.map abs ≠ some self.highSpeedThresholdOmegaRads

/-- Two estimates are mixed only apart from the thresholds. -/
def Separated (self : FeedbackArbitrator K) : Event K → Prop
  | .updateSensorless (.ok _) (.ok _) => Apart self
  | _ => True

/-- **THE INVARIANT**: the thresholds are in order, the reciprocal is that of their
    difference, and the blend speed is a number. -/
structure Ready (a : FeedbackArbitrator K) : Prop where
  ordered : a.lowSpeedThresholdOmegaRads ≤ a.highSpeedThresholdOmegaRads
  reciprocal : a.blendReciprocal = Arbitration.reciprocal
    (a.highSpeedThresholdOmegaRads - a.lowSpeedThresholdOmegaRads)
  number : ∃ omega, a.blendOmega = some omega

variable {self : FeedbackArbitrator K} [IsStrictOrderedRing K]

omit [FloorRing K] [IsStrictOrderedRing K] in
theorem le_of_accepted {low high : K} (h : Accepted low high) : low ≤ high := by
  obtain ⟨config, config', hfi, startup, lowPll, highPll, hok⟩ := h
  obtain ⟨⟨-, -, ⟨-, hle⟩, -⟩, -⟩ := LimitProofs.setSensorless1_eq_ok.mp hok
  exact hle

omit [FloorRing K] in
/-- **THE WEIGHT** is a fraction, or none at all on equal thresholds. -/
theorem weight_cases (h : Ready self) :
    (∃ alpha, self.weight = some alpha ∧ 0 ≤ alpha ∧ alpha ≤ 1 ∧ Apart self) ∨
      (self.weight = none ∧ ¬ Apart self) := by
  obtain ⟨omega, homega⟩ := h.number
  have hle := h.ordered
  have hon : self.blendOmega.map abs ≠ some self.highSpeedThresholdOmegaRads ↔
      |omega| ≠ self.highSpeedThresholdOmegaRads := by
    rw [homega, Option.map_some, ne_eq, Option.some.injEq]
  simp only [weight, homega]
  rw [Apart, hon]
  by_cases habove : |omega| > self.highSpeedThresholdOmegaRads
  · rw [if_pos habove]
    exact Or.inl ⟨0, rfl, le_refl 0, zero_le_one, Or.inr habove.ne'⟩
  rw [if_neg habove]
  by_cases hbelow : |omega| < self.lowSpeedThresholdOmegaRads
  · rw [if_pos hbelow]
    exact Or.inl ⟨1, rfl, zero_le_one, le_refl 1, Or.inr (hbelow.trans_le hle).ne⟩
  rw [if_neg hbelow, h.reciprocal, Arbitration.reciprocal]
  rcases hle.lt_or_eq with hlt | heq
  · -- inside the band the weight is a fraction of its width
    have hwidth : 0 < self.highSpeedThresholdOmegaRads - self.lowSpeedThresholdOmegaRads :=
      sub_pos.mpr hlt
    rw [if_neg hwidth.ne', Option.map_some, mul_one_div]
    refine Or.inl ⟨_, rfl, ?_, ?_, Or.inl hlt⟩
    · exact div_nonneg (sub_nonneg.mpr (not_lt.mp habove)) hwidth.le
    · exact (div_le_one hwidth).mpr (sub_le_sub_left (not_lt.mp hbelow) _)
  · rw [if_pos (sub_eq_zero.mpr heq.symm)]
    refine Or.inr ⟨rfl, ?_⟩
    rintro (hlt | hne)
    · exact heq.not_lt hlt
    · rw [heq] at hbelow
      exact hne (le_antisymm (not_lt.mp habove) (not_lt.mp hbelow))

omit [FloorRing K] in
/-- A weighted mean lies between. -/
theorem mean_between {alpha x y : K} (h0 : 0 ≤ alpha) (h1 : alpha ≤ 1) :
    min x y ≤ alpha * x + (1 - alpha) * y ∧ alpha * x + (1 - alpha) * y ≤ max x y := by
  have h1' := sub_nonneg.mpr h1
  constructor
  · have hx := mul_le_mul_of_nonneg_left (min_le_left x y) h0
    have hy := mul_le_mul_of_nonneg_left (min_le_right x y) h1'
    linarith
  · have hx := mul_le_mul_of_nonneg_left (le_max_left x y) h0
    have hy := mul_le_mul_of_nonneg_left (le_max_right x y) h1'
    linarith

/-- **THE ANGLE**: the mix of two angles is one, on the shorter arc between them. -/
theorem mix_angle {low high alpha : K} (hlow : 0 ≤ low ∧ low < tau)
    (hhigh : 0 ≤ high ∧ high < tau) (h0 : 0 ≤ alpha) (h1 : alpha ≤ 1) :
    let theta := wrapInRangeTo2pi (high + alpha * wrappedDiff low high)
    (0 ≤ theta ∧ theta < tau) ∧ OnShorterArc high low alpha theta := by
  have hapart : |low - high| ≤ 3 * tau := abs_le.mpr ⟨by linarith, by linarith⟩
  have harc := abs_wrapToPi_le hapart
  have hsame := sameAngle_wrapToPi (low - high)
  rw [← wrappedDiff] at harc hsame
  -- the part of the arc that is added is no longer than the arc
  have hpart : |alpha * wrappedDiff low high| ≤ pi := by
    rw [abs_mul, abs_of_nonneg h0]
    calc alpha * |wrappedDiff low high| ≤ 1 * |wrappedDiff low high| :=
          mul_le_mul_of_nonneg_right h1 (abs_nonneg _)
      _ = |wrappedDiff low high| := one_mul _
      _ ≤ pi := harc
  obtain ⟨hpart_low, hpart_high⟩ := abs_le.mp hpart
  have hpi := pi_pos (K := K)
  have htau : (tau : K) = 2 * pi := rfl
  have hlow : -tau < high + alpha * wrappedDiff low high := by linarith
  have hhigh : high + alpha * wrappedDiff low high < 2 * tau := by linarith
  have hwrap := wrapInRangeTo2pi_spec hlow hhigh
  refine ⟨hwrap.1, wrappedDiff low high, harc, ?_, hwrap.2⟩
  obtain ⟨turns, hturns⟩ := hsame
  exact ⟨turns, by rw [hturns]; ring⟩

/-- **MIXING**: two estimates are mixed soundly exactly where the thresholds, or the
    blend speed, are separated. -/
theorem mixes_iff {low high : RotorFeedback K} (h : Ready self)
    (hlow : 0 ≤ low.theta ∧ low.theta < tau) (hhigh : 0 ≤ high.theta ∧ high.theta < tau) :
    Mixes self low high ↔ Apart self := by
  rcases weight_cases h with ⟨alpha, hweight, h0, h1, hsep⟩ | ⟨hweight, hsep⟩
  · refine iff_of_true ?_ hsep
    obtain ⟨htheta, harc⟩ := mix_angle hlow hhigh h0 h1
    refine ⟨alpha, _, _, hweight, ⟨h0, h1⟩, ?_, htheta, harc, mean_between h0 h1⟩
    have hsame : weight { self with
        saliencyEstimate := some (.ok low), fluxEstimate := some (.ok high) }
        = some alpha := hweight
    show some (Except.ok (RotorFeedback.mk _ (Option.map _ (weight _))
      (Option.map _ (weight _)))) = _
    rw [hsame]
    rfl
  · refine iff_of_false ?_ hsep
    rintro ⟨alpha, _, _, hsome, -⟩
    rw [hweight] at hsome
    cases hsome

/-- **STEP LEMMA**: an event blends as it should exactly where it is separated. -/
theorem blends_iff {event : Event K} (hadmitted : Admitted event) (h : Ready self) :
    Blends self event ↔ Separated self event := by
  cases event with
  | updateHall result pattern => exact Iff.rfl
  | setThresholds low high => exact Iff.rfl
  | updateSensorless saliency flux =>
      obtain ⟨hsaliency, hflux⟩ := hadmitted
      cases saliency with
      | ok low =>
          cases flux with
          | ok high => exact mixes_iff h (hsaliency low rfl) (hflux high rfl)
          | error fault =>
              refine iff_of_true ?_ trivial
              -- a lone estimate is used only on its own side of its threshold
              intro feedback hused
              by_contra hfast
              simp only [updateSensorless, blend, Option.bind_some, Except.toOption,
                if_neg hfast] at hused
              cases hused
      | error fault =>
          cases flux with
          | ok high =>
              refine iff_of_true ?_ trivial
              intro feedback hused
              by_contra hslow
              simp only [updateSensorless, blend, Option.bind_some, Except.toOption,
                gt_iff_lt, if_neg hslow] at hused
              cases hused
          | error fault' => exact Iff.rfl

omit [IsStrictOrderedRing K] in
/-- An event that blends as it should leaves the arbitrator ready. -/
theorem ready_step {event : Event K} (hadmitted : Admitted event) (h : Ready self)
    (hblends : Blends self event) : Ready (step self event) := by
  obtain ⟨omega, homega⟩ := h.number
  cases event with
  | updateHall result pattern => exact ⟨h.ordered, h.reciprocal, h.number⟩
  | setThresholds low high =>
      exact ⟨le_of_accepted hadmitted, rfl, omega, homega⟩
  | updateSensorless saliency flux =>
      cases saliency with
      | ok low =>
          cases flux with
          | ok high =>
              -- a weight that is a number leaves a blend speed that is one
              obtain ⟨alpha, _, _, hweight, -⟩ := hblends
              have hsame : weight { self with
                  saliencyEstimate := some (.ok low), fluxEstimate := some (.ok high) }
                  = some alpha := hweight
              refine ⟨h.ordered, h.reciprocal, ?_⟩
              show ∃ omega, Option.map _ (Option.map _ (weight _)) = some omega
              rw [hsame]
              exact ⟨_, rfl⟩
          | error fault =>
              simp only [step, updateSensorless, blend, Option.bind_some,
                Except.toOption]
              split
              · exact ⟨h.ordered, h.reciprocal, _, rfl⟩
              · exact ⟨h.ordered, h.reciprocal, omega, homega⟩
      | error fault =>
          cases flux with
          | ok high =>
              simp only [step, updateSensorless, blend, Option.bind_some,
                Except.toOption]
              split
              · exact ⟨h.ordered, h.reciprocal, _, rfl⟩
              · exact ⟨h.ordered, h.reciprocal, omega, homega⟩
          | error fault' =>
              simp only [step, updateSensorless, blend, Option.bind_some,
                Except.toOption]
              split
              · exact ⟨h.ordered, h.reciprocal, _, rfl⟩
              · exact ⟨h.ordered, h.reciprocal, _, rfl⟩

omit [FloorRing K] [IsStrictOrderedRing K] in
theorem ready_new {low high : K} (haccepted : Accepted low high) :
    Ready (new low high) :=
  ⟨le_of_accepted haccepted, rfl, 0, rfl⟩

/-- The thresholds of an event differ. -/
def Strict : Event K → Prop
  | .setThresholds low high => low < high
  | _ => True

omit [IsStrictOrderedRing K] in
/-- Thresholds that differ stay so while every pair does. -/
theorem strict_step {event : Event K} (hstrict : Strict event)
    (h : self.lowSpeedThresholdOmegaRads < self.highSpeedThresholdOmegaRads) :
    (step self event).lowSpeedThresholdOmegaRads
      < (step self event).highSpeedThresholdOmegaRads := by
  cases event with
  | updateHall result pattern => exact h
  | setThresholds low high => exact hstrict
  | updateSensorless saliency flux =>
      simp only [step, updateSensorless, blend]
      split
      · exact h
      · split <;> exact h
      · split <;> exact h
      · split <;> exact h

omit [FloorRing K] [IsStrictOrderedRing K] in
/-- **THE RECIPROCAL** is a number exactly where the thresholds differ. -/
theorem finite_iff (h : Ready self) : FiniteReciprocal self ↔
    self.lowSpeedThresholdOmegaRads < self.highSpeedThresholdOmegaRads := by
  rw [FiniteReciprocal, h.reciprocal, Arbitration.reciprocal]
  by_cases hzero : self.highSpeedThresholdOmegaRads - self.lowSpeedThresholdOmegaRads = 0
  · rw [if_pos hzero]
    refine iff_of_false (by rintro ⟨_, ⟨⟩⟩) ?_
    exact (sub_eq_zero.mp hzero).not_gt
  · rw [if_neg hzero]
    refine iff_of_true ⟨_, rfl⟩ (h.ordered.lt_of_ne fun heq => hzero ?_)
    rw [heq, sub_self]

omit [FloorRing K] [IsStrictOrderedRing K] in
/-- Where the thresholds differ, every event is separated. -/
theorem separated_of_lt
    (h : self.lowSpeedThresholdOmegaRads < self.highSpeedThresholdOmegaRads)
    (event : Event K) : Separated self event := by
  cases event with
  | updateSensorless saliency flux =>
      cases saliency with
      | ok low =>
          cases flux with
          | ok high => exact Or.inl h
          | error fault => trivial
      | error fault => trivial
  | _ => trivial

/-- **STEP LEMMA**: where the thresholds differ, an event is sound exactly if it keeps them
    so. -/
theorem sound_iff {event : Event K} (hadmitted : Admitted event)
    (h : Ready self ∧ self.lowSpeedThresholdOmegaRads < self.highSpeedThresholdOmegaRads) :
    Sound self event ↔ Strict event := by
  have hblends := (blends_iff hadmitted h.1).mpr (separated_of_lt h.2 event)
  have hready := ready_step hadmitted h.1 hblends
  rw [Sound, and_iff_right hblends, finite_iff hready]
  cases event with
  | setThresholds low high => exact Iff.rfl
  | updateHall result pattern => exact iff_of_true h.2 trivial
  | updateSensorless saliency flux => exact iff_of_true (strict_step trivial h.2) trivial

/-- **THE BLEND**: from any pair of thresholds that the configuration accepts, along every
    run, no reciprocal is infinite and every event blends as it should exactly if every
    pair differs. -/
theorem blend_sound_iff {low high : K} (haccepted : Accepted low high)
    (events : List (Event K)) (hevents : ∀ event ∈ events, Admitted event) :
    (FiniteReciprocal (new low high) ∧ Always step Sound (new low high) events) ↔
      (low < high ∧ ∀ event ∈ events, Strict event) := by
  have hready : Ready (new low high) := ready_new haccepted
  rw [finite_iff hready]
  refine and_congr_right fun hlt => ?_
  -- as long as every event was sound, the thresholds differ
  rw [always_congr_while (Q := fun _ event => Strict event) (A := Admitted)
    (I := fun a => Ready a ∧ a.lowSpeedThresholdOmegaRads < a.highSpeedThresholdOmegaRads)
    ?_ (fun _ _ hadmitted h => sound_iff hadmitted h) events _ hevents ⟨hready, hlt⟩]
  · exact always_event_iff events _
  · intro a event hadmitted h hsound
    exact ⟨ready_step hadmitted h.1 hsound.1,
      strict_step ((sound_iff hadmitted h).mp hsound) h.2⟩

/-- A pair of thresholds that a new board's configuration takes. -/
theorem acceptedQ {low high : ℚ} (hlow : 0 ≤ low) (hle : low ≤ high) :
    Accepted low high := by
  have hamplitude : (0 : ℚ) ≤ boardDcVoltageLimitV / FirmwareTypes.sqrt3 := by
    decide +kernel
  exact ⟨.default, _, 0, 0, 10, 50, LimitProofs.setSensorless1_eq_ok.mpr
    ⟨⟨⟨le_refl 0, hamplitude⟩, ⟨le_refl 0, hamplitude⟩, ⟨hlow, hle⟩, by norm_num,
      by norm_num⟩, rfl⟩⟩

/-- Two estimates at 30 rad/s on either side of the wrap. -/
def fastEstimates : Event ℚ :=
  .updateSensorless (.ok ⟨.electrical, 6, 30⟩) (.ok ⟨.electrical, 1 / 8, 30⟩)

theorem admitted_fastEstimates : Admitted fastEstimates := by
  constructor
  · rintro feedback hok
    obtain rfl := Except.ok.inj hok
    exact ⟨by norm_num, by decide +kernel⟩
  · rintro feedback hok
    obtain rfl := Except.ok.inj hok
    exact ⟨by norm_num, by decide +kernel⟩

theorem blend_sound_iff_narrowed :
    let events : List (Event ℚ) := [fastEstimates, .setThresholds 20 40, fastEstimates]
    FiniteReciprocal (new (15 : ℚ) 30) ∧ Always step Sound (new 15 30) events := by
  intro events
  have haccepted : Accepted (15 : ℚ) 30 := acceptedQ (by norm_num) (by norm_num)
  refine (blend_sound_iff haccepted events ?_).mpr ⟨by norm_num, ?_⟩
  · intro event hevent
    simp only [events, List.mem_cons, List.not_mem_nil, or_false] at hevent
    rcases hevent with rfl | rfl | rfl
    · exact admitted_fastEstimates
    · exact acceptedQ (by norm_num) (by norm_num)
    · exact admitted_fastEstimates
  · intro event hevent
    simp only [events, List.mem_cons, List.not_mem_nil, or_false] at hevent
    rcases hevent with rfl | rfl | rfl
    · trivial
    · show (20 : ℚ) < 40
      norm_num
    · trivial

/-- Equal thresholds are accepted, at the price of a division by zero; two good estimates
    above them leave the blend speed on them, and the next two are mixed to what is not a
    number. -/
theorem equal_thresholds_unsound :
    Accepted (20 : ℚ) 20 ∧
      ¬ FiniteReciprocal (step (new (15 : ℚ) 30) (.setThresholds 20 20)) ∧
      (run step (new (15 : ℚ) 30)
          [.setThresholds 20 20, fastEstimates, fastEstimates]).sensorlessFeedback
        = some (.ok ⟨.electrical, none, none⟩) ∧
      ¬ Always step Sound (new (15 : ℚ) 30)
        [.setThresholds 20 20, fastEstimates, fastEstimates] := by
  have hinfinite : ¬ FiniteReciprocal (step (new (15 : ℚ) 30) (.setThresholds 20 20)) := by
    rintro ⟨reciprocal, hsome⟩
    have hnone : (step (new (15 : ℚ) 30) (.setThresholds 20 20)).blendReciprocal = none := by
      decide +kernel
    rw [hnone] at hsome
    cases hsome
  refine ⟨acceptedQ (by norm_num) (le_refl _), hinfinite, ?_, ?_⟩
  · decide +kernel
  · rintro ⟨⟨-, hfinite⟩, -⟩
    exact hinfinite hfinite

end ArbitrationProofs
