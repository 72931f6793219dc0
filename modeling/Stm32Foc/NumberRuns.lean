import Stm32Foc.AdcIsr

/-! # Runs that read numbers

    Equal thresholds make the reciprocal of the blend infinite, and a tick may then read
    what is not a number.  Where the thresholds loaded at the start and all that are set
    later differ, every tick reads numbers (`reached_of_apart`). -/

namespace NumberRuns

open EventRun FieldOriented Calibration Modes Control Saliency Arbitration AdcIsr AdcIsr.Isr

section Arbitrator

variable {K : Type} [Field K] [LinearOrder K]

/-- All that is kept for a blend, and what it gave, are numbers. -/
structure Numeric (arbitrator : FeedbackArbitrator K) : Prop where
  reciprocal : arbitrator.blendReciprocal.isSome
  omega : arbitrator.blendOmega.isSome
  feedback : ∀ feedback, arbitrator.sensorlessFeedback = some feedback →
    isNumbers feedback = true

theorem reciprocal_isSome {low high : K} (h : low ≠ high) :
    (reciprocal (high - low)).isSome := by
  rw [reciprocal, if_neg (sub_ne_zero.mpr h.symm)]
  rfl

theorem numeric_new {low high : K} (h : low ≠ high) :
    Numeric (FeedbackArbitrator.new low high) :=
  ⟨reciprocal_isSome h, rfl, by rintro _ ⟨⟩⟩

variable {arbitrator : FeedbackArbitrator K}

theorem numeric_setThresholds (h : Numeric arbitrator) {low high : K} (hne : low ≠ high) :
    Numeric (arbitrator.setThresholds low high) :=
  ⟨reciprocal_isSome hne, h.omega, h.feedback⟩

omit [Field K] [LinearOrder K] in
theorem numeric_updateHall (h : Numeric arbitrator) (result : Feedback K)
    (pattern : UInt8) : Numeric (arbitrator.updateHall result pattern) :=
  ⟨h.reciprocal, h.omega, h.feedback⟩

/-- A weight of numbers is a number. -/
theorem weight_isSome (h : Numeric arbitrator) :
    ∃ alpha, arbitrator.weight = some alpha := by
  obtain ⟨omega, homega⟩ := Option.isSome_iff_exists.mp h.omega
  obtain ⟨reciprocal, hreciprocal⟩ := Option.isSome_iff_exists.mp h.reciprocal
  simp only [FeedbackArbitrator.weight, homega, hreciprocal, Option.map_some]
  split_ifs <;> exact ⟨_, rfl⟩

omit [Field K] [LinearOrder K] in
/-- A sensorless feedback that can be read is one of numbers. -/
theorem isNumbers_sensorless (h : Numeric arbitrator) {sensorless : RotorFeedback (Number K)}
    (hsensorless : arbitrator.sensorlessFeedback.bind Except.toOption = some sensorless) :
    isNumbers (.ok sensorless) = true := by
  obtain ⟨feedback, hfeedback, hok⟩ := Option.bind_eq_some_iff.mp hsensorless
  cases feedback with
  | error fault => cases hok
  | ok feedback =>
      obtain rfl := Option.some.inj hok
      exact h.feedback _ hfeedback

/-- What is read of numbers are numbers. -/
theorem isNumbers_read (h : Numeric arbitrator) :
    isNumbers arbitrator.read = true := by
  rw [FeedbackArbitrator.read]
  split
  · rename_i hall sensorless hhall hsensorless
    split
    · exact isNumbers_sensorless h hsensorless
    · rfl
  · rfl
  · rename_i sensorless hhall hsensorless
    exact isNumbers_sensorless h hsensorless
  · rfl

variable [FloorRing K]

/-- **A BLEND** of numbers is one of numbers. -/
theorem numeric_updateSensorless (h : Numeric arbitrator) (saliency flux : Feedback K) :
    Numeric (arbitrator.updateSensorless saliency flux) := by
  obtain ⟨alpha, halpha⟩ := weight_isSome h
  have hsame : FeedbackArbitrator.weight { arbitrator with
      saliencyEstimate := some saliency, fluxEstimate := some flux } = some alpha := halpha
  cases saliency <;> cases flux <;>
    simp only [FeedbackArbitrator.updateSensorless, FeedbackArbitrator.blend,
      Option.bind_some, Except.toOption, hsame, Option.map_some]
  case ok.ok low high =>
    refine ⟨h.reciprocal, rfl, ?_⟩
    rintro _ ⟨⟩
    rfl
  case error.error fault fault' =>
    split
    · exact ⟨h.reciprocal, rfl, by rintro _ ⟨⟩⟩
    · exact ⟨h.reciprocal, rfl, by rintro _ ⟨⟩⟩
  all_goals
    split
    · refine ⟨h.reciprocal, rfl, ?_⟩
      rintro _ ⟨⟩
      rfl
    · refine ⟨h.reciprocal, h.omega, ?_⟩
      rintro _ ⟨⟩
      rfl

end Arbitrator

variable {K : Type} [Field K] [LinearOrder K] [FloorRing K]
variable {C F A : Type} [Calibrator C K] [CurrentController F K] [DoesFocMath A K]
  [Libm K] [HasNormal K]

/-- The thresholds that an event sets differ. -/
def SetsApart : Event K F → Prop
  | .setThresholds low high => low ≠ high
  | _ => True

theorem step_numeric (isr : Isr K C F A) (e : Event K F) (he : SetsApart e)
    (h : Numeric isr.feedbackArbitrator) : Numeric (step isr e).feedbackArbitrator := by
  cases e with
  | setThresholds low high => exact numeric_setThresholds h he
  | sharedAdcIsr sample =>
      have hloop : ∀ saliency flux,
          Numeric (isr.arbitrated sample saliency flux) := by
        intro saliency flux
        rw [arbitrated]
        refine numeric_updateSensorless ?_ saliency flux
        cases isr.hallReading sample with
        | none => exact h
        | some reading => exact numeric_updateHall h _ _
      obtain ⟨phaseCurrents, hallTimer, hallPattern, boardInfo⟩ := sample
      cases phaseCurrents with
      | none => cases boardInfo <;> exact h
      | some phaseCurrents => cases boardInfo <;> exact hloop _ _
  | _ => exact h

/-- **THRESHOLDS THAT DIFFER**: every run from them has ticks that read numbers only. -/
theorem reached_of_apart (start : Start K C F A)
    (hstart : start.config.sensorlessLowSpeedThreshold
      ≠ start.config.sensorlessHighSpeedThreshold)
    (events : List (Event K F)) (hevents : ∀ e ∈ events, SetsApart e) :
    ∃ isr, reached (Isr.init start) events = some isr := by
  refine ⟨_, (reach_eq_some_iff _ _).mpr ⟨?_, rfl⟩⟩
  refine always_of_inv (I := fun isr => Numeric isr.feedbackArbitrator) (A := SetsApart)
    step_numeric ?_ events (Isr.init start) hevents (numeric_new hstart)
  intro isr e _ h
  cases e with
  | sharedAdcIsr sample =>
      rw [readsNumbers, isNumbers_read h, Bool.or_true]
  | _ => rfl

end NumberRuns
