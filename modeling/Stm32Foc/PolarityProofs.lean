import Stm32Foc.Saliency
import Stm32Foc.StreamRun
import Mathlib.Algebra.BigOperators.Intervals
import Mathlib.Order.Interval.Finset.Nat

/-! # The polarity test over a run

    The test waits for an innovation, then for the loop to lock, then sums over a
    window.  Each wait ends by the timeout at the latest (`stage_lt`), and what the
    state counts is what the inputs were (`Tracks`), so a verdict is the verdict of the
    last whole window. -/

namespace PolarityProofs

open FieldOriented Saliency StreamRun

variable {K : Type} [Field K] [LinearOrder K]

/-- What a step of the test is given. -/
structure PolarityInput (K : Type) where
  thetaError : Option K
  iD : K
  injectionPhasor : SinCosResult K

/-- A step of the test, without its correction. -/
def next (test : PolarityTest K) (input : PolarityInput K) : PolarityTest K :=
  (test.step input.thetaError input.iD input.injectionPhasor).2

/-- The test after a number of steps. -/
def testAt (test : PolarityTest K) (inputs : Nat → PolarityInput K) (n : Nat) :
    PolarityTest K := after next test inputs n

/-- The correction that a step returns. -/
def correctionAt (test : PolarityTest K) (inputs : Nat → PolarityInput K) (n : Nat) : K :=
  ((testAt test inputs n).step (inputs n).thetaError (inputs n).iD
    (inputs n).injectionPhasor).1

/-- The filtered innovation of a step. -/
def innovationAt (test : PolarityTest K) (inputs : Nat → PolarityInput K) (n : Nat) :
    Option K := ((testAt test inputs n).filtered (inputs n).thetaError).1

/-- The step had a filtered innovation within the tolerance. -/
def WithinTolerance (test : PolarityTest K) (inputs : Nat → PolarityInput K) (n : Nat) :
    Prop :=
  ∃ error, innovationAt test inputs n = some error ∧
    |error| ≤ test.config.convergenceToleranceRad

/-- As many steps in a row as the lock takes, before a step. -/
def LockedBefore (test : PolarityTest K) (inputs : Nat → PolarityInput K) (n : Nat) :
    Prop :=
  ∃ start, start + test.lockDwellTicks ≤ n ∧
    ∀ i, start ≤ i → i < start + test.lockDwellTicks → WithinTolerance test inputs i

/-- Every step of the window had an error of the angle. -/
def Unbroken (inputs : Nat → PolarityInput K) (start stop : Nat) : Prop :=
  ∀ i, start ≤ i → i < stop → (inputs i).thetaError.isSome

/-- The sum over the steps of a window. -/
def windowSum (inputs : Nat → PolarityInput K) (start stop : Nat) : K :=
  ∑ i ∈ Finset.Ico start stop,
    PolarityTest.saturationTerm (inputs i).iD (inputs i).injectionPhasor

/-! ## A step -/

section Step

variable {test : PolarityTest K} {thetaError : Option K} (input : PolarityInput K)

/-- The tick that a step counts is past the timeout. -/
def timedOut (test : PolarityTest K) : Bool :=
  decide (min (test.elapsedTicks + 1) u32Max > test.timeoutTicks)

omit [LinearOrder K] in
theorem filtered_isSome :
    (test.filtered thetaError).1.isSome = thetaError.isSome := by
  cases thetaError <;> rfl

theorem step_init (h : test.state = .init) :
    (test.step input.thetaError input.iD input.injectionPhasor).1 = 0 ∧
      (test.step input.thetaError input.iD input.injectionPhasor).2.state
        = PolarityTest.initStep (test.filtered input.thetaError).1 (timedOut test) := by
  simp only [PolarityTest.step, h, timedOut, and_self]

theorem step_settling {lockedTicks : Nat} (h : test.state = .settling lockedTicks) :
    (test.step input.thetaError input.iD input.injectionPhasor).1 = 0 ∧
      (test.step input.thetaError input.iD input.injectionPhasor).2.state
        = test.settlingStep lockedTicks (test.filtered input.thetaError).1 (timedOut test) := by
  simp only [PolarityTest.step, h, timedOut, and_self]

theorem step_testing {ticks : Nat} {saturationSum : K}
    (h : test.state = .testing ticks saturationSum) :
    (test.step input.thetaError input.iD input.injectionPhasor).1
        = (test.testingStep ticks saturationSum (test.filtered input.thetaError).1
          input.iD input.injectionPhasor (timedOut test)).1 ∧
      (test.step input.thetaError input.iD input.injectionPhasor).2.state
        = (test.testingStep ticks saturationSum (test.filtered input.thetaError).1
          input.iD input.injectionPhasor (timedOut test)).2 := by
  simp only [PolarityTest.step, h, timedOut, and_self]

/-- A test with a verdict steps on with it. -/
theorem step_verdict (h : test.verdict ≠ none) :
    (test.step input.thetaError input.iD input.injectionPhasor).1 = 0 ∧
      (test.step input.thetaError input.iD input.injectionPhasor).2.state = test.state := by
  rw [PolarityTest.verdict] at h
  cases hstate : test.state with
  | init | settling _ | testing _ _ =>
      rw [hstate] at h
      exact absurd rfl h
  | done | fault _ => simp only [PolarityTest.step, hstate, and_self]

omit [Field K] [LinearOrder K] in
/-- How a step leaves the wait for an innovation. -/
theorem initStep_cases (innovation : Option K) (late : Bool) :
    (innovation.isSome = true ∧
      PolarityTest.initStep innovation late = .settling 0) ∨
    PolarityTest.initStep innovation late = .fault .convergenceTimeout ∨
    (late = false ∧ PolarityTest.initStep innovation late = .init) := by
  rw [PolarityTest.initStep]
  by_cases hsome : innovation.isSome
  · exact .inl ⟨hsome, if_pos hsome⟩
  · rw [if_neg hsome]
    cases late with
    | true => exact .inr (.inl rfl)
    | false => exact .inr (.inr ⟨rfl, rfl⟩)

/-- How a step leaves the wait for the lock. -/
theorem settlingStep_cases (test : PolarityTest K) (lockedTicks : Nat)
    (innovation : Option K) (late : Bool) :
    (test.lockDwellTicks ≤ test.countLocked lockedTicks innovation ∧
      test.settlingStep lockedTicks innovation late = .testing 0 0) ∨
    test.settlingStep lockedTicks innovation late = .fault .convergenceTimeout ∨
    (late = false ∧ test.settlingStep lockedTicks innovation late
      = .settling (test.countLocked lockedTicks innovation)) := by
  simp only [PolarityTest.settlingStep]
  by_cases hlocked : test.countLocked lockedTicks innovation ≥ test.lockDwellTicks
  · exact .inl ⟨hlocked, if_pos hlocked⟩
  · rw [if_neg hlocked]
    cases late with
    | true => exact .inr (.inl rfl)
    | false => exact .inr (.inr ⟨rfl, rfl⟩)

/-- How a step leaves the test window, with the correction it returns. -/
theorem testingStep_cases (test : PolarityTest K) (ticks : Nat) (saturationSum : K)
    (innovation : Option K) (iD : K) (injectionPhasor : SinCosResult K) (late : Bool)
    {ticks' : Nat} {saturationSum' : K}
    (haccumulate : PolarityTest.accumulate ticks saturationSum innovation iD
      injectionPhasor = (ticks', saturationSum')) :
    (test.testTicks ≤ ticks' ∧ saturationSum' ≠ 0 ∧
      test.testingStep ticks saturationSum innovation iD injectionPhasor late
        = (if saturationSum' < 0 then pi else 0, .done)) ∨
    (∃ kind, test.testingStep ticks saturationSum innovation iD injectionPhasor late
      = (0, .fault kind)) ∨
    (late = false ∧ ticks' < test.testTicks ∧
      test.testingStep ticks saturationSum innovation iD injectionPhasor late
        = (0, .testing ticks' saturationSum')) := by
  simp only [PolarityTest.testingStep, haccumulate]
  by_cases hticks : ticks' ≥ test.testTicks
  · rw [if_pos hticks]
    by_cases hzero : saturationSum' = 0
    · exact .inr (.inl ⟨_, if_pos hzero⟩)
    · exact .inl ⟨hticks, hzero, if_neg hzero⟩
  · rw [if_neg hticks]
    cases late with
    | true => exact .inr (.inl ⟨_, rfl⟩)
    | false => exact .inr (.inr ⟨rfl, not_le.mp hticks, rfl⟩)

end Step

/-! ## Time -/

/-- How far a test has come. -/
def stage : PolarityTestState K → Nat
  | .init => 0
  | .settling _ => 1
  | .testing _ _ => 2
  | .done | .fault _ => 3

omit [Field K] [LinearOrder K] in
theorem verdict_of_stage {test : PolarityTest K} (h : stage test.state = 3) :
    test.verdict ≠ none := by
  rw [PolarityTest.verdict]
  cases hstate : test.state with
  | init | settling _ | testing _ _ =>
      rw [hstate] at h
      cases h
  | done | fault _ => exact fun h => by cases h

/-- **PAST THE TIMEOUT** every step ends the stage it finds. -/
theorem stage_lt {test : PolarityTest K} (htime : timedOut test = true)
    (input : PolarityInput K) :
    min (stage test.state + 1) 3 ≤ stage (next test input).state := by
  rw [next]
  cases hstate : test.state with
  | init =>
      rw [(step_init _ hstate).2]
      rcases initStep_cases (test.filtered input.thetaError).1 (timedOut test) with
        ⟨-, he⟩ | he | ⟨hlate, -⟩
      · rw [he]; exact Nat.le_refl 1
      · rw [he]; exact Nat.le_add_left 1 2
      · exact absurd htime (by rw [hlate]; decide)
  | settling lockedTicks =>
      rw [(step_settling _ hstate).2]
      rcases settlingStep_cases test lockedTicks (test.filtered input.thetaError).1
        (timedOut test) with ⟨-, he⟩ | he | ⟨hlate, -⟩
      · rw [he]; exact Nat.le_refl 2
      · rw [he]; exact Nat.le_succ 2
      · exact absurd htime (by rw [hlate]; decide)
  | testing ticks saturationSum =>
      rw [(step_testing _ hstate).2]
      rcases testingStep_cases test ticks saturationSum (test.filtered input.thetaError).1
        input.iD input.injectionPhasor (timedOut test) rfl with
        ⟨-, -, he⟩ | ⟨kind, he⟩ | ⟨hlate, -⟩
      · rw [he]; exact Nat.le_refl 3
      · rw [he]; exact Nat.le_refl 3
      · exact absurd htime (by rw [hlate]; decide)
  | done | fault _ =>
      have hverdict : test.verdict ≠ none := by
        rw [PolarityTest.verdict, hstate]
        exact fun h => by cases h
      rw [(step_verdict _ hverdict).2, hstate]
      exact Nat.le_refl 3

/-! ## What the state counts -/

variable {test : PolarityTest K} {inputs : Nat → PolarityInput K} {n : Nat}

theorem testAt_succ (test : PolarityTest K) (inputs : Nat → PolarityInput K) (n : Nat) :
    testAt test inputs (n + 1) = next (testAt test inputs n) (inputs n) := rfl

omit [Field K] [LinearOrder K] in
theorem unbroken_succ {start : Nat} (h : Unbroken inputs start n)
    (hnow : (inputs n).thetaError.isSome) : Unbroken inputs start (n + 1) := by
  intro i hi hlt
  rcases Nat.lt_succ_iff_lt_or_eq.mp hlt with hlt | rfl
  · exact h i hi hlt
  · exact hnow

omit [LinearOrder K] in
theorem windowSum_succ {start : Nat} (hle : start ≤ n) :
    windowSum inputs start (n + 1)
      = windowSum inputs start n
        + PolarityTest.saturationTerm (inputs n).iD (inputs n).injectionPhasor :=
  Finset.sum_Ico_succ_top hle _

/-- The test at a step is the one the run began with, and its time is the steps'. -/
structure SameTest (test t : PolarityTest K) (n : Nat) : Prop where
  config : t.config = test.config
  timeoutTicks : t.timeoutTicks = test.timeoutTicks
  testTicks : t.testTicks = test.testTicks
  lockDwellTicks : t.lockDwellTicks = test.lockDwellTicks
  elapsedTicks : t.elapsedTicks = min n u32Max

theorem sameTest (inputs : Nat → PolarityInput K) (hnew : test.elapsedTicks = 0) (n : Nat) :
    SameTest test (testAt test inputs n) n := by
  induction n with
  | zero => exact ⟨rfl, rfl, rfl, rfl, hnew.trans (by simp)⟩
  | succ n ih =>
      refine ⟨ih.config, ih.timeoutTicks, ih.testTicks, ih.lockDwellTicks, ?_⟩
      show min ((testAt test inputs n).elapsedTicks + 1) u32Max = min (n + 1) u32Max
      rw [ih.elapsedTicks]
      omega

/-- **THE INVARIANT**: while the loop settles, the ticks counted are the last steps,
    all within the tolerance; while the test runs, the ticks and the sum are those of
    the last steps, none without an error, and the loop was locked before them. -/
structure Tracks (test : PolarityTest K) (inputs : Nat → PolarityInput K) (n : Nat) :
    Prop where
  settling : ∀ lockedTicks, (testAt test inputs n).state = .settling lockedTicks →
    ∃ start, start + lockedTicks = n ∧
      ∀ i, start ≤ i → i < n → WithinTolerance test inputs i
  testing : ∀ ticks saturationSum,
    (testAt test inputs n).state = .testing ticks saturationSum →
    ∃ start, start + ticks = n ∧ ticks < test.testTicks ∧ Unbroken inputs start n ∧
      saturationSum = windowSum inputs start n ∧ LockedBefore test inputs start

/-- A state that counts nothing tracks whatever came. -/
theorem tracks_of_not_counting
    (h : stage (testAt test inputs n).state ≠ 1 ∧ stage (testAt test inputs n).state ≠ 2) :
    Tracks test inputs n := by
  refine ⟨?_, ?_⟩
  · intro lockedTicks hstate
    exact absurd (by rw [hstate]; rfl) h.1
  · intro ticks saturationSum hstate
    exact absurd (by rw [hstate]; rfl) h.2

/-- The settling loop, one step on. -/
theorem settled_succ (hnew : test.elapsedTicks = 0) {lockedTicks start : Nat}
    (hstart : start + lockedTicks = n)
    (hwithin : ∀ i, start ≤ i → i < n → WithinTolerance test inputs i) :
    ∃ start', start' + (testAt test inputs n).countLocked lockedTicks
        (innovationAt test inputs n) = n + 1 ∧
      ∀ i, start' ≤ i → i < n + 1 → WithinTolerance test inputs i := by
  have hsame := sameTest inputs hnew n
  have hnone : ∃ start', start' + 0 = n + 1 ∧
      ∀ i, start' ≤ i → i < n + 1 → WithinTolerance test inputs i :=
    ⟨n + 1, rfl, fun i hi hlt => absurd hlt (Nat.not_lt.mpr hi)⟩
  cases hinnovation : innovationAt test inputs n with
  | none => exact hnone
  | some error =>
      rw [PolarityTest.countLocked, hsame.config]
      by_cases htolerance : |error| ≤ test.config.convergenceToleranceRad
      · rw [if_pos htolerance]
        refine ⟨start, by omega, ?_⟩
        intro i hi hlt
        rcases Nat.lt_succ_iff_lt_or_eq.mp hlt with hlt | rfl
        · exact hwithin i hi hlt
        · exact ⟨error, hinnovation, htolerance⟩
      · rw [if_neg htolerance]
        exact hnone

/-- The test window, one step on. -/
theorem accumulated_succ {ticks start : Nat} (hstart : start + ticks = n)
    (hunbroken : Unbroken inputs start n) (hlocked : LockedBefore test inputs start) :
    ∃ ticks' start', PolarityTest.accumulate ticks (windowSum inputs start n)
        (innovationAt test inputs n) (inputs n).iD (inputs n).injectionPhasor
          = (ticks', windowSum inputs start' (n + 1)) ∧
      ticks' ≤ ticks + 1 ∧ start' + ticks' = n + 1 ∧ Unbroken inputs start' (n + 1) ∧
      LockedBefore test inputs start' := by
  rw [PolarityTest.accumulate]
  by_cases hsome : (innovationAt test inputs n).isSome
  · rw [if_pos hsome, ← windowSum_succ (by omega)]
    rw [innovationAt, filtered_isSome] at hsome
    exact ⟨ticks + 1, start, rfl, Nat.le_refl _, by omega,
      unbroken_succ hunbroken hsome, hlocked⟩
  · -- the window starts over behind this step, and the lock stays before it
    rw [if_neg hsome]
    obtain ⟨lock, hlock, hwithin⟩ := hlocked
    refine ⟨0, n + 1, ?_, Nat.zero_le _, rfl, ?_, lock, by omega, hwithin⟩
    · rw [windowSum, Finset.Ico_self, Finset.sum_empty]
    · intro i hi hlt
      omega

/-- **A WHOLE WINDOW**: the last steps, as many as the test takes, all with an error of
    the angle, a sum that is not zero, and the loop locked before them. -/
structure WholeWindow (test : PolarityTest K) (inputs : Nat → PolarityInput K)
    (start stop : Nat) : Prop where
  length : start + test.testTicks = stop
  unbroken : Unbroken inputs start stop
  sum : windowSum inputs start stop ≠ 0
  locked : LockedBefore test inputs start

/-- A step of the test window: it ends with the verdict of a whole window, in a fault,
    or with one more tick that it keeps track of. -/
theorem testing_succ (hnew : test.elapsedTicks = 0) (ih : Tracks test inputs n)
    {ticks : Nat} {saturationSum : K}
    (hstate : (testAt test inputs n).state = .testing ticks saturationSum) :
    (∃ start, WholeWindow test inputs start (n + 1) ∧
      correctionAt test inputs n = (if windowSum inputs start (n + 1) < 0 then pi else 0) ∧
      (testAt test inputs (n + 1)).state = .done) ∨
    (∃ kind, correctionAt test inputs n = 0 ∧
      (testAt test inputs (n + 1)).state = .fault kind) ∨
    (correctionAt test inputs n = 0 ∧ Tracks test inputs (n + 1) ∧
      ∃ ticks' saturationSum',
        (testAt test inputs (n + 1)).state = .testing ticks' saturationSum') := by
  have hsame := sameTest inputs hnew n
  obtain ⟨start, hstart, hfew, hunbroken, rfl, hlocked⟩ := ih.testing ticks _ hstate
  obtain ⟨ticks', start', haccumulate, hticks', hstart', hunbroken', hlocked'⟩ :=
    accumulated_succ hstart hunbroken hlocked
  obtain ⟨hcorrection, hnext⟩ := step_testing (inputs n) hstate
  have hcases := testingStep_cases (testAt test inputs n) ticks (windowSum inputs start n)
    (innovationAt test inputs n) (inputs n).iD (inputs n).injectionPhasor
    (timedOut (testAt test inputs n)) haccumulate
  rw [← innovationAt] at hcorrection hnext
  rw [hsame.testTicks] at hcases
  rcases hcases with ⟨hfull, hsum, he⟩ | ⟨kind, he⟩ | ⟨-, hmore, he⟩
  · rw [he] at hcorrection hnext
    exact .inl ⟨start', ⟨by omega, hunbroken', hsum, hlocked'⟩, hcorrection, hnext⟩
  · rw [he] at hcorrection hnext
    exact .inr (.inl ⟨kind, hcorrection, hnext⟩)
  · rw [he] at hcorrection hnext
    refine .inr (.inr ⟨hcorrection, ⟨?_, ?_⟩, ticks', _, hnext⟩)
    · intro lockedTicks h
      exact absurd (hnext.symm.trans h) (by simp)
    · intro ticks'' saturationSum'' h
      obtain ⟨rfl, rfl⟩ := PolarityTestState.testing.inj (hnext.symm.trans h)
      exact ⟨start', hstart', hmore, hunbroken', rfl, hlocked'⟩

/-- A step of the settling loop. -/
theorem settling_succ (hnew : test.elapsedTicks = 0) (htest : 0 < test.testTicks)
    (ih : Tracks test inputs n) {lockedTicks : Nat}
    (hstate : (testAt test inputs n).state = .settling lockedTicks) :
    Tracks test inputs (n + 1) := by
  have hsame := sameTest inputs hnew n
  obtain ⟨start, hstart, hwithin⟩ := ih.settling lockedTicks hstate
  obtain ⟨start', hstart', hwithin'⟩ := settled_succ hnew hstart hwithin
  have hnext := (step_settling (inputs n) hstate).2
  rw [← innovationAt] at hnext
  have hcases := settlingStep_cases (testAt test inputs n) lockedTicks
    (innovationAt test inputs n) (timedOut (testAt test inputs n))
  rw [hsame.lockDwellTicks] at hcases
  rcases hcases with ⟨hdwell, he⟩ | he | ⟨-, he⟩
  · rw [he] at hnext
    refine ⟨?_, ?_⟩
    · intro lockedTicks' h
      exact absurd (hnext.symm.trans h) (by simp)
    · intro ticks saturationSum h
      obtain ⟨rfl, rfl⟩ := PolarityTestState.testing.inj (hnext.symm.trans h)
      refine ⟨n + 1, rfl, htest, ?_, ?_, start' , by omega, ?_⟩
      · intro i hi hlt
        omega
      · rw [windowSum, Finset.Ico_self, Finset.sum_empty]
      · intro i hi hlt
        exact hwithin' i hi (by omega)
  · rw [he] at hnext
    refine tracks_of_not_counting ?_
    rw [testAt_succ, next, hnext]
    exact ⟨by simp [stage], by simp [stage]⟩
  · rw [he] at hnext
    refine ⟨?_, ?_⟩
    · intro lockedTicks' h
      rw [← PolarityTestState.settling.inj (hnext.symm.trans h)]
      exact ⟨start', hstart', hwithin'⟩
    · intro ticks saturationSum h
      exact absurd (hnext.symm.trans h) (by simp)

/-- A step of the wait for an innovation. -/
theorem init_succ (hstate : (testAt test inputs n).state = .init) :
    Tracks test inputs (n + 1) := by
  have hnext := (step_init (inputs n) hstate).2
  rcases initStep_cases ((testAt test inputs n).filtered (inputs n).thetaError).1
    (timedOut (testAt test inputs n)) with ⟨-, he⟩ | he | ⟨-, he⟩
  · rw [he] at hnext
    refine ⟨?_, ?_⟩
    · intro lockedTicks h
      rw [← PolarityTestState.settling.inj (hnext.symm.trans h)]
      refine ⟨n + 1, rfl, ?_⟩
      intro i hi hlt
      omega
    · intro ticks saturationSum h
      exact absurd (hnext.symm.trans h) (by simp)
  · rw [he] at hnext
    refine tracks_of_not_counting ?_
    rw [testAt_succ, next, hnext]
    exact ⟨by simp [stage], by simp [stage]⟩
  · rw [he] at hnext
    refine tracks_of_not_counting ?_
    rw [testAt_succ, next, hnext]
    exact ⟨by simp [stage], by simp [stage]⟩

theorem tracks_of_verdict (h : (testAt test inputs n).verdict ≠ none) :
    Tracks test inputs n := by
  refine ⟨?_, ?_⟩
  · intro lockedTicks hstate
    rw [PolarityTest.verdict, hstate] at h
    exact absurd rfl h
  · intro ticks saturationSum hstate
    rw [PolarityTest.verdict, hstate] at h
    exact absurd rfl h

/-- What the state counts is what the inputs were, after every number of steps. -/
theorem tracks (hnew : test.elapsedTicks = 0) (hinit : test.state = .init)
    (htest : 0 < test.testTicks) (n : Nat) : Tracks test inputs n := by
  induction n with
  | zero =>
      refine tracks_of_not_counting ?_
      show stage test.state ≠ 1 ∧ stage test.state ≠ 2
      rw [hinit]
      exact ⟨by simp [stage], by simp [stage]⟩
  | succ n ih =>
      have hgiven : ∀ {state}, (testAt test inputs n).state = state → stage state = 3 →
          Tracks test inputs (n + 1) := by
        intro state hstate hstage
        rw [← hstate] at hstage
        have hverdict := verdict_of_stage hstage
        have hkept := (step_verdict (inputs n) hverdict).2
        refine tracks_of_verdict (verdict_of_stage ?_)
        rw [testAt_succ, next, hkept, hstage]
      cases hstate : (testAt test inputs n).state with
      | init => exact init_succ hstate
      | settling lockedTicks => exact settling_succ hnew htest ih hstate
      | testing ticks saturationSum =>
          rcases testing_succ hnew ih hstate with
            ⟨_, -, -, hdone⟩ | ⟨kind, -, hfault⟩ | ⟨-, htracks, -⟩
          · refine tracks_of_verdict (verdict_of_stage ?_)
            rw [hdone]
            rfl
          · refine tracks_of_verdict (verdict_of_stage ?_)
            rw [hfault]
            rfl
          · exact htracks
      | done | fault _ => exact hgiven hstate rfl

/-! ## Verdicts -/

omit [Field K] [LinearOrder K] in
theorem verdict_of_state {t t' : PolarityTest K} (h : t'.state = t.state) :
    t'.verdict = t.verdict := by
  rw [PolarityTest.verdict, PolarityTest.verdict, h]

/-- A verdict stays, whatever the steps behind it are given. -/
theorem verdict_stays {verdict : Except PolarityTestFault Unit}
    (h : (testAt test inputs n).verdict = some verdict) {m : Nat} (hle : n ≤ m) :
    (testAt test inputs m).verdict = some verdict := by
  refine after_keeps_from (I := fun t : PolarityTest K => t.verdict = some verdict) ?_ hle h
  intro t input hverdict
  have hkept := step_verdict input
    (by rw [hverdict]; exact fun h => by cases h)
  exact (verdict_of_state hkept.2).trans hverdict

omit [Field K] [LinearOrder K] in
/-- No abort changes a verdict. -/
theorem abort_verdict {t : PolarityTest K} (h : t.verdict ≠ none)
    (kind : PolarityTestFault) : t.abort kind = t := by
  rw [PolarityTest.abort, if_neg]
  rw [Option.isNone_iff_eq_none]
  exact h

/-- The step that decides the polarity. -/
def OkStep (test : PolarityTest K) (inputs : Nat → PolarityInput K) (n : Nat) : Prop :=
  (testAt test inputs n).verdict = none ∧
    (testAt test inputs (n + 1)).verdict = some (.ok ())

/-- What a step comes to that does not decide the polarity. -/
theorem step_cases (inputs : Nat → PolarityInput K) (hnew : test.elapsedTicks = 0)
    (hinit : test.state = .init) (htest : 0 < test.testTicks) (n : Nat) :
    (OkStep test inputs n ∧ ∃ start, WholeWindow test inputs start (n + 1) ∧
      correctionAt test inputs n
        = if windowSum inputs start (n + 1) < 0 then pi else 0) ∨
    (¬ OkStep test inputs n ∧ correctionAt test inputs n = 0) := by
  have hnot : ∀ {state : PolarityTestState K}, (testAt test inputs (n + 1)).state = state →
      state ≠ .done → ¬ OkStep test inputs n := by
    rintro state hstate hdone ⟨-, hok⟩
    rw [PolarityTest.verdict, hstate] at hok
    cases state with
    | done => exact hdone rfl
    | init | settling _ | testing _ _ => cases hok
    | fault kind => cases hok
  cases hstate : (testAt test inputs n).state with
  | init =>
      obtain ⟨hcorrection, hnext⟩ := step_init (inputs n) hstate
      refine .inr ⟨hnot hnext ?_, hcorrection⟩
      rcases initStep_cases ((testAt test inputs n).filtered (inputs n).thetaError).1
        (timedOut (testAt test inputs n)) with ⟨-, he⟩ | he | ⟨-, he⟩ <;> simp [he]
  | settling lockedTicks =>
      obtain ⟨hcorrection, hnext⟩ := step_settling (inputs n) hstate
      refine .inr ⟨hnot hnext ?_, hcorrection⟩
      rcases settlingStep_cases (testAt test inputs n) lockedTicks
        ((testAt test inputs n).filtered (inputs n).thetaError).1
        (timedOut (testAt test inputs n)) with ⟨-, he⟩ | he | ⟨-, he⟩ <;> simp [he]
  | testing ticks saturationSum =>
      have hnone : (testAt test inputs n).verdict = none := by
        rw [PolarityTest.verdict, hstate]
      rcases testing_succ hnew (tracks hnew hinit htest n) hstate with
        ⟨start, hwhole, hcorrection, hdone⟩ | ⟨kind, hcorrection, hfault⟩
          | ⟨hcorrection, -, _, _, hmore⟩
      · have hok : (testAt test inputs (n + 1)).verdict = some (.ok ()) := by
          rw [PolarityTest.verdict, hdone]
        exact .inl ⟨⟨hnone, hok⟩, start, hwhole, hcorrection⟩
      · exact .inr ⟨hnot hfault (by simp), hcorrection⟩
      · exact .inr ⟨hnot hmore (by simp), hcorrection⟩
  | done | fault _ =>
      have hverdict : (testAt test inputs n).verdict ≠ none := by
        rw [PolarityTest.verdict, hstate]
        exact fun h => by cases h
      exact .inr ⟨fun h => hverdict h.1, (step_verdict _ hverdict).1⟩

/-- A verdict is there three steps past the timeout. -/
theorem verdict_by_timeout (hnew : test.elapsedTicks = 0)
    (htimeout : test.timeoutTicks < u32Max) :
    (testAt test inputs (test.timeoutTicks + 3)).verdict ≠ none := by
  have hlate : ∀ n, test.timeoutTicks ≤ n → timedOut (testAt test inputs n) = true := by
    intro n hn
    have hsame := sameTest inputs hnew n
    rw [timedOut, hsame.elapsedTicks, hsame.timeoutTicks, decide_eq_true_iff]
    omega
  have hlater : ∀ n, test.timeoutTicks ≤ n →
      min (stage (testAt test inputs n).state + 1) 3
        ≤ stage (testAt test inputs (n + 1)).state :=
    fun n hn => stage_lt (hlate n hn) (inputs n)
  have hone := hlater test.timeoutTicks (Nat.le_refl _)
  have htwo := hlater (test.timeoutTicks + 1) (Nat.le_succ _)
  have hthree := hlater (test.timeoutTicks + 1 + 1) (by omega)
  have hmost : ∀ state : PolarityTestState K, stage state ≤ 3 := by
    intro state
    cases state <;> simp [stage]
  have hat := hmost (testAt test inputs (test.timeoutTicks + 1 + 1 + 1)).state
  have hdone : stage (testAt test inputs (test.timeoutTicks + 1 + 1 + 1)).state = 3 := by
    omega
  exact verdict_of_stage hdone

/-- **THE POLARITY TEST**: from its initial state, whatever its steps are given, it has a
    verdict three steps past its timeout at the latest; it decides the polarity only
    behind a whole window before which the loop was locked; the correction is half a turn
    on the deciding step if the sum of that window is negative, and zero on every other
    step; and a verdict is changed by no step and no abort. -/
theorem polarity_test (test : PolarityTest K) (inputs : Nat → PolarityInput K)
    (hinit : test.state = .init) (hnew : test.elapsedTicks = 0)
    (htest : 0 < test.testTicks) (htimeout : test.timeoutTicks < u32Max) :
    (∃ n, n ≤ test.timeoutTicks + 3 ∧ (testAt test inputs n).verdict ≠ none) ∧
    (∀ n, OkStep test inputs n →
      ∃ start, start + test.testTicks = n + 1 ∧ Unbroken inputs start (n + 1) ∧
        windowSum inputs start (n + 1) ≠ 0 ∧ LockedBefore test inputs start ∧
        correctionAt test inputs n
          = if windowSum inputs start (n + 1) < 0 then pi else 0) ∧
    (∀ n, ¬ OkStep test inputs n → correctionAt test inputs n = 0) ∧
    (∀ n verdict, (testAt test inputs n).verdict = some verdict →
      (∀ kind, (testAt test inputs n).abort kind = testAt test inputs n) ∧
      ∀ m, n ≤ m → (testAt test inputs m).verdict = some verdict) := by
  refine ⟨⟨_, Nat.le_refl _, verdict_by_timeout hnew htimeout⟩, ?_, ?_, ?_⟩
  · intro n hok
    rcases step_cases inputs hnew hinit htest n with
      ⟨-, start, hwhole, hcorrection⟩ | ⟨hnot, -⟩
    · exact ⟨start, hwhole.length, hwhole.unbroken, hwhole.sum, hwhole.locked, hcorrection⟩
    · exact absurd hok hnot
  · intro n hnot
    rcases step_cases inputs hnew hinit htest n with ⟨hok, -⟩ | ⟨-, hzero⟩
    · exact absurd hok hnot
    · exact hzero
  · intro n verdict hverdict
    refine ⟨?_, fun m hle => verdict_stays hverdict hle⟩
    intro kind
    exact abort_verdict (by rw [hverdict]; exact fun h => by cases h) kind

/-- A test of two ticks, with a timeout of ten. -/
def shortTest : PolarityTest ℚ where
  config := ⟨1, 1 / 10, 1⟩
  state := .init
  samplingFrequencyHz := 10000
  elapsedTicks := 0
  timeoutTicks := 10
  testTicks := 2
  lockDwellTicks := 3
  innovationFilter := ⟨1 / 2, 0⟩

/-- A loop that stays locked, on a magnet of which the iron saturates against the angle. -/
def lockedInput : PolarityInput ℚ := ⟨some 0, -1, ⟨0, 1⟩⟩

/-- The test finds the loop locked for three ticks, fills its window in two, and turns the
    angle over. -/
theorem polarity_test_lockedWindow :
    (testAt shortTest (fun _ => lockedInput) 6).verdict = some (.ok ()) ∧
      ∃ start, start + 2 = 6 ∧ Unbroken (fun _ => lockedInput) start 6 ∧
        LockedBefore shortTest (fun _ => lockedInput) start ∧
        correctionAt shortTest (fun _ => lockedInput) 5 = pi := by
  have hdone : (testAt shortTest (fun _ => lockedInput) 6).verdict = some (.ok ()) := by
    decide +kernel
  have hok : OkStep shortTest (fun _ => lockedInput) 5 := ⟨by decide +kernel, hdone⟩
  obtain ⟨start, hlength, hunbroken, -, hlocked, hcorrection⟩ :=
    (polarity_test shortTest (fun _ => lockedInput) rfl rfl (by decide) (by decide)).2.1 5 hok
  refine ⟨hdone, start, hlength, hunbroken, hlocked, ?_⟩
  have hstart : start = 4 := Nat.add_right_cancel hlength
  rw [hcorrection, hstart, if_pos (by decide +kernel)]

/-! ## In the estimator -/

section Update

variable [FloorRing K] [HasNormal K] (estimator : SinusoidalPulsingEstimator K)
  (input : SensorlessEstimatorInput K)

omit [HasNormal K] in
/-- A new test is as a run of it begins: in its initial state, and a tick long at least. -/
theorem new_starts (samplingFrequencyHz injectionFrequencyHz pllFrequencyHz : K)
    (config : PolarityTestConfig K) (innovationFilter : LowPassFilter K) :
    (PolarityTest.new samplingFrequencyHz injectionFrequencyHz pllFrequencyHz config
        innovationFilter).state = .init ∧
      (PolarityTest.new samplingFrequencyHz injectionFrequencyHz pllFrequencyHz config
        innovationFilter).elapsedTicks = 0 ∧
      0 < (PolarityTest.new samplingFrequencyHz injectionFrequencyHz pllFrequencyHz config
        innovationFilter).testTicks :=
  ⟨rfl, rfl, testTicksOf_pos _ _ _⟩

/-- **AN UPDATE STEPS THE TEST ONCE**: with an error of the angle only while injecting;
    without both inductances it aborts the test. -/
theorem update_polarityTest (hactive : estimator.polarityTest.isActive = true) :
    (∃ thetaError, (thetaError.isSome = true → input.isInjecting = true) ∧
      (estimator.update input).polarityTest
        = (estimator.polarityTest.step thetaError input.iDq.d
          estimator.hfi.previousPhasor).2) ∨
    (estimator.update input).polarityTest
      = estimator.polarityTest.abort .missingParameter := by
  rw [SinusoidalPulsingEstimator.update]
  split
  · rename_i ld lq hld hlq
    refine .inl ?_
    by_cases hinjects : (input.isInjecting
        && HasNormal.isNormal (SinusoidalPulsingEstimator.demodulationGain input ld lq)) = true
    · simp only [hinjects, if_true, SinusoidalPulsingEstimator.track]
      rw [if_pos hactive]
      exact ⟨some _, fun _ => (Bool.and_eq_true_iff.mp hinjects).1, rfl⟩
    · simp only [hinjects, SinusoidalPulsingEstimator.slave]
      refine ⟨none, (fun h => by cases h), ?_⟩
      simp only [Bool.false_eq_true, if_false]
      exact if_pos hactive
  · exact .inr rfl

/-- No update changes a verdict. -/
theorem update_keeps_verdict (hactive : estimator.polarityTest.isActive = false) :
    (estimator.update input).polarityTest = estimator.polarityTest := by
  have hverdict : estimator.polarityTest.verdict ≠ none := by
    intro h
    rw [PolarityTest.isActive, h] at hactive
    cases hactive
  rw [SinusoidalPulsingEstimator.update]
  split
  · rename_i ld lq hld hlq
    by_cases hinjects : (input.isInjecting
        && HasNormal.isNormal (SinusoidalPulsingEstimator.demodulationGain input ld lq)) = true
    · simp only [hinjects, if_true, SinusoidalPulsingEstimator.track]
      rw [if_neg (by rw [hactive]; decide)]
    · simp only [hinjects, SinusoidalPulsingEstimator.slave]
      simp only [Bool.false_eq_true, if_false]
      exact if_neg (by rw [hactive]; decide)
  · exact abort_verdict hverdict _

end Update

end PolarityProofs
