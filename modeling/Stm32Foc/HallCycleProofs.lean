import Stm32Foc.EventRun
import Stm32Foc.HallCalibrator
import Stm32Foc.HallTableProofs
import Mathlib.Data.Rat.Floor
import Mathlib.GroupTheory.Perm.Fin

/-! # The cycle of the hall edges

    A calibration may have one angle for several edges.  Its tables still lead around
    all the patterns, in the order of the angles (`GoesAround`), and as long as two of
    the angles differ, in exactly one turn (`hall_cycle`).  So the direction from one
    pattern to another is never that of the way back.  The calibrator measures no other
    angles than those of one turn (`run_measured`). -/

namespace HallCycleProofs

open EventRun FieldOriented Commission CircularMarks HallTableProofs

variable {K : Type} [Field K] [LinearOrder K]

/-- The successor goes around all the patterns, in the order of their angles from the
    smallest on. -/
structure GoesAround (calibrations : HallCalibration K) (next : Equiv.Perm (Fin 6)) :
    Prop where
  cycle : next.IsCycle
  all : next.support = Finset.univ
  ordered : ∃ order : Equiv.Perm (Fin 6), (∀ i, next (order i) = order (nextPlace i)) ∧
    ∀ i j, i < j → Precedes calibrations (order i) (order j)

/-! ## The cycle -/

/-- The successor in an order. -/
def following (order : Equiv.Perm (Fin 6)) : Equiv.Perm (Fin 6) :=
  order * finRotate 6 * order⁻¹

theorem following_apply (order : Equiv.Perm (Fin 6)) (i : Fin 6) :
    following order (order i) = order (nextPlace i) := by
  show order (finRotate 6 (order.symm (order i))) = _
  rw [Equiv.symm_apply_apply, finRotate_apply]
  rfl

omit [Field K] in
theorem goesAround_following {calibrations : HallCalibration K} {order : Equiv.Perm (Fin 6)}
    (horder : ∀ i j, i < j → Precedes calibrations (order i) (order j)) :
    GoesAround calibrations (following order) := by
  constructor
  · exact isCycle_finRotate.conj
  · rw [following, Equiv.Perm.support_conj, support_finRotate, Finset.map_univ_equiv]
  · exact ⟨order, following_apply order, horder⟩

/-- No two patterns follow each other. -/
theorem following_not_back (order : Equiv.Perm (Fin 6)) (p : Fin 6) :
    following order (following order p) ≠ p := by
  have hne : ∀ i, nextPlace (nextPlace i) ≠ i := by decide
  obtain ⟨i, rfl⟩ := order.surjective p
  rw [following_apply, following_apply]
  exact fun h => hne i (order.injective h)

/-! ## The direction -/

section Direction

variable {forwardNext : Vector UInt8 6} {next : Equiv.Perm (Fin 6)} {p q : UInt8}

/-- The table names a pattern as the next one just if its sector is. -/
theorem forwardNext_eq_iff (hnext : ∀ i, forwardNext.get i = patternAt (next i))
    (hq : IsPattern q) :
    forwardNext.get (sectorIndex p) = q ↔ next (sectorIndex p) = sectorIndex q := by
  rw [hnext]
  constructor
  · intro h
    rw [← h, sectorIndex_patternAt]
  · intro h
    rw [h, patternAt_sectorIndex hq]

/-- The way back has the opposite direction. -/
theorem direction_antisymm (hnext : ∀ i, forwardNext.get i = patternAt (next i))
    (hback : ∀ i, next (next i) ≠ i) {d : Int}
    (h : HallEstimator.direction forwardNext p q = some d) :
    HallEstimator.direction forwardNext q p = some (-d) := by
  rw [direction_eq_some_iff] at h ⊢
  obtain ⟨hp, hq, ⟨hsame, rfl⟩ | ⟨hne, hforward, rfl⟩ | ⟨hne, hforward, hreverse, rfl⟩⟩ := h
  · exact ⟨hq, hp, Or.inl ⟨hsame.symm, rfl⟩⟩
  · have hnot : forwardNext.get (sectorIndex q) ≠ p := by
      intro hreverse
      rw [forwardNext_eq_iff hnext hq] at hforward
      rw [forwardNext_eq_iff hnext hp, ← hforward] at hreverse
      exact hback _ hreverse
    exact ⟨hq, hp, Or.inr (Or.inr ⟨hne.symm, hnot, hforward, rfl⟩)⟩
  · exact ⟨hq, hp, Or.inr (Or.inl ⟨hne.symm, hreverse, rfl⟩)⟩

/-- There is no direction for a corrupt pattern, and none over an edge that was
    skipped. -/
theorem direction_none_iff (hnext : ∀ i, forwardNext.get i = patternAt (next i)) :
    HallEstimator.direction forwardNext p q = none ↔
      ¬ IsPattern p ∨ ¬ IsPattern q ∨
        p ≠ q ∧ next (sectorIndex p) ≠ sectorIndex q ∧ next (sectorIndex q) ≠ sectorIndex p := by
  rw [direction_eq_none_iff]
  by_cases hp : IsPattern p
  · by_cases hq : IsPattern q
    · rw [ne_eq (forwardNext.get (sectorIndex p)), forwardNext_eq_iff hnext hq,
        ne_eq (forwardNext.get (sectorIndex q)), forwardNext_eq_iff hnext hp]
    · exact iff_of_true (Or.inr (Or.inl hq)) (Or.inr (Or.inl hq))
  · exact iff_of_true (Or.inl hp) (Or.inl hp)

end Direction

/-! ## The spans -/

section Spans

variable [IsStrictOrderedRing K] {calibrations : HallCalibration K}
  {order : Equiv.Perm (Fin 6)}

/-- What the tables hold of an edge in the order. -/
theorem entry_order
    (hget : ∀ i, (byAngle calibrations).get i = (calibrations.get (order i), patternAt (order i)))
    (i : Fin 6) :
    (HallTables.ofCalibration calibrations).forwardNext.get (order i)
        = patternAt (order (nextPlace i)) ∧
      (HallTables.ofCalibration calibrations).sectorSpan.get (order i)
        = ahead tau (calibrations.get (order i)) (calibrations.get (order (nextPlace i))) := by
  have hentry := (entry_ofCalibration hget i).trans (found_eq hget i)
  rw [entry, Prod.mk.injEq, Prod.mk.injEq] at hentry
  exact ⟨hentry.1, hentry.2.1⟩

/-- Edges in order that are not all at one angle are once around. -/
theorem sum_span
    (hget : ∀ i, (byAngle calibrations).get i = (calibrations.get (order i), patternAt (order i)))
    (horder : ∀ i j, i < j → Precedes calibrations (order i) (order j))
    (hdiffer : ∃ p q, calibrations.get p ≠ calibrations.get q) :
    ∑ p, (HallTables.ofCalibration calibrations).sectorSpan.get p = tau := by
  have hmono : Monotone fun i => calibrations.get (order i) := by
    intro i j hij
    rcases hij.lt_or_eq with hlt | rfl
    · exact (horder i j hlt).le
    · exact le_refl _
  have hfirst : calibrations.get (order 0) < calibrations.get (order (Fin.last 5)) := by
    refine lt_of_le_of_ne (hmono (Fin.zero_le _)) ?_
    intro hsame
    have hall : ∀ p, calibrations.get p = calibrations.get (order 0) := by
      intro p
      obtain ⟨i, rfl⟩ := order.surjective p
      refine le_antisymm ?_ (hmono (Fin.zero_le i))
      rw [hsame]
      exact hmono (Fin.le_last i)
    obtain ⟨p, q, hne⟩ := hdiffer
    exact hne ((hall p).trans (hall q).symm)
  calc ∑ p, (HallTables.ofCalibration calibrations).sectorSpan.get p
      = ∑ i, (HallTables.ofCalibration calibrations).sectorSpan.get (order i) :=
        (Equiv.sum_comp order _).symm
    _ = ∑ i, ahead tau (calibrations.get (order i)) (calibrations.get (order (i + 1))) :=
        Finset.sum_congr rfl fun i _ => (entry_order hget i).2
    _ = tau := sum_ahead hmono hfirst

/-- **THE CYCLE**: a calibration with six angles of one turn, of which two differ, gives
    tables whose patterns follow each other in one cycle, in the order of the angles; the
    spans are not negative, add up to a turn, and lead from each edge to that of the next
    pattern.  The direction from one pattern to another is the opposite of that of the
    way back, and there is none just for patterns that are corrupt or not adjacent. -/
theorem hall_cycle (self : HallEstimator K) (calibrations : HallCalibration K)
    (hnonneg : ∀ p, 0 ≤ calibrations.get p) (hturn : ∀ p, calibrations.get p < tau)
    (hdiffer : ∃ p q, calibrations.get p ≠ calibrations.get q) :
    ∃ tables next, (self.setCalibration calibrations).tables = some tables ∧
      GoesAround calibrations next ∧
      (∀ p, tables.forwardNext.get p = patternAt (next p)) ∧
      (∀ p, 0 ≤ tables.sectorSpan.get p) ∧
      ∑ p, tables.sectorSpan.get p = tau ∧
      (∀ p, SameAngle (calibrations.get (next p))
        (calibrations.get p + tables.sectorSpan.get p)) ∧
      (∀ p q d, HallEstimator.direction tables.forwardNext p q = some d →
        HallEstimator.direction tables.forwardNext q p = some (-d)) ∧
      ∀ p q, HallEstimator.direction tables.forwardNext p q = none ↔
        ¬ IsPattern p ∨ ¬ IsPattern q ∨
          p ≠ q ∧ next (sectorIndex p) ≠ sectorIndex q ∧
            next (sectorIndex q) ≠ sectorIndex p := by
  obtain ⟨order, hget, horder⟩ := byAngle_order calibrations
  have hnext : ∀ p, (HallTables.ofCalibration calibrations).forwardNext.get p
      = patternAt (following order p) := by
    intro p
    obtain ⟨i, rfl⟩ := order.surjective p
    rw [following_apply]
    exact (entry_order hget i).1
  have hspan : ∀ p, (HallTables.ofCalibration calibrations).sectorSpan.get p
      = ahead tau (calibrations.get p) (calibrations.get (following order p)) := by
    intro p
    obtain ⟨i, rfl⟩ := order.surjective p
    rw [following_apply]
    exact (entry_order hget i).2
  refine ⟨_, following order, rfl, goesAround_following horder, hnext, ?_,
    sum_span hget horder hdiffer, ?_, ?_, ?_⟩
  · intro p
    rw [hspan]
    exact ahead_nonneg (hturn p) (hnonneg _)
  · intro p
    rw [hspan]
    rcases add_ahead tau (calibrations.get p) (calibrations.get (following order p))
      with h | h
    · exact ⟨0, by rw [h]; push_cast; ring⟩
    · exact ⟨-1, by rw [h]; push_cast; ring⟩
  · intro p q d h
    exact direction_antisymm hnext (following_not_back order) h
  · intro p q
    exact direction_none_iff hnext

/-- Edges in pairs at three angles. -/
def tiedEdges : HallCalibration ℚ := Vector.ofFn fun i => ((i.val / 2 : ℕ) : ℚ)

theorem hall_cycle_tied :
    ∃ tables next, (HallEstimator.new.setCalibration tiedEdges).tables = some tables ∧
      GoesAround tiedEdges next ∧
      (∀ p, tables.forwardNext.get p = patternAt (next p)) ∧
      ∑ p, tables.sectorSpan.get p = tau := by
  obtain ⟨tables, next, htables, haround, hnext, -, hsum, -⟩ :=
    hall_cycle .new tiedEdges (by decide +kernel) (by decide +kernel)
      ⟨0, 5, by decide +kernel⟩
  exact ⟨tables, next, htables, haround, hnext, hsum⟩

end Spans

/-! ## The tables of the calibrator -/

section Measured

/-- An angle of the first turn. -/
def InTurn (theta : K) : Prop := 0 ≤ theta ∧ theta < tau

/-- All the angles of a calibrator are of the first turn. -/
structure Measured (calibrator : HallCalibrator K) : Prop where
  entries : ∀ p, InTurn (calibrator.hallPatternToTheta.get p)
  forward : ∀ sweep, calibrator.state = .sweepingForward sweep → InTurn sweep.targetTheta
  reverse : ∀ sweep, calibrator.state = .sweepingReverse sweep → InTurn sweep.targetTheta

/-- Writing an angle of the first turn. -/
theorem inTurn_set {table : HallCalibration K} (h : ∀ p, InTurn (table.get p)) {theta : K}
    (htheta : InTurn theta) (j p : Fin 6) : InTurn ((table.set j theta j.isLt).get p) := by
  by_cases hjp : j = p
  · subst hjp
    have hself : (table.set j theta j.isLt).get j = theta := Vector.getElem_set_self j.isLt
    rw [hself]
    exact htheta
  · have hne : j.val ≠ p.val := fun hv => hjp (Fin.ext hv)
    have hother : (table.set j theta j.isLt).get p = table.get p :=
      Vector.getElem_set_ne j.isLt p.isLt hne
    rw [hother]
    exact h p

variable [IsStrictOrderedRing K]

theorem inTurn_zero : InTurn (0 : K) := ⟨le_refl 0, tau_pos⟩

theorem measured_start (calibrator : HallCalibrator K) : Measured calibrator.start := by
  constructor
  · intro p
    have hzero : calibrator.start.hallPatternToTheta.get p = 0 :=
      Vector.getElem_replicate p.isLt
    rw [hzero]
    exact inTurn_zero
  · exact fun sweep h => by cases h
  · exact fun sweep h => by cases h

variable [FloorRing K] {self : HallCalibrator K} {sweep : Sweep K}

theorem forwardOn_measured (h : ∀ p, InTurn (self.hallPatternToTheta.get p))
    (sweep : Sweep K) (hallPattern : UInt8) (omega : K) :
    Measured (self.forwardOn sweep hallPattern omega).2 := by
  refine ⟨h, ?_, ?_⟩
  · rintro _ ⟨⟩
    exact (wrapTo2pi_spec _).1
  · rintro _ ⟨⟩

theorem reverseOn_measured (h : ∀ p, InTurn (self.hallPatternToTheta.get p))
    (sweep : Sweep K) (hallPattern : UInt8) (omega : K) :
    Measured (self.reverseOn sweep hallPattern omega).2 := by
  refine ⟨h, ?_, ?_⟩
  · rintro _ ⟨⟩
  · rintro _ ⟨⟩
    exact (wrapTo2pi_spec _).1

omit [FloorRing K] in
theorem settleStep_measured (h : Measured self) (waitedS : K) (hallPattern : UInt8) :
    Measured (self.settleStep waitedS hallPattern).2 := by
  rw [HallCalibrator.settleStep]
  split
  · refine ⟨h.entries, ?_, ?_⟩
    · rintro _ ⟨⟩
      exact inTurn_zero
    · rintro _ ⟨⟩
  · refine ⟨h.entries, ?_, ?_⟩ <;> rintro _ ⟨⟩

theorem forwardStep_measured (h : Measured self) (hsweep : InTurn sweep.targetTheta)
    (hallPattern : UInt8) (omega : K) :
    Measured (self.forwardStep sweep hallPattern omega).2 := by
  rw [HallCalibrator.forwardStep]
  split
  · split
    · refine ⟨h.entries, ?_, ?_⟩
      · rintro _ ⟨⟩
      · rintro _ ⟨⟩
        exact hsweep
    · exact forwardOn_measured (inTurn_set h.entries hsweep _) _ _ _
  · exact forwardOn_measured h.entries _ _ _

theorem reverseStep_measured (h : Measured self) (hallPattern : UInt8) (omega : K) :
    Measured (self.reverseStep sweep hallPattern omega).2 := by
  rw [HallCalibrator.reverseStep]
  split
  · cases hfirst : sweep.firstEdge with
    | none => exact reverseOn_measured h.entries _ _ _
    | some firstPattern =>
        dsimp only
        split
        · exact h
        · -- the mean of the departure and the arrival is wrapped before it is kept
          have hentries := fun theta : K => inTurn_set h.entries (wrapTo2pi_spec theta).1
          split
          · refine ⟨hentries _ _, ?_, ?_⟩ <;> rintro _ ⟨⟩
          · exact reverseOn_measured (hentries _ _) _ _ _
  · exact reverseOn_measured h.entries _ _ _

/-- No step leaves the first turn. -/
theorem calibrationStep_measured (h : Measured self) (hallPattern : UInt8) (omega : K) :
    Measured (self.calibrationStep hallPattern omega).2 := by
  rw [HallCalibrator.calibrationStep]
  cases hstate : self.state with
  | initialSettle waitedS => exact settleStep_measured h waitedS hallPattern
  | sweepingForward sweep =>
      exact forwardStep_measured h (h.forward sweep hstate) hallPattern omega
  | sweepingReverse sweep => exact reverseStep_measured h hallPattern omega
  | done targetTheta => exact h

/-- **THE TABLES**: whatever patterns and speeds a calibrator is given from its start on,
    its table has six angles of the first turn. -/
theorem run_measured (calibrator : HallCalibrator K) (inputs : List (UInt8 × K)) :
    Measured (run (fun c input => (c.calibrationStep input.1 input.2).2)
      calibrator.start inputs) := by
  have hstep : ∀ (c : HallCalibrator K) (input : UInt8 × K), True → Measured c →
      Measured (c.calibrationStep input.1 input.2).2 :=
    fun _ input _ h => calibrationStep_measured h input.1 input.2
  exact run_keeps hstep inputs _ (fun _ _ => trivial) (measured_start calibrator)

end Measured

end HallCycleProofs
