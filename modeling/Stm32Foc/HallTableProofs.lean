import Stm32Foc.CircularMarks
import Stm32Foc.HallEstimator

/-! # The tables of the hall estimator

    The tables of a calibration say of each edge which one is next, and how far ahead
    (`Describes`): the sorted sequence is walked once, and what follows in it is the
    nearest.  The direction of a sample is read off them. -/

namespace HallTableProofs

open FieldOriented CircularMarks

variable {K : Type} [Field K] [LinearOrder K]

/-- A calibration gives six different angles of one turn. -/
structure IsCalibrationTable (calibrations : HallCalibration K) : Prop where
  distinct : Function.Injective calibrations.get
  nonneg : ∀ i, 0 ≤ calibrations.get i
  lt_tau : ∀ i, calibrations.get i < tau

/-- On the way forward from the edge `p`, the edge `q` is the first. -/
structure NextEdge (calibrations : HallCalibration K) (p q : Fin 6) : Prop where
  other : q ≠ p
  nearest : ∀ r, r ≠ p → ahead tau (calibrations.get p) (calibrations.get q)
    ≤ ahead tau (calibrations.get p) (calibrations.get r)

/-- The sector of `p` reaches from its edge to the next one. -/
def IsSpan (calibrations : HallCalibration K) (p : Fin 6) (span : K) : Prop :=
  ∃ q, NextEdge calibrations p q ∧
    span = ahead tau (calibrations.get p) (calibrations.get q)

/-! ## The tables -/

theorem sectorIndex_patternAt : ∀ idx, sectorIndex (patternAt idx) = idx := by
  decide

/-- The walk writes, for each slot it comes to, what it finds there. -/
theorem foldl_writes {τ κ ι γ : Type} [DecidableEq κ] [DecidableEq ι]
    {step : τ → κ → τ} {view : τ → ι → γ} {slot : κ → ι} {value : κ → γ}
    (hstep : ∀ t k i, view (step t k) i = if slot k = i then value k else view t i)
    (hinj : Function.Injective slot) (k : κ) :
    ∀ (ks : List κ) (t : τ), view (ks.foldl step t) (slot k)
      = if k ∈ ks then value k else view t (slot k) := by
  intro ks
  induction ks with
  | nil => exact fun t => rfl
  | cons j ks ih =>
      intro t
      rw [List.foldl_cons, ih, hstep]
      by_cases hk : k ∈ ks
      · rw [if_pos hk, if_pos (List.mem_cons_of_mem j hk)]
      · rw [if_neg hk]
        by_cases hj : k = j
        · rw [hj, if_pos rfl, if_pos List.mem_cons_self]
        · rw [if_neg (fun h => hj (hinj h).symm), if_neg]
          rw [List.mem_cons]
          exact fun h => h.elim hj hk

/-- What the tables hold of a sector. -/
def entry (tables : HallTables K) (idx : Fin 6) : UInt8 × K × K :=
  (tables.forwardNext.get idx, tables.sectorSpan.get idx, tables.sectorSpanReciprocal.get idx)

/-- What the walk finds at its `i`-th place. -/
def found (sorted : Vector (K × UInt8) 6) (i : Fin 6) : UInt8 × K × K :=
  let gap := (sorted.get (nextPlace i)).1 - (sorted.get i).1
  let span := if gap < 0 then gap + tau else gap
  ((sorted.get (nextPlace i)).2, span, if span > 0 then 1 / span else 0)

theorem get_set {α : Type} {n : Nat} (v : Vector α n) (i j : Fin n) (x : α) :
    (v.set i x).get j = if i = j then x else v.get j := by
  show (v.set i x)[j.val] = _
  rw [Vector.getElem_set]
  by_cases h : i = j
  · rw [if_pos h, if_pos (congrArg Fin.val h)]
  · rw [if_neg h, if_neg (fun hval => h (Fin.ext hval))]
    rfl

theorem entry_record (sorted : Vector (K × UInt8) 6) (tables : HallTables K) (i idx : Fin 6) :
    entry (tables.record sorted i) idx
      = if sectorIndex (sorted.get i).2 = idx then found sorted i else entry tables idx := by
  simp only [entry, HallTables.record, get_set]
  split
  · rfl
  · rfl

/-- The edge `p` comes before the edge `q`: by its angle, and where those are equal by its
    pattern. -/
def Precedes (calibrations : HallCalibration K) (p q : Fin 6) : Prop :=
  calibrations.get p < calibrations.get q ∨ calibrations.get p = calibrations.get q ∧ p < q

omit [Field K] in
theorem Precedes.le {calibrations : HallCalibration K} {p q : Fin 6}
    (h : Precedes calibrations p q) : calibrations.get p ≤ calibrations.get q := by
  rcases h with hlt | ⟨heq, -⟩
  · exact hlt.le
  · exact heq.le

omit [Field K] [LinearOrder K] in
theorem get_pairs (calibrations : HallCalibration K) (i : Fin 6) :
    (Vector.ofFn fun i => (calibrations.get i, patternAt i)).get i
      = (calibrations.get i, patternAt i) := by
  show (Vector.ofFn fun i => (calibrations.get i, patternAt i))[i.val] = _
  rw [Vector.getElem_ofFn]

theorem patternAt_lt_iff : ∀ i j, (patternAt i).toNat < (patternAt j).toNat ↔ i < j := by
  decide

omit [Field K] in
/-- The sorted sequence is the calibration in the order of the edges. -/
theorem byAngle_order (calibrations : HallCalibration K) :
    ∃ σ : Equiv.Perm (Fin 6),
      (∀ i, (byAngle calibrations).get i = (calibrations.get (σ i), patternAt (σ i))) ∧
      ∀ i j, i < j → Precedes calibrations (σ i) (σ j) := by
  obtain ⟨σ, hσ⟩ := SwapSort.rounds_rearranges Prod.fst
    (Vector.ofFn fun i => (calibrations.get i, patternAt i)) 5 (by decide)
  have hget : ∀ i, (byAngle calibrations).get i = (calibrations.get (σ i), patternAt (σ i)) := by
    intro i
    rw [byAngle, hσ, get_pairs]
  refine ⟨σ, hget, ?_⟩
  intro i j hij
  -- the patterns of the unsorted pairs go up
  have htags : ∀ a b : Fin 6, a < b →
      ((Vector.ofFn fun i => (calibrations.get i, patternAt i)).get a).2.toNat
        < ((Vector.ofFn fun i => (calibrations.get i, patternAt i)).get b).2.toNat := by
    intro a b hab
    rw [get_pairs, get_pairs]
    exact (patternAt_lt_iff a b).mpr hab
  have hstable := SwapSort.rounds_stable Prod.fst (fun entry : K × UInt8 => entry.2.toNat)
    htags 5 (by decide) i j hij (Nat.le_of_lt_succ j.isLt)
  rw [← byAngle, hget, hget, SwapSort.tagged, SwapSort.tagged, Prod.Lex.toLex_le_toLex]
    at hstable
  rcases hstable with hlt | ⟨heq, htag⟩
  · exact Or.inl hlt
  · refine Or.inr ⟨heq, (patternAt_lt_iff _ _).mp (lt_of_le_of_ne htag ?_)⟩
    intro hsame
    have hindex : ∀ a b, (patternAt a).toNat = (patternAt b).toNat → a = b := by decide
    exact (ne_of_lt hij) (σ.injective (hindex _ _ hsame))

/-- With different angles it is in the order of the angles. -/
theorem byAngle_sorted {calibrations : HallCalibration K}
    (hcal : IsCalibrationTable calibrations) :
    ∃ σ : Equiv.Perm (Fin 6),
      (∀ i, (byAngle calibrations).get i = (calibrations.get (σ i), patternAt (σ i))) ∧
      StrictMono fun i => calibrations.get (σ i) := by
  obtain ⟨σ, hget, horder⟩ := byAngle_order calibrations
  refine ⟨σ, hget, ?_⟩
  intro i j hij
  refine lt_of_le_of_ne (horder i j hij).le ?_
  exact fun h => (ne_of_lt hij) (σ.injective (hcal.distinct h))

/-- What the tables are to a calibration. -/
structure Describes (tables : HallTables K) (calibrations : HallCalibration K) : Prop where
  edges : tables.hallPatternToTheta = calibrations
  next : ∀ p, ∃ q, NextEdge calibrations p q ∧ tables.forwardNext.get p = patternAt q ∧
    tables.sectorSpan.get p = ahead tau (calibrations.get p) (calibrations.get q)
  span_pos : ∀ p, 0 < tables.sectorSpan.get p
  reciprocal : ∀ p, tables.sectorSpanReciprocal.get p = 1 / tables.sectorSpan.get p

/-- The walk keeps the calibration. -/
theorem edges_foldl (sorted : Vector (K × UInt8) 6) :
    ∀ (is : List (Fin 6)) (tables : HallTables K),
      (is.foldl (HallTables.record sorted) tables).hallPatternToTheta
        = tables.hallPatternToTheta := by
  intro is
  induction is with
  | nil => exact fun _ => rfl
  | cons i is ih => exact fun tables => ih (tables.record sorted i)

/-- The walk comes to every sector once, at its place in the order. -/
theorem entry_ofCalibration {calibrations : HallCalibration K} {σ : Equiv.Perm (Fin 6)}
    (hget : ∀ i, (byAngle calibrations).get i = (calibrations.get (σ i), patternAt (σ i)))
    (i : Fin 6) :
    entry (HallTables.ofCalibration calibrations) (σ i) = found (byAngle calibrations) i := by
  have hslot : ∀ i, sectorIndex ((byAngle calibrations).get i).2 = σ i := by
    intro i
    rw [hget, sectorIndex_patternAt]
  have hinj : Function.Injective fun i => sectorIndex ((byAngle calibrations).get i).2 := by
    intro a b hab
    refine σ.injective ?_
    rw [← hslot a, ← hslot b]
    exact hab
  have h := foldl_writes (entry_record (byAngle calibrations)) hinj i (List.finRange 6)
    { hallPatternToTheta := calibrations, sectorSpan := Vector.replicate 6 0,
      sectorSpanReciprocal := Vector.replicate 6 0, forwardNext := Vector.replicate 6 0 }
  rw [if_pos (List.mem_finRange i), hslot] at h
  exact h

/-- Whether the walk goes on to the next turn is a matter of the sign. -/
theorem span_eq_ahead [IsStrictOrderedRing K] (angle nextAngle : K) :
    (if nextAngle - angle < 0 then nextAngle - angle + tau else nextAngle - angle)
      = ahead tau angle nextAngle := by
  rw [ahead]
  simp only [sub_neg]

section Ordered

variable [IsStrictOrderedRing K]

/-- The walk finds the pattern that follows, and the way ahead to its edge. -/
theorem found_eq {calibrations : HallCalibration K} {σ : Equiv.Perm (Fin 6)}
    (hget : ∀ i, (byAngle calibrations).get i = (calibrations.get (σ i), patternAt (σ i)))
    (i : Fin 6) : found (byAngle calibrations) i
      = (patternAt (σ (nextPlace i)),
          ahead tau (calibrations.get (σ i)) (calibrations.get (σ (nextPlace i))),
          if ahead tau (calibrations.get (σ i)) (calibrations.get (σ (nextPlace i))) > 0 then
            1 / ahead tau (calibrations.get (σ i)) (calibrations.get (σ (nextPlace i)))
          else 0) := by
  rw [found, hget, hget]
  simp only [span_eq_ahead]

/-- The edge that follows in the order of the angles is the next one. -/
theorem nextEdge_sorted {calibrations : HallCalibration K}
    (hcal : IsCalibrationTable calibrations) {σ : Equiv.Perm (Fin 6)}
    (hmono : StrictMono fun i => calibrations.get (σ i)) (i : Fin 6) :
    NextEdge calibrations (σ i) (σ (nextPlace i)) := by
  have hne : ∀ i, nextPlace i ≠ i := by decide
  constructor
  · exact fun h => hne i (σ.injective h)
  · intro r hr
    have hnearest := nearest_next hmono (fun i => hcal.nonneg (σ i))
      (fun i => hcal.lt_tau (σ i)) i (σ.symm r) (fun h => hr (by rw [← h, σ.apply_symm_apply]))
    rwa [σ.apply_symm_apply] at hnearest

/-- The way to the edge that follows is not empty, so the walk finds its reciprocal. -/
theorem found_sorted {calibrations : HallCalibration K}
    (hcal : IsCalibrationTable calibrations) {σ : Equiv.Perm (Fin 6)}
    (hget : ∀ i, (byAngle calibrations).get i = (calibrations.get (σ i), patternAt (σ i)))
    (hmono : StrictMono fun i => calibrations.get (σ i)) (i : Fin 6) :
    0 < ahead tau (calibrations.get (σ i)) (calibrations.get (σ (nextPlace i))) ∧
      found (byAngle calibrations) i
        = (patternAt (σ (nextPlace i)),
            ahead tau (calibrations.get (σ i)) (calibrations.get (σ (nextPlace i))),
            1 / ahead tau (calibrations.get (σ i)) (calibrations.get (σ (nextPlace i)))) := by
  have hpos : 0 < ahead tau (calibrations.get (σ i)) (calibrations.get (σ (nextPlace i))) := by
    refine ahead_pos (hcal.lt_tau _) (hcal.nonneg _) ?_
    exact fun h => (nextEdge_sorted hcal hmono i).other (hcal.distinct h).symm
  exact ⟨hpos, by rw [found_eq hget, if_pos hpos]⟩

/-- **THE TABLES**: of every sector, they hold the pattern that is next and how far ahead
    its edge is. -/
theorem describes {calibrations : HallCalibration K}
    (hcal : IsCalibrationTable calibrations) :
    Describes (HallTables.ofCalibration calibrations) calibrations := by
  obtain ⟨σ, hget, hmono⟩ := byAngle_sorted hcal
  have hsector : ∀ p, ∃ q, NextEdge calibrations p q ∧
      0 < ahead tau (calibrations.get p) (calibrations.get q) ∧
      (HallTables.ofCalibration calibrations).forwardNext.get p = patternAt q ∧
      (HallTables.ofCalibration calibrations).sectorSpan.get p
        = ahead tau (calibrations.get p) (calibrations.get q) ∧
      (HallTables.ofCalibration calibrations).sectorSpanReciprocal.get p
        = 1 / ahead tau (calibrations.get p) (calibrations.get q) := by
    intro p
    obtain ⟨i, rfl⟩ := σ.surjective p
    obtain ⟨hpos, hfound⟩ := found_sorted hcal hget hmono i
    have hentry := (entry_ofCalibration hget i).trans hfound
    rw [entry, Prod.mk.injEq, Prod.mk.injEq] at hentry
    exact ⟨σ (nextPlace i), nextEdge_sorted hcal hmono i, hpos, hentry⟩
  constructor
  · exact edges_foldl _ _ _
  · intro p
    obtain ⟨q, hedge, _, hnext, hspan, _⟩ := hsector p
    exact ⟨q, hedge, hnext, hspan⟩
  · intro p
    obtain ⟨q, _, hpos, _, hspan, _⟩ := hsector p
    rw [hspan]
    exact hpos
  · intro p
    obtain ⟨q, _, _, _, hspan, hrecip⟩ := hsector p
    rw [hrecip, hspan]

/-- The next edge is the only one. -/
theorem NextEdge.unique {calibrations : HallCalibration K}
    (hcal : IsCalibrationTable calibrations) {p q r : Fin 6}
    (hq : NextEdge calibrations p q) (hr : NextEdge calibrations p r) : q = r := by
  have hsame := le_antisymm (hq.nearest r hr.other) (hr.nearest q hq.other)
  exact hcal.distinct (ahead_inj (hcal.nonneg q) (hcal.lt_tau q) (hcal.nonneg r)
    (hcal.lt_tau r) hsame)

/-- There are more than two edges, so the next one does not lead back. -/
theorem NextEdge.not_back {calibrations : HallCalibration K}
    (hcal : IsCalibrationTable calibrations) {p q : Fin 6}
    (hq : NextEdge calibrations p q) : ¬ NextEdge calibrations q p := by
  have hthird : ∀ p q : Fin 6, ∃ r, r ≠ p ∧ r ≠ q := by decide
  obtain ⟨r, hrp, hrq⟩ := hthird p q
  intro hback
  have hless := not_nearest_back (hcal.nonneg p) (hcal.nonneg q) (hcal.lt_tau r) tau_pos
    (fun h => hq.other (hcal.distinct h).symm) (hq.nearest r hrp)
  exact absurd (hback.nearest r hrq) (not_le.mpr hless)

end Ordered

/-- The pattern that a sector leads to is that of the next edge. -/
theorem Describes.nextEdge {tables : HallTables K} {calibrations : HallCalibration K}
    (hdesc : Describes tables calibrations) {p : Fin 6} {pattern : UInt8}
    (h : tables.forwardNext.get p = pattern) : NextEdge calibrations p (sectorIndex pattern) := by
  obtain ⟨q, hedge, hpat, _⟩ := hdesc.next p
  rwa [← h, hpat, sectorIndex_patternAt]

theorem isSpan_sectorSpan {tables : HallTables K} {calibrations : HallCalibration K}
    (hdesc : Describes tables calibrations) (p : Fin 6) :
    IsSpan calibrations p (tables.sectorSpan.get p) := by
  obtain ⟨q, hedge, _, hspan⟩ := hdesc.next p
  exact ⟨q, hedge, hspan⟩

/-- A next edge is as far ahead as the tables have it. -/
theorem NextEdge.span_eq {tables : HallTables K} {calibrations : HallCalibration K}
    (hdesc : Describes tables calibrations) {p q : Fin 6} (hedge : NextEdge calibrations p q) :
    tables.sectorSpan.get p = ahead tau (calibrations.get p) (calibrations.get q) := by
  obtain ⟨r, hother, _, hspan⟩ := hdesc.next p
  rw [hspan]
  exact le_antisymm (hother.nearest q hedge.other) (hedge.nearest r hother.other)

/-! ## The direction -/

/-- What a pattern of the sensors can be. -/
def IsPattern (pattern : UInt8) : Prop := 1 ≤ pattern ∧ pattern ≤ 6

section Inversion

variable {forwardNext : Vector UInt8 6} {p q : UInt8}

theorem direction_invalid (h : ¬ IsPattern p ∨ ¬ IsPattern q) :
    HallEstimator.direction forwardNext p q = none := if_pos h

theorem direction_valid (hp : IsPattern p) (hq : IsPattern q) :
    HallEstimator.direction forwardNext p q =
      if p = q then some 0
      else if forwardNext.get (sectorIndex p) = q then some 1
      else if forwardNext.get (sectorIndex q) = p then some (-1)
      else none :=
  if_neg (not_or.mpr ⟨not_not.mpr hp, not_not.mpr hq⟩)

/-- **INVERSION**: a direction is that of a pattern that stays, of one that leads to the
    other, or of one that the other leads to. -/
theorem direction_eq_some_iff {d : Int} : HallEstimator.direction forwardNext p q = some d ↔
    IsPattern p ∧ IsPattern q ∧
      (p = q ∧ d = 0 ∨
        p ≠ q ∧ forwardNext.get (sectorIndex p) = q ∧ d = 1 ∨
        p ≠ q ∧ forwardNext.get (sectorIndex p) ≠ q ∧
          forwardNext.get (sectorIndex q) = p ∧ d = -1) := by
  by_cases hinvalid : ¬ IsPattern p ∨ ¬ IsPattern q
  · rw [direction_invalid hinvalid]
    refine iff_of_false (fun h => by cases h) ?_
    rintro ⟨hp, hq, -⟩
    exact hinvalid.elim (fun h => h hp) (fun h => h hq)
  · rw [not_or, not_not, not_not] at hinvalid
    obtain ⟨hp, hq⟩ := hinvalid
    rw [direction_valid hp hq]
    split_ifs with hsame hforward hreverse
    · simp [hq, hsame, eq_comm]
    · simp [hp, hq, hsame, hforward, eq_comm]
    · simp [hp, hq, hsame, hforward, hreverse, eq_comm]
    · simp [hsame, hforward, hreverse]

/-- There is no direction just for a corrupt pattern or an edge that was skipped. -/
theorem direction_eq_none_iff : HallEstimator.direction forwardNext p q = none ↔
    ¬ IsPattern p ∨ ¬ IsPattern q ∨
      p ≠ q ∧ forwardNext.get (sectorIndex p) ≠ q ∧ forwardNext.get (sectorIndex q) ≠ p := by
  by_cases hinvalid : ¬ IsPattern p ∨ ¬ IsPattern q
  · exact iff_of_true (direction_invalid hinvalid) (hinvalid.imp_right Or.inl)
  · rw [not_or, not_not, not_not] at hinvalid
    obtain ⟨hp, hq⟩ := hinvalid
    rw [direction_valid hp hq]
    split_ifs with hsame hforward hreverse
    · simp [hq, hsame]
    · simp [hp, hq, hforward]
    · simp [hp, hq, hreverse]
    · simp [hsame, hforward, hreverse]

end Inversion

/-- The two patterns of a sample are one edge apart: in the forward direction, which is 1,
    or in the other, which is -1. -/
def HasDirection (calibrations : HallCalibration K) (input : HallEstimatorInput K)
    (d : Int) : Prop :=
  (1 ≤ input.prevHallPattern ∧ input.prevHallPattern ≤ 6) ∧
    (d = 1 ∧ NextEdge calibrations (sectorIndex input.prevHallPattern)
        (sectorIndex input.hallPattern) ∨
      d = -1 ∧ NextEdge calibrations (sectorIndex input.hallPattern)
        (sectorIndex input.prevHallPattern))

/-- The direction that is taken from a sample, 0 where there is none. -/
def dirOf (tables : HallTables K) (input : HallEstimatorInput K) : Int :=
  (HallEstimator.direction tables.forwardNext input.prevHallPattern input.hallPattern).getD 0

/-- A direction that is not 0 is that of the edge between the two patterns. -/
theorem dirOf_hasDirection {tables : HallTables K} {calibrations : HallCalibration K}
    (hdesc : Describes tables calibrations) {input : HallEstimatorInput K}
    (hdir : dirOf tables input ≠ 0) : HasDirection calibrations input (dirOf tables input) := by
  cases hdirection : HallEstimator.direction tables.forwardNext input.prevHallPattern
      input.hallPattern with
  | none =>
      rw [dirOf, hdirection] at hdir
      exact absurd rfl hdir
  | some d =>
      have hd : dirOf tables input = d := by
        rw [dirOf, hdirection]
        rfl
      rw [hd] at hdir ⊢
      obtain ⟨hprev, -, ⟨-, hzero⟩ | ⟨-, hforward, hone⟩ | ⟨-, -, hreverse, hminus⟩⟩ :=
        direction_eq_some_iff.mp hdirection
      · exact absurd hzero hdir
      · exact ⟨hprev, Or.inl ⟨hone, hdesc.nextEdge hforward⟩⟩
      · exact ⟨hprev, Or.inr ⟨hminus, hdesc.nextEdge hreverse⟩⟩

/-- The direction is one of three. -/
theorem dirOf_cases {tables : HallTables K} {calibrations : HallCalibration K}
    (hdesc : Describes tables calibrations) (input : HallEstimatorInput K) :
    dirOf tables input = 0 ∨ dirOf tables input = 1 ∨
      dirOf tables input = -1 ∧ NextEdge calibrations (sectorIndex input.hallPattern)
        (sectorIndex input.prevHallPattern) := by
  by_cases hdir : dirOf tables input = 0
  · exact Or.inl hdir
  obtain ⟨_, ⟨hone, _⟩ | ⟨hminus, hedge⟩⟩ := dirOf_hasDirection hdesc hdir
  · exact Or.inr (Or.inl hone)
  · exact Or.inr (Or.inr ⟨hminus, hedge⟩)

theorem patternAt_sectorIndex {pattern : UInt8} (h : 1 ≤ pattern ∧ pattern ≤ 6) :
    patternAt (sectorIndex pattern) = pattern := by
  obtain ⟨hlow, hhigh⟩ := h
  have hlow' : 1 ≤ pattern.toNat := UInt8.le_iff_toNat_le.mp hlow
  have hhigh' : pattern.toNat ≤ 6 := UInt8.le_iff_toNat_le.mp hhigh
  have hsub : (pattern - 1).toNat = pattern.toNat - 1 := UInt8.toNat_sub_of_le _ _ hlow
  rw [patternAt, ← UInt8.toNat_inj, UInt8.toNat_ofNat', sectorIndex]
  simp only [hsub]
  omega

/-- **THE DIRECTION** that is taken from a sample is that of the edge between its patterns,
    where there is one. -/
theorem dirOf_eq_iff [IsStrictOrderedRing K] {calibrations : HallCalibration K}
    (hcal : IsCalibrationTable calibrations) {input : HallEstimatorInput K}
    (hpattern : 1 ≤ input.hallPattern ∧ input.hallPattern ≤ 6) {d : Int} (hd : d ≠ 0) :
    dirOf (HallTables.ofCalibration calibrations) input = d
      ↔ HasDirection calibrations input d := by
  have hdesc := describes hcal
  constructor
  · intro h
    rw [← h] at hd ⊢
    exact dirOf_hasDirection hdesc hd
  · rintro ⟨hprev, hedge⟩
    have hnext : ∀ p q, 1 ≤ q ∧ q ≤ 6 → NextEdge calibrations (sectorIndex p) (sectorIndex q) →
        (HallTables.ofCalibration calibrations).forwardNext.get (sectorIndex p) = q := by
      intro p q hq hedge
      obtain ⟨r, hr, hpat, _⟩ := hdesc.next (sectorIndex p)
      rw [hpat, hr.unique hcal hedge, patternAt_sectorIndex hq]
    have hdirection : HallEstimator.direction
        (HallTables.ofCalibration calibrations).forwardNext input.prevHallPattern
        input.hallPattern = some d := by
      refine direction_eq_some_iff.mpr ⟨hprev, hpattern, Or.inr ?_⟩
      rcases hedge with ⟨hone, hedge⟩ | ⟨hminus, hedge⟩
      · exact Or.inl ⟨fun h => hedge.other (congrArg sectorIndex h.symm),
          hnext _ _ hpattern hedge, hone⟩
      · -- the tables lead from an edge to the next one only
        exact Or.inr ⟨fun h => hedge.other (congrArg sectorIndex h),
          fun h => hedge.not_back hcal (hdesc.nextEdge h), hnext _ _ hprev hedge, hminus⟩
    rw [dirOf, hdirection, Option.getD_some]

end HallTableProofs
