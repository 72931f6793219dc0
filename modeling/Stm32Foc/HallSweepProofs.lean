import Stm32Foc.EventRun
import Stm32Foc.HallCalibrator
import Mathlib.Data.Rat.Floor

/-! # Which tables of the hall calibration are whole

    The calibrator ends a sweep when the pattern of the sweep's first edge comes back,
    at the sixth edge or later.  `Stage` says where a stream of patterns is, by that
    rule alone; the calibrator follows it (`Tracks`), and the entries it records and
    confirms are those of the edges of the two sweeps, with the table as what becomes of
    them (`Agrees`).  So a table is whole exactly when both sweeps show all six patterns
    (`table_whole_iff`). -/

namespace HallSweepProofs

open EventRun FieldOriented Commission Commission.HallCalibrator

/-! ## Sweeps of patterns -/

/-- Where a stream of patterns is: what it has shown in each sweep, edge by edge. -/
inductive Stage (K : Type) where
  | settling (waitedS : K)
  | forward (prev : UInt8) (edges : List UInt8)
  | reverse (shown : List UInt8) (prev : UInt8) (edges : List UInt8)
  | complete (shown shownBack : List UInt8)
  deriving DecidableEq

/-- The pattern of the first edge is back, after five edges at least. -/
def Closes (edges : List UInt8) (pattern : UInt8) : Prop :=
  edges.head? = some pattern ∧ 5 ≤ edges.length

instance (edges : List UInt8) (pattern : UInt8) : Decidable (Closes edges pattern) :=
  inferInstanceAs (Decidable (_ ∧ _))

section Stages

variable {K : Type} [Field K] [LinearOrder K]

/-- The next pattern of a stream. -/
def Stage.next (settleS dt : K) : Stage K → UInt8 → Stage K
  | .settling waitedS, pattern =>
      if waitedS + dt ≥ settleS then .forward pattern [] else .settling (waitedS + dt)
  | .forward prev edges, pattern =>
      if prev ≠ pattern then
        if Closes edges pattern then .reverse edges pattern []
        else .forward pattern (edges ++ [pattern])
      else .forward prev edges
  | .reverse shown prev edges, pattern =>
      if prev ≠ pattern then
        if Closes edges pattern then .complete shown edges
        else .reverse shown pattern (edges ++ [pattern])
      else .reverse shown prev edges
  | .complete shown shownBack, _ => .complete shown shownBack

end Stages

/-- The edges show every pattern. -/
def Shows (edges : List UInt8) : Prop := ∀ i, i ∈ edges.map patternIndex

/-- Both sweeps are over and have shown every pattern. -/
def Stage.Covers {K : Type} : Stage K → Prop
  | .complete shown shownBack => Shows shown ∧ Shows shownBack
  | _ => False

/-! ## The calibrator, observed from outside -/

/-- The entries recorded on the way forward, with the angles of the arrivals, and those
    confirmed on the way back, with the angles of the departures. -/
structure Log (K : Type) where
  recorded : List (Fin 6 × K)
  confirmed : List (Fin 6 × K)
  deriving DecidableEq

structure Session (K : Type) where
  calibrator : HallCalibrator K
  log : Log K
  disagreed : Bool
  deriving DecidableEq

/-- The angles an entry was given, in order. -/
def anglesOf {K : Type} (entries : List (Fin 6 × K)) (i : Fin 6) : List K :=
  (entries.filter (fun entry => entry.1 = i)).map Prod.snd

variable {K : Type} [Field K] [LinearOrder K]

/-- What a step that succeeds adds to the log: forward the arrival at a pattern, unless
    it ends the sweep, and back the departure from one, unless it is the first. -/
def Log.observe (log : Log K) (before after : HallCalibrator K) (pattern : UInt8) :
    Log K :=
  match before.state, after.state with
  | .sweepingForward sweep, .sweepingForward _ =>
      if sweep.prevPattern ≠ pattern then
        { log with
          recorded := log.recorded ++ [(patternIndex pattern, sweep.targetTheta)] }
      else log
  | .sweepingReverse sweep, _ =>
      if sweep.prevPattern ≠ pattern ∧ sweep.firstEdge.isSome then
        { log with
          confirmed := log.confirmed
            ++ [(patternIndex sweep.prevPattern, sweep.targetTheta)] }
      else log
  | _, _ => log

variable [FloorRing K]

/-- A step of the calibrator, which a disagreement is the last of. -/
def step (omega : K) (s : Session K) (pattern : UInt8) : Session K :=
  if s.disagreed then s
  else
    match s.calibrator.calibrationStep pattern omega with
    | (.ok _, calibrator) =>
        ⟨calibrator, s.log.observe s.calibrator calibrator pattern, false⟩
    | (.error _, calibrator) => ⟨calibrator, s.log, true⟩

/-- A calibrator that has been started. -/
def Session.start (calibrator : HallCalibrator K) : Session K :=
  ⟨calibrator.start, ⟨[], []⟩, false⟩

/-- The circular mean of the angle that an entry holds and of a departure. -/
def edgeMean (held departed : K) : K :=
  wrapTo2pi (held + 0.5 * wrappedDiff departed held)

/-- Every entry was recorded on the way forward and confirmed within `PI / 6` of its
    recorded angle on the way back, and what is delivered for it is the mean of the two,
    and of it and any later departure. -/
def Whole (log : Log K) (table : HallCalibration K) : Prop :=
  ∀ i : Fin 6, ∃ recorded departed later,
    (anglesOf log.recorded i).getLast? = some recorded ∧
      anglesOf log.confirmed i = departed :: later ∧
      |wrappedDiff departed recorded| ≤ pi / 6.0 ∧
      table[i] = later.foldl edgeMean (edgeMean recorded departed)

/-! ## The calibrator follows the stages -/

omit [Field K] [LinearOrder K] [FloorRing K] in
theorem anglesOf_snoc (entries : List (Fin 6 × K)) (i j : Fin 6) (theta : K) :
    anglesOf (entries ++ [(j, theta)]) i
      = if j = i then anglesOf entries i ++ [theta] else anglesOf entries i := by
  rw [anglesOf, List.filter_append, List.map_append]
  by_cases h : j = i
  · rw [if_pos h, List.filter_singleton, decide_eq_true h]
    rfl
  · rw [if_neg h, List.filter_singleton, decide_eq_false h]
    exact List.append_nil _

omit [Field K] [LinearOrder K] [FloorRing K] in
/-- An entry was given an angle exactly when it is among the entries. -/
theorem anglesOf_ne_nil_iff {entries : List (Fin 6 × K)} {i : Fin 6} :
    anglesOf entries i ≠ [] ↔ i ∈ entries.map Prod.fst := by
  rw [anglesOf, ne_eq, List.map_eq_nil_iff, List.filter_eq_nil_iff, List.mem_map]
  constructor
  · intro h
    by_contra hnone
    refine h fun entry hmem => ?_
    rw [decide_eq_true_iff]
    exact fun hi => hnone ⟨entry, hmem, hi⟩
  · rintro ⟨entry, hmem, hi⟩ h
    exact h entry hmem (decide_eq_true hi)

/-- The angle an entry was recorded at last, or the initial one. -/
def heldBefore (log : Log K) (i : Fin 6) : K := (anglesOf log.recorded i).getLast?.getD 0

/-- The log tells the table: an entry holds its recorded angle, and the mean of it and of
    every departure since; the first departure was near the recorded angle. -/
structure Agrees (log : Log K) (table : HallCalibration K) : Prop where
  table : ∀ i : Fin 6, table[i] = (anglesOf log.confirmed i).foldl edgeMean (heldBefore log i)
  near : ∀ (i : Fin 6) departed later, anglesOf log.confirmed i = departed :: later →
    |wrappedDiff departed (heldBefore log i)| ≤ pi / 6.0

variable {log : Log K} {table : HallCalibration K}

/-- Recording an entry on the way forward. -/
theorem Agrees.record (h : Agrees log table) (hforward : log.confirmed = [])
    (j : Fin 6) (theta : K) :
    Agrees { log with recorded := log.recorded ++ [(j, theta)] } (table.set j theta) := by
  have hnone : ∀ i, anglesOf log.confirmed i = [] := by
    intro i
    rw [hforward]
    rfl
  constructor
  · intro i
    have hheld := h.table i
    rw [hnone i, List.foldl_nil, heldBefore] at hheld
    rw [hnone i, List.foldl_nil, heldBefore, anglesOf_snoc]
    by_cases hij : j = i
    · subst hij
      rw [if_pos rfl, List.getLast?_concat]
      exact Vector.getElem_set_self j.isLt
    · rw [if_neg hij]
      have hne : j.val ≠ i.val := fun hv => hij (Fin.ext hv)
      exact (Vector.getElem_set_ne j.isLt i.isLt hne).trans hheld
  · intro i departed later hconfirmed
    -- nothing is confirmed while the sweep goes forward
    cases (hnone i).symm.trans hconfirmed

/-- Confirming an entry on the way back. -/
theorem Agrees.confirm (h : Agrees log table) (j : Fin 6) {departed : K}
    (hnear : |wrappedDiff departed table[j]| ≤ pi / 6.0) :
    Agrees { log with confirmed := log.confirmed ++ [(j, departed)] }
      (table.set j (edgeMean table[j] departed)) := by
  constructor
  · intro i
    rw [anglesOf_snoc]
    by_cases hij : j = i
    · subst hij
      rw [if_pos rfl, List.foldl_append, List.foldl_cons, List.foldl_nil]
      refine (Vector.getElem_set_self j.isLt).trans ?_
      exact congrArg (edgeMean · departed) (h.table j)
    · rw [if_neg hij]
      have hne : j.val ≠ i.val := fun hv => hij (Fin.ext hv)
      exact (Vector.getElem_set_ne j.isLt i.isLt hne).trans (h.table i)
  · intro i first later hconfirmed
    rw [anglesOf_snoc] at hconfirmed
    by_cases hij : j = i
    · subst hij
      rw [if_pos rfl] at hconfirmed
      cases hbefore : anglesOf log.confirmed j with
      | nil =>
          -- the first departure finds the recorded angle in the table
          have hheld := h.table j
          rw [hbefore, List.nil_append] at hconfirmed
          rw [hbefore, List.foldl_nil] at hheld
          obtain ⟨rfl, -⟩ := List.cons.inj hconfirmed
          rw [hheld] at hnear
          exact hnear
      | cons first' later' =>
          rw [hbefore, List.cons_append] at hconfirmed
          obtain ⟨rfl, -⟩ := List.cons.inj hconfirmed
          exact h.near j _ _ hbefore
    · rw [if_neg hij] at hconfirmed
      exact h.near i _ _ hconfirmed

/-- A sweep of the calibrator has seen these edges. -/
structure Counts (sweep : Sweep K) (prev : UInt8) (edges : List UInt8) (count : Nat) :
    Prop where
  prev : sweep.prevPattern = prev
  first : sweep.firstEdge = edges.head?
  num : sweep.numEdges.toNat = min count 255

/-- The calibrator is at a stage, and its log has the entries of the edges. -/
def AtStage (calibrator : HallCalibrator K) (log : Log K) : Stage K → Prop
  | .settling waitedS =>
      calibrator.state = .initialSettle waitedS ∧ log.recorded = [] ∧ log.confirmed = []
  | .forward prev edges => ∃ sweep,
      calibrator.state = .sweepingForward sweep ∧ Counts sweep prev edges edges.length ∧
        log.recorded.map Prod.fst = edges.map patternIndex ∧ log.confirmed = []
  | .reverse shown prev edges => ∃ sweep,
      calibrator.state = .sweepingReverse sweep ∧
        Counts sweep prev edges (edges.length - 1) ∧
        (edges ≠ [] → edges = edges.dropLast ++ [prev]) ∧
        log.recorded.map Prod.fst = shown.map patternIndex ∧
        log.confirmed.map Prod.fst = edges.dropLast.map patternIndex
  | .complete shown shownBack =>
      (∃ theta, calibrator.state = .done theta) ∧
        log.recorded.map Prod.fst = shown.map patternIndex ∧
        log.confirmed.map Prod.fst = shownBack.map patternIndex

/-- **THE SIMULATION** relation: the calibrator is at the stage of its patterns. -/
structure Tracks (settleS dt : K) (s : Session K) (stage : Stage K) : Prop where
  settle : s.calibrator.initialSettleTimeS = settleS
  dt : s.calibrator.dt = dt
  agrees : Agrees s.log s.calibrator.hallPatternToTheta
  stage : AtStage s.calibrator s.log stage

theorem saturatingSucc_toNat {n : UInt8} {count : Nat} (h : n.toNat = min count 255) :
    (saturatingSucc n).toNat = min (count + 1) 255 := by
  rw [saturatingSucc]
  split
  · rename_i hlt
    have hlt' : n.toNat < 255 := UInt8.lt_iff_toNat_lt.mp hlt
    rw [UInt8.toNat_add]
    show (n.toNat + 1) % 256 = _
    omega
  · rename_i hge
    have hge' : ¬ n.toNat < 255 := fun hlt => hge (UInt8.lt_iff_toNat_lt.mpr hlt)
    omega

theorem five_le_iff {n : UInt8} {count : Nat} (h : n.toNat = min count 255) :
    5 ≤ n ↔ 5 ≤ count := by
  rw [UInt8.le_iff_toNat_le, h]
  show 5 ≤ min count 255 ↔ 5 ≤ count
  omega

theorem getD_head? (edges : List UInt8) (pattern : UInt8) :
    some (edges.head?.getD pattern) = (edges ++ [pattern]).head? := by
  cases edges <;> rfl

variable {settleS dt omega : K} {s : Session K} {prev pattern : UInt8}
  {edges shown shownBack : List UInt8}

/-- A step that succeeds. -/
theorem step_ok (hs : s.disagreed = false) {theta : K} {calibrator : HallCalibrator K}
    (h : s.calibrator.calibrationStep pattern omega = (.ok theta, calibrator)) :
    step omega s pattern
      = ⟨calibrator, s.log.observe s.calibrator calibrator pattern, false⟩ := by
  rw [step, hs, if_neg Bool.false_ne_true, h]

theorem settling_tracks {waitedS : K} (hs : s.disagreed = false)
    (h : Tracks settleS dt s (.settling waitedS)) :
    Tracks settleS dt (step omega s pattern)
      ((Stage.settling waitedS).next settleS dt pattern) := by
  obtain ⟨rfl, rfl, hagrees, hstate, hrecorded, hconfirmed⟩ := h
  have hlog : ∀ after, s.log.observe s.calibrator after pattern = s.log := by
    intro after
    rw [Log.observe, hstate]
  rw [Stage.next]
  by_cases hdone : waitedS + s.calibrator.dt ≥ s.calibrator.initialSettleTimeS
  · have hrun : s.calibrator.calibrationStep pattern omega
        = (.ok 0, { s.calibrator with state := .sweepingForward (.start 0 pattern) }) := by
      rw [calibrationStep, hstate]
      exact if_pos hdone
    rw [step_ok hs hrun, hlog, if_pos hdone]
    exact ⟨rfl, rfl, hagrees, _, rfl, ⟨rfl, rfl, rfl⟩, by rw [hrecorded]; rfl,
      hconfirmed⟩
  · have hrun : s.calibrator.calibrationStep pattern omega
        = (.ok 0, { s.calibrator with state := .initialSettle (waitedS + s.calibrator.dt) }) := by
      rw [calibrationStep, hstate]
      exact if_neg hdone
    rw [step_ok hs hrun, hlog, if_neg hdone]
    exact ⟨rfl, rfl, hagrees, rfl, hrecorded, hconfirmed⟩

theorem forward_still_tracks (hs : s.disagreed = false)
    (h : Tracks settleS dt s (.forward pattern edges)) :
    Tracks settleS dt (step omega s pattern) (.forward pattern edges) := by
  obtain ⟨hsettle, hdt, hagrees, sweep, hstate, hcounts, hrecorded, hconfirmed⟩ := h
  have hstill : ¬ sweep.prevPattern ≠ pattern := not_not.mpr hcounts.prev
  have hstep : s.calibrator.calibrationStep pattern omega
      = s.calibrator.forwardStep sweep pattern omega := by
    rw [calibrationStep, hstate]
  have hlog : ∀ sweep' : Sweep K, s.log.observe s.calibrator
      { s.calibrator with state := .sweepingForward sweep' } pattern = s.log := by
    intro sweep'
    simp only [Log.observe, hstate, if_neg hstill]
  rw [forwardStep, if_neg hstill] at hstep
  rw [step_ok hs hstep, hlog]
  exact ⟨hsettle, hdt, hagrees, _, rfl, ⟨rfl, hcounts.first, hcounts.num⟩, hrecorded,
    hconfirmed⟩

/-- The arrival that closes the turn is not recorded: the sweep turns there. -/
theorem forward_closing_tracks (hs : s.disagreed = false) (hedge : prev ≠ pattern)
    (hend : Closes edges pattern) (h : Tracks settleS dt s (.forward prev edges)) :
    Tracks settleS dt (step omega s pattern) (.reverse edges pattern []) := by
  obtain ⟨hsettle, hdt, hagrees, sweep, hstate, hcounts, hrecorded, hconfirmed⟩ := h
  have hedge' : sweep.prevPattern ≠ pattern := by
    rw [hcounts.prev]
    exact hedge
  have hcloses : sweep.firstEdge = some pattern ∧ 5 ≤ sweep.numEdges := by
    rw [hcounts.first, five_le_iff hcounts.num]
    exact hend
  have hstep : s.calibrator.calibrationStep pattern omega
      = s.calibrator.forwardStep sweep pattern omega := by
    rw [calibrationStep, hstate]
  have hlog : ∀ sweep' : Sweep K, s.log.observe s.calibrator
      { s.calibrator with state := .sweepingReverse sweep' } pattern = s.log := by
    intro sweep'
    rw [Log.observe, hstate]
  rw [forwardStep, if_pos hedge', if_pos hcloses] at hstep
  rw [step_ok hs hstep, hlog]
  refine ⟨hsettle, hdt, hagrees, _, rfl, ⟨rfl, rfl, rfl⟩, ?_, hrecorded, ?_⟩
  · exact fun hne => absurd rfl hne
  · show s.log.confirmed.map Prod.fst = []
    rw [hconfirmed]
    rfl

theorem forward_arrival_tracks (hs : s.disagreed = false) (hedge : prev ≠ pattern)
    (hopen : ¬ Closes edges pattern) (h : Tracks settleS dt s (.forward prev edges)) :
    Tracks settleS dt (step omega s pattern) (.forward pattern (edges ++ [pattern])) := by
  obtain ⟨hsettle, hdt, hagrees, sweep, hstate, hcounts, hrecorded, hconfirmed⟩ := h
  have hedge' : sweep.prevPattern ≠ pattern := by
    rw [hcounts.prev]
    exact hedge
  have hcloses : ¬ (sweep.firstEdge = some pattern ∧ 5 ≤ sweep.numEdges) := by
    rw [hcounts.first, five_le_iff hcounts.num]
    exact hopen
  have hstep : s.calibrator.calibrationStep pattern omega
      = s.calibrator.forwardStep sweep pattern omega := by
    rw [calibrationStep, hstate]
  -- the arrival is noted at the angle of the sweep before this step
  have hlog : ∀ (sweep' : Sweep K) (table : HallCalibration K),
      s.log.observe s.calibrator
        { s.calibrator with
          state := .sweepingForward sweep', hallPatternToTheta := table } pattern
      = { s.log with
          recorded := s.log.recorded ++ [(patternIndex pattern, sweep.targetTheta)] } := by
    intro sweep' table
    simp only [Log.observe, hstate, if_pos hedge']
  rw [forwardStep, if_pos hedge', if_neg hcloses] at hstep
  rw [step_ok hs hstep, hlog]
  refine ⟨hsettle, hdt, hagrees.record hconfirmed _ _, _, rfl, ⟨rfl, ?_, ?_⟩, ?_, hconfirmed⟩
  · show some (sweep.firstEdge.getD pattern) = _
    rw [hcounts.first]
    exact getD_head? edges pattern
  · rw [List.length_append]
    exact saturatingSucc_toNat hcounts.num
  · show (s.log.recorded ++ [_]).map Prod.fst = (edges ++ [pattern]).map patternIndex
    rw [List.map_append, List.map_append, hrecorded]
    rfl

/-- **FORWARD**: an arrival is recorded, or ends the sweep. -/
theorem forward_tracks (hs : s.disagreed = false)
    (h : Tracks settleS dt s (.forward prev edges)) :
    Tracks settleS dt (step omega s pattern)
      ((Stage.forward prev edges).next settleS dt pattern) := by
  rw [Stage.next]
  by_cases hedge : prev ≠ pattern
  · rw [if_pos hedge]
    by_cases hend : Closes edges pattern
    · rw [if_pos hend]
      exact forward_closing_tracks hs hedge hend h
    · rw [if_neg hend]
      exact forward_arrival_tracks hs hedge hend h
  · obtain rfl := not_not.mp hedge
    rw [if_neg hedge]
    exact forward_still_tracks hs h

/-- A step that is a disagreement. -/
theorem step_error (hs : s.disagreed = false) {fault : HallCalibrationFault}
    {calibrator : HallCalibrator K}
    (h : s.calibrator.calibrationStep pattern omega = (.error fault, calibrator)) :
    (step omega s pattern).disagreed = true := by
  rw [step, hs, if_neg Bool.false_ne_true, h]

omit [Field K] [LinearOrder K] [FloorRing K] in
/-- On the way back the log notes a departure once an edge has been seen. -/
theorem observe_reverse {sweep : Sweep K} (hstate : s.calibrator.state = .sweepingReverse sweep)
    (after : HallCalibrator K) :
    s.log.observe s.calibrator after pattern
      = if sweep.prevPattern ≠ pattern ∧ sweep.firstEdge.isSome then
          { s.log with
            confirmed := s.log.confirmed
              ++ [(patternIndex sweep.prevPattern, sweep.targetTheta)] }
        else s.log := by
  rw [Log.observe, hstate]

theorem reverse_still_tracks (hs : s.disagreed = false)
    (h : Tracks settleS dt s (.reverse shown pattern edges)) :
    Tracks settleS dt (step omega s pattern) (.reverse shown pattern edges) := by
  obtain ⟨hsettle, hdt, hagrees, sweep, hstate, hcounts, hlast, hrecorded, hconfirmed⟩ := h
  have hstill : ¬ sweep.prevPattern ≠ pattern := not_not.mpr hcounts.prev
  have hstep : s.calibrator.calibrationStep pattern omega
      = s.calibrator.reverseStep sweep pattern omega := by
    rw [calibrationStep, hstate]
  rw [reverseStep, if_neg hstill] at hstep
  rw [step_ok hs hstep, observe_reverse hstate, if_neg (fun hboth => hstill hboth.1)]
  exact ⟨hsettle, hdt, hagrees, _, rfl, ⟨rfl, hcounts.first, hcounts.num⟩, hlast, hrecorded,
    hconfirmed⟩

/-- The first departure is from where the sweep turned, and confirms nothing. -/
theorem reverse_first_tracks (hs : s.disagreed = false) (hedge : prev ≠ pattern)
    (h : Tracks settleS dt s (.reverse shown prev [])) :
    Tracks settleS dt (step omega s pattern) (.reverse shown pattern [pattern]) := by
  obtain ⟨hsettle, hdt, hagrees, sweep, hstate, hcounts, -, hrecorded, hconfirmed⟩ := h
  have hedge' : sweep.prevPattern ≠ pattern := by
    rw [hcounts.prev]
    exact hedge
  have hfirst : sweep.firstEdge = none := hcounts.first
  have hunseen : ¬ (sweep.prevPattern ≠ pattern ∧ sweep.firstEdge.isSome) := by
    rw [hfirst]
    exact fun hboth => by cases hboth.2
  have hstep : s.calibrator.calibrationStep pattern omega
      = s.calibrator.reverseStep sweep pattern omega := by
    rw [calibrationStep, hstate]
  rw [reverseStep, if_pos hedge'] at hstep
  simp only [hfirst] at hstep
  rw [step_ok hs hstep, observe_reverse hstate, if_neg hunseen]
  exact ⟨hsettle, hdt, hagrees, _, rfl, ⟨rfl, rfl, hcounts.num⟩, fun _ => rfl, hrecorded,
    hconfirmed⟩

/-- A later departure agrees with what was recorded, or is the last step. -/
theorem reverse_departure_tracks (hs : s.disagreed = false) (hedge : prev ≠ pattern)
    (hedges : edges ≠ []) (h : Tracks settleS dt s (.reverse shown prev edges))
    (hok : (step omega s pattern).disagreed = false) :
    Tracks settleS dt (step omega s pattern)
      (if Closes edges pattern then .complete shown edges
        else .reverse shown pattern (edges ++ [pattern])) := by
  obtain ⟨hsettle, hdt, hagrees, sweep, hstate, hcounts, hlast, hrecorded, hconfirmed⟩ := h
  have hedge' : sweep.prevPattern ≠ pattern := by
    rw [hcounts.prev]
    exact hedge
  obtain ⟨first, rest, rfl⟩ := List.exists_cons_of_ne_nil hedges
  have hfirst : sweep.firstEdge = some first := hcounts.first
  have hseen : sweep.prevPattern ≠ pattern ∧ sweep.firstEdge.isSome := by
    rw [hfirst]
    exact ⟨hedge', rfl⟩
  have hnum : (saturatingSucc sweep.numEdges).toNat = min (first :: rest).length 255 :=
    saturatingSucc_toNat hcounts.num
  have hcloses : first = pattern ∧ 5 ≤ saturatingSucc sweep.numEdges ↔
      Closes (first :: rest) pattern := by
    rw [Closes, five_le_iff hnum, List.head?_cons, Option.some.injEq]
  -- the entry that is confirmed is that of the pattern just left
  have hdeparted : (s.log.confirmed
      ++ [(patternIndex sweep.prevPattern, sweep.targetTheta)]).map Prod.fst
      = (first :: rest).map patternIndex := by
    have hfst : s.log.confirmed.map Prod.fst ++ [patternIndex sweep.prevPattern]
        = (first :: rest).map patternIndex := by
      conv_rhs => rw [hlast hedges, List.map_append]
      rw [hconfirmed, hcounts.prev]
      rfl
    exact List.map_append.trans hfst
  have hstep : s.calibrator.calibrationStep pattern omega
      = s.calibrator.reverseStep sweep pattern omega := by
    rw [calibrationStep, hstate]
  rw [reverseStep, if_pos hedge'] at hstep
  simp only [hfirst] at hstep
  -- a disagreement ends the session, so only the other branch goes on
  by_cases hfar : |wrappedDiff sweep.targetTheta
      s.calibrator.hallPatternToTheta[patternIndex sweep.prevPattern]| > pi / 6.0
  · rw [if_pos hfar] at hstep
    rw [step_error hs hstep] at hok
    cases hok
  · have hconfirm := hagrees.confirm (patternIndex sweep.prevPattern) (not_lt.mp hfar)
    rw [if_neg hfar] at hstep
    by_cases hend : Closes (first :: rest) pattern
    · rw [if_pos (hcloses.mpr hend)] at hstep
      rw [if_pos hend, step_ok hs hstep, observe_reverse hstate, if_pos hseen]
      exact ⟨hsettle, hdt, hconfirm, ⟨_, rfl⟩, hrecorded, hdeparted⟩
    · rw [if_neg (mt hcloses.mp hend)] at hstep
      rw [if_neg hend, step_ok hs hstep, observe_reverse hstate, if_pos hseen]
      refine ⟨hsettle, hdt, hconfirm, _, rfl, ⟨rfl, rfl, ?_⟩, ?_, hrecorded, ?_⟩
      · rw [List.length_append, List.length_singleton, Nat.add_sub_cancel]
        exact hnum
      · intro _
        rw [List.dropLast_concat]
      · rw [List.dropLast_concat]
        exact hdeparted

/-- **BACK**: a departure is confirmed, or disagrees, and may end the sweep. -/
theorem reverse_tracks (hs : s.disagreed = false)
    (h : Tracks settleS dt s (.reverse shown prev edges))
    (hok : (step omega s pattern).disagreed = false) :
    Tracks settleS dt (step omega s pattern)
      ((Stage.reverse shown prev edges).next settleS dt pattern) := by
  rw [Stage.next]
  by_cases hedge : prev ≠ pattern
  · rw [if_pos hedge]
    cases edges with
    | nil =>
        rw [if_neg (fun hend => nomatch hend.1)]
        exact reverse_first_tracks hs hedge h
    | cons first rest =>
        exact reverse_departure_tracks hs hedge (List.cons_ne_nil first rest) h hok
  · obtain rfl := not_not.mp hedge
    rw [if_neg hedge]
    exact reverse_still_tracks hs h

theorem complete_tracks (hs : s.disagreed = false)
    (h : Tracks settleS dt s (.complete shown shownBack)) :
    Tracks settleS dt (step omega s pattern)
      ((Stage.complete shown shownBack).next settleS dt pattern) := by
  obtain ⟨hsettle, hdt, hagrees, ⟨theta, hstate⟩, hrecorded, hconfirmed⟩ := h
  have hstep : s.calibrator.calibrationStep pattern omega = (.ok theta, s.calibrator) := by
    rw [calibrationStep, hstate]
  have hlog : s.log.observe s.calibrator s.calibrator pattern = s.log := by
    rw [Log.observe, hstate]
  rw [step_ok hs hstep, hlog]
  exact ⟨hsettle, hdt, hagrees, ⟨theta, hstate⟩, hrecorded, hconfirmed⟩

/-- A disagreement is the last step. -/
theorem step_disagreed (hs : s.disagreed = true) : step omega s pattern = s := by
  rw [step, if_pos hs]

/-- **STEP LEMMA**: unless it disagrees, the calibrator follows the stage. -/
theorem step_tracks {stage : Stage K} (h : s.disagreed = false → Tracks settleS dt s stage)
    (hok : (step omega s pattern).disagreed = false) :
    Tracks settleS dt (step omega s pattern) (stage.next settleS dt pattern) := by
  cases hs : s.disagreed with
  | true =>
      rw [step_disagreed hs, hs] at hok
      cases hok
  | false =>
      have htracks := h hs
      cases stage with
      | settling waitedS => exact settling_tracks hs htracks
      | forward prev edges => exact forward_tracks hs htracks
      | reverse shown prev edges => exact reverse_tracks hs htracks hok
      | complete shown shownBack => exact complete_tracks hs htracks

/-- **RUN LEMMA**: so it does over every stream of patterns. -/
theorem run_tracks (patterns : List UInt8) :
    ∀ (s : Session K) (stage : Stage K),
      (s.disagreed = false → Tracks settleS dt s stage) →
      (run (step omega) s patterns).disagreed = false →
      Tracks settleS dt (run (step omega) s patterns)
        (run (Stage.next settleS dt) stage patterns) := by
  induction patterns with
  | nil => exact fun _ _ h hok => h hok
  | cons pattern patterns ih =>
      exact fun s stage h hok =>
        ih (step omega s pattern) (stage.next settleS dt pattern) (step_tracks h) hok

theorem start_tracks (calibrator : HallCalibrator K) :
    Tracks calibrator.initialSettleTimeS calibrator.dt (.start calibrator)
      (.settling 0) := by
  refine ⟨rfl, rfl, ⟨?_, ?_⟩, rfl, rfl, rfl⟩
  · intro i
    exact Vector.getElem_replicate i.isLt
  · rintro i departed later ⟨⟩

/-! ## Whole tables -/

/-- A log that tells a table makes it whole when every entry was recorded and
    confirmed. -/
theorem whole_iff_mem (h : Agrees log table) :
    Whole log table ↔
      ∀ i, i ∈ log.recorded.map Prod.fst ∧ i ∈ log.confirmed.map Prod.fst := by
  constructor
  · intro hwhole i
    obtain ⟨recorded, departed, later, hrecorded, hconfirmed, -⟩ := hwhole i
    rw [← anglesOf_ne_nil_iff, ← anglesOf_ne_nil_iff, hconfirmed]
    refine ⟨fun hnil => ?_, List.cons_ne_nil _ _⟩
    rw [hnil] at hrecorded
    cases hrecorded
  · intro hmem i
    obtain ⟨hrecorded, hconfirmed⟩ := hmem i
    rw [← anglesOf_ne_nil_iff] at hrecorded hconfirmed
    obtain ⟨departed, later, hdepartures⟩ := List.exists_cons_of_ne_nil hconfirmed
    have hlast := List.getLast?_eq_getLast_of_ne_nil hrecorded
    have hheld : heldBefore log i = (anglesOf log.recorded i).getLast hrecorded := by
      rw [heldBefore, hlast, Option.getD_some]
    have hnear := h.near i departed later hdepartures
    have htable := h.table i
    rw [hheld] at hnear htable
    rw [hdepartures, List.foldl_cons] at htable
    exact ⟨_, departed, later, hlast, hdepartures, hnear, htable⟩

/-- **WHOLE TABLES**: a calibration that ends without a disagreement has recorded and
    confirmed all six entries, and delivers their means, exactly when both of its sweeps
    showed all six patterns, each before the first edge, the sixth or later, that shows
    the pattern of the sweep's first edge again. -/
theorem table_whole_iff (calibrator : HallCalibrator K) (omega : K) (patterns : List UInt8)
    (hok : (run (step omega) (.start calibrator) patterns).disagreed = false)
    (hdone : (run (step omega) (.start calibrator) patterns).calibrator
      |>.checkCalibrationDone) :
    Whole (run (step omega) (.start calibrator) patterns).log
        (run (step omega) (.start calibrator) patterns).calibrator.hallPatternToTheta ↔
      (run (Stage.next calibrator.initialSettleTimeS calibrator.dt) (.settling 0)
        patterns).Covers := by
  have hstart : (Session.start calibrator).disagreed = false →
      Tracks calibrator.initialSettleTimeS calibrator.dt (.start calibrator)
        (.settling 0) := fun _ => start_tracks calibrator
  have h := run_tracks patterns _ _ hstart hok
  obtain ⟨-, -, hagrees, hstage⟩ := h
  rw [whole_iff_mem hagrees]
  cases hend : run (Stage.next calibrator.initialSettleTimeS calibrator.dt) (.settling 0)
      patterns with
  | complete shown shownBack =>
      rw [hend] at hstage
      obtain ⟨-, hrecorded, hconfirmed⟩ := hstage
      rw [hrecorded, hconfirmed]
      exact forall_and
  | settling waitedS =>
      rw [hend] at hstage
      rw [checkCalibrationDone, hstage.1] at hdone
      cases hdone
  | forward prev edges =>
      rw [hend] at hstage
      obtain ⟨sweep, hstate, -⟩ := hstage
      rw [checkCalibrationDone, hstate] at hdone
      cases hdone
  | reverse shown prev edges =>
      rw [hend] at hstage
      obtain ⟨sweep, hstate, -⟩ := hstage
      rw [checkCalibrationDone, hstate] at hdone
      cases hdone

/-- A turn of the rotor forward and back, with a pattern a second. -/
theorem table_whole_iff_turn :
    let patterns : List UInt8 := [1, 2, 3, 4, 5, 6, 1, 2, 1, 6, 5, 4, 3, 2, 1]
    let s := run (step 1) (.start (.new (1 : ℚ) 1)) patterns
    Whole s.log s.calibrator.hallPatternToTheta := by
  refine (table_whole_iff (.new (1 : ℚ) 1) 1 _ (by decide +kernel) (by decide +kernel)).mpr ?_
  have hend : run (Stage.next (1 : ℚ) 1) (.settling 0)
      [1, 2, 3, 4, 5, 6, 1, 2, 1, 6, 5, 4, 3, 2, 1]
      = .complete [2, 3, 4, 5, 6, 1] [1, 6, 5, 4, 3, 2] := by
    decide +kernel
  show (run (Stage.next (1 : ℚ) 1) (.settling 0) _).Covers
  rw [hend]
  exact ⟨by unfold Shows; decide, by unfold Shows; decide⟩

/-- Chatter between two patterns ends both sweeps: the calibration is done, though
    nothing was recorded for the other four. -/
theorem chatter_not_whole :
    let patterns : List UInt8 := [1, 2, 1, 2, 1, 2, 1, 2, 1, 2, 1, 2, 1, 2, 1]
    let s := run (step (1 / 100)) (.start (.new (1 : ℚ) 1)) patterns
    s.disagreed = false ∧ s.calibrator.checkCalibrationDone ∧
      s.calibrator.hallPatternToTheta = #v[1 / 40, 3 / 200, 0, 0, 0, 0] ∧
      ¬ Whole s.log s.calibrator.hallPatternToTheta := by
  intro patterns s
  refine ⟨by decide +kernel, by decide +kernel, by decide +kernel, ?_⟩
  intro hwhole
  obtain ⟨recorded, departed, later, hrecorded, -⟩ := hwhole 2
  have hnone : (anglesOf s.log.recorded 2).getLast? = none := by decide +kernel
  rw [hnone] at hrecorded
  cases hrecorded

end HallSweepProofs
