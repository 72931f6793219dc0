import Stm32Foc.EventRun
import Stm32Foc.Reactions
import Mathlib.Tactic.Linarith
import Mathlib.Tactic.NormNum

/-! # Switching between STO and ASC

    Over a run of ticks the debounce of a strategy counts the row of ticks in it
    that ask for the other one (`Counts.after_tick`), so a switch comes with the tenth
    tick of a row and no two switches are close.  No input asks for both sides
    (`ascExit_of_ascNeeded`), so a constant input switches once at most. -/

namespace StrategyProofs

open EventRun Debounce FieldOriented Faults SafeStrategy Reactions

variable {K : Type}

/-- A strategy as it is first set up. -/
def Fresh : SafeControlStrategy K → Prop
  | .sto shouldSwitch => shouldSwitch = .new false
  | .asc shouldSwitch => shouldSwitch = .new false
  | _ => True

/-- **THE INVARIANT**: the debounce has not committed and counts the row of ticks
    that ask for a switch: `needing` ticks in STO, `leaving` ticks in ASC. -/
structure Counts (strategy : SafeControlStrategy K) (needing leaving : Nat) : Prop where
  sto : ∀ shouldSwitch, strategy = .sto shouldSwitch →
    shouldSwitch = ⟨false, needing⟩ ∧ needing < stoAscDebounceTicks
  asc : ∀ shouldSwitch, strategy = .asc shouldSwitch →
    shouldSwitch = ⟨false, leaving⟩ ∧ leaving < stoAscDebounceTicks

theorem counts_sto {needing : Nat} (h : needing < stoAscDebounceTicks) (leaving : Nat) :
    Counts (.sto ⟨false, needing⟩ : SafeControlStrategy K) needing leaving := by
  refine ⟨?_, ?_⟩
  · intro shouldSwitch he
    exact ⟨(SafeControlStrategy.sto.inj he).symm, h⟩
  · intro shouldSwitch he
    cases he

theorem counts_asc {leaving : Nat} (h : leaving < stoAscDebounceTicks) (needing : Nat) :
    Counts (.asc ⟨false, leaving⟩ : SafeControlStrategy K) needing leaving := by
  refine ⟨?_, ?_⟩
  · intro shouldSwitch he
    cases he
  · intro shouldSwitch he
    exact ⟨(SafeControlStrategy.asc.inj he).symm, h⟩

theorem counts_stof (needing leaving : Nat) :
    Counts (.stof : SafeControlStrategy K) needing leaving := by
  refine ⟨?_, ?_⟩
  · intro shouldSwitch he
    cases he
  · intro shouldSwitch he
    cases he

theorem counts_rampDown (waitedMs : K) (needing leaving : Nat) :
    Counts (.rampDown waitedMs) needing leaving := by
  refine ⟨?_, ?_⟩
  · intro shouldSwitch he
    cases he
  · intro shouldSwitch he
    cases he

theorem eq_sto {strategy : SafeControlStrategy K} (h : reaction strategy = .sto) :
    ∃ shouldSwitch, strategy = .sto shouldSwitch := by
  cases strategy with
  | sto shouldSwitch => exact ⟨shouldSwitch, rfl⟩
  | _ => exact absurd h (fun h => nomatch h)

theorem eq_asc {strategy : SafeControlStrategy K} (h : reaction strategy = .asc) :
    ∃ shouldSwitch, strategy = .asc shouldSwitch := by
  cases strategy with
  | asc shouldSwitch => exact ⟨shouldSwitch, rfl⟩
  | _ => exact absurd h (fun h => nomatch h)

theorem Fresh.counts {strategy : SafeControlStrategy K} (h : Fresh strategy) :
    Counts strategy 0 0 := by
  cases strategy with
  | sto shouldSwitch =>
      obtain rfl : shouldSwitch = .new false := h
      exact counts_sto (by decide) 0
  | asc shouldSwitch =>
      obtain rfl : shouldSwitch = .new false := h
      exact counts_asc (by decide) 0
  | rampDown waitedMs => exact counts_rampDown waitedMs 0 0
  | stof => exact counts_stof 0 0

theorem Fresh.settled {strategy : SafeControlStrategy K} (h : Fresh strategy) :
    Settled strategy := by
  cases strategy with
  | sto shouldSwitch =>
      obtain rfl : shouldSwitch = .new false := h
      rfl
  | asc shouldSwitch =>
      obtain rfl : shouldSwitch = .new false := h
      rfl
  | _ => exact trivial

/-! ## Ticks -/

variable [Field K] [LinearOrder K]

/-- The strategy after a `foc_tick`. -/
def tick (strategy : SafeControlStrategy K) (input : SafeControlStrategyInput K) :
    SafeControlStrategy K := (strategy.focTick input).2

/-- A tick in STO on which ASC is needed. -/
def NeedsAsc (strategy : SafeControlStrategy K) (input : SafeControlStrategyInput K) :
    Prop := reaction strategy = .sto ∧ SafeControlStrategy.ascNeeded input = true

/-- A tick in ASC on which both exit gates hold. -/
def MayLeaveAsc (strategy : SafeControlStrategy K)
    (input : SafeControlStrategyInput K) : Prop :=
  reaction strategy = .asc ∧ SafeControlStrategy.ascExit input = true

/-- The tick switches from one reaction to the other. -/
def SwitchesTo (source target : Reaction) (strategy : SafeControlStrategy K)
    (input : SafeControlStrategyInput K) : Prop :=
  reaction strategy = source ∧ reaction (tick strategy input) = target

/-- The tick switches between STO and ASC. -/
def Switches (strategy : SafeControlStrategy K) (input : SafeControlStrategyInput K) :
    Prop := SwitchesTo .sto .asc strategy input ∨ SwitchesTo .asc .sto strategy input

instance (strategy : SafeControlStrategy K) (input : SafeControlStrategyInput K) :
    Decidable (NeedsAsc strategy input) := instDecidableAnd

instance (strategy : SafeControlStrategy K) (input : SafeControlStrategyInput K) :
    Decidable (MayLeaveAsc strategy input) := instDecidableAnd

instance (source target : Reaction) (strategy : SafeControlStrategy K)
    (input : SafeControlStrategyInput K) :
    Decidable (SwitchesTo source target strategy input) := instDecidableAnd

instance (strategy : SafeControlStrategy K) (input : SafeControlStrategyInput K) :
    Decidable (Switches strategy input) := instDecidableOr

variable {strategy : SafeControlStrategy K} {input : SafeControlStrategyInput K}

theorem needsAsc_sto (shouldSwitch : Debounced) :
    NeedsAsc (.sto shouldSwitch) input ↔ SafeControlStrategy.ascNeeded input = true :=
  and_iff_right rfl

theorem mayLeaveAsc_asc (shouldSwitch : Debounced) :
    MayLeaveAsc (.asc shouldSwitch) input ↔ SafeControlStrategy.ascExit input = true :=
  and_iff_right rfl

theorem not_needsAsc (h : reaction strategy ≠ .sto) : ¬ NeedsAsc strategy input :=
  fun hneed => h hneed.1

theorem not_mayLeaveAsc (h : reaction strategy ≠ .asc) : ¬ MayLeaveAsc strategy input :=
  fun hleave => h hleave.1

/-- A tick in STO. -/
theorem tick_sto (count : Nat) :
    tick (.sto ⟨false, count⟩) input
      = if SafeControlStrategy.ascNeeded input = true then
          if count + 1 ≥ stoAscDebounceTicks then .freshAsc else .sto ⟨false, count + 1⟩
        else .sto ⟨false, 0⟩ := by
  show SafeControlStrategy.evolved (.sto ⟨false, count⟩) input = _
  rw [SafeControlStrategy.evolved, Debounced.update]
  cases SafeControlStrategy.ascNeeded input with
  | false => rfl
  | true =>
      by_cases hten : count + 1 ≥ stoAscDebounceTicks
      · simp [hten]
      · simp [hten]

/-- A tick in ASC. -/
theorem tick_asc (count : Nat) :
    tick (.asc ⟨false, count⟩) input
      = if SafeControlStrategy.ascExit input = true then
          if count + 1 ≥ stoAscDebounceTicks then .freshSto else .asc ⟨false, count + 1⟩
        else .asc ⟨false, 0⟩ := by
  show SafeControlStrategy.evolved (.asc ⟨false, count⟩) input = _
  rw [SafeControlStrategy.evolved, Debounced.update]
  cases SafeControlStrategy.ascExit input with
  | false => rfl
  | true =>
      by_cases hten : count + 1 ≥ stoAscDebounceTicks
      · simp [hten]
      · simp [hten]

/-- A tick that ends a ramp down sets up one of the two. -/
theorem tick_rampDown (waitedMs : K) :
    Fresh (tick (.rampDown waitedMs) input) := by
  show Fresh (SafeControlStrategy.evolved (.rampDown waitedMs) input)
  dsimp only [SafeControlStrategy.evolved]
  split
  · split <;> rfl
  · exact trivial

/-- **STEP LEMMA**: a tick keeps the count of both rows. -/
theorem Counts.after_tick {needing leaving : Nat} (h : Counts strategy needing leaving) :
    Counts (tick strategy input)
      (if NeedsAsc strategy input then needing + 1 else 0)
      (if MayLeaveAsc strategy input then leaving + 1 else 0) := by
  cases strategy with
  | rampDown waitedMs =>
      have hneed : ¬ NeedsAsc (.rampDown waitedMs) input :=
        not_needsAsc (fun h => nomatch h)
      have hleave : ¬ MayLeaveAsc (.rampDown waitedMs) input :=
        not_mayLeaveAsc (fun h => nomatch h)
      rw [if_neg hneed, if_neg hleave]
      exact (tick_rampDown waitedMs).counts
  | stof =>
      exact counts_stof _ _
  | sto shouldSwitch =>
      obtain ⟨rfl, hlt⟩ := h.sto shouldSwitch rfl
      have hleave : ¬ MayLeaveAsc (.sto ⟨false, needing⟩) input :=
        not_mayLeaveAsc (fun h => nomatch h)
      rw [tick_sto, if_neg hleave]
      by_cases hneed : SafeControlStrategy.ascNeeded input = true
      · rw [if_pos hneed, if_pos ((needsAsc_sto _).mpr hneed)]
        by_cases hten : needing + 1 ≥ stoAscDebounceTicks
        -- the tenth of the row switches, and the new debounce starts at 0
        · rw [if_pos hten]
          exact counts_asc (by decide) _
        · rw [if_neg hten]
          exact counts_sto (not_le.mp hten) _
      · rw [if_neg hneed, if_neg (fun h => hneed h.2)]
        exact counts_sto (by decide) _
  | asc shouldSwitch =>
      obtain ⟨rfl, hlt⟩ := h.asc shouldSwitch rfl
      have hneed : ¬ NeedsAsc (.asc ⟨false, leaving⟩) input :=
        not_needsAsc (fun h => nomatch h)
      rw [tick_asc, if_neg hneed]
      by_cases hexit : SafeControlStrategy.ascExit input = true
      · rw [if_pos hexit, if_pos ((mayLeaveAsc_asc _).mpr hexit)]
        by_cases hten : leaving + 1 ≥ stoAscDebounceTicks
        · rw [if_pos hten]
          exact counts_sto (by decide) _
        · rw [if_neg hten]
          exact counts_asc (not_le.mp hten) _
      · rw [if_neg hexit, if_neg (fun h => hexit h.2)]
        exact counts_asc (by decide) _

/-- **RUN LEMMA**: from a fresh strategy the debounce counts the row of every run. -/
theorem counts_run {start : SafeControlStrategy K} (hstart : Fresh start)
    (inputs : List (SafeControlStrategyInput K)) :
    Counts (run tick start inputs) (streak tick NeedsAsc start inputs)
      (streak tick MayLeaveAsc start inputs) := by
  induction inputs using List.reverseRecOn with
  | nil => exact hstart.counts
  | append_singleton inputs input ih =>
      rw [run_snoc, streak_snoc, streak_snoc]
      exact ih.after_tick

/-- The way to ASC, at a tick. -/
theorem Counts.switchesTo_asc_iff {needing leaving : Nat}
    (h : Counts strategy needing leaving) :
    SwitchesTo .sto .asc strategy input ↔
      (if NeedsAsc strategy input then needing + 1 else 0) = stoAscDebounceTicks := by
  by_cases hr : reaction strategy = .sto
  · obtain ⟨shouldSwitch, rfl⟩ := eq_sto hr
    obtain ⟨rfl, hlt⟩ := h.sto shouldSwitch rfl
    rw [SwitchesTo, tick_sto]
    by_cases hneed : SafeControlStrategy.ascNeeded input = true
    · rw [if_pos hneed, if_pos ((needsAsc_sto _).mpr hneed)]
      by_cases hten : needing + 1 ≥ stoAscDebounceTicks
      · rw [if_pos hten]
        exact iff_of_true ⟨rfl, rfl⟩ (le_antisymm hlt hten)
      · rw [if_neg hten]
        exact iff_of_false (fun he => nomatch he.2) (fun he => hten (ge_of_eq he))
    · rw [if_neg hneed, if_neg (fun h => hneed h.2)]
      exact iff_of_false (fun he => nomatch he.2) (by decide)
  · rw [if_neg (not_needsAsc hr)]
    exact iff_of_false (fun he => hr he.1) (by decide)

/-- The way to STO, at a tick. -/
theorem Counts.switchesTo_sto_iff {needing leaving : Nat}
    (h : Counts strategy needing leaving) :
    SwitchesTo .asc .sto strategy input ↔
      (if MayLeaveAsc strategy input then leaving + 1 else 0)
        = stoAscDebounceTicks := by
  by_cases hr : reaction strategy = .asc
  · obtain ⟨shouldSwitch, rfl⟩ := eq_asc hr
    obtain ⟨rfl, hlt⟩ := h.asc shouldSwitch rfl
    rw [SwitchesTo, tick_asc]
    by_cases hexit : SafeControlStrategy.ascExit input = true
    · rw [if_pos hexit, if_pos ((mayLeaveAsc_asc _).mpr hexit)]
      by_cases hten : leaving + 1 ≥ stoAscDebounceTicks
      · rw [if_pos hten]
        exact iff_of_true ⟨rfl, rfl⟩ (le_antisymm hlt hten)
      · rw [if_neg hten]
        exact iff_of_false (fun he => nomatch he.2) (fun he => hten (ge_of_eq he))
    · rw [if_neg hexit, if_neg (fun h => hexit h.2)]
      exact iff_of_false (fun he => nomatch he.2) (by decide)
  · rw [if_neg (not_mayLeaveAsc hr)]
    exact iff_of_false (fun he => hr he.1) (by decide)

/-- **THE TENTH TICK**: a tick of a run switches exactly when it is the tenth of an
    unbroken row that asks for the switch. -/
theorem switchesTo_iff {start : SafeControlStrategy K} (hstart : Fresh start)
    (before : List (SafeControlStrategyInput K)) (input : SafeControlStrategyInput K) :
    (SwitchesTo .sto .asc (run tick start before) input ↔
        streak tick NeedsAsc start (before ++ [input]) = stoAscDebounceTicks) ∧
      (SwitchesTo .asc .sto (run tick start before) input ↔
        streak tick MayLeaveAsc start (before ++ [input]) = stoAscDebounceTicks) := by
  have hcounts := counts_run hstart before
  constructor
  · rw [streak_snoc]
    exact hcounts.switchesTo_asc_iff
  · rw [streak_snoc]
    exact hcounts.switchesTo_sto_iff

/-! ## The distance of two switches -/

theorem Switches.reaction_ne (h : Switches strategy input) :
    reaction (tick strategy input) ≠ reaction strategy := by
  rcases h with ⟨hsource, htarget⟩ | ⟨hsource, htarget⟩
  · rw [hsource, htarget]
    decide
  · rw [hsource, htarget]
    decide

/-- A row of ticks in one reaction has no switch in it before its last tick. -/
theorem not_switches_of_row {P : SafeControlStrategy K → SafeControlStrategyInput K → Prop}
    [∀ s e, Decidable (P s e)] {r : Reaction} (hP : ∀ s e, P s e → reaction s = r)
    {start : SafeControlStrategy K} {before between : List (SafeControlStrategyInput K)}
    {first second : SafeControlStrategyInput K}
    (hrow : between.length + 1
      < streak tick P start (before ++ first :: between ++ [second])) :
    ¬ Switches (run tick start before) first := by
  intro hswitch
  obtain ⟨next, rest, hnext⟩ : ∃ next rest, between ++ [second] = next :: rest := by
    cases between with
    | nil => exact ⟨second, [], rfl⟩
    | cons next rest => exact ⟨next, rest ++ [second], rfl⟩
  have hlength : (next :: rest).length = between.length + 1 := by
    rw [← hnext, List.length_append, List.length_singleton]
  have hall : before ++ first :: between ++ [second] = before ++ first :: next :: rest := by
    rw [List.append_assoc, List.cons_append, hnext]
  rw [hall] at hrow
  -- the row spans `first` and the tick after it, both in reaction `r`
  have hhere : reaction (run tick start before) = r :=
    hP _ _ (met_of_lt_streak (next :: rest) (hlength ▸ hrow))
  have hafter : reaction (run tick start (before ++ [first])) = r := by
    refine hP _ next (met_of_lt_streak rest ?_)
    rw [List.append_assoc, List.singleton_append]
    exact lt_trans (hlength ▸ Nat.lt_succ_self rest.length) hrow
  rw [run_snoc] at hafter
  exact hswitch.reaction_ne (hafter.trans hhere.symm)

/-- **TEN TICKS APART**: the row of a switch starts after the switch before it. -/
theorem switches_apart {start : SafeControlStrategy K} (hstart : Fresh start)
    {before between : List (SafeControlStrategyInput K)}
    {first second : SafeControlStrategyInput K}
    (hfirst : Switches (run tick start before) first)
    (hsecond : Switches (run tick start (before ++ first :: between)) second) :
    stoAscDebounceTicks ≤ between.length + 1 := by
  obtain ⟨hasc, hsto⟩ := switchesTo_iff hstart (before ++ first :: between) second
  by_contra hclose
  -- were the two closer, the row of the second would begin before the first
  rcases hsecond with h | h
  · have hrow : between.length + 1
        < streak tick NeedsAsc start (before ++ first :: between ++ [second]) :=
      lt_of_lt_of_eq (not_le.mp hclose) (hasc.mp h).symm
    exact not_switches_of_row (fun _ _ h => h.1) hrow hfirst
  · have hrow : between.length + 1
        < streak tick MayLeaveAsc start (before ++ first :: between ++ [second]) :=
      lt_of_lt_of_eq (not_le.mp hclose) (hsto.mp h).symm
    exact not_switches_of_row (fun _ _ h => h.1) hrow hfirst

/-! ## Where switching ends -/

/-- A strategy that an input keeps as it is. -/
def Steady (input : SafeControlStrategyInput K) (strategy : SafeControlStrategy K) :
    Prop :=
  Settled strategy ∧
    (reaction strategy = .sto ∧ SafeControlStrategy.ascNeeded input = false ∨
      reaction strategy = .asc ∧ SafeControlStrategy.ascExit input = false)

/-- A debounce that has not committed and is not asked to keeps its state. -/
theorem update_calm {shouldSwitch : Debounced} (h : shouldSwitch.state = false)
    (periodTicks : Nat) : (shouldSwitch.update false periodTicks).state = false := by
  rw [Debounced.update, if_pos h.symm]
  exact h

theorem Steady.after_tick (h : Steady input strategy) :
    Steady input (tick strategy input) ∧
      reaction (tick strategy input) = reaction strategy := by
  have hkeeps : reaction (tick strategy input) = reaction strategy := by
    show reaction (SafeControlStrategy.evolved strategy input) = _
    obtain ⟨hsettled, ⟨hr, hcalm⟩ | ⟨hr, hcalm⟩⟩ := h
    · obtain ⟨shouldSwitch, rfl⟩ := eq_sto hr
      simp only [SafeControlStrategy.evolved, hcalm, update_calm hsettled,
        Bool.false_eq_true, if_false]
      rfl
    · obtain ⟨shouldSwitch, rfl⟩ := eq_asc hr
      simp only [SafeControlStrategy.evolved, hcalm, update_calm hsettled,
        Bool.false_eq_true, if_false]
      rfl
  refine ⟨⟨settled_evolved strategy input, ?_⟩, hkeeps⟩
  rw [hkeeps]
  exact h.2

/-- A steady strategy does not switch any more. -/
theorem Steady.tally_eq_zero (h : Steady input strategy) (n : Nat) :
    tally tick Switches strategy (List.replicate n input) = 0 := by
  induction n generalizing strategy with
  | zero => rfl
  | succ n ih =>
      obtain ⟨hsteady, hkeeps⟩ := h.after_tick
      rw [List.replicate_succ, tally, ih hsteady,
        if_neg (fun hswitch => hswitch.reaction_ne hkeeps)]

/-! ## Ends of a run -/

theorem run_stof (inputs : List (SafeControlStrategyInput K)) :
    run tick (.stof : SafeControlStrategy K) inputs = .stof := by
  induction inputs with
  | nil => rfl
  | cons input inputs ih => exact ih

/-- No tick starts a ramp down. -/
theorem tick_ne_rampDown (h : reaction strategy ≠ .rampDown) :
    reaction (tick strategy input) ≠ .rampDown := by
  intro hramp
  obtain ⟨waitedMs, hwaited, -⟩ := (evolved_rampDown_iff strategy input).mp hramp
  rw [waited_eq_none h] at hwaited
  cases hwaited

/-- **AFTER A RAMP DOWN**: no tick modulates any more. -/
theorem run_ne_foc (h : reaction strategy ≠ .rampDown)
    (later : List (SafeControlStrategyInput K)) (command : FocInputType K) :
    ((run tick strategy later).focTick input).1 ≠ .foc command := by
  have hrun : reaction (run tick strategy later) ≠ .rampDown :=
    run_keeps (I := fun s => reaction s ≠ .rampDown) (A := fun _ => True)
      (fun _ _ _ hs => tick_ne_rampDown hs) later strategy (fun _ _ => trivial) h
  have hnext : reaction (tick (run tick strategy later) input) ≠ .rampDown :=
    tick_ne_rampDown hrun
  -- the command is that of the strategy the tick leaves
  show SafeControlStrategy.command (tick (run tick strategy later) input) ≠ _
  cases hs : tick (run tick strategy later) input with
  | rampDown waitedMs => exact absurd (congrArg reaction hs) hnext
  | _ => exact fun h => nomatch h

section Ordered

variable [IsStrictOrderedRing K]

/-- What a strategy can be told without a sign error in its bounds. -/
structure Signed (input : SafeControlStrategyInput K) : Prop where
  dcBusV : 0 ≤ input.dcBusV
  dcBusMaxV : 0 ≤ input.dcBusMaxV
  backEmfConstant : ∀ k, input.backEmfConstant = some k → 0 ≤ k

/-- **HYSTERESIS**: no input asks for ASC and lets it be left. -/
theorem ascExit_of_ascNeeded (h : Signed input)
    (hneed : SafeControlStrategy.ascNeeded input = true) :
    SafeControlStrategy.ascExit input = false := by
  have hratio : (stoDcBusRatio : K) ≤ ascDcBusRatio := by
    norm_num [stoDcBusRatio, ascDcBusRatio]
  by_contra hexit
  rw [Bool.not_eq_false, SafeControlStrategy.ascExit, Bool.and_eq_true,
    decide_eq_true_iff] at hexit
  obtain ⟨hbus, hgate⟩ := hexit
  have hmax : (stoDcBusRatio : K) * input.dcBusMaxV ≤ ascDcBusRatio * input.dcBusMaxV :=
    mul_le_mul_of_nonneg_right hratio h.dcBusMaxV
  have hbound : (stoDcBusRatio : K) * input.dcBusV ≤ ascDcBusRatio * input.dcBusV :=
    mul_le_mul_of_nonneg_right hratio h.dcBusV
  rw [SafeControlStrategy.ascNeeded, Bool.or_eq_true, decide_eq_true_iff] at hneed
  -- overvoltage is above the exit gate; else the gates differ in the back-EMF
  rcases hneed with hover | hunsafe
  · exact absurd (hover.trans (hbus.trans_le hmax)) (lt_irrefl _)
  · cases hk : input.backEmfConstant with
    | none =>
        rw [hk] at hgate
        exact absurd hgate Bool.false_ne_true
    | some k =>
        simp only [hk, Bool.and_eq_true, Bool.or_eq_true, decide_eq_true_iff] at hgate hunsafe
        obtain ⟨hvalid, hlow⟩ := hgate
        rw [hvalid] at hunsafe
        rcases hunsafe with hinvalid | hhigh
        · exact absurd hinvalid Bool.false_ne_true
        · exact absurd (hhigh.trans (hlow.trans_le hbound)) (lt_irrefl _)

/-- What a switch leaves is steady under the input that made it. -/
theorem Switches.steady (hsettled : Settled strategy) (h : Signed input)
    (hswitch : Switches strategy input) : Steady input (tick strategy input) := by
  have hne := hswitch.reaction_ne
  refine ⟨settled_evolved strategy input, ?_⟩
  rcases hswitch with ⟨hsource, htarget⟩ | ⟨hsource, htarget⟩
  · refine Or.inr ⟨htarget, ascExit_of_ascNeeded h ?_⟩
    -- an input that does not need ASC would have kept the STO
    by_contra hcalm
    have hsteady : Steady input strategy :=
      ⟨hsettled, Or.inl ⟨hsource, Bool.eq_false_iff.mpr hcalm⟩⟩
    exact hne hsteady.after_tick.2
  · refine Or.inl ⟨htarget, ?_⟩
    by_contra hneed
    have hsteady : Steady input strategy := ⟨hsettled,
      Or.inr ⟨hsource, ascExit_of_ascNeeded h (Bool.not_eq_false _ ▸ hneed)⟩⟩
    exact hne hsteady.after_tick.2

/-- **NO OSCILLATION**: under a constant input a strategy switches at most once. -/
theorem tally_le_one (hsettled : Settled strategy) (h : Signed input) (n : Nat) :
    tally tick Switches strategy (List.replicate n input) ≤ 1 := by
  induction n generalizing strategy with
  | zero => exact Nat.zero_le 1
  | succ n ih =>
      rw [List.replicate_succ, tally]
      by_cases hswitch : Switches strategy input
      · rw [if_pos hswitch, (hswitch.steady hsettled h).tally_eq_zero]
      · rw [if_neg hswitch, Nat.zero_add]
        exact ih (settled_evolved strategy input)

/-- **SAFE STRATEGY TICKS**: STO and ASC are exchanged exactly on the tenth tick in
    a row that asks for it, so never within ten ticks of each other and at most once
    under a constant input; STOf stays; and a ramp down that has ended leaves no tick
    that modulates. -/
theorem safe_strategy_ticks :
    (∀ start : SafeControlStrategy K, Fresh start → ∀ before input,
      (SwitchesTo .sto .asc (run tick start before) input ↔
          streak tick NeedsAsc start (before ++ [input]) = stoAscDebounceTicks) ∧
        (SwitchesTo .asc .sto (run tick start before) input ↔
          streak tick MayLeaveAsc start (before ++ [input]) = stoAscDebounceTicks)) ∧
    (∀ start : SafeControlStrategy K, Fresh start → ∀ before first between second,
      Switches (run tick start before) first →
      Switches (run tick start (before ++ first :: between)) second →
      10 ≤ between.length + 1) ∧
    (∀ start : SafeControlStrategy K, Fresh start → ∀ input, Signed input → ∀ n,
      tally tick Switches start (List.replicate n input) ≤ 1) ∧
    (∀ inputs, run tick (.stof : SafeControlStrategy K) inputs = .stof) ∧
    ∀ (start : SafeControlStrategy K) ended later input command,
      reaction (run tick start ended) ≠ .rampDown →
      ((run tick start (ended ++ later)).focTick input).1 ≠ .foc command := by
  refine ⟨?_, ?_, ?_, run_stof, ?_⟩
  · exact fun start hstart => switchesTo_iff hstart
  · exact fun start hstart before first between second => switches_apart hstart
  · exact fun start hstart input hinput n => tally_le_one hstart.settled hinput n
  · intro start ended later input command hended
    rw [run_append]
    exact run_ne_foc hended later command

end Ordered

/-- Nothing is known of the motor, and the bus is low. -/
def unknownMotorQ : SafeControlStrategyInput ℚ where
  omega := 0
  rotorFeedbackValid := true
  backEmfConstant := none
  dcBusV := 24
  dcBusMaxV := 48
  tickDtMs := 1 / 40

/-- The motor stands still, and the bus is low. -/
def restingMotorQ : SafeControlStrategyInput ℚ :=
  { unknownMotorQ with backEmfConstant := some 1 }

/-- The ramp down of a drive whose motor is unknown, the way to ASC after it, and
    the way back once the motor is known. -/
theorem safe_strategy_ticks_unknownMotor :
    (SwitchesTo .sto .asc (run tick (.freshSto : SafeControlStrategy ℚ)
        (List.replicate 9 unknownMotorQ)) unknownMotorQ ∧
      SwitchesTo .asc .sto (run tick (.freshSto : SafeControlStrategy ℚ)
        (List.replicate 10 unknownMotorQ ++ List.replicate 9 restingMotorQ))
        restingMotorQ) ∧
    10 ≤ (List.replicate 9 restingMotorQ).length + 1 ∧
    tally tick Switches (.freshSto : SafeControlStrategy ℚ)
      (List.replicate 1000 unknownMotorQ) ≤ 1 ∧
    ((run tick (.rampDown (999 / 100) : SafeControlStrategy ℚ)
      ([unknownMotorQ] ++ List.replicate 20 unknownMotorQ)).focTick unknownMotorQ).1
        ≠ .foc (.targetTorque 0) := by
  have hasc := ((safe_strategy_ticks (K := ℚ)).1 .freshSto rfl
    (List.replicate 9 unknownMotorQ) unknownMotorQ).1.mpr (by decide +kernel)
  have hsto := ((safe_strategy_ticks (K := ℚ)).1 .freshSto rfl
    (List.replicate 10 unknownMotorQ ++ List.replicate 9 restingMotorQ)
    restingMotorQ).2.mpr (by decide +kernel)
  refine ⟨⟨hasc, hsto⟩, ?_, ?_, ?_⟩
  · exact safe_strategy_ticks.2.1 .freshSto rfl (List.replicate 9 unknownMotorQ)
      unknownMotorQ (List.replicate 9 restingMotorQ) restingMotorQ
      (Or.inl hasc) (Or.inr hsto)
  · refine safe_strategy_ticks.2.2.1 .freshSto rfl unknownMotorQ ?_ 1000
    exact ⟨by decide +kernel, by decide +kernel, fun k hk => nomatch hk⟩
  · exact safe_strategy_ticks.2.2.2.2 (.rampDown (999 / 100)) [unknownMotorQ]
      (List.replicate 20 unknownMotorQ) unknownMotorQ _ (by decide +kernel)

end StrategyProofs
