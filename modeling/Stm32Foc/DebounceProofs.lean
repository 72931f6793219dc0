import Stm32Foc.ConstantRuns
import Stm32Foc.Debounce
import Stm32Foc.EventRun

/-! # What a debounced condition says

    The counter counts the samples that differ from the state, so it is the length of
    the trailing row of those (`Follows`).  The state is therefore what the samples have
    settled on: the value of their last run that has reached the period.  The counter in
    memory never gets past the period, and counts like a number. -/

namespace DebounceProofs

open EventRun ConstantRuns Debounce

variable {initial raw : Bool} {samples : List Bool}

/-! ## Counting -/

section Counting

variable {periodTicks : Nat} {d : Debounced}

/-- **THE INVARIANT**: the state is what the samples have settled on, and the counter
    counts the trailing row of the other value, which is short of the period. -/
structure Follows (periodTicks : Nat) (initial : Bool) (samples : List Bool)
    (d : Debounced) : Prop where
  settled : Settled periodTicks initial samples d.state
  counts : d.count = trailing (!d.state) samples
  short : d.count < periodTicks

theorem follows_new (hperiod : 0 < periodTicks) (initial : Bool) :
    Follows periodTicks initial [] (.new initial) :=
  ⟨settled_nil.mpr rfl, rfl, hperiod⟩

theorem Follows.period_pos (h : Follows periodTicks initial samples d) : 0 < periodTicks :=
  Nat.zero_lt_of_lt h.short

/-- A sample that agrees with the state ends the row of the other value. -/
theorem Follows.agree (h : Follows periodTicks initial samples d) (hraw : raw = d.state) :
    Follows periodTicks initial (samples ++ [raw]) { d with count := 0 } := by
  refine ⟨?_, ?_, h.period_pos⟩
  · by_cases hlong : periodTicks ≤ trailing raw (samples ++ [raw])
    · rw [← hraw]
      exact settled_of_le h.period_pos hlong
    · exact (settled_snoc_of_lt (Nat.not_le.mp hlong)).mpr h.settled
  · have hne : raw ≠ !d.state := by
      rw [hraw]
      exact (Bool.eq_not_self _).mp
    exact (trailing_snoc _ _ _).trans (if_neg hne) |>.symm

/-- A sample that differs from the state makes the row longer. -/
theorem Follows.row (h : Follows periodTicks initial samples d) (hraw : raw ≠ d.state) :
    trailing raw (samples ++ [raw]) = d.count + 1 := by
  rw [trailing_snoc, if_pos rfl, h.counts, Bool.eq_not_of_ne hraw]

/-- ... and with the period complete, the stream settles on it. -/
theorem Follows.commit (h : Follows periodTicks initial samples d) (hraw : raw ≠ d.state)
    (hcount : d.count + 1 ≥ periodTicks) :
    Follows periodTicks initial (samples ++ [raw]) ⟨raw, 0⟩ := by
  refine ⟨?_, ?_, h.period_pos⟩
  · refine settled_of_le h.period_pos ?_
    rw [h.row hraw]
    exact hcount
  · rw [trailing_snoc, if_neg ((Bool.eq_not_self raw).mp)]

/-- ... and short of it, the stream stays as it was. -/
theorem Follows.wait (h : Follows periodTicks initial samples d) (hraw : raw ≠ d.state)
    (hcount : d.count + 1 < periodTicks) :
    Follows periodTicks initial (samples ++ [raw]) { d with count := d.count + 1 } := by
  have hrow := h.row hraw
  refine ⟨?_, ?_, hcount⟩
  · refine (settled_snoc_of_lt ?_).mpr h.settled
    rw [hrow]
    exact hcount
  · show d.count + 1 = trailing (!d.state) (samples ++ [raw])
    rw [← hrow, Bool.eq_not_of_ne hraw]

/-- **STEP LEMMA**: a sample keeps the invariant. -/
theorem Follows.update (h : Follows periodTicks initial samples d) (raw : Bool) :
    Follows periodTicks initial (samples ++ [raw]) (d.update raw periodTicks) := by
  rw [Debounced.update]
  by_cases hraw : raw = d.state
  · rw [if_pos hraw]
    exact h.agree hraw
  · rw [if_neg hraw]
    by_cases hcount : d.count + 1 ≥ periodTicks
    · rw [if_pos hcount]
      exact h.commit hraw hcount
    · rw [if_neg hcount]
      exact h.wait hraw (Nat.not_le.mp hcount)

/-- **RUN LEMMA**: so do any number of them. -/
theorem run_follows (hperiod : 0 < periodTicks) (initial : Bool) (samples : List Bool) :
    Follows periodTicks initial samples
      (run (fun d raw => d.update raw periodTicks) (Debounced.new initial) samples) := by
  induction samples using List.reverseRecOn with
  | nil => exact follows_new hperiod initial
  | append_singleton samples raw ih =>
      rw [run_snoc]
      exact ih.update raw

end Counting

/-! ## Counting in 32 bits -/

section Words

variable {periodTicks : UInt32} {d : DebouncedU32}

/-- A counter short of the period can count one more. -/
theorem toNat_succ (h : d.count < periodTicks) :
    (d.count + 1).toNat = d.count.toNat + 1 := by
  have hlt : d.count.toNat < periodTicks.toNat := UInt32.lt_iff_toNat_lt.mp h
  have hmax : periodTicks.toNat < 2 ^ 32 := periodTicks.toNat_lt
  rw [UInt32.toNat_add, UInt32.toNat_one]
  exact Nat.mod_eq_of_lt (by omega)

/-- **REFINEMENT**: an update short of the period is that of the number. -/
theorem update_value (h : d.count < periodTicks) (raw : Bool) :
    (d.update raw periodTicks).2.value = d.value.update raw periodTicks.toNat := by
  have hstate : d.value.state = d.state := rfl
  rw [DebouncedU32.update, Debounced.update, hstate]
  by_cases hraw : raw = d.state
  · rw [if_pos hraw, if_pos hraw]
    rfl
  · rw [if_neg hraw, if_neg hraw]
    have hiff : d.count + 1 ≥ periodTicks ↔ d.value.count + 1 ≥ periodTicks.toNat := by
      show periodTicks ≤ d.count + 1 ↔ _
      rw [UInt32.le_iff_toNat_le, toNat_succ h]
      rfl
    by_cases hcount : d.count + 1 ≥ periodTicks
    · rw [if_pos hcount, if_pos (hiff.mp hcount)]
      rfl
    · rw [if_neg hcount, if_neg (fun hge => hcount (hiff.mpr hge))]
      show Debounced.mk d.state (d.count + 1).toNat = _
      rw [toNat_succ h]
      rfl

/-- What a number of samples leave. -/
def feed (periodTicks : UInt32) (initial : Bool) (samples : List Bool) : DebouncedU32 :=
  run (fun d raw => (d.update raw periodTicks).2) (.new initial) samples

theorem feed_snoc (periodTicks : UInt32) (initial : Bool) (samples : List Bool) (raw : Bool) :
    feed periodTicks initial (samples ++ [raw])
      = ((feed periodTicks initial samples).update raw periodTicks).2 :=
  run_snoc _ samples raw

/-- **REFINEMENT** of runs: the counter in memory counts like the number. -/
theorem feed_value (hperiod : 1 ≤ periodTicks) (initial : Bool) (samples : List Bool) :
    (feed periodTicks initial samples).value
      = run (fun d raw => d.update raw periodTicks.toNat) (Debounced.new initial) samples := by
  have hpos : 0 < periodTicks.toNat := UInt32.le_iff_toNat_le.mp hperiod
  induction samples using List.reverseRecOn with
  | nil => rfl
  | append_singleton samples raw ih =>
      have hshort := (run_follows hpos initial samples).short
      rw [← ih] at hshort
      rw [feed_snoc, run_snoc, update_value (UInt32.lt_iff_toNat_lt.mpr hshort), ih]

theorem feed_follows (hperiod : 1 ≤ periodTicks) (initial : Bool) (samples : List Bool) :
    Follows periodTicks.toNat initial samples (feed periodTicks initial samples).value := by
  rw [feed_value hperiod]
  exact run_follows (UInt32.le_iff_toNat_le.mp hperiod) initial samples

theorem settled_feed_iff (hperiod : 1 ≤ periodTicks) (initial : Bool) (samples : List Bool)
    (value : Bool) :
    Settled periodTicks.toNat initial samples value ↔
      value = (feed periodTicks initial samples).state := by
  have hsettled := (feed_follows hperiod initial samples).settled
  constructor
  · intro h
    exact h.unique hsettled
  · rintro rfl
    exact hsettled

/-- **DEBOUNCING**: with a period of one sample at least, the state is the value of the
    last run of equal samples that has reached the period, and the initial value before
    there is one; what an update returns is the state after its sample; and the counter
    stays below the period, so that it can always count one more. -/
theorem debounced_settles (periodTicks : UInt32) (hperiod : 1 ≤ periodTicks) (initial : Bool)
    (samples : List Bool) :
    (∀ value, Settled periodTicks.toNat initial samples value ↔
        value = (feed periodTicks initial samples).state) ∧
      (∀ raw, ((feed periodTicks initial samples).update raw periodTicks).1
        = (feed periodTicks initial (samples ++ [raw])).state) ∧
      (feed periodTicks initial samples).count < periodTicks ∧
      ((feed periodTicks initial samples).count + 1).toNat
        = (feed periodTicks initial samples).count.toNat + 1 := by
  have hshort : (feed periodTicks initial samples).count < periodTicks :=
    UInt32.lt_iff_toNat_lt.mpr (feed_follows hperiod initial samples).short
  refine ⟨settled_feed_iff hperiod initial samples, ?_, hshort, toNat_succ hshort⟩
  intro raw
  rw [feed_snoc]
  rfl

/-- A bounce, a run that is short of the period and one that is not. -/
theorem debounced_settles_three :
    LastLong 3 [true, true, false, true, true, true] true ∧
      (feed 3 false [true, true, false, true, true, true]).count < 3 := by
  have h := debounced_settles 3 (by decide) false [true, true, false, true, true, true]
  exact ⟨(settled_iff_of_ne (by decide)).mp ((h.1 true).mpr (by decide)), h.2.2.1⟩

end Words

end DebounceProofs
