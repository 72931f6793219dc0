import Mathlib.Data.List.Basic
import Mathlib.Data.List.Induction

/-! # Runs of equal samples

    A run is a maximal row of equal samples (`IsRun`).  A stream settles on the value of
    its last run that has reached some period, and on an initial value before there is
    one (`Settled`).  It is known one sample at a time: a sample that completes the period
    settles the stream on its value, and any other one leaves it settled as it was. -/

namespace ConstantRuns

universe u

variable {α : Type u}

/-- A maximal row of equal samples, with what came before and after it. -/
structure IsRun (samples before : List α) (length : Nat) (value : α) (after : List α) :
    Prop where
  split : samples = before ++ (List.replicate length value ++ after)
  pos : 0 < length
  left : before.getLast? ≠ some value
  right : after.head? ≠ some value

/-- The last run that has reached the period is one of the value. -/
def LastLong (period : Nat) (samples : List α) (value : α) : Prop :=
  ∃ before length after, IsRun samples before length value after ∧ period ≤ length ∧
    ∀ before' length' value' after', IsRun samples before' length' value' after' →
      period ≤ length' → after.length ≤ after'.length

/-- No run has reached the period. -/
def NoneLong (period : Nat) (samples : List α) : Prop :=
  ∀ before length value after, IsRun samples before length value after → length < period

/-- What a stream has settled on. -/
def Settled (period : Nat) (initial : α) (samples : List α) (value : α) : Prop :=
  LastLong period samples value ∨ NoneLong period samples ∧ value = initial

variable {period : Nat} {initial value other x : α} {samples before after : List α}
  {length : Nat}

/-! ## One value -/

/-- Two runs with as much after them are one. -/
theorem IsRun.value_eq {before' after' : List α} {length' : Nat}
    (h : IsRun samples before length value after)
    (h' : IsRun samples before' length' other after')
    (hafter : after.length = after'.length) : value = other := by
  have hsplit : before ++ List.replicate length value ++ after
      = before' ++ List.replicate length' other ++ after' := by
    rw [List.append_assoc, List.append_assoc, ← h.split, ← h'.split]
  have hfront := congrArg List.getLast? (List.append_inj' hsplit hafter).1
  rw [List.getLast?_append, List.getLast?_append, List.getLast?_replicate,
    List.getLast?_replicate, if_neg (Nat.ne_of_gt h.pos), if_neg (Nat.ne_of_gt h'.pos)] at hfront
  exact Option.some.inj hfront

theorem LastLong.unique (h : LastLong period samples value)
    (h' : LastLong period samples other) : value = other := by
  obtain ⟨before, length, after, hrun, hlong, hlast⟩ := h
  obtain ⟨before', length', after', hrun', hlong', hlast'⟩ := h'
  refine hrun.value_eq hrun' (Nat.le_antisymm ?_ ?_)
  · exact hlast before' length' other after' hrun' hlong'
  · exact hlast' before length value after hrun hlong

theorem LastLong.not_noneLong (h : LastLong period samples value) :
    ¬ NoneLong period samples := by
  intro hnone
  obtain ⟨before, length, after, hrun, hlong, -⟩ := h
  exact absurd (hnone before length value after hrun) (Nat.not_lt.mpr hlong)

/-- **ONE VALUE**: a stream settles on no two values. -/
theorem Settled.unique (h : Settled period initial samples value)
    (h' : Settled period initial samples other) : value = other := by
  rcases h with h | ⟨hnone, rfl⟩
  · rcases h' with h' | ⟨hnone', -⟩
    · exact h.unique h'
    · exact absurd hnone' h.not_noneLong
  · rcases h' with h' | ⟨-, rfl⟩
    · exact absurd hnone h'.not_noneLong
    · rfl

/-- Any other value than the initial one is that of a long run. -/
theorem settled_iff_of_ne (h : value ≠ initial) :
    Settled period initial samples value ↔ LastLong period samples value :=
  or_iff_left fun hnone => h hnone.2

/-! ## The trailing row -/

section Trailing

variable [DecidableEq α]

/-- How many samples, counted back from the last without a gap, have the value. -/
def trailing (value : α) (samples : List α) : Nat :=
  (samples.reverse.takeWhile (· = value)).length

/-- One more sample makes the row longer or ends it. -/
theorem trailing_snoc (value : α) (samples : List α) (x : α) :
    trailing value (samples ++ [x]) = if x = value then trailing value samples + 1 else 0 := by
  rw [trailing, List.reverse_append, List.reverse_singleton, List.singleton_append,
    List.takeWhile_cons]
  by_cases hx : x = value
  · rw [if_pos hx, if_pos (decide_eq_true hx)]
    rfl
  · rw [if_neg hx, if_neg (fun h => hx (of_decide_eq_true h))]
    rfl

/-- The row of a value is a row. -/
theorem exists_trailing (value : α) (samples : List α) :
    ∃ before, samples = before ++ List.replicate (trailing value samples) value ∧
      before.getLast? ≠ some value := by
  induction samples using List.reverseRecOn with
  | nil => exact ⟨[], rfl, Option.some_ne_none value |>.symm⟩
  | append_singleton samples x ih =>
      rw [trailing_snoc]
      by_cases hx : x = value
      · obtain ⟨before, hsplit, hlast⟩ := ih
        refine ⟨before, ?_, hlast⟩
        rw [if_pos hx, List.replicate_succ', ← List.append_assoc, ← hsplit, hx]
      · refine ⟨samples ++ [x], ?_, ?_⟩
        · rw [if_neg hx, List.replicate_zero, List.append_nil]
        · rw [List.getLast?_concat]
          exact fun h => hx (Option.some.inj h)

/-- It is the only row that ends the stream and cannot be made longer. -/
theorem trailing_append_replicate (h : before.getLast? ≠ some value) (length : Nat) :
    trailing value (before ++ List.replicate length value) = length := by
  induction length with
  | zero =>
      rw [List.replicate_zero, List.append_nil]
      cases before using List.reverseRecOn with
      | nil => rfl
      | append_singleton before x =>
          rw [List.getLast?_concat] at h
          rw [trailing_snoc, if_neg fun hx => h (congrArg some hx)]
  | succ length ih =>
      rw [List.replicate_succ', ← List.append_assoc, trailing_snoc, if_pos rfl, ih]

end Trailing

/-! ## One more sample -/

theorem isRun_nil : ¬ IsRun [] before length value after := by
  intro h
  have hlength := congrArg List.length h.split
  rw [List.length_append, List.length_append, List.length_replicate] at hlength
  exact Nat.ne_of_gt h.pos (Nat.eq_zero_of_add_eq_zero_right
    (Nat.eq_zero_of_add_eq_zero_left hlength.symm))

theorem settled_nil : Settled period initial [] value ↔ value = initial := by
  constructor
  · rintro (⟨before, length, after, hrun, -⟩ | ⟨-, h⟩)
    · exact absurd hrun isRun_nil
    · exact h
  · intro h
    refine Or.inr ⟨?_, h⟩
    intro before length value after hrun
    exact absurd hrun isRun_nil

/-- The first sample after a run is the same when there are more after it. -/
theorem head?_snoc_ne_iff : (after ++ [x]).head? ≠ some value ↔
    after.head? ≠ some value ∧ (after = [] → x ≠ value) := by
  cases after with
  | nil => simp
  | cons y after => simp

/-- The runs of a longer stream that do not end it are the ones of the stream before,
    of which its last sample must not prolong the last. -/
theorem isRun_snoc_iff : IsRun (samples ++ [x]) before length value (after ++ [x]) ↔
    IsRun samples before length value after ∧ (after = [] → x ≠ value) := by
  have hassoc : before ++ (List.replicate length value ++ (after ++ [x]))
      = before ++ (List.replicate length value ++ after) ++ [x] := by
    rw [List.append_assoc, List.append_assoc]
  constructor
  · intro h
    obtain ⟨hright, hends⟩ := head?_snoc_ne_iff.mp h.right
    have hsplit := h.split
    rw [hassoc] at hsplit
    exact ⟨⟨List.append_cancel_right hsplit, h.pos, h.left, hright⟩, hends⟩
  · rintro ⟨h, hends⟩
    refine ⟨?_, h.pos, h.left, head?_snoc_ne_iff.mpr ⟨h.right, hends⟩⟩
    rw [hassoc, ← h.split]

/-- What comes after a run of a longer stream is nothing, or ends with the last
    sample. -/
theorem IsRun.after_snoc (h : IsRun (samples ++ [x]) before length value after) :
    after = [] ∨ ∃ earlier, after = earlier ++ [x] := by
  cases after using List.reverseRecOn with
  | nil => exact Or.inl rfl
  | append_singleton earlier y =>
      have hsplit := h.split
      rw [← List.append_assoc, ← List.append_assoc] at hsplit
      obtain rfl := List.singleton_inj.mp (List.append_inj' hsplit rfl).2
      exact Or.inr ⟨earlier, rfl⟩

variable [DecidableEq α]

/-- A run that ends the stream is the trailing row of its value. -/
theorem IsRun.length_eq_trailing (h : IsRun samples before length value []) :
    length = trailing value samples := by
  rw [h.split, List.append_nil, trailing_append_replicate h.left]

/-- Short of the period, a sample makes no run long and ends or prolongs no long one. -/
theorem long_snoc_iff (hshort : trailing x (samples ++ [x]) < period)
    (hlong : period ≤ length) :
    IsRun (samples ++ [x]) before length value after ↔
      ∃ earlier, after = earlier ++ [x] ∧ IsRun samples before length value earlier := by
  constructor
  · intro h
    rcases h.after_snoc with rfl | ⟨earlier, rfl⟩
    · -- the run that the sample is in has its value, and is too short
      have hlength := h.length_eq_trailing
      by_cases hx : x = value
      · rw [hx] at hlength hshort
        omega
      · rw [trailing_snoc, if_neg hx] at hlength
        exact absurd hlength (Nat.ne_of_gt h.pos)
    · exact ⟨earlier, rfl, (isRun_snoc_iff.mp h).1⟩
  · rintro ⟨earlier, rfl, h⟩
    refine isRun_snoc_iff.mpr ⟨h, ?_⟩
    rintro rfl rfl
    have hlength := h.length_eq_trailing
    rw [trailing_snoc, if_pos rfl] at hshort
    omega

theorem noneLong_snoc_iff (hshort : trailing x (samples ++ [x]) < period) :
    NoneLong period (samples ++ [x]) ↔ NoneLong period samples := by
  constructor
  · intro h before length value after hrun
    by_contra hlong
    have hrun' := (long_snoc_iff hshort (Nat.not_lt.mp hlong)).mpr ⟨after, rfl, hrun⟩
    exact hlong (h before length value (after ++ [x]) hrun')
  · intro h before length value after hrun
    by_contra hlong
    obtain ⟨earlier, -, hrun'⟩ := (long_snoc_iff hshort (Nat.not_lt.mp hlong)).mp hrun
    exact hlong (h before length value earlier hrun')

theorem lastLong_snoc_iff (hshort : trailing x (samples ++ [x]) < period) :
    LastLong period (samples ++ [x]) value ↔ LastLong period samples value := by
  have hlength : ∀ after : List α, (after ++ [x]).length = after.length + 1 :=
    fun after => List.length_append
  constructor
  · rintro ⟨before, length, after, hrun, hlong, hlast⟩
    obtain ⟨earlier, rfl, hrun'⟩ := (long_snoc_iff hshort hlong).mp hrun
    refine ⟨before, length, earlier, hrun', hlong, ?_⟩
    intro before' length' value' after' hother hlong'
    have hother' := (long_snoc_iff hshort hlong').mpr ⟨after', rfl, hother⟩
    have hle := hlast before' length' value' (after' ++ [x]) hother' hlong'
    rw [hlength, hlength] at hle
    exact Nat.le_of_succ_le_succ hle
  · rintro ⟨before, length, after, hrun, hlong, hlast⟩
    refine ⟨before, length, after ++ [x],
      (long_snoc_iff hshort hlong).mpr ⟨after, rfl, hrun⟩, hlong, ?_⟩
    intro before' length' value' after' hother hlong'
    obtain ⟨earlier, rfl, hother'⟩ := (long_snoc_iff hshort hlong').mp hother
    rw [hlength, hlength]
    exact Nat.succ_le_succ (hlast before' length' value' earlier hother' hlong')

/-! ## What a stream settles on -/

/-- **SHORT RULE**: a sample that is short of the period leaves the stream settled as it
    was. -/
theorem settled_snoc_of_lt (hshort : trailing x (samples ++ [x]) < period) :
    Settled period initial (samples ++ [x]) value ↔ Settled period initial samples value := by
  rw [Settled, Settled, lastLong_snoc_iff hshort, noneLong_snoc_iff hshort]

/-- **LONG RULE**: a trailing row that has reached the period settles the stream on its
    value. -/
theorem settled_of_le (hperiod : 0 < period) (hlong : period ≤ trailing value samples) :
    Settled period initial samples value := by
  obtain ⟨before, hsplit, hleft⟩ := exists_trailing value samples
  refine Or.inl ⟨before, trailing value samples, [], ⟨?_, ?_, hleft, ?_⟩, hlong, ?_⟩
  · rw [List.append_nil]
    exact hsplit
  · exact Nat.lt_of_lt_of_le hperiod hlong
  · exact fun h => Option.some_ne_none value h.symm
  · exact fun _ _ _ _ _ _ => Nat.zero_le _

end ConstantRuns
