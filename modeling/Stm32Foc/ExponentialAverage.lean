import Mathlib.Algebra.Order.Field.Basic
import Mathlib.Tactic.Linarith
import Mathlib.Tactic.Ring

/-! # Exponential averages

    An average that forgets: each sample takes a share of it, the same for all.  Such
    an average never leaves the range of what it has seen, and it comes to any level
    that the samples keep above, at a geometric rate. -/

namespace ExponentialAverage

variable {K : Type*} [Field K]

/-- The average after one more sample; `alpha` is the share that is kept. -/
def next (alpha average sample : K) : K := alpha * average + (1 - alpha) * sample

/-- The average after a list of samples. -/
def settle (alpha average : K) (samples : List K) : K := samples.foldl (next alpha) average

@[simp] theorem settle_nil (alpha average : K) : settle alpha average [] = average := rfl

@[simp] theorem settle_cons (alpha average sample : K) (samples : List K) :
    settle alpha average (sample :: samples)
      = settle alpha (next alpha average sample) samples := rfl

@[simp] theorem settle_append (alpha average : K) (earlier later : List K) :
    settle alpha average (earlier ++ later)
      = settle alpha (settle alpha average earlier) later :=
  List.foldl_append ..

theorem next_neg (alpha average sample : K) :
    next alpha (-average) (-sample) = -next alpha average sample := by
  rw [next, next]
  ring

/-- The average of the mirrored samples is the mirrored average. -/
theorem settle_neg (alpha average : K) (samples : List K) :
    settle alpha (-average) (samples.map (-·)) = -settle alpha average samples := by
  induction samples generalizing average with
  | nil => rfl
  | cons sample samples ih =>
      show settle alpha (next alpha (-average) (-sample)) (samples.map (-·)) = _
      rw [next_neg, ih]
      rfl

/-- The average with its share, one sample after the other. -/
theorem foldl_pair (alpha average : K) (samples : List K) :
    samples.foldl (fun p sample => (p.1, next p.1 p.2 sample)) (alpha, average)
      = (alpha, settle alpha average samples) := by
  induction samples generalizing average with
  | nil => rfl
  | cons sample samples ih => exact ih (next alpha average sample)

variable [LinearOrder K] [IsStrictOrderedRing K] {alpha average sample bound : K}
  {samples : List K}

/-- **ONE SAMPLE** at or above a level shrinks the gap to it. -/
theorem sub_next_le (halpha : alpha ≤ 1) (hsample : bound ≤ sample) :
    bound - next alpha average sample ≤ alpha * (bound - average) := by
  have hshare := mul_le_mul_of_nonneg_left hsample (sub_nonneg.mpr halpha)
  rw [next]
  linarith

/-- **MANY SAMPLES** shrink it geometrically. -/
theorem sub_settle_le (h0 : 0 ≤ alpha) (h1 : alpha ≤ 1)
    (hsamples : ∀ sample ∈ samples, bound ≤ sample) :
    bound - settle alpha average samples ≤ alpha ^ samples.length * (bound - average) := by
  induction samples generalizing average with
  | nil =>
      rw [settle_nil, List.length_nil, pow_zero, one_mul]
  | cons sample samples ih =>
      obtain ⟨hsample, hrest⟩ := List.forall_mem_cons.mp hsamples
      calc bound - settle alpha (next alpha average sample) samples
          ≤ alpha ^ samples.length * (bound - next alpha average sample) := ih hrest
        _ ≤ alpha ^ samples.length * (alpha * (bound - average)) :=
            mul_le_mul_of_nonneg_left (sub_next_le h1 hsample) (pow_nonneg h0 _)
        _ = alpha ^ (samples.length + 1) * (bound - average) := by
            rw [pow_succ, mul_assoc]

/-- **RANGE**: an average of what is at or above a level is so too. -/
theorem le_settle (h0 : 0 ≤ alpha) (h1 : alpha ≤ 1) (haverage : bound ≤ average)
    (hsamples : ∀ sample ∈ samples, bound ≤ sample) :
    bound ≤ settle alpha average samples := by
  have hgap : bound - settle alpha average samples
      ≤ alpha ^ samples.length * (bound - average) := sub_settle_le h0 h1 hsamples
  have hnonpos := mul_nonpos_of_nonneg_of_nonpos (pow_nonneg h0 samples.length)
    (sub_nonpos.mpr haverage)
  exact sub_nonpos.mp (hgap.trans hnonpos)

theorem settle_le (h0 : 0 ≤ alpha) (h1 : alpha ≤ 1) (haverage : average ≤ bound)
    (hsamples : ∀ sample ∈ samples, sample ≤ bound) :
    settle alpha average samples ≤ bound := by
  rw [← neg_le_neg_iff, ← settle_neg]
  refine le_settle h0 h1 (neg_le_neg haverage) ?_
  intro sample hmem
  obtain ⟨own, hown, rfl⟩ := List.mem_map.mp hmem
  exact neg_le_neg (hsamples own hown)

/-- **CROSSING**: after `n` samples above a level, and any number of further ones, the
    average is above every level that `n` of them bring it to. -/
theorem lt_settle {low level : K} {n : Nat} (h0 : 0 ≤ alpha) (h1 : alpha ≤ 1)
    (hn : n ≤ samples.length) (haverage : low ≤ average) (hlow : low ≤ bound)
    (hsamples : ∀ sample ∈ samples, bound ≤ sample)
    (hclose : alpha ^ n * (bound - low) < bound - level) :
    level < settle alpha average samples := by
  have hgap : bound - settle alpha average samples ≤ alpha ^ n * (bound - low) :=
    calc bound - settle alpha average samples
        ≤ alpha ^ samples.length * (bound - average) := sub_settle_le h0 h1 hsamples
      _ ≤ alpha ^ samples.length * (bound - low) :=
          mul_le_mul_of_nonneg_left (sub_le_sub_left haverage bound) (pow_nonneg h0 _)
      _ ≤ alpha ^ n * (bound - low) :=
          mul_le_mul_of_nonneg_right (pow_le_pow_of_le_one h0 h1 hn) (sub_nonneg.mpr hlow)
  linarith

end ExponentialAverage
