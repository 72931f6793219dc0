import Mathlib.Tactic.Common

/-! # Debounced conditions and leaky buckets -/

namespace Debounce

/-- A boolean condition that commits to a new value only once the raw input has
    held it for a number of consecutive samples. -/
structure Debounced where
  state : Bool
  count : Nat
  deriving DecidableEq, Repr

/-- `Debounced::new` -/
def Debounced.new (initial : Bool) : Debounced := ⟨initial, 0⟩

/-- `Debounced::update`, whose result is the state it leaves. -/
def Debounced.update (d : Debounced) (raw : Bool) (periodTicks : Nat) : Debounced :=
  if raw = d.state then { d with count := 0 }
  else if d.count + 1 ≥ periodTicks then ⟨raw, 0⟩
  else { d with count := d.count + 1 }

/-- The condition with its counter as it is in memory, of 32 bits. -/
structure DebouncedU32 where
  state : Bool
  count : UInt32
  deriving DecidableEq, Repr

namespace DebouncedU32

/-- `Debounced::new` -/
def new (initial : Bool) : DebouncedU32 := ⟨initial, 0⟩

/-- `Debounced::update`: the value it returns, and what it leaves. -/
def update (d : DebouncedU32) (raw : Bool) (periodTicks : UInt32) : Bool × DebouncedU32 :=
  let d :=
    if raw = d.state then { d with count := 0 }
    else
      let d := { d with count := d.count + 1 }
      if d.count ≥ periodTicks then { d with state := raw, count := 0 } else d
  (d.state, d)

/-- The condition with its counter as a number. -/
def value (d : DebouncedU32) : Debounced := ⟨d.state, d.count.toNat⟩

end DebouncedU32

/-- A leaky-bucket failure counter. -/
structure LeakyBucket where
  level : Nat
  fillRate : Nat
  leak : Nat
  capacity : Nat
  deriving DecidableEq, Repr

/-- `LeakyBucket::new` -/
def LeakyBucket.new (fill leak capacity : Nat) : LeakyBucket := ⟨0, fill, leak, capacity⟩

/-- `LeakyBucket::tripped` -/
def LeakyBucket.tripped (b : LeakyBucket) : Bool := b.level ≥ b.capacity

/-- `LeakyBucket::fill` -/
def LeakyBucket.fill (b : LeakyBucket) : LeakyBucket :=
  { b with level := min (b.level + b.fillRate) b.capacity }

/-- `LeakyBucket::drain` -/
def LeakyBucket.drain (b : LeakyBucket) : LeakyBucket :=
  { b with level := b.level - b.leak }

variable {d : Debounced} {raw : Bool} {periodTicks : Nat}

/-- **COMMIT**: the state changes exactly on a sample that differs from it and
    completes the period. -/
theorem Debounced.update_state_ne_iff :
    (d.update raw periodTicks).state ≠ d.state ↔
      raw ≠ d.state ∧ periodTicks ≤ d.count + 1 := by
  rw [Debounced.update]
  by_cases hraw : raw = d.state
  · rw [if_pos hraw]
    exact iff_of_false (fun h => h rfl) (fun h => h.1 hraw)
  · rw [if_neg hraw]
    by_cases hcount : d.count + 1 ≥ periodTicks
    · rw [if_pos hcount]
      exact iff_of_true hraw ⟨hraw, hcount⟩
    · rw [if_neg hcount]
      exact iff_of_false (fun h => h rfl) (fun h => hcount h.2)

end Debounce
