import Stm32Foc.SafeStrategy
import Mathlib.Order.Basic
import Mathlib.Order.Lattice

/-! # The priority of the reactions

    Four reactions in a line: RampDown < STO < ASC < STOf.  On a strategy whose
    debounce has not committed (`Settled`; a tick replaces one that has)
    `fault_evolve` is the maximum of this order, though it compares the strategies
    pair by pair. -/

namespace Reactions

open Debounce FieldOriented Faults SafeStrategy

/-- What a strategy does, without its timing. -/
inductive Reaction where
  | rampDown
  | sto
  | asc
  | stof
  deriving DecidableEq, Repr

def Reaction.priority : Reaction → Nat
  | .rampDown => 0
  | .sto => 1
  | .asc => 2
  | .stof => 3

theorem Reaction.priority_injective : Function.Injective Reaction.priority := by
  intro a b h
  cases a <;> cases b <;> first | rfl | exact absurd h (by decide)

instance : LinearOrder Reaction :=
  LinearOrder.lift' Reaction.priority Reaction.priority_injective

variable {K : Type}

/-- The reaction of a strategy. -/
def reaction : SafeControlStrategy K → Reaction
  | .rampDown _ => .rampDown
  | .stof => .stof
  | .sto _ => .sto
  | .asc _ => .asc

/-- How long a ramp down has been waiting. -/
def waited : SafeControlStrategy K → Option K
  | .rampDown waitedMs => some waitedMs
  | _ => none

/-- The debounce of the strategy has not committed. -/
def Settled : SafeControlStrategy K → Prop
  | .sto shouldSwitch => shouldSwitch.state = false
  | .asc shouldSwitch => shouldSwitch.state = false
  | _ => True

theorem waited_eq_none {strategy : SafeControlStrategy K}
    (h : reaction strategy ≠ .rampDown) : waited strategy = none := by
  cases strategy with
  | rampDown waitedMs => exact absurd rfl h
  | _ => rfl

/-! ## Faults -/

/-- A reaction that does not ramp down ends a ramp down. -/
theorem faultEvolve_ne_rampDown (strategy : SafeControlStrategy K)
    {new : SafeControlStrategy K} (h : reaction new ≠ .rampDown) :
    reaction (strategy.faultEvolve new) ≠ .rampDown := by
  cases new with
  | rampDown waitedMs => exact absurd rfl h
  | stof => exact fun he => nomatch he
  | sto shouldSwitch =>
      cases strategy with
      | asc switching =>
          dsimp only [SafeControlStrategy.faultEvolve]
          split <;> exact fun he => nomatch he
      | _ => exact fun he => nomatch he
  | asc shouldSwitch => cases strategy <;> exact fun he => nomatch he

/-- **THE JOIN**: of a settled strategy and the one a fault asks for, the reaction
    of higher priority is in force afterwards. -/
theorem reaction_faultEvolve {strategy : SafeControlStrategy K}
    (hs : Settled strategy) (new : SafeControlStrategy K) :
    reaction (strategy.faultEvolve new) = max (reaction strategy) (reaction new) := by
  cases strategy with
  | rampDown waitedMs => cases new <;> rfl
  | stof => cases new <;> rfl
  | sto shouldSwitch => cases new <;> rfl
  | asc shouldSwitch =>
      cases new with
      | rampDown _ => rfl
      | stof => rfl
      | sto _ =>
          -- the one comparison that reads the debounce
          have hstate : shouldSwitch.state = false := hs
          rw [SafeControlStrategy.faultEvolve, hstate]
          rfl
      | asc _ => rfl

theorem settled_faultEvolve {strategy new : SafeControlStrategy K}
    (hs : Settled strategy) (hn : Settled new) :
    Settled (strategy.faultEvolve new) := by
  cases strategy with
  | rampDown waitedMs => cases new <;> exact hn
  | stof => cases new <;> exact hs
  | sto shouldSwitch =>
      cases new <;> first | exact hs | exact trivial | rfl
  | asc shouldSwitch =>
      cases new with
      | rampDown _ => exact hs
      | stof => exact trivial
      | sto _ =>
          have hstate : shouldSwitch.state = false := hs
          rw [SafeControlStrategy.faultEvolve, hstate]
          exact hs
      | asc _ => rfl

variable [Field K]

/-- The reaction a cause asks for. -/
def ownReaction (K : Type) [Field K] (cause : FaultCause) : Reaction :=
  reaction (.ofFaultCause cause : SafeControlStrategy K)

theorem settled_ofFaultCause (cause : FaultCause) :
    Settled (.ofFaultCause cause : SafeControlStrategy K) := by
  cases cause <;> first | exact trivial | rfl

/-! ## Ticks -/

variable [LinearOrder K]

/-- A tick leaves a settled strategy: it replaces one whose debounce commits. -/
theorem settled_evolved (strategy : SafeControlStrategy K)
    (input : SafeControlStrategyInput K) : Settled (strategy.evolved input) := by
  cases strategy with
  | rampDown waitedMs =>
      dsimp only [SafeControlStrategy.evolved]
      split
      · split <;> rfl
      · exact trivial
  | stof => exact trivial
  | sto shouldSwitch =>
      dsimp only [SafeControlStrategy.evolved]
      split
      · rfl
      · rename_i h
        exact Bool.eq_false_iff.mpr h
  | asc shouldSwitch =>
      dsimp only [SafeControlStrategy.evolved]
      split
      · rfl
      · rename_i h
        exact Bool.eq_false_iff.mpr h

/-- A tick leaves a ramp down exactly where there was one, and it still waits. -/
theorem evolved_rampDown_iff (strategy : SafeControlStrategy K)
    (input : SafeControlStrategyInput K) :
    reaction (strategy.evolved input) = .rampDown ↔
      ∃ waitedMs, waited strategy = some waitedMs ∧
        waitedMs + input.tickDtMs < rampdownDurationMs := by
  cases strategy with
  | rampDown waitedMs =>
      dsimp only [SafeControlStrategy.evolved]
      by_cases hdone : waitedMs + input.tickDtMs ≥ rampdownDurationMs
      · rw [if_pos hdone]
        refine iff_of_false ?_ ?_
        · split <;> exact fun h => nomatch h
        · rintro ⟨w, hw, hlt⟩
          obtain rfl := Option.some.inj hw
          exact absurd hdone (not_le.mpr hlt)
      · rw [if_neg hdone]
        exact iff_of_true rfl ⟨waitedMs, rfl, not_le.mp hdone⟩
  | stof => exact iff_of_false (fun h => nomatch h) (fun ⟨_, h, _⟩ => nomatch h)
  | sto shouldSwitch =>
      refine iff_of_false ?_ (fun ⟨_, h, _⟩ => nomatch h)
      dsimp only [SafeControlStrategy.evolved]
      split <;> exact fun h => nomatch h
  | asc shouldSwitch =>
      refine iff_of_false ?_ (fun ⟨_, h, _⟩ => nomatch h)
      dsimp only [SafeControlStrategy.evolved]
      split <;> exact fun h => nomatch h

/-- **ASC IS LEFT** on a tick exactly when its exit condition holds and has held
    for the whole debounce period. -/
theorem evolved_asc_ne_iff {shouldSwitch : Debounced}
    (hs : shouldSwitch.state = false) (input : SafeControlStrategyInput K) :
    reaction ((.asc shouldSwitch : SafeControlStrategy K).evolved input) ≠ .asc ↔
      SafeControlStrategy.ascExit input = true ∧
        stoAscDebounceTicks ≤ shouldSwitch.count + 1 := by
  have hcommit : (shouldSwitch.update (SafeControlStrategy.ascExit input)
      stoAscDebounceTicks).state = true ↔
      SafeControlStrategy.ascExit input = true ∧
        stoAscDebounceTicks ≤ shouldSwitch.count + 1 := by
    have hne : (shouldSwitch.update (SafeControlStrategy.ascExit input)
        stoAscDebounceTicks).state ≠ shouldSwitch.state ↔ _ :=
      Debounced.update_state_ne_iff
    rw [hs, Bool.ne_false_iff, Bool.ne_false_iff] at hne
    exact hne
  rw [← hcommit]
  dsimp only [SafeControlStrategy.evolved]
  by_cases h : (shouldSwitch.update (SafeControlStrategy.ascExit input)
      stoAscDebounceTicks).state = true
  · rw [if_pos h]
    exact iff_of_true (fun he => nomatch he) h
  · rw [if_neg h]
    exact iff_of_false (fun hne => hne rfl) h

end Reactions
