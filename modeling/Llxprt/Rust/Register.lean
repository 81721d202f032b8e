import Mathlib.Data.List.Basic
import Mathlib.Tactic.Common

/-!
# Atomic registers

What a store promises that is written as a whole and may be interrupted: a
completed write replaces the value, and an interrupted one either did or did
nothing.
-/

namespace Llxprt.Rust

universe u

/-- One attempt to write a register. -/
inductive Attempt (γ : Type u) where
  | completed (value : γ)
  | interrupted (value : γ)

namespace Register

variable {γ : Type u}

/-- The values that a register may hold after the attempts. -/
inductive Allows : List (Attempt γ) → Option γ → Prop
  | initial : Allows [] none
  | completed {attempts : List (Attempt γ)} {current : Option γ} {value : γ} :
      Allows attempts current → Allows (attempts ++ [.completed value]) (some value)
  | kept {attempts : List (Attempt γ)} {current : Option γ} {value : γ} :
      Allows attempts current → Allows (attempts ++ [.interrupted value]) current
  | taken {attempts : List (Attempt γ)} {current : Option γ} {value : γ} :
      Allows attempts current → Allows (attempts ++ [.interrupted value]) (some value)

/-- Once a write was completed the register is never empty again. -/
theorem Allows.isSome {attempts : List (Attempt γ)} {current : Option γ}
    (allows : Allows attempts current) {value : γ} (written : .completed value ∈ attempts) :
    current.isSome = true := by
  induction allows with
  | initial => cases written
  | completed => rfl
  | kept _ ih =>
      rcases List.mem_append.mp written with earlier | last
      · exact ih earlier
      · rw [List.mem_singleton] at last
        cases last
  | taken => rfl

/-- A value in the register was attempted. -/
theorem Allows.attempted {attempts : List (Attempt γ)} {value : γ}
    (allows : Allows attempts (some value)) :
    .completed value ∈ attempts ∨ .interrupted value ∈ attempts := by
  generalize held : some value = current at allows
  induction allows with
  | initial => cases held
  | completed =>
      cases held
      exact .inl (List.mem_append_right _ List.mem_cons_self)
  | kept _ ih =>
      rcases ih held with completed | interrupted
      · exact .inl (List.mem_append_left _ completed)
      · exact .inr (List.mem_append_left _ interrupted)
  | taken =>
      cases held
      exact .inr (List.mem_append_right _ List.mem_cons_self)

end Register

end Llxprt.Rust
