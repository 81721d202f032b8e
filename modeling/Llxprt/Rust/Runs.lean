import Mathlib.Data.List.Infix
import Mathlib.Tactic.Common

/-!
# Runs of a step function

A run is the left fold of a total step function.  The rules below lift facts
about one step to every state that a run passes through.
-/

namespace Llxprt.Rust

universe u v

variable {σ : Type u} {κ : Type v}

/-- The state after a sequence of calls. -/
def run (step : σ → κ → σ) (start : σ) (calls : List κ) : σ :=
  calls.foldl step start

section Invariants

variable {step : σ → κ → σ} {start : σ} {calls : List κ}

@[simp]
theorem run_nil : run step start [] = start :=
  rfl

@[simp]
theorem run_concat {call : κ} :
    run step start (calls ++ [call]) = step (run step start calls) call := by
  simp [run]

theorem run_append {later : List κ} :
    run step start (calls ++ later) = run step (run step start calls) later := by
  simp [run]

/-- A property preserved by the steps of a run holds in every state passed. -/
theorem run_invariant (invariant : σ → Prop) (initial : invariant start)
    (preserved : ∀ before call, before ++ [call] <+: calls → invariant (run step start before) →
      invariant (step (run step start before) call)) :
    ∀ reached, reached <+: calls → invariant (run step start reached) := by
  intro reached
  induction reached using List.reverseRecOn with
  | nil => exact fun _ => initial
  | append_singleton before call ih =>
      intro isPrefix
      rw [run_concat]
      exact preserved before call isPrefix (ih ((List.prefix_append _ _).trans isPrefix))

theorem forall_steps_nil {admissible : σ → κ → Prop} :
    ∀ before call, before ++ [call] <+: [] → admissible (run step start before) call := by
  intro before call isPrefix
  simp at isPrefix

/-- The steps of a run are admissible when the first is and the others are from
the state it leads to. -/
theorem forall_steps_cons {admissible : σ → κ → Prop} {first : κ}
    (leads : admissible start first)
    (follow : ∀ before call, before ++ [call] <+: calls →
      admissible (run step (step start first) before) call) :
    ∀ before call, before ++ [call] <+: first :: calls →
      admissible (run step start before) call := by
  intro before call isPrefix
  cases before with
  | nil =>
      rw [List.nil_append, List.cons_prefix_cons] at isPrefix
      rw [isPrefix.1]
      exact leads
  | cons head before =>
      rw [List.cons_append, List.cons_prefix_cons] at isPrefix
      rw [isPrefix.1]
      exact follow before call isPrefix.2

/-- Exact safety of a run.  When `strong` implies `safe`, is preserved by every
admissible step, and no inadmissible step ends in a safe state, then all states
of a run are safe exactly when all its steps are admissible. -/
theorem run_safe_iff (strong safe : σ → Prop) (admissible : σ → κ → Prop)
    (initial : strong start) (implies : ∀ state, strong state → safe state)
    (preserved : ∀ state call, strong state → admissible state call → strong (step state call))
    (necessary : ∀ state call, safe (step state call) → admissible state call) :
    (∀ reached, reached <+: calls → safe (run step start reached)) ↔
      ∀ before call, before ++ [call] <+: calls → admissible (run step start before) call := by
  constructor
  · intro safety before call isPrefix
    have reached := safety _ isPrefix
    rw [run_concat] at reached
    exact necessary _ _ reached
  · intro steps reached isPrefix
    refine implies _ (run_invariant strong initial ?_ reached isPrefix)
    intro before call member holds
    exact preserved _ _ holds (steps before call member)

end Invariants

end Llxprt.Rust
