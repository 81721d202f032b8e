import Llxprt.Rust.Runs
import Mathlib.Order.Basic

/-!
# Latches

A latch is a flag that some steps of a run set and others clear.  It is set
after a run exactly when a setting step was taken and no clearing step since.
-/

namespace Llxprt.Rust

universe u v

variable {σ : Type u} {κ : Type v} {step : σ → κ → σ} {start : σ} {calls : List κ}

/-- How each step moves the flag. -/
structure Latch (step : σ → κ → σ) (flag : σ → Bool) (sets clears : σ → κ → Prop) : Prop where
  set : ∀ state call, sets state call → flag (step state call) = true
  clear : ∀ state call, clears state call → flag (step state call) = false
  hold : ∀ state call, ¬ sets state call → ¬ clears state call →
    flag (step state call) = flag state

/-- A setting step was taken in the run, and no clearing step after it. -/
def Latched (step : σ → κ → σ) (sets clears : σ → κ → Prop) (start : σ) (calls : List κ) : Prop :=
  ∃ before call between, calls = before ++ call :: between ∧ sets (run step start before) call ∧
    ∀ middle other later, between = middle ++ other :: later →
      ¬ clears (run step start (before ++ call :: middle)) other

section Rules

variable {sets clears : σ → κ → Prop} {call : κ}

theorem not_latched_nil : ¬ Latched step sets clears start [] := by
  rintro ⟨before, call, between, split, _⟩
  cases before <;> cases split

theorem latched_of_sets (setting : sets (run step start calls) call) :
    Latched step sets clears start (calls ++ [call]) := by
  refine ⟨calls, call, [], rfl, setting, ?_⟩
  intro middle other later split
  cases middle <;> cases split

/-- One more step sets the latch, or leaves it set. -/
theorem latched_concat : Latched step sets clears start (calls ++ [call]) ↔
    sets (run step start calls) call ∨
      Latched step sets clears start calls ∧ ¬ clears (run step start calls) call := by
  constructor
  · rintro ⟨before, first, between, split, setting, kept⟩
    rcases List.eq_nil_or_concat between with rfl | ⟨middle, last, rfl⟩
    · rcases List.append_inj' split rfl with ⟨rfl, same⟩
      cases same
      exact .inl setting
    · rw [List.concat_eq_append] at split kept
      have whole : calls ++ [call] = (before ++ first :: middle) ++ [last] := by
        rw [split, List.append_assoc, List.cons_append]
      rcases List.append_inj' whole rfl with ⟨rfl, same⟩
      cases same
      right
      constructor
      · refine ⟨before, first, middle, rfl, setting, ?_⟩
        rintro earlier other later rfl
        exact kept earlier other (later ++ [call]) (by simp)
      · exact kept middle call [] rfl
  · rintro (setting | ⟨⟨before, first, between, rfl, setting, kept⟩, unclear⟩)
    · exact latched_of_sets setting
    · refine ⟨before, first, between ++ [call], by simp, setting, ?_⟩
      intro middle other later split
      rcases List.eq_nil_or_concat later with rfl | ⟨rest, last, rfl⟩
      · rcases List.append_inj' split rfl with ⟨rfl, same⟩
        cases same
        exact unclear
      · have whole : between ++ [call] = (middle ++ other :: rest) ++ [last] := by
          rw [split, List.concat_eq_append, List.append_assoc, List.cons_append]
        rcases List.append_inj' whole rfl with ⟨split, _⟩
        exact kept middle other rest split

/-- The flag of a latch says whether it is latched. -/
theorem Latch.flag_run {flag : σ → Bool} (latch : Latch step flag sets clears)
    (unset : flag start = false) :
    flag (run step start calls) = true ↔ Latched step sets clears start calls := by
  induction calls using List.reverseRecOn with
  | nil =>
      rw [run_nil, unset]
      constructor
      · intro impossible
        cases impossible
      · exact fun latched => absurd latched not_latched_nil
  | append_singleton calls call ih =>
      rw [run_concat, latched_concat, ← ih]
      by_cases setting : sets (run step start calls) call
      · simp [latch.set _ _ setting, setting]
      · by_cases clearing : clears (run step start calls) call
        · simp [latch.clear _ _ clearing, setting, clearing]
        · simp [latch.hold _ _ setting clearing, setting, clearing]

end Rules

/-- A measure that no step raises is not raised by a run. -/
theorem run_antitone {ρ : Type*} [Preorder ρ] (measure : σ → ρ)
    (lowers : ∀ state call, measure (step state call) ≤ measure state) (more : List κ) :
    measure (run step start (calls ++ more)) ≤ measure (run step start calls) := by
  rw [run_append]
  induction more using List.reverseRecOn with
  | nil => exact le_refl _
  | append_singleton more call ih =>
      rw [run_concat]
      exact (lowers _ _).trans ih

/-- A property that no step ends holds in every later state of a run. -/
theorem run_stable (holds : σ → Prop)
    (kept : ∀ state call, holds state → holds (step state call))
    (now : holds (run step start calls)) (more : List κ) :
    holds (run step start (calls ++ more)) := by
  rw [run_append]
  exact run_invariant holds now (fun _ _ _ before => kept _ _ before) more (List.prefix_refl _)

end Llxprt.Rust
