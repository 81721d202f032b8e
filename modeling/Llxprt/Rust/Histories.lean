import Mathlib.Data.List.Chain
import Mathlib.Data.List.Induction
import Mathlib.Tactic.Common

/-!
# Histories that grow at their end

An append-only history begins at a fixed value, and each later value follows the
last one by a step.  Such histories are exactly the chains from that value.
-/

namespace Llxprt.Rust

universe u

variable {α : Type u} {step : α → α → Prop} {first : α} {history : List α}

/-- The history begins with `first` and advances by `step`. -/
structure Grown (step : α → α → Prop) (first : α) (history : List α) : Prop where
  begins : history.head? = some first
  advances : history.IsChain step

theorem grown_singleton : Grown step first [first] :=
  ⟨rfl, .singleton first⟩

theorem grown_cons {value : α} {rest : List α} :
    Grown step first (value :: rest) ↔ value = first ∧ (first :: rest).IsChain step := by
  constructor
  · rintro ⟨begins, advances⟩
    cases begins
    exact ⟨rfl, advances⟩
  · rintro ⟨rfl, advances⟩
    exact ⟨rfl, advances⟩

/-- A step from the last value extends the history. -/
theorem Grown.concat {last update : α} (grown : Grown step first history)
    (stepped : step (history.getLastD last) update) :
    Grown step first (history ++ [update]) := by
  constructor
  · rw [List.head?_append, grown.begins]
    rfl
  · apply grown.advances.append (.singleton update)
    intro current currentLast next nextFirst
    cases nextFirst
    rw [List.getLastD_eq_getLast?, Option.mem_def.mp currentLast] at stepped
    exact stepped

/-- A longer history was grown from a shorter one by a step from its last
value. -/
theorem grown_concat {value update : α} :
    Grown step first (history ++ [value] ++ [update]) ↔
      Grown step first (history ++ [value]) ∧ step value update := by
  constructor
  · rintro ⟨begins, advances⟩
    rcases List.isChain_append.mp advances with ⟨before, _, stepped⟩
    constructor
    · constructor
      · cases history <;> exact begins
      · exact before
    · exact stepped value (by simp) update rfl
  · rintro ⟨grown, stepped⟩
    exact @Grown.concat α step first (history ++ [value]) value update grown (by simpa using stepped)

/-- What holds of the first value alone and is kept by each step of growth holds
of every history. -/
theorem Grown.induction {motive : List α → Prop} (initial : motive [first])
    (grow : ∀ history value update, Grown step first (history ++ [value]) → step value update →
      motive (history ++ [value]) → motive (history ++ [value] ++ [update])) :
    Grown step first history → motive history := by
  induction history using List.reverseRecOn with
  | nil =>
      rintro ⟨begins, _⟩
      cases begins
  | append_singleton earlier update ih =>
      intro grown
      rcases List.eq_nil_or_concat earlier with rfl | ⟨before, value, rfl⟩
      · rcases grown_cons.mp grown with ⟨rfl, _⟩
        exact initial
      · rw [List.concat_eq_append] at grown ih ⊢
        rcases grown_concat.mp grown with ⟨shorter, stepped⟩
        exact grow before value update shorter stepped (ih shorter)

end Llxprt.Rust
