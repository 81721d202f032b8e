import Llxprt.Kernel.Validation.Gate
import Llxprt.Rust.Allowance

/-!
# How often the gate calls its consumers

One call for the refinement, one for the assertions, and one for each assertion
and page of leaves.  The caps on assertions and on the nodes of a graph bound
the product.
-/

namespace Llxprt.Kernel

open Llxprt.Rust Llxprt.Rust.Method

/-- The calls of one run of the gate. -/
def gateCallCap : Nat :=
  2 + maxAssertions * maxGraphNodes

namespace Gate

variable {σ : Type} {allowance : Allowance σ} {consumers : GateConsumers σ}
  {store : String → Option Leaf} {gate : Gate}

/-- Every call of a consumer draws one unit. -/
structure Metered (allowance : Allowance σ) (consumers : GateConsumers σ) : Prop where
  requiredFacts : ∀ baseline,
    Draws allowance 1 (fun _ => True) (consumers.requiredFacts baseline)
  assertions : ∀ artifact, Draws allowance 1 (fun _ => True) (consumers.assertions artifact)
  score : ∀ assertion leaves contradictions,
    Draws allowance 1 (fun _ => True) (consumers.score assertion leaves contradictions)

theorem length_chunks_le {α : Type} (size : Nat) (positive : 0 < size) (items : List α) :
    (chunks size positive items).length ≤ items.length := by
  induction items using chunks.induct size positive with
  | case1 =>
      rw [chunks]
      exact Nat.le_refl _
  | case2 item rest ih =>
      rw [chunks, List.length_cons, List.length_cons]
      rw [List.length_drop, List.length_cons] at ih
      omega

theorem Metered.supportPages (metered : Metered allowance consumers) (assertion : String)
    (contradictions : List BoundFact) (page : Nat) (pages : List (List String))
    (support : BTreeSet String) (refreshed : Nat) :
    Draws allowance pages.length (fun _ => True)
      (supportPages consumers store assertion contradictions page pages support refreshed) := by
  induction pages generalizing page support refreshed with
  | nil => exact draws_pure trivial
  | cons chunk pages ih =>
      have total : 0 + (0 + (1 + (0 + pages.length))) = (chunk :: pages).length := by
        rw [List.length_cons]
        omega
      rw [Gate.supportPages, ← total]
      apply draws_ofExcept.bind
      intro leaves _
      apply draws_refuse.bind
      intro _ _
      apply (metered.score assertion leaves contradictions).bind
      intro score _
      apply draws_refuse.bind
      intro _ _
      split
      · exact (draws_pure trivial).mono (Nat.zero_le _)
      · split
        · exact ih _ _ _
        · exact ih _ _ _

theorem Metered.judge (metered : Metered allowance consumers) (contradictions : List BoundFact)
    (ids : BTreeSet String) (assertions : List String) (judged : Judged) :
    Draws allowance (assertions.length * ids.size) (fun _ => True)
      (judge consumers gate store contradictions ids assertions judged) := by
  induction assertions generalizing judged with
  | nil => exact (draws_pure trivial).mono (Nat.zero_le _)
  | cons assertion assertions ih =>
      rw [Gate.judge, List.length_cons, Nat.succ_mul, Nat.add_comm]
      have paged := length_chunks_le gate.leafCap gate.positive ids.toList
      rw [Std.ExtTreeSet.length_toList] at paged
      apply ((metered.supportPages assertion contradictions 0 _ ∅ judged.refreshed).mono paged).bind
      intro pages _
      exact ih _

theorem Metered.extractAssertions (metered : Metered allowance consumers) (artifact : String) :
    Draws allowance 1 (fun assertions => assertions.size ≤ maxAssertions)
      (extractAssertions consumers artifact) := by
  rw [Gate.extractAssertions, show 1 = 1 + (0 + (0 + 0)) from rfl]
  apply (metered.assertions artifact).bind
  intro extracted _
  apply draws_refuse.bind
  intro _ _
  apply draws_refuse.bind
  intro _ few
  exact draws_pure (Nat.le_of_not_lt few)

theorem Metered.requiredUnion (metered : Metered allowance consumers)
    (required : List BoundFact) :
    Draws allowance 1 (fun _ => True) (requiredUnion consumers required) := by
  intro rest self afforded
  have kept := (metered.requiredFacts required rest self afforded).1
  refine ⟨?_, fun _ _ => trivial⟩
  rw [Gate.requiredUnion]
  generalize consumers.requiredFacts required self = answered at kept ⊢
  rcases answered with ⟨refined | error | _, last⟩
  · simp only
    split <;> exact kept
  · exact kept
  · exact kept

variable [Wire]

/-- One run of the gate makes at most as many calls as the caps allow. -/
theorem Metered.validate (metered : Metered allowance consumers) (candidate : Candidate)
    (required alwaysChecked : List BoundFact) :
    Draws allowance gateCallCap (fun _ => True)
      (validate consumers gate candidate required alwaysChecked store) := by
  rw [Gate.validate, gateCallCap,
    show 2 + maxAssertions * maxGraphNodes =
      0 + (0 + (0 + (1 + (1 + maxAssertions * maxGraphNodes)))) by rw [← Nat.add_assoc]; omega]
  apply draws_read.bind
  intro self _
  apply draws_refuse.bind
  intro _ _
  apply draws_ofExcept.bind
  intro _ _
  cases searched : Provenance.roots candidate with
  | error reason => exact (draws_pure trivial).mono (Nat.zero_le _)
  | ok ids =>
      simp only
      split
      · exact (draws_pure trivial).mono (Nat.zero_le _)
      · apply (metered.requiredUnion required).bind
        rintro ⟨facts, unavailable⟩ _
        simp only
        split
        · exact (draws_pure trivial).mono (Nat.zero_le _)
        · apply (metered.extractAssertions candidate.artifact).bind
          intro assertions few
          rw [← Nat.add_zero (maxAssertions * maxGraphNodes)]
          have judged := @Metered.judge _ _ _ store gate metered
            ((facts.toList.filter fun fact => fact.scope = candidate.scope) ++ alwaysChecked)
            ids assertions.toList ⟨∅, [], 0⟩
          have within : assertions.toList.length * ids.size ≤ maxAssertions * maxGraphNodes := by
            rw [Std.ExtTreeSet.length_toList]
            exact Nat.mul_le_mul few (Provenance.size_of_roots searched)
          apply (judged.mono within).bind
          intro judged _
          exact draws_pure trivial

end Gate

end Llxprt.Kernel
