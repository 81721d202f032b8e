import Llxprt.Transaction.Semantic

/-!
# Live and replayed authority

The live check accepts direct support by the source or an adoption; replay looks
at the adoption alone when there is one.  The two agree unless a directly
supported command carries an adoption of something else, or the principal that
replay looks at names no leaf.
-/

namespace Llxprt.Kernel

open Llxprt.Rust

namespace LaneAuthority

section Parts

variable (authority : LaneAuthority) (lane : UInt8) (scope : ScopeId) (record : ValidationRecord)
  (authenticatedLeaf : String → Option Leaf) (authorization : Option Authorization)

/-- The authenticated leaf of the source supports every assertion. -/
def Direct : Prop :=
  ∃ leaf, authenticatedLeaf authority.source.leaf = some leaf ∧ leaf.isIngress = true ∧
    leaf.source = authority.source ∧ leaf.source.scope = scope ∧
    minimum lane ≤ leaf.source.authority ∧ record.support.isEmpty = false ∧
    ∀ leaves ∈ values record.support, leaf.id ∈ leaves

/-- The adoption is of this candidate, for this lane and scope, by a principal
who may adopt it. -/
structure Covers (adoption : Adoption) (lane : UInt8) (scope : ScopeId) (digest : String) :
    Prop where
  sameDigest : adoption.candidateDigest = digest
  sameLane : adoption.lane = lane
  sameScope : adoption.scope = scope
  principalScope : adoption.principal.scope = scope
  origin : adoption.principal.origin = .ingress
  authority : minimum lane ≤ adoption.principal.authority

/-- An authenticated adoption covers the candidate. -/
def Adopted : Prop :=
  ∃ adoption, authority.adoption = some adoption ∧
    Covers adoption lane scope record.candidateDigest ∧
    ∃ owner, authorization = some owner ∧ owner.adoptionAuthenticated adoption = true

/-- Whom replay looks at. -/
def principal : Source :=
  match authority.adoption with
  | some adoption => adoption.principal
  | none => authority.source

/-- What the live check leaves open and replay asks for: an adoption beside direct
support covers the candidate, and the principal of the accepted authority has a
leaf. -/
structure Replayable : Prop where
  covers : authority.Direct lane scope record authenticatedLeaf →
    ∀ adoption, authority.adoption = some adoption →
      Covers adoption lane scope record.candidateDigest
  leaf : authority.Direct lane scope record authenticatedLeaf ∨
      authority.Adopted lane scope record authorization →
    authority.principal.leaf ≠ ""

end Parts

section Agreement

variable {authority : LaneAuthority} {lane : UInt8} {scope : ScopeId} {record : ValidationRecord}
  {authenticatedLeaf : String → Option Leaf} {authorization : Option Authorization} {digest : String}

theorem check_iff : authority.check lane scope record authenticatedLeaf authorization = true ↔
    authority.Direct lane scope record authenticatedLeaf ∨
      authority.Adopted lane scope record authorization := by
  simp only [check, Bool.or_eq_true, Option.any_eq_true, Bool.and_eq_true, decide_eq_true_eq,
    Bool.not_eq_true', List.all_eq_true, Std.ExtTreeSet.contains_iff_mem, Direct, Adopted]
  constructor
  · rintro (⟨leaf, found, ⟨⟨⟨⟨⟨ingress, source⟩, inScope⟩, minimum⟩, support⟩, all⟩⟩ |
      ⟨adoption, present, ⟨⟨⟨⟨⟨⟨digest, lane⟩, scope⟩, principal⟩, origin⟩, minimum⟩, owner⟩⟩)
    · exact .inl ⟨leaf, found, ingress, source, inScope, minimum, support, all⟩
    · exact .inr ⟨adoption, present, ⟨digest, lane, scope, principal, origin, minimum⟩, owner⟩
  · rintro (⟨leaf, found, ingress, source, inScope, minimum, support, all⟩ |
      ⟨adoption, present, covers, owner⟩)
    · exact .inl ⟨leaf, found, ⟨⟨⟨⟨⟨ingress, source⟩, inScope⟩, minimum⟩, support⟩, all⟩⟩
    · exact .inr ⟨adoption, present, ⟨⟨⟨⟨⟨⟨covers.sameDigest, covers.sameLane⟩, covers.sameScope⟩,
        covers.principalScope⟩, covers.origin⟩, covers.authority⟩, owner⟩⟩

theorem replayValid_of_adoption {adoption : Adoption} (present : authority.adoption = some adoption) :
    authority.replayValid lane scope digest = true ↔
      Covers adoption lane scope digest ∧ authority.principal.leaf ≠ "" := by
  simp only [replayValid, principal, present, Bool.and_eq_true, decide_eq_true_eq,
    Bool.not_eq_true', String.isEmpty_eq_false_iff]
  constructor
  · rintro ⟨⟨⟨⟨origin, minimum⟩, principal⟩, leaf⟩, ⟨lane, scope⟩, digest⟩
    exact ⟨⟨digest, lane, scope, principal, origin, minimum⟩, leaf⟩
  · rintro ⟨covers, leaf⟩
    exact ⟨⟨⟨⟨covers.origin, covers.authority⟩, covers.principalScope⟩, leaf⟩,
      ⟨covers.sameLane, covers.sameScope⟩, covers.sameDigest⟩

theorem replayValid_of_direct (alone : authority.adoption = none)
    (direct : authority.Direct lane scope record authenticatedLeaf) :
    authority.replayValid lane scope digest = true ↔ authority.principal.leaf ≠ "" := by
  rcases direct with ⟨leaf, _, ingress, source, inScope, minimum, _⟩
  simp only [Leaf.isIngress, Bool.and_eq_true, decide_eq_true_eq] at ingress
  rw [source] at ingress inScope minimum
  simp [replayValid, principal, alone, ingress.1, inScope, minimum]

/-- What the live check accepts replay accepts, exactly for the replayable
authorities. -/
theorem check_replays_iff :
    (authority.check lane scope record authenticatedLeaf authorization = true →
        authority.replayValid lane scope record.candidateDigest = true) ↔
      authority.Replayable lane scope record authenticatedLeaf authorization := by
  rw [check_iff]
  cases present : authority.adoption with
  | none =>
      have direct : authority.Direct lane scope record authenticatedLeaf ∨
          authority.Adopted lane scope record authorization →
            authority.Direct lane scope record authenticatedLeaf := by
        rintro (direct | ⟨adoption, adopted, _⟩)
        · exact direct
        · rw [present] at adopted
          cases adopted
      constructor
      · intro replays
        refine ⟨?_, fun accepted => (replayValid_of_direct present (direct accepted)).mp
          (replays accepted)⟩
        intro _ adoption adopted
        rw [present] at adopted
        cases adopted
      · intro replayable accepted
        exact (replayValid_of_direct present (direct accepted)).mpr (replayable.leaf accepted)
  | some adoption =>
      rw [replayValid_of_adoption present]
      constructor
      · intro replays
        refine ⟨?_, fun accepted => (replays accepted).2⟩
        intro direct other adopted
        rw [present] at adopted
        cases adopted
        exact (replays (.inl direct)).1
      · intro replayable accepted
        refine ⟨?_, replayable.leaf accepted⟩
        rcases accepted with direct | ⟨other, adopted, covers, _⟩
        · exact replayable.covers direct adoption present
        · rw [present] at adopted
          cases adopted
          exact covers

end Agreement

end LaneAuthority

end Llxprt.Kernel

namespace Llxprt.Transaction

open Llxprt.Rust Llxprt.Kernel

/-- The reducer takes the authority that the live gate took exactly when that is
replayable. -/
theorem authority_replays_iff (command : SemanticCommand) (record : ValidationRecord)
    (services : SemanticServices) :
    ((∀ authority, command.authority = some authority →
        authority.check command.lane command.candidate.scope record services.authenticatedLeaf
          services.authorization = true →
        authority.replayValid command.lane command.candidate.scope record.candidateDigest = true) ∧
      (checkLaneAuthority command record services = .ok () →
        replayAuthority command record = .ok ())) ↔
      ∀ authority, command.authority = some authority →
        authority.Replayable command.lane command.candidate.scope record
          services.authenticatedLeaf services.authorization := by
  simp only [LaneAuthority.check_replays_iff]
  constructor
  · exact And.left
  · intro replayable
    refine ⟨replayable, ?_⟩
    simp only [checkLaneAuthority, replayAuthority, reject_eq_ok, not_and, Decidable.not_not,
      Option.any_eq_true]
    intro checked lane
    rcases checked lane with ⟨authority, present, accepted⟩
    exact ⟨authority, present, LaneAuthority.check_replays_iff.mpr (replayable authority present)
      accepted⟩

section Stale

/-- A message of the user in the first scope. -/
def userSource : Source where
  leaf := "message"
  authority := .user
  origin := .ingress
  scope := 1

/-- A record whose one assertion the message supports. -/
def supportedRecord : ValidationRecord where
  candidateDigest := "candidate"
  verdict := .pass
  support := .ofList [("assertion", Std.ExtTreeSet.ofList ["message"] compare)]
  capPressure := false
  refreshed := 0
  requiredRefinementUnavailable := false

/-- The message as the store knows it. -/
def messageLeaf (id : String) : Option Leaf :=
  if id = "message" then some ⟨"message", userSource, "text"⟩ else none

/-- Authority of the message beside an adoption of an earlier candidate. -/
def staleAuthority : LaneAuthority where
  source := userSource
  adoption := some ⟨userSource, "earlier", 2, 1⟩

theorem stale_adoption_refused :
    ¬ ∀ (authority : LaneAuthority) (lane : UInt8) (scope : ScopeId) (record : ValidationRecord)
      (authenticatedLeaf : String → Option Leaf) (authorization : Option Authorization),
      lane = 1 ∨ lane = 2 →
      authority.check lane scope record authenticatedLeaf authorization = true →
      authority.replayValid lane scope record.candidateDigest = true := by
  intro claim
  have replayed := claim staleAuthority 2 1 supportedRecord messageLeaf none (.inr rfl)
    (by decide +kernel)
  exact absurd replayed (by decide +kernel)

end Stale

end Llxprt.Transaction
