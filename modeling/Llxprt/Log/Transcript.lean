import Llxprt.Log.Provider

/-!
# The transcript of a reservation

A live reservation renews its lease, appends the rounds that are not persisted
yet, completes tool calls, and completes or fails its branch.  The persisted
rounds must be a prefix of the rounds at hand.
-/

namespace Llxprt.Log

open Llxprt.Kernel Llxprt.Kernel.Recorded Llxprt.Rust Llxprt.Gateway

variable {τ κ : Type} [Recorded τ] [Recorded κ]

/-- The rounds behind the persisted ones. -/
def suffix (persisted supplied : List (RoundRecord κ)) :
    Except StoreError (List (RoundRecord κ)) := do
  let diverges := StoreError.invalid "persisted rounds are not a prefix of supplied rounds"
  reject (supplied.length < persisted.length) diverges
  reject (serialize persisted ≠ serialize (supplied.take persisted.length)) diverges
  pure (supplied.drop persisted.length)

def roundsEqual (left right : List (RoundRecord κ)) : Bool :=
  serialize left = serialize right

theorem suffix_eq_ok {persisted supplied rest : List (RoundRecord κ)} :
    suffix persisted supplied = .ok rest ↔ persisted ++ rest = supplied := by
  simp only [suffix, bind_eq_ok, reject_eq_ok, pure_eq_ok, Nat.not_lt, Decidable.not_not,
    exists_const]
  constructor
  · rintro ⟨_, same, rfl⟩
    have taken := serialize_injective same
    calc
      persisted ++ supplied.drop persisted.length =
          supplied.take persisted.length ++ supplied.drop persisted.length := by rw [← taken]
      _ = supplied := List.take_append_drop _ _
  · rintro rfl
    simp

section Operations

variable (checks : Checks τ κ) (state : SessionState τ κ)
  (reserved : ReservedRequest κ) (now : UInt64)

def renewLease : Except StoreError (SessionState τ κ) := do
  let branch ← liveBranch state reserved now
  appendEvent checks state (.leaseRenewed branch.branchId reserved.owner (extendLease now))

/-- The branch of the reservation, live or terminal. -/
def branchForTerminal : Except StoreError (BranchRecord τ κ) := do
  let branch ← okOr (state.branch reserved.branchId) .stale
  reject (branch.turn ≠ reserved.turn ∨ branch.attempt ≠ reserved.attempt ∨
    branch.digest ≠ promptDigest reserved.prompt) .stale
  if branch.lifecycle = .pending then liveBranch state reserved now else pure branch

/-- Append the rounds that are not persisted and renew the lease. -/
def checkpointRounds (rounds : List (RoundRecord κ)) :
    Except StoreError (SessionState τ κ) := do
  let branch ← liveBranch state reserved now
  let rest ← suffix branch.rounds rounds
  appendEvent checks state (.checkpoint branch.branchId reserved.owner rest (extendLease now))

/-- Complete the branch; the same completion may be repeated. -/
def finalize (summary : String) (rounds : List (RoundRecord κ)) :
    Except StoreError (SessionState τ κ) := do
  let branch ← branchForTerminal state reserved now
  match branch.lifecycle with
  | .completed => do
      reject (branch.owner ≠ reserved.owner) .stale
      reject (¬ (branch.summary = summary ∧ roundsEqual branch.rounds rounds = true))
        (.invalid "completed retry diverges from persisted branch")
      pure state
  | .failed => .error (.invalid "cannot complete a failed branch")
  | .pending => do
      let rest ← suffix branch.rounds rounds
      appendEvent checks state (.branchCompleted branch.branchId reserved.owner rest summary)

/-- Fail the branch; the same failure may be repeated. -/
def failBranch (error : String) (rounds : List (RoundRecord κ)) :
    Except StoreError (SessionState τ κ) := do
  let branch ← branchForTerminal state reserved now
  match branch.lifecycle with
  | .failed => do
      reject (branch.owner ≠ reserved.owner) .stale
      reject (¬ (branch.error = error ∧ roundsEqual branch.rounds rounds = true))
        (.invalid "failure retry diverges from persisted branch")
      pure state
  | .completed => .error (.invalid "cannot fail a completed branch")
  | .pending => do
      let rest ← suffix branch.rounds rounds
      appendEvent checks state (.branchFailed branch.branchId reserved.owner rest error)

/-- The newest admitted turn of the branch that has the call. -/
def turnOfCall (call : String) : Option TurnRecord :=
  state.providerTurns.reverse.find? fun record =>
    record.intent.branch = reserved.branchId && record.status = .admitted &&
      record.executions.any fun execution => execution.id = call

def completeProviderTool (call : ToolCallRecord) :
    Except StoreError (SessionState τ κ) := do
  let _ ← liveBranch state reserved now
  let record ← okOr (turnOfCall state reserved call.id)
    (.invalid "tool has no provider execution intent")
  providerCommand checks state reserved
    (.complete record.intent.identity call.id call.ok call.result) now

end Operations

end Llxprt.Log
