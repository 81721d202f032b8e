import Llxprt.Kernel.Runs
import Llxprt.Rust.CompareAndCommit

/-!
# Compare-and-commit versions

The version of the typed state is a compare-and-commit register: ledger events
bump it, registry and lane-policy commits overwrite it with the registry version
they carry.
-/

namespace Llxprt.Kernel.Reducer

open Llxprt.Rust CompareAndCommit

/-- What an event writes to the version register. -/
def writeOf (event : RecordedEvent) : Write :=
  match event.kind with
  | .ledger _ => .bump
  | .operationCommit .ruleUpdate subject argument
  | .operationCommit .vocabularyUpdate subject argument
  | .operationCommit .lanePolicyUpdate subject argument =>
      .commit argument.toNat subject.toNat
  | _ => .keep

/-- The parent versions that the committed updates of a log claim, in order. -/
def claimedParents (events : List RecordedEvent) : List Nat :=
  parents (events.map writeOf)

theorem move_version {event : RecordedEvent} {core next : Core}
    (move : Moves event.sequence event.kind core next) :
    Accepted core.version [writeOf event] ∧
      next.version = (writeOf event).apply core.version := by
  unfold writeOf
  generalize event.kind = kind at move
  cases move with
  | @quiet kind _ isQuiet =>
      cases kind with
      | operationCommit operationClass subject argument =>
          cases operationClass <;>
            simp [quietKind, quietOperation, Accepted, Write.apply] at isQuiet ⊢
      | append | ledger => simp [quietKind] at isQuiet
      | _ => simp [Accepted, Write.apply]
  | @unplaced operationClass _ _ _ _ isUnplace _ =>
      rcases isUnplace with rfl | rfl <;> simp [Accepted, Write.apply]
  | @versioned operationClass _ _ _ _ _ isVersioned parent _ =>
      cases operationClass <;> simp [versionedOperation] at isVersioned <;>
        simp [Accepted, Write.apply, parent]
  | _ => simp [Accepted, Write.apply]

/-- A run drives the version register through its writes. -/
theorem run_version {events : List RecordedEvent} {core final : Core}
    (run : Run events core final) :
    Accepted core.version (events.map writeOf) ∧
      final.version = after core.version (events.map writeOf) := by
  induction run with
  | nil => exact ⟨trivial, rfl⟩
  | @cons event events core middle final move _ ih =>
      rcases move_version move with ⟨accepted, moved⟩
      rw [moved] at ih
      rw [List.map_cons]
      constructor
      · cases h : writeOf event with
        | keep => simpa [h, Write.apply, Accepted] using ih.1
        | bump => simpa [h, Write.apply, Accepted] using ih.1
        | commit parent target =>
            rw [h] at accepted ih
            exact ⟨accepted.1, ih.1⟩
      · exact ih.2

section Folds

variable [Wire]

/-- Along a fold the version never decreases and no two updates claim the same
parent exactly when every update carries a version no lower than its parent and
one that keeps the version is followed by a ledger event before the next. -/
theorem versions_never_recur_iff (window : Nat) (log : EventLog) (state : TypedState)
    (folds : fold window log = .ok state) :
    ((∀ earlier later, earlier ≤ later → ∀ before after,
        fold window (log.prefixLog earlier) = .ok before →
        fold window (log.prefixLog later) = .ok after → before.version ≤ after.version) ∧
      (claimedParents log.events).Nodup) ↔
      Advances false (log.events.map writeOf) := by
  have versionAt (count : Nat) (middle : TypedState)
      (prefixOk : fold window (log.prefixLog count) = .ok middle) :
      middle.version = after initialVersion ((log.events.map writeOf).take count) := by
    rw [← List.map_take]
    exact (run_version (fold_runs folds count prefixOk).1).2
  have accepted : Accepted initialVersion (log.events.map writeOf) :=
    (run_version (fold_run folds)).1
  rw [advances_iff accepted false, neverDecreases_iff]
  constructor
  · rintro ⟨up, nodup⟩
    refine ⟨?_, nodup, by simp⟩
    intro earlier later ordered
    rcases exists_fold_prefixLog folds earlier with ⟨before, beforeOk⟩
    rcases exists_fold_prefixLog folds later with ⟨next, nextOk⟩
    rw [← versionAt earlier before beforeOk, ← versionAt later next nextOk]
    exact up earlier later ordered before next beforeOk nextOk
  · rintro ⟨up, nodup, _⟩
    refine ⟨?_, nodup⟩
    intro earlier later ordered before next beforeOk nextOk
    rw [versionAt earlier before beforeOk, versionAt later next nextOk]
    exact up earlier later ordered

end Folds

section Sample

local instance recurrenceWire : Wire := .emptySession

/-- Two registry commits prepared against version 2, with a ledger event before
each of them. -/
def recurringLog : EventLog :=
  ((((EventLog.new v2).record 1 1000 (.ledger (.redact "first"))).record 1 1001
    (.operationCommit .ruleUpdate 1 2)).record 1 1002
    (.ledger (.redact "second"))).record 1 1003
    (.operationCommit .vocabularyUpdate 1 2)

/-- The second commit reuses the parent of the first one. -/
theorem parent_recurs :
    ¬ ∀ (window : Nat) (log : EventLog) (state : TypedState), fold window log = .ok state →
      (∀ earlier later, earlier ≤ later → ∀ before after,
        fold window (log.prefixLog earlier) = .ok before →
        fold window (log.prefixLog later) = .ok after → before.version ≤ after.version) ∧
      (claimedParents log.events).Nodup := by
  intro claim
  have succeeds : (fold idlenessWindow recurringLog).isOk = true := by
    decide +kernel
  rcases Outcome.isOk_iff.mp succeeds with ⟨state, folds⟩
  have twice : claimedParents recurringLog.events = [2, 2] := by
    decide +kernel
  have distinct := (claim idlenessWindow recurringLog state folds).2
  rw [twice] at distinct
  exact absurd distinct (by decide)

/-- A ledger event and a lane-policy commit that keeps up with it. -/
def advancingLog : EventLog :=
  ((EventLog.new v2).record 1 1000 (.ledger (.redact "first"))).record 1 1001
    (.operationCommit .lanePolicyUpdate 2 2)

/-- The criterion applied to a policy commit. -/
theorem policy_commit_advances :
    ∃ state, fold idlenessWindow advancingLog = .ok state ∧
      (∀ earlier later, earlier ≤ later → ∀ before after,
        fold idlenessWindow (advancingLog.prefixLog earlier) = .ok before →
        fold idlenessWindow (advancingLog.prefixLog later) = .ok after →
        before.version ≤ after.version) ∧
      (claimedParents advancingLog.events).Nodup := by
  have succeeds : (fold idlenessWindow advancingLog).isOk = true := by
    decide +kernel
  rcases Outcome.isOk_iff.mp succeeds with ⟨state, folds⟩
  have advances : Advances false (advancingLog.events.map writeOf) := by
    decide +kernel
  exact ⟨state, folds,
    (versions_never_recur_iff idlenessWindow advancingLog state folds).mpr advances⟩

end Sample

end Llxprt.Kernel.Reducer
