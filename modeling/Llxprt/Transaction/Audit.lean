import Llxprt.Kernel.Legality
import Llxprt.Transaction.Operation

/-!
# Shadow replay at the commit checkpoint

The auditor re-appends every event from the resume point, folds what it has
verified into a fresh state, and compares all of that state with the one it was
given.  An audited log therefore folds into the audited state, which is legal.
-/

namespace Llxprt.Transaction

open Llxprt.Rust Llxprt.Kernel

inductive AuditError where
  | log (error : LogError)
  | replay (error : ReducerError)
  | legality (violation : Violation)
  | uncontracted (sequence : Nat) (operation : String)
  | stateMismatch
  deriving DecidableEq

/-- Registered operation behind an event.  Appends and provider turns are not
operation commits. -/
def operationName : EventKind → Option String
  | .append .. | .providerTurn .. => none
  | .semantic event => some event.operation
  | .branch event => some event.operation
  | .security event => some event.operation
  | .ledger command => some command.operation
  | .operationCommit operationClass _ _ => some operationClass.name

/-- Every operation commit is in the registry. -/
def checkContracted (event : RecordedEvent) : Except AuditError Unit :=
  match operationName event.kind with
  | some name => reject (Operation.find name).isNone (.uncontracted event.sequence name)
  | none => .ok ()

section Replay

variable [Wire]

/-- The event loop of the audit. -/
def reverify : EventLog → List RecordedEvent → Except AuditError EventLog
  | verified, [] => .ok verified
  | verified, event :: events => do
      checkContracted event
      let verified ← (verified.append event).mapError .log
      reverify verified events

/-- Live checkpoint: re-validate the framing, replay, and compare all state. -/
def auditTip (log : EventLog) (state : TypedState) (contract : RenderContract) :
    Outcome AuditError Unit :=
  match reverify (log.prefixLog 0) log.events with
  | .error error => .err error
  | .ok verified =>
      match Reducer.fold idlenessWindow verified with
      | .panic => .panic
      | .err error => .err (.replay error)
      | .ok replayed =>
          if replayed ≠ state then
            .err .stateMismatch
          else
            match isLegal replayed contract with
            | .error violation => .err (.legality violation)
            | .ok _ => .ok ()

/-- What a passed audit establishes. -/
structure Audited (log : EventLog) (state : TypedState) (contract : RenderContract) : Prop where
  reverified : reverify (log.prefixLog 0) log.events = .ok log
  replayed : Reducer.fold idlenessWindow log = .ok state
  legal : isLegal state contract = .ok ⟨contract.version⟩

/-- The loop re-appends exactly the events it was given. -/
theorem reverify_spec {start verified : EventLog} {events : List RecordedEvent}
    (h : reverify start events = .ok verified) :
    verified.events = start.events ++ events ∧ verified.storeVersion = start.storeVersion ∧
      verified.resume = start.resume := by
  induction events generalizing start with
  | nil =>
      cases h
      simp
  | cons event events ih =>
      simp only [reverify, bind_eq_ok, mapError_eq_ok] at h
      rcases h with ⟨_, _, next, appended, rest⟩
      rcases EventLog.append_spec appended with ⟨nextEvents, nextStore, nextResume⟩
      rcases ih rest with ⟨restEvents, restStore, restResume⟩
      refine ⟨?_, restStore.trans nextStore, restResume.trans nextResume⟩
      rw [restEvents, nextEvents, List.append_assoc]
      rfl

/-- A log that re-verifies from its resume point re-verifies into itself. -/
theorem eq_of_reverify {log verified : EventLog}
    (h : reverify (log.prefixLog 0) log.events = .ok verified) : verified = log := by
  rcases reverify_spec h with ⟨events, storeVersion, resume⟩
  apply EventLog.ext_of_events
  · simpa [EventLog.prefixLog] using events
  · exact storeVersion
  · exact resume

theorem auditTip_spec {log : EventLog} {state : TypedState} {contract : RenderContract}
    (h : auditTip log state contract = .ok ()) : Audited log state contract := by
  unfold auditTip at h
  cases verification : reverify (log.prefixLog 0) log.events with
  | error error => simp [verification] at h
  | ok verified =>
      have same := eq_of_reverify verification
      subst same
      cases folded : Reducer.fold idlenessWindow verified with
      | panic => simp [verification, folded] at h
      | err error => simp [verification, folded] at h
      | ok replayed =>
          simp only [verification, folded] at h
          split at h
          · cases h
          · rename_i agrees
            have agrees : replayed = state := not_not.mp agrees
            subst agrees
            split at h
            · cases h
            · rename_i context legal
              rw [contractVersion_of_isLegal legal] at legal
              exact ⟨verification, folded, legal⟩

end Replay

end Llxprt.Transaction
