import Llxprt.Rust.Runs
import Llxprt.Transaction.Branch
import Llxprt.Transaction.Ledger
import Llxprt.Transaction.Security

/-!
# Whole runs of the executor

A session calls the executor's methods in any order, with any arguments, any
receipts and any answers of its ports.  The abstract executor is the log alone:
its state is whatever the log folds into.  Every call either publishes an
audited log or leaves the durable part alone, so the held state refines the log
in every state a run passes through.
-/

namespace Llxprt.Transaction

open Llxprt.Rust Llxprt.Kernel

/-- One call of a mutating method. -/
inductive Call (π : Type) where
  | bindPort (port : π)
  | recalibrateMargins (version perToolDeclaration : Nat)
  | armRegionAccounting (ceiling : Nat)
  | resetRegionAccounting
  | admitRegionUnits (units : Nat)
  | propose (op : String) (parentVersion : Nat)
  | proposeAs (op : String) (parentVersion : Nat) (principal : Proposer)
  | snapshot
  | generate
  | abort
  | validate (claimedBound : Nat) (budget : Budget) (floor phiPre phiPost effectBytes : Nat)
  | commit (actualParent : Nat) (effect : Option EventKind) (payloadBound : Nat)
  | commitFenced (actualParent latest : Nat) (effect : Option EventKind) (payloadBound : Nat)
  | validateLedger (command : Command) (budget : Budget)
  | commitLedger (actualParent latest : Nat) (command : Command) (ports : LedgerPorts)
      (payloadBound : Nat)
  | validateSemantic (command : SemanticCommand) (services : SemanticServices) (budget : Budget)
  | validateProjection (event : SemanticEvent) (budget : Budget)
  | commitSemantic (actualParent latest : Nat) (receipt : SemanticReceipt)
  | validateSecurity (event : SecurityEvent) (ports : SecurityPorts) (budget : Budget)
  | commitSecurity (parent latest : Nat) (receipt : SecurityReceipt) (ports : SecurityPorts)
  | validateBranch (event : BranchEvent) (principal : Source) (ports : BranchPorts)
      (budget : Budget)
  | validateBranchReturn (nameSpace : String) (candidate : Candidate) (principal : Source)
      (services : SemanticServices) (ports : BranchPorts) (budget : Budget)
  | commitBranch (parent latest : Nat) (receipt : BranchReceipt) (ports : BranchPorts)

/-- The error of a call, by the kind of its method. -/
inductive CallError where
  | executor (error : ExecutorError)
  | margins (error : String)
  | ledger (error : LedgerCommitError)
  | semantic (error : SemanticError)
  | security (error : SecurityCommitError)
  | branch (error : BranchCommitError)

section Sessions

variable [Wire] {π : Type} {ε α : Type}

/-- A call whose value the session drops. -/
def calling (wrap : ε → CallError) (method : Method (Executor π) ε α) :
    Method (Executor π) CallError Unit :=
  (Method.mapErr wrap method).discard

/-- The method behind a call. -/
def Call.run [AccountingPort π] : Call π → Method (Executor π) CallError Unit
  | bindPort port => Method.update (Executor.bindPort port)
  | recalibrateMargins version perToolDeclaration =>
      calling .margins (Executor.recalibrateMargins version perToolDeclaration)
  | armRegionAccounting ceiling => Method.update (Executor.armRegionAccounting ceiling)
  | resetRegionAccounting => Method.update Executor.resetRegionAccounting
  | admitRegionUnits units => Method.update (Executor.admitRegionUnits units)
  | propose op parentVersion => calling .executor (Executor.propose op parentVersion)
  | proposeAs op parentVersion principal =>
      calling .executor (Executor.proposeAs op parentVersion principal)
  | snapshot => calling .executor Executor.snapshot
  | generate => calling .executor Executor.generate
  | abort => calling .executor Executor.abort
  | validate claimedBound budget floor phiPre phiPost effectBytes =>
      calling .executor (Executor.validate claimedBound budget floor phiPre phiPost effectBytes)
  | commit actualParent effect payloadBound =>
      calling .executor (Executor.commit actualParent effect payloadBound)
  | commitFenced actualParent latest effect payloadBound =>
      calling .executor (Executor.commitFenced actualParent latest effect payloadBound)
  | validateLedger command budget => calling .ledger (Executor.validateLedger command budget)
  | commitLedger actualParent latest command ports payloadBound =>
      calling .ledger (Executor.commitLedger actualParent latest command ports payloadBound)
  | validateSemantic command services budget =>
      calling .semantic (Executor.validateSemantic command services budget)
  | validateProjection event budget =>
      calling .semantic (Executor.validateProjection event budget)
  | commitSemantic actualParent latest receipt =>
      calling .semantic (Executor.commitSemantic actualParent latest receipt)
  | validateSecurity event ports budget =>
      calling .security (Executor.validateSecurity event ports budget)
  | commitSecurity parent latest receipt ports =>
      calling .security (Executor.commitSecurity parent latest receipt ports)
  | validateBranch event principal ports budget =>
      calling .branch (Executor.validateBranch event principal ports budget)
  | validateBranchReturn nameSpace candidate principal services ports budget =>
      calling .branch
        (Executor.validateBranchReturn nameSpace candidate principal services ports budget)
  | commitBranch parent latest receipt ports =>
      calling .branch (Executor.commitBranch parent latest receipt ports)

/-- How a session obtains its executor. -/
inductive Start where
  | new (epoch : Nat) (contract : RenderContract)
  | resuming (epoch nextSequence : Nat) (lastChecksum : Digest) (contract : RenderContract)

def Start.executor : Start → Executor π
  | new epoch contract => .new epoch contract
  | resuming epoch nextSequence lastChecksum contract =>
      .resuming epoch nextSequence lastChecksum contract

/-- The executor after a sequence of calls, whatever they returned. -/
def session [AccountingPort π] (start : Start) (calls : List (Call π)) : Executor π :=
  run (fun executor call => (call.run executor).2) start.executor calls

/-- What a call may do to the durable part of an executor. -/
inductive Advance (before after : Durable) : Prop
  | released (release : Executor.Release before after)
  | reaccounted (units : Nat) (only : after = { before with regionAdmitted := units })

theorem calling_publishes {moves : Durable → Durable → Prop} {wrap : ε → CallError}
    {method : Method (Executor π) ε α}
    (publishes : Method.Publishes Executor.durable moves method) :
    Method.Publishes Executor.durable moves (calling wrap method) :=
  Method.publishes_discard (Method.publishes_mapErr publishes)

theorem calling_inert {wrap : ε → CallError} {method : Method (Executor π) ε α}
    (inert : Executor.Inert method) :
    Method.Publishes Executor.durable Advance (calling wrap method) :=
  calling_publishes (Method.publishes_of_keeps inert)

theorem calling_commit {wrap : ε → CallError} {method : Method (Executor π) ε α}
    (publishes : Method.Publishes Executor.durable Executor.Release method) :
    Method.Publishes Executor.durable Advance (calling wrap method) := by
  apply calling_publishes
  intro self
  rcases publishes self with kept | ⟨returned, moved⟩
  · exact .inl kept
  · exact .inr ⟨returned, .released moved⟩

/-- One call advances the durable part only when it returns normally. -/
theorem Call.run_publishes [AccountingPort π] (call : Call π) :
    Method.Publishes Executor.durable Advance call.run := by
  cases call with
  | bindPort port => exact fun _ => .inl rfl
  | recalibrateMargins => exact calling_inert Executor.recalibrateMargins_inert
  | armRegionAccounting ceiling => exact fun _ => .inl rfl
  | resetRegionAccounting => exact fun _ => .inr ⟨rfl, .reaccounted _ rfl⟩
  | admitRegionUnits units => exact fun _ => .inr ⟨rfl, .reaccounted _ rfl⟩
  | propose => exact calling_inert Executor.propose_inert
  | proposeAs => exact calling_inert Executor.proposeAs_inert
  | snapshot => exact calling_inert Executor.snapshot_inert
  | generate => exact calling_inert Executor.generate_inert
  | abort => exact calling_inert Executor.abort_inert
  | validate => exact calling_inert Executor.validate_inert
  | commit => exact calling_commit Executor.commitOutcome_publishes
  | commitFenced => exact calling_commit Executor.commitFenced_publishes
  | validateLedger => exact calling_inert Executor.validateLedger_inert
  | commitLedger => exact calling_commit Executor.commitLedger_publishes
  | validateSemantic => exact calling_inert Executor.validateSemantic_inert
  | validateProjection => exact calling_inert Executor.validateProjection_inert
  | commitSemantic => exact calling_commit Executor.commitSemantic_publishes
  | validateSecurity => exact calling_inert Executor.validateSecurity_inert
  | commitSecurity => exact calling_commit Executor.commitSecurity_publishes
  | validateBranch => exact calling_inert Executor.validateBranch_inert
  | validateBranchReturn => exact calling_inert Executor.validateBranchReturn_inert
  | commitBranch => exact calling_commit Executor.commitBranch_publishes

/-- The durable part refines its log: the typed state is what the log folds
into, the log re-verifies from its resume point, and a log that has events folds
into a legal projection. -/
structure Refines (durable : Durable) : Prop where
  replayed : Reducer.fold idlenessWindow durable.log = .ok durable.typed
  reverified : reverify (durable.log.prefixLog 0) durable.log.events = .ok durable.log
  legal : durable.log.events ≠ [] →
    isLegal durable.typed durable.contract = .ok ⟨durable.contract.version⟩

theorem Audited.refines {durable : Durable}
    (audited : Audited durable.log durable.typed durable.contract) : Refines durable where
  replayed := audited.replayed
  reverified := audited.reverified
  legal := fun _ => audited.legal

/-- An advance of the durable part keeps the refinement. -/
theorem Advance.refines {before after : Durable} (refines : Refines before)
    (advance : Advance before after) : Refines after := by
  cases advance with
  | released release =>
      rcases release.audited with ⟨sameLog, sameTyped⟩ | audited
      · rcases refines with ⟨replayed, reverified, legal⟩
        rw [← sameLog, ← sameTyped] at replayed
        rw [← sameLog] at reverified
        rw [← sameLog, ← sameTyped, ← release.contract] at legal
        exact ⟨replayed, reverified, legal⟩
      · exact audited.refines
  | reaccounted units only =>
      subst only
      exact ⟨refines.replayed, refines.reverified, refines.legal⟩

/-- A fresh or resumed executor holds the fold of an empty log. -/
theorem Start.refines (start : Start) : Refines (start.executor : Executor π).durable := by
  cases start with
  | new epoch contract => exact ⟨rfl, rfl, fun nonempty => absurd rfl nonempty⟩
  | resuming epoch nextSequence lastChecksum contract =>
      exact ⟨rfl, rfl, fun nonempty => absurd rfl nonempty⟩

/-- The refinement holds after every call of a session. -/
theorem session_refines [AccountingPort π] (start : Start) (calls : List (Call π)) :
    Refines (session start calls).durable := by
  apply run_invariant (fun executor : Executor π => Refines executor.durable) start.refines _
    calls (List.prefix_refl calls)
  intro before call _ holds
  exact (call.run_publishes).preserves (fun _ _ => Advance.refines) holds

/-- After every call of every session the held state refines the log, and a call
that does not return normally leaves the contract, the log, the typed state, the
region total and the committed contract version as they were. -/
theorem executor_refines_log [AccountingPort π] (start : Start) (calls : List (Call π)) :
    Refines (session start calls).durable ∧
      ∀ call : Call π, (call.run (session start calls)).1.isOk = false →
        (call.run (session start calls)).2.durable = (session start calls).durable := by
  constructor
  · exact session_refines start calls
  · intro call failed
    exact (call.run_publishes).kept_of_not_ok failed

end Sessions

section Admission

local instance admissionWire : Wire := .emptySession

/-- A session that admits one ingress of five bytes. -/
def admissionCalls : List (Call BoundPort) :=
  [.bindPort ⟨.v1, 0, 0⟩, .proposeAs "admit-ingress" 7 .s, .snapshot, .generate,
    .validate 64 ⟨1000, 0, 0⟩ 0 0 0 0, .commit 7 (some (.operationCommit .admitIngress 1 5)) 64]

/-- The admission opens its scope and commits, and committing it again is refused
without a trace. -/
theorem admission_refines_log :
    (session (.new 1 (.generous 1)) admissionCalls).log.events.length = 2 ∧
      Refines (session (.new 1 (.generous 1)) admissionCalls).durable ∧
      ((Call.commit 7 none 64).run (session (.new 1 (.generous 1)) admissionCalls)).2.durable =
        (session (.new 1 (.generous 1)) admissionCalls).durable := by
  have admitted : (session (.new 1 (.generous 1)) admissionCalls).log.events.length = 2 ∧
      ((Call.commit 7 none 64).run
        (session (.new 1 (.generous 1)) admissionCalls)).1.isOk = false := by
    decide +kernel
  constructor
  · exact admitted.1
  · constructor
    · exact (executor_refines_log _ _).1
    · exact (executor_refines_log _ _).2 _ admitted.2

end Admission

end Llxprt.Transaction
