import Llxprt.Transaction.Executor

/-!
# Receipt-checked security commits
-/

namespace Llxprt.Transaction

open Llxprt.Rust Llxprt.Kernel

/-- Authentication, frozen envelope and physical erasure, as their owners
answer. -/
structure SecurityPorts where
  principalAuthenticated : Source → Bool
  escalationAuthorized : Escalation → Bool
  erasureCompleted : Erasure → Bool

inductive SecurityCommitError where
  | boundary
  | replay (error : ReducerError)
  | transaction (error : ExecutorError)

structure SecurityReceipt where
  event : SecurityEvent
  bound : Nat

namespace Executor

variable [Wire] {π : Type}

/-- Operation binding and authentication of a security event. -/
def authenticateSecurity (self : Executor π) (event : SecurityEvent) (ports : SecurityPorts) :
    Except SecurityCommitError Unit := do
  reject ((self.current.all fun txn => txn.op ≠ event.operation) ∨ self.proposedBy.isNone)
    .boundary
  let valid : Bool := match event with
    | .pin pin => ports.principalAuthenticated pin.owner
    | .unpin _ owner => ports.principalAuthenticated owner
    | .expire _ => true
    | .escalatePending request =>
        ports.principalAuthenticated request.operator && ports.escalationAuthorized request
    | .escalateComplete id operator =>
        ports.principalAuthenticated operator &&
          self.typed.security.escalations[id]?.any ports.escalationAuthorized
    | .erase erasure => ports.erasureCompleted erasure
  reject (¬ valid) .boundary

/-- The event must replay into a legal state. -/
def securityCandidate (event : SecurityEvent) : Method (Executor π) SecurityCommitError Unit := do
  let candidate ← candidate (.security event) (some .boundary) .replay
  let self ← Method.read
  let _ ← Method.ofExcept ((isLegal candidate self.contract).mapError fun _ => .boundary)

/-- The checks that mint a security receipt. -/
def mintSecurity [AccountingPort π] (event : SecurityEvent) (ports : SecurityPorts)
    (budget : Budget) : Method (Executor π) SecurityCommitError SecurityReceipt := do
  let self ← Method.read
  Method.ofExcept (self.authenticateSecurity event ports)
  securityCandidate event
  let bytes := (Wire.securityEvent event).length
  let bound ← Method.ofExcept (okOr (self.portBound bytes) .boundary)
  let _ ← Method.mapErr .transaction (validate bound budget 0 0 0 bytes)
  Method.refuse (¬ fits bound budget) .boundary
  Method.update fun self => { self with securityValidation := some (event, bound) }
  return ⟨event, bound⟩

def validateSecurity [AccountingPort π] (event : SecurityEvent) (ports : SecurityPorts)
    (budget : Budget) : Method (Executor π) SecurityCommitError SecurityReceipt :=
  (mintSecurity event ports budget).orElse fail

/-- The checks that redeem a security receipt. -/
def redeemSecurity (parent latest : Nat) (receipt : SecurityReceipt) (ports : SecurityPorts) :
    Method (Executor π) SecurityCommitError CommitOutcome := do
  let self ← Method.read
  Method.ofExcept (self.authenticateSecurity receipt.event ports)
  Method.refuse (self.epoch < latest ∨
    self.securityValidation ≠ some (receipt.event, receipt.bound)) .boundary
  securityCandidate receipt.event
  Method.mapErr .transaction
    (commitChecked parent (some (.security receipt.event)) receipt.bound)

/-- A receipt is consumed whether or not it is redeemed. -/
def commitSecurity (parent latest : Nat) (receipt : SecurityReceipt) (ports : SecurityPorts) :
    Method (Executor π) SecurityCommitError CommitOutcome :=
  ((redeemSecurity parent latest receipt ports).andThen
    fun self => { self with securityValidation := none }).orElse fail

theorem securityCandidate_inert {event : SecurityEvent} :
    Inert (securityCandidate event : Method (Executor π) _ _) := by
  apply Method.keeps_bind candidate_inert
  intro candidate
  apply Method.keeps_read_bind
  intro self
  exact Method.keeps_bind Method.keeps_ofExcept fun _ => Method.keeps_pure

theorem mintSecurity_inert [AccountingPort π] {event : SecurityEvent} {ports : SecurityPorts}
    {budget : Budget} : Inert (mintSecurity event ports budget : Method (Executor π) _ _) := by
  apply Method.keeps_read_bind
  intro self
  apply Method.keeps_ofExcept_bind
  intro _
  apply Method.keeps_bind securityCandidate_inert
  intro _
  apply Method.keeps_ofExcept_bind
  intro bound
  apply Method.keeps_bind (Method.keeps_mapErr validate_inert)
  intro _
  apply Method.keeps_refuse_bind
  exact Method.keeps_update_pure fun _ => rfl

theorem validateSecurity_inert [AccountingPort π] {event : SecurityEvent} {ports : SecurityPorts}
    {budget : Budget} :
    Inert (validateSecurity event ports budget : Method (Executor π) _ _) :=
  orFail_inert mintSecurity_inert

theorem redeemSecurity_publishes {parent latest : Nat} {receipt : SecurityReceipt}
    {ports : SecurityPorts} :
    Method.Publishes durable Release
      (redeemSecurity parent latest receipt ports : Method (Executor π) _ _) := by
  apply Method.publishes_bind Method.keeps_read
  intro self
  apply Method.publishes_bind Method.keeps_ofExcept
  intro _
  apply Method.publishes_bind Method.keeps_refuse
  intro _
  apply Method.publishes_bind securityCandidate_inert
  intro _
  exact Method.publishes_mapErr commitChecked_publishes

theorem commitSecurity_publishes {parent latest : Nat} {receipt : SecurityReceipt}
    {ports : SecurityPorts} :
    Method.Publishes durable Release
      (commitSecurity parent latest receipt ports : Method (Executor π) _ _) :=
  Method.publishes_orElse (Method.publishes_andThen redeemSecurity_publishes fun _ => rfl)
    fun _ => rfl

end Executor

end Llxprt.Transaction
