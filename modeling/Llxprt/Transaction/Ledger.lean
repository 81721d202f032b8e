import Llxprt.Transaction.Executor

/-!
# Receipt-checked ledger commits

A ledger command is validated against the effect it would have, and committed
through the executor's universal boundary only when it is the command that was
validated and its receipts authenticate.
-/

namespace Llxprt.Kernel

open Llxprt.Rust

/-- Authentication hooks owned by ingress and validation. -/
structure LedgerPorts where
  authenticated : Source → Bool
  gateSupported : GateSupport → Bool
  toolWriteAuthenticated : ToolWrite → BTreeMap String UInt64 → Bool

/-- Checked at the executor boundary before a command is committed. -/
def Command.authenticate (ports : LedgerPorts) (command : Command) : Except LedgerError Unit :=
  let valid : Bool := match command with
    | .admitObligation entry _ | .admitConvenience entry => ports.authenticated entry.source
    | .amend _ replacement principal =>
        ports.authenticated principal && ports.authenticated replacement.source
    | .retract _ principal => ports.authenticated principal
    | .promote _ source adoption support =>
        ports.authenticated source && adoption.all ports.authenticated &&
          ports.gateSupported support
    | .consolidate _ composite support _ =>
        ports.authenticated composite.source && ports.gateSupported support
    | .discharge _ (.resolved support) => !support.claim.isEmpty && ports.gateSupported support
    | .revalidate observation => ports.authenticated observation.source
    | .factInvalidate result writes => ports.toolWriteAuthenticated result writes
    | _ => true
  reject (¬ valid) .authority

/-- Bytes of the entries that are rendered and not retired. -/
def Ledger.renderedBytes (ledger : Ledger) : Nat :=
  (((values ledger.entries).filter fun entry => !entry.retired && entry.rendered).map
    Entry.textBytes).sum

end Llxprt.Kernel

namespace Llxprt.Transaction

open Llxprt.Rust Llxprt.Kernel

inductive LedgerCommitError where
  | domain (error : LedgerError)
  | boundary
  | replay (error : ReducerError)
  | transaction (error : ExecutorError)

namespace Executor

variable [Wire] {π : Type}

/-- The state that the command would commit. -/
def ledgerCandidate (command : Command) : Method (Executor π) LedgerCommitError TypedState :=
  candidate (.ledger command) none .replay

/-- Computes effect size and reclaim from the candidate state and validates. -/
def validateLedger [AccountingPort π] (command : Command) (budget : Budget) :
    Method (Executor π) LedgerCommitError Nat := do
  let candidate ← (ledgerCandidate command).orElse fail
  let self ← Method.read
  let bytes := (Wire.ledgerCommand command).length
  match self.portBound bytes with
  | none => kill .boundary
  | some bound => do
      let _ ← Method.mapErr .transaction
        (validate bound budget candidate.ledger.obligationBytes self.typed.ledger.renderedBytes
          candidate.ledger.renderedBytes bytes)
      killIf (¬ fits bound budget) (.transaction (.preconditionFailed "ledger-fit-bound"))
      Method.update fun self => { self with ledgerValidation := some (command, bound) }
      return bound

/-- Fence, operation binding and authentication of a command. -/
def checkLedgerCommand (self : Executor π) (latest : Nat) (command : Command)
    (ports : LedgerPorts) : Except LedgerCommitError Unit := do
  reject (self.epoch < latest) (.transaction (.fenced latest self.epoch))
  let txn ← okOr self.current .boundary
  reject (txn.op ≠ command.operation ∨ self.proposedBy.isNone) .boundary
  (command.authenticate ports).mapError .domain

/-- The only ledger commit entry point. -/
def commitLedger (actualParent latest : Nat) (command : Command) (ports : LedgerPorts)
    (payloadBound : Nat) : Method (Executor π) LedgerCommitError CommitOutcome := do
  let self ← Method.read
  killIf (self.ledgerValidation ≠ some (command, payloadBound)) .boundary
  (Method.ofExcept (self.checkLedgerCommand latest command ports)).orElse fail
  let candidate ← (ledgerCandidate command).orElse fail
  match isLegal candidate self.contract with
  | .error violation => kill (.transaction (illegality violation))
  | .ok _ =>
      Method.mapErr .transaction (commitChecked actualParent (some (.ledger command)) payloadBound)

theorem validateLedger_inert [AccountingPort π] {command : Command} {budget : Budget} :
    Inert (validateLedger command budget : Method (Executor π) _ _) := by
  apply Method.keeps_bind (orFail_inert candidate_inert)
  intro candidate
  apply Method.keeps_read_bind
  intro self
  dsimp only
  split
  · exact kill_inert
  · apply Method.keeps_bind (Method.keeps_mapErr validate_inert)
    intro _
    apply Method.keeps_bind killIf_inert
    intro _
    exact Method.keeps_update_pure fun _ => rfl

theorem commitLedger_publishes {actualParent latest payloadBound : Nat} {command : Command}
    {ports : LedgerPorts} :
    Method.Publishes durable Release
      (commitLedger actualParent latest command ports payloadBound :
        Method (Executor π) _ _) := by
  apply Method.publishes_bind Method.keeps_read
  intro self
  apply Method.publishes_bind killIf_inert
  intro _
  apply Method.publishes_bind (orFail_inert Method.keeps_ofExcept)
  intro _
  apply Method.publishes_bind (orFail_inert candidate_inert)
  intro candidate
  split
  · exact Method.publishes_of_keeps kill_inert
  · exact Method.publishes_mapErr commitChecked_publishes

end Executor

end Llxprt.Transaction
