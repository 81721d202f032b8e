import Llxprt.Rust.Publication
import Llxprt.Transaction.Audit

/-!
# Fenced transaction executor

The state machine of one transaction and the single commit boundary that all
entry points share.  A commit works on a clone of the executor, audits the clone
and only then publishes its log and its typed state.
-/

namespace Llxprt.Transaction

open Llxprt.Rust Llxprt.Kernel

/-- The scope that every session ingress attributes to. -/
def sessionScope : UInt64 := 1

/-- Recorded wall-clock attribute of the executor's own events. -/
def recordedUnixMs : Nat := 1000

/-- Transaction lifecycle states. -/
inductive TxnState where
  | proposed
  | snapshotted
  | generated
  | validated
  | committed
  | aborted
  deriving DecidableEq

namespace TxnState

def index : TxnState → Nat
  | proposed => 0
  | snapshotted => 1
  | generated => 2
  | validated => 3
  | committed => 4
  | aborted => 5

def terminal (state : TxnState) : Bool :=
  state = committed || state = aborted

/-- Only forward, adjacent steps are legal; abort is reachable from any
non-terminal state. -/
def canTransition (source target : TxnState) : Bool :=
  if target = aborted then !source.terminal
  else !source.terminal && target.index = source.index + 1

end TxnState

/-- A transaction under execution. -/
structure Txn where
  id : Nat
  parentVersion : Nat
  op : String

/-- Verdicts and failures that the executor can produce. -/
inductive ExecutorError where
  | audit (error : AuditError)
  | illegalTransition (source target : TxnState)
  | staleParent (expected actual : Nat)
  | capabilityNotLanded (op : String)
  | preconditionFailed (which : String)
  | boundDisagrees (claimed computed : Nat)
  | illegal (which predicate : String)
  | regionOverBudget (admitted projected ceiling : Nat)
  | fenced (held mine : Nat)
  | authorityDenied (op : String) (principal : Proposer)
  | notRebaseSafe
  deriving DecidableEq

/-- Maps a legality violation onto the typed executor error. -/
def illegality (violation : Violation) : ExecutorError :=
  let which := match violation with
    | .pairing _ => "pairing"
    | .ordering _ => "ordering"
    | .placeholderIllegal _ => "placeholder"
    | .regionOverBudget _ => "region-over-budget"
    | .floor _ => "floor"
    | .pin _ => "pin"
    | .quotingConvention _ => "quoting-convention"
    | .profileOverBudget _ => "profile-over-budget"
  .illegal which violation.predicate

/-- What a commit did to the governed state. -/
inductive CommitOutcome where
  | applied
  | rebaseNoOp
  deriving DecidableEq

section Model

variable [Wire]

/-- Fenced executor, long-lived across admissions. -/
structure Executor (π : Type) where
  epoch : Nat
  nextId : Nat
  state : TxnState
  current : Option Txn
  aborted : Bool
  port : Option π
  contract : RenderContract
  log : EventLog
  typed : TypedState
  contractVersion : Option Nat
  regionAdmitted : Nat
  regionCeiling : Option Nat
  landedPhase : Nat
  branchValidation : Option (BranchEvent × Nat)
  securityValidation : Option (SecurityEvent × Nat)
  semanticValidation : Option (SemanticEvent × Nat)
  proposedBy : Option Proposer
  ledgerValidation : Option (Command × Nat)

/-- The part of an executor that outlives a transaction. -/
structure Durable where
  contract : RenderContract
  log : EventLog
  typed : TypedState
  regionAdmitted : Nat
  contractVersion : Option Nat

/-- An empty log folds into genesis. -/
theorem fold_new_isOk (storeVersion : UInt64) :
    (Reducer.fold idlenessWindow (EventLog.new storeVersion)).isOk = true :=
  rfl

namespace Executor

variable {π : Type} {ε α : Type}

def durable (self : Executor π) : Durable where
  contract := self.contract
  log := self.log
  typed := self.typed
  regionAdmitted := self.regionAdmitted
  contractVersion := self.contractVersion

/-- New executor at `epoch`, gating commits against `contract`. -/
def new (epoch : Nat) (contract : RenderContract) : Executor π where
  epoch := epoch
  nextId := 1
  state := .proposed
  current := none
  aborted := false
  port := none
  contract := contract
  log := .new v2
  typed := (Reducer.fold idlenessWindow (.new v2)).get (fold_new_isOk v2)
  contractVersion := none
  regionAdmitted := 0
  regionCeiling := none
  landedPhase := 8
  branchValidation := none
  securityValidation := none
  semanticValidation := none
  proposedBy := none
  ledgerValidation := none

/-- New executor that resumes a recorded chain. -/
def resuming (epoch nextSequence : Nat) (lastChecksum : Digest) (contract : RenderContract) :
    Executor π :=
  { new epoch contract with log := .resuming v2 nextSequence lastChecksum }

/-- Kills the live transaction. -/
def fail (self : Executor π) : Executor π :=
  { self with aborted := true, state := .aborted }

/-- `self.fail(); return Err(error)`. -/
def kill (error : ε) : Method (Executor π) ε α := do
  Method.update fail
  Method.fail error

/-- `if refused { self.fail(); return Err(error) }`. -/
def killIf (refused : Prop) [Decidable refused] (error : ε) : Method (Executor π) ε Unit :=
  if refused then kill error else pure ()

/-- Advance the state machine. -/
def step (target : TxnState) : Method (Executor π) ExecutorError Unit := do
  let self ← Method.read
  Method.refuse self.aborted (.illegalTransition self.state target)
  Method.refuse (¬ self.state.canTransition target) (.illegalTransition self.state target)
  Method.update fun self => { self with state := target }

/-- The live transaction and its row; a missing one is a programming error. -/
def currentRow : Method (Executor π) ExecutorError (Txn × Operation) := do
  let self ← Method.read
  let txn ← Method.expect self.current
  let row ← Method.expect (Operation.find txn.op)
  return (txn, row)

/-- Begin a transaction for a registered row. -/
def propose (op : String) (parentVersion : Nat) : Method (Executor π) ExecutorError Txn := do
  Method.refuse (Operation.find op).isNone (.capabilityNotLanded op)
  let self ← Method.read
  Method.refuse (self.state ≠ .proposed ∧ self.state ≠ .committed ∧ self.state ≠ .aborted)
    (.illegalTransition self.state .proposed)
  let txn : Txn := ⟨self.nextId, parentVersion, op⟩
  Method.update fun self =>
    { self with
      nextId := self.nextId + 1
      current := some txn
      proposedBy := none
      ledgerValidation := none
      semanticValidation := none
      branchValidation := none
      securityValidation := none
      state := .proposed
      aborted := false }
  return txn

/-- Authority non-increase: the acting principal is the row's proposer or its
named higher authority. -/
def proposeAs (op : String) (parentVersion : Nat) (principal : Proposer) :
    Method (Executor π) ExecutorError Txn := do
  let row ← Method.ofExcept (okOr (Operation.find op) (.capabilityNotLanded op))
  Method.refuse (¬ (principal = row.proposer ∨ row.authority = some principal))
    (.authorityDenied op principal)
  let txn ← propose op parentVersion
  Method.update fun self => { self with proposedBy := some principal }
  return txn

/-- Take the parent snapshot. -/
def snapshot : Method (Executor π) ExecutorError Txn := do
  step .snapshotted
  let self ← Method.read
  Method.expect self.current

/-- Generate effect artifacts; a row of a later phase kills the transaction. -/
def generate : Method (Executor π) ExecutorError Txn := do
  step .generated
  let (txn, row) ← currentRow
  let self ← Method.read
  killIf (self.landedPhase < row.ownerPhase) (.capabilityNotLanded txn.op)
  return txn

/-- Abort the current transaction. -/
def abort : Method (Executor π) ExecutorError TxnState := do
  let self ← Method.read
  Method.refuse (¬ self.state.canTransition .aborted) (.illegalTransition self.state .aborted)
  Method.update fun self => { self with aborted := true, state := .aborted }
  return .aborted

def bindPort (port : π) (self : Executor π) : Executor π :=
  { self with port := some port }

def armRegionAccounting (ceiling : Nat) (self : Executor π) : Executor π :=
  { self with regionCeiling := some ceiling }

def resetRegionAccounting (self : Executor π) : Executor π :=
  { self with regionAdmitted := 0 }

def admitRegionUnits (units : Nat) (self : Executor π) : Executor π :=
  { self with regionAdmitted := saturatingAdd self.regionAdmitted units }

section Port

variable [AccountingPort π]

/-- The bound that the bound port computes for an effect. -/
def portBound (self : Executor π) (effectBytes : Nat) : Option Nat :=
  self.port.map fun port => AccountingPort.computed port effectBytes

/-- Recalibrates the margin table of the bound port. -/
def recalibrateMargins (version perToolDeclaration : Nat) : Method (Executor π) String Unit := do
  let self ← Method.read
  let port ← Method.ofExcept
    (okOr self.port "a margin-drift fixture needs a bound port that owns the table")
  let recalibrated ← Method.ofExcept
    (okOr (AccountingPort.recalibrated port version perToolDeclaration)
      "the bound port carries no margin table to recalibrate")
  let port ← Method.ofExcept recalibrated
  Method.update fun self => { self with port := some port }

/-- Record verdicts and enforce the universal preconditions. -/
def validate (claimedBound : Nat) (budget : Budget) (floor phiPre phiPost effectBytes : Nat) :
    Method (Executor π) ExecutorError Txn := do
  step .validated
  let (txn, row) ← currentRow
  let self ← Method.read
  match self.portBound effectBytes with
  | none => kill (.preconditionFailed "bound-port-missing")
  | some computed =>
      let facts : PreconditionFacts := {
        parentVersion := txn.parentVersion
        projected := computed
        budget := budget
        phiPre := phiPre
        phiPost := phiPost
        bar := row.bar
        emergency := row.emergency }
      killIf (computed ≠ claimedBound) (.boundDisagrees claimedBound computed)
      killIf (¬ row.precondition.holds facts) (.preconditionFailed row.preconditionName)
      killIf (¬ feasible floor budget) (.preconditionFailed "protection-floor")
      return txn

end Port

/-- Seal the next event of the total order and append it. -/
def appendEvent (kind : EventKind) : Method (Executor π) ExecutorError Unit := do
  let self ← Method.read
  let log ← Method.ofExcept
    ((self.log.append (self.log.nextEvent self.epoch recordedUnixMs kind)).mapError
      fun error => .audit (.log error))
  Method.update fun self => { self with log := log }

/-- Opens the session scope before the first ingress admission.  A closed
session scope is a fault. -/
def openSession : EventKind → Method (Executor π) ExecutorError Unit
  | .operationCommit .admitIngress _ _ => do
      let self ← Method.read
      match self.typed.scopeRegistry.state sessionScope with
      | .ok state =>
          Method.refuse (¬ state.isOpen) (.preconditionFailed "session-scope-closed")
      | .error _ => appendEvent (.operationCommit .scopeOpen sessionScope 0)
  | _ => pure ()

/-- Appends the governed event and folds it into the typed state. -/
def appendEffect (kind : EventKind) : Method (Executor π) ExecutorError Unit := do
  openSession kind
  appendEvent kind
  let self ← Method.read
  Method.mapErr (fun error => .audit (.replay error))
    (Method.focus Executor.typed (fun self typed => { self with typed := typed })
      (Reducer.foldFrom self.log))

/-- Runs the effect on a clone, audits the clone and publishes it. -/
def publishEffect (kind : EventKind) : Method (Executor π) ExecutorError Unit :=
  fun self =>
    match appendEffect kind self with
    | (.panic, _) => (.panic, self)
    | (.err error, _) => kill error self
    | (.ok _, staged) =>
        match auditTip staged.log staged.typed staged.contract with
        | .panic => (.panic, self)
        | .err error => kill (.audit error) self
        | .ok _ => (.ok (), { self with log := staged.log, typed := staged.typed })

/-- A commit without an effect publishes nothing. -/
def publish : Option EventKind → Method (Executor π) ExecutorError Unit
  | some kind => publishEffect kind
  | none => pure ()

/-- Releases the effect of an accepted commit and accounts for it. -/
def release (effect : Option EventKind) (payloadBound : Nat) :
    Method (Executor π) ExecutorError CommitOutcome := do
  publish effect
  Method.update fun self =>
    { self with
      regionAdmitted := saturatingAdd self.regionAdmitted payloadBound
      state := .committed
      contractVersion := some self.contract.version }
  return .applied

/-- The ceiling check of region-wide admission accounting. -/
def checkRegion (payloadBound : Nat) : Method (Executor π) ExecutorError Unit := do
  let self ← Method.read
  match self.regionCeiling with
  | none => pure ()
  | some ceiling =>
      let projected := saturatingAdd self.regionAdmitted payloadBound
      killIf (ceiling < projected) (.regionOverBudget self.regionAdmitted projected ceiling)

/-- The universal commit boundary. -/
def commitChecked (actualParent : Nat) (effect : Option EventKind) (payloadBound : Nat) :
    Method (Executor π) ExecutorError CommitOutcome := do
  let self ← Method.read
  Method.refuse (¬ self.state.canTransition .committed)
    (.illegalTransition self.state .committed)
  let (txn, row) ← currentRow
  match isLegal self.typed self.contract with
  | .error violation => kill (illegality violation)
  | .ok _ =>
      if actualParent = txn.parentVersion then do
        checkRegion payloadBound
        release effect payloadBound
      else if row.rebaseSafe then do
        Method.update fun self => { self with state := .committed }
        return .rebaseNoOp
      else
        kill (.staleParent txn.parentVersion actualParent)

/-- Owner phase of the live transaction's row. -/
def ownerPhase (self : Executor π) : Option Nat :=
  (self.current.bind fun txn => Operation.find txn.op).map Operation.ownerPhase

/-- Effects that only a security or branch receipt may commit. -/
def needsSecurityReceipt : Option EventKind → Bool
  | some (.branch _) | some (.security _) => true
  | some (.operationCommit .pin _ _) | some (.operationCommit .unpin _ _) => true
  | _ => false

def needsSemanticReceipt : Option EventKind → Bool
  | some (.semantic _) => true
  | _ => false

def needsLedgerReceipt : Option EventKind → Bool
  | some (.ledger _) => true
  | _ => false

/-- Compare-and-commit for rows without a receipt of their own. -/
def commitOutcome (actualParent : Nat) (effect : Option EventKind) (payloadBound : Nat) :
    Method (Executor π) ExecutorError CommitOutcome := do
  let self ← Method.read
  killIf (self.ownerPhase = some 8 ∨ needsSecurityReceipt effect)
    (.preconditionFailed "security-receipt-boundary")
  killIf (self.ownerPhase = some 6 ∨ needsSemanticReceipt effect)
    (.preconditionFailed "semantic-receipt-boundary")
  killIf (self.ownerPhase = some 5 ∨ needsLedgerReceipt effect)
    (.preconditionFailed "ledger-receipt-boundary")
  commitChecked actualParent effect payloadBound

def commit (actualParent : Nat) (effect : Option EventKind) (payloadBound : Nat) :
    Method (Executor π) ExecutorError CommitOutcome :=
  commitOutcome actualParent effect payloadBound

/-- Fenced compare-and-commit: a newer lease epoch fences the executor out. -/
def commitFenced (actualParent latest : Nat) (effect : Option EventKind) (payloadBound : Nat) :
    Method (Executor π) ExecutorError CommitOutcome := do
  let self ← Method.read
  killIf (self.epoch < latest) (.fenced latest self.epoch)
  commit actualParent effect payloadBound

/-- The typed state after one more event, computed on clones of the log and of
the state.  An append that is refused panics or returns `refused`. -/
def candidate (kind : EventKind) (refused : Option ε) (replay : ReducerError → ε) :
    Method (Executor π) ε TypedState := do
  let self ← Method.read
  match self.log.append (self.log.nextEvent self.epoch recordedUnixMs kind), refused with
  | .error _, none => Method.abort
  | .error _, some error => Method.fail error
  | .ok log, _ =>
      match Reducer.foldFrom log self.typed with
      | (.ok _, candidate) => return candidate
      | (.err error, _) => Method.fail (replay error)
      | (.panic, _) => Method.abort

section Boundary

/-- What an accepted commit does to the durable part: an audited log is
published or the log is kept, and the commit is accounted for. -/
structure Release (before after : Durable) : Prop where
  contract : after.contract = before.contract
  audited : (after.log = before.log ∧ after.typed = before.typed) ∨
    Audited after.log after.typed after.contract
  admitted : ∃ units, after.regionAdmitted = saturatingAdd before.regionAdmitted units
  version : after.contractVersion = some before.contract.version

/-- A step that leaves the durable part alone. -/
abbrev Inert (method : Method (Executor π) ε α) : Prop :=
  Method.Keeps durable method

/-- A view without the fields that the lifecycle of a transaction writes. -/
structure Unstated {ρ : Type} (view : Executor π → ρ) : Prop where
  stepped : ∀ self target, view { self with state := target } = view self
  failed : ∀ self, view self.fail = view self

theorem durable_unstated : Unstated (durable : Executor π → Durable) :=
  ⟨fun _ _ => rfl, fun _ => rfl⟩

section Views

variable {ρ : Type} {view : Executor π → ρ} (unstated : Unstated view)

include unstated

theorem kill_keeps {error : ε} : Method.Keeps view (kill error : Method (Executor π) ε α) :=
  unstated.failed

theorem killIf_keeps {refused : Prop} [Decidable refused] {error : ε} :
    Method.Keeps view (killIf refused error : Method (Executor π) ε Unit) := by
  unfold killIf
  split
  · exact kill_keeps unstated
  · exact Method.keeps_pure

theorem orFail_keeps {inner : Method (Executor π) ε α} (keeps : Method.Keeps view inner) :
    Method.Keeps view (inner.orElse fail) :=
  Method.keeps_orElse keeps unstated.failed

theorem step_keeps {target : TxnState} :
    Method.Keeps view (step target : Method (Executor π) _ _) := by
  apply Method.keeps_read_bind
  intro self
  apply Method.keeps_refuse_bind
  apply Method.keeps_refuse_bind
  exact Method.keeps_update fun self => unstated.stepped self target

omit unstated in
theorem currentRow_keeps : Method.Keeps view (currentRow : Method (Executor π) _ _) := by
  apply Method.keeps_read_bind
  intro self
  apply Method.keeps_bind Method.keeps_expect
  intro txn
  apply Method.keeps_bind Method.keeps_expect
  intro row
  exact Method.keeps_pure

theorem snapshot_keeps : Method.Keeps view (snapshot : Method (Executor π) _ _) := by
  apply Method.keeps_bind (step_keeps unstated)
  intro _
  apply Method.keeps_read_bind
  intro self
  exact Method.keeps_expect

theorem generate_keeps : Method.Keeps view (generate : Method (Executor π) _ _) := by
  apply Method.keeps_bind (step_keeps unstated)
  intro _
  apply Method.keeps_bind currentRow_keeps
  rintro ⟨txn, row⟩
  apply Method.keeps_read_bind
  intro self
  apply Method.keeps_bind (killIf_keeps unstated)
  intro _
  exact Method.keeps_pure

theorem abort_keeps : Method.Keeps view (abort : Method (Executor π) _ _) := by
  apply Method.keeps_read_bind
  intro self
  apply Method.keeps_refuse_bind
  exact Method.keeps_update_pure unstated.failed

theorem validate_keeps [AccountingPort π] {claimedBound floor phiPre phiPost effectBytes : Nat}
    {budget : Budget} :
    Method.Keeps view (validate claimedBound budget floor phiPre phiPost effectBytes :
      Method (Executor π) _ _) := by
  apply Method.keeps_bind (step_keeps unstated)
  intro _
  apply Method.keeps_bind currentRow_keeps
  rintro ⟨txn, row⟩
  apply Method.keeps_read_bind
  intro self
  split
  · exact kill_keeps unstated
  · apply Method.keeps_bind (killIf_keeps unstated)
    intro _
    apply Method.keeps_bind (killIf_keeps unstated)
    intro _
    apply Method.keeps_bind (killIf_keeps unstated)
    intro _
    exact Method.keeps_pure

theorem checkRegion_keeps {payloadBound : Nat} :
    Method.Keeps view (checkRegion payloadBound : Method (Executor π) _ _) := by
  apply Method.keeps_read_bind
  intro self
  split
  · exact Method.keeps_pure
  · exact killIf_keeps unstated

end Views

theorem kill_inert {error : ε} : Inert (kill error : Method (Executor π) ε α) :=
  kill_keeps durable_unstated

theorem killIf_inert {refused : Prop} [Decidable refused] {error : ε} :
    Inert (killIf refused error : Method (Executor π) ε Unit) :=
  killIf_keeps durable_unstated

theorem orFail_inert {inner : Method (Executor π) ε α} (inert : Inert inner) :
    Inert (inner.orElse fail) :=
  orFail_keeps durable_unstated inert

theorem currentRow_inert : Inert (currentRow : Method (Executor π) _ _) :=
  currentRow_keeps

theorem propose_inert {op : String} {parentVersion : Nat} :
    Inert (propose op parentVersion : Method (Executor π) _ _) := by
  apply Method.keeps_refuse_bind
  apply Method.keeps_read_bind
  intro self
  apply Method.keeps_refuse_bind
  exact Method.keeps_update_pure fun _ => rfl

theorem proposeAs_inert {op : String} {parentVersion : Nat} {principal : Proposer} :
    Inert (proposeAs op parentVersion principal : Method (Executor π) _ _) := by
  apply Method.keeps_ofExcept_bind
  intro row
  apply Method.keeps_refuse_bind
  apply Method.keeps_bind propose_inert
  intro txn
  exact Method.keeps_update_pure fun _ => rfl

theorem snapshot_inert : Inert (snapshot : Method (Executor π) _ _) :=
  snapshot_keeps durable_unstated

theorem generate_inert : Inert (generate : Method (Executor π) _ _) :=
  generate_keeps durable_unstated

theorem abort_inert : Inert (abort : Method (Executor π) _ _) :=
  abort_keeps durable_unstated

/-- Only the bound port is recalibrated. -/
theorem recalibrateMargins_keeps [AccountingPort π] {ρ : Type} {view : Executor π → ρ}
    {version perToolDeclaration : Nat}
    (portless : ∀ self port, view { self with port := port } = view self) :
    Method.Keeps view
      (recalibrateMargins version perToolDeclaration : Method (Executor π) _ _) := by
  apply Method.keeps_read_bind
  intro self
  apply Method.keeps_ofExcept_bind
  intro port
  apply Method.keeps_ofExcept_bind
  intro recalibrated
  apply Method.keeps_ofExcept_bind
  intro port
  exact Method.keeps_update fun self => portless self (some port)

theorem recalibrateMargins_inert [AccountingPort π] {version perToolDeclaration : Nat} :
    Inert (recalibrateMargins version perToolDeclaration : Method (Executor π) _ _) :=
  recalibrateMargins_keeps fun _ _ => rfl

theorem validate_inert [AccountingPort π] {claimedBound floor phiPre phiPost effectBytes : Nat}
    {budget : Budget} :
    Inert (validate claimedBound budget floor phiPre phiPost effectBytes :
      Method (Executor π) _ _) :=
  validate_keeps durable_unstated

theorem checkRegion_inert {payloadBound : Nat} :
    Inert (checkRegion payloadBound : Method (Executor π) _ _) :=
  checkRegion_keeps durable_unstated

/-- A candidate is computed on clones. -/
theorem candidate_keeps {ρ : Type} {view : Executor π → ρ} {kind : EventKind}
    {refused : Option ε} {replay : ReducerError → ε} :
    Method.Keeps view (candidate kind refused replay : Method (Executor π) _ _) := by
  apply Method.keeps_read_bind
  intro self
  split
  · exact Method.keeps_abort
  · exact Method.keeps_fail
  · split
    · exact Method.keeps_pure
    · exact Method.keeps_fail
    · exact Method.keeps_abort

theorem candidate_inert {kind : EventKind} {refused : Option ε} {replay : ReducerError → ε} :
    Inert (candidate kind refused replay : Method (Executor π) _ _) :=
  candidate_keeps

/-- Appending and folding leave the contract alone. -/
theorem appendEffect_contract {kind : EventKind} :
    Method.Keeps Executor.contract (appendEffect kind : Method (Executor π) _ _) := by
  have appends : ∀ kind, Method.Keeps Executor.contract
      (appendEvent kind : Method (Executor π) _ _) := by
    intro kind
    apply Method.keeps_read_bind
    intro self
    apply Method.keeps_ofExcept_bind
    intro log
    exact Method.keeps_update fun _ => rfl
  apply Method.keeps_bind
  · unfold openSession
    split
    · apply Method.keeps_read_bind
      intro self
      split
      · exact Method.keeps_refuse
      · exact appends _
    · exact Method.keeps_pure
  · intro _
    apply Method.keeps_bind (appends kind)
    intro _
    apply Method.keeps_read_bind
    intro self
    exact Method.keeps_mapErr fun _ => rfl

/-- The effect is published only after its clone has passed the audit. -/
theorem publishEffect_spec (kind : EventKind) (self : Executor π) :
    (publishEffect kind self).1.isOk = false ∧
        (publishEffect kind self).2.durable = self.durable ∨
      ∃ log typed, Audited log typed self.contract ∧
        publishEffect kind self = (.ok (), { self with log := log, typed := typed }) := by
  have sameContract : ((appendEffect kind) self).2.contract = self.contract :=
    appendEffect_contract self
  unfold publishEffect
  rcases appended : appendEffect kind self with ⟨_ | error | _, staged⟩
  · rw [appended] at sameContract
    cases audit : auditTip staged.log staged.typed staged.contract with
    | ok _ =>
        right
        refine ⟨staged.log, staged.typed, ?_, by simp only [audit]⟩
        rw [← sameContract]
        exact auditTip_spec audit
    | err error =>
        left
        simp only [audit]
        exact ⟨rfl, rfl⟩
    | panic =>
        left
        simp only [audit]
        exact ⟨rfl, trivial⟩
  · exact .inl ⟨rfl, rfl⟩
  · exact .inl ⟨rfl, rfl⟩

theorem publish_spec (effect : Option EventKind) (self : Executor π) :
    (publish effect self).1.isOk = false ∧ (publish effect self).2.durable = self.durable ∨
      ∃ log typed,
        (log = self.log ∧ typed = self.typed ∨ Audited log typed self.contract) ∧
        publish effect self = (.ok (), { self with log := log, typed := typed }) := by
  cases effect with
  | none => exact .inr ⟨self.log, self.typed, .inl ⟨rfl, rfl⟩, rfl⟩
  | some kind =>
      rcases publishEffect_spec kind self with refused | ⟨log, typed, audited, published⟩
      · exact .inl refused
      · exact .inr ⟨log, typed, .inr audited, published⟩

theorem release_publishes {effect : Option EventKind} {payloadBound : Nat} :
    Method.Publishes durable Release
      (release effect payloadBound : Method (Executor π) _ _) := by
  intro self
  unfold release
  rcases publish_spec effect self with ⟨failed, kept⟩ | ⟨log, typed, sound, published⟩
  · left
    rw [Method.bind_apply]
    rcases run : publish effect self with ⟨_ | error | _, next⟩
    · rw [run] at failed
      cases failed
    · rwa [run] at kept
    · rwa [run] at kept
  · right
    rw [Method.bind_of_ok published]
    constructor
    · rfl
    · exact ⟨rfl, sound, ⟨payloadBound, rfl⟩, rfl⟩

/-- Every failure exit of the commit boundary leaves the durable part alone. -/
theorem commitChecked_publishes {actualParent payloadBound : Nat} {effect : Option EventKind} :
    Method.Publishes durable Release
      (commitChecked actualParent effect payloadBound : Method (Executor π) _ _) := by
  apply Method.publishes_bind Method.keeps_read
  intro self
  apply Method.publishes_bind Method.keeps_refuse
  intro _
  apply Method.publishes_bind currentRow_inert
  rintro ⟨txn, row⟩
  dsimp only
  split
  · exact Method.publishes_of_keeps kill_inert
  · split
    · exact Method.publishes_bind checkRegion_inert fun _ => release_publishes
    · split
      · apply Method.publishes_of_keeps
        exact Method.keeps_update_pure fun _ => rfl
      · exact Method.publishes_of_keeps kill_inert

theorem commitOutcome_publishes {actualParent payloadBound : Nat} {effect : Option EventKind} :
    Method.Publishes durable Release
      (commitOutcome actualParent effect payloadBound : Method (Executor π) _ _) := by
  apply Method.publishes_bind Method.keeps_read
  intro self
  apply Method.publishes_bind killIf_inert
  intro _
  apply Method.publishes_bind killIf_inert
  intro _
  apply Method.publishes_bind killIf_inert
  intro _
  exact commitChecked_publishes

theorem commitFenced_publishes {actualParent latest payloadBound : Nat}
    {effect : Option EventKind} :
    Method.Publishes durable Release
      (commitFenced actualParent latest effect payloadBound : Method (Executor π) _ _) := by
  apply Method.publishes_bind Method.keeps_read
  intro self
  apply Method.publishes_bind killIf_inert
  intro _
  exact commitOutcome_publishes

end Boundary

end Executor

end Model

end Llxprt.Transaction
