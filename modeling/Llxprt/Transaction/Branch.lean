import Llxprt.Transaction.Semantic

/-!
# Receipt-checked branch commits
-/

namespace Llxprt.Transaction

open Llxprt.Rust Llxprt.Kernel

/-- Authenticated harness and ingress records. -/
structure BranchPorts where
  principalAuthenticated : Source → String → Bool
  spawnAuthenticated : Spawn → Bool
  roundAuthenticated : String → Round → Bool

inductive BranchCommitError where
  | boundary
  | replay (error : ReducerError)
  | transaction (error : ExecutorError)
  | gate (error : GateError)

structure BranchReceipt where
  event : BranchEvent
  bound : Nat
  principal : Source

/-- Namespace that an event is about. -/
def eventNamespace : BranchEvent → String
  | .openBranch spawn => spawn.nameSpace
  | .roundBranch nameSpace _ | .returnBranch nameSpace _ | .abortBranch nameSpace => nameSpace

/-- Whether the ports answer for an event and its principal. -/
def authenticateBranch (event : BranchEvent) (principal : Source) (ports : BranchPorts) :
    Except BranchCommitError Unit :=
  let scopeValid : Bool := match event with
    | .openBranch spawn => spawn.scope = principal.scope
    | _ => true
  let recorded : Bool := match event with
    | .openBranch spawn => ports.spawnAuthenticated spawn
    | .roundBranch nameSpace round => ports.roundAuthenticated nameSpace round
    | _ => true
  reject (¬ (scopeValid ∧ principal.origin = .ingress ∧ .agent ≤ principal.authority ∧
    ports.principalAuthenticated principal (eventNamespace event) ∧ recorded)) .boundary

namespace Executor

variable [Wire] {π : Type}

/-- Scope of the branch that an event is about. -/
def eventScope (self : Executor π) : BranchEvent → Option ScopeId
  | .openBranch spawn => some spawn.scope
  | .roundBranch nameSpace _ | .returnBranch nameSpace _ | .abortBranch nameSpace =>
      self.typed.branches.branches[nameSpace]?.map fun branch => branch.spawn.scope

/-- The principal acts inside the open scope of the branch. -/
def branchScope (self : Executor π) (event : BranchEvent) (principal : Source) :
    Except BranchCommitError Unit :=
  reject (self.eventScope event ≠ some principal.scope ∨
    ¬ self.typed.scopeRegistry.isOpen principal.scope) .boundary

/-- Keys of the artifacts that are not rendered. -/
def unrenderedNotes (state : SemanticState) : BTreeSet String :=
  .ofList ((state.artifacts.toList.filter fun artifact => !artifact.2.rendered).map Prod.fst)

/-- A spawn is bound to the governed store version and to the notes. -/
def checkSpawn (self : Executor π) : BranchEvent → Except BranchCommitError Unit
  | .openBranch spawn =>
      reject (spawn.parentVersion ≠ self.typed.storeVersion.toNat ∨
        spawn.notes ≠ unrenderedNotes self.typed.semantic) .boundary
  | _ => .ok ()

/-- The state that the event would commit. -/
def branchCandidate (event : BranchEvent) : Method (Executor π) BranchCommitError TypedState := do
  let self ← Method.read
  Method.ofExcept (self.checkSpawn event)
  candidate (.branch event) (some .boundary) .replay

/-- The checks that mint a branch receipt. -/
def branchReceipt [AccountingPort π] (event : BranchEvent) (principal : Source)
    (budget : Budget) : Method (Executor π) BranchCommitError BranchReceipt := do
  let self ← Method.read
  Method.refuse ((self.current.all fun txn => txn.op ≠ event.operation) ∨
    self.proposedBy.isNone) .boundary
  let candidate ← branchCandidate event
  let _ ← Method.ofExcept ((isLegal candidate self.contract).mapError fun _ => .boundary)
  let bytes := (Wire.branchEvent event).length
  let bound ← Method.ofExcept (okOr (self.portBound bytes) .boundary)
  let _ ← Method.mapErr .transaction (validate bound budget 0 0 0 bytes)
  Method.refuse (¬ fits bound budget) .boundary
  Method.update fun self => { self with branchValidation := some (event, bound) }
  return ⟨event, bound, principal⟩

def isReturn : BranchEvent → Bool
  | .returnBranch .. => true
  | _ => false

/-- Every effect but a return is authenticated against recorded events. -/
def validateBranch [AccountingPort π] (event : BranchEvent) (principal : Source)
    (ports : BranchPorts) (budget : Budget) :
    Method (Executor π) BranchCommitError BranchReceipt :=
  Method.orElse (do
    Method.refuse (isReturn event) .boundary
    let self ← Method.read
    Method.ofExcept (self.branchScope event principal)
    Method.ofExcept (authenticateBranch event principal ports)
    branchReceipt event principal budget) fail

/-- Gate verdict and derivation ingress of a returned artifact. -/
def admitReturn (self : Executor π) (nameSpace : String) (candidate : Candidate)
    (principal : Source) (services : SemanticServices) (ports : BranchPorts) :
    Except BranchCommitError BranchEvent := do
  reject (principal.origin ≠ .ingress ∨ ¬ .agent ≤ principal.authority ∨
    ¬ ports.principalAuthenticated principal nameSpace ∨ candidate.scope ≠ principal.scope)
    .boundary
  let branch ← okOr self.typed.branches.branches[nameSpace]? .boundary
  reject (branch.spawn.scope ≠ candidate.scope ∨ candidate.rendered ≠ []) .boundary
  let record ← (services.gate candidate services.required services.alwaysChecked).mapError .gate
  reject (record.verdict ≠ .pass) .boundary
  let records ← okOr (services.ingress "branch-return" (utf8 candidate.artifact)) .boundary
  let admitted ← (exactDerivation records candidate.artifact).mapError fun _ => .boundary
  let (status, revalidate) ← (self.typed.branches.returnStatus nameSpace
    self.typed.ledger.versions).mapError fun _ => .boundary
  return .returnBranch nameSpace {
    handle := admitted.handle
    digest := Wire.sha256 (utf8 candidate.artifact)
    status := status
    revalidate := revalidate }

/-- A return is always evidential: gate pass and exact ingress mint it. -/
def validateBranchReturn [AccountingPort π] (nameSpace : String) (candidate : Candidate)
    (principal : Source) (services : SemanticServices) (ports : BranchPorts) (budget : Budget) :
    Method (Executor π) BranchCommitError BranchReceipt :=
  Method.orElse (do
    let self ← Method.read
    let event ← Method.ofExcept
      (self.admitReturn nameSpace candidate principal services ports)
    branchReceipt event principal budget) fail

/-- The checks that redeem a branch receipt. -/
def redeemBranch (parent latest : Nat) (receipt : BranchReceipt) (ports : BranchPorts) :
    Method (Executor π) BranchCommitError CommitOutcome := do
  let self ← Method.read
  Method.ofExcept (self.branchScope receipt.event receipt.principal)
  Method.ofExcept (authenticateBranch receipt.event receipt.principal ports)
  Method.refuse (self.epoch < latest ∨
    self.branchValidation ≠ some (receipt.event, receipt.bound) ∨
    (self.current.all fun txn => txn.op ≠ receipt.event.operation)) .boundary
  let _ ← branchCandidate receipt.event
  Method.mapErr .transaction (commitChecked parent (some (.branch receipt.event)) receipt.bound)

/-- A receipt is consumed whether or not it is redeemed. -/
def commitBranch (parent latest : Nat) (receipt : BranchReceipt) (ports : BranchPorts) :
    Method (Executor π) BranchCommitError CommitOutcome :=
  ((redeemBranch parent latest receipt ports).andThen
    fun self => { self with branchValidation := none }).orElse fail

theorem branchCandidate_inert {event : BranchEvent} :
    Inert (branchCandidate event : Method (Executor π) _ _) := by
  apply Method.keeps_read_bind
  intro self
  apply Method.keeps_ofExcept_bind
  intro _
  exact candidate_inert

theorem branchReceipt_inert [AccountingPort π] {event : BranchEvent} {principal : Source}
    {budget : Budget} : Inert (branchReceipt event principal budget : Method (Executor π) _ _) := by
  apply Method.keeps_read_bind
  intro self
  apply Method.keeps_refuse_bind
  apply Method.keeps_bind branchCandidate_inert
  intro candidate
  apply Method.keeps_ofExcept_bind
  intro _
  apply Method.keeps_ofExcept_bind
  intro bound
  apply Method.keeps_bind (Method.keeps_mapErr validate_inert)
  intro _
  apply Method.keeps_refuse_bind
  exact Method.keeps_update_pure fun _ => rfl

theorem validateBranch_inert [AccountingPort π] {event : BranchEvent} {principal : Source}
    {ports : BranchPorts} {budget : Budget} :
    Inert (validateBranch event principal ports budget : Method (Executor π) _ _) := by
  apply orFail_inert
  apply Method.keeps_refuse_bind
  apply Method.keeps_read_bind
  intro self
  apply Method.keeps_ofExcept_bind
  intro _
  apply Method.keeps_ofExcept_bind
  intro _
  exact branchReceipt_inert

theorem validateBranchReturn_inert [AccountingPort π] {nameSpace : String}
    {candidate : Candidate} {principal : Source} {services : SemanticServices}
    {ports : BranchPorts} {budget : Budget} :
    Inert (validateBranchReturn nameSpace candidate principal services ports budget :
      Method (Executor π) _ _) := by
  apply orFail_inert
  apply Method.keeps_read_bind
  intro self
  exact Method.keeps_bind Method.keeps_ofExcept fun _ => branchReceipt_inert

theorem redeemBranch_publishes {parent latest : Nat} {receipt : BranchReceipt}
    {ports : BranchPorts} :
    Method.Publishes durable Release
      (redeemBranch parent latest receipt ports : Method (Executor π) _ _) := by
  apply Method.publishes_bind Method.keeps_read
  intro self
  apply Method.publishes_bind Method.keeps_ofExcept
  intro _
  apply Method.publishes_bind Method.keeps_ofExcept
  intro _
  apply Method.publishes_bind Method.keeps_refuse
  intro _
  apply Method.publishes_bind branchCandidate_inert
  intro _
  exact Method.publishes_mapErr commitChecked_publishes

theorem commitBranch_publishes {parent latest : Nat} {receipt : BranchReceipt}
    {ports : BranchPorts} :
    Method.Publishes durable Release
      (commitBranch parent latest receipt ports : Method (Executor π) _ _) :=
  Method.publishes_orElse (Method.publishes_andThen redeemBranch_publishes fun _ => rfl)
    fun _ => rfl

end Executor

end Llxprt.Transaction
