import Llxprt.Transaction.Executor

/-!
# Receipt-checked semantic commits

The validation gate and the derivation ingress are services of the session and
may answer anything.  A receipt is minted only after the gate has passed the
exact candidate and ingress has admitted its exact bytes.
-/

namespace Llxprt.Kernel

open Llxprt.Rust

/-- Answers of the ingress and operator-envelope owner. -/
structure Authorization where
  adoptionAuthenticated : Adoption → Bool

/-- Validation-time check of a lane authority. -/
def LaneAuthority.check (authority : LaneAuthority) (lane : UInt8) (scope : ScopeId)
    (record : ValidationRecord) (authenticatedLeaf : String → Option Leaf)
    (authorization : Option Authorization) : Bool :=
  let direct := (authenticatedLeaf authority.source.leaf).any fun leaf =>
    leaf.isIngress && leaf.source = authority.source && leaf.source.scope = scope &&
      minimum lane ≤ leaf.source.authority && !record.support.isEmpty &&
      (values record.support).all fun leaves => leaves.contains leaf.id
  let adopted := authority.adoption.any fun adoption =>
    adoption.candidateDigest = record.candidateDigest && adoption.lane = lane &&
      adoption.scope = scope && adoption.principal.scope = scope &&
      adoption.principal.origin = .ingress && minimum lane ≤ adoption.principal.authority &&
      authorization.any fun owner => owner.adoptionAuthenticated adoption
  direct || adopted

/-- The fact that a live obligation binds a candidate to. -/
def Entry.boundFact (entry : Entry) : BoundFact where
  statement := entry.fold.text
  subject := entry.id.subject
  predicate := entry.id.predicate
  scope := entry.id.scope
  command := "\n".intercalate entry.bindings.toList
  negated := false
  temporal := ""

/-- Whether a fact of a protected lane must survive into `scope`. -/
def mustSurvive (registry : LanePolicyRegistry) (scope : ScopeId) (lane : Lane)
    (fact : BoundFact) : Bool :=
  (match registry.policy lane with
    | .ok policy => policy.survival = .protectedSpan || policy.survival = .required
    | .error _ => false) &&
    (lane = .constitutional || fact.scope = scope)

/-- The facts that a candidate has to carry, in order and without repetition. -/
def deterministicRequired (ledger : Ledger) (items : List (Lane × BoundFact))
    (patterns : List BoundFact) (registry : LanePolicyRegistry) (scope : ScopeId) :
    List BoundFact :=
  let surviving := (items.filter fun item => mustSurvive registry scope item.1 item.2).map Prod.snd
  let obligations := ((values ledger.entries).filter Entry.isLiveObligation).map Entry.boundFact
  (Std.ExtTreeSet.ofList (patterns ++ surviving ++ obligations) compare).toList

/-- Facts that the protected lanes render. -/
def SemanticState.protectedFacts (state : SemanticState) : List (Lane × BoundFact) :=
  ((values state.artifacts).filter fun artifact =>
    artifact.rendered && artifact.command.lane ≤ 2).flatMap fun artifact =>
      artifact.command.candidate.rendered.map fun fact =>
        (if artifact.command.lane = 1 then .constitutional else .decisional, fact)

end Llxprt.Kernel

namespace Llxprt.Transaction

open Llxprt.Rust Llxprt.Kernel

inductive CaptureSource where
  | userPrompt
  | toolResult
  | toolCall
  | assistant
  | generatedArtifact
  | imported
  deriving DecidableEq

/-- One admitted record: its source, handle and bytes, and whether it went to
the vault and to the spine. -/
structure IngressRecord where
  source : CaptureSource
  handle : String
  bytes : Bytes
  vault : Bool
  spine : Bool

/-- What the validation owners and the derivation ingress answer during one
call. -/
structure SemanticServices where
  gate : Candidate → List BoundFact → List BoundFact → Except GateError ValidationRecord
  authorization : Option Authorization
  required : List BoundFact
  alwaysChecked : List BoundFact
  authenticatedLeaf : String → Option Leaf
  ingress : String → Bytes → Option (List IngressRecord)

inductive SemanticError where
  | rejected (record : ValidationRecord)
  | gate (error : GateError)
  | boundary
  | replay (error : ReducerError)
  | transaction (error : ExecutorError)

structure SemanticReceipt where
  event : SemanticEvent
  bound : Nat

/-- Exactly one record, generated, unquarantined, placed and byte for byte the
artifact. -/
def exactDerivation (records : List IngressRecord) (artifact : String) :
    Except SemanticError IngressRecord :=
  match records with
  | [record] => do
      reject (record.source ≠ .generatedArtifact ∨ record.bytes ≠ utf8 artifact ∨ record.vault ∨
        ¬ record.spine) .boundary
      return record
  | _ => .error .boundary

/-- The protected lanes require an authority. -/
def checkLaneAuthority (command : SemanticCommand) (record : ValidationRecord)
    (services : SemanticServices) : Except SemanticError Unit :=
  reject (command.lane ≤ 2 ∧ ¬ command.authority.any fun authority =>
    authority.check command.lane command.candidate.scope record services.authenticatedLeaf
      services.authorization) .boundary

namespace Executor

variable [Wire] {π : Type}

def checkSemanticOperation (self : Executor π) (op : String) : Except SemanticError Unit := do
  let txn ← okOr self.current .boundary
  reject (txn.op ≠ op ∨ self.proposedBy.isNone) .boundary

/-- The state that the event would commit. -/
def semanticCandidate (event : SemanticEvent) : Method (Executor π) SemanticError TypedState :=
  candidate (.semantic event) (some .boundary) .replay

/-- Universal validation of a semantic event; reclamation is never waived. -/
def validateSemanticEvent [AccountingPort π] (event : SemanticEvent) (budget : Budget) :
    Method (Executor π) SemanticError Nat := do
  let candidate ← semanticCandidate event
  let self ← Method.read
  let bytes := (Wire.semanticEvent event).length
  let bound ← Method.ofExcept (okOr (self.portBound bytes) .boundary)
  let before := self.typed.semantic.renderedBytes
  let after := candidate.semantic.renderedBytes
  let _ ← Method.mapErr .transaction
    (validate bound budget candidate.ledger.obligationBytes before after bytes)
  let row ← Method.ofExcept (okOr (Operation.find event.operation) .boundary)
  Method.refuse (¬ fits bound budget ∨ (row.reclamation ∧ before - after < row.bar)) .boundary
  return bound

/-- Record the validated event and mint its receipt. -/
def mintSemantic [AccountingPort π] (event : SemanticEvent) (budget : Budget) :
    Method (Executor π) SemanticError SemanticReceipt := do
  let bound ← validateSemanticEvent event budget
  Method.update fun self => { self with semanticValidation := some (event, bound) }
  return ⟨event, bound⟩

/-- Gate verdict, lane authority and derivation ingress of a command. -/
def admitDerivation (self : Executor π) (command : SemanticCommand)
    (services : SemanticServices) : Except SemanticError SemanticEvent := do
  self.checkSemanticOperation command.operation.name
  let floor := deterministicRequired self.typed.ledger self.typed.semantic.protectedFacts
    services.required self.typed.lanePolicyRegistry command.candidate.scope
  let record ← (services.gate command.candidate floor services.alwaysChecked).mapError .gate
  reject (record.verdict ≠ .pass) (.rejected record)
  checkLaneAuthority command record services
  let records ← okOr
    (services.ingress command.operation.name (utf8 command.candidate.artifact)) .boundary
  let admitted ← exactDerivation records command.candidate.artifact
  return .put { command with storeHandle := admitted.handle } record

/-- No governed publication before gate, ingress and budget have passed. -/
def validateSemantic [AccountingPort π] (command : SemanticCommand) (services : SemanticServices)
    (budget : Budget) : Method (Executor π) SemanticError SemanticReceipt :=
  Method.orElse (do
    let self ← Method.read
    let event ← Method.ofExcept (self.admitDerivation command services)
    mintSemantic event budget) fail

def isPut : SemanticEvent → Bool
  | .put .. => true
  | _ => false

/-- Deterministic projection operations reuse the same gates. -/
def validateProjection [AccountingPort π] (event : SemanticEvent) (budget : Budget) :
    Method (Executor π) SemanticError SemanticReceipt :=
  Method.orElse (do
    Method.refuse (isPut event) .boundary
    let self ← Method.read
    Method.ofExcept (self.checkSemanticOperation event.operation)
    mintSemantic event budget) fail

/-- Redeems the receipt of the validated event. -/
def commitSemantic (actualParent latest : Nat) (receipt : SemanticReceipt) :
    Method (Executor π) SemanticError CommitOutcome :=
  Method.orElse (do
    let self ← Method.read
    Method.ofExcept (self.checkSemanticOperation receipt.event.operation)
    Method.refuse (self.epoch < latest) (.transaction (.fenced latest self.epoch))
    Method.refuse (self.semanticValidation ≠ some (receipt.event, receipt.bound)) .boundary
    let candidate ← semanticCandidate receipt.event
    let _ ← Method.ofExcept ((isLegal candidate self.contract).mapError
      fun violation => .transaction (illegality violation))
    Method.mapErr .transaction
      (commitChecked actualParent (some (.semantic receipt.event)) receipt.bound)) fail

theorem validateSemanticEvent_inert [AccountingPort π] {event : SemanticEvent} {budget : Budget} :
    Inert (validateSemanticEvent event budget : Method (Executor π) _ _) := by
  apply Method.keeps_bind candidate_inert
  intro candidate
  apply Method.keeps_read_bind
  intro self
  apply Method.keeps_ofExcept_bind
  intro bound
  apply Method.keeps_bind (Method.keeps_mapErr validate_inert)
  intro _
  apply Method.keeps_ofExcept_bind
  intro row
  apply Method.keeps_refuse_bind
  exact Method.keeps_pure

theorem mintSemantic_inert [AccountingPort π] {event : SemanticEvent} {budget : Budget} :
    Inert (mintSemantic event budget : Method (Executor π) _ _) := by
  apply Method.keeps_bind validateSemanticEvent_inert
  intro bound
  exact Method.keeps_update_pure fun _ => rfl

theorem validateSemantic_inert [AccountingPort π] {command : SemanticCommand}
    {services : SemanticServices} {budget : Budget} :
    Inert (validateSemantic command services budget : Method (Executor π) _ _) := by
  apply orFail_inert
  apply Method.keeps_read_bind
  intro self
  exact Method.keeps_bind Method.keeps_ofExcept fun _ => mintSemantic_inert

theorem validateProjection_inert [AccountingPort π] {event : SemanticEvent} {budget : Budget} :
    Inert (validateProjection event budget : Method (Executor π) _ _) := by
  apply orFail_inert
  apply Method.keeps_refuse_bind
  apply Method.keeps_read_bind
  intro self
  exact Method.keeps_bind Method.keeps_ofExcept fun _ => mintSemantic_inert

theorem commitSemantic_publishes {actualParent latest : Nat} {receipt : SemanticReceipt} :
    Method.Publishes durable Release
      (commitSemantic actualParent latest receipt : Method (Executor π) _ _) := by
  apply Method.publishes_orElse
  · apply Method.publishes_bind Method.keeps_read
    intro self
    apply Method.publishes_bind Method.keeps_ofExcept
    intro _
    apply Method.publishes_bind Method.keeps_refuse
    intro _
    apply Method.publishes_bind Method.keeps_refuse
    intro _
    apply Method.publishes_bind candidate_inert
    intro candidate
    apply Method.publishes_bind Method.keeps_ofExcept
    intro _
    exact Method.publishes_mapErr commitChecked_publishes
  · intro self
    rfl

end Executor

end Llxprt.Transaction
