import Llxprt.Kernel.Branch.State
import Llxprt.Kernel.Events
import Llxprt.Kernel.Security.State
import Llxprt.Kernel.Validation.State

/-!
# Deterministic reducer

Folds a recorded event log into typed state.  Every transition is a method on
the state, so what a refused event leaves behind is part of the model.
-/

namespace Llxprt.Kernel

open Llxprt.Rust

def idlenessWindow : Nat := 32

def initialVersion : Nat := 1

def filterRuleLatestVersion : UInt64 := 1

def vocabularyLatestVersion : UInt64 := 1

def storeModeUnavailable : UInt64 := 3

/-- Quoting convention applied to verbatim lanes. -/
inductive QuotingConvention where
  | fenced
  | xmlDelimited
  deriving DecidableEq

def QuotingConvention.name : QuotingConvention → String
  | fenced => "fenced"
  | xmlDelimited => "xml-delimited"

/-- Errors raised while folding events. -/
inductive ReducerError where
  | branch (error : BranchError)
  | security (error : SecurityError)
  | semantic (error : GateError)
  | ledger (error : LedgerError)
  | ir (error : IrError)
  | scope (error : ScopeError)
  | policy (error : PolicyError)
  | unknownRegion (rank : UInt64)
  | versionConflict (claimedParent actual : Nat)
  | operationNotLanded (operation : String)
  | unsupportedVersion (requested latest : UInt64)
  | unknownStoreMode (found : UInt64)
  | storeVersion (state event : UInt64)
  | unknownScope (id : ScopeId)
  | migrationTarget (found : UInt64)
  deriving DecidableEq

/-- Everything the projection is derived from. -/
structure TypedState where
  branches : BranchState
  security : SecurityState
  semantic : SemanticState
  ledger : Ledger
  conversationIr : ConversationIr
  scopeRegistry : ScopeRegistry
  lanePolicyRegistry : LanePolicyRegistry
  version : Nat
  stateHash : Digest
  storeVersion : UInt64
  selectedStoreVersion : Option UInt64
  pins : List ItemId
  quotingConvention : QuotingConvention
  filterRuleVersion : UInt64
  vocabularyVersion : UInt64
  storeMode : UInt64
  quiesced : Bool
  sessionScope : ScopeId
  nextOffset : UInt64
  applied : List (Nat × Digest)
  deriving DecidableEq

namespace TypedState

/-- The state an empty log folds into. -/
def genesis (idlenessWindow : Nat) (storeVersion : UInt64) : TypedState where
  branches := .initial
  security := .initial
  semantic := .initial
  ledger := .initial
  conversationIr := .new
  scopeRegistry := .new idlenessWindow
  lanePolicyRegistry := .resolveOrLatest 1
  version := initialVersion
  stateHash := 0
  storeVersion := storeVersion
  selectedStoreVersion := none
  pins := []
  quotingConvention := .fenced
  filterRuleVersion := filterRuleLatestVersion
  vocabularyVersion := vocabularyLatestVersion
  storeMode := 1
  quiesced := false
  sessionScope := 0
  nextOffset := 0
  applied := []

/-- Whether an event identity has already been folded. -/
def isApplied (state : TypedState) (identity : Nat × Digest) : Bool :=
  state.applied.contains identity

section Encoding

variable [Wire]

/-- Replicated identities and metadata digests of the constitutional items. -/
def constitution (state : TypedState) : BTreeMap String String :=
  .ofList ((state.conversationIr.items.filter fun item => item.lane = .constitutional).map
    fun item =>
      (toString item.id.nameSpace.code ++ ":" ++ toString item.id.value,
        Wire.sha256 item.encode))

def encode (state : TypedState) : Bytes :=
  Sink.tag "typed-state" ++ Sink.count state.version ++ Sink.int state.storeVersion ++
    Sink.int state.nextOffset ++ state.branches.encode ++ state.security.encode ++
    state.semantic.encode ++ state.ledger.encode ++ state.conversationIr.encode ++
    state.scopeRegistry.encode ++ state.lanePolicyRegistry.encode ++
    Sink.tag state.quotingConvention.name ++ Sink.int state.filterRuleVersion ++
    Sink.int state.vocabularyVersion ++ Sink.int state.storeMode ++
    Sink.tag (if state.quiesced then "quiesced" else "live") ++
    Sink.int (state.selectedStoreVersion.getD 0) ++ state.pins.flatMap ItemId.encode

end Encoding

end TypedState

/-- A transition of the typed state. -/
abbrev Transition :=
  Method TypedState ReducerError

namespace Reducer

/-- Call a method of the conversation IR. -/
def onIr {α : Type} (method : Method ConversationIr IrError α) : Transition α :=
  Method.mapErr .ir (Method.focus TypedState.conversationIr
    (fun state ir => { state with conversationIr := ir }) method)

/-- Call a method of the scope registry. -/
def onScopes {α : Type} (translate : ScopeError → ReducerError)
    (method : Method ScopeRegistry ScopeError α) : Transition α :=
  Method.mapErr translate (Method.focus TypedState.scopeRegistry
    (fun state scopes => { state with scopeRegistry := scopes }) method)

/-- Call a method of the fact ledger. -/
def onLedger (method : Method Ledger LedgerError Unit) : Transition Unit :=
  Method.mapErr .ledger (Method.focus TypedState.ledger
    (fun state ledger => { state with ledger := ledger }) method)

/-- Call a method of the security state. -/
def onSecurity (method : Method SecurityState SecurityError Unit) : Transition Unit :=
  Method.mapErr .security (Method.focus TypedState.security
    (fun state security => { state with security := security }) method)

/-- Call a method of the semantic projection. -/
def onSemantic (method : Method SemanticState GateError Unit) : Transition Unit :=
  Method.mapErr .semantic (Method.focus TypedState.semantic
    (fun state semantic => { state with semantic := semantic }) method)

/-- Call a method of the branches. -/
def onBranches (method : Method BranchState BranchError Unit) : Transition Unit :=
  Method.mapErr .branch (Method.focus TypedState.branches
    (fun state branches => { state with branches := branches }) method)

/-- Lane of one claim: tool results stay evidential. -/
def claimLane (source : AppendSource) (structural : Option StructuralClass) (fallback : Lane) :
    Lane :=
  if source.isToolResult then .evidential
  else match structural with
    | some structural => .forStructuralClass structural
    | none => fallback

/-- The whole payload of an append. -/
def payload (sanitized : Bytes) : StoreRange :=
  ⟨0, UInt64.ofNat sanitized.length⟩

/-- Claims an append records; none means the whole payload as one claim. -/
def claimsOf (claims : List SegmentClaim) (sanitized : Bytes) (sequence : Nat) :
    Except ReducerError (List SegmentClaim) :=
  if claims = [] then
    .ok [⟨payload sanitized, none⟩]
  else if coversExactly (claims.map SegmentClaim.span) [payload sanitized] then
    .ok claims
  else
    .error (.ir (.claimsDontCover sequence))

/-- The item of one claim, at the current end of the spine. -/
def stagedItem (nextOffset : UInt64) (source : AppendSource) (scope : ScopeId) (value : Nat)
    (claim : SegmentClaim) : Item :=
  .new (.append value) (claimLane source claim.structural (structuralLane source))
    [⟨nextOffset + claim.span.offset, claim.span.length⟩] scope

/-- The staging loop: identifiers run up from the watermark without raising it. -/
def stageItems (ir : ConversationIr) (nextOffset : UInt64) (source : AppendSource)
    (scope : ScopeId) : Nat → List SegmentClaim → Except ReducerError (List Item)
  | _, [] => .ok []
  | value, claim :: claims => do
      reject (ir.items.any fun item => item.id = .append value) (.ir (.duplicateItem value))
      let staged ← stageItems ir nextOffset source scope (value + 1) claims
      return stagedItem nextOffset source scope value claim :: staged

/-- Attributes an item to an existing, open scope. -/
def attributeTo (scope : ScopeId) (sequence : Nat) : Transition Unit :=
  onScopes
    (fun error => match error with
      | .unknownScope id => .unknownScope id
      | other => .scope other)
    (ScopeRegistry.attributeItem scope sequence)

def applyAppend (sequence : Nat) (source : AppendSource) (sanitized : Bytes) (scope : ScopeId)
    (claims : List SegmentClaim) : Transition Unit := do
  let claims ← Method.ofExcept (claimsOf claims sanitized sequence)
  let state ← Method.read
  let watermark := state.conversationIr.namespaceWatermark .append
  let staged ← Method.ofExcept
    (stageItems state.conversationIr state.nextOffset source scope watermark claims)
  attributeTo scope sequence
  Method.update fun state =>
    { state with
      conversationIr := state.conversationIr.noteMintedId
        (.append (watermark + claims.length - 1)) }
  onIr (ConversationIr.insertAll staged)
  Method.update fun state =>
    { state with nextOffset := state.nextOffset + UInt64.ofNat sanitized.length }

/-- Admits an ingress transaction of `argument` bytes into the scope `subject`. -/
def admitIngress (sequence : Nat) (subject argument : UInt64) : Transition Unit := do
  Method.update fun state => { state with nextOffset := state.nextOffset + argument }
  attributeTo subject sequence

/-- Moves an item to the vault side: store-only and unpinned. -/
def redactItem (subject : UInt64) : Transition Unit := do
  Method.update fun state =>
    { state with security := state.security.revokeItem subject.toNat }
  Method.update fun state =>
    { state with pins := state.pins.filter fun pin => pin.value ≠ subject.toNat }
  onIr (ConversationIr.unplace (.new subject.toNat))

/-- Commits a registry-version row by compare-and-commit on the parent version. -/
def commitRegistry (subject argument latest : UInt64)
    (committed : TypedState → UInt64 → TypedState) : Transition Unit := do
  let state ← Method.read
  Method.refuse (argument.toNat ≠ state.version) (.versionConflict argument.toNat state.version)
  Method.refuse (subject = 0 ∨ latest < subject) (.unsupportedVersion subject latest)
  Method.update fun state => committed state subject
  Method.update fun state => { state with version := subject.toNat }

def ruleUpdate (subject argument : UInt64) : Transition Unit :=
  commitRegistry subject argument filterRuleLatestVersion
    fun state version => { state with filterRuleVersion := version }

def vocabularyUpdate (subject argument : UInt64) : Transition Unit :=
  commitRegistry subject argument vocabularyLatestVersion
    fun state version => { state with vocabularyVersion := version }

def commitStoreMode (subject : UInt64) : Transition Unit := do
  Method.refuse (¬ (1 ≤ subject ∧ subject ≤ storeModeUnavailable)) (.unknownStoreMode subject)
  Method.update fun state => { state with storeMode := subject }

/-- Commits a migration selection; the framing version is left alone. -/
def selectMigration (subject : UInt64) : Transition Unit := do
  Method.refuse (subject ≠ v2 ∧ subject ≠ v3) (.migrationTarget subject)
  Method.update fun state => { state with selectedStoreVersion := some subject }

/-- The child ranges a logged resegment requests. -/
def resegmentParts (subject : UInt64) (claims : List StoreRange) (parts : UInt64) :
    Except ReducerError (List (List StoreRange)) :=
  if 1 < claims.length then do
    reject (claims.length ≠ parts.toNat) (.ir (.claimBoundary subject.toNat))
    return claims.map fun claim => [claim]
  else
    .ok (sliceInto claims parts)

/-- Logged resegment of an item into `argument` parts. -/
def resegment (subject argument : UInt64) : Transition Unit := do
  let state ← Method.read
  let parent ← Method.ofExcept ((state.conversationIr.item (.new subject.toNat)).mapError .ir)
  let parts := if argument = 0 then 1 else argument
  let ranges ← Method.ofExcept (resegmentParts subject (normalize parent.provenance) parts)
  let _ ← onIr (ConversationIr.split (.new subject.toNat) ranges
    ⟨parts.toNat, ranges.map List.length⟩)
  Method.update fun state =>
    { state with nextOffset := max state.nextOffset parent.byteRange.endOffset }

def place (subject argument : UInt64) : Transition Unit := do
  let region ← Method.ofExcept (okOr (Region.fromRank argument) (.unknownRegion argument))
  onIr (ConversationIr.place (.new subject.toNat) region)

def updatePolicy (subject argument : UInt64) : Transition Unit := do
  let state ← Method.read
  Method.refuse (argument.toNat ≠ state.version) (.versionConflict argument.toNat state.version)
  Method.refuse (lanePolicyLatestVersion < subject)
    (.policy (.unsupportedVersion subject lanePolicyLatestVersion))
  Method.update fun state =>
    { state with lanePolicyRegistry := .resolveOrLatest subject }
  Method.update fun state => { state with version := subject.toNat }

/-- Opens a scope; the first scope opened becomes the session scope. -/
def openScope (sequence : Nat) (subject argument : UInt64) : Transition Unit := do
  onScopes .scope (ScopeRegistry.open subject (if argument = 0 then none else some argument)
    sequence)
  Method.update fun state =>
    { state with
      sessionScope := if state.sessionScope = 0 then subject else state.sessionScope }

def applyOperation (sequence : Nat) (operationClass : OperationClass)
    (subject argument : UInt64) : Transition Unit :=
  match operationClass with
  | .scopeOpen => openScope sequence subject argument
  | .scopeCloseByEvent => onScopes .scope (ScopeRegistry.closeByEvent subject sequence)
  | .scopeCloseByDeclaration =>
      onScopes .scope (ScopeRegistry.closeByDeclaration subject sequence)
  | .resegment => resegment subject argument
  | .place => place subject argument
  | .unplace => onIr (ConversationIr.unplace (.new subject.toNat))
  | .pin | .unpin => Method.fail (.security .authority)
  | .lanePolicyUpdate => updatePolicy subject argument
  | .migrationSelect => selectMigration subject
  | .admitIngress => admitIngress sequence subject argument
  | .sanitize | .importBytes | .indexRebuild =>
      Method.fail (.operationNotLanded operationClass.name)
  | .redact => redactItem subject
  | .ruleUpdate => ruleUpdate subject argument
  | .vocabularyUpdate => vocabularyUpdate subject argument
  | .storeMode => commitStoreMode subject
  | .quiesceUnwritable => Method.update fun state => { state with quiesced := true }

/-- Admission of the result that a tool write carries. -/
def admitResult (sequence : Nat) : Command → Transition Unit
  | .factInvalidate result _ =>
      applyAppend sequence (.toolResult result.callId result.tool) result.sanitized result.scope []
  | _ => pure ()

/-- What a ledger event does to its clone: result admission, then the command. -/
def ledgerBody (sequence : Nat) (command : Command) : Transition Unit := do
  admitResult sequence command
  let state ← Method.read
  onLedger (Ledger.apply command sequence state.scopeRegistry)
  Method.update fun state => { state with version := state.version + 1 }

/-- Publish the clone only when the body returned normally. -/
def onClone (body : Transition Unit) : Transition Unit :=
  fun state =>
    match body state with
    | (.ok value, next) => (.ok value, next)
    | (.err error, _) => (.err error, state)
    | (.panic, _) => (.panic, state)

def applyLedger (sequence : Nat) (command : Command) : Transition Unit :=
  onClone (ledgerBody sequence command)

section Events

variable [Wire]

/-- Values of the placed items, in any namespace. -/
def placedValues (state : TypedState) : BTreeSet Nat :=
  .ofList ((state.conversationIr.items.filter fun item => item.region.isSome).map
    fun item => item.id.value)

/-- The overlay that an erasure lays over the projection and the ledger. -/
def eraseOverlay (sequence : Nat) : SecurityEvent → Transition Unit
  | .erase erasure => do
      Method.update fun state => { state with semantic := state.semantic.erase erasure.leaf }
      let state ← Method.read
      onLedger (Ledger.apply (.redact erasure.leaf) sequence state.scopeRegistry)
  | _ => pure ()

def applySecurity (event : SecurityEvent) (sequence : Nat) : Transition Unit := do
  let state ← Method.read
  onSecurity (SecurityState.apply event sequence (placedValues state))
  Method.update fun state =>
    { state with pins := state.security.pins.keys.map ItemId.new }
  eraseOverlay sequence event

/-- Whether a published artifact would rest on an erased leaf. -/
def restsOnErased (state : TypedState) : SemanticEvent → Bool
  | .put _ validation =>
      (values validation.support).any fun leaves =>
        leaves.toList.any fun leaf => state.security.erased.contains leaf
  | _ => false

def applySemantic (event : SemanticEvent) : Transition Unit := do
  let state ← Method.read
  Method.refuse (restsOnErased state event) (.security .erasure)
  onSemantic (SemanticState.apply event state.scopeRegistry)

def applyBranch (event : BranchEvent) : Transition Unit := do
  let state ← Method.read
  onBranches (BranchState.apply event state.constitution state.ledger.versions)

/-- Applies one recorded event. -/
def apply (event : RecordedEvent) : Transition Unit :=
  match event.kind with
  | .append source sanitized scope claims =>
      applyAppend event.sequence source sanitized scope claims
  | .semantic semantic => applySemantic semantic
  | .branch branch => applyBranch branch
  | .security security => applySecurity security event.sequence
  | .ledger command => applyLedger event.sequence command
  | .operationCommit operationClass subject argument =>
      applyOperation event.sequence operationClass subject argument
  | .providerTurn .. => pure ()

/-- Canonical hash of a state, inside the state hash scope. -/
@[irreducible]
def hash (state : TypedState) : Digest :=
  HashScope.state.digest state.encode

/-- One turn of the fold loop. -/
def foldEvent (event : RecordedEvent) : Transition Unit := do
  let state ← Method.read
  if state.isApplied event.identity then
    return ()
  Method.refuse (event.storeVersion ≠ state.storeVersion)
    (.storeVersion state.storeVersion event.storeVersion)
  apply event
  Method.update fun state => { state with applied := state.applied ++ [event.identity] }

/-- The fold loop. -/
def foldEvents : List RecordedEvent → Transition Unit
  | [] => pure ()
  | event :: events => do
      foldEvent event
      foldEvents events

/-- Recompute the state hash. -/
def rehash (state : TypedState) : TypedState :=
  { state with stateHash := hash state }

/-- Folds `log` into an existing state, skipping identities already applied. -/
def foldFrom (log : EventLog) : Transition Unit := do
  foldEvents log.events
  Method.update rehash

/-- Folds an entire log into a fresh state. -/
def fold (idlenessWindow : Nat) (log : EventLog) : Outcome ReducerError TypedState :=
  match foldFrom log (.genesis idlenessWindow log.storeVersion) with
  | (.ok _, state) => .ok (rehash state)
  | (.err error, _) => .err error
  | (.panic, _) => .panic

end Events

end Reducer

end Llxprt.Kernel
