import Llxprt.Kernel.Reducer

/-!
# What one event can do

The invariants of the kernel concern the conversation IR, the spine offset and
the version fields.  Every successful event moves this core of the state in one
of the ways listed below, and each invariant is a case analysis over the list.
-/

namespace Llxprt.Kernel

open Llxprt.Rust

/-- The part of the state that the kernel invariants are about. -/
structure Core where
  conversationIr : ConversationIr
  nextOffset : UInt64
  version : Nat
  selectedStoreVersion : Option UInt64
  storeVersion : UInt64

def TypedState.core (state : TypedState) : Core where
  conversationIr := state.conversationIr
  nextOffset := state.nextOffset
  version := state.version
  selectedStoreVersion := state.selectedStoreVersion
  storeVersion := state.storeVersion

namespace Reducer

open Method

/-- Operation classes that leave the core alone or are always refused. -/
def quietOperation : OperationClass → Bool
  | .scopeOpen | .scopeCloseByEvent | .scopeCloseByDeclaration | .pin | .unpin | .sanitize
  | .importBytes | .indexRebuild | .storeMode | .quiesceUnwritable => true
  | .resegment | .place | .unplace | .lanePolicyUpdate | .migrationSelect | .admitIngress
  | .redact | .ruleUpdate | .vocabularyUpdate => false

/-- Events that leave the core alone. -/
def quietKind : EventKind → Bool
  | .semantic _ | .branch _ | .security _ | .providerTurn .. => true
  | .operationCommit operationClass _ _ => quietOperation operationClass
  | .append .. | .ledger _ => false

/-- Operation classes that commit against a claimed parent version, with the
lowest and the highest version they accept. -/
def versionedOperation : OperationClass → Option (UInt64 × UInt64)
  | .ruleUpdate => some (1, filterRuleLatestVersion)
  | .vocabularyUpdate => some (1, vocabularyLatestVersion)
  | .lanePolicyUpdate => some (0, lanePolicyLatestVersion)
  | _ => none

/-- A committed append turns `ir` into `next`. -/
def Appends (ir : ConversationIr) (nextOffset : UInt64) (sequence : Nat) (source : AppendSource)
    (sanitized : Bytes) (scope : ScopeId) (claims : List SegmentClaim)
    (next : ConversationIr) : Prop :=
  ∃ segmented staged, claimsOf claims sanitized sequence = .ok segmented ∧
    stageItems ir nextOffset source scope ir.nextAppendId segmented = .ok staged ∧
    ConversationIr.insertAll staged
      (ir.noteMintedId (.append (ir.nextAppendId + segmented.length - 1))) = (.ok (), next)

/-- A committed resegment turns `ir` into `next`, leaving the spine at `offset`. -/
def Resegments (ir : ConversationIr) (nextOffset : UInt64) (subject argument : UInt64)
    (next : ConversationIr) (offset : UInt64) : Prop :=
  ∃ parent ranges children, ir.item (.new subject.toNat) = .ok parent ∧
    resegmentParts subject (normalize parent.provenance)
      (if argument = 0 then 1 else argument) = .ok ranges ∧
    ConversationIr.split (.new subject.toNat) ranges
      ⟨(if argument = 0 then 1 else argument).toNat, ranges.map List.length⟩ ir =
        (.ok children, next) ∧
    offset = max nextOffset parent.byteRange.endOffset

/-- The moves of the core. -/
inductive Moves (sequence : Nat) : EventKind → Core → Core → Prop
  | quiet {kind : EventKind} {core : Core} (isQuiet : quietKind kind = true) :
      Moves sequence kind core core
  | appended {source : AppendSource} {sanitized : Bytes} {scope : ScopeId}
      {claims : List SegmentClaim} {core : Core} {next : ConversationIr}
      (appends : Appends core.conversationIr core.nextOffset sequence source sanitized scope claims
        next) :
      Moves sequence (.append source sanitized scope claims) core
        { core with
          conversationIr := next
          nextOffset := core.nextOffset + UInt64.ofNat sanitized.length }
  | invalidated {result : ToolWrite} {writes : BTreeMap String UInt64} {core : Core}
      {next : ConversationIr}
      (appends : Appends core.conversationIr core.nextOffset sequence
        (.toolResult result.callId result.tool) result.sanitized result.scope [] next) :
      Moves sequence (.ledger (.factInvalidate result writes)) core
        { core with
          conversationIr := next
          nextOffset := core.nextOffset + UInt64.ofNat result.sanitized.length
          version := core.version + 1 }
  | commanded {command : Command} {core : Core}
      (noResult : ∀ result writes, command ≠ .factInvalidate result writes) :
      Moves sequence (.ledger command) core { core with version := core.version + 1 }
  | placed {subject argument : UInt64} {region : Region} {core : Core} {next : ConversationIr}
      (places : ConversationIr.place (.new subject.toNat) region core.conversationIr =
        (.ok (), next)) :
      Moves sequence (.operationCommit .place subject argument) core
        { core with conversationIr := next }
  | unplaced {operationClass : OperationClass} {subject argument : UInt64} {core : Core}
      {next : ConversationIr} (isUnplace : operationClass = .unplace ∨ operationClass = .redact)
      (unplaces : ConversationIr.unplace (.new subject.toNat) core.conversationIr =
        (.ok (), next)) :
      Moves sequence (.operationCommit operationClass subject argument) core
        { core with conversationIr := next }
  | resegmented {subject argument : UInt64} {core : Core} {next : ConversationIr}
      {offset : UInt64}
      (resegments : Resegments core.conversationIr core.nextOffset subject argument next offset) :
      Moves sequence (.operationCommit .resegment subject argument) core
        { core with conversationIr := next, nextOffset := offset }
  | admitted {subject argument : UInt64} {core : Core} :
      Moves sequence (.operationCommit .admitIngress subject argument) core
        { core with nextOffset := core.nextOffset + argument }
  | versioned {operationClass : OperationClass} {subject argument low high : UInt64} {core : Core}
      (isVersioned : versionedOperation operationClass = some (low, high))
      (parent : argument.toNat = core.version) (supported : low ≤ subject ∧ subject ≤ high) :
      Moves sequence (.operationCommit operationClass subject argument) core
        { core with version := subject.toNat }
  | selected {subject argument : UInt64} {core : Core}
      (known : subject = v2 ∨ subject = v3) :
      Moves sequence (.operationCommit .migrationSelect subject argument) core
        { core with selectedStoreVersion := some subject }

section Inversion

variable {state next : TypedState} {sequence : Nat}

theorem onIr_eq_ok {α : Type} {method : Method ConversationIr IrError α} {value : α} :
    onIr method state = (.ok value, next) ↔
      ∃ ir, method state.conversationIr = (.ok value, ir) ∧
        { state with conversationIr := ir } = next := by
  simp [onIr]

theorem onScopes_core {α : Type} {translate : ScopeError → ReducerError}
    {method : Method ScopeRegistry ScopeError α} :
    (onScopes translate method state).2.core = state.core :=
  rfl

theorem onSecurity_core {method : Method SecurityState SecurityError Unit} :
    (onSecurity method state).2.core = state.core :=
  rfl

theorem onSemantic_core {method : Method SemanticState GateError Unit} :
    (onSemantic method state).2.core = state.core :=
  rfl

theorem onBranches_core {method : Method BranchState BranchError Unit} :
    (onBranches method state).2.core = state.core :=
  rfl

theorem onLedger_core {method : Method Ledger LedgerError Unit} :
    (onLedger method state).2.core = state.core :=
  rfl

/-- A method call on a part outside the core leaves the core alone. -/
theorem core_of_eq {α : Type} {transition : Transition α} {value : α}
    (frame : (transition state).2.core = state.core)
    (h : transition state = (.ok value, next)) : next.core = state.core := by
  rw [← frame, h]

theorem applyAppend_eq_ok {source : AppendSource} {sanitized : Bytes} {scope : ScopeId}
    {claims : List SegmentClaim}
    (h : applyAppend sequence source sanitized scope claims state = (.ok (), next)) :
    ∃ ir, Appends state.conversationIr state.nextOffset sequence source sanitized scope claims ir ∧
      next.core = { state.core with
        conversationIr := ir
        nextOffset := state.nextOffset + UInt64.ofNat sanitized.length } := by
  simp only [applyAppend, bind_eq_ok_iff, ofExcept_eq_ok, read_eq_ok, update_eq_ok,
    onIr_eq_ok] at h
  rcases h with ⟨segmented, _, ⟨claimsOk, rfl⟩, _, _, ⟨rfl, rfl⟩, staged, _, ⟨stagedOk, rfl⟩, _,
    attributed, attributedOk, _, _, rfl, _, _, ⟨ir, insertedOk, rfl⟩, rfl⟩
  have frame : attributed.core = state.core := core_of_eq onScopes_core attributedOk
  have sameIr : attributed.conversationIr = state.conversationIr :=
    congrArg Core.conversationIr frame
  have sameOffset : attributed.nextOffset = state.nextOffset := congrArg Core.nextOffset frame
  rw [sameIr] at insertedOk
  refine ⟨ir, ⟨segmented, staged, claimsOk, stagedOk, insertedOk⟩, ?_⟩
  simp only [TypedState.core] at frame ⊢
  rw [sameOffset]
  injection frame with _ _ version selected store
  rw [version, selected, store]

theorem applyLedger_moves {command : Command}
    (h : applyLedger sequence command state = (.ok (), next)) :
    Moves sequence (.ledger command) state.core next.core := by
  have bodyOk : ledgerBody sequence command state = (.ok (), next) := by
    unfold applyLedger onClone at h
    rcases body : ledgerBody sequence command state with ⟨_ | _ | _, clone⟩
    · rw [body] at h
      exact h
    · simp [body] at h
    · simp [body] at h
  simp only [ledgerBody, bind_eq_ok_iff, read_eq_ok, update_eq_ok] at bodyOk
  rcases bodyOk with ⟨_, middle, admitOk, _, _, ⟨rfl, rfl⟩, _, commanded, commandOk, rfl⟩
  have frame : commanded.core = middle.core := core_of_eq onLedger_core commandOk
  have bumped : ({ commanded with version := commanded.version + 1 } : TypedState).core =
      { middle.core with version := middle.core.version + 1 } := by
    rw [← frame]
    rfl
  rw [bumped]
  cases command with
  | factInvalidate result writes =>
      rcases applyAppend_eq_ok admitOk with ⟨ir, appends, admitted⟩
      rw [admitted]
      exact .invalidated appends
  | _ =>
      simp only [admitResult, pure_eq_ok_iff] at admitOk
      rcases admitOk with ⟨_, rfl⟩
      exact .commanded (by simp)

theorem resegment_moves {subject argument : UInt64}
    (h : resegment subject argument state = (.ok (), next)) :
    Moves sequence (.operationCommit .resegment subject argument) state.core next.core := by
  simp only [resegment, bind_eq_ok_iff, read_eq_ok, ofExcept_eq_ok, mapError_eq_ok, onIr_eq_ok,
    update_eq_ok] at h
  rcases h with ⟨_, _, ⟨rfl, rfl⟩, parent, _, ⟨found, rfl⟩, ranges, _, ⟨rangesOk, rfl⟩, children, _,
    ⟨ir, splitOk, rfl⟩, rfl⟩
  exact .resegmented ⟨parent, ranges, children, found, rangesOk, splitOk, rfl⟩

theorem commitRegistry_moves {operationClass : OperationClass} {subject argument latest : UInt64}
    {committed : TypedState → UInt64 → TypedState}
    (isVersioned : versionedOperation operationClass = some (1, latest))
    (h : commitRegistry subject argument latest committed state = (.ok (), next))
    (frame : ∀ state version, (committed state version).core = state.core) :
    Moves sequence (.operationCommit operationClass subject argument) state.core next.core := by
  simp only [commitRegistry, bind_eq_ok_iff, read_eq_ok, refuse_eq_ok, update_eq_ok, not_or,
    not_not] at h
  rcases h with ⟨_, _, ⟨rfl, rfl⟩, _, _, ⟨parent, rfl⟩, _, _, ⟨⟨positive, bounded⟩, rfl⟩, _, _, rfl,
    rfl⟩
  have moved : ({ committed state subject with version := subject.toNat } : TypedState).core =
      { state.core with version := subject.toNat } := by
    rw [← frame state subject]
    rfl
  rw [moved]
  refine .versioned isVersioned parent ⟨?_, UInt64.not_lt.mp bounded⟩
  rw [UInt64.le_iff_toNat_le]
  have nonzero : subject.toNat ≠ 0 := fun zero => positive (UInt64.toNat_inj.mp zero)
  change 1 ≤ subject.toNat
  omega

theorem updatePolicy_moves {subject argument : UInt64}
    (h : updatePolicy subject argument state = (.ok (), next)) :
    Moves sequence (.operationCommit .lanePolicyUpdate subject argument) state.core
      next.core := by
  simp only [updatePolicy, bind_eq_ok_iff, read_eq_ok, refuse_eq_ok, update_eq_ok, not_not] at h
  rcases h with ⟨_, _, ⟨rfl, rfl⟩, _, _, ⟨parent, rfl⟩, _, _, ⟨bounded, rfl⟩, _, _, rfl, rfl⟩
  refine .versioned rfl parent ⟨?_, UInt64.not_lt.mp bounded⟩
  rw [UInt64.le_iff_toNat_le]
  exact Nat.zero_le _

theorem openScope_core {subject argument : UInt64}
    (h : openScope sequence subject argument state = (.ok (), next)) :
    next.core = state.core := by
  simp only [openScope, bind_eq_ok_iff, update_eq_ok] at h
  rcases h with ⟨_, opened, openedOk, rfl⟩
  have frame : opened.core = state.core := core_of_eq onScopes_core openedOk
  exact frame

theorem applyOperation_moves {operationClass : OperationClass} {subject argument : UInt64}
    (h : applyOperation sequence operationClass subject argument state = (.ok (), next)) :
    Moves sequence (.operationCommit operationClass subject argument) state.core next.core := by
  have still (isQuiet : quietOperation operationClass = true) (frame : next.core = state.core) :
      Moves sequence (.operationCommit operationClass subject argument) state.core next.core := by
    rw [frame]
    exact .quiet isQuiet
  cases operationClass with
  | scopeOpen => exact still rfl (openScope_core h)
  | scopeCloseByEvent => exact still rfl (core_of_eq onScopes_core h)
  | scopeCloseByDeclaration => exact still rfl (core_of_eq onScopes_core h)
  | resegment => exact resegment_moves h
  | place =>
      simp only [applyOperation, place, bind_eq_ok_iff, ofExcept_eq_ok, onIr_eq_ok] at h
      rcases h with ⟨region, _, ⟨_, rfl⟩, ir, placesOk, rfl⟩
      exact .placed placesOk
  | unplace =>
      rcases onIr_eq_ok.mp h with ⟨ir, unplacesOk, rfl⟩
      exact .unplaced (.inl rfl) unplacesOk
  | lanePolicyUpdate => exact updatePolicy_moves h
  | migrationSelect =>
      simp only [applyOperation, selectMigration, bind_eq_ok_iff, refuse_eq_ok, update_eq_ok] at h
      rcases h with ⟨_, _, ⟨known, rfl⟩, rfl⟩
      refine .selected ?_
      by_contra unknown
      exact known (not_or.mp unknown)
  | admitIngress =>
      simp only [applyOperation, admitIngress, bind_eq_ok_iff, update_eq_ok] at h
      rcases h with ⟨_, advanced, rfl, attributedOk⟩
      rw [core_of_eq onScopes_core attributedOk]
      exact .admitted
  | redact =>
      simp only [applyOperation, redactItem, bind_eq_ok_iff, update_eq_ok, onIr_eq_ok] at h
      rcases h with ⟨_, _, rfl, _, _, rfl, ir, unplacesOk, rfl⟩
      exact .unplaced (.inr rfl) unplacesOk
  | ruleUpdate =>
      simp only [applyOperation, ruleUpdate] at h
      exact commitRegistry_moves rfl h fun _ _ => rfl
  | vocabularyUpdate =>
      simp only [applyOperation, vocabularyUpdate] at h
      exact commitRegistry_moves rfl h fun _ _ => rfl
  | storeMode =>
      simp only [applyOperation, commitStoreMode, bind_eq_ok_iff, refuse_eq_ok, update_eq_ok] at h
      rcases h with ⟨_, _, ⟨_, rfl⟩, rfl⟩
      exact still rfl rfl
  | quiesceUnwritable =>
      simp only [applyOperation, update_eq_ok] at h
      subst h
      exact still rfl rfl
  | pin | unpin | sanitize | importBytes | indexRebuild => simp [applyOperation] at h

variable [Wire]

theorem eraseOverlay_core {event : SecurityEvent}
    (h : eraseOverlay sequence event state = (.ok (), next)) : next.core = state.core := by
  cases event with
  | erase erasure =>
      simp only [eraseOverlay, bind_eq_ok_iff, update_eq_ok, read_eq_ok] at h
      rcases h with ⟨_, _, rfl, _, _, ⟨rfl, rfl⟩, ledgerOk⟩
      have frame := core_of_eq onLedger_core ledgerOk
      exact frame
  | _ =>
      simp only [eraseOverlay, pure_eq_ok_iff] at h
      rw [h.2]

theorem applySecurity_core {event : SecurityEvent}
    (h : applySecurity event sequence state = (.ok (), next)) : next.core = state.core := by
  simp only [applySecurity, bind_eq_ok_iff, read_eq_ok, update_eq_ok] at h
  rcases h with ⟨_, _, ⟨rfl, rfl⟩, _, secured, securedOk, _, pinned, rfl, overlayOk⟩
  have frame : secured.core = state.core := core_of_eq onSecurity_core securedOk
  rw [eraseOverlay_core overlayOk]
  exact frame

theorem applySemantic_core {event : SemanticEvent}
    (h : applySemantic event state = (.ok (), next)) : next.core = state.core := by
  simp only [applySemantic, bind_eq_ok_iff, read_eq_ok, refuse_eq_ok] at h
  rcases h with ⟨_, _, ⟨rfl, rfl⟩, _, _, ⟨_, rfl⟩, semanticOk⟩
  exact core_of_eq onSemantic_core semanticOk

theorem applyBranch_core {event : BranchEvent}
    (h : applyBranch event state = (.ok (), next)) : next.core = state.core := by
  simp only [applyBranch, bind_eq_ok_iff, read_eq_ok] at h
  rcases h with ⟨_, _, ⟨rfl, rfl⟩, branchOk⟩
  exact core_of_eq onBranches_core branchOk

/-- Every successful event is one of the moves. -/
theorem apply_moves {event : RecordedEvent} (h : apply event state = (.ok (), next)) :
    Moves event.sequence event.kind state.core next.core := by
  unfold apply at h
  cases kind : event.kind with
  | append source sanitized scope claims =>
      rw [kind] at h
      rcases applyAppend_eq_ok h with ⟨ir, appends, moved⟩
      rw [moved]
      exact .appended appends
  | semantic semantic =>
      rw [kind] at h
      rw [applySemantic_core h]
      exact .quiet rfl
  | branch branch =>
      rw [kind] at h
      rw [applyBranch_core h]
      exact .quiet rfl
  | security security =>
      rw [kind] at h
      rw [applySecurity_core h]
      exact .quiet rfl
  | ledger command =>
      rw [kind] at h
      exact applyLedger_moves h
  | operationCommit operationClass subject argument =>
      rw [kind] at h
      exact applyOperation_moves h
  | providerTurn turn units =>
      rw [kind] at h
      simp only [pure_eq_ok_iff] at h
      rw [h.2]
      exact .quiet rfl

end Inversion

end Reducer

end Llxprt.Kernel
