import Llxprt.Kernel.Moves
import Llxprt.Kernel.Replay

/-!
# What one event does to the governed records

The ledger, the security state, the semantic projection and the branches are
governed records: each of them moves by its own transition function, and an
erasure moves three of them at once.  The stages of a fold are the states after
each of its events, and every stage is reached from the one before it by a move.
-/

namespace Llxprt.Kernel

open Llxprt.Rust

/-- The records that the receipt-checked commits govern. -/
structure Governed where
  ledger : Ledger
  security : SecurityState
  semantic : SemanticState
  branches : BranchState

def TypedState.governed (state : TypedState) : Governed where
  ledger := state.ledger
  security := state.security
  semantic := state.semantic
  branches := state.branches

/-- An erasure moves the security state and lays its overlay over the projection
and the ledger. -/
def Governed.erase [Wire] (governed : Governed) (leaf : String) (security : SecurityState) :
    Governed where
  ledger := governed.ledger.redact leaf
  security := security
  semantic := governed.semantic.erase leaf
  branches := governed.branches

namespace Reducer

open Method

/-- Events that leave the governed records alone. -/
def ungovernedKind : EventKind → Bool
  | .append .. | .providerTurn .. => true
  | .operationCommit operationClass _ _ => operationClass ≠ .redact
  | .semantic _ | .branch _ | .security _ | .ledger _ => false

/-- A published artifact must not rest on an erased leaf. -/
def Supported (security : SecurityState) : SemanticEvent → Prop
  | .put _ validation =>
      ∀ leaves ∈ values validation.support, ∀ leaf ∈ leaves, leaf ∉ security.erased
  | _ => True

/-- The moves of the governed records. -/
inductive Governs [Wire] (sequence : Nat) : EventKind → Governed → Governed → Prop
  | kept {kind : EventKind} {governed : Governed} (isUngoverned : ungovernedKind kind = true) :
      Governs sequence kind governed governed
  | revoked {subject argument : UInt64} {governed : Governed} :
      Governs sequence (.operationCommit .redact subject argument) governed
        { governed with security := governed.security.revokeItem subject.toNat }
  | commanded {command : Command} {governed : Governed} {scopes : ScopeRegistry} {next : Ledger}
      (moved : Ledger.transition command sequence scopes governed.ledger = .ok next) :
      Governs sequence (.ledger command) governed { governed with ledger := next }
  | projected {event : SemanticEvent} {governed : Governed} {scopes : ScopeRegistry}
      {next : SemanticState} (supported : Supported governed.security event)
      (moved : SemanticState.transition event scopes governed.semantic = .ok next) :
      Governs sequence (.semantic event) governed { governed with semantic := next }
  | branched {event : BranchEvent} {governed : Governed} {constitution : BTreeMap String String}
      {next : BranchState}
      (moved : BranchState.transition event constitution governed.ledger.versions
        governed.branches = .ok next) :
      Governs sequence (.branch event) governed { governed with branches := next }
  | secured {event : SecurityEvent} {governed : Governed} {placed : BTreeSet Nat}
      {next : SecurityState} (noErasure : ∀ erasure, event ≠ .erase erasure)
      (moved : SecurityState.transition event sequence placed governed.security = .ok next) :
      Governs sequence (.security event) governed { governed with security := next }
  | erased {erasure : Erasure} {governed : Governed} {placed : BTreeSet Nat} {next : SecurityState}
      (moved : SecurityState.transition (.erase erasure) sequence placed governed.security =
        .ok next) :
      Governs sequence (.security (.erase erasure)) governed (governed.erase erasure.leaf next)

section Inversion

variable {state next : TypedState} {sequence : Nat}

/-- A method call on a part outside the governed records leaves them alone. -/
theorem governed_of_eq {α : Type} {transition : Transition α} {value : α}
    (frame : (transition state).2.governed = state.governed)
    (h : transition state = (.ok value, next)) : next.governed = state.governed := by
  rw [← frame, h]

theorem onIr_governed {α : Type} {method : Method ConversationIr IrError α} :
    (onIr method state).2.governed = state.governed :=
  rfl

theorem onScopes_governed {α : Type} {translate : ScopeError → ReducerError}
    {method : Method ScopeRegistry ScopeError α} :
    (onScopes translate method state).2.governed = state.governed :=
  rfl

theorem applyAppend_governed {source : AppendSource} {sanitized : Bytes} {scope : ScopeId}
    {claims : List SegmentClaim}
    (h : applyAppend sequence source sanitized scope claims state = (.ok (), next)) :
    next.governed = state.governed := by
  simp only [applyAppend, bind_eq_ok_iff, ofExcept_eq_ok, read_eq_ok, update_eq_ok,
    onIr_eq_ok] at h
  rcases h with ⟨_, _, ⟨_, rfl⟩, _, _, ⟨rfl, rfl⟩, _, _, ⟨_, rfl⟩, _, attributed, attributedOk, _, _,
    rfl, _, _, ⟨_, _, rfl⟩, rfl⟩
  have frame : attributed.governed = state.governed := governed_of_eq onScopes_governed attributedOk
  exact frame

theorem onLedger_eq_ok {method : Method Ledger LedgerError Unit} {value : Unit} :
    onLedger method state = (.ok value, next) ↔
      ∃ ledger, method state.ledger = (.ok value, ledger) ∧
        { state with ledger := ledger } = next := by
  simp [onLedger]

theorem applyLedger_governs [Wire] {command : Command}
    (h : applyLedger sequence command state = (.ok (), next)) :
    Governs sequence (.ledger command) state.governed next.governed := by
  have bodyOk : ledgerBody sequence command state = (.ok (), next) := by
    unfold applyLedger onClone at h
    rcases body : ledgerBody sequence command state with ⟨_ | _ | _, clone⟩
    · rw [body] at h
      exact h
    · simp [body] at h
    · simp [body] at h
  simp only [ledgerBody, bind_eq_ok_iff, read_eq_ok, update_eq_ok, onLedger_eq_ok] at bodyOk
  rcases bodyOk with ⟨_, middle, admitOk, _, _, ⟨rfl, rfl⟩, _, _, ⟨ledger, commandOk, rfl⟩, rfl⟩
  have frame : middle.governed = state.governed := by
    cases command with
    | factInvalidate result writes => exact applyAppend_governed admitOk
    | _ =>
        simp only [admitResult, pure_eq_ok_iff] at admitOk
        rw [admitOk.2]
  have moved : Ledger.transition command sequence middle.scopeRegistry middle.governed.ledger =
      .ok ledger := staged_apply_eq_ok.mp commandOk
  have published : ({ middle with ledger := ledger, version := middle.version + 1 } :
      TypedState).governed = { middle.governed with ledger := ledger } := rfl
  rw [frame] at moved published
  rw [published]
  exact .commanded moved

theorem commitRegistry_governed {subject argument latest : UInt64}
    {committed : TypedState → UInt64 → TypedState}
    (h : commitRegistry subject argument latest committed state = (.ok (), next))
    (frame : ∀ state version, (committed state version).governed = state.governed) :
    next.governed = state.governed := by
  simp only [commitRegistry, bind_eq_ok_iff, read_eq_ok, refuse_eq_ok, update_eq_ok] at h
  rcases h with ⟨_, _, ⟨rfl, rfl⟩, _, _, ⟨_, rfl⟩, _, _, ⟨_, rfl⟩, _, _, rfl, rfl⟩
  exact frame state subject

theorem applyOperation_governs [Wire] {operationClass : OperationClass} {subject argument : UInt64}
    (h : applyOperation sequence operationClass subject argument state = (.ok (), next)) :
    Governs sequence (.operationCommit operationClass subject argument) state.governed
      next.governed := by
  have still (isUngoverned : operationClass ≠ .redact) (frame : next.governed = state.governed) :
      Governs sequence (.operationCommit operationClass subject argument) state.governed
        next.governed := by
    rw [frame]
    exact .kept (decide_eq_true isUngoverned)
  cases operationClass with
  | scopeOpen =>
      simp only [applyOperation, openScope, bind_eq_ok_iff, update_eq_ok] at h
      rcases h with ⟨_, opened, openedOk, rfl⟩
      have frame : opened.governed = state.governed := governed_of_eq onScopes_governed openedOk
      exact still (by decide) frame
  | scopeCloseByEvent | scopeCloseByDeclaration =>
      exact still (by decide) (governed_of_eq onScopes_governed h)
  | resegment =>
      simp only [applyOperation, resegment, bind_eq_ok_iff, read_eq_ok, ofExcept_eq_ok,
        onIr_eq_ok, update_eq_ok] at h
      rcases h with ⟨_, _, ⟨rfl, rfl⟩, _, _, ⟨_, rfl⟩, _, _, ⟨_, rfl⟩, _, _, ⟨_, _, rfl⟩, rfl⟩
      exact still (by decide) rfl
  | place =>
      simp only [applyOperation, place, bind_eq_ok_iff, ofExcept_eq_ok, onIr_eq_ok] at h
      rcases h with ⟨_, _, ⟨_, rfl⟩, _, _, rfl⟩
      exact still (by decide) rfl
  | unplace => exact still (by decide) (governed_of_eq onIr_governed h)
  | lanePolicyUpdate =>
      simp only [applyOperation, updatePolicy, bind_eq_ok_iff, read_eq_ok, refuse_eq_ok,
        update_eq_ok] at h
      rcases h with ⟨_, _, ⟨rfl, rfl⟩, _, _, ⟨_, rfl⟩, _, _, ⟨_, rfl⟩, _, _, rfl, rfl⟩
      exact still (by decide) rfl
  | migrationSelect =>
      simp only [applyOperation, selectMigration, bind_eq_ok_iff, refuse_eq_ok, update_eq_ok] at h
      rcases h with ⟨_, _, ⟨_, rfl⟩, rfl⟩
      exact still (by decide) rfl
  | admitIngress =>
      simp only [applyOperation, admitIngress, bind_eq_ok_iff, update_eq_ok] at h
      rcases h with ⟨_, advanced, rfl, attributedOk⟩
      have frame := governed_of_eq onScopes_governed attributedOk
      exact still (by decide) frame
  | redact =>
      simp only [applyOperation, redactItem, bind_eq_ok_iff, update_eq_ok, onIr_eq_ok] at h
      rcases h with ⟨_, _, rfl, _, _, rfl, _, _, rfl⟩
      exact .revoked
  | ruleUpdate =>
      simp only [applyOperation, ruleUpdate] at h
      exact still (by decide) (commitRegistry_governed h fun _ _ => rfl)
  | vocabularyUpdate =>
      simp only [applyOperation, vocabularyUpdate] at h
      exact still (by decide) (commitRegistry_governed h fun _ _ => rfl)
  | storeMode =>
      simp only [applyOperation, commitStoreMode, bind_eq_ok_iff, refuse_eq_ok, update_eq_ok] at h
      rcases h with ⟨_, _, ⟨_, rfl⟩, rfl⟩
      exact still (by decide) rfl
  | quiesceUnwritable =>
      simp only [applyOperation, update_eq_ok] at h
      subst h
      exact still (by decide) rfl
  | pin | unpin | sanitize | importBytes | indexRebuild => simp [applyOperation] at h

variable [Wire]

theorem applySemantic_governs {event : SemanticEvent}
    (h : applySemantic event state = (.ok (), next)) :
    Governs sequence (.semantic event) state.governed next.governed := by
  simp only [applySemantic, bind_eq_ok_iff, read_eq_ok, refuse_eq_ok, onSemantic, mapErr_eq_ok,
    focus_eq_ok] at h
  rcases h with ⟨_, _, ⟨rfl, rfl⟩, _, _, ⟨clean, rfl⟩, semantic, moved, rfl⟩
  refine .projected ?_ (staged_apply_eq_ok.mp moved)
  cases event with
  | put command validation =>
      simp only [restsOnErased, List.any_eq_true, not_exists, not_and,
        Std.ExtTreeSet.mem_toList] at clean
      exact clean
  | flushNotes | reclassify | resegment => trivial

theorem applyBranch_governs {event : BranchEvent}
    (h : applyBranch event state = (.ok (), next)) :
    Governs sequence (.branch event) state.governed next.governed := by
  simp only [applyBranch, bind_eq_ok_iff, read_eq_ok, onBranches, mapErr_eq_ok, focus_eq_ok] at h
  rcases h with ⟨_, _, ⟨rfl, rfl⟩, branches, moved, rfl⟩
  exact .branched (staged_apply_eq_ok.mp moved)

theorem applySecurity_governs {event : SecurityEvent}
    (h : applySecurity event sequence state = (.ok (), next)) :
    Governs sequence (.security event) state.governed next.governed := by
  simp only [applySecurity, bind_eq_ok_iff, read_eq_ok, update_eq_ok, onSecurity, mapErr_eq_ok,
    focus_eq_ok] at h
  rcases h with ⟨_, _, ⟨rfl, rfl⟩, _, _, ⟨security, moved, rfl⟩, _, _, rfl, overlayOk⟩
  have transition := staged_apply_eq_ok.mp moved
  cases event with
  | erase erasure =>
      simp only [eraseOverlay, bind_eq_ok_iff, update_eq_ok, read_eq_ok, onLedger_eq_ok] at overlayOk
      rcases overlayOk with ⟨_, _, rfl, _, _, ⟨rfl, rfl⟩, ledger, redacted, rfl⟩
      cases redacted
      exact .erased transition
  | pin | unpin | expire | escalatePending | escalateComplete =>
      simp only [eraseOverlay, pure_eq_ok_iff] at overlayOk
      rw [← overlayOk.2]
      exact .secured (by simp) transition

/-- Every successful event is one of the moves. -/
theorem apply_governs {event : RecordedEvent} (h : apply event state = (.ok (), next)) :
    Governs event.sequence event.kind state.governed next.governed := by
  unfold apply at h
  cases kind : event.kind with
  | append source sanitized scope claims =>
      rw [kind] at h
      rw [applyAppend_governed h]
      exact .kept rfl
  | semantic semantic =>
      rw [kind] at h
      exact applySemantic_governs h
  | branch branch =>
      rw [kind] at h
      exact applyBranch_governs h
  | security security =>
      rw [kind] at h
      exact applySecurity_governs h
  | ledger command =>
      rw [kind] at h
      exact applyLedger_governs h
  | operationCommit operationClass subject argument =>
      rw [kind] at h
      exact applyOperation_governs h
  | providerTurn turn units =>
      rw [kind] at h
      simp only [pure_eq_ok_iff] at h
      rw [h.2]
      exact .kept rfl

end Inversion

end Reducer

end Llxprt.Kernel
