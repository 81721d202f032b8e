import Llxprt.Kernel.Identifiers
import Llxprt.Rust.Atomicity

/-!
# Refused events

Most transitions check before they change anything, or work on a clone.  Two of
them mutate first: ingress admission advances the spine before it looks at the
scope, and redaction drops pins before it looks for the item.
-/

namespace Llxprt.Kernel

open Llxprt.Rust Method

/-- Nothing has changed unless the method returned normally. -/
abbrev Refuses {σ ε α : Type} (method : Method σ ε α) (self : σ) : Prop :=
  Atomic (fun state => state) method self

namespace ScopeRegistry

variable {registry : ScopeRegistry} {id : ScopeId} {sequence : Nat}

theorem open_refuses {parent : Option ScopeId} :
    Refuses (ScopeRegistry.open id parent sequence) registry := by
  unfold ScopeRegistry.open
  apply atomic_bind_check read_kept
  intro self _
  cases parent with
  | none =>
      dsimp only
      split
      · exact atomic_of_total (total_pure _)
      · exact atomic_of_total (total_update _)
  | some parentId =>
      apply atomic_bind_check (ofExcept_kept _)
      intro _ _
      split
      · exact atomic_of_total (total_pure _)
      · exact atomic_of_total (total_update _)

theorem close_refuses {state : ScopeState} : Refuses (close id sequence state) registry := by
  unfold close
  apply atomic_bind_check read_kept
  intro self _
  apply atomic_bind_check (ofExcept_kept _)
  intro scope _
  apply atomic_bind_check (refuse_kept _ _)
  intro _ _
  exact atomic_of_total (total_update _)

theorem attributeItem_refuses : Refuses (attributeItem id sequence) registry := by
  unfold attributeItem
  apply atomic_bind_check read_kept
  intro self _
  apply atomic_bind_check (ofExcept_kept _)
  intro scope _
  apply atomic_bind_check (refuse_kept _ _)
  intro _ _
  exact atomic_of_total (total_update _)

theorem attributeItem_of_open (opened : registry.isOpen id = true) :
    Total (attributeItem id sequence) registry := by
  unfold isOpen ScopeRegistry.state at opened
  unfold attributeItem
  cases found : registry.scope id with
  | error error =>
      rw [found] at opened
      cases opened
  | ok scope =>
      rw [found] at opened
      have stillOpen : scope.state.isOpen = true := opened
      apply total_bind (read_apply registry)
      apply total_bind (ofExcept_eq_ok.mpr ⟨found, rfl⟩)
      exact total_bind (refuse_of_not (not_not.mpr stillOpen) registry) (total_update _)

theorem attributeItem_of_not_open (sequence : Nat) (notOpen : ¬ registry.isOpen id = true) :
    ∃ error, attributeItem id sequence registry = (.err error, registry) := by
  unfold isOpen ScopeRegistry.state at notOpen
  unfold attributeItem
  rw [bind_of_ok (read_apply registry)]
  cases found : registry.scope id with
  | error error => exact ⟨error, rfl⟩
  | ok scope =>
      rw [found] at notOpen
      have closed : ¬ scope.state.isOpen = true := notOpen
      refine ⟨.closedScope id, ?_⟩
      rw [bind_of_ok (ofExcept_eq_ok.mpr ⟨rfl, rfl⟩), bind_of_err]
      rw [refuse_apply, if_pos closed]

end ScopeRegistry

namespace ConversationIr

variable {ir : ConversationIr} {id : ItemId}

theorem place_refuses {region : Region} : Refuses (ConversationIr.place id region) ir := by
  unfold ConversationIr.place
  apply atomic_bind_check read_kept
  intro self _
  apply atomic_bind_check (ofExcept_kept _)
  intro item _
  exact atomic_of_total rfl

theorem unplace_refuses : Refuses (ConversationIr.unplace id) ir := by
  unfold ConversationIr.unplace
  apply atomic_bind_check read_kept
  intro self _
  apply atomic_bind_check (ofExcept_kept _)
  intro item _
  exact atomic_of_total rfl

/-- Past its checks a split of a well-formed IR cannot fail. -/
theorem split_refuses {parts : List (List StoreRange)} {contract : SplitContract}
    (wellFormed : ir.WellFormed) : Refuses (split id parts contract) ir := by
  unfold split
  apply atomic_bind_check read_kept
  rintro _ ⟨⟩
  apply atomic_bind_check (ofExcept_kept _)
  intro parent found
  apply atomic_bind_check (ofExcept_kept _)
  intro _ checked
  have whole := split_of_checked wellFormed (ofExcept_eq_ok.mp found).1 (ofExcept_eq_ok.mp checked).1
  rw [split, bind_of_ok (read_apply ir), bind_of_ok found, bind_of_ok checked] at whole
  exact atomic_of_total (total_of_eq whole)

theorem unplace_of_present (present : ∃ item ∈ ir.items, item.id = id) :
    Total (ConversationIr.unplace id) ir := by
  unfold ConversationIr.unplace ConversationIr.item
  cases found : ir.items.find? fun item => item.id = id with
  | none =>
      rcases present with ⟨item, member, same⟩
      exact absurd (decide_eq_true same) (List.find?_eq_none.mp found item member)
  | some item =>
      apply total_bind (read_apply ir)
      exact total_bind (ofExcept_eq_ok.mpr ⟨by rw [found]; rfl, rfl⟩) rfl

theorem unplace_of_absent (absent : ¬ ∃ item ∈ ir.items, item.id = id) :
    ConversationIr.unplace id ir = (.err (.unknownItem id.value), ir) := by
  have notFound : (ir.items.find? fun item => item.id = id) = none := by
    apply List.find?_eq_none.mpr
    intro item member same
    exact absent ⟨item, member, of_decide_eq_true same⟩
  unfold ConversationIr.unplace ConversationIr.item
  rw [bind_of_ok (read_apply ir), notFound]
  rfl

end ConversationIr

namespace Reducer

section Parts

variable {state : TypedState}

theorem onIr_refuses {α : Type} {method : Method ConversationIr IrError α}
    (refuses : Refuses method state.conversationIr) : Refuses (onIr method) state :=
  atomic_mapErr (atomic_focus rfl refuses)

theorem onScopes_refuses {α : Type} {translate : ScopeError → ReducerError}
    {method : Method ScopeRegistry ScopeError α} (refuses : Refuses method state.scopeRegistry) :
    Refuses (onScopes translate method) state :=
  atomic_mapErr (atomic_focus rfl refuses)

theorem attributeTo_refuses {scope : ScopeId} {sequence : Nat} :
    Refuses (attributeTo scope sequence) state :=
  onScopes_refuses ScopeRegistry.attributeItem_refuses

end Parts

section Transitions

variable {state : TypedState} {sequence : Nat}

theorem applyAppend_refuses {source : AppendSource} {sanitized : Bytes} {scope : ScopeId}
    {claims : List SegmentClaim} (wellFormed : state.conversationIr.WellFormed) :
    Refuses (applyAppend sequence source sanitized scope claims) state := by
  unfold applyAppend
  apply atomic_bind_check (ofExcept_kept _)
  intro segmented segmentedOk
  have nonempty := claimsOf_ne_nil (ofExcept_eq_ok.mp segmentedOk).1
  apply atomic_bind_check read_kept
  rintro _ ⟨⟩
  apply atomic_bind_check (ofExcept_kept _)
  intro staged stagedOk
  rw [stageItems_eq_ok wellFormed (ofExcept_eq_ok.mp stagedOk).1]
  apply atomic_bind_total attributeTo_refuses
  intro _ attributed attributedOk
  have sameIr : attributed.conversationIr = state.conversationIr :=
    congrArg Core.conversationIr (core_of_eq onScopes_core attributedOk)
  apply total_bind (update_apply _ attributed)
  rw [sameIr]
  exact total_bind (onIr_eq_ok.mpr ⟨_, insertAll_staged wellFormed nonempty, rfl⟩) (total_update _)

theorem resegment_refuses {subject argument : UInt64}
    (wellFormed : state.conversationIr.WellFormed) : Refuses (resegment subject argument) state := by
  unfold resegment
  apply atomic_bind_check read_kept
  rintro _ ⟨⟩
  apply atomic_bind_check (ofExcept_kept _)
  intro parent _
  apply atomic_bind_check (ofExcept_kept _)
  intro ranges _
  apply atomic_bind_total (onIr_refuses (ConversationIr.split_refuses wellFormed))
  intro _ _ _
  exact total_update _

/-- Ingress admission is half applied when it moves the spine and the scope is
not open. -/
theorem admitIngress_refuses {subject argument : UInt64}
    (h : ¬ (argument ≠ 0 ∧ ¬ state.scopeRegistry.isOpen subject = true)) :
    Refuses (admitIngress sequence subject argument) state := by
  by_cases isOpen : state.scopeRegistry.isOpen subject = true
  · apply atomic_of_total
    apply total_bind (update_apply _ state)
    exact total_mapErr (ScopeRegistry.attributeItem_of_open isOpen)
  · have nothing : argument = 0 := by
      by_contra moves
      exact h ⟨moves, isOpen⟩
    have still : ({ state with nextOffset := state.nextOffset + argument } : TypedState) = state := by
      rw [nothing, UInt64.add_zero]
    unfold admitIngress
    apply atomic_bind_check
    · rw [update_apply, still]
    · intro _ _
      exact attributeTo_refuses

theorem admitIngress_half {subject argument : UInt64} (moves : argument ≠ 0)
    (notOpen : ¬ state.scopeRegistry.isOpen subject = true) :
    ∃ error next, admitIngress sequence subject argument state = (.err error, next) ∧
      next ≠ state := by
  rcases ScopeRegistry.attributeItem_of_not_open sequence notOpen with ⟨error, refused⟩
  let advanced : TypedState := { state with nextOffset := state.nextOffset + argument }
  have failed : ∃ error, admitIngress sequence subject argument state = (.err error, advanced) := by
    unfold admitIngress
    rw [bind_of_ok (update_apply _ state)]
    exact ⟨_, mapErr_of_err (focus_of_err refused)⟩
  rcases failed with ⟨error, failed⟩
  refine ⟨error, advanced, failed, ?_⟩
  intro same
  have offsets : state.nextOffset + argument = state.nextOffset :=
    congrArg TypedState.nextOffset same
  exact moves (by simpa using offsets)

/-- The pins of an item value, in both places they are kept. -/
def pinned (state : TypedState) (value : Nat) : Prop :=
  value ∈ state.security.pins ∨ ∃ pin ∈ state.pins, pin.value = value

theorem redactItem_refuses {subject : UInt64}
    (h : ¬ ((¬ ∃ item ∈ state.conversationIr.items, item.id = .new subject.toNat) ∧
      pinned state subject.toNat)) :
    Refuses (redactItem subject) state := by
  by_cases present : ∃ item ∈ state.conversationIr.items, item.id = .new subject.toNat
  · apply atomic_of_total
    apply total_bind (update_apply _ state)
    apply total_bind (update_apply _ _)
    exact total_mapErr (ConversationIr.unplace_of_present present)
  · have unpinned : ¬ pinned state subject.toNat := fun isPinned => h ⟨present, isPinned⟩
    rcases not_or.mp unpinned with ⟨noPin, noMark⟩
    have sameSecurity : state.security.revokeItem subject.toNat = state.security := by
      rw [SecurityState.revokeItem, erase_of_not_mem noPin]
    have samePins : (state.pins.filter fun pin => pin.value ≠ subject.toNat) = state.pins := by
      apply List.filter_eq_self.mpr
      intro pin member
      exact decide_eq_true fun same => noMark ⟨pin, member, same⟩
    unfold redactItem
    apply atomic_bind_check
    · rw [update_apply, sameSecurity]
    · intro _ _
      apply atomic_bind_check
      · rw [update_apply, samePins]
      · intro _ _
        exact onIr_refuses ConversationIr.unplace_refuses

theorem redactItem_half {subject : UInt64}
    (absent : ¬ ∃ item ∈ state.conversationIr.items, item.id = .new subject.toNat)
    (isPinned : pinned state subject.toNat) :
    ∃ error next, redactItem subject state = (.err error, next) ∧ next ≠ state := by
  let revoked : TypedState :=
    { state with
      security := state.security.revokeItem subject.toNat
      pins := state.pins.filter fun pin => pin.value ≠ subject.toNat }
  have failed : redactItem subject state = (.err (.ir (.unknownItem subject.toNat)), revoked) := by
    unfold redactItem
    rw [bind_of_ok (update_apply _ state), bind_of_ok (update_apply _ _)]
    exact mapErr_of_err (focus_of_err (ConversationIr.unplace_of_absent absent))
  refine ⟨_, revoked, failed, ?_⟩
  intro same
  rcases isPinned with held | ⟨pin, member, sameValue⟩
  · have sameSecurity : state.security.revokeItem subject.toNat = state.security :=
      congrArg TypedState.security same
    rw [← sameSecurity] at held
    simp [SecurityState.revokeItem] at held
  · have filtered : (state.pins.filter fun pin => pin.value ≠ subject.toNat) = state.pins :=
      congrArg TypedState.pins same
    have kept := List.filter_eq_self.mp filtered pin member
    exact of_decide_eq_true kept sameValue

theorem commitRegistry_refuses {subject argument latest : UInt64}
    {committed : TypedState → UInt64 → TypedState} :
    Refuses (commitRegistry subject argument latest committed) state := by
  unfold commitRegistry
  apply atomic_bind_check read_kept
  intro _ _
  apply atomic_bind_check (refuse_kept _ _)
  intro _ _
  apply atomic_bind_check (refuse_kept _ _)
  intro _ _
  exact atomic_of_total rfl

theorem updatePolicy_refuses {subject argument : UInt64} :
    Refuses (updatePolicy subject argument) state := by
  unfold updatePolicy
  apply atomic_bind_check read_kept
  intro _ _
  apply atomic_bind_check (refuse_kept _ _)
  intro _ _
  apply atomic_bind_check (refuse_kept _ _)
  intro _ _
  exact atomic_of_total rfl

theorem applyLedger_refuses {command : Command} : Refuses (applyLedger sequence command) state := by
  unfold applyLedger onClone
  intro failed
  rcases body : ledgerBody sequence command state with ⟨_ | _ | _, next⟩
  · simp only [body] at failed
    cases failed
  · simp only [body]
  · simp only [body]

theorem openScope_refuses {subject argument : UInt64} :
    Refuses (openScope sequence subject argument) state := by
  apply atomic_bind_total (onScopes_refuses ScopeRegistry.open_refuses)
  intro _ _ _
  exact total_update _

/-- The events whose refusal leaves something behind. -/
def HalfApplies (state : TypedState) : EventKind → Prop
  | .operationCommit .admitIngress subject argument =>
      argument ≠ 0 ∧ ¬ state.scopeRegistry.isOpen subject = true
  | .operationCommit .redact subject _ =>
      (¬ ∃ item ∈ state.conversationIr.items, item.id = .new subject.toNat) ∧
        pinned state subject.toNat
  | _ => False

theorem applyOperation_refuses {operationClass : OperationClass} {subject argument : UInt64}
    (wellFormed : state.conversationIr.WellFormed)
    (whole : ¬ HalfApplies state (.operationCommit operationClass subject argument)) :
    Refuses (applyOperation sequence operationClass subject argument) state := by
  cases operationClass with
  | scopeOpen => exact openScope_refuses
  | scopeCloseByEvent => exact onScopes_refuses ScopeRegistry.close_refuses
  | scopeCloseByDeclaration => exact onScopes_refuses ScopeRegistry.close_refuses
  | resegment => exact resegment_refuses wellFormed
  | place =>
      apply atomic_bind_check (ofExcept_kept _)
      intro region _
      exact onIr_refuses ConversationIr.place_refuses
  | unplace => exact onIr_refuses ConversationIr.unplace_refuses
  | lanePolicyUpdate => exact updatePolicy_refuses
  | migrationSelect =>
      apply atomic_bind_check (refuse_kept _ _)
      intro _ _
      exact atomic_of_total (total_update _)
  | admitIngress => exact admitIngress_refuses whole
  | redact => exact redactItem_refuses whole
  | ruleUpdate => exact commitRegistry_refuses
  | vocabularyUpdate => exact commitRegistry_refuses
  | storeMode =>
      apply atomic_bind_check (refuse_kept _ _)
      intro _ _
      exact atomic_of_total (total_update _)
  | quiesceUnwritable => exact atomic_of_total (total_update _)
  | pin | unpin | sanitize | importBytes | indexRebuild => exact atomic_of_kept rfl

variable [Wire]

/-- The overlay of an erasure never fails. -/
theorem eraseOverlay_total {event : SecurityEvent} : Total (eraseOverlay sequence event) state := by
  cases event <;> rfl

theorem applySecurity_refuses {event : SecurityEvent} :
    Refuses (applySecurity event sequence) state := by
  unfold applySecurity
  apply atomic_bind_check read_kept
  intro _ _
  apply atomic_bind_total (atomic_mapErr (atomic_focus rfl (atomic_staged _)))
  intro _ secured _
  exact total_bind (update_apply _ secured) eraseOverlay_total

theorem applySemantic_refuses {event : SemanticEvent} : Refuses (applySemantic event) state := by
  unfold applySemantic
  apply atomic_bind_check read_kept
  intro _ _
  apply atomic_bind_check (refuse_kept _ _)
  intro _ _
  exact atomic_mapErr (atomic_focus rfl (atomic_staged _))

theorem applyBranch_refuses {event : BranchEvent} : Refuses (applyBranch event) state := by
  unfold applyBranch
  apply atomic_bind_check read_kept
  intro _ _
  exact atomic_mapErr (atomic_focus rfl (atomic_staged _))

/-- Every event that is not half applied is refused as a whole. -/
theorem apply_refuses {event : RecordedEvent} (wellFormed : state.conversationIr.WellFormed)
    (whole : ¬ HalfApplies state event.kind) : Refuses (apply event) state := by
  unfold apply
  cases kind : event.kind with
  | append => exact applyAppend_refuses wellFormed
  | semantic => exact applySemantic_refuses
  | branch => exact applyBranch_refuses
  | security => exact applySecurity_refuses
  | ledger => exact applyLedger_refuses
  | operationCommit =>
      rw [kind] at whole
      exact applyOperation_refuses wellFormed whole
  | providerTurn => exact atomic_of_total (total_pure _)

/-- A half-applied event is refused and leaves something behind. -/
theorem apply_half {event : RecordedEvent} (half : HalfApplies state event.kind) :
    ∃ error next, apply event state = (.err error, next) ∧ next ≠ state := by
  unfold apply
  unfold HalfApplies at half
  split at half
  · rename_i kind
    rw [kind]
    exact admitIngress_half half.1 half.2
  · rename_i kind
    rw [kind]
    exact redactItem_half half.1 half.2
  · exact half.elim

end Transitions

section Folds

variable [Wire]

/-- In every folded state, an event that returns an error leaves the state as it
was exactly when it is not an ingress admission of some bytes into a scope that
is not open, nor a redaction of a missing item whose value is pinned. -/
theorem refusal_atomic_iff (window : Nat) (log : EventLog) (state : TypedState)
    (folds : fold window log = .ok state) (event : RecordedEvent) :
    (∀ error next, apply event state = (.err error, next) → next = state) ↔
      ¬ HalfApplies state event.kind := by
  constructor
  · intro atomic half
    rcases apply_half half with ⟨error, next, failed, changed⟩
    exact changed (atomic error next failed)
  · intro whole error next failed
    exact (apply_refuses (fold_wellFormed folds) whole).err_eq failed

end Folds

section Sample

local instance refusalWire : Wire := .emptySession

/-- Five bytes admitted into a scope that was never opened. -/
def strayIngress : RecordedEvent :=
  (EventLog.new v2).nextEvent 1 1000 (.operationCommit .admitIngress 9 5)

/-- The refused admission has moved the spine. -/
theorem stray_ingress_half_applied :
    ¬ ∀ (window : Nat) (log : EventLog) (state : TypedState), fold window log = .ok state →
      ∀ (event : RecordedEvent) (error : ReducerError) (next : TypedState),
        apply event state = (.err error, next) → next = state := by
  intro claim
  let empty : TypedState := rehash (rehash (.genesis idlenessWindow v2))
  have folds : fold idlenessWindow (EventLog.new v2) = .ok empty := rfl
  have half : HalfApplies empty strayIngress.kind := by
    refine ⟨by decide, ?_⟩
    change ¬ (ScopeRegistry.new idlenessWindow).isOpen 9 = true
    decide
  rcases apply_half half with ⟨error, next, failed, changed⟩
  exact changed (claim idlenessWindow (EventLog.new v2) empty folds strayIngress error next failed)

/-- Placing an item that does not exist. -/
def strayPlacement : RecordedEvent :=
  greetingLog.nextEvent 1 1002 (.operationCommit .place 7 1)

/-- The criterion applied to a placement that is refused as a whole. -/
theorem stray_placement_refused :
    ∃ state, fold idlenessWindow greetingLog = .ok state ∧
      ∀ error next, apply strayPlacement state = (.err error, next) → next = state := by
  have succeeds : (fold idlenessWindow greetingLog).isOk = true := by
    decide +kernel
  rcases Outcome.isOk_iff.mp succeeds with ⟨state, folds⟩
  have whole : ¬ HalfApplies state strayPlacement.kind := fun half => half.elim
  exact ⟨state, folds,
    (refusal_atomic_iff idlenessWindow greetingLog state folds strayPlacement).mpr whole⟩

end Sample

end Reducer

end Llxprt.Kernel
