import Llxprt.Kernel.Reducer

/-!
# Replay composition

Folding a log in one go and folding a prefix first reach the same state.  The
transitions neither read nor write the state hash and the applied identities,
so the fold loop only has to skip what it has seen.
-/

namespace Llxprt.Kernel

open Llxprt.Rust

/-- Overwrite the bookkeeping that only the fold loop maintains. -/
def TypedState.mark (bookkeeping : Digest × List (Nat × Digest)) (state : TypedState) :
    TypedState :=
  { state with stateHash := bookkeeping.1, applied := bookkeeping.2 }

/-- Overwrite the state hash. -/
def TypedState.markHash (digest : Digest) (state : TypedState) : TypedState :=
  { state with stateHash := digest }

namespace Reducer

open Method

section Framing

/-- A transition that leaves the bookkeeping to the fold loop. -/
abbrev Unmarked {α : Type} (transition : Transition α) : Prop :=
  Ignores TypedState.mark transition

theorem onIr_unmarked {α : Type} {method : Method ConversationIr IrError α} :
    Unmarked (onIr method) :=
  ignores_mapErr (ignores_focus (fun _ _ => rfl) fun _ _ _ => rfl)

theorem onScopes_unmarked {α : Type} {translate : ScopeError → ReducerError}
    {method : Method ScopeRegistry ScopeError α} : Unmarked (onScopes translate method) :=
  ignores_mapErr (ignores_focus (fun _ _ => rfl) fun _ _ _ => rfl)

theorem onLedger_unmarked {method : Method Ledger LedgerError Unit} :
    Unmarked (onLedger method) :=
  ignores_mapErr (ignores_focus (fun _ _ => rfl) fun _ _ _ => rfl)

theorem onSecurity_unmarked {method : Method SecurityState SecurityError Unit} :
    Unmarked (onSecurity method) :=
  ignores_mapErr (ignores_focus (fun _ _ => rfl) fun _ _ _ => rfl)

theorem onSemantic_unmarked {method : Method SemanticState GateError Unit} :
    Unmarked (onSemantic method) :=
  ignores_mapErr (ignores_focus (fun _ _ => rfl) fun _ _ _ => rfl)

theorem onBranches_unmarked {method : Method BranchState BranchError Unit} :
    Unmarked (onBranches method) :=
  ignores_mapErr (ignores_focus (fun _ _ => rfl) fun _ _ _ => rfl)

theorem update_unmarked {change : TypedState → TypedState}
    (commutes : ∀ bookkeeping state, change (TypedState.mark bookkeeping state) =
      TypedState.mark bookkeeping (change state)) :
    Unmarked (update change : Transition Unit) :=
  ignores_update commutes

theorem applyAppend_unmarked {sequence : Nat} {source : AppendSource} {sanitized : Bytes}
    {scope : ScopeId} {claims : List SegmentClaim} :
    Unmarked (applyAppend sequence source sanitized scope claims) := by
  apply ignores_bind ignores_ofExcept
  intro claims
  apply ignores_read
  · intro bookkeeping state
    rfl
  · intro state
    apply ignores_bind ignores_ofExcept
    intro staged
    apply ignores_bind onScopes_unmarked
    intro _
    apply ignores_bind (update_unmarked fun _ _ => rfl)
    intro _
    apply ignores_bind onIr_unmarked
    intro _
    exact update_unmarked fun _ _ => rfl

theorem commitRegistry_unmarked {subject argument latest : UInt64}
    {committed : TypedState → UInt64 → TypedState}
    (commutes : ∀ bookkeeping state version, committed (TypedState.mark bookkeeping state) version =
      TypedState.mark bookkeeping (committed state version)) :
    Unmarked (commitRegistry subject argument latest committed) := by
  apply ignores_read
  · intro bookkeeping state
    rfl
  · intro state
    apply ignores_bind ignores_refuse
    intro _
    apply ignores_bind ignores_refuse
    intro _
    apply ignores_bind (update_unmarked fun _ _ => commutes _ _ _)
    intro _
    exact update_unmarked fun _ _ => rfl

theorem resegment_unmarked {subject argument : UInt64} : Unmarked (resegment subject argument) := by
  apply ignores_read
  · intro bookkeeping state
    rfl
  · intro state
    apply ignores_bind ignores_ofExcept
    intro parent
    apply ignores_bind ignores_ofExcept
    intro ranges
    apply ignores_bind onIr_unmarked
    intro _
    exact update_unmarked fun _ _ => rfl

theorem updatePolicy_unmarked {subject argument : UInt64} :
    Unmarked (updatePolicy subject argument) := by
  apply ignores_read
  · intro bookkeeping state
    rfl
  · intro state
    apply ignores_bind ignores_refuse
    intro _
    apply ignores_bind ignores_refuse
    intro _
    apply ignores_bind (update_unmarked fun _ _ => rfl)
    intro _
    exact update_unmarked fun _ _ => rfl

theorem redactItem_unmarked {subject : UInt64} : Unmarked (redactItem subject) := by
  apply ignores_bind (update_unmarked fun _ _ => rfl)
  intro _
  apply ignores_bind (update_unmarked fun _ _ => rfl)
  intro _
  exact onIr_unmarked

theorem applyOperation_unmarked {sequence : Nat} {operationClass : OperationClass}
    {subject argument : UInt64} :
    Unmarked (applyOperation sequence operationClass subject argument) := by
  cases operationClass with
  | scopeOpen => exact ignores_bind onScopes_unmarked fun _ => update_unmarked fun _ _ => rfl
  | scopeCloseByEvent => exact onScopes_unmarked
  | scopeCloseByDeclaration => exact onScopes_unmarked
  | resegment => exact resegment_unmarked
  | place => exact ignores_bind ignores_ofExcept fun _ => onIr_unmarked
  | unplace => exact onIr_unmarked
  | pin => exact ignores_fail
  | unpin => exact ignores_fail
  | lanePolicyUpdate => exact updatePolicy_unmarked
  | migrationSelect =>
      exact ignores_bind ignores_refuse fun _ => update_unmarked fun _ _ => rfl
  | admitIngress =>
      exact ignores_bind (update_unmarked fun _ _ => rfl) fun _ => onScopes_unmarked
  | sanitize => exact ignores_fail
  | redact => exact redactItem_unmarked
  | importBytes => exact ignores_fail
  | ruleUpdate =>
      apply commitRegistry_unmarked
      intro bookkeeping state version
      rfl
  | vocabularyUpdate =>
      apply commitRegistry_unmarked
      intro bookkeeping state version
      rfl
  | indexRebuild => exact ignores_fail
  | storeMode => exact ignores_bind ignores_refuse fun _ => update_unmarked fun _ _ => rfl
  | quiesceUnwritable => exact update_unmarked fun _ _ => rfl

theorem onClone_unmarked {body : Transition Unit} (h : Unmarked body) :
    Unmarked (onClone body) := by
  intro bookkeeping state
  unfold onClone
  rw [h bookkeeping state]
  rcases body state with ⟨_ | _ | _, next⟩ <;> rfl

theorem admitResult_unmarked {sequence : Nat} {command : Command} :
    Unmarked (admitResult sequence command) := by
  cases command with
  | factInvalidate result writes => exact applyAppend_unmarked
  | _ => exact ignores_pure

theorem applyLedger_unmarked {sequence : Nat} {command : Command} :
    Unmarked (applyLedger sequence command) := by
  apply onClone_unmarked
  apply ignores_bind admitResult_unmarked
  intro _
  apply ignores_read
  · intro bookkeeping state
    rfl
  · intro state
    exact ignores_bind onLedger_unmarked fun _ => update_unmarked fun _ _ => rfl

variable [Wire]

theorem eraseOverlay_unmarked {event : SecurityEvent} {sequence : Nat} :
    Unmarked (eraseOverlay sequence event) := by
  cases event with
  | erase erasure =>
      apply ignores_bind (update_unmarked fun _ _ => rfl)
      intro _
      exact ignores_read (fun _ _ => rfl) fun _ => onLedger_unmarked
  | _ => exact ignores_pure

theorem applySecurity_unmarked {event : SecurityEvent} {sequence : Nat} :
    Unmarked (applySecurity event sequence) := by
  apply ignores_read
  · intro bookkeeping state
    rfl
  · intro state
    apply ignores_bind onSecurity_unmarked
    intro _
    apply ignores_bind (update_unmarked fun _ _ => rfl)
    intro _
    exact eraseOverlay_unmarked

theorem applySemantic_unmarked {event : SemanticEvent} : Unmarked (applySemantic event) := by
  apply ignores_read
  · intro bookkeeping state
    cases event <;> rfl
  · intro state
    exact ignores_bind ignores_refuse fun _ => onSemantic_unmarked

theorem applyBranch_unmarked {event : BranchEvent} : Unmarked (applyBranch event) := by
  apply ignores_read
  · intro bookkeeping state
    rfl
  · intro state
    exact onBranches_unmarked

/-- No event reads or writes the state hash or the applied identities. -/
theorem apply_unmarked (event : RecordedEvent) : Unmarked (apply event) := by
  unfold apply
  cases event.kind with
  | append => exact applyAppend_unmarked
  | semantic => exact applySemantic_unmarked
  | branch => exact applyBranch_unmarked
  | security => exact applySecurity_unmarked
  | ledger => exact applyLedger_unmarked
  | operationCommit => exact applyOperation_unmarked
  | providerTurn => exact ignores_pure

/-- An event leaves the applied identities alone. -/
theorem apply_applied (event : RecordedEvent) (state : TypedState) :
    (apply event state).2.applied = state.applied := by
  have framed := apply_unmarked event (state.stateHash, state.applied) state
  change apply event state = _ at framed
  rw [framed]
  rfl

/-- A fold turn does not look at the state hash. -/
theorem foldEvent_markHash (event : RecordedEvent) :
    Ignores TypedState.markHash (foldEvent event) := by
  apply ignores_read
  · intro digest state
    rfl
  · intro state
    split
    · exact ignores_pure
    · apply ignores_bind ignores_refuse
      intro _
      apply ignores_bind
      · intro digest state
        exact apply_unmarked event (digest, state.applied) state |>.trans (by
          rw [TypedState.mark, TypedState.markHash, apply_applied])
      · intro _
        exact ignores_update fun _ _ => rfl

theorem foldEvents_markHash (events : List RecordedEvent) :
    Ignores TypedState.markHash (foldEvents events) := by
  induction events with
  | nil => exact ignores_pure
  | cons event events ih => exact ignores_bind (foldEvent_markHash event) fun _ => ih

end Framing

section Folding

variable [Wire] {event : RecordedEvent} {events earlier later : List RecordedEvent}
  {state next final : TypedState}

theorem foldEvent_of_applied (applied : event.identity ∈ state.applied) :
    foldEvent event state = (.ok (), state) := by
  have isApplied : state.isApplied event.identity = true := by
    simpa [TypedState.isApplied] using applied
  rw [foldEvent, bind_of_ok (read_apply state)]
  simp [isApplied]

/-- A successful turn either skips the event or applies it and records its
identity. -/
theorem foldEvent_eq_ok (h : foldEvent event state = (.ok (), next)) :
    (event.identity ∈ state.applied ∧ next = state) ∨
      (event.identity ∉ state.applied ∧ event.storeVersion = state.storeVersion ∧
        ∃ applied, apply event state = (.ok (), applied) ∧
          next = { applied with applied := state.applied ++ [event.identity] }) := by
  by_cases applied : event.identity ∈ state.applied
  · rw [foldEvent_of_applied applied] at h
    left
    exact ⟨applied, (Prod.ext_iff.mp h).2.symm⟩
  · right
    have isApplied : state.isApplied event.identity = false := by
      simpa [TypedState.isApplied] using applied
    rw [foldEvent, bind_of_ok (read_apply state)] at h
    simp only [isApplied, Bool.false_eq_true, if_false] at h
    rw [bind_eq_ok_iff] at h
    rcases h with ⟨_, middle, refused, h⟩
    rw [refuse_apply] at refused
    split at refused
    · cases refused
    · rename_i sameVersion
      cases refused
      rw [bind_eq_ok_iff] at h
      rcases h with ⟨_, result, appliedOk, recorded⟩
      have kept := apply_applied event state
      rw [appliedOk] at kept
      cases recorded
      refine ⟨applied, not_not.mp sameVersion, result, appliedOk, ?_⟩
      rw [← kept]

theorem foldEvent_applied (h : foldEvent event state = (.ok (), next)) :
    event.identity ∈ next.applied ∧ state.applied ⊆ next.applied := by
  rcases foldEvent_eq_ok h with ⟨applied, rfl⟩ | ⟨_, _, result, _, rfl⟩
  · exact ⟨applied, fun _ member => member⟩
  · simp

theorem foldEvents_append :
    foldEvents (earlier ++ later) state = (.ok (), final) ↔
      ∃ middle, foldEvents earlier state = (.ok (), middle) ∧
        foldEvents later middle = (.ok (), final) := by
  induction earlier generalizing state with
  | nil => simp [foldEvents]
  | cons event earlier ih =>
      simp only [List.cons_append, foldEvents, bind_eq_ok_iff, ih]
      constructor
      · rintro ⟨_, first, firstOk, middle, middleOk, laterOk⟩
        exact ⟨middle, ⟨(), first, firstOk, middleOk⟩, laterOk⟩
      · rintro ⟨middle, ⟨_, first, firstOk, middleOk⟩, laterOk⟩
        exact ⟨(), first, firstOk, middle, middleOk, laterOk⟩

/-- A fold records the identity of every event it has seen. -/
theorem foldEvents_applied (h : foldEvents events state = (.ok (), final)) :
    (∀ event ∈ events, event.identity ∈ final.applied) ∧ state.applied ⊆ final.applied := by
  induction events generalizing state with
  | nil =>
      cases h
      simp
  | cons event events ih =>
      rw [foldEvents, bind_eq_ok_iff] at h
      rcases h with ⟨_, middle, eventOk, restOk⟩
      have first := foldEvent_applied eventOk
      have rest := ih restOk
      constructor
      · intro member memberOf
        rcases List.mem_cons.mp memberOf with rfl | memberOf
        · exact rest.2 first.1
        · exact rest.1 member memberOf
      · exact fun _ member => rest.2 (first.2 member)

/-- Events that have all been applied are skipped. -/
theorem foldEvents_of_applied (h : ∀ event ∈ events, event.identity ∈ state.applied) :
    foldEvents events state = (.ok (), state) := by
  induction events with
  | nil => rfl
  | cons event events ih =>
      rw [foldEvents, bind_of_ok (foldEvent_of_applied (h event (by simp)))]
      exact ih fun other member => h other (by simp [member])

theorem encode_markHash (digest : Digest) (state : TypedState) :
    (state.markHash digest).encode = state.encode := by
  unfold TypedState.encode TypedState.markHash
  rfl

/-- The state hash does not hash itself. -/
theorem hash_markHash (digest : Digest) (state : TypedState) :
    hash (state.markHash digest) = hash state := by
  unfold hash
  rw [encode_markHash]

theorem rehash_eq (state : TypedState) : rehash state = state.markHash (hash state) :=
  rfl

@[simp]
theorem rehash_markHash (digest : Digest) (state : TypedState) :
    rehash (state.markHash digest) = rehash state := by
  rw [rehash_eq, hash_markHash]
  rfl

@[simp]
theorem rehash_rehash (state : TypedState) : rehash (rehash state) = rehash state :=
  rehash_markHash (hash state) state

variable {window : Nat} {log : EventLog}

theorem fold_eq_ok :
    fold window log = .ok final ↔
      ∃ folded, foldEvents log.events (.genesis window log.storeVersion) = (.ok (), folded) ∧
        final = rehash folded := by
  unfold fold foldFrom
  rw [bind_apply]
  rcases foldEvents log.events (.genesis window log.storeVersion) with ⟨_ | _ | _, folded⟩
  · constructor
    · intro h
      cases h
      exact ⟨folded, rfl, rehash_rehash folded⟩
    · rintro ⟨_, same, rfl⟩
      cases same
      exact congrArg _ (rehash_rehash folded)
  · simp
  · simp

/-- Every prefix of a log that folds, folds. -/
theorem exists_fold_prefixLog (folds : fold window log = .ok final) (count : Nat) :
    ∃ middle, fold window (log.prefixLog count) = .ok middle := by
  rcases fold_eq_ok.mp folds with ⟨folded, foldedOk, _⟩
  rw [← List.take_append_drop count log.events, foldEvents_append] at foldedOk
  rcases foldedOk with ⟨middle, earlierOk, _⟩
  exact ⟨rehash middle, fold_eq_ok.mpr ⟨middle, earlierOk, rfl⟩⟩

/-- Folding again whatever has been applied changes nothing. -/
theorem foldFrom_of_applied (applied : ∀ event ∈ log.events, event.identity ∈ state.applied) :
    foldFrom log (rehash state) = (.ok (), rehash state) := by
  have skipped : foldEvents log.events (rehash state) = (.ok (), rehash state) :=
    foldEvents_of_applied applied
  rw [foldFrom, bind_of_ok skipped, update_apply, rehash_rehash]

/-- Replay composition: folding a prefix and then the whole log gives the state
of the whole log, and folding the log or any prefix of it once more changes
nothing. -/
theorem fold_resume (window : Nat) (log : EventLog) (state : TypedState)
    (folds : fold window log = .ok state) (count : Nat) :
    (∃ middle, fold window (log.prefixLog count) = .ok middle ∧
      foldFrom log middle = (.ok (), state)) ∧
    foldFrom log state = (.ok (), state) ∧
    ∀ shorter, foldFrom (log.prefixLog shorter) state = (.ok (), state) := by
  rcases fold_eq_ok.mp folds with ⟨folded, foldedOk, rfl⟩
  have seen := (foldEvents_applied foldedOk).1
  refine ⟨?_, foldFrom_of_applied seen, ?_⟩
  · have splitOk := foldedOk
    rw [← List.take_append_drop count log.events, foldEvents_append] at splitOk
    rcases splitOk with ⟨middle, earlierOk, laterOk⟩
    have prefixOk : fold window (log.prefixLog count) = .ok (rehash middle) :=
      fold_eq_ok.mpr ⟨middle, earlierOk, rfl⟩
    have earlierSkipped : foldEvents (log.events.take count) (rehash middle) =
        (.ok (), rehash middle) :=
      foldEvents_of_applied (foldEvents_applied earlierOk).1
    have laterResumed : foldEvents (log.events.drop count) (rehash middle) =
        (.ok (), folded.markHash (hash middle)) := by
      have framed := foldEvents_markHash (log.events.drop count) (hash middle) middle
      rw [laterOk] at framed
      exact framed
    have resumed : foldEvents log.events (rehash middle) =
        (.ok (), folded.markHash (hash middle)) := by
      conv_lhs => rw [← List.take_append_drop count log.events]
      exact foldEvents_append.mpr ⟨_, earlierSkipped, laterResumed⟩
    refine ⟨rehash middle, prefixOk, ?_⟩
    rw [foldFrom, bind_of_ok resumed, update_apply, rehash_markHash]
  · intro shorter
    apply foldFrom_of_applied
    intro event member
    exact seen event (List.mem_of_mem_take member)

end Folding

section Sample

local instance greetingWire : Wire := .emptySession

/-- A session that opens a scope and appends one message in it. -/
def greetingLog : EventLog :=
  ((EventLog.new v2).record 1 1000 (.operationCommit .scopeOpen 1 0)).record 1 1001
    (.append .user (utf8 "hi") 1 [])

/-- Folding the greeting in two stages. -/
theorem greeting_resumes :
    ∃ state, fold idlenessWindow greetingLog = .ok state ∧
      (∃ middle, fold idlenessWindow (greetingLog.prefixLog 1) = .ok middle ∧
        foldFrom greetingLog middle = (.ok (), state)) ∧
      foldFrom greetingLog state = (.ok (), state) ∧
      ∀ shorter, foldFrom (greetingLog.prefixLog shorter) state = (.ok (), state) := by
  have succeeds : (fold idlenessWindow greetingLog).isOk = true := by
    decide +kernel
  rcases Outcome.isOk_iff.mp succeeds with ⟨state, folds⟩
  exact ⟨state, folds, fold_resume idlenessWindow greetingLog state folds 1⟩

end Sample

end Reducer

end Llxprt.Kernel
