import Llxprt.Transaction.Calls

/-!
# What a commit appends and charges

A commit that returns has either left the durable part alone or applied its
effect: it has appended the governed event, behind a session scope where the
first admission needs one, and charged its bound.  The receipt-checked commits
bind both to the transaction; the generic commits take both from their caller.
-/

namespace Llxprt.Kernel

/-- What the log records, in order. -/
def EventLog.kinds [Wire] (log : EventLog) : List EventKind :=
  log.events.map RecordedEvent.kind

end Llxprt.Kernel

namespace Llxprt.Transaction

open Llxprt.Rust Llxprt.Kernel

namespace Executor

variable [Wire] {π ε α : Type} {self next : Executor π}

/-- The scope opening that goes in front of the first admission. -/
def opening (self : Executor π) : EventKind → List EventKind
  | .operationCommit .admitIngress _ _ =>
      match self.typed.scopeRegistry.state sessionScope with
      | .ok _ => []
      | .error _ => [.operationCommit .scopeOpen sessionScope 0]
  | _ => []

/-- The events that an applied effect appends. -/
def released (self : Executor π) : Option EventKind → List EventKind
  | none => []
  | some kind => self.opening kind ++ [kind]

/-- What an applied commit has done. -/
structure Applied (before after : Executor π) (effect : Option EventKind) (bound : Nat) : Prop where
  validated : before.state = .validated
  live : ∃ txn, before.current = some txn
  within : ∀ ceiling, before.regionCeiling = some ceiling →
    saturatingAdd before.regionAdmitted bound ≤ ceiling
  admitted : after.regionAdmitted = saturatingAdd before.regionAdmitted bound
  appended : after.log.kinds = before.log.kinds ++ before.released effect

/-- A commit that has come back: applied, or not re-applied on a moved parent. -/
def Settled (before after : Executor π) (effect : Option EventKind) (bound : Nat)
    (outcome : CommitOutcome) : Prop :=
  outcome = .applied ∧ Applied before after effect bound ∨
    outcome = .rebaseNoOp ∧ after.durable = before.durable

/-- The receipt-checked commit of an effect: the live transaction was proposed
under the effect's operation, and the universal boundary committed the effect. -/
structure Redeemed (before after : Executor π) (kind : EventKind) (bound : Nat)
    (outcome : CommitOutcome) : Prop where
  named : ∃ txn, before.current = some txn ∧ operationName kind = some txn.op
  settled : Settled before after (some kind) bound outcome

@[simp]
theorem killIf_eq_ok {refused : Prop} [Decidable refused] {error : ε} {value : Unit} :
    killIf refused error self = (.ok value, next) ↔ ¬ refused ∧ self = next := by
  unfold killIf
  by_cases holds : refused
  · rw [if_pos holds]
    constructor
    · intro returned
      cases returned
    · exact fun ⟨fails, _⟩ => absurd holds fails
  · rw [if_neg holds]
    simp [holds]

theorem killIf_bind_eq_ok {refused : Prop} [Decidable refused] {error : ε} {α : Type}
    {rest : Unit → Method (Executor π) ε α} {result : α} :
    (killIf refused error >>= rest) self = (.ok result, next) ↔
      ¬ refused ∧ rest () self = (.ok result, next) := by
  simp only [Method.bind_eq_ok_iff, killIf_eq_ok]
  constructor
  · rintro ⟨_, _, ⟨passed, rfl⟩, returned⟩
    exact ⟨passed, returned⟩
  · exact fun ⟨passed, returned⟩ => ⟨(), self, ⟨passed, rfl⟩, returned⟩

theorem appendEvent_ok {kind : EventKind} {value : Unit}
    (returned : appendEvent kind self = (.ok value, next)) :
    next.log.kinds = self.log.kinds ++ [kind] := by
  unfold appendEvent at returned
  have rest := Method.read_bind_eq_ok.mp returned
  rcases Method.ofExcept_bind_eq_ok.mp rest with ⟨log, mapped, updated⟩
  have extended := EventLog.append_spec (mapError_eq_ok.mp mapped)
  rcases Method.update_eq_ok.mp updated with rfl
  change log.kinds = _
  rw [EventLog.kinds, extended.1, List.map_append]
  rfl

theorem openSession_ok {kind : EventKind} {value : Unit}
    (returned : openSession kind self = (.ok value, next)) :
    next.log.kinds = self.log.kinds ++ self.opening kind := by
  unfold openSession at returned
  split at returned
  · rcases Method.bind_eq_ok_iff.mp returned with ⟨_, _, read, rest⟩
    rcases Method.read_eq_ok.mp read with ⟨rfl, rfl⟩
    cases found : self.typed.scopeRegistry.state sessionScope with
    | ok state =>
        simp only [found] at rest
        rcases Method.refuse_eq_ok.mp rest with ⟨_, rfl⟩
        simp [opening, found]
    | error error =>
        simp only [found] at rest
        rw [appendEvent_ok rest]
        simp [opening, found]
  · next other =>
    rcases Method.pure_eq_ok_iff.mp returned with ⟨_, rfl⟩
    unfold opening
    split
    · next subject argument => exact absurd rfl (other subject argument)
    · rw [List.append_nil]

theorem appendEffect_ok {kind : EventKind} {value : Unit}
    (returned : appendEffect kind self = (.ok value, next)) :
    next.log.kinds = self.log.kinds ++ self.released (some kind) := by
  unfold appendEffect at returned
  rcases Method.bind_eq_ok_iff.mp returned with ⟨_, opened, opens, rest⟩
  rcases Method.bind_eq_ok_iff.mp rest with ⟨_, extended, appends, rest⟩
  have folds := Method.read_bind_eq_ok.mp rest
  rw [Method.mapErr_eq_ok, Method.focus_eq_ok] at folds
  rcases folds with ⟨typed, _, rfl⟩
  change extended.log.kinds = _
  rw [appendEvent_ok appends, openSession_ok opens, released, List.append_assoc]

theorem publishEffect_ok {kind : EventKind} {value : Unit}
    (returned : publishEffect kind self = (.ok value, next)) :
    next.log.kinds = self.log.kinds ++ self.released (some kind) := by
  unfold publishEffect at returned
  rcases appended : appendEffect kind self with ⟨_ | error | _, staged⟩
  · cases audit : auditTip staged.log staged.typed staged.contract with
    | ok _ =>
        simp only [appended, audit] at returned
        cases returned
        change staged.log.kinds = _
        exact appendEffect_ok appended
    | err error =>
        simp only [appended, audit] at returned
        cases returned
    | panic =>
        simp only [appended, audit] at returned
        cases returned
  · simp only [appended] at returned
    cases returned
  · simp only [appended] at returned
    cases returned

theorem publish_ok {effect : Option EventKind} {value : Unit}
    (returned : publish effect self = (.ok value, next)) :
    next.log.kinds = self.log.kinds ++ self.released effect ∧
      next.regionAdmitted = self.regionAdmitted := by
  cases effect with
  | none =>
      rcases Method.pure_eq_ok_iff.mp returned with ⟨_, rfl⟩
      rw [released, List.append_nil]
      exact ⟨rfl, rfl⟩
  | some kind =>
      constructor
      · exact publishEffect_ok returned
      · rcases publishEffect_spec kind self with ⟨failed, _⟩ | ⟨log, typed, _, published⟩
        · change publishEffect kind self = _ at returned
          rw [returned] at failed
          cases failed
        · cases returned.symm.trans published
          rfl

theorem checkRegion_ok {payloadBound : Nat} {value : Unit}
    (returned : checkRegion payloadBound self = (.ok value, next)) :
    self = next ∧ ∀ ceiling, self.regionCeiling = some ceiling →
      saturatingAdd self.regionAdmitted payloadBound ≤ ceiling := by
  unfold checkRegion at returned
  have rest := Method.read_bind_eq_ok.mp returned
  cases armed : self.regionCeiling with
  | none =>
      simp only [armed] at rest
      exact ⟨(Method.pure_eq_ok_iff.mp rest).2, nofun⟩
  | some ceiling =>
      simp only [armed] at rest
      rcases killIf_eq_ok.mp rest with ⟨within, rfl⟩
      constructor
      · rfl
      · rintro _ ⟨⟩
        exact Nat.le_of_not_lt within

theorem currentRow_ok {found : Txn × Operation}
    (returned : currentRow self = (.ok found, next)) :
    self = next ∧ self.current = some found.1 := by
  unfold currentRow at returned
  have rest := Method.read_bind_eq_ok.mp returned
  rcases Method.expect_bind_eq_ok.mp rest with ⟨txn, live, rest⟩
  rcases Method.expect_bind_eq_ok.mp rest with ⟨row, _, result⟩
  rcases Method.pure_eq_ok_iff.mp result with ⟨rfl, rfl⟩
  exact ⟨rfl, live⟩

omit [Wire] in
theorem validated_of_canTransition {state : TxnState}
    (allowed : state.canTransition .committed = true) : state = .validated := by
  cases state with
  | validated => rfl
  | proposed => cases allowed
  | snapshotted => cases allowed
  | generated => cases allowed
  | committed => cases allowed
  | aborted => cases allowed

/-- A commit that returns has applied its effect or left the durable part alone. -/
theorem commitChecked_ok {actualParent payloadBound : Nat} {effect : Option EventKind}
    {outcome : CommitOutcome}
    (returned : commitChecked actualParent effect payloadBound self = (.ok outcome, next)) :
    Settled self next effect payloadBound outcome := by
  unfold commitChecked at returned
  have rest := Method.read_bind_eq_ok.mp returned
  rcases Method.refuse_bind_eq_ok.mp rest with ⟨unrefused, rest⟩
  have validated := validated_of_canTransition (not_not.mp unrefused)
  rcases Method.bind_eq_ok_iff.mp rest with ⟨⟨txn, row⟩, _, current, rest⟩
  rcases currentRow_ok current with ⟨rfl, live⟩
  cases legal : isLegal self.typed self.contract with
  | error violation =>
      simp only [legal] at rest
      cases rest
  | ok verdict =>
      simp only [legal] at rest
      split at rest
      · rcases Method.bind_eq_ok_iff.mp rest with ⟨_, _, region, rest⟩
        rcases checkRegion_ok region with ⟨rfl, within⟩
        rcases Method.bind_eq_ok_iff.mp rest with ⟨_, published, publishes, rest⟩
        cases rest
        rcases publish_ok publishes with ⟨appended, unchanged⟩
        left
        constructor
        · rfl
        · exact ⟨validated, ⟨txn, live⟩, within,
            congrArg (saturatingAdd · payloadBound) unchanged, appended⟩
      · split at rest
        · cases rest
          exact .inr ⟨rfl, rfl⟩
        · cases rest

section Wrappers

variable {actualParent latest payloadBound : Nat} {outcome : CommitOutcome}

theorem commitOutcome_ok {effect : Option EventKind}
    (returned : commitOutcome actualParent effect payloadBound self = (.ok outcome, next)) :
    Settled self next effect payloadBound outcome := by
  unfold commitOutcome at returned
  have rest := Method.read_bind_eq_ok.mp returned
  rcases killIf_bind_eq_ok.mp rest with ⟨_, rest⟩
  rcases killIf_bind_eq_ok.mp rest with ⟨_, rest⟩
  rcases killIf_bind_eq_ok.mp rest with ⟨_, rest⟩
  exact commitChecked_ok rest

theorem commitFenced_ok {effect : Option EventKind}
    (returned : commitFenced actualParent latest effect payloadBound self = (.ok outcome, next)) :
    Settled self next effect payloadBound outcome := by
  unfold commitFenced at returned
  have rest := Method.read_bind_eq_ok.mp returned
  rcases killIf_bind_eq_ok.mp rest with ⟨_, rest⟩
  exact commitOutcome_ok rest

theorem candidate_ok {kind : EventKind} {refused : Option ε} {replay : ReducerError → ε}
    {typed : TypedState} (returned : candidate kind refused replay self = (.ok typed, next)) :
    self = next := by
  have kept : Method.Keeps id (candidate kind refused replay : Method (Executor π) _ _) :=
    candidate_keeps
  have same := kept self
  rw [returned] at same
  exact same.symm

theorem checkLedgerCommand_ok {command : Command} {ports : LedgerPorts} {value : Unit}
    (accepted : self.checkLedgerCommand latest command ports = .ok value) :
    ∃ txn, self.current = some txn ∧ txn.op = command.operation := by
  unfold checkLedgerCommand at accepted
  rcases bind_eq_ok.mp accepted with ⟨_, _, accepted⟩
  rcases bind_eq_ok.mp accepted with ⟨txn, live, accepted⟩
  rcases bind_eq_ok.mp accepted with ⟨_, bound, _⟩
  rcases not_or.mp (reject_eq_ok.mp bound) with ⟨same, _⟩
  exact ⟨txn, okOr_eq_ok.mp live, not_not.mp same⟩

theorem commitLedger_ok {command : Command} {ports : LedgerPorts}
    (returned : commitLedger actualParent latest command ports payloadBound self =
      (.ok outcome, next)) :
    Redeemed self next (.ledger command) payloadBound outcome ∧
      self.ledgerValidation = some (command, payloadBound) := by
  unfold commitLedger at returned
  have rest := Method.read_bind_eq_ok.mp returned
  rcases killIf_bind_eq_ok.mp rest with ⟨recorded, rest⟩
  rcases Method.bind_eq_ok_iff.mp rest with ⟨_, _, checks, rest⟩
  rcases Method.ofExcept_eq_ok.mp (Method.orElse_eq_ok.mp checks) with ⟨checked, rfl⟩
  rcases Method.bind_eq_ok_iff.mp rest with ⟨typed, _, candidate, rest⟩
  rcases candidate_ok (Method.orElse_eq_ok.mp candidate) with rfl
  rcases checkLedgerCommand_ok checked with ⟨txn, live, sameOperation⟩
  constructor
  · cases legal : isLegal typed self.contract with
    | error violation =>
        simp only [legal] at rest
        cases rest
    | ok verdict =>
        simp only [legal] at rest
        constructor
        · exact ⟨txn, live, congrArg some sameOperation.symm⟩
        · exact commitChecked_ok (Method.mapErr_eq_ok.mp rest)
  · exact not_not.mp recorded

theorem checkSemanticOperation_ok {op : String} {value : Unit}
    (accepted : self.checkSemanticOperation op = .ok value) :
    ∃ txn, self.current = some txn ∧ txn.op = op := by
  unfold checkSemanticOperation at accepted
  rcases bind_eq_ok.mp accepted with ⟨txn, live, bound⟩
  rcases not_or.mp (reject_eq_ok.mp bound) with ⟨same, _⟩
  exact ⟨txn, okOr_eq_ok.mp live, not_not.mp same⟩

theorem commitSemantic_ok {receipt : SemanticReceipt}
    (returned : commitSemantic actualParent latest receipt self = (.ok outcome, next)) :
    Redeemed self next (.semantic receipt.event) receipt.bound outcome ∧
      self.semanticValidation = some (receipt.event, receipt.bound) := by
  unfold commitSemantic at returned
  rw [Method.orElse_eq_ok] at returned
  have rest := Method.read_bind_eq_ok.mp returned
  rcases Method.ofExcept_bind_eq_ok.mp rest with ⟨_, checked, rest⟩
  rcases Method.refuse_bind_eq_ok.mp rest with ⟨_, rest⟩
  rcases Method.refuse_bind_eq_ok.mp rest with ⟨recorded, rest⟩
  rcases Method.bind_eq_ok_iff.mp rest with ⟨typed, _, candidate, rest⟩
  rcases candidate_ok candidate with rfl
  rcases Method.ofExcept_bind_eq_ok.mp rest with ⟨_, _, rest⟩
  rcases checkSemanticOperation_ok checked with ⟨txn, live, sameOperation⟩
  constructor
  · constructor
    · exact ⟨txn, live, congrArg some sameOperation.symm⟩
    · exact commitChecked_ok (Method.mapErr_eq_ok.mp rest)
  · exact not_not.mp recorded

/-- The live transaction is the one that the receipt names. -/
theorem live_of_not_all {op : String}
    (bound : ¬ (self.current.all fun txn => txn.op ≠ op) = true) :
    ∃ txn, self.current = some txn ∧ txn.op = op := by
  cases live : self.current with
  | none =>
      rw [live] at bound
      exact absurd rfl bound
  | some txn =>
      rw [live] at bound
      exact ⟨txn, rfl, by simpa using bound⟩

theorem authenticateSecurity_ok {event : SecurityEvent} {ports : SecurityPorts} {value : Unit}
    (accepted : self.authenticateSecurity event ports = .ok value) :
    ∃ txn, self.current = some txn ∧ txn.op = event.operation := by
  unfold authenticateSecurity at accepted
  rcases bind_eq_ok.mp accepted with ⟨_, bound, _⟩
  rcases not_or.mp (reject_eq_ok.mp bound) with ⟨same, _⟩
  exact live_of_not_all same

theorem securityCandidate_ok {event : SecurityEvent} {value : Unit}
    (returned : securityCandidate event self = (.ok value, next)) : self = next := by
  unfold securityCandidate at returned
  rcases Method.bind_eq_ok_iff.mp returned with ⟨typed, _, candidate, rest⟩
  rcases candidate_ok candidate with rfl
  have rest := Method.read_bind_eq_ok.mp rest
  rcases Method.ofExcept_bind_eq_ok.mp rest with ⟨_, _, result⟩
  exact (Method.pure_eq_ok_iff.mp result).2

theorem commitSecurity_ok {receipt : SecurityReceipt} {ports : SecurityPorts}
    (returned : commitSecurity actualParent latest receipt ports self = (.ok outcome, next)) :
    Redeemed self next (.security receipt.event) receipt.bound outcome ∧
      self.securityValidation = some (receipt.event, receipt.bound) := by
  unfold commitSecurity redeemSecurity at returned
  rw [Method.orElse_eq_ok, Method.andThen_eq_ok] at returned
  rcases returned with ⟨redeemed, returned, rfl⟩
  have rest := Method.read_bind_eq_ok.mp returned
  rcases Method.ofExcept_bind_eq_ok.mp rest with ⟨_, checked, rest⟩
  rcases Method.refuse_bind_eq_ok.mp rest with ⟨passed, rest⟩
  rcases Method.bind_eq_ok_iff.mp rest with ⟨_, _, candidate, rest⟩
  rcases securityCandidate_ok candidate with rfl
  rcases authenticateSecurity_ok checked with ⟨txn, live, sameOperation⟩
  constructor
  · constructor
    · exact ⟨txn, live, congrArg some sameOperation.symm⟩
    · rcases commitChecked_ok (Method.mapErr_eq_ok.mp rest) with ⟨rfl, applied⟩ | noOp
      · exact .inl ⟨rfl, applied.validated, applied.live, applied.within, applied.admitted,
          applied.appended⟩
      · exact .inr noOp
  · exact not_not.mp (not_or.mp passed).2

theorem branchCandidate_ok {event : BranchEvent} {typed : TypedState}
    (returned : branchCandidate event self = (.ok typed, next)) : self = next := by
  unfold branchCandidate at returned
  have rest := Method.read_bind_eq_ok.mp returned
  rcases Method.ofExcept_bind_eq_ok.mp rest with ⟨_, _, candidate⟩
  exact candidate_ok candidate

theorem commitBranch_ok {receipt : BranchReceipt} {ports : BranchPorts}
    (returned : commitBranch actualParent latest receipt ports self = (.ok outcome, next)) :
    Redeemed self next (.branch receipt.event) receipt.bound outcome ∧
      self.branchValidation = some (receipt.event, receipt.bound) := by
  unfold commitBranch redeemBranch at returned
  rw [Method.orElse_eq_ok, Method.andThen_eq_ok] at returned
  rcases returned with ⟨redeemed, returned, rfl⟩
  have rest := Method.read_bind_eq_ok.mp returned
  rcases Method.ofExcept_bind_eq_ok.mp rest with ⟨_, _, rest⟩
  rcases Method.ofExcept_bind_eq_ok.mp rest with ⟨_, _, rest⟩
  rcases Method.refuse_bind_eq_ok.mp rest with ⟨passed, rest⟩
  rcases Method.bind_eq_ok_iff.mp rest with ⟨typed, _, candidate, rest⟩
  rcases branchCandidate_ok candidate with rfl
  rcases not_or.mp passed with ⟨_, passed⟩
  rcases not_or.mp passed with ⟨recorded, bound⟩
  rcases live_of_not_all bound with ⟨txn, live, sameOperation⟩
  constructor
  · constructor
    · exact ⟨txn, live, congrArg some sameOperation.symm⟩
    · rcases commitChecked_ok (Method.mapErr_eq_ok.mp rest) with ⟨rfl, applied⟩ | noOp
      · exact .inl ⟨rfl, applied.validated, applied.live, applied.within, applied.admitted,
          applied.appended⟩
      · exact .inr noOp
  · exact not_not.mp recorded

section Reports

variable {method : Method (Executor π) ε CommitOutcome} {effect : Option EventKind} {bound : Nat}

/-- Whenever the method returns from `self`, it has settled the effect. -/
def Settles (method : Method (Executor π) ε CommitOutcome) (self : Executor π)
    (effect : Option EventKind) (bound : Nat) : Prop :=
  ∀ outcome next, method self = (.ok outcome, next) → Settled self next effect bound outcome

/-- A commit that reports an applied effect has applied it. -/
theorem Settles.applied (settles : Settles method self effect bound)
    (report : (method self).1.satisfies (· = .applied) = true) :
    Applied self (method self).2 effect bound := by
  rcases Outcome.satisfies_iff.mp report with ⟨outcome, returned, isApplied⟩
  rcases settles outcome _ (Prod.ext returned rfl) with ⟨_, applied⟩ | ⟨noOp, _⟩
  · exact applied
  · rw [noOp] at isApplied
    cases isApplied

/-- A commit that reports anything else has left the durable part alone. -/
theorem Settles.durable (settles : Settles method self effect bound)
    (publishes : Method.Publishes Executor.durable Release method)
    (report : (method self).1.satisfies (· = .applied) = false) :
    (method self).2.durable = self.durable := by
  cases returned : (method self).1 with
  | ok outcome =>
      rcases settles outcome _ (Prod.ext returned rfl) with ⟨rfl, _⟩ | ⟨_, kept⟩
      · rw [returned] at report
        cases report
      · exact kept
  | err error =>
      apply publishes.kept_of_not_ok
      rw [returned]
      rfl
  | panic =>
      apply publishes.kept_of_not_ok
      rw [returned]
      rfl

theorem commitOutcome_settles :
    Settles (commitOutcome actualParent effect payloadBound) self effect payloadBound :=
  fun _ _ => commitOutcome_ok

theorem commitFenced_settles :
    Settles (commitFenced actualParent latest effect payloadBound) self effect payloadBound :=
  fun _ _ => commitFenced_ok

theorem commitLedger_settles {command : Command} {ports : LedgerPorts} :
    Settles (commitLedger actualParent latest command ports payloadBound) self
      (some (.ledger command)) payloadBound :=
  fun _ _ returned => (commitLedger_ok returned).1.settled

theorem commitSemantic_settles {receipt : SemanticReceipt} :
    Settles (commitSemantic actualParent latest receipt) self (some (.semantic receipt.event))
      receipt.bound :=
  fun _ _ returned => (commitSemantic_ok returned).1.settled

theorem commitSecurity_settles {receipt : SecurityReceipt} {ports : SecurityPorts} :
    Settles (commitSecurity actualParent latest receipt ports) self
      (some (.security receipt.event)) receipt.bound :=
  fun _ _ returned => (commitSecurity_ok returned).1.settled

theorem commitBranch_settles {receipt : BranchReceipt} {ports : BranchPorts} :
    Settles (commitBranch actualParent latest receipt ports) self (some (.branch receipt.event))
      receipt.bound :=
  fun _ _ returned => (commitBranch_ok returned).1.settled

end Reports

end Wrappers

end Executor

section Commitments

variable [Wire] {π : Type}

/-- The effect that a commit call releases and the bound that it charges. -/
def Call.commitment : Call π → Option (Option EventKind × Nat)
  | commit _ effect payloadBound | commitFenced _ _ effect payloadBound =>
      some (effect, payloadBound)
  | commitLedger _ _ command _ payloadBound => some (some (.ledger command), payloadBound)
  | commitSemantic _ _ receipt => some (some (.semantic receipt.event), receipt.bound)
  | commitSecurity _ _ receipt _ => some (some (.security receipt.event), receipt.bound)
  | commitBranch _ _ receipt _ => some (some (.branch receipt.event), receipt.bound)
  | _ => none

/-- Commit calls that take their effect and its bound from the caller. -/
def Call.generic : Call π → Bool
  | commit .. | commitFenced .. => true
  | _ => false

/-- Calls that rewrite the region total by themselves. -/
def Call.reaccounts : Call π → Bool
  | resetRegionAccounting | admitRegionUnits _ => true
  | _ => false

/-- Whether the call is a commit that reports an applied effect. -/
def Call.applies (self : Executor π) : Call π → Bool
  | commit actualParent effect payloadBound =>
      (Executor.commit actualParent effect payloadBound self).1.satisfies (· = .applied)
  | commitFenced actualParent latest effect payloadBound =>
      (Executor.commitFenced actualParent latest effect payloadBound self).1.satisfies
        (· = .applied)
  | commitLedger actualParent latest command ports payloadBound =>
      (Executor.commitLedger actualParent latest command ports payloadBound self).1.satisfies
        (· = .applied)
  | commitSemantic actualParent latest receipt =>
      (Executor.commitSemantic actualParent latest receipt self).1.satisfies (· = .applied)
  | commitSecurity parent latest receipt ports =>
      (Executor.commitSecurity parent latest receipt ports self).1.satisfies (· = .applied)
  | commitBranch parent latest receipt ports =>
      (Executor.commitBranch parent latest receipt ports self).1.satisfies (· = .applied)
  | _ => false

/-- An applied call has released its effect and charged its bound. -/
theorem Call.run_applied [AccountingPort π] (call : Call π) (self : Executor π)
    (applies : call.applies self = true) :
    ∃ effect bound, call.commitment = some (effect, bound) ∧
      Executor.Applied self (call.run self).2 effect bound := by
  cases call with
  | commit => exact ⟨_, _, rfl, Executor.commitOutcome_settles.applied applies⟩
  | commitFenced => exact ⟨_, _, rfl, Executor.commitFenced_settles.applied applies⟩
  | commitLedger => exact ⟨_, _, rfl, Executor.commitLedger_settles.applied applies⟩
  | commitSemantic => exact ⟨_, _, rfl, Executor.commitSemantic_settles.applied applies⟩
  | commitSecurity => exact ⟨_, _, rfl, Executor.commitSecurity_settles.applied applies⟩
  | commitBranch => exact ⟨_, _, rfl, Executor.commitBranch_settles.applied applies⟩
  | _ => cases applies

/-- Any other call leaves the log, the typed state and the region total alone,
except for the two that only rewrite the region total. -/
theorem Call.run_unapplied [AccountingPort π] (call : Call π) (self : Executor π)
    (unapplied : call.applies self = false) :
    ∃ units, (call.run self).2.durable = { self.durable with regionAdmitted := units } ∧
      (call.reaccounts = false → units = self.regionAdmitted) := by
  have kept : call.reaccounts = false → (call.run self).2.durable = self.durable := by
    intro accounted
    cases call with
    | bindPort => rfl
    | recalibrateMargins => exact Executor.recalibrateMargins_inert self
    | armRegionAccounting => rfl
    | resetRegionAccounting => cases accounted
    | admitRegionUnits => cases accounted
    | propose => exact Executor.propose_inert self
    | proposeAs => exact Executor.proposeAs_inert self
    | snapshot => exact Executor.snapshot_inert self
    | generate => exact Executor.generate_inert self
    | abort => exact Executor.abort_inert self
    | validate => exact Executor.validate_inert self
    | commit =>
        exact Executor.commitOutcome_settles.durable Executor.commitOutcome_publishes unapplied
    | commitFenced =>
        exact Executor.commitFenced_settles.durable Executor.commitFenced_publishes unapplied
    | validateLedger => exact Executor.validateLedger_inert self
    | commitLedger =>
        exact Executor.commitLedger_settles.durable Executor.commitLedger_publishes unapplied
    | validateSemantic => exact Executor.validateSemantic_inert self
    | validateProjection => exact Executor.validateProjection_inert self
    | commitSemantic =>
        exact Executor.commitSemantic_settles.durable Executor.commitSemantic_publishes unapplied
    | validateSecurity => exact Executor.validateSecurity_inert self
    | commitSecurity =>
        exact Executor.commitSecurity_settles.durable Executor.commitSecurity_publishes unapplied
    | validateBranch => exact Executor.validateBranch_inert self
    | validateBranchReturn => exact Executor.validateBranchReturn_inert self
    | commitBranch =>
        exact Executor.commitBranch_settles.durable Executor.commitBranch_publishes unapplied
  cases accounted : call.reaccounts with
  | false => exact ⟨self.regionAdmitted, kept accounted, fun _ => rfl⟩
  | true =>
      cases call with
      | resetRegionAccounting => exact ⟨_, rfl, nofun⟩
      | admitRegionUnits units => exact ⟨_, rfl, nofun⟩
      | _ => cases accounted

/-- A receipt-checked commit that applies releases an effect of the operation
that the live transaction was proposed under. -/
theorem Call.run_named (call : Call π) (self : Executor π) (applies : call.applies self = true)
    (checked : call.generic = false) :
    ∃ kind bound txn, call.commitment = some (some kind, bound) ∧ self.current = some txn ∧
      operationName kind = some txn.op := by
  cases call with
  | commitLedger =>
      rcases Outcome.satisfies_iff.mp applies with ⟨outcome, returned, _⟩
      rcases (Executor.commitLedger_ok (Prod.ext returned rfl)).1.named with ⟨txn, live, named⟩
      exact ⟨_, _, txn, rfl, live, named⟩
  | commitSemantic =>
      rcases Outcome.satisfies_iff.mp applies with ⟨outcome, returned, _⟩
      rcases (Executor.commitSemantic_ok (Prod.ext returned rfl)).1.named with ⟨txn, live, named⟩
      exact ⟨_, _, txn, rfl, live, named⟩
  | commitSecurity =>
      rcases Outcome.satisfies_iff.mp applies with ⟨outcome, returned, _⟩
      rcases (Executor.commitSecurity_ok (Prod.ext returned rfl)).1.named with ⟨txn, live, named⟩
      exact ⟨_, _, txn, rfl, live, named⟩
  | commitBranch =>
      rcases Outcome.satisfies_iff.mp applies with ⟨outcome, returned, _⟩
      rcases (Executor.commitBranch_ok (Prod.ext returned rfl)).1.named with ⟨txn, live, named⟩
      exact ⟨_, _, txn, rfl, live, named⟩
  | commit => cases checked
  | commitFenced => cases checked
  | _ => cases applies

end Commitments

section Effects

variable {π : Type}

/-- A generic commit carries no effect of another operation. -/
def Call.Names (op : String) : Call π → Prop
  | commit _ effect _ | commitFenced _ _ effect _ =>
      ∀ kind name, effect = some kind → operationName kind = some name → name = op
  | _ => True

/-- What an applied commit of a transaction proposed under `op` may append:
nothing, an effect of `op`, an event outside the registry from a generic commit,
or an admission behind the session scope it opens. -/
inductive Released (call : Call π) (op : String) : List EventKind → Prop
  | nothing (generic : call.generic = true) : Released call op []
  | effect {kind : EventKind} (named : operationName kind = some op) : Released call op [kind]
  | exempt {kind : EventKind} (generic : call.generic = true) (raw : operationName kind = none) :
      Released call op [kind]
  | admission {subject argument : UInt64} (named : OperationClass.admitIngress.name = op) :
      Released call op [.operationCommit .scopeOpen sessionScope 0,
        .operationCommit .admitIngress subject argument]

variable [Wire]

theorem released_of_named {call : Call π} {op : String} {kind : EventKind} (self : Executor π)
    (named : operationName kind = some op) : Released call op (self.released (some kind)) := by
  change Released call op (self.opening kind ++ [kind])
  unfold Executor.opening
  split
  · split
    · exact .effect named
    · exact .admission (Option.some.inj named)
  · exact .effect named

theorem released_of_raw {call : Call π} {op : String} {kind : EventKind} (self : Executor π)
    (generic : call.generic = true) (raw : operationName kind = none) :
    Released call op (self.released (some kind)) := by
  change Released call op (self.opening kind ++ [kind])
  unfold Executor.opening
  split
  · cases raw
  · exact .exempt generic raw

theorem Call.released_of_generic {call : Call π} {op : String} {effect : Option EventKind}
    {bound : Nat} (self : Executor π) (generic : call.generic = true)
    (commits : call.commitment = some (effect, bound)) (names : call.Names op) :
    Released call op (self.released effect) := by
  have same : ∀ kind name, effect = some kind → operationName kind = some name → name = op := by
    cases call with
    | commit =>
        cases commits
        exact names
    | commitFenced =>
        cases commits
        exact names
    | _ => cases generic
  cases effect with
  | none => exact .nothing generic
  | some kind =>
      cases named : operationName kind with
      | none => exact released_of_raw self generic named
      | some name =>
          rw [same kind name rfl named] at named
          exact released_of_named self named

/-- Only a commit that applies appends to the log.  The transaction it ends was
proposed under the operation of every registered effect it appends, unless it is
a generic commit that was handed another operation's effect. -/
theorem committed_effects_named [AccountingPort π] (start : Start) (calls : List (Call π))
    (call : Call π) :
    (call.applies (session start calls) = false →
        (session start (calls ++ [call])).log = (session start calls).log) ∧
      (call.applies (session start calls) = true →
        ∃ txn appended, (session start calls).current = some txn ∧
          (session start (calls ++ [call])).log.kinds =
            (session start calls).log.kinds ++ appended ∧
          (call.Names txn.op → Released call txn.op appended)) := by
  have stepped : session start (calls ++ [call]) = (call.run (session start calls)).2 :=
    run_concat
  rw [stepped]
  constructor
  · intro unapplied
    rcases call.run_unapplied _ unapplied with ⟨units, kept, _⟩
    exact congrArg Durable.log kept
  · intro applies
    rcases call.run_applied _ applies with ⟨effect, bound, commits, applied⟩
    rcases applied.live with ⟨txn, live⟩
    refine ⟨txn, _, live, applied.appended, ?_⟩
    intro names
    cases generic : call.generic with
    | true => exact call.released_of_generic _ generic commits names
    | false =>
        rcases call.run_named _ applies generic with ⟨kind, _, found, commits', live', named⟩
        cases commits.symm.trans commits'
        cases live.symm.trans live'
        exact released_of_named _ named

end Effects

section Unnamed

local instance unnamedWire : Wire := .emptySession

/-- Two admissions: the first releases the opening of a scope, the second raw
text of a tool. -/
def unnamedCalls : List (Call BoundPort) :=
  [.bindPort ⟨.v1, 0, 0⟩,
    .proposeAs "admit-ingress" 7 .s, .snapshot, .generate, .validate 64 ⟨1000, 0, 0⟩ 0 0 0 0,
    .commit 7 (some (.operationCommit .scopeOpen 1 0)) 64,
    .proposeAs "admit-ingress" 7 .s, .snapshot, .generate, .validate 64 ⟨1000, 0, 0⟩ 0 0 0 0,
    .commit 7 (some (.append (.toolResult "tool" "read_file") [104, 105] 1 [])) 64]

/-- Both admissions commit, and neither of the events they append is named by
the operation they were proposed under. -/
theorem admissions_append_unnamed :
    let final := session (.new 1 (.generous 1)) unnamedCalls
    (final.log.kinds = [.operationCommit .scopeOpen 1 0,
        .append (.toolResult "tool" "read_file") [104, 105] 1 []] ∧
      final.current.map Txn.op = some "admit-ingress" ∧ final.state = .committed) ∧
      final.log.kinds.map operationName = [some "scope-open", none] := by
  decide +kernel

end Unnamed

end Llxprt.Transaction
