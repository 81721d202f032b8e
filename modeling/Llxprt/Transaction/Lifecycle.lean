import Llxprt.Rust.Lifecycle
import Llxprt.Transaction.Calls

/-!
# Lifecycle of a transaction

Every call makes at most one step of the documented state machine and may abort
the transaction.  Several methods record a failure before they look at the
state, so a failing call can also abort a transaction that has committed.
-/

namespace Llxprt.Transaction

open Llxprt.Rust Llxprt.Kernel

namespace Executor

variable [Wire] {π ε α β : Type}

/-- The method keeps the state of the transaction or aborts it. -/
abbrev Idle (method : Method (Executor π) ε α) : Prop :=
  Method.KeepsOrDies Executor.state .aborted method

/-- A documented step into the given state. -/
def StepInto (target source reached : TxnState) : Prop :=
  source.canTransition reached = true ∧ reached = target

/-- The method makes at most one documented step, into the given state, and may
abort the transaction. -/
abbrev Steps (target : TxnState) (method : Method (Executor π) ε α) : Prop :=
  Method.MovesOrDies Executor.state (StepInto target) .aborted method

/-- The method makes at most one documented step, into the given state, and is
refused after a commit. -/
abbrev Advancing (target : TxnState) (method : Method (Executor π) ε α) : Prop :=
  Method.Advances Executor.state (StepInto target) .aborted .committed method

/-- The method makes at most one documented step, into the given state.  After a
commit it aborts the transaction, unless it panics. -/
structure Overturning (target : TxnState) (method : Method (Executor π) ε α) : Prop where
  steps : Steps target method
  overturns : ∀ self : Executor π, self.state = .committed → (method self).1 ≠ .panic →
    (method self).2.state = .aborted

section Statements

variable {self : Executor π}

theorem kill_idle {error : ε} : Idle (kill error : Method (Executor π) ε α) :=
  fun _ => .inr ⟨rfl, rfl⟩

theorem killIf_idle {refused : Prop} [Decidable refused] {error : ε} :
    Idle (killIf refused error : Method (Executor π) ε Unit) := by
  unfold killIf
  split
  · exact kill_idle
  · exact Method.keepsOrDies_of_keeps Method.keeps_pure

theorem idle_read : Idle (Method.read : Method (Executor π) ε _) :=
  Method.keepsOrDies_of_keeps Method.keeps_read

theorem idle_refuse {refused : Prop} [Decidable refused] {error : ε} :
    Idle (Method.refuse refused error : Method (Executor π) ε Unit) :=
  Method.keepsOrDies_of_keeps Method.keeps_refuse

theorem idle_ofExcept {result : Except ε α} :
    Idle (Method.ofExcept result : Method (Executor π) ε α) :=
  Method.keepsOrDies_of_keeps Method.keeps_ofExcept

theorem idle_pure {value : α} : Idle (pure value : Method (Executor π) ε α) :=
  Method.keepsOrDies_of_keeps Method.keeps_pure

theorem idle_update_pure {change : Executor π → Executor π} {value : α}
    (kept : ∀ self, (change self).state = self.state) :
    Idle (Method.update change >>= fun _ => pure value : Method (Executor π) ε α) :=
  Method.keepsOrDies_of_keeps (Method.keeps_update_pure kept)

theorem orFail_idle {inner : Method (Executor π) ε α} (idle : Idle inner) :
    Idle (inner.orElse fail) :=
  Method.keepsOrDies_orElse idle fun _ => rfl

/-- The failure of an advancing method is recorded without a look at the state. -/
theorem orFail_overturning {target : TxnState} {inner : Method (Executor π) ε α}
    (advancing : Advancing target inner) : Overturning target (inner.orElse fail) := by
  have kills : ∀ self : Executor π, self.fail.state = .aborted := fun _ => rfl
  constructor
  · exact Method.movesOrDies_orElse advancing.moves kills
  · intro self isCommitted returned
    exact advancing.blocked.dies kills isCommitted returned

theorem currentRow_idle : Idle (currentRow : Method (Executor π) _ _) :=
  Method.keepsOrDies_of_keeps currentRow_keeps

theorem candidate_idle {kind : EventKind} {refused : Option ε} {replay : ReducerError → ε} :
    Idle (candidate kind refused replay : Method (Executor π) _ _) :=
  Method.keepsOrDies_of_keeps candidate_keeps

omit [Wire] in
theorem committed_canTransition (target : TxnState) :
    TxnState.canTransition .committed target = false := by
  cases target <;> rfl

theorem step_steps {target : TxnState} :
    Steps target (step target : Method (Executor π) _ _) := by
  intro self
  unfold step
  by_cases isAborted : self.aborted = true
  · exact .inl (by simp [Method.bind_apply, Method.refuse_apply, isAborted])
  · by_cases allowed : self.state.canTransition target = true
    · right
      right
      simp [Method.bind_apply, Method.refuse_apply, isAborted, allowed, StepInto]
    · exact .inl (by simp [Method.bind_apply, Method.refuse_apply, isAborted, allowed])

theorem step_of_committed {target : TxnState} (isCommitted : self.state = .committed) :
    step target self = (.err (.illegalTransition .committed target), self) := by
  unfold step
  by_cases isAborted : self.aborted = true
  · simp [Method.bind_apply, Method.refuse_apply, isAborted, isCommitted]
  · simp [Method.bind_apply, Method.refuse_apply, isAborted, isCommitted,
      committed_canTransition]

theorem step_advancing {target : TxnState} :
    Advancing target (step target : Method (Executor π) _ _) where
  moves := step_steps
  blocked self isCommitted := by
    rw [step_of_committed isCommitted]
    rfl

theorem snapshot_steps : Steps .snapshotted (snapshot : Method (Executor π) _ _) := by
  apply Method.movesOrDies_then step_steps
  intro _
  apply Method.keepsOrDies_bind idle_read
  intro self
  exact Method.keepsOrDies_of_keeps Method.keeps_expect

theorem generate_steps : Steps .generated (generate : Method (Executor π) _ _) := by
  apply Method.movesOrDies_then step_steps
  intro _
  apply Method.keepsOrDies_bind currentRow_idle
  rintro ⟨txn, row⟩
  apply Method.keepsOrDies_bind idle_read
  intro self
  apply Method.keepsOrDies_bind killIf_idle
  intro _
  exact idle_pure

theorem abort_steps : Steps .aborted (abort : Method (Executor π) _ _) := by
  intro self
  unfold abort
  by_cases allowed : self.state.canTransition .aborted = true
  · exact .inr (.inl (by simp [Method.bind_apply, Method.refuse_apply, allowed]))
  · exact .inl (by simp [Method.bind_apply, Method.refuse_apply, allowed])

theorem validate_advancing [AccountingPort π]
    {claimedBound floor phiPre phiPost effectBytes : Nat} {budget : Budget} :
    Advancing .validated (validate claimedBound budget floor phiPre phiPost effectBytes :
      Method (Executor π) _ _) := by
  apply Method.advances_then step_advancing
  intro _
  apply Method.keepsOrDies_bind currentRow_idle
  rintro ⟨txn, row⟩
  apply Method.keepsOrDies_bind idle_read
  intro self
  split
  · exact kill_idle
  · apply Method.keepsOrDies_bind killIf_idle
    intro _
    apply Method.keepsOrDies_bind killIf_idle
    intro _
    apply Method.keepsOrDies_bind killIf_idle
    intro _
    exact idle_pure

end Statements

section Commits

variable {self : Executor π}

theorem checkRegion_idle {payloadBound : Nat} :
    Idle (checkRegion payloadBound : Method (Executor π) _ _) := by
  apply Method.keepsOrDies_bind idle_read
  intro self
  split
  · exact idle_pure
  · exact killIf_idle

theorem publish_idle {effect : Option EventKind} :
    Idle (publish effect : Method (Executor π) _ _) := by
  cases effect with
  | none => exact idle_pure
  | some kind =>
      intro self
      rcases appended : appendEffect kind self with ⟨_ | error | _, staged⟩
      · cases audit : auditTip staged.log staged.typed staged.contract with
        | ok _ => exact .inl (by simp only [publish, publishEffect, appended, audit])
        | err error =>
            have killed : publish (some kind) self = kill (.audit error) self := by
              simp only [publish, publishEffect, appended, audit]
            rw [killed]
            exact .inr ⟨rfl, rfl⟩
        | panic => exact .inl (by simp only [publish, publishEffect, appended, audit])
      · have killed : publish (some kind) self = kill error self := by
          simp only [publish, publishEffect, appended]
        rw [killed]
        exact .inr ⟨rfl, rfl⟩
      · exact .inl (by simp only [publish, publishEffect, appended])

/-- A commit commits, aborts or leaves the transaction where it was. -/
theorem commitChecked_commits {actualParent payloadBound : Nat} {effect : Option EventKind} :
    Method.MovesOrDies Executor.state (fun _ target => target = .committed) .aborted
      (commitChecked actualParent effect payloadBound : Method (Executor π) _ _) := by
  apply Method.movesOrDies_bind idle_read
  intro self
  apply Method.movesOrDies_bind idle_refuse
  intro _
  apply Method.movesOrDies_bind currentRow_idle
  rintro ⟨txn, row⟩
  dsimp only
  split
  · exact Method.movesOrDies_of_keepsOrDies kill_idle
  · split
    · apply Method.movesOrDies_bind checkRegion_idle
      intro _
      apply Method.movesOrDies_bind publish_idle
      intro _ self
      exact .inr (.inr rfl)
    · split
      · intro self
        exact .inr (.inr rfl)
      · exact Method.movesOrDies_of_keepsOrDies kill_idle

theorem commitChecked_refused {actualParent payloadBound : Nat} {effect : Option EventKind}
    (forbidden : self.state.canTransition .committed = false) :
    commitChecked actualParent effect payloadBound self =
      (.err (.illegalTransition self.state .committed), self) := by
  unfold commitChecked
  simp [Method.bind_apply, Method.refuse_apply, forbidden]

theorem commitChecked_of_committed {actualParent payloadBound : Nat} {effect : Option EventKind}
    (isCommitted : self.state = .committed) :
    commitChecked actualParent effect payloadBound self =
      (.err (.illegalTransition self.state .committed), self) := by
  apply commitChecked_refused
  rw [isCommitted, committed_canTransition]

theorem commitChecked_steps {actualParent payloadBound : Nat} {effect : Option EventKind} :
    Steps .committed (commitChecked actualParent effect payloadBound : Method (Executor π) _ _) := by
  intro self
  cases allowed : self.state.canTransition .committed with
  | true =>
      rcases commitChecked_commits self with kept | died | committed
      · exact .inl kept
      · exact .inr (.inl died)
      · right
        right
        rw [committed]
        exact ⟨allowed, rfl⟩
  | false =>
      rw [commitChecked_refused allowed]
      exact .inl rfl

theorem commitChecked_advancing {actualParent payloadBound : Nat} {effect : Option EventKind} :
    Advancing .committed (commitChecked actualParent effect payloadBound : Method (Executor π) _ _) where
  moves := commitChecked_steps
  blocked self isCommitted := by
    rw [commitChecked_of_committed isCommitted]
    rfl

theorem commitOutcome_steps {actualParent payloadBound : Nat} {effect : Option EventKind} :
    Steps .committed (commitOutcome actualParent effect payloadBound : Method (Executor π) _ _) := by
  apply Method.movesOrDies_bind idle_read
  intro self
  apply Method.movesOrDies_bind killIf_idle
  intro _
  apply Method.movesOrDies_bind killIf_idle
  intro _
  apply Method.movesOrDies_bind killIf_idle
  intro _
  exact commitChecked_steps

theorem commitFenced_steps {actualParent latest payloadBound : Nat} {effect : Option EventKind} :
    Steps .committed (commitFenced actualParent latest effect payloadBound : Method (Executor π) _ _) := by
  apply Method.movesOrDies_bind idle_read
  intro self
  apply Method.movesOrDies_bind killIf_idle
  intro _
  exact commitOutcome_steps

end Commits

section Receipts

theorem validateLedger_steps [AccountingPort π] {command : Command} {budget : Budget} :
    Steps .validated (validateLedger command budget : Method (Executor π) _ _) := by
  apply Method.movesOrDies_bind (orFail_idle candidate_idle)
  intro candidate
  apply Method.movesOrDies_bind idle_read
  intro self
  dsimp only
  split
  · exact Method.movesOrDies_of_keepsOrDies kill_idle
  · apply Method.movesOrDies_then (Method.movesOrDies_mapErr validate_advancing.moves)
    intro _
    apply Method.keepsOrDies_bind killIf_idle
    intro _
    exact idle_update_pure fun _ => rfl

theorem commitLedger_steps {actualParent latest payloadBound : Nat} {command : Command}
    {ports : LedgerPorts} :
    Steps .committed (commitLedger actualParent latest command ports payloadBound :
      Method (Executor π) _ _) := by
  apply Method.movesOrDies_bind idle_read
  intro self
  apply Method.movesOrDies_bind killIf_idle
  intro _
  apply Method.movesOrDies_bind (orFail_idle idle_ofExcept)
  intro _
  apply Method.movesOrDies_bind (orFail_idle candidate_idle)
  intro candidate
  split
  · exact Method.movesOrDies_of_keepsOrDies kill_idle
  · exact Method.movesOrDies_mapErr commitChecked_steps

section Semantic

variable [AccountingPort π] {event : SemanticEvent} {budget : Budget}

theorem mintSemantic_advancing :
    Advancing .validated (mintSemantic event budget : Method (Executor π) _ _) := by
  apply Method.advances_then
  · apply Method.advances_bind candidate_idle
    intro candidate
    apply Method.advances_bind idle_read
    intro self
    apply Method.advances_bind idle_ofExcept
    intro bound
    apply Method.advances_then (Method.advances_mapErr validate_advancing)
    intro _
    apply Method.keepsOrDies_bind idle_ofExcept
    intro row
    apply Method.keepsOrDies_bind idle_refuse
    intro _
    exact idle_pure
  · intro bound
    exact idle_update_pure fun _ => rfl

theorem validateSemantic_overturning {command : SemanticCommand} {services : SemanticServices} :
    Overturning .validated (validateSemantic command services budget : Method (Executor π) _ _) := by
  apply orFail_overturning
  apply Method.advances_bind idle_read
  intro self
  exact Method.advances_bind idle_ofExcept fun _ => mintSemantic_advancing

theorem validateProjection_overturning :
    Overturning .validated (validateProjection event budget : Method (Executor π) _ _) := by
  apply orFail_overturning
  apply Method.advances_bind idle_refuse
  intro _
  apply Method.advances_bind idle_read
  intro self
  exact Method.advances_bind idle_ofExcept fun _ => mintSemantic_advancing

omit [AccountingPort π] in
theorem commitSemantic_overturning {actualParent latest : Nat} {receipt : SemanticReceipt} :
    Overturning .committed (commitSemantic actualParent latest receipt : Method (Executor π) _ _) := by
  apply orFail_overturning
  apply Method.advances_bind idle_read
  intro self
  apply Method.advances_bind idle_ofExcept
  intro _
  apply Method.advances_bind idle_refuse
  intro _
  apply Method.advances_bind idle_refuse
  intro _
  apply Method.advances_bind candidate_idle
  intro candidate
  apply Method.advances_bind idle_ofExcept
  intro _
  exact Method.advances_mapErr commitChecked_advancing

end Semantic

section Security

variable {event : SecurityEvent} {ports : SecurityPorts}

theorem securityCandidate_idle :
    Idle (securityCandidate event : Method (Executor π) _ _) := by
  apply Method.keepsOrDies_bind candidate_idle
  intro candidate
  apply Method.keepsOrDies_bind idle_read
  intro self
  exact Method.keepsOrDies_bind idle_ofExcept fun _ => idle_pure

theorem validateSecurity_overturning [AccountingPort π] {budget : Budget} :
    Overturning .validated (validateSecurity event ports budget : Method (Executor π) _ _) := by
  apply orFail_overturning
  apply Method.advances_bind idle_read
  intro self
  apply Method.advances_bind idle_ofExcept
  intro _
  apply Method.advances_bind securityCandidate_idle
  intro _
  apply Method.advances_bind idle_ofExcept
  intro bound
  apply Method.advances_then (Method.advances_mapErr validate_advancing)
  intro _
  apply Method.keepsOrDies_bind idle_refuse
  intro _
  exact idle_update_pure fun _ => rfl

theorem commitSecurity_overturning {parent latest : Nat} {receipt : SecurityReceipt} :
    Overturning .committed (commitSecurity parent latest receipt ports : Method (Executor π) _ _) := by
  apply orFail_overturning
  apply Method.advances_andThen
  · apply Method.advances_bind idle_read
    intro self
    apply Method.advances_bind idle_ofExcept
    intro _
    apply Method.advances_bind idle_refuse
    intro _
    apply Method.advances_bind securityCandidate_idle
    intro _
    exact Method.advances_mapErr commitChecked_advancing
  · intro self
    rfl

end Security

section Branches

variable {event : BranchEvent} {principal : Source} {ports : BranchPorts}

theorem branchCandidate_idle : Idle (branchCandidate event : Method (Executor π) _ _) := by
  apply Method.keepsOrDies_bind idle_read
  intro self
  apply Method.keepsOrDies_bind idle_ofExcept
  intro _
  exact candidate_idle

theorem branchReceipt_advancing [AccountingPort π] {budget : Budget} :
    Advancing .validated (branchReceipt event principal budget : Method (Executor π) _ _) := by
  apply Method.advances_bind idle_read
  intro self
  apply Method.advances_bind idle_refuse
  intro _
  apply Method.advances_bind branchCandidate_idle
  intro candidate
  apply Method.advances_bind idle_ofExcept
  intro _
  apply Method.advances_bind idle_ofExcept
  intro bound
  apply Method.advances_then (Method.advances_mapErr validate_advancing)
  intro _
  apply Method.keepsOrDies_bind idle_refuse
  intro _
  exact idle_update_pure fun _ => rfl

theorem validateBranch_overturning [AccountingPort π] {budget : Budget} :
    Overturning .validated (validateBranch event principal ports budget : Method (Executor π) _ _) := by
  apply orFail_overturning
  apply Method.advances_bind idle_refuse
  intro _
  apply Method.advances_bind idle_read
  intro self
  apply Method.advances_bind idle_ofExcept
  intro _
  apply Method.advances_bind idle_ofExcept
  intro _
  exact branchReceipt_advancing

section Returns

variable [AccountingPort π] {nameSpace : String} {candidate : Candidate}
  {services : SemanticServices} {budget : Budget}

theorem validateBranchReturn_overturning :
    Overturning .validated (validateBranchReturn nameSpace candidate principal services ports budget :
      Method (Executor π) _ _) := by
  apply orFail_overturning
  apply Method.advances_bind idle_read
  intro self
  exact Method.advances_bind idle_ofExcept fun _ => branchReceipt_advancing

end Returns

theorem commitBranch_overturning {parent latest : Nat} {receipt : BranchReceipt} :
    Overturning .committed (commitBranch parent latest receipt ports : Method (Executor π) _ _) := by
  apply orFail_overturning
  apply Method.advances_andThen
  · apply Method.advances_bind idle_read
    intro self
    apply Method.advances_bind idle_ofExcept
    intro _
    apply Method.advances_bind idle_ofExcept
    intro _
    apply Method.advances_bind idle_refuse
    intro _
    apply Method.advances_bind branchCandidate_idle
    intro _
    exact Method.advances_mapErr commitChecked_advancing
  · intro self
    rfl

end Branches

end Receipts

section Tripwires

variable {self : Executor π}

/-- The generic commits fail the transaction over this effect before they look
at its state. -/
def NeedsReceipt (self : Executor π) (effect : Option EventKind) : Prop :=
  (self.ownerPhase = some 8 ∨ needsSecurityReceipt effect) ∨
    (self.ownerPhase = some 6 ∨ needsSemanticReceipt effect) ∨
    (self.ownerPhase = some 5 ∨ needsLedgerReceipt effect)

/-- A candidate that fails the transaction, unless it panics or `passes`. -/
def Trips (outcome : Outcome ε α) (passes : α → Prop) : Prop :=
  match outcome with
  | .ok value => ¬ passes value
  | .err _ => True
  | .panic => False

/-- The validation of a ledger command fails the transaction before its step. -/
def LedgerUnvalidated (self : Executor π) (command : Command) : Prop :=
  Trips (ledgerCandidate command self).1 fun _ => self.port.isSome

/-- The commit of a ledger command fails the transaction before its state check. -/
def LedgerUncommitted (self : Executor π) (latest : Nat) (command : Command)
    (ports : LedgerPorts) (payloadBound : Nat) : Prop :=
  self.ledgerValidation ≠ some (command, payloadBound) ∨
    (∀ passed, self.checkLedgerCommand latest command ports ≠ .ok passed) ∨
    Trips (ledgerCandidate command self).1 fun candidate =>
      ∃ verdict, isLegal candidate self.contract = .ok verdict

theorem killIf_of {refused : Prop} [Decidable refused] {error : ε} (holds : refused) :
    killIf refused error self = (.err error, self.fail) := by
  rw [killIf, if_pos holds]
  rfl

theorem killIf_of_not {refused : Prop} [Decidable refused] {error : ε} (fails : ¬ refused) :
    killIf refused error self = (.ok (), self) := by
  rw [killIf, if_neg fails]
  rfl

theorem killIf_bind_state {refused : Prop} [Decidable refused] {error : ε}
    {next : Unit → Method (Executor π) ε α} (holds : refused) :
    ((killIf refused error >>= next) self).2.state = .aborted := by
  rw [Method.bind_of_err (killIf_of holds)]
  rfl

theorem commitOutcome_of_needsReceipt {actualParent payloadBound : Nat}
    {effect : Option EventKind} (needs : self.NeedsReceipt effect) :
    (commitOutcome actualParent effect payloadBound self).2.state = .aborted := by
  unfold commitOutcome
  rw [Method.bind_of_ok (Method.read_apply self)]
  by_cases security : self.ownerPhase = some 8 ∨ needsSecurityReceipt effect
  · exact killIf_bind_state security
  · rw [Method.bind_of_ok (killIf_of_not security)]
    by_cases semantic : self.ownerPhase = some 6 ∨ needsSemanticReceipt effect
    · exact killIf_bind_state semantic
    · rw [Method.bind_of_ok (killIf_of_not semantic)]
      rcases needs with needed | needed | ledger
      · exact absurd needed security
      · exact absurd needed semantic
      · exact killIf_bind_state ledger

theorem commitOutcome_of_not_needsReceipt {actualParent payloadBound : Nat}
    {effect : Option EventKind} (free : ¬ self.NeedsReceipt effect) :
    commitOutcome actualParent effect payloadBound self =
      commitChecked actualParent effect payloadBound self := by
  unfold NeedsReceipt at free
  push Not at free
  unfold commitOutcome
  rw [Method.bind_of_ok (Method.read_apply self)]
  rw [Method.bind_of_ok (killIf_of_not (not_or.mpr free.1))]
  rw [Method.bind_of_ok (killIf_of_not (not_or.mpr free.2.1))]
  rw [Method.bind_of_ok (killIf_of_not (not_or.mpr free.2.2))]

theorem orFail_bind_state {inner : Method (Executor π) ε α} {next : α → Method (Executor π) ε β}
    {error : ε} {middle : Executor π} (failed : inner self = (.err error, middle)) :
    ((inner.orElse fail >>= next) self).2.state = .aborted := by
  have recorded : inner.orElse fail self = (.err error, middle.fail) := by
    unfold Method.orElse
    rw [failed]
  rw [Method.bind_of_err recorded]
  rfl

theorem orFail_bind_of_ok {inner : Method (Executor π) ε α}
    {next : α → Method (Executor π) ε β} {value : α} {middle : Executor π}
    (returned : inner self = (.ok value, middle)) :
    (inner.orElse fail >>= next) self = next value middle := by
  have passed : inner.orElse fail self = (.ok value, middle) := by
    unfold Method.orElse
    rw [returned]
  rw [Method.bind_of_ok passed]

theorem orFail_bind_of_panic {inner : Method (Executor π) ε α}
    {next : α → Method (Executor π) ε β} {middle : Executor π}
    (panicked : inner self = (.panic, middle)) :
    ((inner.orElse fail >>= next) self) = (.panic, middle) := by
  have passed : inner.orElse fail self = (.panic, middle) := by
    unfold Method.orElse
    rw [panicked]
  rw [Method.bind_apply, passed]

theorem ledgerCandidate_run (self : Executor π) (command : Command) :
    ledgerCandidate command self = ((ledgerCandidate command self).1, self) := by
  have kept : Method.Keeps id (ledgerCandidate command : Method (Executor π) _ _) :=
    candidate_keeps
  exact Prod.ext rfl (kept self)

theorem validate_of_committed [AccountingPort π]
    {claimedBound floor phiPre phiPost effectBytes : Nat} {budget : Budget}
    (isCommitted : self.state = .committed) :
    validate claimedBound budget floor phiPre phiPost effectBytes self =
      (.err (.illegalTransition .committed .validated), self) :=
  Method.bind_of_err (step_of_committed isCommitted)

/-- After a commit the validation of a ledger command aborts the transaction
exactly when it fails before its step. -/
theorem validateLedger_of_committed [AccountingPort π] {command : Command} {budget : Budget}
    (isCommitted : self.state = .committed) :
    (self.LedgerUnvalidated command → (validateLedger command budget self).2.state = .aborted) ∧
      (¬ self.LedgerUnvalidated command →
        (validateLedger command budget self).2.state = .committed) := by
  have ran := ledgerCandidate_run self command
  unfold validateLedger LedgerUnvalidated
  cases outcome : (ledgerCandidate command self).1 with
  | ok candidate =>
      rw [outcome] at ran
      rw [orFail_bind_of_ok ran, Method.bind_of_ok (Method.read_apply self)]
      unfold Trips portBound
      cases port : self.port with
      | none =>
          constructor
          · exact fun _ => rfl
          · exact fun passes => absurd (by simp) passes
      | some port =>
          constructor
          · exact fun trips => absurd (by simp) trips
          · intro _
            dsimp only [Option.map_some]
            rw [Method.bind_of_err (Method.mapErr_of_err (validate_of_committed isCommitted))]
            exact isCommitted
  | err error =>
      rw [outcome] at ran
      constructor
      · exact fun _ => orFail_bind_state ran
      · exact fun passes => absurd trivial passes
  | panic =>
      rw [outcome] at ran
      rw [orFail_bind_of_panic ran]
      constructor
      · exact fun trips => absurd trips id
      · exact fun _ => isCommitted

/-- After a commit the commit of a ledger command aborts the transaction exactly
when it fails before its state check. -/
theorem commitLedger_of_committed {actualParent latest payloadBound : Nat} {command : Command}
    {ports : LedgerPorts} (isCommitted : self.state = .committed) :
    (self.LedgerUncommitted latest command ports payloadBound →
        (commitLedger actualParent latest command ports payloadBound self).2.state = .aborted) ∧
      (¬ self.LedgerUncommitted latest command ports payloadBound →
        (commitLedger actualParent latest command ports payloadBound self).2.state =
          .committed) := by
  have ran := ledgerCandidate_run self command
  unfold commitLedger LedgerUncommitted
  rw [Method.bind_of_ok (Method.read_apply self)]
  by_cases other : self.ledgerValidation ≠ some (command, payloadBound)
  · constructor
    · exact fun _ => killIf_bind_state other
    · exact fun passes => absurd (.inl other) passes
  · rw [Method.bind_of_ok (killIf_of_not other)]
    cases checked : self.checkLedgerCommand latest command ports with
    | error error =>
        constructor
        · exact fun _ => orFail_bind_state rfl
        · exact fun passes => absurd (.inr (.inl nofun)) passes
    | ok passed =>
        have accepted : (Method.ofExcept (.ok passed) : Method (Executor π) LedgerCommitError Unit)
            self = (.ok passed, self) := rfl
        rw [orFail_bind_of_ok accepted]
        cases outcome : (ledgerCandidate command self).1 with
        | ok candidate =>
            rw [outcome] at ran
            rw [orFail_bind_of_ok ran]
            cases verdict : isLegal candidate self.contract with
            | error violation =>
                constructor
                · exact fun _ => rfl
                · exact fun passes => absurd (.inr (.inr (by simp [Trips, verdict]))) passes
            | ok legal =>
                constructor
                · rintro (changed | unchecked | trips)
                  · exact absurd changed other
                  · exact absurd rfl (unchecked passed)
                  · exact absurd ⟨_, verdict⟩ trips
                · intro _
                  dsimp only
                  rw [Method.mapErr_of_err (commitChecked_of_committed isCommitted)]
                  exact isCommitted
        | err error =>
            rw [outcome] at ran
            constructor
            · exact fun _ => orFail_bind_state ran
            · exact fun passes => absurd (.inr (.inr trivial)) passes
        | panic =>
            rw [outcome] at ran
            rw [orFail_bind_of_panic ran]
            constructor
            · rintro (changed | unchecked | trips)
              · exact absurd changed other
              · exact absurd rfl (unchecked passed)
              · exact absurd trips id
            · exact fun _ => isCommitted

end Tripwires

end Executor

/-- Calls that begin a transaction. -/
def Call.proposes {π : Type} : Call π → Bool
  | propose .. | proposeAs .. => true
  | _ => false

/-- A documented change of the transaction state: none, one step of the state
machine, a forward step cut short by an abort, or the reset of a proposal. -/
inductive Lawful {π : Type} (call : Call π) (before : TxnState) : TxnState → Prop
  | kept : Lawful call before before
  | stepped {after : TxnState} (allowed : before.canTransition after = true) :
      Lawful call before after
  | cut {middle : TxnState} (forward : before.canTransition middle = true)
      (aborts : middle.canTransition .aborted = true) : Lawful call before .aborted
  | proposed (proposes : call.proposes = true) : Lawful call before .proposed

section Transitions

variable [Wire] {π : Type}

/-- The call can record a failure before it looks at the state of the transaction. -/
def Call.Trips (executor : Executor π) : Call π → Prop
  | commit _ effect _ => executor.NeedsReceipt effect
  | commitFenced _ latest effect _ => executor.epoch < latest ∨ executor.NeedsReceipt effect
  | validateLedger command _ => executor.LedgerUnvalidated command
  | commitLedger _ latest command ports payloadBound =>
      executor.LedgerUncommitted latest command ports payloadBound
  | validateSemantic .. | validateProjection .. | commitSemantic .. => True
  | validateSecurity .. | commitSecurity .. => True
  | validateBranch .. | validateBranchReturn .. | commitBranch .. => True
  | _ => False

theorem lawful_of_steps {ε α : Type} {call : Call π} {target : TxnState}
    {method : Method (Executor π) ε α} {self : Executor π} (steps : Executor.Steps target method)
    (settled : self.state = .committed → (method self).2.state = .committed) :
    Lawful call self.state (method self).2.state := by
  rcases steps self with kept | died | moved
  · rw [kept]
    exact .kept
  · rw [died]
    cases isState : self.state with
    | committed =>
        rw [settled isState] at died
        cases died
    | aborted => exact .kept
    | proposed => exact .stepped rfl
    | snapshotted => exact .stepped rfl
    | generated => exact .stepped rfl
    | validated => exact .stepped rfl
  · exact .stepped moved.1

theorem calling_overturning {ε α : Type} {wrap : ε → CallError} {target : TxnState}
    {method : Method (Executor π) ε α} (overturning : Executor.Overturning target method) :
    Executor.Overturning target (calling wrap method) where
  steps := Method.movesOrDies_discard (Method.movesOrDies_mapErr overturning.steps)
  overturns self isCommitted returned := by
    apply overturning.overturns self isCommitted
    intro panicked
    apply returned
    simp [calling, Method.discard, Method.mapErr, Outcome.mapErr, panicked]

theorem Executor.recalibrateMargins_state [AccountingPort π] {version perToolDeclaration : Nat} :
    Method.Keeps Executor.state
      (Executor.recalibrateMargins version perToolDeclaration : Method (Executor π) _ _) :=
  Executor.recalibrateMargins_keeps fun _ _ => rfl

/-- A proposal keeps the state or resets it. -/
theorem propose_resets {op : String} {parentVersion : Nat} :
    Method.MovesOrDies Executor.state (fun _ target => target = .proposed) .proposed
      (Executor.propose op parentVersion : Method (Executor π) _ _) := by
  apply Method.movesOrDies_bind (Method.keepsOrDies_of_keeps Method.keeps_refuse)
  intro _
  apply Method.movesOrDies_bind (Method.keepsOrDies_of_keeps Method.keeps_read)
  intro self
  apply Method.movesOrDies_bind (Method.keepsOrDies_of_keeps Method.keeps_refuse)
  intro _ self
  exact .inr (.inr rfl)

theorem proposeAs_resets {op : String} {parentVersion : Nat} {principal : Proposer} :
    Method.MovesOrDies Executor.state (fun _ target => target = .proposed) .proposed
      (Executor.proposeAs op parentVersion principal : Method (Executor π) _ _) := by
  apply Method.movesOrDies_bind (Method.keepsOrDies_of_keeps Method.keeps_ofExcept)
  intro row
  apply Method.movesOrDies_bind (Method.keepsOrDies_of_keeps Method.keeps_refuse)
  intro _
  apply Method.movesOrDies_then propose_resets
  intro txn
  exact Method.keepsOrDies_of_keeps (Method.keeps_update_pure fun _ => rfl)

theorem lawful_of_resets {ε α : Type} {call : Call π} {method : Method (Executor π) ε α}
    {self : Executor π} (proposes : call.proposes = true)
    (resets : Method.MovesOrDies Executor.state (fun _ target => target = .proposed) .proposed
      method) :
    Lawful call self.state (method self).2.state := by
  rcases resets self with kept | reset | reset
  · rw [kept]
    exact .kept
  · rw [reset]
    exact .proposed proposes
  · rw [reset]
    exact .proposed proposes

theorem calling_steps {ε α : Type} {wrap : ε → CallError} {target : TxnState}
    {method : Method (Executor π) ε α} (steps : Executor.Steps target method) :
    Executor.Steps target (calling wrap method) :=
  Method.movesOrDies_discard (Method.movesOrDies_mapErr steps)

/-- The state that a call may step into. -/
def Call.goal : Call π → TxnState
  | snapshot => .snapshotted
  | generate => .generated
  | validate .. | validateLedger .. | validateSemantic .. | validateProjection .. => .validated
  | validateSecurity .. | validateBranch .. | validateBranchReturn .. => .validated
  | commit .. | commitFenced .. | commitLedger .. | commitSemantic .. => .committed
  | commitSecurity .. | commitBranch .. => .committed
  | _ => .aborted

/-- Apart from the proposals, a call makes at most one step, into its goal, and
may abort. -/
theorem Call.run_steps [AccountingPort π] (call : Call π) (unproposing : call.proposes = false) :
    Executor.Steps call.goal call.run := by
  cases call with
  | bindPort => exact fun _ => .inl rfl
  | recalibrateMargins => exact fun self => .inl (Executor.recalibrateMargins_state self)
  | armRegionAccounting => exact fun _ => .inl rfl
  | resetRegionAccounting => exact fun _ => .inl rfl
  | admitRegionUnits => exact fun _ => .inl rfl
  | propose => cases unproposing
  | proposeAs => cases unproposing
  | snapshot => exact calling_steps Executor.snapshot_steps
  | generate => exact calling_steps Executor.generate_steps
  | abort => exact calling_steps Executor.abort_steps
  | validate => exact calling_steps Executor.validate_advancing.moves
  | commit => exact calling_steps Executor.commitOutcome_steps
  | commitFenced => exact calling_steps Executor.commitFenced_steps
  | validateLedger => exact calling_steps Executor.validateLedger_steps
  | commitLedger => exact calling_steps Executor.commitLedger_steps
  | validateSemantic => exact calling_steps Executor.validateSemantic_overturning.steps
  | validateProjection => exact calling_steps Executor.validateProjection_overturning.steps
  | commitSemantic => exact calling_steps Executor.commitSemantic_overturning.steps
  | validateSecurity => exact calling_steps Executor.validateSecurity_overturning.steps
  | commitSecurity => exact calling_steps Executor.commitSecurity_overturning.steps
  | validateBranch => exact calling_steps Executor.validateBranch_overturning.steps
  | validateBranchReturn => exact calling_steps Executor.validateBranchReturn_overturning.steps
  | commitBranch => exact calling_steps Executor.commitBranch_overturning.steps

/-- A call that neither proposes nor trips leaves a committed transaction
committed. -/
theorem Call.run_of_committed [AccountingPort π] (call : Call π) (self : Executor π)
    (unproposing : call.proposes = false) (isCommitted : self.state = .committed)
    (untripped : ¬ call.Trips self) : (call.run self).2.state = .committed := by
  cases call with
  | bindPort => exact isCommitted
  | recalibrateMargins => exact (Executor.recalibrateMargins_state self).trans isCommitted
  | armRegionAccounting => exact isCommitted
  | resetRegionAccounting => exact isCommitted
  | admitRegionUnits => exact isCommitted
  | propose => cases unproposing
  | proposeAs => cases unproposing
  | snapshot =>
      change (Executor.snapshot self).2.state = _
      rw [Executor.snapshot, Method.bind_of_err (Executor.step_of_committed isCommitted)]
      exact isCommitted
  | generate =>
      change (Executor.generate self).2.state = _
      rw [Executor.generate, Method.bind_of_err (Executor.step_of_committed isCommitted)]
      exact isCommitted
  | abort =>
      have forbidden : ¬ self.state.canTransition .aborted = true := by
        rw [isCommitted]
        exact Bool.false_ne_true
      change (Executor.abort self).2.state = _
      rw [Executor.abort, Method.bind_of_ok (Method.read_apply self), Method.bind_apply,
        Method.refuse_apply, if_pos forbidden]
      exact isCommitted
  | validate claimedBound budget floor phiPre phiPost effectBytes =>
      change (Executor.validate claimedBound budget floor phiPre phiPost effectBytes self).2.state
        = _
      rw [Executor.validate_of_committed isCommitted]
      exact isCommitted
  | commit actualParent effect payloadBound =>
      change (Executor.commitOutcome actualParent effect payloadBound self).2.state = _
      rw [Executor.commitOutcome_of_not_needsReceipt untripped,
        Executor.commitChecked_of_committed isCommitted]
      exact isCommitted
  | commitFenced actualParent latest effect payloadBound =>
      rcases not_or.mp untripped with ⟨unfenced, free⟩
      change (Executor.commitFenced actualParent latest effect payloadBound self).2.state = _
      rw [Executor.commitFenced, Method.bind_of_ok (Method.read_apply self),
        Method.bind_of_ok (Executor.killIf_of_not unfenced), Executor.commit,
        Executor.commitOutcome_of_not_needsReceipt free,
        Executor.commitChecked_of_committed isCommitted]
      exact isCommitted
  | validateLedger => exact (Executor.validateLedger_of_committed isCommitted).2 untripped
  | commitLedger => exact (Executor.commitLedger_of_committed isCommitted).2 untripped
  | validateSemantic => exact absurd trivial untripped
  | validateProjection => exact absurd trivial untripped
  | commitSemantic => exact absurd trivial untripped
  | validateSecurity => exact absurd trivial untripped
  | commitSecurity => exact absurd trivial untripped
  | validateBranch => exact absurd trivial untripped
  | validateBranchReturn => exact absurd trivial untripped
  | commitBranch => exact absurd trivial untripped

theorem Call.run_lawful_of_proposes [AccountingPort π] {call : Call π} {self : Executor π}
    (proposes : call.proposes = true) : Lawful call self.state (call.run self).2.state := by
  cases call with
  | propose => exact lawful_of_resets rfl propose_resets
  | proposeAs => exact lawful_of_resets rfl proposeAs_resets
  | _ => cases proposes

/-- Unless it trips over a committed transaction, a call changes the state as
documented. -/
theorem Call.run_lawful [AccountingPort π] (call : Call π) (self : Executor π)
    (untripped : self.state = .committed → ¬ call.Trips self) :
    Lawful call self.state (call.run self).2.state := by
  cases proposes : call.proposes with
  | true => exact Call.run_lawful_of_proposes proposes
  | false =>
      apply lawful_of_steps (call.run_steps proposes)
      intro isCommitted
      exact call.run_of_committed self proposes isCommitted (untripped isCommitted)

/-- A call that trips over a committed transaction aborts it, unless it panics. -/
theorem Call.run_trips [AccountingPort π] (call : Call π) (self : Executor π)
    (isCommitted : self.state = .committed) (trips : call.Trips self)
    (returned : (call.run self).1 ≠ .panic) : (call.run self).2.state = .aborted := by
  cases call with
  | bindPort => exact absurd trips id
  | recalibrateMargins => exact absurd trips id
  | armRegionAccounting => exact absurd trips id
  | resetRegionAccounting => exact absurd trips id
  | admitRegionUnits => exact absurd trips id
  | propose => exact absurd trips id
  | proposeAs => exact absurd trips id
  | snapshot => exact absurd trips id
  | generate => exact absurd trips id
  | abort => exact absurd trips id
  | validate => exact absurd trips id
  | commit => exact Executor.commitOutcome_of_needsReceipt trips
  | commitFenced actualParent latest effect payloadBound =>
      change (Executor.commitFenced actualParent latest effect payloadBound self).2.state = _
      rw [Executor.commitFenced, Method.bind_of_ok (Method.read_apply self)]
      by_cases fenced : self.epoch < latest
      · exact Executor.killIf_bind_state fenced
      · rw [Method.bind_of_ok (Executor.killIf_of_not fenced)]
        exact Executor.commitOutcome_of_needsReceipt (trips.resolve_left fenced)
  | validateLedger => exact (Executor.validateLedger_of_committed isCommitted).1 trips
  | commitLedger => exact (Executor.commitLedger_of_committed isCommitted).1 trips
  | validateSemantic =>
      exact (calling_overturning Executor.validateSemantic_overturning).overturns self isCommitted
        returned
  | validateProjection =>
      exact (calling_overturning Executor.validateProjection_overturning).overturns self
        isCommitted returned
  | commitSemantic =>
      exact (calling_overturning Executor.commitSemantic_overturning).overturns self isCommitted
        returned
  | validateSecurity =>
      exact (calling_overturning Executor.validateSecurity_overturning).overturns self isCommitted
        returned
  | commitSecurity =>
      exact (calling_overturning Executor.commitSecurity_overturning).overturns self isCommitted
        returned
  | validateBranch =>
      exact (calling_overturning Executor.validateBranch_overturning).overturns self isCommitted
        returned
  | validateBranchReturn =>
      exact (calling_overturning Executor.validateBranchReturn_overturning).overturns self
        isCommitted returned
  | commitBranch =>
      exact (calling_overturning Executor.commitBranch_overturning).overturns self isCommitted
        returned

omit [Wire] in
theorem not_lawful_overturned {call : Call π} : ¬ Lawful call .committed .aborted := by
  intro lawful
  cases lawful with
  | stepped allowed =>
      rw [Executor.committed_canTransition] at allowed
      cases allowed
  | cut forward aborts =>
      rw [Executor.committed_canTransition] at forward
      cases forward

omit [Wire] in
/-- A lawful change leaves a committed transaction committed, unless it proposes. -/
theorem Lawful.of_committed {call : Call π} {after : TxnState} (lawful : Lawful call .committed after)
    (unproposed : call.proposes = false) : after = .committed := by
  cases lawful with
  | kept => rfl
  | stepped allowed =>
      rw [Executor.committed_canTransition] at allowed
      cases allowed
  | cut forward aborts =>
      rw [Executor.committed_canTransition] at forward
      cases forward
  | proposed proposes =>
      rw [proposes] at unproposed
      cases unproposed

end Transitions

section Histories

variable [Wire] {π : Type} [AccountingPort π] {start : Start} {calls : List (Call π)}

theorem session_concat {before : List (Call π)} {call : Call π} :
    session start (before ++ [call]) = (call.run (session start before)).2 :=
  run_concat

/-- Every change of the transaction state is a documented one. -/
def Documented (start : Start) (calls : List (Call π)) : Prop :=
  ∀ before call, before ++ [call] <+: calls →
    Lawful call (session start before).state (session start (before ++ [call])).state

/-- Only a proposal takes a transaction out of its committed state. -/
def CommitsStand (start : Start) (calls : List (Call π)) : Prop :=
  ∀ reached later, reached ++ later <+: calls → (session start reached).state = .committed →
    (∀ call ∈ later, call.proposes = false) →
    (session start (reached ++ later)).state = .committed

/-- No call trips over a committed transaction. -/
def Untripped (start : Start) (calls : List (Call π)) : Prop :=
  ∀ before call, before ++ [call] <+: calls → (session start before).state = .committed →
    ¬ call.Trips (session start before)

/-- No call panics. -/
def Unpanicked (start : Start) (calls : List (Call π)) : Prop :=
  ∀ before call, before ++ [call] <+: calls → (call.run (session start before)).1 ≠ .panic

theorem Documented.commitsStand (documented : Documented start calls) :
    CommitsStand start calls := by
  intro reached later isPrefix isCommitted
  induction later using List.reverseRecOn with
  | nil =>
      intro _
      rwa [List.append_nil]
  | append_singleton before call ih =>
      intro unproposed
      rw [← List.append_assoc] at isPrefix ⊢
      have earlier := ih ((List.prefix_append _ _).trans isPrefix)
        fun found member => unproposed found (List.mem_append_left _ member)
      have lawful := documented (reached ++ before) call isPrefix
      rw [earlier] at lawful
      exact lawful.of_committed (unproposed call (by simp))

/-- While no call trips over a committed transaction, the executor follows its
documented state machine and a commit stands until the next proposal.  A run
without panics follows it only then. -/
theorem lifecycle_documented (start : Start) (calls : List (Call π)) :
    (Untripped start calls → Documented start calls ∧ CommitsStand start calls) ∧
      (Unpanicked start calls → Documented start calls → Untripped start calls) := by
  constructor
  · intro untripped
    have documented : Documented start calls := by
      intro before call isPrefix
      rw [session_concat]
      exact call.run_lawful _ (untripped before call isPrefix)
    exact ⟨documented, documented.commitsStand⟩
  · intro unpanicked documented before call isPrefix isCommitted trips
    have lawful := documented before call isPrefix
    have aborted := call.run_trips _ isCommitted trips (unpanicked before call isPrefix)
    rw [session_concat, aborted, isCommitted] at lawful
    exact not_lawful_overturned lawful

end Histories

section Overturned

local instance overturnedWire : Wire := .emptySession

/-- A stale commit after an admission aborts the transaction that has committed. -/
theorem stale_commit_overturns :
    (session (.new 1 (.generous 1)) admissionCalls).state = .committed ∧
      (session (.new 1 (.generous 1)) (admissionCalls ++ [.commitFenced 7 2 none 64])).state =
        .aborted ∧
      ¬ Documented (.new 1 (.generous 1)) (admissionCalls ++ [.commitFenced 7 2 none 64]) := by
  have overturned : (session (.new 1 (.generous 1)) admissionCalls).state = .committed ∧
      (session (.new 1 (.generous 1)) (admissionCalls ++ [.commitFenced 7 2 none 64])).state =
        .aborted := by
    decide +kernel
  constructor
  · exact overturned.1
  · constructor
    · exact overturned.2
    · intro documented
      have lawful := documented admissionCalls _ (List.prefix_refl _)
      rw [overturned.1, overturned.2] at lawful
      exact not_lawful_overturned lawful

end Overturned

end Llxprt.Transaction
