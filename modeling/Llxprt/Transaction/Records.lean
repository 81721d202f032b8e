import Llxprt.Transaction.Commits
import Llxprt.Transaction.Lifecycle

/-!
# What a transaction records

A successful validation records a receipt with the bound that the port has
computed.  A proposal clears all receipts, and no other call writes one, so the
receipts that are found at a commit come from the validation of the transaction
that it ends.
-/

namespace Llxprt.Transaction

open Llxprt.Rust Llxprt.Kernel

namespace Executor

variable [Wire] {π ε α : Type} {self next : Executor π}

/-- Bounds of the receipts that are on record. -/
def recordedBounds (self : Executor π) : List Nat :=
  (self.ledgerValidation.map Prod.snd).toList ++ (self.semanticValidation.map Prod.snd).toList ++
    (self.securityValidation.map Prod.snd).toList ++ (self.branchValidation.map Prod.snd).toList

/-- The live transaction and the bounds on record. -/
def records (self : Executor π) : Option Txn × List Nat :=
  (self.current, self.recordedBounds)

/-- The bounds are those of the four validations. -/
theorem mem_recordedBounds {bound : Nat} :
    bound ∈ self.recordedBounds ↔
      (∃ command, self.ledgerValidation = some (command, bound)) ∨
      (∃ event, self.semanticValidation = some (event, bound)) ∨
      (∃ event, self.securityValidation = some (event, bound)) ∨
      ∃ event, self.branchValidation = some (event, bound) := by
  simp [recordedBounds]

/-- Moving the state alone records nothing. -/
theorem records_unstated : Unstated (records : Executor π → Option Txn × List Nat) :=
  ⟨fun _ _ => rfl, fun _ => rfl⟩

/-- The method leaves the live transaction and its receipts alone. -/
abbrev Unrecorded (method : Method (Executor π) ε α) : Prop :=
  Method.Keeps records method

/-- The method leaves them alone unless it returns normally. -/
abbrev Recording (method : Method (Executor π) ε α) : Prop :=
  Method.Publishes records (fun _ _ => True) method

theorem recording_update_pure {change : Executor π → Executor π} {value : α} :
    Recording (Method.update change >>= fun _ => pure value : Method (Executor π) ε α) :=
  fun _ => .inr ⟨rfl, trivial⟩

/-- A failure that is recorded adds no bound. -/
theorem recording_orFail {inner : Method (Executor π) ε α} (recording : Recording inner) :
    Recording (inner.orElse fail) :=
  Method.publishes_orElse recording fun _ => rfl

section Commits

variable {actualParent latest payloadBound : Nat} {effect : Option EventKind}

/-- A commit publishes and records no bound. -/
theorem publish_unrecorded : Unrecorded (publish effect : Method (Executor π) _ _) := by
  cases effect with
  | none => exact Method.keeps_pure
  | some kind =>
      intro self
      change records (publishEffect kind self).2 = records self
      unfold publishEffect
      rcases appendEffect kind self with ⟨_ | error | _, staged⟩
      · dsimp only
        split <;> rfl
      · rfl
      · rfl

/-- The universal boundary records no bound. -/
theorem commitChecked_unrecorded :
    Unrecorded (commitChecked actualParent effect payloadBound : Method (Executor π) _ _) := by
  apply Method.keeps_read_bind
  intro self
  apply Method.keeps_refuse_bind
  apply Method.keeps_bind currentRow_keeps
  rintro ⟨txn, row⟩
  dsimp only
  split
  · exact kill_keeps records_unstated
  · split
    · apply Method.keeps_bind (checkRegion_keeps records_unstated)
      intro _
      apply Method.keeps_bind publish_unrecorded
      intro _
      exact Method.keeps_update_pure fun _ => rfl
    · split
      · exact Method.keeps_update_pure fun _ => rfl
      · exact kill_keeps records_unstated

theorem commitOutcome_unrecorded :
    Unrecorded (commitOutcome actualParent effect payloadBound : Method (Executor π) _ _) := by
  apply Method.keeps_read_bind
  intro self
  apply Method.keeps_bind (killIf_keeps records_unstated)
  intro _
  apply Method.keeps_bind (killIf_keeps records_unstated)
  intro _
  apply Method.keeps_bind (killIf_keeps records_unstated)
  intro _
  exact commitChecked_unrecorded

theorem commitFenced_unrecorded :
    Unrecorded (commitFenced actualParent latest effect payloadBound :
      Method (Executor π) _ _) := by
  apply Method.keeps_read_bind
  intro self
  apply Method.keeps_bind (killIf_keeps records_unstated)
  intro _
  exact commitOutcome_unrecorded

/-- Nor does any of the commits. -/
theorem commitLedger_unrecorded {command : Command} {ports : LedgerPorts} :
    Unrecorded (commitLedger actualParent latest command ports payloadBound :
      Method (Executor π) _ _) := by
  apply Method.keeps_read_bind
  intro self
  apply Method.keeps_bind (killIf_keeps records_unstated)
  intro _
  apply Method.keeps_bind (orFail_keeps records_unstated Method.keeps_ofExcept)
  intro _
  apply Method.keeps_bind (orFail_keeps records_unstated candidate_keeps)
  intro candidate
  split
  · exact kill_keeps records_unstated
  · exact Method.keeps_mapErr commitChecked_unrecorded

theorem commitSemantic_unrecorded {receipt : SemanticReceipt} :
    Unrecorded (commitSemantic actualParent latest receipt : Method (Executor π) _ _) := by
  apply orFail_keeps records_unstated
  apply Method.keeps_read_bind
  intro self
  apply Method.keeps_ofExcept_bind
  intro _
  apply Method.keeps_refuse_bind
  apply Method.keeps_refuse_bind
  apply Method.keeps_bind candidate_keeps
  intro candidate
  apply Method.keeps_ofExcept_bind
  intro _
  exact Method.keeps_mapErr commitChecked_unrecorded

theorem securityCandidate_unrecorded {event : SecurityEvent} :
    Unrecorded (securityCandidate event : Method (Executor π) _ _) := by
  apply Method.keeps_bind candidate_keeps
  intro candidate
  apply Method.keeps_read_bind
  intro self
  exact Method.keeps_bind Method.keeps_ofExcept fun _ => Method.keeps_pure

theorem redeemSecurity_unrecorded {receipt : SecurityReceipt} {ports : SecurityPorts} :
    Unrecorded (redeemSecurity actualParent latest receipt ports : Method (Executor π) _ _) := by
  apply Method.keeps_read_bind
  intro self
  apply Method.keeps_ofExcept_bind
  intro _
  apply Method.keeps_refuse_bind
  apply Method.keeps_bind securityCandidate_unrecorded
  intro _
  exact Method.keeps_mapErr commitChecked_unrecorded

theorem branchCandidate_unrecorded {event : BranchEvent} :
    Unrecorded (branchCandidate event : Method (Executor π) _ _) := by
  apply Method.keeps_read_bind
  intro self
  apply Method.keeps_ofExcept_bind
  intro _
  exact candidate_keeps

theorem redeemBranch_unrecorded {receipt : BranchReceipt} {ports : BranchPorts} :
    Unrecorded (redeemBranch actualParent latest receipt ports : Method (Executor π) _ _) := by
  apply Method.keeps_read_bind
  intro self
  apply Method.keeps_ofExcept_bind
  intro _
  apply Method.keeps_ofExcept_bind
  intro _
  apply Method.keeps_refuse_bind
  apply Method.keeps_bind branchCandidate_unrecorded
  intro _
  exact Method.keeps_mapErr commitChecked_unrecorded

end Commits

section Validations

variable [AccountingPort π] {budget : Budget}

/-- Every validation records a bound at most. -/
theorem validateLedger_recording {command : Command} :
    Recording (validateLedger command budget : Method (Executor π) _ _) := by
  apply Method.publishes_bind (orFail_keeps records_unstated candidate_keeps)
  intro candidate
  apply Method.publishes_bind Method.keeps_read
  intro self
  dsimp only
  split
  · exact Method.publishes_of_keeps (kill_keeps records_unstated)
  · apply Method.publishes_bind (Method.keeps_mapErr (validate_keeps records_unstated))
    intro _
    apply Method.publishes_bind (killIf_keeps records_unstated)
    intro _
    exact recording_update_pure

/-- Minting a receipt records one bound at most. -/
theorem mintSemantic_recording {event : SemanticEvent} :
    Recording (mintSemantic event budget : Method (Executor π) _ _) := by
  apply Method.publishes_bind
  · apply Method.keeps_bind candidate_keeps
    intro candidate
    apply Method.keeps_read_bind
    intro self
    apply Method.keeps_ofExcept_bind
    intro bound
    apply Method.keeps_bind (Method.keeps_mapErr (validate_keeps records_unstated))
    intro _
    apply Method.keeps_ofExcept_bind
    intro row
    apply Method.keeps_refuse_bind
    exact Method.keeps_pure
  · intro bound
    exact recording_update_pure

theorem validateSemantic_recording {command : SemanticCommand} {services : SemanticServices} :
    Recording (validateSemantic command services budget : Method (Executor π) _ _) := by
  apply recording_orFail
  apply Method.publishes_bind Method.keeps_read
  intro self
  exact Method.publishes_bind Method.keeps_ofExcept fun _ => mintSemantic_recording

theorem validateProjection_recording {event : SemanticEvent} :
    Recording (validateProjection event budget : Method (Executor π) _ _) := by
  apply recording_orFail
  apply Method.publishes_bind Method.keeps_refuse
  intro _
  apply Method.publishes_bind Method.keeps_read
  intro self
  exact Method.publishes_bind Method.keeps_ofExcept fun _ => mintSemantic_recording

theorem validateSecurity_recording {event : SecurityEvent} {ports : SecurityPorts} :
    Recording (validateSecurity event ports budget : Method (Executor π) _ _) := by
  apply recording_orFail
  apply Method.publishes_bind Method.keeps_read
  intro self
  apply Method.publishes_bind Method.keeps_ofExcept
  intro _
  apply Method.publishes_bind securityCandidate_unrecorded
  intro _
  apply Method.publishes_bind Method.keeps_ofExcept
  intro bound
  apply Method.publishes_bind (Method.keeps_mapErr (validate_keeps records_unstated))
  intro _
  apply Method.publishes_bind Method.keeps_refuse
  intro _
  exact recording_update_pure

theorem branchReceipt_recording {event : BranchEvent} {principal : Source} :
    Recording (branchReceipt event principal budget : Method (Executor π) _ _) := by
  apply Method.publishes_bind Method.keeps_read
  intro self
  apply Method.publishes_bind Method.keeps_refuse
  intro _
  apply Method.publishes_bind branchCandidate_unrecorded
  intro candidate
  apply Method.publishes_bind Method.keeps_ofExcept
  intro _
  apply Method.publishes_bind Method.keeps_ofExcept
  intro bound
  apply Method.publishes_bind (Method.keeps_mapErr (validate_keeps records_unstated))
  intro _
  apply Method.publishes_bind Method.keeps_refuse
  intro _
  exact recording_update_pure

theorem validateBranch_recording {event : BranchEvent} {principal : Source} {ports : BranchPorts} :
    Recording (validateBranch event principal ports budget : Method (Executor π) _ _) := by
  apply recording_orFail
  apply Method.publishes_bind Method.keeps_refuse
  intro _
  apply Method.publishes_bind Method.keeps_read
  intro self
  apply Method.publishes_bind Method.keeps_ofExcept
  intro _
  apply Method.publishes_bind Method.keeps_ofExcept
  intro _
  exact branchReceipt_recording

theorem validateBranchReturn_recording {nameSpace : String} {candidate : Candidate}
    {principal : Source} {services : SemanticServices} {ports : BranchPorts} :
    Recording (validateBranchReturn nameSpace candidate principal services ports budget :
      Method (Executor π) _ _) := by
  apply recording_orFail
  apply Method.publishes_bind Method.keeps_read
  intro self
  exact Method.publishes_bind Method.keeps_ofExcept fun _ => branchReceipt_recording

/-- What a successful validation has done: the transaction is validated, and a
receipt that it wrote carries the bound of the port. -/
structure Validated (before after : Executor π) (bound : Nat) : Prop where
  generated : before.state = .generated
  validated : after.state = .validated
  live : after.current = before.current
  recorded : ∀ found ∈ after.recordedBounds, found = bound ∨ found ∈ before.recordedBounds

omit [AccountingPort π] in
/-- A step was allowed and moves the state. -/
theorem step_ok {target : TxnState} {value : Unit}
    (returned : step target self = (.ok value, next)) :
    self.state.canTransition target = true ∧ next = { self with state := target } := by
  unfold step at returned
  have rest := Method.read_bind_eq_ok.mp returned
  rcases Method.refuse_bind_eq_ok.mp rest with ⟨_, rest⟩
  rcases Method.refuse_bind_eq_ok.mp rest with ⟨unrefused, rest⟩
  exact ⟨not_not.mp unrefused, (Method.update_eq_ok.mp rest).symm⟩

omit [Wire] [AccountingPort π] in
/-- Only a generated transaction is validated. -/
theorem generated_of_canTransition {state : TxnState}
    (allowed : state.canTransition .validated = true) : state = .generated := by
  cases state with
  | generated => rfl
  | proposed => cases allowed
  | snapshotted => cases allowed
  | validated => cases allowed
  | committed => cases allowed
  | aborted => cases allowed

/-- A validation that came back has recorded its bound. -/
theorem validate_ok {claimedBound floor phiPre phiPost effectBytes : Nat} {txn : Txn}
    (returned : validate claimedBound budget floor phiPre phiPost effectBytes self =
      (.ok txn, next)) :
    self.state = .generated ∧ self.portBound effectBytes = some claimedBound ∧
      next = { self with state := .validated } := by
  unfold validate at returned
  rcases Method.bind_eq_ok_iff.mp returned with ⟨_, _, stepped, rest⟩
  rcases step_ok stepped with ⟨allowed, rfl⟩
  rcases Method.bind_eq_ok_iff.mp rest with ⟨⟨found, row⟩, _, current, rest⟩
  rcases currentRow_ok current with ⟨rfl, _⟩
  have rest := Method.read_bind_eq_ok.mp rest
  have samePort : portBound { self with state := .validated } effectBytes =
      self.portBound effectBytes := rfl
  cases bound : self.portBound effectBytes with
  | none =>
      simp only [samePort, bound] at rest
      cases rest
  | some computed =>
      simp only [samePort, bound] at rest
      rcases killIf_bind_eq_ok.mp rest with ⟨same, rest⟩
      rcases Method.bind_eq_ok_iff.mp rest with ⟨_, _, allowed', rest⟩
      rcases killIf_eq_ok.mp allowed' with ⟨_, rfl⟩
      rcases killIf_bind_eq_ok.mp rest with ⟨_, rest⟩
      rcases Method.pure_eq_ok_iff.mp rest with ⟨_, rfl⟩
      exact ⟨generated_of_canTransition allowed, congrArg some (not_not.mp same), rfl⟩

/-- What a validated ledger command has recorded. -/
theorem validateLedger_ok {command : Command} {result : Nat}
    (returned : validateLedger command budget self = (.ok result, next)) :
    ∃ bound, self.portBound (Wire.ledgerCommand command).length = some bound ∧
      Validated self next bound := by
  unfold validateLedger at returned
  rcases Method.bind_eq_ok_iff.mp returned with ⟨typed, _, candidate, rest⟩
  rcases candidate_ok (Method.orElse_eq_ok.mp candidate) with rfl
  have rest := Method.read_bind_eq_ok.mp rest
  cases port : self.portBound (Wire.ledgerCommand command).length with
  | none =>
      simp only [port] at rest
      cases rest
  | some bound =>
      simp only [port] at rest
      rcases Method.bind_eq_ok_iff.mp rest with ⟨txn, _, validates, rest⟩
      rcases validate_ok (Method.mapErr_eq_ok.mp validates) with ⟨generated, _, rfl⟩
      rcases killIf_bind_eq_ok.mp rest with ⟨_, rest⟩
      cases rest
      refine ⟨_, rfl, generated, rfl, rfl, ?_⟩
      intro found member
      rcases mem_recordedBounds.mp member with ⟨_, recorded⟩ | earlier
      · cases recorded
        exact .inl rfl
      · exact .inr (mem_recordedBounds.mpr (.inr earlier))

/-- What a receipt of a semantic event says. -/
theorem mintSemantic_ok {event : SemanticEvent} {receipt : SemanticReceipt}
    (returned : mintSemantic event budget self = (.ok receipt, next)) :
    ∃ bound, self.portBound (Wire.semanticEvent event).length = some bound ∧
      Validated self next bound := by
  unfold mintSemantic validateSemanticEvent at returned
  rcases Method.bind_eq_ok_iff.mp returned with ⟨bound, _, validates, recorded⟩
  rcases Method.bind_eq_ok_iff.mp validates with ⟨typed, _, candidate, rest⟩
  rcases candidate_ok candidate with rfl
  have rest := Method.read_bind_eq_ok.mp rest
  rcases Method.ofExcept_bind_eq_ok.mp rest with ⟨computed, found, rest⟩
  rcases Method.bind_eq_ok_iff.mp rest with ⟨txn, _, validates, rest⟩
  rcases validate_ok (Method.mapErr_eq_ok.mp validates) with ⟨generated, _, rfl⟩
  rcases Method.ofExcept_bind_eq_ok.mp rest with ⟨row, _, rest⟩
  rcases Method.refuse_bind_eq_ok.mp rest with ⟨_, rest⟩
  rcases Method.pure_eq_ok_iff.mp rest with ⟨rfl, rfl⟩
  cases recorded
  refine ⟨_, okOr_eq_ok.mp found, generated, rfl, rfl, ?_⟩
  intro found member
  rcases mem_recordedBounds.mp member with earlier | ⟨_, recorded⟩ | earlier
  · exact .inr (mem_recordedBounds.mpr (.inl earlier))
  · cases recorded
    exact .inl rfl
  · exact .inr (mem_recordedBounds.mpr (.inr (.inr earlier)))

theorem validateSemantic_ok {command : SemanticCommand} {services : SemanticServices}
    {receipt : SemanticReceipt}
    (returned : validateSemantic command services budget self = (.ok receipt, next)) :
    ∃ event bound, self.admitDerivation command services = .ok event ∧
      self.portBound (Wire.semanticEvent event).length = some bound ∧
      Validated self next bound := by
  unfold validateSemantic at returned
  rw [Method.orElse_eq_ok] at returned
  have rest := Method.read_bind_eq_ok.mp returned
  rcases Method.ofExcept_bind_eq_ok.mp rest with ⟨event, admitted, rest⟩
  rcases mintSemantic_ok rest with ⟨bound, computed, validated⟩
  exact ⟨event, bound, admitted, computed, validated⟩

theorem validateProjection_ok {event : SemanticEvent} {receipt : SemanticReceipt}
    (returned : validateProjection event budget self = (.ok receipt, next)) :
    ∃ bound, self.portBound (Wire.semanticEvent event).length = some bound ∧
      Validated self next bound := by
  unfold validateProjection at returned
  rw [Method.orElse_eq_ok] at returned
  rcases Method.refuse_bind_eq_ok.mp returned with ⟨_, rest⟩
  have rest := Method.read_bind_eq_ok.mp rest
  rcases Method.ofExcept_bind_eq_ok.mp rest with ⟨_, _, rest⟩
  exact mintSemantic_ok rest

/-- What a validated security event has recorded. -/
theorem validateSecurity_ok {event : SecurityEvent} {ports : SecurityPorts}
    {receipt : SecurityReceipt}
    (returned : validateSecurity event ports budget self = (.ok receipt, next)) :
    ∃ bound, self.portBound (Wire.securityEvent event).length = some bound ∧
      Validated self next bound := by
  unfold validateSecurity mintSecurity at returned
  rw [Method.orElse_eq_ok] at returned
  have rest := Method.read_bind_eq_ok.mp returned
  rcases Method.ofExcept_bind_eq_ok.mp rest with ⟨_, _, rest⟩
  rcases Method.bind_eq_ok_iff.mp rest with ⟨_, _, candidate, rest⟩
  rcases securityCandidate_ok candidate with rfl
  rcases Method.ofExcept_bind_eq_ok.mp rest with ⟨computed, found, rest⟩
  rcases Method.bind_eq_ok_iff.mp rest with ⟨txn, _, validates, rest⟩
  rcases validate_ok (Method.mapErr_eq_ok.mp validates) with ⟨generated, _, rfl⟩
  rcases Method.refuse_bind_eq_ok.mp rest with ⟨_, rest⟩
  cases rest
  refine ⟨_, okOr_eq_ok.mp found, generated, rfl, rfl, ?_⟩
  intro found member
  rcases mem_recordedBounds.mp member with earlier | earlier | ⟨_, recorded⟩ | earlier
  · exact .inr (mem_recordedBounds.mpr (.inl earlier))
  · exact .inr (mem_recordedBounds.mpr (.inr (.inl earlier)))
  · cases recorded
    exact .inl rfl
  · exact .inr (mem_recordedBounds.mpr (.inr (.inr (.inr earlier))))

theorem branchReceipt_ok {event : BranchEvent} {principal : Source} {receipt : BranchReceipt}
    (returned : branchReceipt event principal budget self = (.ok receipt, next)) :
    ∃ bound, self.portBound (Wire.branchEvent event).length = some bound ∧
      Validated self next bound := by
  unfold branchReceipt at returned
  have rest := Method.read_bind_eq_ok.mp returned
  rcases Method.refuse_bind_eq_ok.mp rest with ⟨_, rest⟩
  rcases Method.bind_eq_ok_iff.mp rest with ⟨typed, _, candidate, rest⟩
  rcases branchCandidate_ok candidate with rfl
  rcases Method.ofExcept_bind_eq_ok.mp rest with ⟨_, _, rest⟩
  rcases Method.ofExcept_bind_eq_ok.mp rest with ⟨computed, found, rest⟩
  rcases Method.bind_eq_ok_iff.mp rest with ⟨txn, _, validates, rest⟩
  rcases validate_ok (Method.mapErr_eq_ok.mp validates) with ⟨generated, _, rfl⟩
  rcases Method.refuse_bind_eq_ok.mp rest with ⟨_, rest⟩
  cases rest
  refine ⟨_, okOr_eq_ok.mp found, generated, rfl, rfl, ?_⟩
  intro found member
  rcases mem_recordedBounds.mp member with earlier | earlier | earlier | ⟨_, recorded⟩
  · exact .inr (mem_recordedBounds.mpr (.inl earlier))
  · exact .inr (mem_recordedBounds.mpr (.inr (.inl earlier)))
  · exact .inr (mem_recordedBounds.mpr (.inr (.inr (.inl earlier))))
  · cases recorded
    exact .inl rfl

/-- What a validated branch event has recorded. -/
theorem validateBranch_ok {event : BranchEvent} {principal : Source} {ports : BranchPorts}
    {receipt : BranchReceipt}
    (returned : validateBranch event principal ports budget self = (.ok receipt, next)) :
    ∃ bound, self.portBound (Wire.branchEvent event).length = some bound ∧
      Validated self next bound := by
  unfold validateBranch at returned
  rw [Method.orElse_eq_ok] at returned
  rcases Method.refuse_bind_eq_ok.mp returned with ⟨_, rest⟩
  have rest := Method.read_bind_eq_ok.mp rest
  rcases Method.ofExcept_bind_eq_ok.mp rest with ⟨_, _, rest⟩
  rcases Method.ofExcept_bind_eq_ok.mp rest with ⟨_, _, rest⟩
  exact branchReceipt_ok rest

theorem validateBranchReturn_ok {nameSpace : String} {candidate : Candidate} {principal : Source}
    {services : SemanticServices} {ports : BranchPorts} {receipt : BranchReceipt}
    (returned : validateBranchReturn nameSpace candidate principal services ports budget self =
      (.ok receipt, next)) :
    ∃ event bound, self.admitReturn nameSpace candidate principal services ports = .ok event ∧
      self.portBound (Wire.branchEvent event).length = some bound ∧ Validated self next bound := by
  unfold validateBranchReturn at returned
  rw [Method.orElse_eq_ok] at returned
  have rest := Method.read_bind_eq_ok.mp returned
  rcases Method.ofExcept_bind_eq_ok.mp rest with ⟨event, admitted, rest⟩
  rcases branchReceipt_ok rest with ⟨bound, computed, validated⟩
  exact ⟨event, bound, admitted, computed, validated⟩

end Validations

section Failures

/-- A registered transaction is under execution. -/
def Live (self : Executor π) : Prop :=
  ∃ txn, self.current = some txn ∧ (Operation.find txn.op).isSome = true

/-- The method does not panic. -/
def Unpanicking (method : Method (Executor π) ε α) : Prop :=
  ∀ self, (method self).1 ≠ .panic

/-- The method fails only with an error that aborts the transaction. -/
def Fatal (method : Method (Executor π) ε α) : Prop :=
  ∀ self, (method self).1.isOk = true ∨
    (∃ error, (method self).1 = .err error) ∧ (method self).2.state = .aborted

/-- A panic of the method leaves the state of a live transaction or aborts it. -/
def Crashes (method : Method (Executor π) ε α) : Prop :=
  ∀ self, self.Live → (method self).1 = .panic →
    (method self).2.state = self.state ∨ (method self).2.state = .aborted

/-- Any failure of the method leaves the state of a live transaction or aborts it. -/
def Faults (method : Method (Executor π) ε α) : Prop :=
  ∀ self, self.Live → (method self).1.isOk = false →
    (method self).2.state = self.state ∨ (method self).2.state = .aborted

variable {β : Type}

/-- A kill is fatal. -/
theorem fatal_killIf {refused : Prop} [Decidable refused] {error : ε} :
    Fatal (killIf refused error : Method (Executor π) ε Unit) := by
  intro self
  by_cases holds : refused
  · rw [killIf_of holds]
    exact .inr ⟨⟨error, rfl⟩, rfl⟩
  · rw [killIf_of_not holds]
    exact .inl rfl

/-- Fatal stages make a fatal method. -/
theorem fatal_bind {first : Method (Executor π) ε α} {next : α → Method (Executor π) ε β}
    (firstFatal : Fatal first) (nextFatal : ∀ value, Fatal (next value)) :
    Fatal (first >>= next) := by
  intro self
  have failed := firstFatal self
  rw [Method.bind_apply]
  rcases firstRun : first self with ⟨value | error | _, middle⟩
  · exact nextFatal value middle
  · rw [firstRun] at failed
    rcases failed with returned | ⟨_, aborted⟩
    · cases returned
    · exact .inr ⟨⟨error, rfl⟩, aborted⟩
  · rw [firstRun] at failed
    rcases failed with returned | ⟨⟨_, errs⟩, _⟩
    · cases returned
    · cases errs

theorem Fatal.failure {method : Method (Executor π) ε α} (fatal : Fatal method)
    {self : Executor π} {kept : Prop} :
    (method self).1 ≠ .panic ∧
      ((method self).1.isOk = false → kept ∨ (method self).2.state = .aborted) := by
  rcases fatal self with returned | ⟨⟨error, failed⟩, aborted⟩
  · rcases Outcome.isOk_iff.mp returned with ⟨value, found⟩
    rw [found]
    exact ⟨nofun, nofun⟩
  · rw [failed]
    exact ⟨nofun, fun _ => .inr aborted⟩

/-- Stages that do not panic make a method that does not. -/
theorem unpanicking_bind {first : Method (Executor π) ε α} {next : α → Method (Executor π) ε β}
    (firstCalm : Unpanicking first) (nextCalm : ∀ value, Unpanicking (next value)) :
    Unpanicking (first >>= next) := by
  intro self
  have calm := firstCalm self
  rw [Method.bind_apply]
  rcases firstRun : first self with ⟨value | error | _, middle⟩
  · exact nextCalm value middle
  · exact nofun
  · rw [firstRun] at calm
    exact absurd rfl calm

theorem unpanicking_refuse {refused : Prop} [Decidable refused] {error : ε} :
    Unpanicking (Method.refuse refused error : Method (Executor π) ε Unit) := by
  intro self
  rw [Method.refuse_apply]
  split <;> exact nofun

theorem unpanicking_ofExcept {result : Except ε α} :
    Unpanicking (Method.ofExcept result : Method (Executor π) ε α) := by
  intro self
  cases result <;> exact nofun

/-- A live transaction stays live while the records stay. -/
theorem Live.of_records {self middle : Executor π} (live : self.Live)
    (kept : middle.records = self.records) : middle.Live := by
  rcases live with ⟨txn, current, registered⟩
  exact ⟨txn, (congrArg Prod.fst kept).trans current, registered⟩

/-- Steps before the validation keep the state or abort. -/
theorem crashes_bind {first : Method (Executor π) ε α} {next : α → Method (Executor π) ε β}
    (idle : Idle first) (unrecorded : Unrecorded first) (nextCrashes : ∀ value, Crashes (next value)) :
    Crashes (first >>= next) := by
  intro self live
  have kept := idle self
  have recorded := unrecorded self
  rw [Method.bind_apply]
  rcases firstRun : first self with ⟨value | error | _, middle⟩
  · rw [firstRun] at kept recorded
    intro panicked
    rcases kept with kept | ⟨failed, _⟩
    · have result := nextCrashes value middle (live.of_records recorded) panicked
      rwa [kept] at result
    · cases failed
  · exact nofun
  · intro _
    rw [firstRun] at kept
    rcases kept with kept | ⟨_, aborted⟩
    · exact .inl kept
    · exact .inr aborted

/-- A crash of the first stage is one of the whole. -/
theorem crashes_before {first : Method (Executor π) ε α} {next : α → Method (Executor π) ε β}
    (crashes : Crashes first) (calm : ∀ value, Unpanicking (next value)) :
    Crashes (first >>= next) := by
  intro self live
  have crashed := crashes self live
  rw [Method.bind_apply]
  rcases firstRun : first self with ⟨value | error | _, middle⟩
  · exact fun panicked => absurd panicked (calm value middle)
  · exact nofun
  · rw [firstRun] at crashed
    exact fun _ => crashed rfl

/-- A fault of a stage is one of the whole. -/
theorem faults_bind {first : Method (Executor π) ε α} {next : α → Method (Executor π) ε β}
    (idle : Idle first) (unrecorded : Unrecorded first) (nextFaults : ∀ value, Faults (next value)) :
    Faults (first >>= next) := by
  intro self live
  have kept := idle self
  have recorded := unrecorded self
  rw [Method.bind_apply]
  rcases firstRun : first self with ⟨value | error | _, middle⟩
  · rw [firstRun] at kept recorded
    intro failed
    rcases kept with kept | ⟨unreturned, _⟩
    · have result := nextFaults value middle (live.of_records recorded) failed
      rwa [kept] at result
    · cases unreturned
  · intro _
    rw [firstRun] at kept
    rcases kept with kept | ⟨_, aborted⟩
    · exact .inl kept
    · exact .inr aborted
  · intro _
    rw [firstRun] at kept
    rcases kept with kept | ⟨_, aborted⟩
    · exact .inl kept
    · exact .inr aborted

/-- A recorded failure aborts, so only a panic is left to look at. -/
theorem faults_orFail {inner : Method (Executor π) ε α} (crashes : Crashes inner) :
    Faults (inner.orElse fail) := by
  intro self live
  have crashed := crashes self live
  unfold Method.orElse
  rcases innerRun : inner self with ⟨value | error | _, middle⟩
  · exact nofun
  · exact fun _ => .inr rfl
  · intro _
    rw [innerRun] at crashed
    exact crashed rfl

/-- A live executor finds its row. -/
theorem currentRow_live (live : self.Live) :
    ∃ found, currentRow self = (.ok found, self) := by
  rcases live with ⟨txn, current, registered⟩
  rcases Option.isSome_iff_exists.mp registered with ⟨row, found⟩
  refine ⟨(txn, row), ?_⟩
  simp [currentRow, Method.bind_apply, current, found, Method.expect]

/-- A step moves the state or is refused. -/
theorem step_cases (target : TxnState) (self : Executor π) :
    step target self = (.ok (), { self with state := target }) ∨
      ∃ error, step target self = (.err error, self) := by
  unfold step
  by_cases isAborted : self.aborted = true
  · exact .inr ⟨_, by simp [Method.bind_apply, Method.refuse_apply, isAborted]; rfl⟩
  · by_cases allowed : self.state.canTransition target = true
    · exact .inl (by simp [Method.bind_apply, Method.refuse_apply, isAborted, allowed])
    · exact .inr ⟨_, by simp [Method.bind_apply, Method.refuse_apply, isAborted, allowed]; rfl⟩

/-- The method does not panic on a live transaction, and its failures leave the
state of the transaction or abort it. -/
def Orderly (method : Method (Executor π) ε α) : Prop :=
  ∀ self, self.Live → (method self).1 ≠ .panic ∧
    ((method self).1.isOk = false →
      (method self).2.state = self.state ∨ (method self).2.state = .aborted)

theorem orderly_mapErr {δ : Type} {translate : ε → δ} {inner : Method (Executor π) ε α}
    (orderly : Orderly inner) : Orderly (Method.mapErr translate inner) := by
  intro self live
  have result := orderly self live
  unfold Method.mapErr
  rcases innerRun : inner self with ⟨value | error | _, middle⟩
  · exact ⟨nofun, nofun⟩
  · rw [innerRun] at result
    exact ⟨nofun, fun _ => result.2 rfl⟩
  · rw [innerRun] at result
    exact absurd rfl result.1

theorem crashes_then {first : Method (Executor π) ε α} {next : α → Method (Executor π) ε β}
    (orderly : Orderly first) (calm : ∀ value, Unpanicking (next value)) :
    Crashes (first >>= next) :=
  crashes_before (fun self live panicked => absurd panicked (orderly self live).1) calm

theorem faults_then {first : Method (Executor π) ε α} {next : α → Method (Executor π) ε β}
    (orderly : Orderly first) (fatal : ∀ value, Fatal (next value)) :
    Faults (first >>= next) := by
  intro self live
  have result := orderly self live
  rw [Method.bind_apply]
  rcases firstRun : first self with ⟨value | error | _, middle⟩
  · exact (fatal value).failure.2
  · rw [firstRun] at result
    exact fun _ => result.2 rfl
  · rw [firstRun] at result
    exact absurd rfl result.1

section Validating

variable [AccountingPort π] {budget : Budget}

/-- A validation comes back, fails or is refused. -/
theorem validate_orderly {claimedBound floor phiPre phiPost effectBytes : Nat} :
    Orderly (validate claimedBound budget floor phiPre phiPost effectBytes :
      Method (Executor π) _ _) := by
  intro self live
  unfold validate
  rcases step_cases .validated self with stepped | ⟨error, refused⟩
  · have stillLive : Live { self with state := .validated } := live
    rcases currentRow_live stillLive with ⟨⟨txn, row⟩, current⟩
    rw [Method.bind_of_ok stepped, Method.bind_of_ok current]
    apply Fatal.failure
    apply fatal_bind fun _ => .inl rfl
    intro stepped
    split
    · exact fun _ => .inr ⟨⟨_, rfl⟩, rfl⟩
    · apply fatal_bind fatal_killIf
      intro _
      apply fatal_bind fatal_killIf
      intro _
      apply fatal_bind fatal_killIf
      intro _
      exact fun _ => .inl rfl
  · rw [Method.bind_of_err refused]
    exact ⟨nofun, fun _ => .inl rfl⟩

/-- How the validation of a ledger command ends. -/
theorem validateLedger_faults {command : Command} :
    Faults (validateLedger command budget : Method (Executor π) _ _) := by
  apply faults_bind (orFail_idle candidate_idle) (orFail_keeps records_unstated candidate_keeps)
  intro candidate
  apply faults_bind idle_read Method.keeps_read
  intro self
  dsimp only
  split
  · exact fun _ _ _ => .inr rfl
  · apply faults_then (orderly_mapErr validate_orderly)
    intro _
    apply fatal_bind fatal_killIf
    intro _
    exact fun _ => .inl rfl

theorem mintSemantic_crashes {event : SemanticEvent} :
    Crashes (mintSemantic event budget : Method (Executor π) _ _) := by
  apply crashes_before
  · apply crashes_bind candidate_idle candidate_keeps
    intro candidate
    apply crashes_bind idle_read Method.keeps_read
    intro self
    apply crashes_bind idle_ofExcept Method.keeps_ofExcept
    intro bound
    apply crashes_then (orderly_mapErr validate_orderly)
    intro _
    apply unpanicking_bind unpanicking_ofExcept
    intro row
    exact unpanicking_bind unpanicking_refuse fun _ _ => nofun
  · exact fun _ _ => nofun

theorem validateSemantic_faults {command : SemanticCommand} {services : SemanticServices} :
    Faults (validateSemantic command services budget : Method (Executor π) _ _) := by
  apply faults_orFail
  apply crashes_bind idle_read Method.keeps_read
  intro self
  exact crashes_bind idle_ofExcept Method.keeps_ofExcept fun _ => mintSemantic_crashes

theorem validateProjection_faults {event : SemanticEvent} :
    Faults (validateProjection event budget : Method (Executor π) _ _) := by
  apply faults_orFail
  apply crashes_bind idle_refuse Method.keeps_refuse
  intro _
  apply crashes_bind idle_read Method.keeps_read
  intro self
  exact crashes_bind idle_ofExcept Method.keeps_ofExcept fun _ => mintSemantic_crashes

theorem validateSecurity_faults {event : SecurityEvent} {ports : SecurityPorts} :
    Faults (validateSecurity event ports budget : Method (Executor π) _ _) := by
  apply faults_orFail
  apply crashes_bind idle_read Method.keeps_read
  intro self
  apply crashes_bind idle_ofExcept Method.keeps_ofExcept
  intro _
  apply crashes_bind securityCandidate_idle securityCandidate_unrecorded
  intro _
  apply crashes_bind idle_ofExcept Method.keeps_ofExcept
  intro bound
  apply crashes_then (orderly_mapErr validate_orderly)
  intro _
  exact unpanicking_bind unpanicking_refuse fun _ _ => nofun

theorem branchReceipt_crashes {event : BranchEvent} {principal : Source} :
    Crashes (branchReceipt event principal budget : Method (Executor π) _ _) := by
  apply crashes_bind idle_read Method.keeps_read
  intro self
  apply crashes_bind idle_refuse Method.keeps_refuse
  intro _
  apply crashes_bind branchCandidate_idle branchCandidate_unrecorded
  intro candidate
  apply crashes_bind idle_ofExcept Method.keeps_ofExcept
  intro _
  apply crashes_bind idle_ofExcept Method.keeps_ofExcept
  intro bound
  apply crashes_then (orderly_mapErr validate_orderly)
  intro _
  exact unpanicking_bind unpanicking_refuse fun _ _ => nofun

/-- How the validation of a branch event ends. -/
theorem validateBranch_faults {event : BranchEvent} {principal : Source} {ports : BranchPorts} :
    Faults (validateBranch event principal ports budget : Method (Executor π) _ _) := by
  apply faults_orFail
  apply crashes_bind idle_refuse Method.keeps_refuse
  intro _
  apply crashes_bind idle_read Method.keeps_read
  intro self
  apply crashes_bind idle_ofExcept Method.keeps_ofExcept
  intro _
  apply crashes_bind idle_ofExcept Method.keeps_ofExcept
  intro _
  exact branchReceipt_crashes

theorem validateBranchReturn_faults {nameSpace : String} {candidate : Candidate}
    {principal : Source} {services : SemanticServices} {ports : BranchPorts} :
    Faults (validateBranchReturn nameSpace candidate principal services ports budget :
      Method (Executor π) _ _) := by
  apply faults_orFail
  apply crashes_bind idle_read Method.keeps_read
  intro self
  exact crashes_bind idle_ofExcept Method.keeps_ofExcept fun _ => branchReceipt_crashes

end Validating

end Failures

end Executor

section Receipts

variable [Wire] {π : Type} [AccountingPort π]

/-- Calls that validate the live transaction. -/
def Call.validates (call : Call π) : Bool :=
  call.goal = .validated

/-- Size of the effect that a validation asks its port about. -/
def Call.effectBytes (self : Executor π) : Call π → Option Nat
  | validate _ _ _ _ _ effectBytes => some effectBytes
  | validateLedger command _ => some (Wire.ledgerCommand command).length
  | validateSemantic command services _ =>
      (self.admitDerivation command services).toOption.map fun event =>
        (Wire.semanticEvent event).length
  | validateProjection event _ => some (Wire.semanticEvent event).length
  | validateSecurity event _ _ => some (Wire.securityEvent event).length
  | validateBranch event _ _ _ => some (Wire.branchEvent event).length
  | validateBranchReturn nameSpace candidate principal services ports _ =>
      (self.admitReturn nameSpace candidate principal services ports).toOption.map fun event =>
        (Wire.branchEvent event).length
  | _ => none

/-- The bound that the port computes for the effect of a validation. -/
def Call.computedBound (self : Executor π) (call : Call π) : Option Nat :=
  (call.effectBytes self).bind self.portBound

omit [AccountingPort π] in
/-- A call that came back ran its method. -/
theorem calling_ok {ε α : Type} {wrap : ε → CallError} {method : Method (Executor π) ε α}
    {self : Executor π} (returned : (calling wrap method self).1.isOk = true) :
    ∃ value, method self = (.ok value, (calling wrap method self).2) := by
  cases outcome : (method self).1 with
  | ok value => exact ⟨value, Prod.ext outcome rfl⟩
  | err error =>
      simp [calling, Method.discard, Method.mapErr, Outcome.mapErr, Outcome.isOk, outcome]
        at returned
  | panic =>
      simp [calling, Method.discard, Method.mapErr, Outcome.mapErr, Outcome.isOk, outcome]
        at returned

/-- A validation that returns has validated the live transaction for the bound
of the port. -/
theorem Call.run_validated {call : Call π} {self : Executor π} (validates : call.validates = true)
    (returned : (call.run self).1.isOk = true) :
    ∃ bound, call.computedBound self = some bound ∧
      Executor.Validated self (call.run self).2 bound := by
  cases call with
  | validate claimedBound budget floor phiPre phiPost effectBytes =>
      rcases calling_ok returned with ⟨txn, returned⟩
      rcases Executor.validate_ok returned with ⟨generated, computed, stepped⟩
      refine ⟨claimedBound, computed, ?_⟩
      change Executor.Validated self (calling .executor _ self).2 claimedBound
      rw [stepped]
      exact ⟨generated, rfl, rfl, fun _ member => .inr member⟩
  | validateLedger =>
      rcases calling_ok returned with ⟨_, returned⟩
      exact Executor.validateLedger_ok returned
  | validateSemantic =>
      rcases calling_ok returned with ⟨_, returned⟩
      rcases Executor.validateSemantic_ok returned with ⟨event, bound, admitted, computed, validated⟩
      refine ⟨bound, ?_, validated⟩
      simp [Call.computedBound, Call.effectBytes, admitted, computed, Except.toOption]
  | validateProjection =>
      rcases calling_ok returned with ⟨_, returned⟩
      exact Executor.validateProjection_ok returned
  | validateSecurity =>
      rcases calling_ok returned with ⟨_, returned⟩
      exact Executor.validateSecurity_ok returned
  | validateBranch =>
      rcases calling_ok returned with ⟨_, returned⟩
      exact Executor.validateBranch_ok returned
  | validateBranchReturn =>
      rcases calling_ok returned with ⟨_, returned⟩
      rcases Executor.validateBranchReturn_ok returned with
        ⟨event, bound, admitted, computed, validated⟩
      refine ⟨bound, ?_, validated⟩
      simp [Call.computedBound, Call.effectBytes, admitted, computed, Except.toOption]
  | _ => cases validates

omit [AccountingPort π] in
theorem calling_failed {ε α : Type} {wrap : ε → CallError} {method : Method (Executor π) ε α}
    {self : Executor π} (failed : (calling wrap method self).1.isOk = false) :
    (method self).1.isOk = false := by
  cases outcome : (method self).1 with
  | ok value =>
      simp [calling, Method.discard, Method.mapErr, Outcome.mapErr, Outcome.isOk, outcome]
        at failed
  | err error => rfl
  | panic => rfl

/-- A validation that fails leaves the state of a live transaction or aborts it. -/
theorem Call.run_faults {call : Call π} {self : Executor π} (validates : call.validates = true)
    (live : self.Live) (failed : (call.run self).1.isOk = false) :
    (call.run self).2.state = self.state ∨ (call.run self).2.state = .aborted := by
  cases call with
  | validate => exact (Executor.validate_orderly self live).2 (calling_failed failed)
  | validateLedger => exact Executor.validateLedger_faults self live (calling_failed failed)
  | validateSemantic => exact Executor.validateSemantic_faults self live (calling_failed failed)
  | validateProjection =>
      exact Executor.validateProjection_faults self live (calling_failed failed)
  | validateSecurity => exact Executor.validateSecurity_faults self live (calling_failed failed)
  | validateBranch => exact Executor.validateBranch_faults self live (calling_failed failed)
  | validateBranchReturn =>
      exact Executor.validateBranchReturn_faults self live (calling_failed failed)
  | _ => cases validates

/-- The live transaction is kept and no receipt is added. -/
structure Executor.Unextended (before after : Executor π) : Prop where
  live : after.current = before.current
  recorded : ∀ found ∈ after.recordedBounds, found ∈ before.recordedBounds

omit [AccountingPort π] in
/-- The same records extend nothing. -/
theorem Executor.Unextended.of_records {before after : Executor π}
    (kept : after.records = before.records) : Executor.Unextended before after := by
  constructor
  · exact congrArg Prod.fst kept
  · intro found member
    have same : after.recordedBounds = before.recordedBounds := congrArg Prod.snd kept
    rwa [same] at member

omit [AccountingPort π] in
/-- One after the other they extend nothing. -/
theorem Executor.Unextended.trans {first second third : Executor π}
    (earlier : Executor.Unextended first second) (later : Executor.Unextended second third) :
    Executor.Unextended first third where
  live := later.live.trans earlier.live
  recorded found member := earlier.recorded found (later.recorded found member)

omit [AccountingPort π] in
/-- A receipt is dropped after it has been redeemed or refused. -/
theorem Executor.unextended_redeem {ε α : Type} {inner : Method (Executor π) ε α}
    {cleanup : Executor π → Executor π} {self : Executor π}
    (unrecorded : Executor.Unrecorded inner)
    (drops : ∀ self, Executor.Unextended self (cleanup self)) :
    Executor.Unextended self ((inner.andThen cleanup).orElse Executor.fail self).2 := by
  have kept := Executor.Unextended.of_records (unrecorded self)
  unfold Method.orElse Method.andThen
  rcases innerRun : inner self with ⟨value | error | _, middle⟩
  · rw [innerRun] at kept
    exact kept.trans (drops middle)
  · rw [innerRun] at kept
    exact (kept.trans (drops middle)).trans (.of_records rfl)
  · rwa [innerRun] at kept

/-- Apart from proposals and successful validations, a call keeps the live
transaction and adds no receipt. -/
theorem Call.run_unextended {call : Call π} {self : Executor π}
    (unproposing : call.proposes = false)
    (unvalidated : call.validates = false ∨ (call.run self).1.isOk = false) :
    Executor.Unextended self (call.run self).2 := by
  cases call with
  | bindPort => exact .of_records rfl
  | recalibrateMargins =>
      exact .of_records (Executor.recalibrateMargins_keeps (fun _ _ => rfl) self)
  | armRegionAccounting => exact .of_records rfl
  | resetRegionAccounting => exact .of_records rfl
  | admitRegionUnits => exact .of_records rfl
  | propose => cases unproposing
  | proposeAs => cases unproposing
  | snapshot => exact .of_records (Executor.snapshot_keeps Executor.records_unstated self)
  | generate => exact .of_records (Executor.generate_keeps Executor.records_unstated self)
  | abort => exact .of_records (Executor.abort_keeps Executor.records_unstated self)
  | validate => exact .of_records (Executor.validate_keeps Executor.records_unstated self)
  | commit => exact .of_records (Executor.commitOutcome_unrecorded self)
  | commitFenced => exact .of_records (Executor.commitFenced_unrecorded self)
  | validateLedger =>
      have failed := calling_failed (unvalidated.resolve_left nofun)
      exact .of_records (Executor.validateLedger_recording.kept_of_not_ok failed)
  | commitLedger => exact .of_records (Executor.commitLedger_unrecorded self)
  | validateSemantic =>
      have failed := calling_failed (unvalidated.resolve_left nofun)
      exact .of_records (Executor.validateSemantic_recording.kept_of_not_ok failed)
  | validateProjection =>
      have failed := calling_failed (unvalidated.resolve_left nofun)
      exact .of_records (Executor.validateProjection_recording.kept_of_not_ok failed)
  | commitSemantic => exact .of_records (Executor.commitSemantic_unrecorded self)
  | validateSecurity =>
      have failed := calling_failed (unvalidated.resolve_left nofun)
      exact .of_records (Executor.validateSecurity_recording.kept_of_not_ok failed)
  | commitSecurity =>
      apply Executor.unextended_redeem Executor.redeemSecurity_unrecorded
      intro self
      constructor
      · rfl
      · intro found member
        rcases Executor.mem_recordedBounds.mp member with kept | kept | ⟨_, cleared⟩ | kept
        · exact Executor.mem_recordedBounds.mpr (.inl kept)
        · exact Executor.mem_recordedBounds.mpr (.inr (.inl kept))
        · cases cleared
        · exact Executor.mem_recordedBounds.mpr (.inr (.inr (.inr kept)))
  | validateBranch =>
      have failed := calling_failed (unvalidated.resolve_left nofun)
      exact .of_records (Executor.validateBranch_recording.kept_of_not_ok failed)
  | validateBranchReturn =>
      have failed := calling_failed (unvalidated.resolve_left nofun)
      exact .of_records (Executor.validateBranchReturn_recording.kept_of_not_ok failed)
  | commitBranch =>
      apply Executor.unextended_redeem Executor.redeemBranch_unrecorded
      intro self
      constructor
      · rfl
      · intro found member
        rcases Executor.mem_recordedBounds.mp member with kept | kept | kept | ⟨_, cleared⟩
        · exact Executor.mem_recordedBounds.mpr (.inl kept)
        · exact Executor.mem_recordedBounds.mpr (.inr (.inl kept))
        · exact Executor.mem_recordedBounds.mpr (.inr (.inr (.inl kept)))
        · cases cleared

end Receipts

end Llxprt.Transaction
