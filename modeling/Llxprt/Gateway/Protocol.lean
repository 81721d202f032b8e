import Llxprt.Kernel.Security.Types
import Llxprt.Rust.Result
import Llxprt.Rust.Vectors

/-!
# The provider-turn protocol

Every send to a provider is a record that is inserted as an intent, staged,
admitted with the tool calls of the reply, and completed call by call.  Recovery
settles all records of a branch.  A command that is refused changes nothing, so
the reducer is an `Except`-valued function of the records.
-/

namespace Llxprt.Gateway

open Llxprt.Kernel Llxprt.Rust

inductive ProviderClass where
  | statelessAttested
  | idempotentIdentity
  | atMostOneAttempt
  | unattested
  deriving DecidableEq

inductive TurnKind where
  | conversation
  | management
  deriving DecidableEq

inductive Status where
  | intent
  | pending
  | admitted
  | rejected
  | indeterminate
  deriving DecidableEq

structure SendIntent where
  identity : String
  branch : String
  owner : String
  epoch : UInt64
  contextVersion : UInt64
  requestHash : String
  contractHash : String
  providerClass : ProviderClass
  kind : TurnKind
  allowance : UInt64
  deriving DecidableEq

structure ExecutionIntent where
  id : String
  tool : String
  args : String
  readOnly : Bool
  completion : Option (Bool × String)
  deriving DecidableEq

structure TurnRecord where
  intent : SendIntent
  status : Status
  response : Option Bytes
  executions : List ExecutionIntent
  deriving DecidableEq

inductive Command where
  | intent (intent : SendIntent)
  | stage (identity : String) (bytes : Bytes)
  | admitReply (identity : String) (executions : List ExecutionIntent)
  | reject (identity : String)
  | complete (identity call : String) (ok : Bool) (result : String)
  | recover (branch : String)

inductive GatewayError where
  | transition
  | allowance
  | identity
  | indeterminate
  | unsupported
  deriving DecidableEq

def GatewayError.text : GatewayError → String
  | transition => "provider turn has an illegal transition"
  | allowance => "provider turn exceeds pre-send allowance"
  | identity => "provider identity/hash is invalid"
  | indeterminate => "provider response is indeterminate; request must not be resent"
  | unsupported => "provider class does not support unattended operation"

def hashValid (value : String) : Bool :=
  validHash value

namespace TurnRecord

def named (identity : String) (record : TurnRecord) : Bool :=
  record.intent.identity = identity

/-- The status is one that a reply can still move. -/
def isOpen (record : TurnRecord) : Prop :=
  record.status = .intent ∨ record.status = .pending

instance (record : TurnRecord) : Decidable record.isOpen :=
  inferInstanceAs (Decidable (_ ∨ _))

def fresh (intent : SendIntent) : TurnRecord where
  intent := intent
  status := .intent
  response := none
  executions := []

def stage (record : TurnRecord) (bytes : Bytes) : Except GatewayError TurnRecord := do
  Rust.reject (record.status ≠ .intent) .transition
  Rust.reject (record.intent.allowance.toNat < bytes.length) .allowance
  pure { record with response := some bytes, status := .pending }

def admitReply (record : TurnRecord) (executions : List ExecutionIntent) :
    Except GatewayError TurnRecord := do
  Rust.reject (record.status ≠ .pending ∨ record.response = none) .transition
  Rust.reject (anyBadOrRepeated
    (fun call => call.id.isEmpty || call.tool.isEmpty || call.completion.isSome)
    ExecutionIntent.id ∅ executions = true) .identity
  pure { record with executions := executions, status := .admitted }

def reject (record : TurnRecord) : Except GatewayError TurnRecord := do
  Rust.reject (¬ record.isOpen) .transition
  pure { record with response := none, status := .rejected }

def complete (record : TurnRecord) (call : String) (ok : Bool) (result : String) :
    Except GatewayError TurnRecord := do
  Rust.reject (record.status ≠ .admitted) .transition
  let found ← okOr (record.executions.find? fun execution => execution.id = call) .identity
  Rust.reject (found.completion.isSome) .transition
  pure { record with
    executions := updateFirst (fun execution => execution.id = call)
      (fun execution => { execution with completion := some (ok, result) }) record.executions }

/-- The note left on a call whose outcome nobody knows. -/
def abandonedNote : Bool × String :=
  (false, "indeterminate execution; not repeated after restart")

def recover (record : TurnRecord) : TurnRecord where
  intent := record.intent
  status := if record.isOpen then .indeterminate else record.status
  response := if record.isOpen then none else record.response
  executions := record.executions.map fun call =>
    { call with completion := some (call.completion.getD abandonedNote) }

end TurnRecord

/-- The first record of the identity, changed in place. -/
def onRecord (records : List TurnRecord) (identity : String)
    (change : TurnRecord → Except GatewayError TurnRecord) :
    Except GatewayError (List TurnRecord) := do
  let record ← okOr (records.find? (TurnRecord.named identity)) .identity
  let next ← change record
  pure (updateFirst (TurnRecord.named identity) (fun _ => next) records)

def insert (records : List TurnRecord) (intent : SendIntent) :
    Except GatewayError (List TurnRecord) := do
  Rust.reject (intent.identity.isEmpty ∨ 256 < intent.identity.utf8ByteSize ∨
    intent.owner.isEmpty ∨ intent.branch.isEmpty ∨ intent.epoch = 0 ∨ intent.allowance = 0 ∨
    hashValid intent.requestHash = false ∨ hashValid intent.contractHash = false ∨
    records.any (TurnRecord.named intent.identity) = true) .identity
  pure (records ++ [.fresh intent])

def apply (records : List TurnRecord) : Command → Except GatewayError (List TurnRecord)
  | .intent intent => insert records intent
  | .stage identity bytes => onRecord records identity fun record => record.stage bytes
  | .admitReply identity executions => onRecord records identity fun record => record.admitReply executions
  | .reject identity => onRecord records identity TurnRecord.reject
  | .complete identity call ok result =>
      onRecord records identity fun record => record.complete call ok result
  | .recover branch => pure (records.map fun record =>
      if record.intent.branch = branch then record.recover else record)

/-- The records after a sequence of commands, when all of them are accepted. -/
def replay (commands : List Command) : Except GatewayError (List TurnRecord) :=
  commands.foldlM apply []

section Steps

variable {records later : List TurnRecord} {record next : TurnRecord} {command : Command}

/-- No reply and no completion is outstanding. -/
structure TurnRecord.Settled (record : TurnRecord) : Prop where
  closed : ¬ record.isOpen
  complete : ∀ call ∈ record.executions, call.completion.isSome = true

/-- What an accepted command other than a recovery does to a record. -/
inductive Moved (record : TurnRecord) : TurnRecord → Prop where
  | kept : Moved record record
  | staged (bytes : Bytes) (status : record.status = .intent)
      (bounded : bytes.length ≤ record.intent.allowance.toNat) :
      Moved record { record with response := some bytes, status := .pending }
  | admitted (executions : List ExecutionIntent) (status : record.status = .pending)
      (present : record.response ≠ none)
      (named : ∀ call ∈ executions, call.id ≠ "" ∧ call.tool ≠ "" ∧ call.completion = none)
      (nodup : (executions.map ExecutionIntent.id).Nodup) :
      Moved record { record with executions := executions, status := .admitted }
  | rejected (status : record.isOpen) :
      Moved record { record with response := none, status := .rejected }
  | completed (before after : List ExecutionIntent) (call : ExecutionIntent)
      (outcome : Bool × String) (status : record.status = .admitted)
      (split : record.executions = before ++ call :: after) (incomplete : call.completion = none) :
      Moved record
        { record with executions := before ++ { call with completion := some outcome } :: after }

/-- An intent that may be inserted. -/
structure SendIntent.Sendable (intent : SendIntent) : Prop where
  identity : intent.identity ≠ ""
  length : intent.identity.utf8ByteSize ≤ 256
  owner : intent.owner ≠ ""
  branch : intent.branch ≠ ""
  epoch : intent.epoch ≠ 0
  allowance : intent.allowance ≠ 0
  requestHash : hashValid intent.requestHash = true
  contractHash : hashValid intent.contractHash = true

theorem stage_eq_ok {bytes : Bytes} :
    record.stage bytes = .ok next ↔ record.status = .intent ∧
      bytes.length ≤ record.intent.allowance.toNat ∧
      { record with response := some bytes, status := .pending } = next := by
  simp only [TurnRecord.stage, bind_eq_ok, reject_eq_ok, pure_eq_ok, Decidable.not_not,
    Nat.not_lt, exists_and_left, exists_const]

theorem admit_eq_ok {executions : List ExecutionIntent} :
    record.admitReply executions = .ok next ↔ record.status = .pending ∧ record.response ≠ none ∧
      (∀ call ∈ executions, call.id ≠ "" ∧ call.tool ≠ "" ∧ call.completion = none) ∧
      (executions.map ExecutionIntent.id).Nodup ∧
      { record with executions := executions, status := .admitted } = next := by
  simp only [TurnRecord.admitReply, bind_eq_ok, reject_eq_ok, pure_eq_ok, Decidable.not_not, not_or,
    Bool.not_eq_true, anyBadOrRepeated_eq_false, exists_const, and_assoc]
  simp [and_assoc]

theorem reject_record_eq_ok :
    record.reject = .ok next ↔
      record.isOpen ∧ { record with response := none, status := .rejected } = next := by
  simp only [TurnRecord.reject, bind_eq_ok, reject_eq_ok, pure_eq_ok, Decidable.not_not,
    exists_const]

theorem complete_moved {call result : String} {ok : Bool}
    (accepted : record.complete call ok result = .ok next) : Moved record next := by
  simp only [TurnRecord.complete, bind_eq_ok, reject_eq_ok, okOr_eq_ok, pure_eq_ok,
    Decidable.not_not] at accepted
  rcases accepted with ⟨_, status, found, present, _, incomplete, rfl⟩
  rcases updateFirst_of_find? present with ⟨before, after, split, _, _, updated⟩
  rw [updated]
  exact .completed before after found (ok, result) status split (by simpa using incomplete)

theorem insert_eq_ok {intent : SendIntent} :
    insert records intent = .ok later ↔
      intent.Sendable ∧ (∀ record ∈ records, record.intent.identity ≠ intent.identity) ∧
        later = records ++ [.fresh intent] := by
  simp only [insert, bind_eq_ok, reject_eq_ok, pure_eq_ok, not_or, List.any_eq_true, not_exists,
    not_and, TurnRecord.named, decide_eq_true_eq, Bool.not_eq_false, String.isEmpty_iff, Nat.not_lt]
  constructor
  · rintro ⟨_, ⟨identity, length, owner, branch, epoch, allowance, request, contract, unused⟩, same⟩
    exact ⟨⟨identity, length, owner, branch, epoch, allowance, request, contract⟩, unused,
      same.symm⟩
  · rintro ⟨sendable, unused, rfl⟩
    exact ⟨(), ⟨sendable.identity, sendable.length, sendable.owner, sendable.branch,
      sendable.epoch, sendable.allowance, sendable.requestHash, sendable.contractHash, unused⟩, rfl⟩

theorem onRecord_moved {identity : String} {change : TurnRecord → Except GatewayError TurnRecord}
    (moves : ∀ record next, change record = .ok next → Moved record next)
    (accepted : onRecord records identity change = .ok later) :
    List.Forall₂ Moved records later := by
  simp only [onRecord, bind_eq_ok, okOr_eq_ok, pure_eq_ok] at accepted
  rcases accepted with ⟨record, present, next, changed, rfl⟩
  refine forall₂_updateFirst (fun _ => .kept) ?_
  intro item found
  rw [present, Option.some.injEq] at found
  exact moves item next (found ▸ changed)

/-- What an accepted command does. -/
theorem apply_cases (accepted : apply records command = .ok later) :
    (∃ intent, command = .intent intent ∧ intent.Sendable ∧
      (∀ record ∈ records, record.intent.identity ≠ intent.identity) ∧
      later = records ++ [.fresh intent]) ∨
    List.Forall₂ Moved records later ∨
    ∃ branch, command = .recover branch ∧
      later = records.map fun record =>
        if record.intent.branch = branch then record.recover else record := by
  cases command with
  | intent intent =>
      rcases insert_eq_ok.mp accepted with ⟨sendable, unused, same⟩
      exact .inl ⟨intent, rfl, sendable, unused, same⟩
  | stage identity bytes =>
      right; left
      refine onRecord_moved (fun record next staged => ?_) accepted
      rcases stage_eq_ok.mp staged with ⟨status, bounded, rfl⟩
      exact .staged bytes status bounded
  | admitReply identity executions =>
      right; left
      refine onRecord_moved (fun record next admitted => ?_) accepted
      rcases admit_eq_ok.mp admitted with ⟨status, present, named, nodup, rfl⟩
      exact .admitted executions status present named nodup
  | reject identity =>
      right; left
      refine onRecord_moved (fun record next rejected => ?_) accepted
      rcases reject_record_eq_ok.mp rejected with ⟨status, rfl⟩
      exact .rejected status
  | complete identity call ok result =>
      right; left
      exact onRecord_moved (fun _ _ completed => complete_moved completed) accepted
  | recover branch =>
      right; right
      exact ⟨branch, rfl, (pure_eq_ok.mp accepted).symm⟩

end Steps

end Llxprt.Gateway
