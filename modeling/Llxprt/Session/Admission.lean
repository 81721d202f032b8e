import Llxprt.Ingress.Transaction
import Llxprt.Rust.Runs
import Llxprt.Session.Artifacts
import Llxprt.Transaction.Commits

/-!
# Bulk admissions

One bulk result goes through an executor of its own and then through the ingress
transaction.  The session counts what it has admitted, but the executor that
checks the ceiling begins at zero every time.
-/

namespace Llxprt.Session

open Llxprt.Kernel Llxprt.Rust Llxprt.Store Llxprt.Ingress Llxprt.Policy Llxprt.Transaction

section Admitting

variable [Wire]

inductive AdmissionError where
  | quiesced
  | storeMode (mode : StoreMode)
  | executor (error : ExecutorError)
  | rebaseNoOp
  | ingress (error : IngressError)
  | noRecords
  deriving DecidableEq

/-- A new executor on the recorded chain, bound to the production port. -/
def admissionExecutor (epoch : Nat) (chain : UInt64 × Digest) (governed toolDeclarations : Nat) :
    Executor BoundPort :=
  Executor.bindPort ⟨.v1, toolDeclarations, governed⟩
    (.resuming epoch chain.1.toNat chain.2 (.generous 1))

def chainHead (executor : Executor BoundPort) : UInt64 × Digest :=
  (UInt64.ofNat executor.log.nextSequence, executor.log.headChecksum)

/-- The calls of one admission on its executor.  The lease was acquired just
before, so its epoch is also the latest. -/
def admissionCalls (epoch parentVersion payloadBound effectBytes : Nat) (effect : Option EventKind)
    (budget : Budget) (floor : Nat) : Method (Executor BoundPort) ExecutorError CommitOutcome := do
  let _ ← Executor.propose "admit-ingress" parentVersion
  let _ ← Executor.snapshot
  let _ ← Executor.generate
  let _ ← Executor.validate payloadBound budget floor 0 0 effectBytes
  Executor.commitFenced parentVersion epoch effect payloadBound

def sequenceAdmission (state : ContextState)
    (epoch parentVersion payloadBound effectBytes : Nat) (effect : Option EventKind)
    (budget : Budget) (floor : Nat) : Outcome AdmissionError Unit × ContextState :=
  let executor := Executor.armRegionAccounting budget.commitCeiling
    (admissionExecutor epoch state.kernelChain 0 0)
  match admissionCalls epoch parentVersion payloadBound effectBytes effect budget floor executor with
  | (.ok .applied, executor) =>
      (.ok (), { state with
        kernelChain := chainHead executor
        regionAdmitted := saturatingAdd state.regionAdmitted payloadBound })
  | (.ok .rebaseNoOp, _) => (.err .rebaseNoOp, state)
  | (.err error, _) => (.err (.executor error), state)
  | (.panic, _) => (.panic, state)

def ingressWorkBudget : Nat := 2 ^ 20
def admissionReclamationReserve : Nat := 2 ^ 20
def admissionHeadroom : Nat := 64 * 2 ^ 10

/-- The budget of every bulk admission. -/
def admissionBudget : Budget :=
  ⟨admissionRegionBudget, admissionReclamationReserve, admissionHeadroom⟩

/-- What one payload is charged: its bytes and the commit frame. -/
def admissionBound (bytes : Bytes) : Nat :=
  bytes.length + Margins.v1.commitFrame

/-- The admission of one bulk payload, against the current position of the
store. -/
def bulkAdmission (state : ContextState) (epoch : Nat) (bytes : Bytes) :
    Outcome AdmissionError Unit × ContextState :=
  sequenceAdmission state epoch state.store.index.length (admissionBound bytes) bytes.length
    (some (.operationCommit .admitIngress sessionScope (UInt64.ofNat bytes.length)))
    admissionBudget bytes.length

variable (cipher : Cipher)

/-- The admission and, once it is applied, the ingress transaction. -/
def ingestBulkCommitted (state : ContextState) (epoch : Nat) (bytes : Bytes) :
    Outcome AdmissionError Ingress.IngressRecord × ContextState :=
  if state.store.mode.writable then
    match bulkAdmission state epoch bytes with
    | (.err error, state) => (.err error, state)
    | (.panic, state) => (.panic, state)
    | (.ok (), state) =>
        match (IngressTxn.new bytes.length ingressWorkBudget).capture .toolResult bytes with
        | .error error => (.err (.ingress error), state)
        | .ok txn =>
            let (outcome, store) := txn.commit cipher state.store
            let state := { state with store := store }
            match outcome with
            | .error error => (.err (.ingress error), state)
            | .ok [] => (.err .noRecords, state)
            | .ok (record :: _) => (.ok record, state)
  else
    (.err (.storeMode state.store.mode), state)

/-- The decisions of the policy governor around one bulk result. -/
structure Governor where
  proposeBulk (policy : Controller) (tool : String) (length : Nat) : Bool × Controller
  completeBulk (policy : Controller) (bytes : Bytes) (record : Ingress.IngressRecord) : Controller
  abortBulk (policy : Controller) : Controller

variable (governor : Governor)

/-- A governor that quiesces refuses before anything is admitted. -/
def ingestBulk (state : ContextState) (epoch : Nat) (tool : String) (bytes : Bytes) :
    Outcome AdmissionError Ingress.IngressRecord × ContextState :=
  let (quiesces, proposed) := governor.proposeBulk state.policy tool bytes.length
  let state := { state with policy := proposed }
  let settle (state : ContextState) (policy : Controller → Controller) : ContextState :=
    { state with policy := policy state.policy }
  if quiesces then
    (.err .quiesced, settle state governor.abortBulk)
  else
    match ingestBulkCommitted cipher state epoch bytes with
    | (.ok record, state) =>
        (.ok record, settle state fun policy => governor.completeBulk policy bytes record)
    | (.err error, state) => (.err error, settle state governor.abortBulk)
    | (.panic, state) => (.panic, state)

/-- One bulk result and the lease it is admitted under. -/
structure Ingestion where
  epoch : Nat
  tool : String
  bytes : Bytes

/-- Whether the call gets as far as an applied admission. -/
def Ingestion.applies (state : ContextState) (call : Ingestion) : Bool :=
  let (quiesces, proposed) := governor.proposeBulk state.policy call.tool call.bytes.length
  !quiesces && state.store.mode.writable &&
    (bulkAdmission { state with policy := proposed } call.epoch call.bytes).1.isOk

/-- A session and the bounds of the admissions that were applied on it. -/
structure Occupancy where
  state : ContextState
  applied : List Nat

def Occupancy.ingest (occupancy : Occupancy) (call : Ingestion) : Occupancy where
  state := (ingestBulk cipher governor occupancy.state call.epoch call.tool call.bytes).2
  applied :=
    if call.applies governor occupancy.state then
      occupancy.applied ++ [admissionBound call.bytes]
    else
      occupancy.applied

/-- The ceiling check of a commit, for a payload on a region total. -/
def passesCeiling (total : Nat) (bytes : Bytes) : Bool :=
  saturatingAdd total (admissionBound bytes) ≤ admissionBudget.commitCeiling

/-- The call gets as far as the executor. -/
def Ingestion.Sequenced (state : ContextState) (call : Ingestion) : Prop :=
  (governor.proposeBulk state.policy call.tool call.bytes.length).1 = false ∧
    state.store.mode.writable = true

/-- On the total of the session the ceiling check says nothing else than on the
executor's own one, which starts at zero. -/
def Occupancy.Agrees (occupancy : Occupancy) (call : Ingestion) : Prop :=
  call.Sequenced governor occupancy.state → passesCeiling 0 call.bytes = true →
    passesCeiling occupancy.state.regionAdmitted call.bytes = true

end Admitting

section Regions

variable [Wire] {cipher : Cipher} {governor : Governor} {state : ContextState} {epoch : Nat}
  {bytes : Bytes}

/-- The calls of an admission leave the region accounting of their executor alone
until the commit checks it. -/
theorem admissionCalls_within {epoch parentVersion payloadBound effectBytes floor : Nat}
    {effect : Option EventKind} {budget : Budget} {executor next : Executor BoundPort}
    (applied : admissionCalls epoch parentVersion payloadBound effectBytes effect budget floor
      executor = (.ok .applied, next)) {ceiling : Nat}
    (armed : executor.regionCeiling = some ceiling) :
    saturatingAdd executor.regionAdmitted payloadBound ≤ ceiling := by
  let accounting (self : Executor BoundPort) : Nat × Option Nat :=
    (self.regionAdmitted, self.regionCeiling)
  have unstated : Executor.Unstated accounting := ⟨fun _ _ => rfl, fun _ => rfl⟩
  have proposing : Method.Keeps accounting (Executor.propose "admit-ingress" parentVersion) := by
    apply Method.keeps_refuse_bind
    apply Method.keeps_read_bind
    intro self
    apply Method.keeps_refuse_bind
    exact Method.keeps_update_pure fun _ => rfl
  unfold admissionCalls at applied
  rcases Method.bind_eq_ok_iff.mp applied with ⟨_, proposed, proposes, rest⟩
  rcases Method.bind_eq_ok_iff.mp rest with ⟨_, snapshotted, snapshots, rest⟩
  rcases Method.bind_eq_ok_iff.mp rest with ⟨_, generated, generates, rest⟩
  rcases Method.bind_eq_ok_iff.mp rest with ⟨_, validated, validates, commits⟩
  have validating : Method.Keeps accounting
      (Executor.validate payloadBound budget floor 0 0 effectBytes) :=
    Executor.validate_keeps unstated
  have first := proposing executor
  have second := Executor.snapshot_keeps unstated proposed
  have third := Executor.generate_keeps unstated snapshotted
  have fourth := validating generated
  rw [proposes] at first
  rw [snapshots] at second
  rw [generates] at third
  rw [validates] at fourth
  have kept : accounting validated = accounting executor :=
    fourth.trans (third.trans (second.trans first))
  rcases Prod.ext_iff.mp kept with ⟨region, arming⟩
  rcases Executor.commitFenced_ok commits with ⟨_, settled⟩ | ⟨moved, _⟩
  · have within := settled.within ceiling (arming.trans armed)
    rwa [show validated.regionAdmitted = executor.regionAdmitted from region] at within
  · cases moved

/-- The executor of an admission is new, so its check starts at zero. -/
theorem passesCeiling_of_bulkAdmission {state : ContextState}
    (applied : (bulkAdmission state epoch bytes).1.isOk = true) :
    passesCeiling 0 bytes = true := by
  unfold bulkAdmission sequenceAdmission at applied
  simp only at applied
  split at applied
  · exact decide_eq_true (admissionCalls_within ‹_› rfl)
  · cases applied
  · cases applied
  · cases applied

omit [Wire] in
/-- The sum that passes did not saturate. -/
theorem add_le_of_passesCeiling {total : Nat} (passes : passesCeiling total bytes = true) :
    total + admissionBound bytes ≤ admissionBudget.commitCeiling := by
  have ceiling : admissionBudget.commitCeiling < u64Max := by decide
  have within := of_decide_eq_true passes
  rw [saturatingAdd] at within
  omega

theorem Ingestion.sequenced_of_applies {call : Ingestion}
    (applies : call.applies governor state = true) :
    call.Sequenced governor state ∧ passesCeiling 0 call.bytes = true := by
  unfold Ingestion.applies at applies
  simp only [Bool.and_eq_true, Bool.not_eq_true'] at applies
  rcases applies with ⟨⟨admits, writable⟩, applied⟩
  exact ⟨⟨admits, writable⟩, passesCeiling_of_bulkAdmission applied⟩

/-- An admission that is applied is charged; any other changes nothing. -/
theorem bulkAdmission_cases (state : ContextState) (epoch : Nat) (bytes : Bytes) :
    (bulkAdmission state epoch bytes).1 = .ok () ∧
      (∃ chain, (bulkAdmission state epoch bytes).2 =
        { state with
          kernelChain := chain
          regionAdmitted := saturatingAdd state.regionAdmitted (admissionBound bytes) }) ∨
      (bulkAdmission state epoch bytes).1.isOk = false ∧
        (bulkAdmission state epoch bytes).2 = state := by
  unfold bulkAdmission sequenceAdmission
  simp only
  split
  · exact .inl ⟨rfl, _, rfl⟩
  · exact .inr ⟨rfl, rfl⟩
  · exact .inr ⟨rfl, rfl⟩
  · exact .inr ⟨rfl, rfl⟩

/-- What one call does to the region total and to the spine. -/
structure Charged (state : ContextState) (charge limit : Nat) (later : ContextState) : Prop where
  region : later.regionAdmitted = saturatingAdd state.regionAdmitted charge
  spine : IngressTxn.Grows limit state.store later.store

theorem ingestBulkCommitted_cases (cipher : Cipher) (state : ContextState) (epoch : Nat)
    (bytes : Bytes) :
    (state.store.mode.writable && (bulkAdmission state epoch bytes).1.isOk) = true ∧
        Charged state (admissionBound bytes) (max bytes.length 1)
          (ingestBulkCommitted cipher state epoch bytes).2 ∨
      (state.store.mode.writable && (bulkAdmission state epoch bytes).1.isOk) = false ∧
        (ingestBulkCommitted cipher state epoch bytes).2 = state := by
  unfold ingestBulkCommitted
  by_cases writable : state.store.mode.writable = true
  · rw [if_pos writable, writable, Bool.true_and]
    have outcomes := bulkAdmission_cases state epoch bytes
    generalize bulkAdmission state epoch bytes = result at outcomes ⊢
    rcases result with ⟨outcome, later⟩
    simp only at outcomes
    rcases outcomes with ⟨rfl, chain, rfl⟩ | ⟨refused, rfl⟩
    · left
      refine ⟨rfl, ?_⟩
      have captured : (IngressTxn.new bytes.length ingressWorkBudget).capture .toolResult bytes =
          .ok ⟨bytes.length, [⟨.toolResult, bytes⟩], 0 + bytes.length, ingressWorkBudget⟩ := by
        simp [IngressTxn.capture, IngressTxn.new]
      simp only [captured]
      have grows := @IngressTxn.commit_spine cipher
        ⟨bytes.length, [⟨.toolResult, bytes⟩], 0 + bytes.length, ingressWorkBudget⟩ state.store
        ⟨.toolResult, bytes⟩ rfl
      split
      · exact ⟨rfl, grows⟩
      · exact ⟨rfl, grows⟩
      · exact ⟨rfl, grows⟩
    · right
      refine ⟨refused, ?_⟩
      cases outcome with
      | ok value => cases refused
      | err error => rfl
      | panic => rfl
  · rw [if_neg writable]
    exact .inr ⟨by simp [writable], rfl⟩

theorem ingestBulk_cases (cipher : Cipher) (governor : Governor) (state : ContextState)
    (call : Ingestion) :
    call.applies governor state = true ∧
        Charged state (admissionBound call.bytes) (max call.bytes.length 1)
          (ingestBulk cipher governor state call.epoch call.tool call.bytes).2 ∨
      call.applies governor state = false ∧
        (ingestBulk cipher governor state call.epoch call.tool call.bytes).2.regionAdmitted =
          state.regionAdmitted ∧
        (ingestBulk cipher governor state call.epoch call.tool call.bytes).2.store =
          state.store := by
  unfold ingestBulk Ingestion.applies
  rcases governor.proposeBulk state.policy call.tool call.bytes.length with ⟨quiesces, proposed⟩
  simp only
  cases quiesces with
  | true => exact .inr ⟨rfl, rfl, rfl⟩
  | false =>
      rw [if_neg Bool.false_ne_true, Bool.not_false, Bool.true_and]
      rcases ingestBulkCommitted_cases cipher { state with policy := proposed } call.epoch
        call.bytes with ⟨applied, charged⟩ | ⟨refused, same⟩
      · left
        refine ⟨applied, ?_⟩
        generalize ingestBulkCommitted cipher { state with policy := proposed } call.epoch
          call.bytes = result at charged ⊢
        rcases result with ⟨record | error | _, later⟩
        · exact ⟨charged.region, charged.spine⟩
        · exact ⟨charged.region, charged.spine⟩
        · exact ⟨charged.region, charged.spine⟩
      · right
        refine ⟨refused, ?_⟩
        generalize ingestBulkCommitted cipher { state with policy := proposed } call.epoch
          call.bytes = result at same ⊢
        rcases result with ⟨record | error | _, later⟩
        · cases same
          exact ⟨rfl, rfl⟩
        · cases same
          exact ⟨rfl, rfl⟩
        · cases same
          exact ⟨rfl, rfl⟩

/-- The occupancy agrees with what was applied since the start, and what is left
under the ceiling still fits behind the spine. -/
structure Accounted (start : ContextState) (occupancy : Occupancy) : Prop where
  admitted : occupancy.state.store.spine.Admitted
  total : occupancy.state.regionAdmitted = start.regionAdmitted + occupancy.applied.sum
  within : occupancy.state.regionAdmitted ≤ admissionBudget.commitCeiling
  room : occupancy.state.store.spine.encode.length +
    (admissionBudget.commitCeiling - occupancy.state.regionAdmitted) ≤ spineReloadMax

theorem Accounted.ingest {start : ContextState} {occupancy : Occupancy}
    (accounted : Accounted start occupancy) {call : Ingestion}
    (agrees : occupancy.Agrees governor call) :
    Accounted start (occupancy.ingest cipher governor call) := by
  have ceiling : admissionBudget.commitCeiling ≤ u64Max := by decide
  have charge : max call.bytes.length 1 + 12 ≤ admissionBound call.bytes := by
    simp only [admissionBound, Margins.v1]
    omega
  rcases ingestBulk_cases cipher governor occupancy.state call with
    ⟨applied, charged⟩ | ⟨refused, region, store⟩
  · rcases Ingestion.sequenced_of_applies applied with ⟨sequenced, alone⟩
    have fits := add_le_of_passesCeiling (agrees sequenced alone)
    have region : (occupancy.ingest cipher governor call).state.regionAdmitted =
        occupancy.state.regionAdmitted + admissionBound call.bytes := by
      refine charged.region.trans ?_
      rw [saturatingAdd, Nat.min_eq_left (Nat.le_trans fits ceiling)]
    have recorded : (occupancy.ingest cipher governor call).applied =
        occupancy.applied ++ [admissionBound call.bytes] := by
      simp only [Occupancy.ingest, applied, if_true]
    have total := accounted.total
    have room := accounted.room
    constructor
    · cases charged.spine with
      | kept same =>
          change (ingestBulk _ _ _ _ _ _).2.store.spine.Admitted
          rw [same]
          exact accounted.admitted
      | grown _ grown =>
          change (ingestBulk _ _ _ _ _ _).2.store.spine.Admitted
          rw [grown]
          exact accounted.admitted.admitFrame _
    · rw [region, recorded, List.sum_append, List.sum_singleton]
      omega
    · rw [region]
      exact fits
    · rw [region]
      cases charged.spine with
      | kept same =>
          change (ingestBulk _ _ _ _ _ _).2.store.spine.encode.length + _ ≤ _
          rw [same]
          omega
      | grown short grown =>
          change (ingestBulk _ _ _ _ _ _).2.store.spine.encode.length + _ ≤ _
          rw [grown, accounted.admitted.length_encode_admitFrame]
          omega
  · have recorded : (occupancy.ingest cipher governor call).applied = occupancy.applied := by
      simp [Occupancy.ingest, refused]
    constructor
    · change (ingestBulk _ _ _ _ _ _).2.store.spine.Admitted
      rw [store]
      exact accounted.admitted
    · rw [recorded]
      exact region.trans accounted.total
    · exact region.trans_le accounted.within
    · change (ingestBulk _ _ _ _ _ _).2.store.spine.encode.length +
        (_ - (ingestBulk _ _ _ _ _ _).2.regionAdmitted) ≤ _
      rw [store, region]
      exact accounted.room

/-- While the ceiling check of every admission says on the total of the session what
it says on the executor's own one, the total stays under the ceiling and the spine can
be reloaded. -/
theorem region_within_ceiling {start : ContextState} (admitted : start.store.spine.Admitted)
    (within : start.regionAdmitted ≤ admissionBudget.commitCeiling)
    (room : start.store.spine.encode.length +
      (admissionBudget.commitCeiling - start.regionAdmitted) ≤ spineReloadMax)
    {calls : List Ingestion}
    (agree : ∀ before call, before ++ [call] <+: calls →
      (run (Occupancy.ingest cipher governor) ⟨start, []⟩ before).Agrees governor call) :
    ∀ reached, reached <+: calls →
      start.regionAdmitted +
          (run (Occupancy.ingest cipher governor) ⟨start, []⟩ reached).applied.sum ≤
        admissionBudget.commitCeiling ∧
      (run (Occupancy.ingest cipher governor) ⟨start, []⟩ reached).state.store.spine.encode.length ≤
        spineReloadMax ∧
      Spine.loadTyped
          (run (Occupancy.ingest cipher governor) ⟨start, []⟩ reached).state.store.spine.encode =
        .ok (run (Occupancy.ingest cipher governor) ⟨start, []⟩ reached).state.store.spine := by
  intro reached isPrefix
  have begun : Accounted start ⟨start, []⟩ := ⟨admitted, rfl, within, room⟩
  have accounted := run_invariant (Accounted start) begun
    (fun before call member holds => holds.ingest (agree before call member)) reached isPrefix
  have short := (Nat.le_add_right _ _).trans accounted.room
  refine ⟨accounted.total ▸ accounted.within, short, ?_⟩
  apply Spine.loadTyped_encode accounted.admitted
  exact Nat.lt_of_le_of_lt short (by decide)

end Regions

section Samples

local instance admissionWire : Wire := .emptySession

/-- A governor that always admits. -/
def admittingGovernor : Governor where
  proposeBulk policy _ _ := (false, policy)
  completeBulk policy _ _ := policy
  abortBulk policy := policy

/-- A cipher that adds a tag of sixteen bytes. -/
def taggingCipher : Cipher where
  encrypt _ _ _ message := some (message ++ List.replicate 16 0)
  decrypt _ _ _ ciphertext := some (ciphertext.take (ciphertext.length - 16))

def freshState : ContextState :=
  newContextState (List.replicate 32 0) 0

def smallResult : Ingestion :=
  ⟨1, "run_shell_command", utf8 "running 1 test\n"⟩

theorem region_within_ceiling_small :
    freshState.regionAdmitted +
        (run (Occupancy.ingest taggingCipher admittingGovernor) ⟨freshState, []⟩
          [smallResult]).applied.sum ≤ admissionBudget.commitCeiling ∧
      (run (Occupancy.ingest taggingCipher admittingGovernor) ⟨freshState, []⟩
        [smallResult]).state.store.spine.encode.length ≤ spineReloadMax ∧
      Spine.loadTyped (run (Occupancy.ingest taggingCipher admittingGovernor) ⟨freshState, []⟩
          [smallResult]).state.store.spine.encode =
        .ok (run (Occupancy.ingest taggingCipher admittingGovernor) ⟨freshState, []⟩
          [smallResult]).state.store.spine := by
  have room : freshState.store.spine.encode.length +
      (admissionBudget.commitCeiling - freshState.regionAdmitted) ≤ spineReloadMax := by decide
  have passes : passesCeiling freshState.regionAdmitted smallResult.bytes = true := by
    decide +kernel
  have agrees : (⟨freshState, []⟩ : Occupancy).Agrees admittingGovernor smallResult :=
    fun _ _ => passes
  exact region_within_ceiling Spine.admitted_new (Nat.zero_le _) room
    (forall_steps_cons agrees forall_steps_nil) [smallResult] List.prefix_rfl

/-- One admission of twenty mebibytes. -/
def admitTwenty (state : ContextState) (epoch parentVersion : Nat) :
    Outcome AdmissionError Unit × ContextState :=
  let length := 20 * 2 ^ 20
  sequenceAdmission state epoch parentVersion (length + Margins.v1.commitFrame) length
    (some (.operationCommit .admitIngress sessionScope (UInt64.ofNat length))) admissionBudget
    length

/-- Two admissions are applied whose bounds together exceed the ceiling. -/
theorem region_ceiling_exceeded :
    ((admitTwenty freshState 1 0).1 = .ok () ∧
      (admitTwenty (admitTwenty freshState 1 0).2 2 1).1 = .ok ()) ∧
      admissionBudget.commitCeiling < 2 * (20 * 2 ^ 20 + Margins.v1.commitFrame) := by
  decide +kernel

end Samples

end Llxprt.Session
