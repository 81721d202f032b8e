import Llxprt.Log.Validation

/-!
# Application of log transactions

A transaction is one event.  It is applied to a copy of the state, the copy is
validated, and only then it replaces the state.  Every event but a reservation
and a reclaim names the owner it acts for; a reclaim passes the branch to a new
owner.
-/

namespace Llxprt.Log

open Llxprt.Kernel Llxprt.Rust Llxprt.Gateway

variable {τ κ : Type}

namespace SessionState

/-- The branch, when it is pending and held by the owner. -/
def pending (state : SessionState τ κ) (branchId owner : String) :
    Except StoreError (BranchRecord τ κ) := do
  let branch ← okOr (state.branch branchId) (.corrupt "transaction names an unknown branch")
  reject (branch.lifecycle ≠ .pending ∨ branch.owner ≠ owner)
    (.corrupt "transaction has an illegal lifecycle or owner")
  pure branch

/-- The first branch of the identifier, changed in place. -/
def setBranch (state : SessionState τ κ) (branchId : String)
    (branch : BranchRecord τ κ) : SessionState τ κ :=
  { state with
    branches := updateFirst (fun other => other.branchId = branchId) (fun _ => branch)
      state.branches }

/-- A change of a pending branch by its owner. -/
def onPending (state : SessionState τ κ) (branchId owner : String) (change : BranchRecord τ κ →
      Except StoreError (BranchRecord τ κ)) :
    Except StoreError (SessionState τ κ) := do
  let branch ← state.pending branchId owner
  let next ← change branch
  pure (state.setBranch branchId next)

end SessionState

section Events

def setTelemetry (checks : Checks τ κ)
    (state : SessionState τ κ) (branchId owner : String) (telemetry : τ) :
    Except StoreError (SessionState τ κ) := do
  let branch ← okOr (state.branch branchId) (.corrupt "telemetry names unknown branch")
  reject (branch.owner ≠ owner ∨ checks.telemetryValid telemetry = false)
    (.corrupt "invalid telemetry owner or payload")
  pure (state.setBranch branchId { branch with telemetry := some telemetry })

/-- The working directory after a reservation: set by the first one, confirmed by
the others. -/
def pinCwd (state : SessionState τ κ) (cwd : Option String)
    (cwdDev cwdIno : UInt64) : Except StoreError (SessionState τ κ) :=
  let inconsistent := .corrupt "branch reservation has inconsistent cwd pinning"
  match state.cwd, cwd with
  | none, some path => do
      reject (cwdDev = 0 ∨ cwdIno = 0) inconsistent
      pure { state with cwd := some path, cwdDev := cwdDev, cwdIno := cwdIno }
  | some current, some path => do
      reject (current ≠ path ∨ state.cwdDev ≠ cwdDev ∨ state.cwdIno ≠ cwdIno) inconsistent
      pure state
  | _, none => .error inconsistent

def reserve (state : SessionState τ κ) (cwd : Option String)
    (cwdDev cwdIno : UInt64) (branch : BranchRecord τ κ)
    (nextBranchSeq : UInt64) : Except StoreError (SessionState τ κ) := do
  let illegal := StoreError.corrupt "branch reservation has an illegal source state"
  reject (state.contains branch.branchId = true ∨ branch.lifecycle ≠ .pending) illegal
  let expected ← okOr (checkedIncrement state.nextBranchSeq) (.corrupt "branch sequence overflow")
  reject (nextBranchSeq ≠ expected) illegal
  let pinned ← pinCwd state cwd cwdDev cwdIno
  let epoch ← okOr (checkedIncrement state.providerEpoch) (.corrupt "provider epoch overflow")
  pure { pinned with
    nextBranchSeq := nextBranchSeq, providerEpoch := epoch, branches := state.branches ++ [branch] }

def reclaim (state : SessionState τ κ) (branchId prompt owner : String)
    (reservedAt leaseExpiry : UInt64) : Except StoreError (SessionState τ κ) := do
  let epoch ← okOr (checkedIncrement state.providerEpoch) (.corrupt "provider epoch overflow")
  let branch ← okOr (state.branch branchId) (.corrupt "reclaim names an unknown branch")
  reject (branch.lifecycle ≠ .pending ∨ reservedAt < branch.leaseExpiry ∨ owner.isEmpty ∨
    leaseExpiry ≤ reservedAt) (.corrupt "branch reclaim has an illegal source state")
  pure { state.setBranch branchId { branch with
    prompt := prompt, digest := promptDigest prompt, owner := owner, reservedAt := reservedAt,
    leaseExpiry := leaseExpiry, telemetry := none, streamRetries := [], summary := "",
    error := "" } with providerEpoch := epoch }

def renew (state : SessionState τ κ) (branchId owner : String)
    (leaseExpiry : UInt64) : Except StoreError (SessionState τ κ) :=
  state.onPending branchId owner fun branch => do
    reject (leaseExpiry ≤ branch.reservedAt) (.corrupt "lease renewal has an invalid expiry")
    pure { branch with leaseExpiry := leaseExpiry }

def checkpoint (state : SessionState τ κ) (branchId owner : String)
    (rounds : List (RoundRecord κ)) (leaseExpiry : UInt64) : Except StoreError (SessionState τ κ) :=
  state.onPending branchId owner fun branch => do
    reject (leaseExpiry ≤ branch.reservedAt) (.corrupt "checkpoint has an invalid lease expiry")
    pure { branch with rounds := branch.rounds ++ rounds, leaseExpiry := leaseExpiry }

def complete (state : SessionState τ κ) (branchId owner : String)
    (rounds : List (RoundRecord κ)) (summary : String) : Except StoreError (SessionState τ κ) :=
  state.onPending branchId owner fun branch =>
    pure { branch with
      rounds := branch.rounds ++ rounds, summary := summary, lifecycle := .completed,
      reservedAt := 0, leaseExpiry := 0 }

def fail (state : SessionState τ κ) (branchId owner : String)
    (rounds : List (RoundRecord κ)) (error : String) : Except StoreError (SessionState τ κ) :=
  state.onPending branchId owner fun branch =>
    pure { branch with
      rounds := branch.rounds ++ rounds, error := error, lifecycle := .failed,
      reservedAt := 0, leaseExpiry := 0 }

def streamRetry (state : SessionState τ κ) (branchId owner : String)
    (record : StreamRetryRecord) : Except StoreError (SessionState τ κ) :=
  state.onPending branchId owner fun branch => do
    record.validate
    pure { branch with streamRetries := branch.streamRetries ++ [record] }

def publishRender (state : SessionState τ κ) (branchId owner : String)
    (publication : RenderPublication) : Except StoreError (SessionState τ κ) := do
  let _ ← state.pending branchId owner
  pure (if state.renderContracts.getLast? = some publication then state
    else { state with renderContracts := state.renderContracts ++ [publication] })

/-- The fence of a provider command: an intent is made for the branch, the owner
and the epoch at hand, a recovery for the branch, and every other command names a
record of the branch and the owner. -/
def providerFence (state : SessionState τ κ) (branchId owner : String) :
    Gateway.Command → Except StoreError Unit
  | .intent intent =>
      reject (intent.branch ≠ branchId ∨ intent.owner ≠ owner ∨ intent.epoch ≠ state.providerEpoch)
        (.corrupt "provider intent has invalid owner or epoch")
  | .recover target =>
      reject (target ≠ branchId) (.corrupt "provider intent has invalid owner or epoch")
  | .stage identity _ | .admitReply identity _ | .reject identity | .complete identity _ _ _ =>
      reject (¬ state.providerTurns.any fun record =>
          record.intent.identity = identity && record.intent.branch = branchId &&
            record.intent.owner = owner)
        (.corrupt "provider command crosses owner or branch fence")

def providerEvent (state : SessionState τ κ) (branchId owner : String)
    (command : Gateway.Command) : Except StoreError (SessionState τ κ) := do
  let _ ← state.pending branchId owner
  providerFence state branchId owner command
  let turns ← (Gateway.apply state.providerTurns command).mapError fun error =>
    StoreError.corrupt error.text
  pure { state with providerTurns := turns }

def applyEvent (checks : Checks τ κ) (state : SessionState τ κ) :
    Event τ κ → Except StoreError (SessionState τ κ)
  | .provider branchId owner command => providerEvent state branchId owner command
  | .renderContract branchId owner publication => publishRender state branchId owner publication
  | .telemetry branchId owner telemetry => setTelemetry checks state branchId owner telemetry
  | .branchReserved cwd cwdDev cwdIno branch nextBranchSeq =>
      reserve state cwd cwdDev cwdIno branch nextBranchSeq
  | .branchReclaimed branchId prompt owner reservedAt leaseExpiry =>
      reclaim state branchId prompt owner reservedAt leaseExpiry
  | .streamRetry branchId owner record => streamRetry state branchId owner record
  | .leaseRenewed branchId owner leaseExpiry => renew state branchId owner leaseExpiry
  | .checkpoint branchId owner rounds leaseExpiry =>
      checkpoint state branchId owner rounds leaseExpiry
  | .branchCompleted branchId owner rounds summary => complete state branchId owner rounds summary
  | .branchFailed branchId owner rounds error => fail state branchId owner rounds error

def applyBatch (checks : Checks τ κ) (state : SessionState τ κ) (batch : EventBatch τ κ) :
    Except StoreError (SessionState τ κ) :=
  match batch.events with
  | [event] => do
      let candidate ← applyEvent checks state event
      candidate.validate checks
      pure candidate
  | _ => .error (.corrupt "a transaction must contain exactly one logical event")

end Events

end Llxprt.Log
