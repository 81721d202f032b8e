import Llxprt.Log.Reserve

/-!
# Provider turns of a reservation

Sends are recorded as intents before they are made, admitted for sending once
more under the lock, and their replies are staged and admitted by commands.
Every operation first checks that the reservation still holds its branch.
-/

namespace Llxprt.Log

open Llxprt.Kernel Llxprt.Kernel.Recorded Llxprt.Rust Llxprt.Gateway

variable {τ κ : Type}

/-- The branch of the reservation, while its lease is live. -/
def liveBranch (state : SessionState τ κ) (reserved : ReservedRequest κ) (now : UInt64) :
    Except StoreError (BranchRecord τ κ) := do
  let branch ← okOr (state.branch reserved.branchId) .stale
  reject (branch.lifecycle ≠ .pending ∨ branch.owner ≠ reserved.owner ∨
    branch.turn ≠ reserved.turn ∨ branch.attempt ≠ reserved.attempt ∨
    branch.digest ≠ promptDigest reserved.prompt) .stale
  reject (branch.leaseExpiry ≤ now)
    (.leaseExpired (UInt64.ofNat (now.toNat - branch.reservedAt.toNat)))
  pure branch

def protocolError (error : GatewayError) : StoreError :=
  .invalid error.text

section Operations

variable [Recorded τ] [Recorded κ] (checks : Checks τ κ)

/-- The intent as the store records it: owner, branch, epoch and identity are the
store's. -/
def stamped (sessionId : String) (state : SessionState τ κ)
    (reserved : ReservedRequest κ) (intent : SendIntent) : SendIntent :=
  { intent with
    owner := reserved.owner
    branch := reserved.branchId
    epoch := state.providerEpoch
    identity := match intent.kind with
      | .conversation => sessionId ++ ":" ++ toString (state.providerTurns.length + 1)
      | .management => sessionId ++ ":" ++ reserved.branchId ++ ":management:" ++
          Sha256.digest (utf8 intent.identity) }

/-- A command that the gateway accepts, appended to the log. -/
def appendCommand (state : SessionState τ κ)
    (reserved : ReservedRequest κ) (command : Gateway.Command) :
    Except StoreError (SessionState τ κ) := do
  let _ ← (Gateway.apply state.providerTurns command).mapError protocolError
  appendEvent checks state (.provider reserved.branchId reserved.owner command)

def providerIntent (sessionId : String) (state : SessionState τ κ)
    (reserved : ReservedRequest κ) (intent : SendIntent) (now : UInt64) :
    Except StoreError (SendIntent × SessionState τ κ) := do
  let _ ← liveBranch state reserved now
  let intent := stamped sessionId state reserved intent
  let later ← appendCommand checks state reserved (.intent intent)
  pure (intent, later)

def admitSend (state : SessionState τ κ) (reserved : ReservedRequest κ)
    (intent : SendIntent) (now : UInt64) : Except StoreError SendIntent := do
  let _ ← liveBranch state reserved now
  reject (¬ state.providerTurns.any fun record =>
      record.intent = intent && record.status = .intent) (protocolError .transition)
  pure intent

def providerCommand (state : SessionState τ κ)
    (reserved : ReservedRequest κ) (command : Gateway.Command) (now : UInt64) :
    Except StoreError (SessionState τ κ) := do
  let _ ← liveBranch state reserved now
  appendCommand checks state reserved command

structure Recovery (κ : Type) where
  rounds : List (RoundRecord κ)
  replies : List Bytes

def recoveredCall (call : ExecutionIntent) : ToolCallRecord :=
  let completion := call.completion.getD TurnRecord.abandonedNote
  { id := call.id, name := call.tool, args := call.args, ok := completion.1, refused := false,
    result := completion.2 }

/-- The rounds and replies of the admitted conversation turns. -/
def recoveredCalls : List TurnRecord → Except StoreError (Recovery κ)
  | [] => pure ⟨[], []⟩
  | record :: rest =>
      if record.status = .admitted ∧ record.intent.kind = .conversation then do
        let reply ← okOr record.response (.corrupt "admitted reply missing")
        let recovery ← recoveredCalls rest
        let round : RoundRecord κ :=
          { thinking := "", continuation := none, assistant := "",
            calls := record.executions.map recoveredCall }
        pure ⟨if record.executions = [] then recovery.rounds else round :: recovery.rounds,
          reply :: recovery.replies⟩
      else recoveredCalls rest

/-- The records of the branch that earlier owners left. -/
def oldTurns (state : SessionState τ κ) (reserved : ReservedRequest κ) : List TurnRecord :=
  state.providerTurns.filter fun record =>
    record.intent.branch = reserved.branchId && record.intent.owner ≠ reserved.owner

/-- The state after a recovery, and what it gives the new owner. -/
def recoverProviderTurns (state : SessionState τ κ) (reserved : ReservedRequest κ) (now : UInt64) :
    Except StoreError (Recovery κ) × SessionState τ κ :=
  match liveBranch state reserved now with
  | .error error => (.error error, state)
  | .ok _ =>
      let old := oldTurns state reserved
      if old = [] then
        (.ok ⟨[], []⟩, state)
      else
        match appendEvent checks state
            (.provider reserved.branchId reserved.owner (.recover reserved.branchId)) with
        | .error error => (.error error, state)
        | .ok later =>
            if old.any fun record => record.status = .intent || record.status = .pending ||
                record.status = .indeterminate then
              (.error (protocolError .indeterminate), later)
            else
              (recoveredCalls old, later)

end Operations

end Llxprt.Log
