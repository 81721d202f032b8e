import Llxprt.Gateway.Protocol
import Llxprt.Kernel.Serde
import Llxprt.Rust.Text

/-!
# Records of the session log

The persisted types of a session: rounds of the turn loop, branches with their
reservations, and the state that the log folds to.  Telemetry and the private
continuation of a provider are opaque to the store and stay type parameters, `τ`
and `κ`; the live projection of a tool result is never persisted and is left out.
-/

namespace Llxprt.Log

open Llxprt.Kernel Llxprt.Rust Llxprt.Gateway

inductive StoreError where
  | invalid (text : String)
  | io (text : String)
  | corrupt (text : String)
  | stale
  | leaseExpired (elapsedSeconds : UInt64)
  | busy (text : String)
  | lock (text : String)
  | lockTimeout
  | installedDurabilityUnknown
  | committedMaintenance (text : String)
  deriving DecidableEq

/-- The text of an error before it is scrubbed for display. -/
def StoreError.text : StoreError → String
  | invalid text => text
  | io text => "session io: " ++ text
  | corrupt text => "corrupt session state: " ++ text
  | stale => "session state changed since reservation; retry"
  | leaseExpired elapsedSeconds =>
      "lease expired during tool execution (elapsed " ++ toString elapsedSeconds.toNat ++
        "s since reservation)"
  | busy text => "session reservation active: " ++ text
  | lock text => "session lock: " ++ text
  | lockTimeout => "session lock timed out; retry"
  | installedDurabilityUnknown =>
      "session state was installed but directory durability is unconfirmed"
  | committedMaintenance text => "session event committed but maintenance failed: " ++ text

structure ToolCallRecord where
  id : String
  name : String
  args : String
  ok : Bool
  refused : Bool
  result : String
  deriving DecidableEq

structure RoundRecord (κ : Type) where
  thinking : String
  continuation : Option κ
  assistant : String
  calls : List ToolCallRecord
  deriving DecidableEq

structure StreamRetryRecord where
  round : UInt64
  retry : UInt8
  delayMs : UInt64
  events : UInt64
  deriving DecidableEq

inductive Lifecycle where
  | pending
  | completed
  | failed
  deriving DecidableEq

structure BranchRecord (τ κ : Type) where
  telemetry : Option τ
  branchId : String
  turn : UInt32
  attempt : UInt32
  parentBranch : Option String
  parentTurn : UInt32
  parentAttempt : UInt32
  prompt : String
  digest : String
  lifecycle : Lifecycle
  rounds : List (RoundRecord κ)
  streamRetries : List StreamRetryRecord
  summary : String
  error : String
  owner : String
  reservedAt : UInt64
  leaseExpiry : UInt64
  deriving DecidableEq

structure Capability where
  version : UInt64
  serializerVersion : UInt64
  tokenizerVersion : Option String
  marginVersion : UInt64
  placeholders : Bool
  providerInstructionsHash : String
  profileHash : String
  maxOutputTokens : Option UInt64
  deriving DecidableEq

structure RenderPublication where
  capability : Capability
  toolsHash : String
  contractHash : String
  deriving DecidableEq

structure SessionState (τ κ : Type) where
  providerEpoch : UInt64
  providerTurns : List TurnRecord
  renderContracts : List RenderPublication
  version : UInt32
  sessionId : String
  cwd : Option String
  cwdDev : UInt64
  cwdIno : UInt64
  branches : List (BranchRecord τ κ)
  nextBranchSeq : UInt64
  deriving DecidableEq

def storeVersion : UInt32 := 9

namespace SessionState

variable {τ κ : Type}

def empty (sessionId : String) : SessionState τ κ where
  providerEpoch := 0
  providerTurns := []
  renderContracts := []
  version := storeVersion
  sessionId := sessionId
  cwd := none
  cwdDev := 0
  cwdIno := 0
  branches := []
  nextBranchSeq := 0

/-- The first branch of the identifier. -/
def branch (state : SessionState τ κ) (branchId : String) : Option (BranchRecord τ κ) :=
  state.branches.find? fun branch => branch.branchId = branchId

end SessionState

/-- One logical change of a session. -/
inductive Event (τ κ : Type) where
  | provider (branchId owner : String) (command : Gateway.Command)
  | renderContract (branchId owner : String) (publication : RenderPublication)
  | telemetry (branchId owner : String) (telemetry : τ)
  | branchReserved (cwd : Option String) (cwdDev cwdIno : UInt64)
      (branch : BranchRecord τ κ) (nextBranchSeq : UInt64)
  | branchReclaimed (branchId prompt owner : String) (reservedAt leaseExpiry : UInt64)
  | streamRetry (branchId owner : String) (record : StreamRetryRecord)
  | leaseRenewed (branchId owner : String) (leaseExpiry : UInt64)
  | checkpoint (branchId owner : String) (rounds : List (RoundRecord κ))
      (leaseExpiry : UInt64)
  | branchCompleted (branchId owner : String) (rounds : List (RoundRecord κ))
      (summary : String)
  | branchFailed (branchId owner : String) (rounds : List (RoundRecord κ))
      (error : String)

structure EventBatch (τ κ : Type) where
  txnId : String
  events : List (Event τ κ)

/-- What the store asks of the values it does not look into: whether telemetry is
in bounds, whether a continuation may be kept and how many bytes it takes, and
whether the arguments of a tool call parse as a JSON object. -/
structure Checks (τ κ : Type) where
  telemetryValid : τ → Bool
  continuationValid : κ → Except String Unit
  continuationBytes : κ → Nat
  argsObject : String → Bool

/-- The FNV-1a digest of a prompt. -/
def promptDigest (prompt : String) : String :=
  String.ofList (Text.hexDigits 16 (digest (utf8 prompt)).toNat)

end Llxprt.Log
