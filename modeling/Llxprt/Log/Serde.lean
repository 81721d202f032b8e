import Llxprt.Log.Records

/-!
# Log records as JSON

The derived serializers of the session log.  Events carry their kind among their
fields; the commands of the gateway are tagged from outside.
-/

namespace Llxprt.Log

open Llxprt.Kernel Llxprt.Kernel.Recorded Llxprt.Rust Llxprt.Gateway

section Gateway

/-- Enumerations of the gateway keep the case of their names. -/
instance : Recorded ProviderClass where
  json
    | .statelessAttested => .string "StatelessAttested"
    | .idempotentIdentity => .string "IdempotentIdentity"
    | .atMostOneAttempt => .string "AtMostOneAttempt"
    | .unattested => .string "Unattested"

instance : Recorded TurnKind where
  json
    | .conversation => .string "Conversation"
    | .management => .string "Management"

instance : Recorded Status where
  json
    | .intent => .string "Intent"
    | .pending => .string "Pending"
    | .admitted => .string "Admitted"
    | .rejected => .string "Rejected"
    | .indeterminate => .string "Indeterminate"

/-- The intent of a send, the class under `class`. -/
instance : Recorded SendIntent where
  json value := .object
    [("identity", json value.identity), ("branch", json value.branch), ("owner", json value.owner),
      ("epoch", json value.epoch), ("context_version", json value.contextVersion),
      ("request_hash", json value.requestHash), ("contract_hash", json value.contractHash),
      ("class", json value.providerClass), ("kind", json value.kind),
      ("allowance", json value.allowance)]

/-- A call of an admitted reply, with its outcome once there is one. -/
instance : Recorded ExecutionIntent where
  json value := .object
    [("id", json value.id), ("tool", json value.tool), ("args", json value.args),
      ("read_only", json value.readOnly), ("completion", optional value.completion)]

/-- The reply is written as its bytes. -/
instance : Recorded TurnRecord where
  json value := .object
    [("intent", json value.intent), ("status", json value.status),
      ("response", optional (α := List UInt8) value.response),
      ("executions", json value.executions)]

instance : Recorded Gateway.Command where
  json
    | .intent intent => tagged "Intent" (json intent)
    | .stage identity bytes =>
        tagged "Stage" (.object [("identity", json identity), ("bytes", json (α := List UInt8) bytes)])
    | .admitReply identity executions =>
        tagged "Admit" (.object [("identity", json identity), ("executions", json executions)])
    | .reject identity => tagged "Reject" (.object [("identity", json identity)])
    | .complete identity call ok result =>
        tagged "Complete" (.object [("identity", json identity), ("call", json call),
          ("ok", json ok), ("result", json result)])
    | .recover branch => tagged "Recover" (.object [("branch", json branch)])

end Gateway

section Branches

/-- A call as the transcript keeps it. -/
instance : Recorded ToolCallRecord where
  json value := .object
    [("id", json value.id), ("name", json value.name), ("args", json value.args),
      ("ok", json value.ok), ("refused", json value.refused), ("result", json value.result)]

instance : Recorded StreamRetryRecord where
  json value := .object
    [("round", json value.round), ("retry", json value.retry), ("delay_ms", json value.delayMs),
      ("events", json value.events)]

instance : Recorded Lifecycle where
  json
    | .pending => .string "pending"
    | .completed => .string "completed"
    | .failed => .string "failed"

/-- What a published rendering was made for. -/
instance : Recorded Capability where
  json value := .object
    [("version", json value.version), ("serializer_version", json value.serializerVersion),
      ("tokenizer_version", optional value.tokenizerVersion),
      ("margin_version", json value.marginVersion), ("placeholders", json value.placeholders),
      ("provider_instructions_hash", json value.providerInstructionsHash),
      ("profile_hash", json value.profileHash),
      ("max_output_tokens", optional value.maxOutputTokens)]

instance : Recorded RenderPublication where
  json value := .object
    [("capability", json value.capability), ("tools_hash", json value.toolsHash),
      ("contract_hash", json value.contractHash)]

variable {τ κ : Type} [Recorded τ] [Recorded κ]

instance : Recorded (RoundRecord κ) where
  json value := .object
    [("thinking", json value.thinking), ("continuation", optional value.continuation),
      ("assistant", json value.assistant), ("calls", json value.calls)]

/-- A branch with its lease and its transcript. -/
instance : Recorded (BranchRecord τ κ) where
  json value := .object
    [("telemetry", optional value.telemetry), ("branch_id", json value.branchId),
      ("turn", json value.turn), ("attempt", json value.attempt),
      ("parent_branch", optional value.parentBranch), ("parent_turn", json value.parentTurn),
      ("parent_attempt", json value.parentAttempt), ("prompt", json value.prompt),
      ("digest", json value.digest), ("lifecycle", json value.lifecycle),
      ("rounds", json value.rounds), ("stream_retries", json value.streamRetries),
      ("summary", json value.summary), ("error", json value.error), ("owner", json value.owner),
      ("reserved_at", json value.reservedAt), ("lease_expiry", json value.leaseExpiry)]

instance : Recorded (SessionState τ κ) where
  json value := .object
    [("provider_epoch", json value.providerEpoch), ("provider_turns", json value.providerTurns),
      ("render_contracts", json value.renderContracts), ("version", json value.version),
      ("session_id", json value.sessionId), ("cwd", optional value.cwd),
      ("cwd_dev", json value.cwdDev), ("cwd_ino", json value.cwdIno),
      ("branches", json value.branches), ("next_branch_seq", json value.nextBranchSeq)]

end Branches

section Events

variable {τ κ : Type} [Recorded τ] [Recorded κ]

/-- An event with its kind among the fields, and the branch and owner it names. -/
def ownedEvent (kind branchId owner : String) (fields : List (String × Json)) : Json :=
  .object (("kind", .string kind) :: ("branch_id", .string branchId) ::
    ("owner", .string owner) :: fields)

/-- An event, its kind among its fields. -/
def eventJson : Event τ κ → Json
  | .provider branchId owner command =>
      ownedEvent "provider" branchId owner [("command", json command)]
  | .renderContract branchId owner publication =>
      ownedEvent "render_contract" branchId owner [("publication", json publication)]
  | .telemetry branchId owner telemetry =>
      ownedEvent "telemetry" branchId owner [("telemetry", json telemetry)]
  | .branchReserved cwd cwdDev cwdIno branch nextBranchSeq => .object
      [("kind", .string "branch_reserved"), ("cwd", optional cwd), ("cwd_dev", json cwdDev),
        ("cwd_ino", json cwdIno), ("branch", json branch), ("next_branch_seq", json nextBranchSeq)]
  | .branchReclaimed branchId prompt owner reservedAt leaseExpiry => .object
      [("kind", .string "branch_reclaimed"), ("branch_id", json branchId), ("prompt", json prompt),
        ("owner", json owner), ("reserved_at", json reservedAt), ("lease_expiry", json leaseExpiry)]
  | .streamRetry branchId owner record =>
      ownedEvent "stream_retry" branchId owner [("record", json record)]
  | .leaseRenewed branchId owner leaseExpiry =>
      ownedEvent "lease_renewed" branchId owner [("lease_expiry", json leaseExpiry)]
  | .checkpoint branchId owner rounds leaseExpiry =>
      ownedEvent "checkpoint" branchId owner
        [("rounds", json rounds), ("lease_expiry", json leaseExpiry)]
  | .branchCompleted branchId owner rounds summary =>
      ownedEvent "branch_completed" branchId owner
        [("rounds", json rounds), ("summary", json summary)]
  | .branchFailed branchId owner rounds error =>
      ownedEvent "branch_failed" branchId owner [("rounds", json rounds), ("error", json error)]

instance : Recorded (Event τ κ) where
  json := eventJson
  json_injective := by
    intro left right same
    cases left <;> cases right <;> simp_all [eventJson, ownedEvent]
  json_ne_null value := by cases value <;> simp [eventJson, ownedEvent]

/-- The payload of a frame. -/
instance : Recorded (EventBatch τ κ) where
  json value := .object [("txn_id", json value.txnId), ("events", json value.events)]

end Events

/-- A record without fields. -/
instance : Recorded Unit where
  json _ := .object []
  json_injective _ _ _ := rfl
  json_ne_null _ same := by cases same

end Llxprt.Log
