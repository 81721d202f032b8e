import Llxprt.Gateway.Snapshots
import Llxprt.Log.Records

/-!
# Validation of a session state

Every invariant of a persisted session: the header and its caps, the provider
records, the shape and lifecycle of each branch, the tool calls with their byte
totals, and the lineages.  Errors name the branch they were found in.
-/

namespace Llxprt.Log

open Llxprt.Kernel Llxprt.Rust Llxprt.Gateway

section Caps

def maxPromptBytes : Nat := 512 * 1024

def maxSessionBytes : Nat := 32 * 1024 * 1024

def maxBranches : Nat := 4096

def maxToolEntries : Nat := 20000

def maxTurnAssistantBytes : Nat := 1024 * 1024

def maxTurnArgsBytes : Nat := 1024 * 1024

def maxTurnOutputBytes : Nat := 16 * 1024 * 1024

def maxResponseBytes : Nat := 64 * 1024 * 1024

def maxToolCallIdBytes : Nat := 256

def maxToolNameBytes : Nat := 64

def maxErrorTextBytes : Nat := 8192

/-- The cap of a persisted text inside an error. -/
def maxRenderedFieldBytes : Nat := 256

end Caps

section Texts

/-- The longest run of whole characters within the bytes. -/
def takeBytes (budget : Nat) : List Char → List Char
  | [] => []
  | char :: rest =>
      if char.utf8Size ≤ budget then char :: takeBytes (budget - char.utf8Size) rest else []

/-- A persisted text as an error shows it. -/
def renderField (text : String) : String :=
  if text.utf8ByteSize ≤ maxRenderedFieldBytes then
    text
  else
    String.ofList (takeBytes maxRenderedFieldBytes text.toList) ++ "..."

/-- The quoted form of a text, with the escapes of the ASCII range. -/
def debugText (text : String) : String :=
  "\"" ++ String.ofList (text.toList.flatMap fun char =>
    if char = '"' ∨ char = '\\' then ['\\', char]
    else if char = '\t' then ['\\', 't']
    else if char = '\n' then ['\\', 'n']
    else if char = '\r' then ['\\', 'r']
    else if char = '\x00' then ['\\', '0']
    else if char.toNat < 32 ∨ char.toNat = 127 then
      ['\\', 'u', '\x7b'] ++ Nat.toDigits 16 char.toNat ++ ['\x7d']
    else [char]) ++ "\""

variable {τ κ : Type}

def branchCorrupt (branch : BranchRecord τ κ) (message : String) : StoreError :=
  .corrupt ("branch " ++ renderField branch.branchId ++ ": " ++ message)

end Texts

section Names

def toolCatalogue : List String :=
  ["read_file", "write_file", "replace", "list_directory", "search_file_content",
    "run_shell_command"]

def isSafeToolName (name : String) : Bool :=
  !name.isEmpty && (utf8 name).all fun byte =>
    (48 ≤ byte && byte ≤ 57) || (65 ≤ byte && byte ≤ 90) || (97 ≤ byte && byte ≤ 122) ||
      byte = 95 || byte = 45

def knownTool (name : String) (allowShell : Bool) : Bool :=
  toolCatalogue.contains name && (allowShell || name ≠ "run_shell_command")

def isKnownToolName (name : String) : Bool :=
  knownTool name true

end Names

section Publications

open Recorded

/-- The bytes that a contract hash commits to. -/
def RenderPublication.committed (publication : RenderPublication) : Bytes :=
  let capability := publication.capability
  documentBytes (.array [.object
    [("version", json capability.version), ("serializer_version", json capability.serializerVersion),
      ("tokenizer_version", optional capability.tokenizerVersion),
      ("margin_version", json capability.marginVersion),
      ("placeholders", json capability.placeholders),
      ("provider_instructions_hash", json capability.providerInstructionsHash),
      ("profile_hash", json capability.profileHash),
      ("max_output_tokens", optional capability.maxOutputTokens)],
    json publication.toolsHash])

def RenderPublication.validate (publication : RenderPublication) : Except GatewayError Unit :=
  reject (hashValid publication.toolsHash = false ∨
    Sha256.digest publication.committed ≠ publication.contractHash ∨
    publication.capability.version = 0 ∨ publication.capability.serializerVersion = 0 ∨
    publication.capability.marginVersion = 0) .identity

end Publications

section Branches

variable {τ κ : Type}

def StreamRetryRecord.validate (record : StreamRetryRecord) : Except StoreError Unit :=
  reject (record.round = 0 ∨ ¬ (1 ≤ record.retry ∧ record.retry ≤ 3) ∨
    record.delayMs.toNat ≠ 250 * 2 ^ (record.retry.toNat - 1))
    (.corrupt "invalid stream retry record")

def checkedTotal (branch : BranchRecord τ κ) (total amount : Nat) : Except StoreError Nat :=
  okOr (checkedAdd total amount) (branchCorrupt branch "transcript byte count overflow")

/-- Whether a branch has the identifier. -/
def SessionState.contains (state : SessionState τ κ) (branchId : String) : Bool :=
  state.branches.any fun branch => branch.branchId = branchId

def validateBranchShape (state : SessionState τ κ)
    (branch : BranchRecord τ κ) : Except StoreError Unit := do
  reject (branch.turn = 0) (branchCorrupt branch "turn must be 1-based")
  reject (branch.attempt = 0) (branchCorrupt branch "attempt must be 1-based")
  match branch.parentBranch with
  | none =>
      reject (branch.parentTurn ≠ 0 ∨ branch.parentAttempt ≠ 0)
        (branchCorrupt branch "parent metadata on a root")
      reject (branch.turn ≠ 1)
        (branchCorrupt branch "a branch without a parent must be at turn 1")
  | some parent =>
      reject (branch.turn < 2) (branchCorrupt branch
        "a turn-1 child is corrupt (a child of a parent cannot be turn 1)")
      reject (state.contains parent = false) (.corrupt ("branch " ++ renderField branch.branchId ++
        ": unknown parent " ++ renderField parent))
  reject (promptDigest branch.prompt ≠ branch.digest) (branchCorrupt branch "prompt digest mismatch")

def validateParentRelation (state : SessionState τ κ)
    (branch : BranchRecord τ κ) : Except StoreError Unit :=
  match branch.parentBranch.bind state.branch with
  | none => pure ()
  | some parent => do
      reject (parent.turn ≠ branch.parentTurn ∨ parent.attempt ≠ branch.parentAttempt)
        (branchCorrupt branch "parent metadata turn/attempt disagree with the parent branch")
      reject (parent.turn.toNat + 1 = UInt32.size) (branchCorrupt branch "parent turn overflow")
      reject (branch.turn ≠ parent.turn + 1)
        (branchCorrupt branch "child turn must be the parent's turn + 1")
      reject (parent.lifecycle ≠ .completed) (branchCorrupt branch "parent branch is not completed")

def validateBranchLifecycle (branch : BranchRecord τ κ) :
    Except StoreError Unit := do
  reject (maxPromptBytes < branch.prompt.utf8ByteSize)
    (branchCorrupt branch "prompt exceeds its byte cap")
  reject (maxRenderedFieldBytes < branch.owner.utf8ByteSize)
    (branchCorrupt branch "owner token exceeds its byte cap")
  match branch.lifecycle with
  | .pending =>
      reject (branch.reservedAt = 0 ∨ branch.leaseExpiry ≤ branch.reservedAt)
        (branchCorrupt branch "invalid reservation lease fields")
      reject (branch.owner.isEmpty ∨ ¬ branch.summary.isEmpty ∨ ¬ branch.error.isEmpty)
        (branchCorrupt branch "pending lifecycle fields are inconsistent")
  | .completed =>
      reject (branch.reservedAt ≠ 0 ∨ branch.leaseExpiry ≠ 0)
        (branchCorrupt branch "terminal branch retains reservation lease fields")
      reject (¬ branch.error.isEmpty)
        (branchCorrupt branch "completed lifecycle fields are inconsistent")
      let finalRound ← okOr branch.rounds.getLast?
        (branchCorrupt branch "completed branch has no final round")
      reject (finalRound.calls ≠ [] ∨ branch.summary ≠ finalRound.assistant)
        (branchCorrupt branch "completed summary disagrees with the final no-tool round")
  | .failed =>
      reject (branch.reservedAt ≠ 0 ∨ branch.leaseExpiry ≠ 0)
        (branchCorrupt branch "terminal branch retains reservation lease fields")
      reject (branch.error.isEmpty ∨ ¬ branch.summary.isEmpty)
        (branchCorrupt branch "failed lifecycle fields are inconsistent")
  reject (maxTurnAssistantBytes < branch.summary.utf8ByteSize)
    (branchCorrupt branch "summary exceeds its byte cap")
  reject (maxErrorTextBytes < branch.error.utf8ByteSize)
    (branchCorrupt branch "error exceeds its byte cap")

/-- The number behind the letter of a branch identifier. -/
def branchNumber (branchId : String) : Option Nat :=
  match branchId.toList with
  | 'b' :: digits => Text.parseU64 digits
  | _ => none

def validateBranchSequence (state : SessionState τ κ)
    (branch : BranchRecord τ κ) : Except StoreError Unit :=
  reject (¬ (branchNumber branch.branchId).any fun number =>
      1 ≤ number ∧ number ≤ state.nextBranchSeq.toNat)
    (.corrupt ("branch " ++ renderField branch.branchId ++
      ": branch id is outside the allocated sequence (next_branch_seq " ++
      toString state.nextBranchSeq.toNat ++ ")"))

end Branches

section Calls

variable {τ κ : Type} (checks : Checks τ κ)

/-- The running totals over the calls of a branch. -/
structure Totals where
  ids : BTreeSet String
  calls : Nat
  assistantBytes : Nat
  argumentBytes : Nat
  resultBytes : Nat

def validateMappedResponseSize (branch : BranchRecord τ κ) (mappedBytes : Nat) :
    Except StoreError Unit :=
  reject (maxResponseBytes < mappedBytes)
    (branchCorrupt branch "mapped response exceeds the model response byte cap")

def validatePersistedCall (branch : BranchRecord τ κ) (call : ToolCallRecord)
    (ids : BTreeSet String) : Except StoreError (BTreeSet String) := do
  reject (call.id.isEmpty ∨ ids.contains call.id = true)
    (branchCorrupt branch "empty or duplicate tool call id")
  reject (maxToolCallIdBytes < call.id.utf8ByteSize)
    (branchCorrupt branch "tool call id exceeds its byte cap")
  reject (maxToolNameBytes < call.name.utf8ByteSize)
    (branchCorrupt branch "tool name exceeds its byte cap")
  reject (isSafeToolName call.name = false) (branchCorrupt branch "invalid tool name identifier")
  reject (isKnownToolName call.name = false ∧ call.ok = true)
    (branchCorrupt branch "unknown tool name")
  reject (checks.argsObject call.args = false)
    (branchCorrupt branch "tool call args are not a JSON object")
  pure (ids.insert call.id)

/-- One call of a round, with the size of the response it came in. -/
def validateCall (branch : BranchRecord τ κ) (progress : Totals × Nat)
    (call : ToolCallRecord) : Except StoreError (Totals × Nat) := do
  let (totals, mappedBytes) := progress
  let ids ← validatePersistedCall checks branch call totals.ids
  let calls ← if call.refused then pure totals.calls else checkedTotal branch totals.calls 1
  let argumentBytes ← checkedTotal branch totals.argumentBytes call.args.utf8ByteSize
  let resultBytes ← checkedTotal branch totals.resultBytes call.result.utf8ByteSize
  let mappedBytes ← okOr (((checkedAdd mappedBytes call.id.utf8ByteSize).bind
      (checkedAdd · call.name.utf8ByteSize)).bind (checkedAdd · call.args.utf8ByteSize))
    (branchCorrupt branch "mapped response size overflow")
  validateMappedResponseSize branch mappedBytes
  pure (⟨ids, calls, totals.assistantBytes, argumentBytes, resultBytes⟩, mappedBytes)

def continuationSize (round : RoundRecord κ) : Nat :=
  match round.continuation with
  | some continuation => checks.continuationBytes continuation
  | none => 0

def validateRound (branch : BranchRecord τ κ) (totals : Totals)
    (positioned : RoundRecord κ × Nat) : Except StoreError Totals := do
  let (round, position) := positioned
  let isCompletedFinal := branch.lifecycle = .completed ∧ position + 1 = branch.rounds.length
  reject (round.calls = [] ∧ ¬ isCompletedFinal ∧ round.continuation.isNone ∧ round.thinking.isEmpty)
    (branchCorrupt branch "only a completed branch may have a final no-tool round")
  match round.continuation with
  | some continuation =>
      (checks.continuationValid continuation).mapError fun message => branchCorrupt branch message
  | none => pure ()
  let assistantBytes ← checkedTotal branch totals.assistantBytes round.assistant.utf8ByteSize
  let assistantBytes ← checkedTotal branch assistantBytes round.thinking.utf8ByteSize
  let assistantBytes ← checkedTotal branch assistantBytes (continuationSize checks round)
  let mappedBytes := saturatingAdd
    (saturatingAdd round.assistant.utf8ByteSize round.thinking.utf8ByteSize)
    (continuationSize checks round)
  validateMappedResponseSize branch mappedBytes
  let (totals, _) ← round.calls.foldlM (validateCall checks branch)
    ({ totals with assistantBytes := assistantBytes }, mappedBytes)
  pure totals

def validateToolCalls (branch : BranchRecord τ κ) : Except StoreError Unit := do
  let totals ← branch.rounds.zipIdx.foldlM (validateRound checks branch) ⟨∅, 0, 0, 0, 0⟩
  reject (maxTurnAssistantBytes < totals.assistantBytes)
    (branchCorrupt branch "assistant transcript exceeds its byte cap")
  reject (maxTurnArgsBytes < totals.argumentBytes)
    (branchCorrupt branch "tool arguments exceed their byte cap")
  reject (maxTurnOutputBytes < totals.resultBytes)
    (branchCorrupt branch "tool results exceed their byte cap")

def validateBranch (state : SessionState τ κ)
    (branch : BranchRecord τ κ) : Except StoreError Unit := do
  reject (branch.telemetry.any fun telemetry => !checks.telemetryValid telemetry)
    (.corrupt "invalid branch telemetry")
  branch.streamRetries.forM StreamRetryRecord.validate
  validateBranchShape state branch
  validateParentRelation state branch
  validateBranchLifecycle branch
  validateBranchSequence state branch
  validateToolCalls checks branch

end Calls

section Lineages

variable {τ κ : Type}

/-- White branches are unvisited, grey ones on the current path, black ones done. -/
inductive Color where
  | white
  | grey
  | black
  deriving DecidableEq

/-- Follow the parents from a branch until a visited one or a root.  Every step
greys a white branch, so the number of branches bounds the walk. -/
def walk (branches : List (BranchRecord τ κ)) (parents : List (Option Nat)) :
    Nat → List Color → List Nat → Nat → Except StoreError (List Color × List Nat)
  | 0, color, path, _ => pure (color, path)
  | fuel + 1, color, path, current =>
      match color[current]? with
      | some .grey =>
          match branches[current]? with
          | some branch => .error (branchCorrupt branch "cycle among parent links")
          | none => pure (color, path)
      | some .white =>
          let color := color.set current .grey
          let path := path ++ [current]
          match parents[current]?.join with
          | some parent => walk branches parents fuel color path parent
          | none => pure (color, path)
      | some .black | none => pure (color, path)

def validateLineage (branches : List (BranchRecord τ κ))
    (parents : List (Option Nat)) (color : List Color) (start : Nat) :
    Except StoreError (List Color) :=
  if color[start]? = some .black then
    pure color
  else do
    let (color, path) ← walk branches parents (branches.length + 1) color [] start
    let keys := path.filterMap fun node =>
      branches[node]?.map fun branch => (branch.turn, branch.attempt)
    reject (¬ keys.Nodup) (match branches[start]? with
      | some branch => branchCorrupt branch "duplicate (turn,attempt) identity in lineage"
      | none => .corrupt "")
    pure (path.foldl (fun color node => color.set node .black) color)

def validateLineages (state : SessionState τ κ) : Except StoreError Unit := do
  let parents := state.branches.map fun branch =>
    branch.parentBranch.bind fun parent =>
      state.branches.findIdx? fun other => other.branchId = parent
  let _ ← (List.range state.branches.length).foldlM (validateLineage state.branches parents)
    (state.branches.map fun _ => .white)
  pure ()

end Lineages

namespace SessionState

variable {τ κ : Type}

def validateToolEntryCap (state : SessionState τ κ) :
    Except StoreError Unit := do
  let _ ← (state.branches.flatMap BranchRecord.rounds).foldlM
    (fun total round => do
      let total := saturatingAdd total round.calls.length
      reject (maxToolEntries < total) (StoreError.corrupt ("too many tool entries (limit " ++
        toString maxToolEntries ++ ")"))
      pure total) 0
  pure ()

def validateHeader (state : SessionState τ κ) : Except StoreError Unit := do
  reject (state.version ≠ storeVersion)
    (.corrupt ("unsupported state version " ++ toString state.version.toNat))
  reject (state.sessionId.isEmpty) (.corrupt "empty session_id")
  reject (maxBranches < state.branches.length)
    (.corrupt ("too many branches (limit " ++ toString maxBranches ++ ")"))
  state.validateToolEntryCap

/-- The branch identifiers are not empty and do not repeat. -/
def branchIndex (seen : BTreeSet String) :
    List (BranchRecord τ κ) → Except StoreError Unit
  | [] => pure ()
  | branch :: rest => do
      reject (branch.branchId.isEmpty ∨ seen.contains branch.branchId = true)
        (.corrupt ("duplicate or empty branch_id " ++ debugText (renderField branch.branchId)))
      branchIndex (seen.insert branch.branchId) rest

def validateCwd (state : SessionState τ κ) : Except StoreError Unit :=
  match state.cwd with
  | some cwd => do
      reject (cwd.toList.head? ≠ some '/')
        (.corrupt ("session cwd " ++ debugText (renderField cwd) ++ " is not an absolute path"))
      reject (state.cwdDev = 0 ∨ state.cwdIno = 0) (.corrupt "session cwd has no filesystem identity")
  | none =>
      reject (state.cwdDev ≠ 0 ∨ state.cwdIno ≠ 0) (.corrupt "session filesystem identity has no cwd")

def validate (checks : Checks τ κ) (state : SessionState τ κ) :
    Except StoreError Unit := do
  state.validateHeader
  (validateRecords state.providerTurns).mapError fun error => StoreError.corrupt error.text
  reject (state.providerTurns.any fun record =>
      state.providerEpoch < record.intent.epoch || !state.contains record.intent.branch)
    (.corrupt "provider record has unknown branch or future epoch")
  state.renderContracts.forM fun publication =>
    publication.validate.mapError fun error => StoreError.corrupt error.text
  branchIndex ∅ state.branches
  state.branches.forM (validateBranch checks state)
  validateLineages state
  state.validateCwd

end SessionState

end Llxprt.Log
