import Llxprt.Agent.Compaction
import Llxprt.Log.Provider

/-!
# One attempt at a turn

What the agent keeps in memory while it drives a turn: the request list, the
rounds so far, the reply it has not worked off, the identifiers it has seen and
the running totals.  A fresh process rebuilds it from the committed replies.
-/

namespace Llxprt.Agent

open Llxprt.Kernel Llxprt.Rust Llxprt.Gateway Llxprt.Log

/-- How a reply is written to the log and read back. -/
structure ReplyCodec where
  encode : LlmResult → Bytes
  decode : Bytes → Option LlmResult

/-- The settings of an agent and what it asks of the libraries around it. -/
structure CodingAgent (τ : Type) where
  sessionId : String
  maxToolCalls : Option Nat
  maxRounds : Nat
  turnOutput : Nat
  allowShell : Bool
  checkpointRequested : Bool
  systemPrompt : String
  binding : Option String
  checks : Checks τ Continuation
  measures : Measures
  codec : ReplyCodec
  compactJson : String → Option String
  shellCommand : String → Option String
  scrub : String → String
  boundText : Nat → String → String
  namingFailure : String → String
  providerClass : ProviderClass
  containsSecret : String → Bool
  continuationSafe : Continuation → Except String Unit
  looksLikeCall : String → Bool

/-- The two projections of an admitted tool result. -/
structure Projection where
  live : String
  persisted : String

structure TurnUsage where
  assistantBytes : Nat
  argsBytes : Nat
  outputBytes : Nat
  totalCalls : Nat

structure AttemptState where
  requests : List ModelRequest
  rounds : List LiveRound
  current : Option LlmResult
  ids : BTreeSet String
  usage : TurnUsage
  budgetExhausted : Bool

section Budget

def budgetNotice (budget : Option Nat) (used : Nat) : String :=
  match budget with
  | none => ""
  | some max =>
      let left := max - used
      if left = 0 then
        "[budget: 0 of " ++ toString max ++ " tool calls left; reply with your final summary only]"
      else if left ≤ 3 then
        "[budget: only " ++ toString left ++ " of " ++ toString max ++
          " tool calls left; wrap up and produce your final summary]"
      else
        "[budget: " ++ toString left ++ " of " ++ toString max ++ " tool calls left]"

/-- The calls that fit the budget, and the refused rest. -/
def splitOverBudget (budget : Option Nat) (usage : TurnUsage) (calls : List ToolCall) :
    List ToolCall × List ToolCall :=
  match budget with
  | none => (calls, [])
  | some max => (calls.take (max - usage.totalCalls), calls.drop (max - usage.totalCalls))

def refusalText (budget : Option Nat) (used : Nat) : String :=
  "tool call refused: tool-call budget exhausted\n\n" ++ budgetNotice budget used

/-- A refusal is persisted and never counted as an executed call. -/
def refusedCallRecord (call : ToolCall) (result : String) : LiveCall where
  record :=
    { id := call.id, name := call.name, args := call.argsJson, ok := false, refused := true,
      result := result }
  resultLive := result

def toolCallRecord (call : ToolCall) (ok : Bool) (persisted live : String) : LiveCall where
  record :=
    { id := call.id, name := call.name, args := call.argsJson, ok := ok, refused := false,
      result := persisted }
  resultLive := live

/-- The refusals of the calls over the budget, and the requests with their
returns. -/
def refuseOverBudget (budget : Option Nat) (used : Nat) (skipped : List ToolCall) :
    List LiveCall × List ModelRequest :=
  (skipped.map fun call => refusedCallRecord call (refusalText budget used),
    skipped.map fun call =>
      toolReturnRequest call.name call.id false (refusalText budget used))

end Budget

section Results

def bulkResultBytes : Nat := 1024

/-- A result as it enters the round: in full below the bulk threshold. -/
def compactToolResult (ingest : String → String → Option Projection) (tool text : String) :
    Option Projection :=
  if text.utf8ByteSize < bulkResultBytes then some ⟨text, text⟩ else ingest tool text

def exchangeCall (ingest : String → String → Option Projection) (call : ToolCallRecord) :
    Option ToolCallRecord :=
  if call.result.utf8ByteSize < bulkResultBytes then
    some call
  else
    (ingest call.name call.result).map fun projection =>
      { call with result := projection.persisted }

def exchangeRound (ingest : String → String → Option Projection)
    (round : RoundRecord Continuation) : Option (RoundRecord Continuation) :=
  (round.calls.mapM (exchangeCall ingest)).map fun calls => { round with calls := calls }

/-- The transcript that the session log stores. -/
def contextExchange (ingest : String → String → Option Projection) (rounds : List LiveRound) :
    Option (List (RoundRecord Continuation)) :=
  (rounds.map LiveRound.released).mapM (exchangeRound ingest)

end Results

section Missions

/-- The command of an explicit one-command mission. -/
def command (prompt : String) : Except String (Option String) :=
  let marker := "run exactly one shell command:".toList
  let text := prompt.toList.dropWhile Text.isWhitespace
  if (text.take marker.length).map Char.toLower = marker then
    match (text.drop marker.length).dropWhile Text.isWhitespace with
    | '\x60' :: rest =>
        if rest.contains '\x60' then
          let body := rest.takeWhile (· ≠ '\x60')
          if body.all Text.isWhitespace || body.contains '\n' || body.contains '\r' then
            .error "expected a nonempty single-line command"
          else
            .ok (some (String.ofList body))
        else
          .error "unterminated command"
    | _ => .error "expected a backtick-delimited command"
  else
    .ok none

end Missions

section Replies

/-- Why a round gave no reply that can be used. -/
inductive RoundFailure where
  | model (message : String)
  | toolCallRefusal
  | invalidToolCall (message : String)
  | finishReason (message : String)

variable {τ : Type} (agent : CodingAgent τ)

def LlmResult.assistantBytes (reply : LlmResult) : Nat :=
  saturatingAdd (saturatingAdd reply.text.utf8ByteSize reply.thinking.utf8ByteSize)
    ((reply.continuation.map agent.checks.continuationBytes).getD 0)

def turnArgsBytes (reply : LlmResult) : Nat :=
  (reply.calls.map fun call => call.argsJson.utf8ByteSize).sum

/-- The bytes that a reply maps to. -/
def mappedBytes (reply : LlmResult) : Option Nat :=
  reply.calls.foldlM (fun total call => do
    let total ← checkedAdd total call.id.utf8ByteSize
    let total ← checkedAdd total call.name.utf8ByteSize
    checkedAdd total call.argsJson.utf8ByteSize) (reply.assistantBytes agent)

/-- Admission of a provider reply: its size, its secrets and the names and
identifiers of its calls. -/
def validateReply (reply : LlmResult) : Except RoundFailure Unit := do
  match reply.continuation with
  | some state => (agent.continuationSafe state).mapError RoundFailure.model
  | none => pure ()
  if (mappedBytes agent reply).all fun bytes => maxResponseBytes < bytes then
    .error (.model ("mapped model response exceeds the " ++ toString maxResponseBytes ++
      " byte cap"))
  else if agent.containsSecret reply.text || agent.containsSecret reply.thinking ||
      reply.calls.any fun call => agent.containsSecret call.id || agent.containsSecret call.name ||
        agent.containsSecret call.argsJson then
    .error (.model "model response contained a configured secret")
  else if reply.calls.any fun call => maxToolCallIdBytes < call.id.utf8ByteSize then
    .error (.model ("tool call id exceeds the " ++ toString maxToolCallIdBytes ++ " byte cap"))
  else if reply.calls.any fun call =>
      maxToolNameBytes < call.name.utf8ByteSize || !isSafeToolName call.name then
    match finishCheck reply with
    | .error message => .error (.finishReason message)
    | .ok () =>
        match validateCalls agent.checks.argsObject ∅ reply with
        | .error message => .error (.invalidToolCall message)
        | .ok _ => .error .toolCallRefusal
  else
    .ok ()

/-- What is checked before a reply is staged. -/
def structuralCheck (reply : LlmResult) : Except RoundFailure Unit :=
  match finishCheck reply with
  | .error message => .error (.finishReason message)
  | .ok () =>
      match validateCalls agent.checks.argsObject ∅ reply with
      | .error message => .error (.invalidToolCall message)
      | .ok _ => .ok ()

/-- The calls of a reply as execution intents. -/
def executionsOf (reply : LlmResult) : List ExecutionIntent :=
  reply.calls.map fun call =>
    { id := call.id, tool := call.name, args := call.argsJson,
      readOnly := call.name = "read_file" || call.name = "list_directory" ||
        call.name = "search_file_content",
      completion := none }

end Replies

section History

variable {τ : Type} (agent : CodingAgent τ)

/-- A finished turn as requests. -/
def historyRequests (turn : HistoryTurn Continuation) : List ModelRequest :=
  let rounds := turn.rounds.filter fun round =>
    !round.assistant.isEmpty || round.calls ≠ [] || round.continuation.isSome
  let summary :=
    if !turn.summary.isEmpty && !turn.rounds.any fun round => round.assistant = turn.summary then
      persistedRoundRequests agent.compactJson
        { thinking := "", continuation := none, assistant := turn.summary, calls := [] }
    else
      []
  userRequest turn.prompt :: rounds.flatMap (persistedRoundRequests agent.compactJson) ++ summary

def materializeRequests (reserved : ReservedRequest Continuation) : List ModelRequest :=
  systemRequest agent.systemPrompt :: reserved.history.flatMap (historyRequests agent) ++
    [userRequest reserved.prompt]

/-- What a new turn appends to the prefix of the turn before it. -/
def prefixTail (reserved : ReservedRequest Continuation) : List ModelRequest :=
  ((reserved.history.getLast?.bind fun turn => turn.rounds.getLast?).map
    (persistedRoundRequests agent.compactJson)).getD [] ++ [userRequest reserved.prompt]

end History

section Recovering

variable {τ : Type} (agent : CodingAgent τ)

/-- The rounds with the text and the private state of a reply filled in, where
the first call of the reply is that of a round. -/
def restoreRound (reply : LlmResult) (rounds : List (RoundRecord Continuation)) :
    List (RoundRecord Continuation) :=
  updateFirst
    (fun round => round.calls.head?.map ToolCallRecord.id = reply.calls.head?.map ToolCall.id)
    (fun round =>
      { round with
        assistant := reply.text
        thinking := reply.thinking
        continuation := reply.continuation }) rounds

/-- The recovered rounds and the reply that is still to be worked off. -/
def restoreResponses (rounds : List (RoundRecord Continuation)) (final : Option LlmResult) :
    List Bytes → Option (List (RoundRecord Continuation) × Option LlmResult)
  | [] => some (rounds, final)
  | bytes :: rest =>
      match agent.codec.decode bytes with
      | none => none
      | some reply =>
          if reply.calls = [] then
            restoreResponses rounds (some reply) rest
          else
            restoreResponses (restoreRound reply rounds) none rest

/-- A persisted round has no live projections. -/
def liveRound (round : RoundRecord Continuation) : LiveRound where
  thinking := round.thinking
  continuation := round.continuation
  assistant := round.assistant
  calls := round.calls.map fun call => ⟨call, ""⟩

/-- The attempt that a fresh process continues. -/
def recoveredAttempt (requests : List ModelRequest) (rounds : List (RoundRecord Continuation))
    (current : Option LlmResult) : AttemptState where
  requests := requests ++ rounds.flatMap (persistedRoundRequests agent.compactJson)
  rounds := rounds.map liveRound
  current := current
  ids := .ofList ((rounds.flatMap RoundRecord.calls).map ToolCallRecord.id)
  usage :=
    { assistantBytes := (rounds.map fun round =>
        saturatingAdd round.assistant.utf8ByteSize round.thinking.utf8ByteSize).sum
      argsBytes := ((rounds.flatMap RoundRecord.calls).map fun call => call.args.utf8ByteSize).sum
      outputBytes :=
        ((rounds.flatMap RoundRecord.calls).map fun call => call.result.utf8ByteSize).sum
      totalCalls := (rounds.map fun round => round.calls.length).sum }
  budgetExhausted := false

/-- The attempt before its first reply. -/
def freshAttempt (requests : List ModelRequest) : AttemptState where
  requests := requests
  rounds := []
  current := none
  ids := ∅
  usage := ⟨0, 0, 0, 0⟩
  budgetExhausted := false

end Recovering

section Limits

variable {τ : Type} (agent : CodingAgent τ)

/-- The aggregate caps of a turn. -/
def withinTurnCaps (usage : TurnUsage) : Bool :=
  usage.assistantBytes ≤ maxTurnAssistantBytes && usage.argsBytes ≤ maxTurnArgsBytes &&
    usage.outputBytes ≤ agent.turnOutput

def withinRoundLimit (rounds : List LiveRound) : Bool :=
  rounds.length + 1 ≤ agent.maxRounds

/-- The attempt with a reply charged and waiting to be worked off. -/
def AttemptState.receive (attempt : AttemptState) (reply : LlmResult) : AttemptState :=
  { attempt with
    current := some reply
    usage := { attempt.usage with
      assistantBytes := saturatingAdd attempt.usage.assistantBytes (reply.assistantBytes agent)
      argsBytes := saturatingAdd attempt.usage.argsBytes (turnArgsBytes reply) } }

end Limits

end Llxprt.Agent
