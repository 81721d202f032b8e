import Llxprt.Log.Reserve

/-!
# Messages between the agent and the model

A request list is what the provider sees: prompts, replayed responses of the
model and the returns of its tool calls.  Arguments and structured contents are
kept as their compact JSON text, and the times of creation are left out.
-/

namespace Llxprt.Agent

open Llxprt.Kernel Llxprt.Rust Llxprt.Gateway Llxprt.Log

inductive FinishReason where
  | stop
  | length
  | contentFilter
  | toolCall
  | error
  | endTurn
  | stopSequence
  | other (raw : String)
  deriving DecidableEq

structure ToolCallPart where
  toolName : String
  args : String
  toolCallId : Option String
  deriving DecidableEq

/-- A text may carry a phase among the details of its provider. -/
inductive ModelResponsePart where
  | text (content : String) (phased : Bool)
  | toolCall (call : ToolCallPart)
  | thinking (content : String)
  | file (content : String)
  | builtinToolCall (toolName : String)
  deriving DecidableEq

structure ModelResponse where
  parts : List ModelResponsePart
  finishReason : Option FinishReason
  hostBinding : Option String
  deriving DecidableEq

inductive ToolReturnContent where
  | text (content : String)
  | json (content : String)
  | error (message : String)
  deriving DecidableEq

structure ToolReturnPart where
  toolName : String
  content : ToolReturnContent
  toolCallId : Option String
  deriving DecidableEq

inductive ModelRequestPart where
  | systemPrompt (content : String) (dynamicRef : Option String)
  | userPrompt (content : String)
  | toolReturn (part : ToolReturnPart)
  | retryPrompt (content : String)
  | builtinToolReturn (toolName : String)
  | modelResponse (response : ModelResponse)
  deriving DecidableEq

structure ModelRequest where
  parts : List ModelRequestPart
  deriving DecidableEq

/-- The identifier and the name of a call. -/
def ModelResponsePart.callKey : ModelResponsePart → Option (Option String × String)
  | .toolCall call => some (call.toolCallId, call.toolName)
  | _ => none

namespace ModelResponse

/-- An empty response. -/
def new : ModelResponse :=
  ⟨[], none, none⟩

/-- The tool calls of a response with their names. -/
def calls (response : ModelResponse) : List (Option String × String) :=
  response.parts.filterMap ModelResponsePart.callKey

end ModelResponse

/-- The exact response of a provider that returned reasoning state. -/
structure Continuation where
  captured : ModelResponse
  binding : Option String

namespace Continuation

def capture (response : ModelResponse) : Option Continuation :=
  if response.parts.any fun
      | .thinking _ => true
      | .text _ phased => phased
      | _ => false then
    some ⟨response, none⟩
  else
    none

def response (continuation : Continuation) : ModelResponse :=
  match continuation.binding with
  | some binding => { continuation.captured with hostBinding := some binding }
  | none => continuation.captured

end Continuation

structure ToolCall where
  id : String
  name : String
  argsJson : String

/-- The reply of the model for one round. -/
structure LlmResult where
  continuation : Option Continuation
  thinking : String
  text : String
  calls : List ToolCall
  finishReason : Option FinishReason

/-- What the provider asked for, in the order of its parts. -/
def ModelResponse.toolCalls (response : ModelResponse) : List ToolCall :=
  response.parts.filterMap fun
    | .toolCall call => some ⟨call.toolCallId.getD "", call.toolName, call.args⟩
    | _ => none

/-- The reply that a response stands for; `scrub` takes the secrets out of the
reasoning and bounds it, and `binding` ties its private state to the route. -/
def LlmResult.fromResponse (scrub : String → String) (binding : Option String)
    (response : ModelResponse) : LlmResult where
  continuation := (Continuation.capture response).map fun state =>
    { state with binding := binding }
  thinking := scrub (String.join (response.parts.filterMap fun
    | .thinking content => some content
    | _ => none))
  text := String.join (response.parts.filterMap fun
    | .text content _ => some content
    | _ => none)
  calls := response.toolCalls
  finishReason := response.finishReason

/-- A recorded call with the projection of its result that the model sees. -/
structure LiveCall where
  record : ToolCallRecord
  resultLive : String

/-- A round as the agent keeps it. -/
structure LiveRound where
  thinking : String
  continuation : Option Continuation
  assistant : String
  calls : List LiveCall

/-- The round that the store gets: without the live projections. -/
def LiveRound.released (round : LiveRound) : RoundRecord Continuation where
  thinking := round.thinking
  continuation := round.continuation
  assistant := round.assistant
  calls := round.calls.map LiveCall.record

section Requests

def systemRequest (prompt : String) : ModelRequest :=
  ⟨[.systemPrompt prompt none]⟩

def userRequest (prompt : String) : ModelRequest :=
  ⟨[.userPrompt prompt]⟩

def toolReturnRequest (toolName callId : String) (ok : Bool) (content : String) : ModelRequest :=
  ⟨[.toolReturn ⟨toolName, if ok then .text content else .error content, some callId⟩]⟩

/-- The compact text of arguments that parse, the empty object for others. -/
def compactArgs (compactJson : String → Option String) (args : String) : String :=
  (compactJson args).getD "\x7b\x7d"

/-- A response of the model rebuilt from its private state, or from its text and
its calls. -/
def rebuiltResponse (compactJson : String → Option String) (continuation : Option Continuation)
    (text : String) (calls : List ToolCall) : ModelResponse :=
  match continuation with
  | some state => state.response
  | none =>
      { ModelResponse.new with
        parts := (if text.isEmpty then [] else [.text text false]) ++ calls.map fun call =>
          .toolCall ⟨call.name, compactArgs compactJson call.argsJson, some call.id⟩ }

def assistantRequest (compactJson : String → Option String) (result : LlmResult) : ModelRequest :=
  ⟨[.modelResponse (rebuiltResponse compactJson result.continuation result.text result.calls)]⟩

/-- A persisted round: the response of the model and the return of every call. -/
def persistedRoundRequests (compactJson : String → Option String)
    (round : RoundRecord Continuation) : List ModelRequest :=
  ⟨[.modelResponse (rebuiltResponse compactJson round.continuation round.assistant
    (round.calls.map fun call => ⟨call.id, call.name, call.args⟩))]⟩ ::
    round.calls.map fun call => toolReturnRequest call.name call.id call.ok call.result

end Requests

section Quoting

def environmentBanner : String := "environment"

/-- The envelope around what a tool returned, as compact JSON. -/
def renderEnvelope (data : String) : String :=
  String.ofList (Json.print (.object [("provenance", .string environmentBanner),
    ("quoted_data", .string data)]))

def ToolReturnContent.asText : ToolReturnContent → Option String
  | text content => some content
  | error message => some message
  | json _ => none

/-- The serialized content. -/
def ToolReturnContent.serialized : ToolReturnContent → String
  | text content => String.ofList (Json.print (.object [("type", .string "text"),
      ("content", .string content)]))
  | json content => "\x7b\"type\":\"json\",\"content\":" ++ content ++ "\x7d"
  | error message => String.ofList (Json.print (.object [("type", .string "error"),
      ("message", .string message), ("kind", .string "error")]))

def ToolReturnPart.quote (part : ToolReturnPart) : ToolReturnPart :=
  let envelope := renderEnvelope (part.content.asText.getD part.content.serialized)
  { part with
    content := match part.content with
      | .error _ => .error envelope
      | _ => .json envelope }

def ModelRequestPart.quote : ModelRequestPart → ModelRequestPart
  | .toolReturn part => .toolReturn part.quote
  | part => part

/-- Every tool return in its envelope. -/
def quoteRequests (requests : List ModelRequest) : List ModelRequest :=
  requests.map fun request => ⟨request.parts.map ModelRequestPart.quote⟩

end Quoting

section Legality

/-- The calls that wait for a return and the identifiers that were used. -/
structure Pairing where
  pending : BTreeMap String String
  seen : BTreeSet String

namespace Pairing

def call (pairing : Pairing) : ModelResponsePart → Except GatewayError Pairing
  | .toolCall call => do
      let id ← okOr call.toolCallId .identity
      reject (id.isEmpty ∨ pairing.seen.contains id = true) .identity
      pure ⟨pairing.pending.insert id call.toolName, pairing.seen.insert id⟩
  | _ => pure pairing

def part (pairing : Pairing) : ModelRequestPart → Except GatewayError Pairing
  | .modelResponse response => do
      reject (pairing.pending.isEmpty = false) .transition
      response.parts.foldlM call pairing
  | .toolReturn result => do
      let id ← okOr result.toolCallId .identity
      reject (pairing.pending[id]? ≠ some result.toolName) .transition
      pure { pairing with pending := pairing.pending.erase id }
  | _ => do
      reject (pairing.pending.isEmpty = false) .transition
      pure pairing

end Pairing

/-- The parts of a request list in order. -/
def partsOf (requests : List ModelRequest) : List ModelRequestPart :=
  requests.flatMap ModelRequest.parts

/-- Structural legality of calls and returns at the send boundary. -/
def legalRequests (requests : List ModelRequest) : Except GatewayError Unit := do
  let pairing ← (partsOf requests).foldlM Pairing.part ⟨∅, ∅⟩
  reject (pairing.pending.isEmpty = false) .transition

end Legality

section Replies

/-- The completion reason is one that the calls of the reply agree with. -/
def finishCheck (result : LlmResult) : Except String Unit :=
  match result.finishReason with
  | some .stop | some .endTurn | some .stopSequence =>
      if result.calls = [] then .ok () else .error "completion says stop but includes tool calls"
  | some .toolCall =>
      if result.calls = [] then .error "completion says tool_call but has no tool calls" else .ok ()
  | some .length => .error ("completion truncated by max output tokens (finish_reason length); " ++
      "the model hit maxOutputTokens and did not finish; raise maxOutputTokens in the profile " ++
      "or split the work")
  | some .contentFilter => .error "completion blocked (finish_reason content_filter)"
  | some .error => .error "model returned an error completion"
  | some (.other raw) => .error ("unknown finish_reason " ++ raw)
  | none => .error "missing finish_reason"

def isOutputTruncation (result : LlmResult) : Bool :=
  result.finishReason = some .length

/-- A text of nothing but whitespace. -/
def isBlankText (text : String) : Bool :=
  text.toList.all Text.isWhitespace

/-- The identifiers of the attempt with those of the calls. -/
def takeIds (seen : BTreeSet String) : List ToolCall → Except String (BTreeSet String)
  | [] => pure seen
  | call :: rest => do
      reject (isBlankText call.id = true) "model returned a tool call with an empty id"
      reject (seen.contains call.id = true) ("duplicate tool call id " ++ call.id)
      takeIds (seen.insert call.id) rest

def checkArgs (argsObject : String → Bool) : List ToolCall → Except String Unit
  | [] => pure ()
  | call :: rest => do
      reject (argsObject call.argsJson = false)
        ("tool call " ++ call.name ++ ": arguments must be a JSON object")
      checkArgs argsObject rest

/-- The calls of a reply are valid when their identifiers are new and their
arguments are objects. -/
def validateCalls (argsObject : String → Bool) (seen : BTreeSet String) (result : LlmResult) :
    Except String (BTreeSet String) := do
  let ids ← takeIds seen result.calls
  checkArgs argsObject result.calls
  pure ids

end Replies

end Llxprt.Agent
