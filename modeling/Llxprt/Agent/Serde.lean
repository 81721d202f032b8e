import Llxprt.Agent.Messages
import Llxprt.Log.Serde

/-!
# Serialized messages

The documents of replies and of the private state that the session log keeps, in
the fields of the model.
-/

namespace Llxprt.Agent

open Llxprt.Kernel Llxprt.Kernel.Recorded Llxprt.Rust

/-- A reason that is not known is written as it came. -/
instance : Recorded FinishReason where
  json
    | .stop => .string "stop"
    | .length => .string "length"
    | .contentFilter => .string "content_filter"
    | .toolCall => .string "tool_call"
    | .error => .string "error"
    | .endTurn => .string "end_turn"
    | .stopSequence => .string "stop_sequence"
    | .other raw => .object [("other", json raw)]

/-- The arguments are text that is not parsed here. -/
instance : Recorded ToolCallPart where
  json value := .object
    [("tool_name", json value.toolName), ("args", json value.args),
      ("tool_call_id", optional value.toolCallId)]

/-- Parts name their kind among their fields. -/
instance : Recorded ModelResponsePart where
  json
    | .text content phased => .object
        [("part_kind", .string "text"), ("content", json content), ("phase", json phased)]
    | .toolCall call => .object [("part_kind", .string "tool-call"), ("call", json call)]
    | .thinking content => .object [("part_kind", .string "thinking"), ("content", json content)]
    | .file content => .object [("part_kind", .string "file"), ("content", json content)]
    | .builtinToolCall toolName => .object
        [("part_kind", .string "builtin-tool-call"), ("tool_name", json toolName)]

instance : Recorded ModelResponse where
  json value := .object
    [("parts", json value.parts), ("finish_reason", optional value.finishReason),
      ("host_reasoning_binding", optional value.hostBinding)]

/-- The private state: the response it was captured from. -/
instance : Recorded Continuation where
  json value := .object [("response", json value.captured), ("binding", optional value.binding)]

instance : Recorded ToolCall where
  json value := .object
    [("id", json value.id), ("name", json value.name), ("args_json", json value.argsJson)]

/-- A reply as it is staged. -/
instance : Recorded LlmResult where
  json value := .object
    [("continuation", optional value.continuation), ("thinking", json value.thinking),
      ("text", json value.text), ("calls", json value.calls),
      ("finish_reason", optional value.finishReason)]

end Llxprt.Agent
