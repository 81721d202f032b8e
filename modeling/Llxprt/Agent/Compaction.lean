import Llxprt.Agent.Messages

/-!
# Compaction of a request list

A request that does not fit is reduced in place: narration that a summary covers,
results that were seen, whole executions from the oldest on, and a checkpoint
head behind the first two requests.  Sizes are those of serialized requests with
their times, so the measures stay parameters.
-/

namespace Llxprt.Agent

open Llxprt.Kernel Llxprt.Rust Llxprt.Log

/-- What the compactor asks about sizes and about the backend. -/
structure Measures where
  roundBudgetExceeded : List ModelRequest → Bool
  contentBytes : List ModelRequest → Option Nat
  assistantDominated : List ModelRequest → List Nat → ModelResponse → Bool
  supportsContextHandles : Bool

section Narration

variable (history : List (HistoryTurn Continuation))

/-- The round tells what the summary of its turn already says. -/
def isNarration (turn : HistoryTurn Continuation) (round : RoundRecord Continuation) : Bool :=
  !turn.summary.isEmpty && round.continuation.isNone && round.assistant ≠ turn.summary

def clearNarration (turn : HistoryTurn Continuation) (round : RoundRecord Continuation) :
    RoundRecord Continuation :=
  if isNarration turn round then { round with assistant := "" } else round

/-- The history without its narration, and whether there was any. -/
def compactHistory : List (HistoryTurn Continuation) × Bool :=
  (history.map fun turn => { turn with rounds := turn.rounds.map (clearNarration turn) },
    history.any fun turn => turn.rounds.any fun round =>
      isNarration turn round && !round.assistant.isEmpty)

def isCovered (content : String) : Bool :=
  history.any fun turn => turn.rounds.any fun round =>
    isNarration turn round && round.assistant = content

def narrationPiece : ModelResponsePart → ModelResponsePart
  | .text content phased => .text (if isCovered history content then "" else content) phased
  | piece => piece

def narrationPart : ModelRequestPart → ModelRequestPart
  | .modelResponse response =>
      .modelResponse { response with parts := response.parts.map (narrationPiece history) }
  | part => part

def compactNarration (requests : List ModelRequest) : List ModelRequest :=
  requests.map fun request => ⟨request.parts.map (narrationPart history)⟩

end Narration

section Results

/-- The calls whose persisted projection may stand in for the live one; the calls
of the last round only when they are reads and handles are understood. -/
def observedCalls (rounds : List LiveRound) (latestReadHandles : Bool) : List LiveCall :=
  (rounds.zipIdx.filter fun (_, index) =>
    latestReadHandles || index + 1 < rounds.length).flatMap fun (round, index) =>
      round.calls.filter fun call =>
        (index + 1 < rounds.length || call.record.name = "read_file") &&
          call.record.result.utf8ByteSize < call.resultLive.utf8ByteSize

/-- The last call of the identifier. -/
def observedCall (calls : List LiveCall) (id : Option String) : Option LiveCall :=
  calls.reverse.find? fun call => id = some call.record.id

def replacedReturn (calls : List LiveCall) (part : ToolReturnPart) : ToolReturnPart :=
  match observedCall calls part.toolCallId with
  | none => part
  | some call =>
      { part with
        content := if call.record.ok then .text call.record.result
          else .error call.record.result }

def replacedPart (calls : List LiveCall) : ModelRequestPart → ModelRequestPart
  | .toolReturn part => .toolReturn (replacedReturn calls part)
  | part => part

/-- The requests with the projections in place, and whether one differs. -/
def compactObservedResults (rounds : List LiveRound) (latestReadHandles : Bool)
    (requests : List ModelRequest) : List ModelRequest × Bool :=
  let calls := observedCalls rounds latestReadHandles
  let replaced := requests.map fun request => ⟨request.parts.map (replacedPart calls)⟩
  (replaced, replaced ≠ requests)

end Results

section Executions

/-- A request that is one response. -/
def soleResponse (request : ModelRequest) : Option ModelResponse :=
  match request.parts with
  | [.modelResponse response] => some response
  | _ => none

def ModelRequestPart.isResponse : ModelRequestPart → Bool
  | .modelResponse _ => true
  | _ => false

def ModelRequestPart.hasCalls : ModelRequestPart → Bool
  | .modelResponse response => response.calls ≠ []
  | _ => false

/-- The newest execution, or the last response when there is none. -/
def evidenceBoundary (requests : List ModelRequest) : Option Nat :=
  match rposition (fun request => request.parts.any ModelRequestPart.hasCalls) requests with
  | some index => some index
  | none => rposition (fun request => request.parts.any ModelRequestPart.isResponse) requests

def ModelRequestPart.returns (id : String) : ModelRequestPart → Bool
  | .toolReturn part => part.toolCallId = some id
  | _ => false

/-- The one request that is the return of the call. -/
def returnPartner (requests : List ModelRequest) (id name : String) : Option Nat :=
  match requests.zipIdx.filter fun (request, _) =>
      request.parts.any (ModelRequestPart.returns id) with
  | [(request, index)] =>
      match request.parts with
      | [.toolReturn part] => if part.toolName = name then some index else none
      | _ => none
  | _ => none

def callCount (requests : List ModelRequest) (id : String) : Nat :=
  ((partsOf requests).flatMap fun
    | .modelResponse response => response.calls
    | _ => []).countP fun call => call.1 = some id

/-- The returns of the calls of a response, all behind it. -/
def partners (requests : List ModelRequest) (index : Nat) :
    List ModelResponsePart → Option (List Nat)
  | [] => some []
  | .text _ _ :: rest => partners requests index rest
  | .thinking _ :: rest => partners requests index rest
  | .toolCall call :: rest => do
      let id ← call.toolCallId
      if id.isEmpty ∨ callCount requests id ≠ 1 then
        none
      else do
        let partner ← returnPartner requests id call.toolName
        if partner ≤ index then none else (partner :: ·) <$> partners requests index rest
  | .file _ :: _ => none
  | .builtinToolCall _ :: _ => none

/-- The response says something, and no completed summary. -/
def eligible (history : List (HistoryTurn Continuation)) (response : ModelResponse) : Bool :=
  (response.parts.any fun
    | .text content _ => !content.isEmpty
    | .thinking _ => true
    | .toolCall _ => true
    | _ => false) &&
  !response.parts.any fun
    | .text content _ => history.any fun turn => !turn.summary.isEmpty && turn.summary = content
    | _ => false

variable (measures : Measures)

/-- The execution at the index with its returns, when it may be elided. -/
def elidable (requests : List ModelRequest) (history : List (HistoryTurn Continuation))
    (boundary index : Nat) : Option (List Nat) := do
  let request ← requests[index]?
  let response ← soleResponse request
  if eligible history response then
    let group ← partners requests index response.parts
    if measures.assistantDominated requests (index :: group) response &&
        group.all fun partner => partner < boundary then
      some (index :: group)
    else
      none
  else
    none

/-- The requests without the oldest execution that may be elided. -/
def elideOldest (requests : List ModelRequest) (history : List (HistoryTurn Continuation)) :
    Option (List ModelRequest) := do
  let boundary ← evidenceBoundary requests
  let group ← (List.range boundary).findSome? (elidable measures requests history boundary)
  some ((requests.zipIdx.filter fun (_, index) => index ∉ group).map Prod.fst)

/-- Executions are elided while the requests do not fit; each one takes a request
away. -/
def elideWhileExceeded (history : List (HistoryTurn Continuation)) :
    Nat → List ModelRequest → List ModelRequest
  | 0, requests => requests
  | steps + 1, requests =>
      if measures.roundBudgetExceeded requests then
        match elideOldest measures requests history with
        | none => requests
        | some shorter => elideWhileExceeded history steps shorter
      else
        requests

end Executions

section Head

def checkpointRef : String := "context-checkpoint"

def ModelRequestPart.isCheckpoint : ModelRequestPart → Bool
  | .systemPrompt _ dynamicRef => dynamicRef = some checkpointRef
  | _ => false

def checkpointText (history : List (HistoryTurn Continuation)) : String :=
  let summary := (history.getLast?.map HistoryTurn.summary).getD ""
  "Context checkpoint: older results use admitted digests; older completed executions may be " ++
    "elided from this projection. Preserve prompts, completed summaries, latest evidence and " ++
    "tool pairing." ++ if summary.isEmpty then "" else "\n" ++ summary

/-- One checkpoint head behind the first two requests. -/
def checkpointHead (history : List (HistoryTurn Continuation)) (requests : List ModelRequest) :
    List ModelRequest :=
  let kept := requests.filter fun request => !request.parts.any ModelRequestPart.isCheckpoint
  kept.take 2 ++ ⟨[.systemPrompt (checkpointText history) (some checkpointRef)]⟩ :: kept.drop 2

end Head

/-- Where the requests of the current turn start. -/
def currentPromptStart (requests : List ModelRequest) (prompt : String) : Nat :=
  match rposition (fun request => request.parts.any fun
      | .userPrompt content => content = prompt
      | _ => false) requests with
  | some index => index + 1
  | none => 0

section Compacting

variable (measures : Measures)

def compactLatestRead (requests : List ModelRequest) (rounds : List LiveRound) (prompt : String) :
    List ModelRequest × Bool :=
  if measures.supportsContextHandles &&
      (rounds.getLast?.any fun round => round.calls.length = 1) &&
      measures.roundBudgetExceeded requests then
    let current := currentPromptStart requests prompt
    let (tail, changed) := compactObservedResults rounds true (requests.drop current)
    (requests.take current ++ tail, changed)
  else
    (requests, false)

/-- Narration and observed results: the least destructive cut. -/
def compactContent (history : List (HistoryTurn Continuation)) (prompt : String)
    (requests : List ModelRequest) (rounds : List LiveRound) : List ModelRequest × Bool :=
  let current := currentPromptStart requests prompt
  let narrated := (compactHistory history).2
  let head := requests.take current
  let (tail, replaced) := compactObservedResults rounds false (requests.drop current)
  ((if narrated then compactNarration history head else head) ++ tail, narrated || replaced)

/-- An execution is elided when the requests do not fit or nothing changed. -/
def elideOnce (history : List (HistoryTurn Continuation)) (candidate : List ModelRequest × Bool) :
    List ModelRequest × Bool :=
  if measures.roundBudgetExceeded candidate.1 || !candidate.2 then
    match elideOldest measures candidate.1 history with
    | some shorter => (shorter, true)
    | none => candidate
  else
    candidate

def contentShrank (before after : List ModelRequest) : Bool :=
  match measures.contentBytes before, measures.contentBytes after with
  | some before, some after => after < before
  | _, _ => false

/-- The requests after a recovery, when it made them smaller. -/
def compactProviderContext (history : List (HistoryTurn Continuation)) (prompt : String)
    (requests : List ModelRequest) (rounds : List LiveRound) :
    Option (List (HistoryTurn Continuation) × List ModelRequest) :=
  let reduced := elideOnce measures history (compactContent history prompt requests rounds)
  let reduced :=
    if reduced.2 then reduced else compactLatestRead measures reduced.1 rounds prompt
  if reduced.2 then
    let headed := checkpointHead history reduced.1
    let fitted := elideWhileExceeded measures history headed.length headed
    let candidate := (compactLatestRead measures fitted rounds prompt).1
    if contentShrank measures requests candidate then
      some ((compactHistory history).1, candidate)
    else
      none
  else
    none

end Compacting

end Llxprt.Agent
