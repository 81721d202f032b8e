import Llxprt.Agent.Attempt
import Llxprt.Agent.Serde
import Llxprt.Log.Transcript

/-!
# The agent loop

Any number of processes drive turns of one session.  A process is at a phase of
the loop and goes on by one store operation at a time; it crashes by not going on
any more.  What providers, tools, clocks and the limits outside the model answer
comes with each step, and a lease may be renewed at any time.
-/

namespace Llxprt.Agent

open Llxprt.Kernel Llxprt.Rust Llxprt.Gateway Llxprt.Log

/-- What a provider makes of a send. -/
inductive Answer where
  | response (response : ModelResponse)
  | interrupted
  | contextLimit
  | failed (message : String)

/-- What the outside contributes to one step; `halted` stands for every limit and
every sink outside the model that stops a turn. -/
structure Outside where
  now : UInt64
  halted : Bool
  requestHash : String
  contractHash : String
  contextVersion : UInt64
  answer : Answer
  outcome : Bool × String
  ingest : String → String → Option Projection

/-- Which completion of a turn is asked for. -/
inductive Purpose where
  | opening (nudged : Bool)
  | next
  | summary
  deriving DecidableEq

/-- A completion with the recoveries it has used up. -/
structure Asking where
  purpose : Purpose
  corrected : Bool
  compacted : Bool
  retry : Nat

/-- A round of tool calls: the provider turn and the reply it is for, the requests
before it, and what was recorded so far. -/
structure Work where
  identity : String
  reply : LlmResult
  base : List ModelRequest
  attempt : AttemptState
  round : LiveRound
  total : Nat
  skipped : List ToolCall

inductive Phase where
  | preflight
  | recovering (requests : List ModelRequest)
  | preparing (asking : Asking) (attempt : AttemptState)
  | requesting (asking : Asking) (attempt : AttemptState)
  | sending (asking : Asking) (attempt : AttemptState) (intent : SendIntent)
  | staging (asking : Asking) (attempt : AttemptState) (intent : SendIntent) (reply : LlmResult)
  | admitting (asking : Asking) (attempt : AttemptState) (intent : SendIntent) (reply : LlmResult)
  | executing (work : Work) (waiting : List ToolCall)
  | dispatching (work : Work) (call : ToolCall) (waiting : List ToolCall)
  | returned (work : Work) (call : ToolCall) (waiting : List ToolCall) (outcome : Bool × String)
  | refusing (work : Work) (refused : List LiveCall)
  | checkpointing (work : Work)
  | completing (attempt : AttemptState) (summary : String)
  | failing (error : String) (rounds : List LiveRound)
  | ended

structure Process where
  reserved : ReservedRequest Continuation
  phase : Phase

/-- A tool call that was handed to its executor. -/
structure Dispatch where
  branchId : String
  identity : String
  call : ToolCall

/-- The session store, the request prefixes of the branches, the processes and
the calls they have dispatched. -/
structure World (τ : Type) where
  state : SessionState τ Continuation
  prefixes : BTreeMap String (List ModelRequest)
  epochStarted : Bool
  processes : List Process
  dispatched : List Dispatch

section Texts

def finalSummaryRequest : ModelRequest :=
  userRequest "Provide your final plain-text summary now (no tool calls)."

def nudgeRequest : ModelRequest :=
  userRequest ("Your previous reply hit the maxOutputTokens cap and was discarded. " ++
    "Reply again, much shorter: no preamble and no restating of the plan; " ++
    "call a tool, or give the final summary.")

def correctionRequest : ModelRequest :=
  userRequest ("Your previous tool-call reply was refused: a function name was invalid or exceeded "
    ++ "the 64-byte cap. None of that reply's tools ran. Use only the exact registered "
    ++ "tool names, or provide your final plain-text summary.")

end Texts

section Deciding

variable {τ : Type} (agent : CodingAgent τ)

/-- The list and the history after one recovery, where the list does not fit. -/
def recoverBudget (reserved : ReservedRequest Continuation) (attempt : AttemptState) :
    Option (ReservedRequest Continuation × AttemptState) :=
  if agent.measures.roundBudgetExceeded attempt.requests then
    match compactProviderContext agent.measures reserved.history reserved.prompt attempt.requests
        attempt.rounds with
    | none => none
    | some (history, requests) =>
        if agent.measures.roundBudgetExceeded requests then
          none
        else
          some ({ reserved with history := history }, { attempt with requests := requests })
  else
    some (reserved, attempt)

def overBudget : String := "estimated context exceeds the budget"

/-- Ask for a completion once its list fits. -/
def ask (reserved : ReservedRequest Continuation) (purpose : Purpose) (attempt : AttemptState) :
    Process :=
  match recoverBudget agent reserved attempt with
  | none => ⟨reserved, .failing overBudget attempt.rounds⟩
  | some (reserved, fitting) => ⟨reserved, .preparing ⟨purpose, false, false, 0⟩ fitting⟩

def forcedSummary (reserved : ReservedRequest Continuation) (attempt : AttemptState) : Process :=
  if withinTurnCaps agent attempt.usage then
    ask agent reserved .summary
      { attempt with requests := attempt.requests ++ [finalSummaryRequest] }
  else
    ⟨reserved, .failing "turn-budget" attempt.rounds⟩

/-- The reply of an attempt that has no more calls becomes its summary; an empty
one joins the list and a summary is asked for. -/
def resolveSummary (reserved : ReservedRequest Continuation) (attempt : AttemptState) : Process :=
  match attempt.current with
  | none => forcedSummary agent reserved attempt
  | some current =>
      if isBlankText current.text then
        forcedSummary agent reserved { attempt with
          current := none
          requests := attempt.requests ++ [assistantRequest agent.compactJson current]
          rounds :=
            if current.continuation.isSome || !current.thinking.isEmpty then
              attempt.rounds ++ [⟨current.thinking, current.continuation, current.text, []⟩]
            else
              attempt.rounds }
      else if withinRoundLimit agent attempt.rounds = false then
        ⟨reserved, .failing "turn-budget" attempt.rounds⟩
      else if agent.looksLikeCall current.text then
        ⟨reserved, .failing "malformed_tool_call" attempt.rounds⟩
      else
        ⟨reserved, .completing attempt current.text⟩

/-- The start of a round of tool calls: identifiers are checked against the
attempt, and the budget splits the calls. -/
def startRound (reserved : ReservedRequest Continuation) (identity : String)
    (attempt : AttemptState) (reply : LlmResult) : Process :=
  if withinRoundLimit agent attempt.rounds = false then
    ⟨reserved, .failing "turn-budget" attempt.rounds⟩
  else
    match validateCalls agent.checks.argsObject attempt.ids reply with
    | .error message => ⟨reserved, .failing message attempt.rounds⟩
    | .ok ids =>
        let (fit, skipped) := splitOverBudget agent.maxToolCalls attempt.usage reply.calls
        ⟨reserved, .executing
          { identity := identity
            reply := reply
            base := attempt.requests
            attempt := { attempt with
              requests := attempt.requests ++ [assistantRequest agent.compactJson reply]
              current := none
              ids := ids
              budgetExhausted := attempt.budgetExhausted || skipped ≠ [] }
            round := ⟨reply.thinking, reply.continuation, reply.text, []⟩
            total := fit.length
            skipped := skipped } fit⟩

/-- Whether a reply is the named command of a mission and nothing else. -/
def isMissionReply (named : String) (reply : LlmResult) : Bool :=
  match reply.calls with
  | [call] => call.name = "run_shell_command" && agent.checks.argsObject call.argsJson &&
      agent.shellCommand call.argsJson = some named
  | _ => false

/-- What the prompt of a reservation commands. -/
def missionOf (reserved : ReservedRequest Continuation) : Option String :=
  match command reserved.prompt with
  | .ok mission => mission
  | .error _ => none

/-- Work off the reply of an attempt. -/
def workOff (reserved : ReservedRequest Continuation) (identity : String) (attempt : AttemptState) :
    Process :=
  match missionOf reserved, attempt.current with
  | some named, some reply =>
      if isMissionReply agent named reply then
        startRound agent reserved identity attempt reply
      else
        ⟨reserved, .failing "one-command-refused" []⟩
  | none, some reply =>
      if reply.calls = [] then
        resolveSummary agent reserved attempt
      else
        startRound agent reserved identity attempt reply
  | _, none => resolveSummary agent reserved attempt

/-- The end of a mission: the result of its one call is the summary. -/
def endMission (reserved : ReservedRequest Continuation) (attempt : AttemptState) : Process :=
  match attempt.rounds.head?.bind fun round => round.calls.head? with
  | none => ⟨reserved, .ended⟩
  | some call =>
      let summary :=
        if isBlankText call.resultLive then
          "Named shell command completed successfully (no output)."
        else
          call.resultLive
      let usage := { attempt.usage with
        assistantBytes := saturatingAdd attempt.usage.assistantBytes summary.utf8ByteSize }
      if call.record.ok = false then
        ⟨reserved, .failing call.resultLive attempt.rounds⟩
      else if withinTurnCaps agent usage = false ∨ withinRoundLimit agent attempt.rounds = false then
        ⟨reserved, .failing "turn-budget" attempt.rounds⟩
      else
        ⟨reserved, .completing { attempt with usage := usage } summary⟩

/-- What follows a round: the end of a mission, the summary when calls were
refused, else the next completion. -/
def afterRound (reserved : ReservedRequest Continuation) (work : Work) : Process :=
  match missionOf reserved with
  | some _ => endMission agent reserved work.attempt
  | none =>
      if work.skipped = [] then
        ask agent reserved .next work.attempt
      else
        resolveSummary agent reserved work.attempt

/-- A turn that dies in a round publishes the calls that were executed. -/
def Work.publishedRounds (work : Work) : List LiveRound :=
  if work.round.calls ≠ [] || work.round.continuation.isSome || !work.round.thinking.isEmpty then
    work.attempt.rounds ++ [work.round]
  else
    work.attempt.rounds

/-- The notice that rides on the last result of a round. -/
def Work.notice (work : Work) (waiting : List ToolCall) : String :=
  if waiting = [] then budgetNotice agent.maxToolCalls (work.attempt.usage.totalCalls + 1) else ""

/-- The text of a result: bounded by what is left of the output, with the notice. -/
def Work.resultText (work : Work) (waiting : List ToolCall) (raw : String) : String :=
  let left := agent.turnOutput - work.attempt.usage.outputBytes
  let notice := work.notice agent waiting
  if notice.isEmpty then
    agent.boundText left raw
  else
    agent.boundText (left - saturatingAdd notice.utf8ByteSize 2) raw ++ "\n\n" ++ notice

/-- The round with the result of a call. -/
def Work.record (work : Work) (call : ToolCall) (ok : Bool) (projection : Projection) : Work :=
  { work with
    attempt := { work.attempt with
      requests := work.attempt.requests ++
        [toolReturnRequest call.name call.id ok projection.live]
      usage := { work.attempt.usage with
        totalCalls := work.attempt.usage.totalCalls + 1
        outputBytes :=
          saturatingAdd work.attempt.usage.outputBytes projection.live.utf8ByteSize } }
    round := { work.round with
      calls := work.round.calls ++ [toolCallRecord call ok projection.persisted projection.live] } }

/-- The round with its refusals, joined to the rounds of the attempt. -/
def Work.close (work : Work) : Work :=
  let refused := refuseOverBudget agent.maxToolCalls work.attempt.usage.totalCalls work.skipped
  let round := { work.round with calls := work.round.calls ++ refused.1 }
  { work with
    round := round
    attempt := { work.attempt with
      requests := work.attempt.requests ++ refused.2
      rounds := work.attempt.rounds ++ [round] } }

/-- What follows an admitted reply. -/
def afterReply (reserved : ReservedRequest Continuation) (asking : Asking) (attempt : AttemptState)
    (identity : String) (reply : LlmResult) : Process :=
  match asking.purpose with
  | .opening _ | .next =>
      let received := attempt.receive agent reply
      if withinTurnCaps agent received.usage then
        workOff agent reserved identity received
      else
        ⟨reserved, .failing "turn-budget" attempt.rounds⟩
  | .summary =>
      let received := attempt.receive agent reply
      if reply.calls ≠ [] then
        ⟨reserved, .failing "final summary round asked for tools again; giving up" attempt.rounds⟩
      else if isBlankText reply.text then
        ⟨reserved, .failing "no summary text from the model" attempt.rounds⟩
      else if agent.looksLikeCall reply.text ∨ withinTurnCaps agent received.usage = false ∨
          withinRoundLimit agent attempt.rounds = false then
        ⟨reserved, .failing "malformed_tool_call" attempt.rounds⟩
      else
        ⟨reserved, .completing received reply.text⟩

/-- A provider that refuses the size of a list gets a smaller one, once. -/
def onContextLimit (reserved : ReservedRequest Continuation) (asking : Asking)
    (attempt : AttemptState) : Process :=
  if asking.compacted then
    ⟨reserved, .failing "context-limit" attempt.rounds⟩
  else
    match compactProviderContext agent.measures reserved.history reserved.prompt attempt.requests
        attempt.rounds with
    | none => ⟨reserved, .failing "context-limit" attempt.rounds⟩
    | some (history, requests) =>
        if agent.measures.roundBudgetExceeded requests then
          ⟨{ reserved with history := history }, .failing overBudget attempt.rounds⟩
        else
          ⟨{ reserved with history := history },
            .preparing ⟨asking.purpose, false, true, 0⟩ { attempt with requests := requests }⟩

/-- A refused name is corrected once. -/
def onRefusal (reserved : ReservedRequest Continuation) (asking : Asking) (attempt : AttemptState) :
    Process :=
  let correction := attempt.requests ++ [correctionRequest]
  if asking.corrected ∨ agent.measures.roundBudgetExceeded correction = true then
    ⟨reserved, .failing "malformed_tool_call" attempt.rounds⟩
  else
    ⟨reserved, .preparing { asking with corrected := true, retry := 0 }
      { attempt with requests := correction }⟩

/-- The first completion of a turn is asked for again, once, when it was cut. -/
def onTruncation (reserved : ReservedRequest Continuation) (asking : Asking)
    (attempt : AttemptState) : Process :=
  let nudged := attempt.requests ++ [nudgeRequest]
  if asking.purpose ≠ .opening false ∨ agent.measures.roundBudgetExceeded nudged = true then
    ⟨reserved, .failing "finish-reason" attempt.rounds⟩
  else
    ⟨reserved, .preparing ⟨.opening true, false, true, 0⟩ { attempt with requests := nudged }⟩

def maxRetries : Nat := 3

/-- An interrupted transport is reissued a few times. -/
def onInterruption (reserved : ReservedRequest Continuation) (asking : Asking)
    (attempt : AttemptState) : Process :=
  if asking.retry < maxRetries then
    ⟨reserved, .requesting { asking with retry := asking.retry + 1 } attempt⟩
  else
    ⟨reserved, .failing "model" attempt.rounds⟩

/-- The attempt of a fresh process. -/
def resume (reserved : ReservedRequest Continuation) (requests : List ModelRequest)
    (recovery : Recovery Continuation) : Process :=
  if recovery.rounds = [] ∧ recovery.replies = [] then
    if agent.measures.roundBudgetExceeded requests then
      ⟨reserved, .failing overBudget []⟩
    else
      ⟨reserved, .preparing ⟨.opening false, false, false, 0⟩ (freshAttempt requests)⟩
  else
    match restoreResponses agent recovery.rounds none recovery.replies with
    | none => ⟨reserved, .ended⟩
    | some (rounds, some final) =>
        workOff agent reserved "" (recoveredAttempt agent requests rounds (some final))
    | some (rounds, none) =>
        ask agent reserved .next (recoveredAttempt agent requests rounds none)

/-- The first list of a turn, reduced when a checkpoint was asked for or when it
does not fit. -/
def preflightRequests (reserved : ReservedRequest Continuation) (requests : List ModelRequest) :
    Process :=
  let compact := compactProviderContext agent.measures reserved.history reserved.prompt
  let requests :=
    if agent.checkpointRequested then ((compact requests []).map Prod.snd).getD requests
    else requests
  match recoverBudget agent reserved (freshAttempt requests) with
  | none => ⟨reserved, .failing overBudget []⟩
  | some (reserved, fitting) => ⟨reserved, .recovering fitting.requests⟩

/-- A mission needs the shell and a budget. -/
def missionRefused (reserved : ReservedRequest Continuation) : Bool :=
  match command reserved.prompt with
  | .error _ => true
  | .ok none => false
  | .ok (some _) => !agent.allowShell || agent.maxToolCalls = some 0

end Deciding

namespace World

variable {τ : Type} (agent : CodingAgent τ) (world : World τ)

def empty (sessionId : String) : World τ where
  state := .empty sessionId
  prefixes := ∅
  epochStarted := false
  processes := []
  dispatched := []

/-- The list that a turn starts from: the prefix of the turn before it with its
last response, or the materialized history. -/
def resumeRequestPrefix (reserved : ReservedRequest Continuation) :
    Option (List ModelRequest × World τ) :=
  match reserved.history.getLast? with
  | none => some (materializeRequests agent reserved, world)
  | some parent =>
      match world.prefixes[parent.branchId]? with
      | some requests => some (requests ++ prefixTail agent reserved,
          { world with prefixes := world.prefixes.insert reserved.branchId requests })
      | none =>
          if world.epochStarted then none else some (materializeRequests agent reserved, world)

/-- The send intent of a list; the store fills in the rest. -/
def sendIntent (outside : Outside) (reserved : ReservedRequest Continuation) : SendIntent where
  identity := ""
  branch := reserved.branchId
  owner := reserved.owner
  epoch := 0
  contextVersion := outside.contextVersion
  requestHash := outside.requestHash
  contractHash := outside.contractHash
  providerClass := agent.providerClass
  kind := .conversation
  allowance := UInt64.ofNat ((maxTurnAssistantBytes + maxTurnArgsBytes) * 6)

variable [Recorded τ] (outside : Outside) (reserved : ReservedRequest Continuation)

/-- A command of the gateway, then the next phase; a refused command fails the
turn. -/
def commanded (rounds : List LiveRound) (command : Gateway.Command) (next : Process) :
    World τ × Process :=
  match providerCommand agent.checks world.state reserved command outside.now with
  | .error error => (world, ⟨reserved, .failing error.text rounds⟩)
  | .ok later => ({ world with state := later }, next)

/-- The gateway is handed the list: it must be legal before the intent is
recorded. -/
def gatewayRound (asking : Asking) (attempt : AttemptState) : World τ × Process :=
  if outside.halted then
    (world, ⟨reserved, .failing "halted" attempt.rounds⟩)
  else if agent.measures.roundBudgetExceeded attempt.requests = true ∧
      (partsOf attempt.requests).any (fun
        | .toolReturn _ => true
        | _ => false) = true then
    (world, onContextLimit agent reserved asking attempt)
  else
    match legalRequests (quoteRequests attempt.requests) with
    | .error error => (world, ⟨reserved, .failing error.text attempt.rounds⟩)
    | .ok () =>
        match providerIntent agent.checks agent.sessionId world.state reserved
            (sendIntent agent outside reserved) outside.now with
        | .error error => (world, ⟨reserved, .failing error.text attempt.rounds⟩)
        | .ok (intent, later) =>
            ({ world with state := later }, ⟨reserved, .sending asking attempt intent⟩)

/-- The send and what its answer leads to; an answer that is not used rejects the
intent. -/
def sendRound (asking : Asking) (attempt : AttemptState) (intent : SendIntent) :
    World τ × Process :=
  match admitSend world.state reserved intent outside.now with
  | .error error => (world, ⟨reserved, .failing error.text attempt.rounds⟩)
  | .ok _ =>
      let rejected := commanded agent world outside reserved attempt.rounds
        (.reject intent.identity)
      match outside.answer with
      | .interrupted => rejected (onInterruption reserved asking attempt)
      | .contextLimit => rejected (onContextLimit agent reserved asking attempt)
      | .failed message => rejected ⟨reserved, .failing message attempt.rounds⟩
      | .response response =>
          let reply := LlmResult.fromResponse agent.scrub agent.binding response
          match validateReply agent reply with
          | .error .toolCallRefusal => rejected (onRefusal agent reserved asking attempt)
          | .error _ => rejected ⟨reserved, .failing "model" attempt.rounds⟩
          | .ok () =>
              if isOutputTruncation reply then
                rejected (onTruncation agent reserved asking attempt)
              else
                match structuralCheck agent reply with
                | .error _ => (world, ⟨reserved, .failing "reply" attempt.rounds⟩)
                | .ok () => (world, ⟨reserved, .staging asking attempt intent reply⟩)

/-- Before a call runs its lease is renewed and its evidence is marked. -/
def admitCall (work : Work) (call : ToolCall) (waiting : List ToolCall) : World τ × Process :=
  match renewLease agent.checks world.state reserved outside.now with
  | .error error => (world, ⟨reserved, .failing error.text work.publishedRounds⟩)
  | .ok later =>
      if agent.turnOutput ≤ work.attempt.usage.outputBytes ∨
          agent.checks.argsObject call.argsJson = false ∨ outside.halted = true then
        ({ world with state := later }, ⟨reserved, .failing "tool call" work.publishedRounds⟩)
      else
        ({ world with state := later }, ⟨reserved, .dispatching work call waiting⟩)

/-- The call runs when its tool is known. -/
def dispatchCall (work : Work) (call : ToolCall) (waiting : List ToolCall) : World τ × Process :=
  if knownTool call.name agent.allowShell then
    ({ world with dispatched := ⟨reserved.branchId, work.identity, call⟩ :: world.dispatched },
      ⟨reserved, .returned work call waiting outside.outcome⟩)
  else
    (world, ⟨reserved, .returned work call waiting (false, agent.namingFailure call.name)⟩)

/-- The result enters the round, the lease is checked again, and the completion
is recorded. -/
def recordCall (work : Work) (call : ToolCall) (waiting : List ToolCall) (ok : Bool)
    (raw : String) : World τ × Process :=
  match compactToolResult outside.ingest call.name (work.resultText agent waiting raw) with
  | none => (world, ⟨reserved, .failing "tool call" work.publishedRounds⟩)
  | some projection =>
      let recorded := work.record call ok projection
      match renewLease agent.checks world.state reserved outside.now with
      | .error error => (world, ⟨reserved, .failing error.text recorded.publishedRounds⟩)
      | .ok later =>
          match completeProviderTool agent.checks later reserved outside.now
              (toolCallRecord call ok projection.persisted projection.live).record with
          | .error _ => ({ world with state := later }, ⟨reserved, .ended⟩)
          | .ok completed =>
              ({ world with state := completed },
                if outside.halted then ⟨reserved, .failing "transcript" recorded.publishedRounds⟩
                else ⟨reserved, .executing recorded waiting⟩)

/-- One refused call is completed in the log. -/
def refuseCall (work : Work) (call : LiveCall) (refused : List LiveCall) : World τ × Process :=
  match completeProviderTool agent.checks world.state reserved outside.now call.record with
  | .error _ => (world, ⟨reserved, .ended⟩)
  | .ok later =>
      ({ world with state := later },
        if outside.halted then ⟨reserved, .failing "transcript" work.attempt.rounds⟩
        else ⟨reserved, .refusing work refused⟩)

/-- The rounds of an attempt are persisted by an operation of the store. -/
def persisted (rounds : List LiveRound) (next : Process)
    (operation : List (RoundRecord Continuation) →
      Except StoreError (SessionState τ Continuation)) : World τ × Process :=
  match contextExchange outside.ingest rounds with
  | none => (world, ⟨reserved, .ended⟩)
  | some transcript =>
      match operation transcript with
      | .error _ => (world, ⟨reserved, .ended⟩)
      | .ok later => ({ world with state := later }, next)

/-- The final round of an attempt. -/
def finalRound (attempt : AttemptState) (summary : String) : LiveRound where
  thinking := (attempt.current.map LlmResult.thinking).getD ""
  continuation := attempt.current.bind LlmResult.continuation
  assistant := summary
  calls := []

/-- One step of a process. -/
def advance : Phase → World τ × Process
  | .preflight =>
      if missionRefused agent reserved then
        (world, ⟨reserved, .failing "one-command-refused" []⟩)
      else
        match world.resumeRequestPrefix agent reserved with
        | none => (world, ⟨reserved, .ended⟩)
        | some (requests, resumed) => (resumed, preflightRequests agent reserved requests)
  | .recovering requests =>
      match recoverProviderTurns agent.checks world.state reserved outside.now with
      | (.error error, later) => ({ world with state := later },
          ⟨reserved, .failing error.text (reserved.rounds.map liveRound)⟩)
      | (.ok recovery, later) =>
          ({ world with state := later }, resume agent reserved requests recovery)
  | .preparing asking attempt =>
      if outside.halted then
        (world, ⟨reserved, .failing "halted" attempt.rounds⟩)
      else
        ({ world with
          prefixes := world.prefixes.insert reserved.branchId attempt.requests
          epochStarted := true }, ⟨reserved, .requesting asking attempt⟩)
  | .requesting asking attempt => world.gatewayRound agent outside reserved asking attempt
  | .sending asking attempt intent => world.sendRound agent outside reserved asking attempt intent
  | .staging asking attempt intent reply =>
      world.commanded agent outside reserved attempt.rounds
        (.stage intent.identity (agent.codec.encode reply))
        ⟨reserved, .admitting asking attempt intent reply⟩
  | .admitting asking attempt intent reply =>
      world.commanded agent outside reserved attempt.rounds
        (.admitReply intent.identity (executionsOf reply))
        (if outside.halted then ⟨reserved, .failing "transcript" attempt.rounds⟩
        else afterReply agent reserved asking attempt intent.identity reply)
  | .executing work (call :: waiting) => world.admitCall agent outside reserved work call waiting
  | .executing work [] =>
      let closed := work.close agent
      (world, ⟨reserved, .refusing closed
        (refuseOverBudget agent.maxToolCalls work.attempt.usage.totalCalls work.skipped).1⟩)
  | .dispatching work call waiting => world.dispatchCall agent outside reserved work call waiting
  | .returned work call waiting (ok, raw) =>
      world.recordCall agent outside reserved work call waiting ok raw
  | .refusing work (call :: refused) => world.refuseCall agent outside reserved work call refused
  | .refusing work [] =>
      (world, if withinTurnCaps agent work.attempt.usage then ⟨reserved, .checkpointing work⟩
        else ⟨reserved, .failing "turn-budget" work.attempt.rounds⟩)
  | .checkpointing work =>
      world.persisted outside reserved work.attempt.rounds
        (if outside.halted then ⟨reserved, .failing "halted" work.attempt.rounds⟩
        else afterRound agent reserved work)
        (checkpointRounds agent.checks world.state reserved outside.now)
  | .completing attempt summary =>
      world.persisted outside reserved (attempt.rounds ++ [finalRound attempt summary])
        ⟨reserved, .ended⟩ (finalize agent.checks world.state reserved outside.now summary)
  | .failing error rounds =>
      world.persisted outside reserved rounds ⟨reserved, .ended⟩
        (failBranch agent.checks world.state reserved outside.now error)
  | .ended => (world, ⟨reserved, .ended⟩)

end World

/-- What can happen to a session. -/
inductive Action where
  | start (request : StartRequest) (owner : String) (now : UInt64)
  | renew (index : Nat) (now : UInt64)
  | advance (index : Nat) (outside : Outside)

/-- The token that a request draws. -/
def Action.drawn : Action → Option String
  | .start _ owner _ => some owner
  | _ => none

variable {τ : Type} [Recorded τ]

/-- The world after an action; a refused request and a stopped process leave it as
it was. -/
def World.step (agent : CodingAgent τ) (world : World τ) :
    Action → World τ
  | .start request owner now =>
      match startRequest agent.checks world.state request owner now with
      | .error _ => world
      | .ok (reserved, later) =>
          { world with
            state := later
            processes := world.processes ++
              [⟨reserved, if reserved.replay then .ended else .preflight⟩] }
  | .renew index now =>
      match world.processes[index]? with
      | none => world
      | some process =>
          match renewLease agent.checks world.state process.reserved now with
          | .error _ => world
          | .ok later => { world with state := later }
  | .advance index outside =>
      match world.processes[index]? with
      | none => world
      | some process =>
          let (later, next) := world.advance agent outside process.reserved process.phase
          { later with processes := later.processes.set index next }

end Llxprt.Agent
