import Llxprt.Agent.Loop

/-!
# What the agent decides

Between two store operations the agent only decides: it asks for a completion of
a list that has grown or was compacted, starts a round of tool calls, completes
the turn or lets it fail.
-/

namespace Llxprt.Agent

open Llxprt.Kernel Llxprt.Rust Llxprt.Gateway Llxprt.Log

/-- The reservation of a process, perhaps without the narration of its history. -/
def Cleared (reserved later : ReservedRequest Continuation) : Prop :=
  later = reserved ∨ later = { reserved with history := (compactHistory reserved.history).1 }

namespace Cleared

variable {reserved later : ReservedRequest Continuation}

theorem branchId (cleared : Cleared reserved later) : later.branchId = reserved.branchId := by
  rcases cleared with rfl | rfl <;> rfl

theorem owner (cleared : Cleared reserved later) : later.owner = reserved.owner := by
  rcases cleared with rfl | rfl <;> rfl

end Cleared

variable {τ : Type}

/-- How a request list grows between two completions; `current` is the reply that
is worked off. -/
inductive Grown (agent : CodingAgent τ) (current : Option LlmResult)
    (requests : List ModelRequest) : List ModelRequest → Prop where
  | refl : Grown agent current requests requests
  | prompt {later : List ModelRequest} (grown : Grown agent current requests later)
      (text : String) : Grown agent current requests (later ++ [userRequest text])
  | answered {later : List ModelRequest} {reply : LlmResult}
      (grown : Grown agent current requests later) (waiting : current = some reply)
      (silent : reply.calls = []) :
      Grown agent current requests (later ++ [assistantRequest agent.compactJson reply])
  | compacted {later reduced : List ModelRequest}
      {history cleared : List (HistoryTurn Continuation)} {prompt : String}
      {rounds : List LiveRound} (grown : Grown agent current requests later)
      (fits : compactProviderContext agent.measures history prompt later rounds =
        some (cleared, reduced)) : Grown agent current requests reduced

/-- An attempt that asks again: only its list and its rounds have grown. -/
structure Derived (agent : CodingAgent τ) (attempt next : AttemptState) : Prop where
  grown : Grown agent attempt.current attempt.requests next.requests
  usage : next.usage = attempt.usage
  rounds : next.rounds = attempt.rounds ∨ ∃ reply, attempt.current = some reply ∧
    reply.calls = [] ∧ next.rounds =
      attempt.rounds ++ [⟨reply.thinking, reply.continuation, reply.text, []⟩]

theorem Derived.refl (agent : CodingAgent τ) (attempt : AttemptState) :
    Derived agent attempt attempt :=
  ⟨.refl, rfl, .inl rfl⟩

/-- A round of tool calls at its start. -/
def Work.opened (agent : CodingAgent τ) (identity : String) (attempt : AttemptState)
    (reply : LlmResult) (ids : BTreeSet String) : Work where
  identity := identity
  reply := reply
  base := attempt.requests
  attempt := { attempt with
    requests := attempt.requests ++ [assistantRequest agent.compactJson reply]
    current := none
    ids := ids
    budgetExhausted := attempt.budgetExhausted ||
      (splitOverBudget agent.maxToolCalls attempt.usage reply.calls).2 ≠ [] }
  round := ⟨reply.thinking, reply.continuation, reply.text, []⟩
  total := (splitOverBudget agent.maxToolCalls attempt.usage reply.calls).1.length
  skipped := (splitOverBudget agent.maxToolCalls attempt.usage reply.calls).2

/-- What the agent may do with an attempt that has no calls to work off. -/
inductive Settle (agent : CodingAgent τ) (reserved : ReservedRequest Continuation)
    (attempt : AttemptState) : Process → Prop where
  | failing {later : ReservedRequest Continuation} (cleared : Cleared reserved later)
      (error : String) (rounds : List LiveRound) :
      Settle agent reserved attempt ⟨later, .failing error rounds⟩
  | ended : Settle agent reserved attempt ⟨reserved, .ended⟩
  | asking {later : ReservedRequest Continuation} {next : AttemptState}
      (cleared : Cleared reserved later) (asking : Asking) (derived : Derived agent attempt next) :
      Settle agent reserved attempt ⟨later, .preparing asking next⟩
  | completing {next : AttemptState} (summary : String)
      (calls : next.usage.totalCalls = attempt.usage.totalCalls)
      (rounds : next.rounds = attempt.rounds)
      (silent : ∀ reply, next.current = some reply →
        attempt.current = some reply ∧ reply.calls = []) :
      Settle agent reserved attempt ⟨reserved, .completing next summary⟩

/-- What the agent may do with an attempt: a reply with calls starts a round. -/
inductive Follow (agent : CodingAgent τ) (reserved : ReservedRequest Continuation)
    (identity : String) (attempt : AttemptState) : Process → Prop where
  | settled {next : Process} (settle : Settle agent reserved attempt next) :
      Follow agent reserved identity attempt next
  | round {reply : LlmResult} {ids : BTreeSet String} (waiting : attempt.current = some reply)
      (valid : validateCalls agent.checks.argsObject attempt.ids reply = .ok ids) :
      Follow agent reserved identity attempt
        ⟨reserved, .executing (.opened agent identity attempt reply ids)
          (splitOverBudget agent.maxToolCalls attempt.usage reply.calls).1⟩

section Deciding

variable {agent : CodingAgent τ} {reserved : ReservedRequest Continuation}
  {identity : String} {attempt next : AttemptState}

theorem compactProviderContext_cleared {measures : Measures}
    {history cleared : List (HistoryTurn Continuation)} {prompt : String}
    {requests reduced : List ModelRequest} {rounds : List LiveRound}
    (compacted : compactProviderContext measures history prompt requests rounds =
      some (cleared, reduced)) : cleared = (compactHistory history).1 := by
  simp only [compactProviderContext] at compacted
  generalize (if (elideOnce measures history
      (compactContent history prompt requests rounds)).2 = true then _ else _) = chosen at compacted
  split at compacted
  · split at compacted
    · cases compacted
      rfl
    · cases compacted
  · cases compacted

theorem recoverBudget_eq_some {later : ReservedRequest Continuation}
    (fitted : recoverBudget agent reserved attempt = some (later, next)) :
    Cleared reserved later ∧ ∃ requests, next = { attempt with requests := requests } ∧
      ∀ current base, Grown agent current base attempt.requests →
        Grown agent current base requests := by
  unfold recoverBudget at fitted
  split at fitted
  · split at fitted
    · cases fitted
    · rename_i history requests compacted
      split at fitted
      · cases fitted
      · cases fitted
        obtain rfl := compactProviderContext_cleared compacted
        exact ⟨.inr rfl, requests, rfl, fun _ _ grown => .compacted grown compacted⟩
  · cases fitted
    exact ⟨.inl rfl, _, rfl, fun _ _ grown => grown⟩

theorem settle_ask (derived : Derived agent attempt next) (purpose : Purpose) :
    Settle agent reserved attempt (ask agent reserved purpose next) := by
  unfold ask
  split
  · exact .failing (.inl rfl) _ _
  · rename_i later fitting fitted
    rcases recoverBudget_eq_some fitted with ⟨cleared, requests, rfl, grows⟩
    exact .asking cleared _ ⟨grows _ _ derived.grown, derived.usage, derived.rounds⟩

theorem settle_forcedSummary (derived : Derived agent attempt next) :
    Settle agent reserved attempt (forcedSummary agent reserved next) := by
  unfold forcedSummary
  split
  · have prompted : Derived agent attempt
        { next with requests := next.requests ++ [finalSummaryRequest] } :=
      ⟨.prompt derived.grown _, derived.usage, derived.rounds⟩
    exact settle_ask prompted .summary
  · exact .failing (.inl rfl) _ _

theorem settle_resolveSummary (silent : ∀ reply, attempt.current = some reply → reply.calls = []) :
    Settle agent reserved attempt (resolveSummary agent reserved attempt) := by
  unfold resolveSummary
  split
  · exact settle_forcedSummary (.refl agent attempt)
  · rename_i current waiting
    have quiet := silent current waiting
    split
    · apply settle_forcedSummary
      constructor
      · exact .answered .refl waiting quiet
      · rfl
      · simp only
        split
        · exact .inr ⟨current, waiting, quiet, rfl⟩
        · exact .inl rfl
    · split
      · exact .failing (.inl rfl) _ _
      · split
        · exact .failing (.inl rfl) _ _
        · exact .completing _ rfl rfl fun reply here => ⟨here, silent reply here⟩

theorem follow_startRound {reply : LlmResult} (waiting : attempt.current = some reply) :
    Follow agent reserved identity attempt (startRound agent reserved identity attempt reply) := by
  unfold startRound
  split
  · exact .settled (.failing (.inl rfl) _ _)
  · split
    · exact .settled (.failing (.inl rfl) _ _)
    · rename_i ids valid
      exact .round waiting valid

theorem follow_workOff :
    Follow agent reserved identity attempt (workOff agent reserved identity attempt) := by
  unfold workOff
  split
  · rename_i named reply _ waiting
    split
    · exact follow_startRound waiting
    · exact .settled (.failing (.inl rfl) _ _)
  · rename_i reply _ waiting
    split
    · rename_i none
      apply Follow.settled
      apply settle_resolveSummary
      intro other same
      rw [waiting, Option.some.injEq] at same
      exact same ▸ none
    · exact follow_startRound waiting
  · rename_i none
    apply Follow.settled
    apply settle_resolveSummary
    intro other same
    rw [none] at same
    cases same

/-- A reply without calls starts no round. -/
theorem settle_workOff (silent : ∀ reply, attempt.current = some reply → reply.calls = []) :
    Settle agent reserved attempt (workOff agent reserved identity attempt) := by
  unfold workOff
  split
  · rename_i named reply _ waiting
    have refused : isMissionReply agent named reply = false := by
      rw [isMissionReply, silent reply waiting]
    rw [refused, if_neg Bool.false_ne_true]
    exact .failing (.inl rfl) _ _
  · rename_i reply _ waiting
    rw [if_pos (silent reply waiting)]
    exact settle_resolveSummary silent
  · exact settle_resolveSummary silent

theorem settle_endMission (none : attempt.current = none) :
    Settle agent reserved attempt (endMission agent reserved attempt) := by
  unfold endMission
  split
  · exact .ended
  · rename_i call _
    simp only
    generalize (if isBlankText call.resultLive = true then _ else _) = summary
    split
    · exact .failing (.inl rfl) _ _
    · split
      · exact .failing (.inl rfl) _ _
      · refine .completing summary rfl rfl ?_
        intro reply here
        rw [none] at here
        cases here

theorem settle_afterRound {work : Work} (none : work.attempt.current = none) :
    Settle agent reserved work.attempt (afterRound agent reserved work) := by
  unfold afterRound
  split
  · exact settle_endMission none
  · split
    · exact settle_ask (.refl agent work.attempt) .next
    · apply settle_resolveSummary
      intro reply here
      rw [none] at here
      cases here

theorem follow_afterReply {asking : Asking} {reply : LlmResult} :
    Follow agent reserved identity (attempt.receive agent reply)
      (afterReply agent reserved asking attempt identity reply) := by
  have worked : ∀ rounds, Follow agent reserved identity (attempt.receive agent reply)
      (if withinTurnCaps agent (attempt.receive agent reply).usage = true then
        workOff agent reserved identity (attempt.receive agent reply)
      else ⟨reserved, .failing "turn-budget" rounds⟩) := by
    intro rounds
    split
    · exact follow_workOff
    · exact .settled (.failing (.inl rfl) _ _)
  unfold afterReply
  split
  · exact worked _
  · exact worked _
  · apply Follow.settled
    simp only
    split
    · exact .failing (.inl rfl) _ _
    · rename_i quiet
      split
      · exact .failing (.inl rfl) _ _
      · split
        · exact .failing (.inl rfl) _ _
        · refine .completing _ rfl rfl ?_
          intro other same
          refine ⟨same, ?_⟩
          rw [← Option.some.inj same]
          exact Decidable.not_not.mp quiet

theorem settle_onContextLimit {asking : Asking} :
    Settle agent reserved attempt (onContextLimit agent reserved asking attempt) := by
  unfold onContextLimit
  split
  · exact .failing (.inl rfl) _ _
  · split
    · exact .failing (.inl rfl) _ _
    · rename_i history requests compacted
      obtain rfl := compactProviderContext_cleared compacted
      split
      · exact .failing (.inr rfl) _ _
      · exact .asking (.inr rfl) _ ⟨.compacted .refl compacted, rfl, .inl rfl⟩

theorem settle_onRefusal {asking : Asking} :
    Settle agent reserved attempt (onRefusal agent reserved asking attempt) := by
  unfold onRefusal
  simp only
  split
  · exact .failing (.inl rfl) _ _
  · exact .asking (.inl rfl) _ ⟨.prompt .refl _, rfl, .inl rfl⟩

theorem settle_onTruncation {asking : Asking} :
    Settle agent reserved attempt (onTruncation agent reserved asking attempt) := by
  unfold onTruncation
  simp only
  split
  · exact .failing (.inl rfl) _ _
  · exact .asking (.inl rfl) _ ⟨.prompt .refl _, rfl, .inl rfl⟩

/-- Only a reply without calls is left to be worked off. -/
theorem restoreResponses_silent {rounds restored : List (RoundRecord Continuation)}
    {final last : Option LlmResult} {replies : List Bytes}
    (silent : ∀ reply, final = some reply → reply.calls = [])
    (restores : restoreResponses agent rounds final replies = some (restored, last)) :
    ∀ reply, last = some reply → reply.calls = [] := by
  induction replies generalizing rounds final with
  | nil =>
      cases restores
      exact silent
  | cons bytes replies ih =>
      simp only [restoreResponses] at restores
      split at restores
      · cases restores
      · rename_i reply _
        split at restores
        · rename_i quiet
          refine ih ?_ restores
          intro other same
          exact Option.some.inj same ▸ quiet
        · refine ih ?_ restores
          intro other same
          cases same

/-- A fresh process starts an attempt, or continues the one that its replies and
rounds restore to. -/
theorem resume_cases (requests : List ModelRequest) (recovery : Recovery Continuation) :
    (recovery.rounds = [] ∧ recovery.replies = [] ∧
      Settle agent reserved (freshAttempt requests) (resume agent reserved requests recovery)) ∨
    (∃ rounds final, restoreResponses agent recovery.rounds none recovery.replies =
        some (rounds, final) ∧
      Settle agent reserved (recoveredAttempt agent requests rounds final)
        (resume agent reserved requests recovery)) ∨
    resume agent reserved requests recovery = ⟨reserved, .ended⟩ := by
  unfold resume
  split
  · rename_i nothing
    left
    refine ⟨nothing.1, nothing.2, ?_⟩
    split
    · exact .failing (.inl rfl) _ _
    · exact .asking (.inl rfl) _ (.refl agent _)
  · right
    split
    · exact .inr rfl
    · rename_i rounds final restored
      have silent := restoreResponses_silent (fun _ none => by cases none) restored
      exact .inl ⟨rounds, some final, restored, settle_workOff silent⟩
    · rename_i rounds restored
      exact .inl ⟨rounds, none, restored, settle_ask (.refl agent _) .next⟩

/-- The first list of a turn is the one at hand or a compacted one. -/
theorem preflightRequests_cases (requests : List ModelRequest) :
    ∃ later, Cleared reserved later ∧
      ((∃ error rounds, preflightRequests agent reserved requests =
        ⟨later, .failing error rounds⟩) ∨
      ∃ fitting, Grown agent none requests fitting ∧
        preflightRequests agent reserved requests = ⟨later, .recovering fitting⟩) := by
  simp only [preflightRequests]
  have start : Grown agent none requests
      (if agent.checkpointRequested = true then
        ((compactProviderContext agent.measures reserved.history reserved.prompt requests []).map
          Prod.snd).getD requests
      else requests) := by
    split
    · cases compacted : compactProviderContext agent.measures reserved.history reserved.prompt
          requests [] with
      | none => exact .refl
      | some pair => exact .compacted .refl compacted
    · exact .refl
  split
  · exact ⟨reserved, .inl rfl, .inl ⟨_, _, rfl⟩⟩
  · rename_i later fitting fitted
    rcases recoverBudget_eq_some fitted with ⟨cleared, list, rfl, grows⟩
    exact ⟨later, cleared, .inr ⟨list, grows _ _ start, rfl⟩⟩

end Deciding

end Llxprt.Agent
