import Llxprt.Agent.Turns

/-!
# What one step of a process does

Every step is a decision around at most one kind of store operation.  Most
operations only renew a lease or settle records; an intent, a staged and an
admitted reply, a checkpoint and the end of a turn are steps of their own.
-/

namespace Llxprt.Agent

open Llxprt.Kernel Llxprt.Kernel.Recorded Llxprt.Rust Llxprt.Gateway Llxprt.Log

section Operations

variable {τ κ : Type}

/-- The event renews a lease or settles records of the branch. -/
inductive IsQuiet (branchId owner : String) : Event τ κ → Prop where
  | renewed (leaseExpiry : UInt64) : IsQuiet branchId owner (.leaseRenewed branchId owner leaseExpiry)
  | rejected (identity : String) :
      IsQuiet branchId owner (.provider branchId owner (.reject identity))
  | completed (identity call : String) (ok : Bool) (result : String) :
      IsQuiet branchId owner (.provider branchId owner (.complete identity call ok result))
  | recovered : IsQuiet branchId owner (.provider branchId owner (.recover branchId))

theorem IsQuiet.acting {branchId owner : String} {event : Event τ κ}
    (quiet : IsQuiet branchId owner event) : event.acting = some (branchId, owner) := by
  cases quiet <;> rfl

/-- The state after quiet events of the owner. -/
inductive Quiet (checks : Checks τ κ) (branchId owner : String)
    (state : SessionState τ κ) : SessionState τ κ → Prop where
  | refl : Quiet checks branchId owner state state
  | event {middle later : SessionState τ κ}
      {event : Event τ κ} (before : Quiet checks branchId owner state middle)
      (quiet : IsQuiet branchId owner event) (applied : applyEvent checks middle event = .ok later)
      (valid : later.validate checks = .ok ()) : Quiet checks branchId owner state later

variable {checks : Checks τ κ} {state later : SessionState τ κ}
  {branchId owner : String} {reserved : ReservedRequest κ} {now : UInt64}

theorem Quiet.trans {last : SessionState τ κ} (first : Quiet checks branchId owner state later)
    (second : Quiet checks branchId owner later last) : Quiet checks branchId owner state last := by
  induction second with
  | refl => exact first
  | event _ quiet applied valid ih => exact .event ih quiet applied valid

theorem Quiet.framed (quiet : Quiet checks branchId owner state later)
    (validated : state.Validated) : Framed owner state later ∧ later.Validated := by
  induction quiet with
  | refl => exact ⟨.refl owner state, validated⟩
  | event before quiet applied valid ih =>
      exact ⟨ih.1.trans (framed_of_acting ih.2 applied quiet.acting), validated_of_validate valid⟩

theorem holds_of_live {branch : BranchRecord τ κ}
    (live : liveBranch state reserved now = .ok branch) :
    Holds state reserved.branchId reserved.owner := by
  rcases liveBranch_eq_ok live with ⟨present, held, _⟩
  exact ⟨branch, present, held⟩

variable [Recorded τ] [Recorded κ]

theorem renewLease_quiet (renewed : renewLease checks state reserved now = .ok later) :
    Quiet checks reserved.branchId reserved.owner state later ∧
      Holds state reserved.branchId reserved.owner := by
  simp only [renewLease, bind_eq_ok] at renewed
  rcases renewed with ⟨branch, live, appended⟩
  rcases appendEvent_eq_ok appended with ⟨applied, valid⟩
  rw [branchId_of_branch (liveBranch_eq_ok live).1] at applied
  exact ⟨.event .refl (.renewed _) applied valid, holds_of_live live⟩

theorem providerCommand_eq_ok {command : Gateway.Command}
    (accepted : providerCommand checks state reserved command now = .ok later) :
    applyEvent checks state (.provider reserved.branchId reserved.owner command) = .ok later ∧
      later.validate checks = .ok () ∧ Holds state reserved.branchId reserved.owner := by
  simp only [providerCommand, bind_eq_ok] at accepted
  rcases accepted with ⟨branch, live, appended⟩
  rcases appendCommand_eq_ok appended with ⟨applied, valid⟩
  exact ⟨applied, valid, holds_of_live live⟩

theorem completeProviderTool_quiet {call : ToolCallRecord}
    (completed : completeProviderTool checks state reserved now call = .ok later) :
    Quiet checks reserved.branchId reserved.owner state later := by
  simp only [completeProviderTool, bind_eq_ok] at completed
  rcases completed with ⟨_, _, record, _, accepted⟩
  rcases providerCommand_eq_ok accepted with ⟨applied, valid, _⟩
  exact .event .refl (.completed _ _ _ _) applied valid

theorem recoverProviderTurns_quiet :
    Quiet checks reserved.branchId reserved.owner state
      (recoverProviderTurns checks state reserved now).2 := by
  unfold recoverProviderTurns
  split
  · exact .refl
  · simp only
    split
    · exact .refl
    · split
      · exact .refl
      · rename_i later appended
        rcases appendEvent_eq_ok appended with ⟨applied, valid⟩
        have quiet : Quiet checks reserved.branchId reserved.owner state later :=
          .event .refl .recovered applied valid
        split
        · exact quiet
        · exact quiet

end Operations

/-- The process has nothing more to do than to fail its turn. -/
def Phase.IsStop : Phase → Prop
  | .failing _ _ => True
  | .ended => True
  | _ => False

section Advancing

variable {τ : Type} [Recorded τ]

/-- What one step of a process does. -/
inductive Advances (agent : CodingAgent τ) (world : World τ)
    (reserved : ReservedRequest Continuation) : Phase → World τ → Process → Prop where
  | stopped {phase stop : Phase} {state : SessionState τ Continuation}
      {later : ReservedRequest Continuation}
      (quiet : Quiet agent.checks reserved.branchId reserved.owner world.state state)
      (cleared : Cleared reserved later) (stops : stop.IsStop) :
      Advances agent world reserved phase { world with state := state } ⟨later, stop⟩
  | resumed {requests : List ModelRequest} {resumed : World τ}
      (found : world.resumeRequestPrefix agent reserved = some (requests, resumed)) :
      Advances agent world reserved .preflight resumed (preflightRequests agent reserved requests)
  | recovered {requests : List ModelRequest} {recovery : Recovery Continuation}
      {state : SessionState τ Continuation} {now : UInt64}
      (recovers : recoverProviderTurns agent.checks world.state reserved now =
        (.ok recovery, state)) :
      Advances agent world reserved (.recovering requests) { world with state := state }
        (resume agent reserved requests recovery)
  | prepared {asking : Asking} {attempt : AttemptState} :
      Advances agent world reserved (.preparing asking attempt)
        { world with
          prefixes := world.prefixes.insert reserved.branchId attempt.requests
          epochStarted := true } ⟨reserved, .requesting asking attempt⟩
  | reduced {asking : Asking} {attempt : AttemptState} {next : Process}
      (settle : Settle agent reserved attempt next) :
      Advances agent world reserved (.requesting asking attempt) world next
  | intended {asking : Asking} {attempt : AttemptState} {intent : SendIntent}
      {state : SessionState τ Continuation} {outside : Outside}
      (recorded : providerIntent agent.checks agent.sessionId world.state reserved
        (World.sendIntent agent outside reserved) outside.now = .ok (intent, state)) :
      Advances agent world reserved (.requesting asking attempt) { world with state := state }
        ⟨reserved, .sending asking attempt intent⟩
  | rejected {asking : Asking} {attempt : AttemptState} {intent : SendIntent} {next : Process}
      {state : SessionState τ Continuation}
      (quiet : Quiet agent.checks reserved.branchId reserved.owner world.state state)
      (settle : Settle agent reserved attempt next) :
      Advances agent world reserved (.sending asking attempt intent) { world with state := state }
        next
  | reissued {asking again : Asking} {attempt : AttemptState} {intent : SendIntent}
      {state : SessionState τ Continuation}
      (quiet : Quiet agent.checks reserved.branchId reserved.owner world.state state) :
      Advances agent world reserved (.sending asking attempt intent) { world with state := state }
        ⟨reserved, .requesting again attempt⟩
  | replied {asking : Asking} {attempt : AttemptState} {intent : SendIntent}
      (response : ModelResponse)
      (checked : structuralCheck agent
        (.fromResponse agent.scrub agent.binding response) = .ok ()) :
      Advances agent world reserved (.sending asking attempt intent) world
        ⟨reserved, .staging asking attempt intent (.fromResponse agent.scrub agent.binding response)⟩
  | staged {asking : Asking} {attempt : AttemptState} {intent : SendIntent} {reply : LlmResult}
      {state : SessionState τ Continuation} {now : UInt64}
      (accepted : providerCommand agent.checks world.state reserved
        (.stage intent.identity (agent.codec.encode reply)) now = .ok state) :
      Advances agent world reserved (.staging asking attempt intent reply)
        { world with state := state } ⟨reserved, .admitting asking attempt intent reply⟩
  | admitted {asking : Asking} {attempt : AttemptState} {intent : SendIntent} {reply : LlmResult}
      {state : SessionState τ Continuation} {now : UInt64} {next : Process}
      (accepted : providerCommand agent.checks world.state reserved
        (.admitReply intent.identity (executionsOf reply)) now = .ok state)
      (follow : Follow agent reserved intent.identity (attempt.receive agent reply) next) :
      Advances agent world reserved (.admitting asking attempt intent reply)
        { world with state := state } next
  | begun {work : Work} {call : ToolCall} {waiting : List ToolCall}
      {state : SessionState τ Continuation} {now : UInt64}
      (renewed : renewLease agent.checks world.state reserved now = .ok state) :
      Advances agent world reserved (.executing work (call :: waiting)) { world with state := state }
        ⟨reserved, .dispatching work call waiting⟩
  | closed {work : Work} :
      Advances agent world reserved (.executing work []) world
        ⟨reserved, .refusing (work.close agent) (refuseOverBudget agent.maxToolCalls
          work.attempt.usage.totalCalls work.skipped).1⟩
  | dispatched {work : Work} {call : ToolCall} {waiting : List ToolCall} (outcome : Bool × String)
      (known : knownTool call.name agent.allowShell = true) :
      Advances agent world reserved (.dispatching work call waiting)
        { world with dispatched := ⟨reserved.branchId, work.identity, call⟩ :: world.dispatched }
        ⟨reserved, .returned work call waiting outcome⟩
  | unknown {work : Work} {call : ToolCall} {waiting : List ToolCall} (outcome : Bool × String)
      (unknown : knownTool call.name agent.allowShell = false) :
      Advances agent world reserved (.dispatching work call waiting) world
        ⟨reserved, .returned work call waiting outcome⟩
  | recorded {work : Work} {call : ToolCall} {waiting : List ToolCall} {outcome : Bool × String}
      {state : SessionState τ Continuation} (projection : Projection)
      (quiet : Quiet agent.checks reserved.branchId reserved.owner world.state state) :
      Advances agent world reserved (.returned work call waiting outcome)
        { world with state := state }
        ⟨reserved, .executing (work.record call outcome.1 projection) waiting⟩
  | refused {work : Work} {call : LiveCall} {refused : List LiveCall}
      {state : SessionState τ Continuation}
      (quiet : Quiet agent.checks reserved.branchId reserved.owner world.state state) :
      Advances agent world reserved (.refusing work (call :: refused)) { world with state := state }
        ⟨reserved, .refusing work refused⟩
  | rounded {work : Work} :
      Advances agent world reserved (.refusing work []) world ⟨reserved, .checkpointing work⟩
  | checkpointed {work : Work} {transcript : List (RoundRecord Continuation)}
      {ingest : String → String → Option Projection} {next : Process}
      {state : SessionState τ Continuation} {now : UInt64}
      (exchanged : contextExchange ingest work.attempt.rounds = some transcript)
      (persisted : checkpointRounds agent.checks world.state reserved now transcript = .ok state)
      (next_eq : next = afterRound agent reserved work ∨
        ∃ error rounds, next = ⟨reserved, .failing error rounds⟩) :
      Advances agent world reserved (.checkpointing work) { world with state := state } next
  | finalized {attempt : AttemptState} {summary : String}
      {transcript : List (RoundRecord Continuation)}
      {ingest : String → String → Option Projection}
      {state : SessionState τ Continuation} {now : UInt64}
      (exchanged : contextExchange ingest
        (attempt.rounds ++ [World.finalRound attempt summary]) = some transcript)
      (persisted : finalize agent.checks world.state reserved now summary transcript = .ok state) :
      Advances agent world reserved (.completing attempt summary) { world with state := state }
        ⟨reserved, .ended⟩
  | failed {error : String} {rounds : List LiveRound} {transcript : List (RoundRecord Continuation)}
      {state : SessionState τ Continuation} {now : UInt64}
      (persisted : failBranch agent.checks world.state reserved now error transcript = .ok state) :
      Advances agent world reserved (.failing error rounds) { world with state := state }
        ⟨reserved, .ended⟩

variable {agent : CodingAgent τ} {world : World τ} {outside : Outside}
  {reserved : ReservedRequest Continuation}

/-- A step that stops and leaves the world as it is. -/
theorem Advances.stop {phase stop : Phase} (stops : stop.IsStop) :
    Advances agent world reserved phase world ⟨reserved, stop⟩ :=
  .stopped .refl (.inl rfl) stops

theorem advances_gatewayRound (asking : Asking) (attempt : AttemptState) :
    Advances agent world reserved (.requesting asking attempt)
      (world.gatewayRound agent outside reserved asking attempt).1
      (world.gatewayRound agent outside reserved asking attempt).2 := by
  unfold World.gatewayRound
  split
  · exact .stop trivial
  · split
    · exact .reduced settle_onContextLimit
    · split
      · exact .stop trivial
      · split
        · exact .stop trivial
        · rename_i recorded
          exact .intended recorded

/-- A rejected intent leads to a decision about the attempt. -/
theorem advances_rejected (asking : Asking) (attempt : AttemptState) (intent : SendIntent)
    {next : Process} (decided : Settle agent reserved attempt next ∨
      ∃ again, next = ⟨reserved, .requesting again attempt⟩) :
    Advances agent world reserved (.sending asking attempt intent)
      (world.commanded agent outside reserved attempt.rounds (.reject intent.identity) next).1
      (world.commanded agent outside reserved attempt.rounds (.reject intent.identity) next).2 := by
  unfold World.commanded
  split
  · exact .stop trivial
  · rename_i later accepted
    rcases providerCommand_eq_ok accepted with ⟨applied, valid, _⟩
    have quiet : Quiet agent.checks reserved.branchId reserved.owner world.state later :=
      .event .refl (.rejected _) applied valid
    rcases decided with settle | ⟨again, rfl⟩
    · exact .rejected quiet settle
    · exact .reissued quiet

theorem advances_sendRound (asking : Asking) (attempt : AttemptState) (intent : SendIntent) :
    Advances agent world reserved (.sending asking attempt intent)
      (world.sendRound agent outside reserved asking attempt intent).1
      (world.sendRound agent outside reserved asking attempt intent).2 := by
  unfold World.sendRound
  split
  · exact .stop trivial
  · simp only
    split
    · apply advances_rejected
      unfold onInterruption
      split
      · exact .inr ⟨_, rfl⟩
      · exact .inl (.failing (.inl rfl) _ _)
    · exact advances_rejected asking attempt intent (.inl settle_onContextLimit)
    · exact advances_rejected asking attempt intent (.inl (.failing (.inl rfl) _ _))
    · split
      · exact advances_rejected asking attempt intent (.inl settle_onRefusal)
      · exact advances_rejected asking attempt intent (.inl (.failing (.inl rfl) _ _))
      · split
        · exact advances_rejected asking attempt intent (.inl settle_onTruncation)
        · split
          · exact .stop trivial
          · rename_i checked
            exact .replied _ checked

theorem advances_admitCall (work : Work) (call : ToolCall) (waiting : List ToolCall) :
    Advances agent world reserved (.executing work (call :: waiting))
      (world.admitCall agent outside reserved work call waiting).1
      (world.admitCall agent outside reserved work call waiting).2 := by
  unfold World.admitCall
  split
  · exact .stop trivial
  · rename_i later renewed
    split
    · exact .stopped (renewLease_quiet renewed).1 (.inl rfl) trivial
    · exact .begun renewed

theorem advances_recordCall (work : Work) (call : ToolCall) (waiting : List ToolCall) (ok : Bool)
    (raw : String) :
    Advances agent world reserved (.returned work call waiting (ok, raw))
      (world.recordCall agent outside reserved work call waiting ok raw).1
      (world.recordCall agent outside reserved work call waiting ok raw).2 := by
  unfold World.recordCall
  split
  · exact .stop trivial
  · rename_i projection _
    simp only
    split
    · exact .stop trivial
    · rename_i middle renewed
      split
      · exact .stopped (renewLease_quiet renewed).1 (.inl rfl) trivial
      · rename_i later completed
        have quiet := (renewLease_quiet renewed).1.trans (completeProviderTool_quiet completed)
        split
        · exact .stopped quiet (.inl rfl) trivial
        · exact .recorded projection quiet

theorem advances_refuseCall (work : Work) (call : LiveCall) (refused : List LiveCall) :
    Advances agent world reserved (.refusing work (call :: refused))
      (world.refuseCall agent outside reserved work call refused).1
      (world.refuseCall agent outside reserved work call refused).2 := by
  unfold World.refuseCall
  split
  · exact .stop trivial
  · rename_i later completed
    split
    · exact .stopped (completeProviderTool_quiet completed) (.inl rfl) trivial
    · exact .refused (completeProviderTool_quiet completed)

omit [Recorded τ] in
theorem persisted_cases {rounds : List LiveRound} {next : Process}
    {operation : List (RoundRecord Continuation) →
      Except StoreError (SessionState τ Continuation)} :
    world.persisted outside reserved rounds next operation = (world, ⟨reserved, .ended⟩) ∨
    ∃ transcript later, contextExchange outside.ingest rounds = some transcript ∧
      operation transcript = .ok later ∧
      world.persisted outside reserved rounds next operation = ({ world with state := later }, next)
    := by
  unfold World.persisted
  split
  · exact .inl rfl
  · rename_i transcript exchanged
    split
    · exact .inl rfl
    · rename_i later accepted
      exact .inr ⟨transcript, later, exchanged, accepted, rfl⟩

/-- Every step of a process is one of those. -/
theorem advances_advance (phase : Phase) :
    Advances agent world reserved phase (world.advance agent outside reserved phase).1
      (world.advance agent outside reserved phase).2 := by
  cases phase with
  | preflight =>
      simp only [World.advance]
      split
      · exact .stop trivial
      · split
        · exact .stop trivial
        · rename_i found
          exact .resumed found
  | recovering requests =>
      have quiet : Quiet agent.checks reserved.branchId reserved.owner world.state
          (recoverProviderTurns agent.checks world.state reserved outside.now).2 :=
        recoverProviderTurns_quiet
      simp only [World.advance]
      split
      · rename_i recovers
        rw [recovers] at quiet
        exact .stopped quiet (.inl rfl) trivial
      · rename_i recovers
        exact .recovered recovers
  | preparing asking attempt =>
      simp only [World.advance]
      split
      · exact .stop trivial
      · exact .prepared
  | requesting asking attempt => exact advances_gatewayRound asking attempt
  | sending asking attempt intent => exact advances_sendRound asking attempt intent
  | staging asking attempt intent reply =>
      simp only [World.advance, World.commanded]
      split
      · exact .stop trivial
      · rename_i accepted
        exact .staged accepted
  | admitting asking attempt intent reply =>
      simp only [World.advance, World.commanded]
      split
      · exact .stop trivial
      · rename_i accepted
        apply Advances.admitted accepted
        split
        · exact .settled (.failing (.inl rfl) _ _)
        · exact follow_afterReply
  | executing work waiting =>
      cases waiting with
      | nil => exact .closed
      | cons call waiting => exact advances_admitCall work call waiting
  | dispatching work call waiting =>
      simp only [World.advance, World.dispatchCall]
      split
      · rename_i known
        exact .dispatched _ known
      · rename_i unknown
        exact .unknown _ (Bool.not_eq_true _ ▸ unknown)
  | returned work call waiting outcome => exact advances_recordCall work call waiting _ _
  | refusing work refused =>
      cases refused with
      | nil =>
          simp only [World.advance]
          split
          · exact .rounded
          · exact .stop trivial
      | cons call refused => exact advances_refuseCall work call refused
  | checkpointing work =>
      simp only [World.advance]
      rcases persisted_cases with same | ⟨transcript, later, exchanged, accepted, same⟩
      · rw [same]
        exact .stop trivial
      · rw [same]
        refine .checkpointed exchanged accepted ?_
        split
        · exact .inr ⟨_, _, rfl⟩
        · exact .inl rfl
  | completing attempt summary =>
      simp only [World.advance]
      rcases persisted_cases with same | ⟨transcript, later, exchanged, accepted, same⟩
      · rw [same]
        exact .stop trivial
      · rw [same]
        exact .finalized exchanged accepted
  | failing error rounds =>
      simp only [World.advance]
      rcases persisted_cases with same | ⟨transcript, later, exchanged, accepted, same⟩
      · rw [same]
        exact .stop trivial
      · rw [same]
        exact .failed accepted
  | ended => exact .stop trivial

end Advancing

end Llxprt.Agent
