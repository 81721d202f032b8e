import Llxprt.Agent.Steps

/-!
# The books of a session

Owner tokens are drawn once, so a process is the only one that moves the records
of its intents.  An admitted record holds a reply that passed the checks, with
exactly its calls, and a round of tool calls works on the record of its reply.
-/

namespace Llxprt.Agent

open Llxprt.Kernel Llxprt.Kernel.Recorded Llxprt.Rust Llxprt.Gateway Llxprt.Log

section Replies

/-- A reply whose calls are named apart and are those of its private state. -/
structure LlmResult.Sound (reply : LlmResult) : Prop where
  named : ∀ call ∈ reply.calls, call.id ≠ ""
  nodup : (reply.calls.map ToolCall.id).Nodup
  continued : ∀ state, reply.continuation = some state →
    state.captured.calls = reply.calls.map fun call => (some call.id, call.name)

theorem takeIds_eq_ok {seen ids : BTreeSet String} {calls : List ToolCall}
    (taken : takeIds seen calls = .ok ids) :
    (∀ call ∈ calls, call.id ≠ "") ∧ (calls.map ToolCall.id).Nodup ∧
      ∀ call ∈ calls, call.id ∉ seen := by
  induction calls generalizing seen with
  | nil => simp
  | cons call calls ih =>
      simp only [takeIds, bind_eq_ok, reject_eq_ok, Bool.not_eq_true] at taken
      rcases taken with ⟨_, shown, _, unseen, taken⟩
      rcases ih taken with ⟨named, nodup, apart⟩
      rcases forall_notMem_insert.mp apart with ⟨own, others⟩
      refine ⟨?_, ?_, ?_⟩
      · intro other member
        rcases List.mem_cons.mp member with rfl | old
        · rintro blank
          rw [blank] at shown
          cases shown
        · exact named other old
      · rw [List.map_cons, List.nodup_cons]
        exact ⟨own, nodup⟩
      · intro other member
        rcases List.mem_cons.mp member with rfl | old
        · rw [← Std.ExtTreeSet.contains_iff_mem, unseen]
          exact Bool.false_ne_true
        · exact others other old

theorem validateCalls_eq_ok {argsObject : String → Bool} {seen ids : BTreeSet String}
    {reply : LlmResult} (valid : validateCalls argsObject seen reply = .ok ids) :
    takeIds seen reply.calls = .ok ids := by
  simp only [validateCalls, bind_eq_ok, pure_eq_ok] at valid
  rcases valid with ⟨taken, first, _, _, rfl⟩
  exact first

/-- Calls without a blank identifier have one. -/
theorem calls_eq_of_named {pieces : List ModelResponsePart} (named : ∀ call ∈ pieces.filterMap (fun
      | .toolCall call => some (ToolCall.mk (call.toolCallId.getD "") call.toolName call.args)
      | _ => none), call.id ≠ "") :
    pieces.filterMap ModelResponsePart.callKey = (pieces.filterMap (fun
      | .toolCall call => some (ToolCall.mk (call.toolCallId.getD "") call.toolName call.args)
      | _ => none)).map fun call => (some call.id, call.name) := by
  induction pieces with
  | nil => rfl
  | cons piece pieces ih =>
      cases piece with
      | toolCall call =>
          rw [List.filterMap_cons, List.forall_mem_cons] at named
          rw [List.filterMap_cons, List.filterMap_cons]
          simp only [ModelResponsePart.callKey, List.map_cons, List.cons.injEq, Prod.mk.injEq,
            and_true]
          refine ⟨?_, ih named.2⟩
          cases given : call.toolCallId with
          | none => exact absurd (by rw [given]; rfl) named.1
          | some id => rfl
      | text content phased => exact ih named
      | thinking content => exact ih named
      | file content => exact ih named
      | builtinToolCall toolName => exact ih named

theorem capture_eq_some {response : ModelResponse} {state : Continuation}
    (captured : Continuation.capture response = some state) : state.captured = response := by
  unfold Continuation.capture at captured
  split at captured
  · cases captured
    rfl
  · cases captured

variable {τ : Type} {agent : CodingAgent τ}

/-- A response that passes the structural check is a sound reply. -/
theorem sound_fromResponse {response : ModelResponse}
    (checked : structuralCheck agent (.fromResponse agent.scrub agent.binding response) = .ok ()) :
    (LlmResult.fromResponse agent.scrub agent.binding response).Sound := by
  unfold structuralCheck at checked
  split at checked
  · cases checked
  · split at checked
    · cases checked
    · rename_i ids valid
      rcases takeIds_eq_ok (validateCalls_eq_ok valid) with ⟨named, nodup, _⟩
      refine ⟨named, nodup, ?_⟩
      intro state continued
      simp only [LlmResult.fromResponse, Option.map_eq_some_iff] at continued
      rcases continued with ⟨plain, captured, rfl⟩
      change plain.captured.calls = _
      rw [capture_eq_some captured]
      exact calls_eq_of_named named

end Replies

section Records

variable {τ : Type} {agent : CodingAgent τ}

/-- An admitted record holds a sound reply and its calls. -/
structure RecordBooked (agent : CodingAgent τ) (record : TurnRecord) : Prop where
  kind : record.intent.kind = .conversation
  replied : record.status = .admitted → ∃ reply : LlmResult, reply.Sound ∧
    record.response = some (agent.codec.encode reply) ∧ record.executions.map callOf = reply.calls

/-- Only an admission admits. -/
theorem RecordStep.status_of_not_admitReply {owner : String} {command : Gateway.Command}
    {record next : TurnRecord} (step : RecordStep owner command record next)
    (plain : ∀ identity executions, command ≠ .admitReply identity executions)
    (status : next.status = .admitted) : record.status = .admitted := by
  cases step with
  | kept => exact status
  | staged own names was => cases status
  | admitted own names was => exact absurd names (plain _ _)
  | rejected own names isOpen => cases status
  | completed own names was split => exact was
  | recovered names =>
      by_cases isOpen : record.isOpen
      · rw [TurnRecord.recover_status isOpen] at status
        cases status
      · rw [TurnRecord.recover_status_of_closed isOpen] at status
        exact status

theorem RecordBooked.step {owner : String} {command : Gateway.Command} {record next : TurnRecord}
    (booked : RecordBooked agent record) (step : RecordStep owner command record next)
    (plain : ∀ identity executions, command ≠ .admitReply identity executions) :
    RecordBooked agent next where
  kind := step.intent_eq ▸ booked.kind
  replied status := by
    have before := step.status_of_not_admitReply plain status
    rcases booked.replied before with ⟨reply, sound, response, calls⟩
    rcases step.of_admitted before with ⟨_, sameResponse, sameCalls⟩
    exact ⟨reply, sound, sameResponse.trans response, sameCalls.trans calls⟩

/-- The records of a session are booked. -/
def TurnsBooked (agent : CodingAgent τ) (turns : List TurnRecord) : Prop :=
  ∀ record ∈ turns, RecordBooked agent record

variable {state later : SessionState τ Continuation} {branchId owner : String}

theorem TurnsBooked.command {command : Gateway.Command}
    (booked : TurnsBooked agent state.providerTurns) (validated : state.Validated)
    (applied : applyEvent agent.checks state (.provider branchId owner command) = .ok later)
    (plain : ∀ identity executions, command ≠ .admitReply identity executions)
    (conversing : ∀ intent, command = .intent intent → intent.kind = .conversation) :
    TurnsBooked agent later.providerTurns := by
  rcases providerEvent_turns validated applied with ⟨intent, rfl, _, _, _, rfl⟩ |
    ⟨turns, related, rfl⟩
  · exact List.forall_mem_append.mpr ⟨booked, List.forall_mem_singleton.mpr
      ⟨conversing intent rfl, fun status => by cases status⟩⟩
  · intro next member
    rcases List.getElem?_of_mem member with ⟨index, found⟩
    rcases forall₂_getElem? related.flip found with ⟨record, present, step⟩
    have step : RecordStep owner command record next := step
    exact (booked record (List.mem_of_getElem? present)).step step plain

theorem TurnsBooked.quiet (booked : TurnsBooked agent state.providerTurns)
    (validated : state.Validated) (quiet : Quiet agent.checks branchId owner state later) :
    TurnsBooked agent later.providerTurns := by
  induction quiet with
  | refl => exact booked
  | event before quiet applied valid ih =>
      have middle := (before.framed validated).2
      cases quiet with
      | renewed leaseExpiry =>
          rw [applyEvent_turns applied (by simp)]
          exact ih
      | rejected identity => exact ih.command middle applied (by simp) (by simp)
      | completed identity call ok result => exact ih.command middle applied (by simp) (by simp)
      | recovered => exact ih.command middle applied (by simp) (by simp)

end Records

section Phases

variable {τ : Type} {agent : CodingAgent τ}

/-- The intent is recorded for the reservation. -/
structure Intended (turns : List TurnRecord) (reserved : ReservedRequest Continuation)
    (intent : SendIntent) : Prop where
  recorded : ∃ record ∈ turns, record.intent = intent
  owner : intent.owner = reserved.owner
  branch : intent.branch = reserved.branchId

/-- The round works on an admitted record of the reservation with the calls of its
reply. -/
structure Engaged (turns : List TurnRecord) (reserved : ReservedRequest Continuation)
    (work : Work) : Prop where
  admitted : ∃ record ∈ turns, record.intent.identity = work.identity ∧
    record.intent.owner = reserved.owner ∧ record.intent.branch = reserved.branchId ∧
    record.status = .admitted ∧ record.executions.map callOf = work.reply.calls
  sound : work.reply.Sound

/-- What the books say about a process. -/
def PhaseBooked (agent : CodingAgent τ) (turns : List TurnRecord)
    (reserved : ReservedRequest Continuation) : Phase → Prop
  | .preflight | .recovering _ => ∀ record ∈ turns, record.intent.owner ≠ reserved.owner
  | .sending _ _ intent => Intended turns reserved intent
  | .staging _ _ intent reply => Intended turns reserved intent ∧ reply.Sound
  | .admitting _ _ intent reply => Intended turns reserved intent ∧ reply.Sound ∧
      ∀ record ∈ turns, record.intent = intent → record.status = .pending →
        record.response = some (agent.codec.encode reply)
  | .executing work _ | .dispatching work _ _ | .returned work _ _ _ | .refusing work _
  | .checkpointing work => Engaged turns reserved work
  | .preparing _ _ | .requesting _ _ | .completing _ _ | .failing _ _ | .ended => True

variable {state later : SessionState τ Continuation}
  {reserved : ReservedRequest Continuation} {other : String}

theorem Intended.framed {intent : SendIntent}
    (intended : Intended state.providerTurns reserved intent) (framed : Framed other state later) :
    Intended later.providerTurns reserved intent := by
  rcases intended.recorded with ⟨record, member, named⟩
  rcases framed.kept record member with ⟨next, present, followed⟩
  exact ⟨⟨next, present, followed.intent.trans named⟩, intended.owner, intended.branch⟩

theorem Engaged.framed {work : Work} (engaged : Engaged state.providerTurns reserved work)
    (framed : Framed other state later) : Engaged later.providerTurns reserved work := by
  rcases engaged.admitted with ⟨record, member, identity, owner, branch, status, calls⟩
  rcases framed.kept record member with ⟨next, present, followed⟩
  rcases followed.admitted status with ⟨still, _, same⟩
  refine ⟨⟨next, present, ?_, ?_, ?_, still, same.trans calls⟩, engaged.sound⟩
  · rw [followed.intent, identity]
  · rw [followed.intent, owner]
  · rw [followed.intent, branch]

/-- Operations of other owners leave the books of a process. -/
theorem PhaseBooked.framed {phase : Phase}
    (booked : PhaseBooked agent state.providerTurns reserved phase)
    (framed : Framed other state later) (apart : other ≠ reserved.owner) :
    PhaseBooked agent later.providerTurns reserved phase := by
  have fresh : (∀ record ∈ state.providerTurns, record.intent.owner ≠ reserved.owner) →
      ∀ record ∈ later.providerTurns, record.intent.owner ≠ reserved.owner := by
    intro unused next member
    rcases framed.traced next member with own | ⟨record, present, followed⟩
    · rw [own]
      exact apart
    · rw [followed.intent]
      exact unused record present
  cases phase with
  | preflight => exact fresh booked
  | recovering requests => exact fresh booked
  | sending asking attempt intent => exact Intended.framed booked framed
  | staging asking attempt intent reply => exact ⟨Intended.framed booked.1 framed, booked.2⟩
  | admitting asking attempt intent reply =>
      refine ⟨Intended.framed booked.1 framed, booked.2.1, ?_⟩
      intro next member named status
      rcases framed.traced next member with own | ⟨record, present, followed⟩
      · rw [named, booked.1.owner] at own
        exact absurd own.symm apart
      · have same : record.intent = intent := followed.intent.symm.trans named
        have foreign : record.intent.owner ≠ other := by
          rw [same, booked.1.owner]
          exact apart.symm
        rcases followed.foreign foreign with rfl | rfl
        · exact booked.2.2 next present same status
        · exact absurd (.inr status) TurnRecord.settled_recover.closed
  | executing work waiting => exact Engaged.framed booked framed
  | dispatching work call waiting => exact Engaged.framed booked framed
  | returned work call waiting outcome => exact Engaged.framed booked framed
  | refusing work refused => exact Engaged.framed booked framed
  | checkpointing work => exact Engaged.framed booked framed
  | preparing asking attempt => trivial
  | requesting asking attempt => trivial
  | completing attempt summary => trivial
  | failing error rounds => trivial
  | ended => trivial

end Phases

section Operations

variable {τ : Type} [Recorded τ] {agent : CodingAgent τ}
  {state later : SessionState τ Continuation} {reserved : ReservedRequest Continuation}
  {now : UInt64}

/-- The state is the empty one or was validated. -/
def Checked (checks : Checks τ Continuation) (state : SessionState τ Continuation) : Prop :=
  (∃ sessionId, state = .empty sessionId) ∨ state.validate checks = .ok ()

omit [Recorded τ] in
theorem Checked.validated {checks : Checks τ Continuation} (checked : Checked checks state) :
    state.Validated := by
  rcases checked with ⟨sessionId, rfl⟩ | valid
  · exact validated_empty
  · exact validated_of_validate valid

omit [Recorded τ] in
theorem Checked.quiet {checks : Checks τ Continuation} {branchId owner : String}
    (checked : Checked checks state) (quiet : Quiet checks branchId owner state later) :
    Checked checks later := by
  cases quiet with
  | refl => exact checked
  | event before quiet applied valid => exact .inr valid

theorem checkpointRounds_eq_ok {checks : Checks τ Continuation}
    {rounds : List (RoundRecord Continuation)}
    (persisted : checkpointRounds checks state reserved now rounds = .ok later) :
    ∃ branch rest leaseExpiry, state.branch reserved.branchId = some branch ∧
      branch.rounds ++ rest = rounds ∧
      applyEvent checks state
        (.checkpoint reserved.branchId reserved.owner rest leaseExpiry) = .ok later ∧
      later.validate checks = .ok () := by
  simp only [checkpointRounds, bind_eq_ok] at persisted
  rcases persisted with ⟨branch, live, rest, split, appended⟩
  have present := (liveBranch_eq_ok live).1
  rcases appendEvent_eq_ok appended with ⟨applied, valid⟩
  rw [branchId_of_branch present] at applied
  exact ⟨branch, rest, _, present, suffix_eq_ok.mp split, applied, valid⟩

omit [Recorded τ] in
theorem branchForTerminal_eq_ok {branch : BranchRecord τ Continuation}
    (found : branchForTerminal state reserved now = .ok branch) :
    state.branch reserved.branchId = some branch := by
  simp only [branchForTerminal, bind_eq_ok, okOr_eq_ok, reject_eq_ok] at found
  rcases found with ⟨first, present, _, _, found⟩
  split at found
  · exact (liveBranch_eq_ok found).1
  · exact (pure_eq_ok.mp found) ▸ present

/-- A completion is one event, or the branch was completed before. -/
theorem finalize_eq_ok {checks : Checks τ Continuation} {summary : String}
    {rounds : List (RoundRecord Continuation)}
    (persisted : finalize checks state reserved now summary rounds = .ok later) :
    later = state ∨ ∃ branch rest, state.branch reserved.branchId = some branch ∧
      branch.rounds ++ rest = rounds ∧
      applyEvent checks state
        (.branchCompleted reserved.branchId reserved.owner rest summary) = .ok later ∧
      later.validate checks = .ok () := by
  simp only [finalize, bind_eq_ok] at persisted
  rcases persisted with ⟨branch, found, persisted⟩
  have present := branchForTerminal_eq_ok found
  split at persisted
  · simp only [bind_eq_ok, pure_eq_ok] at persisted
    rcases persisted with ⟨_, _, _, _, rfl⟩
    exact .inl rfl
  · cases persisted
  · simp only [bind_eq_ok] at persisted
    rcases persisted with ⟨rest, split, appended⟩
    rcases appendEvent_eq_ok appended with ⟨applied, valid⟩
    rw [branchId_of_branch present] at applied
    exact .inr ⟨branch, rest, present, suffix_eq_ok.mp split, applied, valid⟩

/-- A failure is one event, or the branch had failed before. -/
theorem failBranch_eq_ok {checks : Checks τ Continuation} {error : String}
    {rounds : List (RoundRecord Continuation)}
    (persisted : failBranch checks state reserved now error rounds = .ok later) :
    later = state ∨ ∃ rest, applyEvent checks state
        (.branchFailed reserved.branchId reserved.owner rest error) = .ok later ∧
      later.validate checks = .ok () := by
  simp only [failBranch, bind_eq_ok] at persisted
  rcases persisted with ⟨branch, found, persisted⟩
  have present := branchForTerminal_eq_ok found
  split at persisted
  · simp only [bind_eq_ok, pure_eq_ok] at persisted
    rcases persisted with ⟨_, _, _, _, rfl⟩
    exact .inl rfl
  · cases persisted
  · simp only [bind_eq_ok] at persisted
    rcases persisted with ⟨rest, _, appended⟩
    rcases appendEvent_eq_ok appended with ⟨applied, valid⟩
    rw [branchId_of_branch present] at applied
    exact .inr ⟨rest, applied, valid⟩

theorem providerIntent_applied {checks : Checks τ Continuation} {sessionId : String}
    {intent recorded : SendIntent}
    (accepted : providerIntent checks sessionId state reserved intent now = .ok (recorded, later)) :
    recorded.kind = intent.kind ∧ Intended later.providerTurns reserved recorded ∧
      applyEvent checks state (.provider reserved.branchId reserved.owner (.intent recorded)) =
        .ok later ∧ later.validate checks = .ok () := by
  simp only [providerIntent, bind_eq_ok, pure_eq_ok, Prod.mk.injEq] at accepted
  rcases accepted with ⟨branch, live, next, appended, rfl, rfl⟩
  rcases appendCommand_eq_ok appended with ⟨applied, valid⟩
  rcases recorded_of_appendCommand appended with ⟨branch, owner, records, _⟩
  exact ⟨rfl, ⟨records, owner, branch⟩, applied, valid⟩

variable {world : World τ}

/-- What every step of a process leaves of the session and of the other processes. -/
structure Confined (agent : CodingAgent τ) (reserved : ReservedRequest Continuation)
    (world later : World τ) (next : Process) : Prop where
  framed : Framed reserved.owner world.state later.state
  checked : Checked agent.checks later.state
  processes : later.processes = world.processes
  owner : next.reserved.owner = reserved.owner
  branchId : next.reserved.branchId = reserved.branchId

omit [Recorded τ] in
theorem Settle.owner {attempt : AttemptState} {next : Process}
    (settle : Settle agent reserved attempt next) :
    next.reserved.owner = reserved.owner ∧ next.reserved.branchId = reserved.branchId := by
  cases settle with
  | failing cleared => exact ⟨cleared.owner, cleared.branchId⟩
  | ended => exact ⟨rfl, rfl⟩
  | asking cleared => exact ⟨cleared.owner, cleared.branchId⟩
  | completing => exact ⟨rfl, rfl⟩

omit [Recorded τ] in
theorem Follow.owner {identity : String} {attempt : AttemptState} {next : Process}
    (follow : Follow agent reserved identity attempt next) :
    next.reserved.owner = reserved.owner ∧ next.reserved.branchId = reserved.branchId := by
  cases follow with
  | settled settle => exact settle.owner
  | round => exact ⟨rfl, rfl⟩

/-- The process asks for a completion or is about to end. -/
def Phase.IsIdle : Phase → Prop
  | .preparing _ _ | .completing _ _ | .failing _ _ | .ended => True
  | _ => False

omit [Recorded τ] in
theorem Phase.IsIdle.booked {turns : List TurnRecord} {phase : Phase} (idle : phase.IsIdle) :
    PhaseBooked agent turns reserved phase := by
  cases phase with
  | preparing => trivial
  | completing => trivial
  | failing => trivial
  | ended => trivial
  | _ => cases idle

theorem Phase.IsStop.idle {stop : Phase} (stops : stop.IsStop) : stop.IsIdle := by
  cases stop with
  | failing => trivial
  | ended => trivial
  | _ => cases stops

/-- An idle process of the reservation. -/
structure Process.Idle (reserved : ReservedRequest Continuation) (process : Process) : Prop where
  owner : process.reserved.owner = reserved.owner
  branchId : process.reserved.branchId = reserved.branchId
  phase : process.phase.IsIdle

omit [Recorded τ] in
theorem Settle.idle {attempt : AttemptState} {next : Process}
    (settle : Settle agent reserved attempt next) : next.Idle reserved := by
  refine ⟨settle.owner.1, settle.owner.2, ?_⟩
  cases settle <;> trivial

omit [Recorded τ] in
theorem idle_resolveSummary (attempt : AttemptState) :
    (resolveSummary agent reserved attempt).Idle reserved := by
  have forced : ∀ attempt : AttemptState,
      Settle agent reserved attempt (forcedSummary agent reserved attempt) :=
    fun attempt => settle_forcedSummary (.refl agent attempt)
  unfold resolveSummary
  split
  · exact (forced _).idle
  · split
    · exact (forced _).idle
    · split
      · exact ⟨rfl, rfl, trivial⟩
      · split <;> exact ⟨rfl, rfl, trivial⟩

omit [Recorded τ] in
theorem idle_afterRound (work : Work) : (afterRound agent reserved work).Idle reserved := by
  unfold afterRound
  split
  · unfold endMission
    split
    · exact ⟨rfl, rfl, trivial⟩
    · simp only
      generalize (if isBlankText _ = true then _ else _) = summary
      split
      · exact ⟨rfl, rfl, trivial⟩
      · split <;> exact ⟨rfl, rfl, trivial⟩
  · split
    · have asked : Settle agent reserved work.attempt
          (ask agent reserved .next work.attempt) := settle_ask (.refl agent work.attempt) .next
      exact asked.idle
    · exact idle_resolveSummary work.attempt

omit [Recorded τ] in
theorem idle_resume (requests : List ModelRequest) (recovery : Recovery Continuation) :
    (resume agent reserved requests recovery).Idle reserved := by
  rcases @resume_cases _ agent reserved requests recovery with ⟨_, _, settle⟩ |
    ⟨_, _, _, settle⟩ | same
  · exact settle.idle
  · exact settle.idle
  · rw [same]
    exact ⟨rfl, rfl, trivial⟩

theorem Advances.confined {phase : Phase} {later : World τ} {next : Process}
    (advances : Advances agent world reserved phase later next)
    (checked : Checked agent.checks world.state) : Confined agent reserved world later next := by
  have validated := checked.validated
  have acted : ∀ {event : Event τ Continuation} {state},
      applyEvent agent.checks world.state event = .ok state →
      event.acting = some (reserved.branchId, reserved.owner) →
      Framed reserved.owner world.state state :=
    fun applied acts => framed_of_acting validated applied acts
  cases advances with
  | stopped quiet cleared stops =>
      exact ⟨(quiet.framed validated).1, checked.quiet quiet, rfl, cleared.owner, cleared.branchId⟩
  | @resumed requests resumed found =>
      rcases @preflightRequests_cases _ agent reserved requests with ⟨kept, cleared, same⟩
      have reservation : (preflightRequests agent reserved requests).reserved = kept := by
        rcases same with ⟨_, _, same⟩ | ⟨_, _, same⟩ <;> rw [same]
      have unchanged : later.state = world.state ∧ later.processes = world.processes := by
        unfold World.resumeRequestPrefix at found
        split at found
        · cases found
          exact ⟨rfl, rfl⟩
        · split at found
          · cases found
            exact ⟨rfl, rfl⟩
          · split at found
            · cases found
            · cases found
              exact ⟨rfl, rfl⟩
      refine ⟨?_, ?_, unchanged.2, ?_, ?_⟩
      · rw [unchanged.1]
        exact .refl _ _
      · rw [unchanged.1]
        exact checked
      · rw [reservation]
        exact cleared.owner
      · rw [reservation]
        exact cleared.branchId
  | @recovered requests recovery state now recovers =>
      have quiet : Quiet agent.checks reserved.branchId reserved.owner world.state
          (recoverProviderTurns agent.checks world.state reserved now).2 :=
        recoverProviderTurns_quiet
      rw [recovers] at quiet
      have idle := @idle_resume _ agent reserved requests recovery
      exact ⟨(quiet.framed validated).1, checked.quiet quiet, rfl, idle.owner, idle.branchId⟩
  | prepared => exact ⟨.refl _ _, checked, rfl, rfl, rfl⟩
  | reduced settle => exact ⟨.refl _ _, checked, rfl, settle.owner.1, settle.owner.2⟩
  | intended recorded =>
      rcases providerIntent_applied recorded with ⟨_, _, applied, valid⟩
      exact ⟨acted applied rfl, .inr valid, rfl, rfl, rfl⟩
  | rejected quiet settle =>
      exact ⟨(quiet.framed validated).1, checked.quiet quiet, rfl, settle.owner.1, settle.owner.2⟩
  | reissued quiet => exact ⟨(quiet.framed validated).1, checked.quiet quiet, rfl, rfl, rfl⟩
  | replied response check => exact ⟨.refl _ _, checked, rfl, rfl, rfl⟩
  | staged accepted =>
      rcases providerCommand_eq_ok accepted with ⟨applied, valid, _⟩
      exact ⟨acted applied rfl, .inr valid, rfl, rfl, rfl⟩
  | admitted accepted follow =>
      rcases providerCommand_eq_ok accepted with ⟨applied, valid, _⟩
      exact ⟨acted applied rfl, .inr valid, rfl, follow.owner.1, follow.owner.2⟩
  | begun renewed =>
      have quiet := (renewLease_quiet renewed).1
      exact ⟨(quiet.framed validated).1, checked.quiet quiet, rfl, rfl, rfl⟩
  | closed => exact ⟨.refl _ _, checked, rfl, rfl, rfl⟩
  | dispatched outcome known => exact ⟨.refl _ _, checked, rfl, rfl, rfl⟩
  | unknown outcome unknown => exact ⟨.refl _ _, checked, rfl, rfl, rfl⟩
  | recorded projection quiet =>
      exact ⟨(quiet.framed validated).1, checked.quiet quiet, rfl, rfl, rfl⟩
  | refused quiet => exact ⟨(quiet.framed validated).1, checked.quiet quiet, rfl, rfl, rfl⟩
  | rounded => exact ⟨.refl _ _, checked, rfl, rfl, rfl⟩
  | @checkpointed work transcript ingest next state now exchanged persisted same =>
      rcases checkpointRounds_eq_ok persisted with ⟨_, _, _, _, _, applied, valid⟩
      have owner : next.reserved.owner = reserved.owner ∧
          next.reserved.branchId = reserved.branchId := by
        rcases same with rfl | ⟨_, _, rfl⟩
        · have idle := @idle_afterRound _ agent reserved work
          exact ⟨idle.owner, idle.branchId⟩
        · exact ⟨rfl, rfl⟩
      exact ⟨acted applied rfl, .inr valid, rfl, owner.1, owner.2⟩
  | finalized exchanged persisted =>
      rcases finalize_eq_ok persisted with rfl | ⟨_, _, _, _, applied, valid⟩
      · exact ⟨.refl _ _, checked, rfl, rfl, rfl⟩
      · exact ⟨acted applied rfl, .inr valid, rfl, rfl, rfl⟩
  | failed persisted =>
      rcases failBranch_eq_ok persisted with rfl | ⟨_, applied, valid⟩
      · exact ⟨.refl _ _, checked, rfl, rfl, rfl⟩
      · exact ⟨acted applied rfl, .inr valid, rfl, rfl, rfl⟩

end Operations

section Own

variable {τ : Type} [Recorded τ] {agent : CodingAgent τ}
  {world : World τ} {reserved : ReservedRequest Continuation}

omit [Recorded τ] in
theorem preflightRequests_booked {turns : List TurnRecord} (requests : List ModelRequest)
    (unused : ∀ record ∈ turns, record.intent.owner ≠ reserved.owner) :
    PhaseBooked agent turns (preflightRequests agent reserved requests).reserved
      (preflightRequests agent reserved requests).phase := by
  rcases @preflightRequests_cases _ agent reserved requests with
    ⟨kept, cleared, ⟨_, _, same⟩ | ⟨_, _, same⟩⟩
  · rw [same]
    trivial
  · rw [same]
    intro record member
    rw [cleared.owner]
    exact unused record member

omit [Recorded τ] in
theorem state_of_resumed {requests : List ModelRequest} {resumed : World τ}
    (found : world.resumeRequestPrefix agent reserved = some (requests, resumed)) :
    resumed.state = world.state ∧ resumed.processes = world.processes ∧
      resumed.dispatched = world.dispatched := by
  unfold World.resumeRequestPrefix at found
  split at found
  · cases found
    exact ⟨rfl, rfl, rfl⟩
  · split at found
    · cases found
      exact ⟨rfl, rfl, rfl⟩
    · split at found
      · cases found
      · cases found
        exact ⟨rfl, rfl, rfl⟩

omit [Recorded τ] in
/-- An admitted reply is booked with its calls. -/
theorem TurnsBooked.admitReply {state later : SessionState τ Continuation}
    {intent : SendIntent} {reply : LlmResult} (turns : TurnsBooked agent state.providerTurns)
    (validated : state.Validated) (intended : Intended state.providerTurns reserved intent)
    (sound : reply.Sound)
    (staged : ∀ record ∈ state.providerTurns, record.intent = intent → record.status = .pending →
      record.response = some (agent.codec.encode reply))
    (applied : applyEvent agent.checks state (.provider reserved.branchId reserved.owner
      (.admitReply intent.identity (executionsOf reply))) = .ok later) :
    TurnsBooked agent later.providerTurns ∧ ∃ record ∈ later.providerTurns,
      record.intent.identity = intent.identity ∧ record.intent.owner = reserved.owner ∧
      record.intent.branch = reserved.branchId ∧ record.status = .admitted ∧
      record.executions.map callOf = reply.calls := by
  rcases admit_split validated applied with
    ⟨before, record, after, split, named, branch, owner, status, same⟩
  have member : record ∈ state.providerTurns := by
    rw [split]
    simp
  have own : record.intent = intent := by
    rcases intended.recorded with ⟨other, present, rfl⟩
    have one : record = other :=
      List.inj_on_of_nodup_map validated.turns.unique member present named
    rw [one]
  constructor
  · intro next inside
    rw [same, List.mem_append, List.mem_cons] at inside
    rcases inside with old | rfl | old
    · exact turns next (by rw [split]; simp [old])
    · exact ⟨(turns record member).kind, fun _ => ⟨reply, sound, staged record member own status,
        map_callOf_executionsOf reply⟩⟩
    · exact turns next (by rw [split]; simp [old])
  · refine ⟨{ record with executions := executionsOf reply, status := .admitted }, ?_, named, owner,
      branch, rfl, map_callOf_executionsOf reply⟩
    rw [same]
    exact List.mem_append_right _ List.mem_cons_self

/-- The step of a process keeps its books. -/
theorem Advances.booked {phase : Phase} {later : World τ} {next : Process}
    (advances : Advances agent world reserved phase later next)
    (checked : Checked agent.checks world.state)
    (turns : TurnsBooked agent world.state.providerTurns)
    (booked : PhaseBooked agent world.state.providerTurns reserved phase) :
    TurnsBooked agent later.state.providerTurns ∧
      PhaseBooked agent later.state.providerTurns next.reserved next.phase := by
  have validated := checked.validated
  have framed := (advances.confined checked).framed
  cases advances with
  | stopped quiet cleared stops => exact ⟨turns.quiet validated quiet, stops.idle.booked⟩
  | resumed found =>
      rw [(state_of_resumed found).1]
      exact ⟨turns, preflightRequests_booked _ booked⟩
  | @recovered requests recovery state now recovers =>
      have quiet : Quiet agent.checks reserved.branchId reserved.owner world.state
          (recoverProviderTurns agent.checks world.state reserved now).2 :=
        recoverProviderTurns_quiet
      rw [recovers] at quiet
      exact ⟨turns.quiet validated quiet, (idle_resume requests recovery).phase.booked⟩
  | prepared => exact ⟨turns, trivial⟩
  | reduced settle => exact ⟨turns, settle.idle.phase.booked⟩
  | intended recorded =>
      rcases providerIntent_applied recorded with ⟨kind, intended, applied, _⟩
      refine ⟨turns.command validated applied (by simp) ?_, intended⟩
      intro intent same
      cases same
      exact kind
  | rejected quiet settle => exact ⟨turns.quiet validated quiet, settle.idle.phase.booked⟩
  | reissued quiet => exact ⟨turns.quiet validated quiet, trivial⟩
  | replied response check => exact ⟨turns, booked, sound_fromResponse check⟩
  | @staged asking attempt intent reply state now accepted =>
      rcases providerCommand_eq_ok accepted with ⟨applied, valid, _⟩
      refine ⟨turns.command validated applied (by simp) (by simp), booked.1.framed framed,
        booked.2, ?_⟩
      intro record member named status
      rcases stage_split validated applied with ⟨before, staged, after, split, identity, _, same⟩
      have unique := (validated_of_validate valid).turns.unique
      have inside : { staged with
          response := some (agent.codec.encode reply), status := .pending } ∈
            state.providerTurns := by
        rw [same]
        exact List.mem_append_right _ List.mem_cons_self
      have one := List.inj_on_of_nodup_map unique member inside (by rw [named, identity])
      rw [one]
  | @admitted asking attempt intent reply state now next accepted follow =>
      rcases providerCommand_eq_ok accepted with ⟨applied, _, _⟩
      rcases turns.admitReply validated booked.1 booked.2.1 booked.2.2 applied with ⟨later, engaged⟩
      refine ⟨later, ?_⟩
      cases follow with
      | settled settle => exact settle.idle.phase.booked
      | round waiting valid =>
          cases waiting
          exact ⟨engaged, booked.2.1⟩
  | begun renewed =>
      exact ⟨turns.quiet validated (renewLease_quiet renewed).1, Engaged.framed booked framed⟩
  | closed => exact ⟨turns, booked.admitted, booked.sound⟩
  | dispatched outcome known => exact ⟨turns, booked⟩
  | unknown outcome unknown => exact ⟨turns, booked⟩
  | recorded projection quiet =>
      have engaged := Engaged.framed booked framed
      exact ⟨turns.quiet validated quiet, engaged.admitted, engaged.sound⟩
  | refused quiet => exact ⟨turns.quiet validated quiet, Engaged.framed booked framed⟩
  | rounded => exact ⟨turns, booked⟩
  | @checkpointed work transcript ingest next state now exchanged persisted same =>
      rcases checkpointRounds_eq_ok persisted with ⟨_, _, _, _, _, applied, _⟩
      have unchanged : state.providerTurns = world.state.providerTurns :=
        applyEvent_turns applied (by simp)
      refine ⟨unchanged ▸ turns, ?_⟩
      rcases same with rfl | ⟨_, _, rfl⟩
      · exact (idle_afterRound work).phase.booked
      · trivial
  | finalized exchanged persisted =>
      rcases finalize_eq_ok persisted with rfl | ⟨_, _, _, _, applied, _⟩
      · exact ⟨turns, trivial⟩
      · exact ⟨applyEvent_turns applied (by simp) ▸ turns, trivial⟩
  | failed persisted =>
      rcases failBranch_eq_ok persisted with rfl | ⟨_, applied, _⟩
      · exact ⟨turns, trivial⟩
      · exact ⟨applyEvent_turns applied (by simp) ▸ turns, trivial⟩

end Own

section Requests

variable {τ : Type} [Recorded τ] {checks : Checks τ Continuation}
  {stored later : SessionState τ Continuation} {request : StartRequest} {owner : String}
  {now : UInt64} {reserved : ReservedRequest Continuation}

/-- A reservation is held under the token that was drawn for it. -/
theorem startRequest_owner
    (started : startRequest checks stored request owner now = .ok (reserved, later)) :
    reserved.owner = owner := by
  have fresh : ∀ {state : SessionState τ Continuation} {target parent retry prior},
      (do
        let pair ← pushNewBranch checks stored state target parent request.prompt
          ⟨owner, now, extendLease now⟩
        pure (makeReservation state pair.1 target retry prior, pair.2)) = .ok (reserved, later) →
      reserved.owner = owner := by
    intro state target parent retry prior pushed
    simp only [bind_eq_ok, pure_eq_ok, Prod.mk.injEq] at pushed
    rcases pushed with ⟨⟨branch, next⟩, pushed, rfl, rfl⟩
    rcases pushNewBranch_eq_ok pushed with ⟨_, _, _, _, _, held⟩
    exact held
  simp only [startRequest, bind_eq_ok] at started
  rcases started with ⟨state, _, current, _, target, _, decided⟩
  split at decided
  · simp only [reserveExisting] at decided
    split at decided
    · simp only [pure_eq_ok, Prod.mk.injEq] at decided
      rcases decided with ⟨rfl, rfl⟩
      rfl
    · exact fresh decided
    · simp only [reclaimPending, bind_eq_ok, reject_eq_ok, pure_eq_ok, Prod.mk.injEq] at decided
      rcases decided with ⟨_, _, next, _, rfl, rfl⟩
      rfl
  · exact fresh decided

omit [Recorded τ] in
/-- A branch after an event is held as before, or by the owner that the event
brings. -/
theorem holds_of_applyEvent {event : Event τ Continuation}
    (applied : applyEvent checks stored event = .ok later)
    (reserves : ∀ cwd cwdDev cwdIno branch seq,
      event = .branchReserved cwd cwdDev cwdIno branch seq → branch.owner = owner)
    (reclaims : ∀ branchId other, event.reclaims = some (branchId, other) → other = owner)
    {branchId other : String} (held : Holds later branchId other) :
    Holds stored branchId other ∨ other = owner := by
  rcases held with ⟨next, present, rfl⟩
  rcases applyEvent_cases applied with ⟨_, _, _, added, _, same, _, branches, _⟩ | stays
  · rw [SessionState.branch, branches, List.find?_append] at present
    cases found : stored.branches.find? (fun branch => branch.branchId = branchId) with
    | some branch =>
        rw [found, Option.some_or, Option.some.injEq] at present
        exact .inl ⟨branch, found, by rw [present]⟩
    | none =>
        rw [found, Option.none_or] at present
        have last := List.mem_singleton.mp (List.mem_of_find?_eq_some present)
        rw [last]
        exact .inr (reserves _ _ _ _ _ same)
  · rcases forall₂_find? stays.touched.flip (fun next branch touched => by
      rw [Touched.continued touched |>.branchId]) present with ⟨branch, found, touched⟩
    rcases Touched.owner touched with same | reclaimed
    · exact .inl ⟨branch, found, same.symm⟩
    · exact .inr (reclaims _ _ reclaimed)

/-- What a request leaves of the session. -/
theorem startRequest_effect
    (started : startRequest checks stored request owner now = .ok (reserved, later)) :
    later.providerTurns = stored.providerTurns ∧
      (later = stored ∨ later.validate checks = .ok ()) ∧
      ∀ branchId other, Holds later branchId other → Holds stored branchId other ∨ other = owner := by
  rcases startRequest_cases started with ⟨_, rfl⟩ |
    ⟨cwd, cwdDev, cwdIno, branch, seq, appended, held, _⟩ |
    ⟨prompt, reservedAt, leaseExpiry, appended, _⟩
  · exact ⟨rfl, .inl rfl, fun _ _ held => .inl held⟩
  · rcases appendEvent_eq_ok appended with ⟨applied, valid⟩
    refine ⟨applyEvent_turns applied (by simp), .inr valid, ?_⟩
    intro branchId other holds
    apply holds_of_applyEvent applied _ _ holds
    · intro _ _ _ _ _ same
      cases same
      exact held
    · intro _ _ same
      cases same
  · rcases appendEvent_eq_ok appended with ⟨applied, valid⟩
    refine ⟨applyEvent_turns applied (by simp), .inr valid, ?_⟩
    intro branchId other holds
    apply holds_of_applyEvent applied _ _ holds
    · intro _ _ _ _ _ same
      cases same
    · intro _ _ same
      cases same
      rfl

end Requests

section Worlds

variable {τ : Type} [Recorded τ] {agent : CodingAgent τ} {world : World τ} {drawn : List String}

/-- The books of a world, with the owner tokens that were drawn. -/
structure World.Booked (agent : CodingAgent τ) (drawn : List String) (world : World τ) : Prop where
  checked : Checked agent.checks world.state
  owners : (world.processes.map fun process => process.reserved.owner).Nodup
  processes : ∀ process ∈ world.processes, process.reserved.owner ∈ drawn
  holders : ∀ branchId owner, Holds world.state branchId owner → owner ∈ drawn
  records : ∀ record ∈ world.state.providerTurns, record.intent.owner ∈ drawn
  turns : TurnsBooked agent world.state.providerTurns
  phases : ∀ process ∈ world.processes,
    PhaseBooked agent world.state.providerTurns process.reserved process.phase

omit [Recorded τ] in
theorem World.booked_empty (sessionId : String) :
    World.Booked agent [] (World.empty sessionId : World τ) where
  checked := .inl ⟨sessionId, rfl⟩
  owners := .nil
  processes _ member := absurd member List.not_mem_nil
  holders := by
    rintro branchId owner ⟨branch, present, _⟩
    cases present
  records _ member := absurd member List.not_mem_nil
  turns _ member := absurd member List.not_mem_nil
  phases _ member := absurd member List.not_mem_nil

omit [Recorded τ] in
/-- Processes at different places have different owners. -/
theorem World.Booked.apart (booked : world.Booked agent drawn) {index : Nat}
    {process next other : Process} (found : world.processes[index]? = some process)
    (member : other ∈ world.processes.set index next) :
    other = next ∨ other ∈ world.processes ∧ process.reserved.owner ≠ other.reserved.owner := by
  rcases List.getElem?_of_mem member with ⟨place, present⟩
  rw [List.getElem?_set] at present
  split at present
  · split at present
    · exact .inl (Option.some.inj present).symm
    · cases present
  · rename_i other_ne
    refine .inr ⟨List.mem_of_getElem? present, ?_⟩
    intro same
    have bound : index < (world.processes.map fun process => process.reserved.owner).length := by
      rw [List.length_map]
      exact (List.getElem?_eq_some_iff.mp found).1
    apply other_ne
    apply (List.getElem?_inj bound booked.owners).mp
    rw [List.getElem?_map, List.getElem?_map, found, present, Option.map_some, Option.map_some, same]

/-- The step of a process keeps the books of the world. -/
theorem World.Booked.advance (booked : world.Booked agent drawn) {index : Nat}
    {process next : Process} {later : World τ} (found : world.processes[index]? = some process)
    (advances : Advances agent world process.reserved process.phase later next) :
    ({ later with processes := later.processes.set index next } : World τ).Booked agent
      drawn := by
  have member := List.mem_of_getElem? found
  have confined := advances.confined booked.checked
  rcases advances.booked booked.checked booked.turns (booked.phases process member) with
    ⟨turns, phase⟩
  have drawnOwner := booked.processes process member
  refine ⟨confined.checked, ?_, ?_, ?_, ?_, turns, ?_⟩
  · have same : (world.processes.set index next).map (fun process => process.reserved.owner) =
        world.processes.map fun process => process.reserved.owner := by
      apply List.ext_getElem?
      intro place
      rw [List.getElem?_map, List.getElem?_map, List.getElem?_set]
      split
      · rename_i here
        subst here
        rw [found, if_pos (List.getElem?_eq_some_iff.mp found).1, Option.map_some, Option.map_some,
          confined.owner]
      · rfl
    rw [confined.processes, same]
    exact booked.owners
  · intro other inside
    rw [confined.processes] at inside
    rcases booked.apart found inside with rfl | ⟨old, _⟩
    · rw [confined.owner]
      exact drawnOwner
    · exact booked.processes other old
  · intro branchId owner held
    exact booked.holders branchId owner ((confined.framed.holds branchId owner).mp held)
  · intro record inside
    rcases confined.framed.traced record inside with own | ⟨earlier, present, followed⟩
    · rw [own]
      exact drawnOwner
    · rw [followed.intent]
      exact booked.records earlier present
  · intro other inside
    rw [confined.processes] at inside
    rcases booked.apart found inside with rfl | ⟨old, apart⟩
    · exact phase
    · exact (booked.phases other old).framed confined.framed apart

theorem World.Booked.renew (booked : world.Booked agent drawn) {process : Process} {now : UInt64}
    {state : SessionState τ Continuation}
    (renewed : renewLease agent.checks world.state process.reserved now = .ok state) :
    ({ world with state := state } : World τ).Booked agent drawn := by
  simp only [renewLease, bind_eq_ok] at renewed
  rcases renewed with ⟨branch, _, appended⟩
  rcases appendEvent_eq_ok appended with ⟨applied, valid⟩
  have turns : state.providerTurns = world.state.providerTurns :=
    applyEvent_turns applied (by simp)
  have holds := holds_of_acting applied (by simp [Event.acting])
  refine ⟨.inr valid, booked.owners, booked.processes, ?_, ?_, ?_, ?_⟩
  · intro branchId owner held
    exact booked.holders branchId owner ((holds branchId owner).mp held)
  · exact turns ▸ booked.records
  · exact turns ▸ booked.turns
  · intro other member
    exact turns ▸ booked.phases other member

theorem World.Booked.start (booked : world.Booked agent drawn) {request : StartRequest}
    {owner : String} {now : UInt64} {reserved : ReservedRequest Continuation}
    {state : SessionState τ Continuation} (unused : owner ∉ drawn)
    (started : startRequest agent.checks world.state request owner now = .ok (reserved, state)) :
    ({ world with
      state := state
      processes := world.processes ++
        [⟨reserved, if reserved.replay then .ended else .preflight⟩] } : World τ).Booked
      agent (owner :: drawn) := by
  have named := startRequest_owner started
  rcases startRequest_effect started with ⟨turns, valid, holds⟩
  refine ⟨?_, ?_, ?_, ?_, ?_, ?_, ?_⟩
  · rcases valid with rfl | valid
    · exact booked.checked
    · exact .inr valid
  · rw [List.map_append, List.nodup_append]
    refine ⟨booked.owners, List.nodup_singleton _, ?_⟩
    intro old member other new same
    rcases List.mem_map.mp member with ⟨process, inside, rfl⟩
    rw [List.map_singleton, List.mem_singleton] at new
    apply unused
    rw [← named, ← new, ← same]
    exact booked.processes process inside
  · intro process member
    rcases List.mem_append.mp member with old | new
    · exact List.mem_cons_of_mem _ (booked.processes process old)
    · rw [List.mem_singleton.mp new, named]
      exact List.mem_cons_self
  · intro branchId other held
    rcases holds branchId other held with old | rfl
    · exact List.mem_cons_of_mem _ (booked.holders branchId other old)
    · exact List.mem_cons_self
  · intro record member
    rw [turns] at member
    exact List.mem_cons_of_mem _ (booked.records record member)
  · exact turns ▸ booked.turns
  · intro process member
    change PhaseBooked agent state.providerTurns _ _
    rw [turns]
    rcases List.mem_append.mp member with old | new
    · exact booked.phases process old
    · rw [List.mem_singleton.mp new]
      simp only
      split
      · trivial
      · intro record inside same
        rw [named] at same
        exact unused (same ▸ booked.records record inside)

omit [Recorded τ] in
/-- A token that was drawn in vain. -/
theorem World.Booked.refused (booked : world.Booked agent drawn) (owner : String) :
    world.Booked agent (owner :: drawn) where
  checked := booked.checked
  owners := booked.owners
  processes process member := List.mem_cons_of_mem _ (booked.processes process member)
  holders branchId other held := List.mem_cons_of_mem _ (booked.holders branchId other held)
  records record member := List.mem_cons_of_mem _ (booked.records record member)
  turns := booked.turns
  phases := booked.phases

theorem World.Booked.step (booked : world.Booked agent drawn) (action : Action)
    (unused : ∀ owner, action.drawn = some owner → owner ∉ drawn) :
    (world.step agent action).Booked agent (action.drawn.toList ++ drawn) := by
  cases action with
  | start request owner now =>
      simp only [World.step]
      split
      · exact booked.refused owner
      · rename_i reserved state started
        exact booked.start (unused owner rfl) started
  | renew index now =>
      simp only [World.step]
      split
      · exact booked
      · split
        · exact booked
        · rename_i renewed
          exact booked.renew renewed
  | advance index outside =>
      simp only [World.step]
      split
      · exact booked
      · rename_i process found
        exact booked.advance found (advances_advance process.phase)

/-- What the actions of a run keep, when each draws a token of its own, holds in
every world that it passes through. -/
theorem run_fresh {sessionId : String} {actions : List Action}
    (invariant : List String → World τ → Prop) (initial : invariant [] (World.empty sessionId))
    (preserved : ∀ before action, before ++ [action] <+: actions →
      invariant (before.filterMap Action.drawn).reverse
        (run (World.step agent) (World.empty sessionId) before) →
      (∀ owner, action.drawn = some owner → owner ∉ (before.filterMap Action.drawn).reverse) →
      invariant (action.drawn.toList ++ (before.filterMap Action.drawn).reverse)
        ((run (World.step agent) (World.empty sessionId) before).step agent action))
    (distinct : (actions.filterMap Action.drawn).Nodup) :
    ∀ reached, reached <+: actions → invariant (reached.filterMap Action.drawn).reverse
      (run (World.step agent) (World.empty sessionId) reached) := by
  intro reached
  induction reached using List.reverseRecOn with
  | nil => exact fun _ => initial
  | append_singleton before action ih =>
      intro isPrefix
      have drawnLast : ((before ++ [action]).filterMap Action.drawn).reverse =
          action.drawn.toList ++ (before.filterMap Action.drawn).reverse := by
        rw [List.filterMap_append, List.reverse_append]
        cases drawn : action.drawn <;> simp [drawn]
      rw [run_concat, drawnLast]
      apply preserved before action isPrefix (ih ((List.prefix_append _ _).trans isPrefix))
      intro owner drawn member
      have nodup := ((isPrefix.filterMap Action.drawn).sublist).nodup distinct
      rw [List.filterMap_append, List.nodup_append] at nodup
      rw [List.mem_reverse] at member
      have apart := nodup.2.2 owner member owner
      simp [drawn] at apart

end Worlds

end Llxprt.Agent
