import Llxprt.Agent.Budget
import Llxprt.Agent.Prompts
import Llxprt.Log.Replies

/-!
# One-command missions

The prompt of a mission names one shell command.  A reply is worked off only when
it is a call of that command and nothing else, and its result ends the turn, so a
reservation of the branch hands over one call at most.
-/

namespace Llxprt.Agent

open Llxprt.Kernel Llxprt.Kernel.Recorded Llxprt.Rust Llxprt.Gateway Llxprt.Log

variable {τ : Type}

/-- A call of the named shell command. -/
def IsNamed (agent : CodingAgent τ) (named : String) (call : ToolCall) : Prop :=
  call.name = "run_shell_command" ∧ agent.shellCommand call.argsJson = some named

/-- The entry is the only call of an admitted reply of its branch. -/
def Dispatch.Alone (turns : List TurnRecord) (entry : Dispatch) : Prop :=
  ∃ record ∈ turns, record.intent.identity = entry.identity ∧
    record.intent.branch = entry.branchId ∧ record.status = .admitted ∧
    record.executions.map callOf = [entry.call]

theorem Dispatch.Alone.framed {state later : SessionState τ Continuation} {owner : String}
    {entry : Dispatch} (alone : entry.Alone state.providerTurns)
    (framed : Framed owner state later) : entry.Alone later.providerTurns := by
  rcases alone with ⟨record, member, identity, branch, status, calls⟩
  rcases framed.kept record member with ⟨next, present, followed⟩
  rcases followed.admitted status with ⟨still, _, same⟩
  refine ⟨next, present, ?_, ?_, still, same.trans calls⟩
  · rw [followed.intent, identity]
  · rw [followed.intent, branch]

section Replies

variable {agent : CodingAgent τ} {named : String} {reply : LlmResult}

theorem isMissionReply_iff : isMissionReply agent named reply = true ↔
    ∃ call, reply.calls = [call] ∧ IsNamed agent named call ∧
      agent.checks.argsObject call.argsJson = true := by
  unfold isMissionReply IsNamed
  split
  · rename_i call single
    simp only [Bool.and_eq_true, decide_eq_true_eq]
    constructor
    · rintro ⟨⟨name, object⟩, command⟩
      exact ⟨call, single, ⟨name, command⟩, object⟩
    · rintro ⟨other, same, ⟨name, command⟩, object⟩
      rw [single, List.cons.injEq] at same
      rw [same.1]
      exact ⟨⟨name, object⟩, command⟩
  · rename_i many
    constructor
    · intro same
      cases same
    · rintro ⟨call, single, _⟩
      exact absurd single (many call)

variable {reserved : ReservedRequest Continuation} {identity : String} {attempt : AttemptState}
  {work : Work}

theorem working_startRound
    (works : (startRound agent reserved identity attempt reply).phase.working = some work) :
    work.reply = reply := by
  unfold startRound at works
  split at works
  · cases works
  · split at works
    · cases works
    · cases works
      rfl

theorem Phase.IsIdle.working {phase : Phase} (idle : phase.IsIdle) : phase.working = none := by
  cases phase with
  | preparing => rfl
  | completing => rfl
  | failing => rfl
  | ended => rfl
  | _ => cases idle

/-- A mission works off nothing but its command. -/
theorem commanded_workOff (mission : missionOf reserved = some named)
    (works : (workOff agent reserved identity attempt).phase.working = some work) :
    isMissionReply agent named work.reply = true := by
  unfold workOff at works
  rw [mission] at works
  cases waiting : attempt.current with
  | none =>
      rw [waiting] at works
      rw [(idle_resolveSummary attempt).phase.working] at works
      cases works
  | some reply =>
      rw [waiting] at works
      simp only at works
      split at works
      · rename_i commanded
        rw [working_startRound works]
        exact commanded
      · cases works

theorem commanded_afterReply {asking : Asking} (mission : missionOf reserved = some named)
    (works : (afterReply agent reserved asking attempt identity reply).phase.working = some work) :
    isMissionReply agent named work.reply = true := by
  unfold afterReply at works
  split at works
  · simp only at works
    split at works
    · exact commanded_workOff mission works
    · cases works
  · simp only at works
    split at works
    · exact commanded_workOff mission works
    · cases works
  · simp only at works
    split at works
    · cases works
    · split at works
      · cases works
      · split at works
        · cases works
        · cases works

end Replies

section Phases

/-- What a mission knows at its phase: a reply that is worked off is the named
command, and an attempt without rounds has used no calls. -/
def PhaseCommanded (agent : CodingAgent τ) (named : String) : Phase → Prop
  | .preparing _ attempt | .requesting _ attempt | .sending _ attempt _ | .staging _ attempt _ _
  | .admitting _ attempt _ _ => attempt.rounds = [] → attempt.usage.totalCalls = 0
  | .executing work _ | .dispatching work _ _ | .returned work _ _ _ | .refusing work _
  | .checkpointing work => isMissionReply agent named work.reply = true
  | .preflight | .recovering _ | .completing _ _ | .failing _ _ | .ended => True

/-- The turn ends without another call. -/
def Phase.IsLast : Phase → Prop
  | .completing _ _ | .failing _ _ | .ended => True
  | _ => False

/-- The call of a mission is behind the process or was given up. -/
def Phase.closes : Phase → Bool
  | .executing _ [] | .dispatching _ _ _ | .returned _ _ _ _ | .refusing _ _ | .checkpointing _
  | .completing _ _ | .failing _ _ | .ended => true
  | _ => false

variable {agent : CodingAgent τ} {named : String} {reserved : ReservedRequest Continuation}

theorem Phase.IsLast.commanded {phase : Phase} (last : phase.IsLast) :
    PhaseCommanded agent named phase := by
  cases phase with
  | completing => trivial
  | failing => trivial
  | ended => trivial
  | _ => cases last

theorem Phase.IsLast.closes {phase : Phase} (last : phase.IsLast) : phase.closes = true := by
  cases phase with
  | completing => rfl
  | failing => rfl
  | ended => rfl
  | _ => cases last

theorem Phase.IsStop.last {stop : Phase} (stops : stop.IsStop) : stop.IsLast := by
  cases stop with
  | failing => trivial
  | ended => trivial
  | _ => cases stops

/-- The round of a mission is its last one. -/
theorem last_afterRound {work : Work} (mission : missionOf reserved = some named) :
    (afterRound agent reserved work).phase.IsLast := by
  unfold afterRound
  rw [mission]
  simp only [endMission]
  split
  · trivial
  · rename_i call _
    generalize (if isBlankText call.resultLive = true then _ else _) = summary
    split
    · trivial
    · split
      · trivial
      · trivial

theorem Settle.commanded {attempt : AttemptState} {next : Process}
    (settle : Settle agent reserved attempt next)
    (unused : attempt.rounds = [] → attempt.usage.totalCalls = 0) :
    PhaseCommanded agent named next.phase := by
  cases settle with
  | failing => trivial
  | ended => trivial
  | completing => trivial
  | asking cleared asking derived =>
      intro none
      rw [derived.usage]
      apply unused
      rcases derived.rounds with same | ⟨_, _, _, grown⟩
      · exact same.symm.trans none
      · rw [grown] at none
        exact absurd none (List.append_ne_nil_of_right_ne_nil _ (List.cons_ne_nil _ _))

variable [Recorded τ] {world later : World τ} {phase : Phase} {next : Process}

/-- A mission works off an admitted reply only when it is the named command. -/
def WorksOff (agent : CodingAgent τ) (reserved : ReservedRequest Continuation) (phase next : Phase) :
    Prop :=
  ∀ named, missionOf reserved = some named → ∀ asking attempt intent reply work,
    phase = .admitting asking attempt intent reply → next.working = some work →
    isMissionReply agent named work.reply = true

/-- A step of a mission; what an admitted reply leads to is known from the reply. -/
theorem Advances.commanded (advances : Advances agent world reserved phase later next)
    (mission : missionOf reserved = some named) (commanded : PhaseCommanded agent named phase)
    (works : WorksOff agent reserved phase next.phase) :
    PhaseCommanded agent named next.phase := by
  cases advances with
  | stopped quiet cleared stops => exact stops.last.commanded
  | @resumed requests resumed found =>
      rcases @preflightRequests_cases _ agent reserved requests with
        ⟨kept, _, ⟨_, _, same⟩ | ⟨_, _, same⟩⟩ <;> rw [same] <;> trivial
  | @recovered requests recovery state now recovers =>
      rcases @resume_cases _ agent reserved requests recovery with ⟨_, _, settle⟩ |
        ⟨rounds, final, _, settle⟩ | same
      · exact settle.commanded fun _ => rfl
      · apply settle.commanded
        intro none
        have empty : rounds = [] := List.map_eq_nil_iff.mp none
        rw [empty]
        rfl
      · rw [same]
        trivial
  | prepared => exact commanded
  | reduced settle => exact settle.commanded commanded
  | intended intent => exact commanded
  | rejected quiet settle => exact settle.commanded commanded
  | reissued quiet => exact commanded
  | replied response check => exact commanded
  | staged accepted => exact commanded
  | admitted accepted follow =>
      cases follow with
      | settled settle => exact settle.commanded commanded
      | round waiting valid => exact works named mission _ _ _ _ _ rfl rfl
  | begun renewed => exact commanded
  | closed => exact commanded
  | dispatched outcome known => exact commanded
  | unknown outcome unknown => exact commanded
  | recorded projection quiet => exact commanded
  | refused quiet => exact commanded
  | rounded => exact commanded
  | checkpointed exchanged persisted same =>
      rcases same with rfl | ⟨_, _, rfl⟩
      · exact (last_afterRound mission).commanded
      · trivial
  | finalized exchanged persisted => trivial
  | failed persisted => trivial

/-- A mission whose call is behind it makes no other. -/
theorem Advances.closes (advances : Advances agent world reserved phase later next)
    (mission : missionOf reserved = some named)
    (single : ∀ work call waiting outcome, phase = .returned work call waiting outcome →
      waiting = []) (closes : phase.closes = true) : next.phase.closes = true := by
  cases advances with
  | stopped quiet cleared stops => exact stops.last.closes
  | resumed found => cases closes
  | recovered recovers => cases closes
  | prepared => cases closes
  | reduced settle => cases closes
  | intended intent => cases closes
  | rejected quiet settle => cases closes
  | reissued quiet => cases closes
  | replied response check => cases closes
  | staged accepted => cases closes
  | admitted accepted follow => cases closes
  | begun renewed => cases closes
  | closed => rfl
  | dispatched outcome known => rfl
  | unknown outcome unknown => rfl
  | recorded projection quiet =>
      rw [single _ _ _ _ rfl]
      rfl
  | refused quiet => rfl
  | rounded => rfl
  | checkpointed exchanged persisted same =>
      rcases same with rfl | ⟨_, _, rfl⟩
      · exact (last_afterRound mission).closes
      · rfl
  | finalized exchanged persisted => rfl
  | failed persisted => rfl

theorem worksOff_advance {outside : Outside} :
    WorksOff agent reserved phase (world.advance agent outside reserved phase).2.phase := by
  rintro named mission asking attempt intent reply work rfl works
  simp only [World.advance, World.commanded] at works
  split at works
  · cases works
  · simp only at works
    split at works
    · cases works
    · exact commanded_afterReply mission works

end Phases

section Prompts

theorem Cleared.prompt {reserved later : ReservedRequest Continuation}
    (cleared : Cleared reserved later) : later.prompt = reserved.prompt := by
  rcases cleared with rfl | rfl <;> rfl

theorem Settle.prompt {agent : CodingAgent τ} {reserved : ReservedRequest Continuation}
    {attempt : AttemptState} {next : Process} (settle : Settle agent reserved attempt next) :
    next.reserved.prompt = reserved.prompt := by
  cases settle with
  | failing cleared => exact cleared.prompt
  | ended => rfl
  | asking cleared => exact cleared.prompt
  | completing => rfl

variable [Recorded τ] {agent : CodingAgent τ}
  {world later : World τ} {reserved : ReservedRequest Continuation} {phase : Phase} {next : Process}

omit [Recorded τ] in
theorem Quiet.prompts {checks : Checks τ Continuation}
    {state last : SessionState τ Continuation} {branchId owner : String}
    (quiet : Quiet checks branchId owner state last) (target : String) :
    promptOf last target = promptOf state target := by
  induction quiet with
  | refl => rfl
  | event before quiet applied valid ih =>
      rw [promptOf_acting applied (by rw [quiet.acting]; simp), ih]

omit [Recorded τ] in
theorem prompt_resolveSummary (attempt : AttemptState) :
    (resolveSummary agent reserved attempt).reserved.prompt = reserved.prompt := by
  have forced : ∀ attempt : AttemptState,
      Settle agent reserved attempt (forcedSummary agent reserved attempt) :=
    fun attempt => settle_forcedSummary (.refl agent attempt)
  unfold resolveSummary
  split
  · exact (forced _).prompt
  · split
    · exact (forced _).prompt
    · split
      · rfl
      · split <;> rfl

omit [Recorded τ] in
theorem prompt_afterRound (work : Work) :
    (afterRound agent reserved work).reserved.prompt = reserved.prompt := by
  unfold afterRound
  split
  · unfold endMission
    split
    · rfl
    · simp only
      generalize (if isBlankText _ = true then _ else _) = summary
      split
      · rfl
      · split <;> rfl
  · split
    · exact (settle_ask (.refl agent work.attempt) .next).prompt
    · exact prompt_resolveSummary work.attempt

/-- A step changes neither a prompt of the session nor that of its reservation. -/
theorem Advances.prompts (advances : Advances agent world reserved phase later next) :
    (∀ target, promptOf later.state target = promptOf world.state target) ∧
      next.reserved.prompt = reserved.prompt := by
  cases advances with
  | stopped quiet cleared stops => exact ⟨quiet.prompts, cleared.prompt⟩
  | @resumed requests resumed found =>
      rcases @preflightRequests_cases _ agent reserved requests with ⟨kept, cleared, same⟩
      have reservation : (preflightRequests agent reserved requests).reserved = kept := by
        rcases same with ⟨_, _, same⟩ | ⟨_, _, same⟩ <;> rw [same]
      rw [(state_of_resumed found).1, reservation]
      exact ⟨fun _ => rfl, cleared.prompt⟩
  | @recovered requests recovery state now recovers =>
      have quiet : Quiet agent.checks reserved.branchId reserved.owner world.state
          (recoverProviderTurns agent.checks world.state reserved now).2 :=
        recoverProviderTurns_quiet
      rw [recovers] at quiet
      refine ⟨quiet.prompts, ?_⟩
      rcases @resume_cases _ agent reserved requests recovery with ⟨_, _, settle⟩ |
        ⟨rounds, final, _, settle⟩ | same
      · exact settle.prompt
      · exact settle.prompt
      · rw [same]
  | prepared => exact ⟨fun _ => rfl, rfl⟩
  | reduced settle => exact ⟨fun _ => rfl, settle.prompt⟩
  | intended recorded =>
      rcases providerIntent_applied recorded with ⟨_, _, applied, _⟩
      exact ⟨promptOf_acting applied (by simp [Event.acting]), rfl⟩
  | rejected quiet settle => exact ⟨quiet.prompts, settle.prompt⟩
  | reissued quiet => exact ⟨quiet.prompts, rfl⟩
  | replied response check => exact ⟨fun _ => rfl, rfl⟩
  | staged accepted =>
      have applied := (providerCommand_eq_ok accepted).1
      exact ⟨promptOf_acting applied (by simp [Event.acting]), rfl⟩
  | admitted accepted follow =>
      have applied := (providerCommand_eq_ok accepted).1
      refine ⟨promptOf_acting applied (by simp [Event.acting]), ?_⟩
      cases follow with
      | settled settle => exact settle.prompt
      | round => rfl
  | begun renewed => exact ⟨(renewLease_quiet renewed).1.prompts, rfl⟩
  | closed => exact ⟨fun _ => rfl, rfl⟩
  | dispatched outcome known => exact ⟨fun _ => rfl, rfl⟩
  | unknown outcome unknown => exact ⟨fun _ => rfl, rfl⟩
  | recorded projection quiet => exact ⟨quiet.prompts, rfl⟩
  | refused quiet => exact ⟨quiet.prompts, rfl⟩
  | rounded => exact ⟨fun _ => rfl, rfl⟩
  | checkpointed exchanged persisted same =>
      rcases checkpointRounds_eq_ok persisted with ⟨_, _, _, _, _, applied, _⟩
      refine ⟨promptOf_acting applied (by simp [Event.acting]), ?_⟩
      rcases same with rfl | ⟨_, _, rfl⟩
      · exact prompt_afterRound _
      · rfl
  | finalized exchanged persisted =>
      rcases finalize_eq_ok persisted with rfl | ⟨_, _, _, _, applied, _⟩
      · exact ⟨fun _ => rfl, rfl⟩
      · exact ⟨promptOf_acting applied (by simp [Event.acting]), rfl⟩
  | failed persisted =>
      rcases failBranch_eq_ok persisted with rfl | ⟨_, applied, _⟩
      · exact ⟨fun _ => rfl, rfl⟩
      · exact ⟨promptOf_acting applied (by simp [Event.acting]), rfl⟩

end Prompts

section Worlds

variable [Recorded τ] {agent : CodingAgent τ} {world : World τ}
  {drawn : List String} {branchId named : String}

/-- The process is of the branch and its call is behind it. -/
def Process.closes (branchId : String) (process : Process) : Bool :=
  process.reserved.branchId = branchId && process.phase.closes

/-- The prompt of the branch commands the shell command. -/
def SessionState.Commands (state : SessionState τ Continuation) (branchId named : String) : Prop :=
  ∃ prompt, promptOf state branchId = some prompt ∧ command prompt = .ok (some named)

/-- The missions of a world are in order. -/
structure World.Commanded (agent : CodingAgent τ) (world : World τ) : Prop where
  prompts : ∀ process ∈ world.processes,
    promptOf world.state process.reserved.branchId = some process.reserved.prompt
  phases : ∀ process ∈ world.processes, ∀ named, missionOf process.reserved = some named →
    PhaseCommanded agent named process.phase
  known : ∀ entry ∈ world.ledger, (promptOf world.state entry.branchId).isSome = true
  entries : ∀ entry ∈ world.ledger, ∀ named, SessionState.Commands world.state entry.branchId named →
    IsNamed agent named entry.call ∧ entry.Alone world.state.providerTurns
  counts : ∀ branchId named, SessionState.Commands world.state branchId named →
    countOn branchId world.ledger ≤ world.processes.countP (Process.closes branchId)

omit [Recorded τ] in
theorem missionOf_of_commands {reserved : ReservedRequest Continuation}
    {state : SessionState τ Continuation}
    (prompted : promptOf state reserved.branchId = some reserved.prompt)
    (commands : SessionState.Commands state reserved.branchId named) :
    missionOf reserved = some named := by
  rcases commands with ⟨prompt, held, commanded⟩
  rw [prompted, Option.some.injEq] at held
  rw [missionOf, held, commanded]

omit [Recorded τ] in
/-- A reply of a mission has one call, so none waits behind another one. -/
theorem waiting_of_traced {work : Work} {executed waiting : List ToolCall} {call : ToolCall}
    (traced : work.Traced agent executed (call :: waiting))
    (commanded : isMissionReply agent named work.reply = true) :
    waiting = [] ∧ work.reply.calls = [call] ∧ IsNamed agent named call := by
  rcases isMissionReply_iff.mp commanded with ⟨only, single, isNamed, _⟩
  have calls := traced.calls
  rw [single] at calls
  cases executed with
  | nil =>
      simp only [List.nil_append, List.cons_append, List.cons.injEq] at calls
      rcases calls with ⟨rfl, none⟩
      exact ⟨(List.append_eq_nil_iff.mp none.symm).1, single, isNamed⟩
  | cons first rest =>
      simp at calls

omit [Recorded τ] in
/-- How many processes meet a test after one of them was replaced. -/
theorem countP_set_of_found {processes : List Process} {index : Nat} {process : Process}
    (found : processes[index]? = some process) (next : Process) (test : Process → Bool) :
    (processes.set index next).countP test + (if test process = true then 1 else 0) =
      processes.countP test + if test next = true then 1 else 0 := by
  rcases List.getElem?_eq_some_iff.mp found with ⟨bound, rfl⟩
  have counted : (if test processes[index] = true then 1 else 0) ≤ processes.countP test :=
    List.boole_getElem_le_countP bound
  rw [List.countP_set bound]
  omega

section Steps

variable {process next : Process} {later : World τ}

omit [Recorded τ] in
/-- Nothing waits behind the call of a mission whose result is back. -/
theorem World.Commanded.single (commanded : world.Commanded agent) (ledgered : world.Ledgered agent)
    (member : process ∈ world.processes) (mission : missionOf process.reserved = some named)
    (work : Work) (call : ToolCall) (waiting : List ToolCall) (outcome : Bool × String)
    (here : process.phase = .returned work call waiting outcome) : waiting = [] := by
  have served := ledgered.served process member
  have replied := commanded.phases process member named mission
  rw [here] at served replied
  rcases served with ⟨executed, traced, _⟩
  exact (waiting_of_traced traced replied).1

omit [Recorded τ] in
/-- The call that a mission lets through is the only one of its reply, and the named
command. -/
theorem World.Commanded.begins (commanded : world.Commanded agent) (booked : world.Booked agent drawn)
    (ledgered : world.Ledgered agent) (member : process ∈ world.processes)
    (mission : missionOf process.reserved = some named) {work : Work} {call : ToolCall}
    {waiting : List ToolCall} (executing : process.phase = .executing work (call :: waiting)) :
    IsNamed agent named call ∧ Dispatch.Alone world.state.providerTurns
      ⟨process.reserved.branchId, work.identity, call⟩ := by
  have working : process.phase.working = some work := by
    rw [executing]
    rfl
  have served := ledgered.served process member
  have replied := commanded.phases process member named mission
  rw [executing] at served replied
  rcases served with ⟨executed, traced, _⟩
  rcases waiting_of_traced traced replied with ⟨_, single, isNamed⟩
  rcases (booked.engaged member working).admitted with ⟨record, present, own, _, branch, status, calls⟩
  exact ⟨isNamed, record, present, own, branch, status, calls.trans single⟩

/-- What is commanded after a step was commanded before it. -/
theorem Advances.commands
    (advances : Advances agent world process.reserved process.phase later next) {branchId : String}
    (commands : SessionState.Commands later.state branchId named) :
    SessionState.Commands world.state branchId named := by
  rcases commands with ⟨text, held, same⟩
  exact ⟨text, (advances.prompts.1 branchId).symm.trans held, same⟩

/-- A branch has no more entries than processes whose call is behind them. -/
theorem World.Commanded.counts_advance (commanded : world.Commanded agent)
    (ledgered : world.Ledgered agent) {index : Nat} {entries : List Dispatch}
    (found : world.processes[index]? = some process)
    (advances : Advances agent world process.reserved process.phase later next)
    (branch : next.reserved.branchId = process.reserved.branchId)
    (spent : LedgerStep world process next entries) {branchId : String}
    (before : SessionState.Commands world.state branchId named) :
    countOn branchId entries ≤
      (world.processes.set index next).countP (Process.closes branchId) := by
  have member := List.mem_of_getElem? found
  have old := commanded.counts branchId named before
  have replaced := countP_set_of_found found next (Process.closes branchId)
  cases spent with
  | @begun work call waiting _ executing holds grown =>
      have open_ : process.closes branchId = false := by
        rw [Process.closes, executing]
        exact Bool.and_false _
      have closed : Process.closes branchId ⟨process.reserved, .dispatching work call waiting⟩ =
          decide (process.reserved.branchId = branchId) := Bool.and_true _
      rw [open_, closed] at replaced
      rw [countOn_perm grown, countOn_cons]
      simp only [Bool.false_eq_true, if_false, decide_eq_true_eq] at replaced
      change countOn branchId world.ledger + (if process.reserved.branchId = branchId then 1 else 0) ≤ _
      omega
  | kept within none =>
      have kept : process.closes branchId = true → next.closes branchId = true := by
        simp only [Process.closes, Bool.and_eq_true, decide_eq_true_eq]
        rintro ⟨same, closes⟩
        rw [branch]
        refine ⟨same, ?_⟩
        subst same
        have mission := missionOf_of_commands (commanded.prompts process member) before
        exact advances.closes mission (commanded.single ledgered member mission) closes
      have fewer := countOn_le_of_subperm within branchId
      split at replaced
      · rename_i closes
        rw [if_pos (kept closes)] at replaced
        omega
      · split at replaced <;> omega

/-- A step of a process keeps the missions. -/
theorem World.Commanded.advance (commanded : world.Commanded agent)
    (booked : world.Booked agent drawn) (ledgered : world.Ledgered agent) {index : Nat}
    (found : world.processes[index]? = some process)
    (advances : Advances agent world process.reserved process.phase later next)
    (works : WorksOff agent process.reserved process.phase next.phase) :
    ({ later with processes := later.processes.set index next } : World τ).Commanded agent := by
  have member := List.mem_of_getElem? found
  have confined := advances.confined booked.checked
  rcases advances.prompts with ⟨prompts, prompt⟩
  have mission : missionOf next.reserved = missionOf process.reserved := by
    rw [missionOf, prompt]
    rfl
  have spent := advances.ledger found confined.processes
  generalize ledger : ({ later with processes := later.processes.set index next } :
    World τ).ledger = entries at spent
  constructor
  · intro other inside
    rw [confined.processes] at inside
    rw [prompts]
    rcases booked.apart found inside with rfl | ⟨old, _⟩
    · rw [confined.branchId, prompt]
      exact commanded.prompts process member
    · exact commanded.prompts other old
  · intro other inside named commanding
    rw [confined.processes] at inside
    rcases booked.apart found inside with rfl | ⟨old, _⟩
    · rw [mission] at commanding
      exact advances.commanded commanding (commanded.phases process member named commanding) works
    · exact commanded.phases other old named commanding
  · rw [ledger]
    intro entry inside
    change (promptOf later.state entry.branchId).isSome = true
    rw [prompts]
    rcases spent.mem entry inside with old | ⟨work, call, waiting, _, _, rfl⟩
    · exact commanded.known entry old
    · rw [commanded.prompts process member]
      rfl
  · rw [ledger]
    intro entry inside named commanding
    have before := advances.commands commanding
    have old : IsNamed agent named entry.call ∧ entry.Alone world.state.providerTurns := by
      rcases spent.mem entry inside with old | ⟨work, call, waiting, _, executing, rfl⟩
      · exact commanded.entries entry old named before
      · exact commanded.begins booked ledgered member
          (missionOf_of_commands (commanded.prompts process member) before) executing
    exact ⟨old.1, old.2.framed confined.framed⟩
  · rw [ledger]
    intro branchId named commanding
    change countOn branchId entries ≤ (later.processes.set index next).countP _
    rw [confined.processes]
    exact commanded.counts_advance ledgered found advances confined.branchId spent
      (advances.commands commanding)

end Steps

omit [Recorded τ] in
/-- A branch that commands something was there before, or nothing is on its ledger. -/
theorem World.Commanded.commands_cases (commanded : world.Commanded agent)
    {state : SessionState τ Continuation}
    (kept : ∀ target prompt, promptOf world.state target = some prompt →
      promptOf state target = some prompt)
    (commands : SessionState.Commands state branchId named) :
    SessionState.Commands world.state branchId named ∨ countOn branchId world.ledger = 0 := by
  rcases commands with ⟨prompt, held, same⟩
  cases known : promptOf world.state branchId with
  | some earlier =>
      rw [kept _ _ known, Option.some.injEq] at held
      exact .inl ⟨earlier, known, held ▸ same⟩
  | none =>
      right
      rw [countOn, List.countP_eq_zero]
      intro entry member here
      have listed := commanded.known entry member
      rw [of_decide_eq_true here, known] at listed
      cases listed

omit [Recorded τ] in
/-- Processes that have not begun anything add nothing to the ledger. -/
theorem ledger_join {state : SessionState τ Continuation} {fresh : List Process}
    (idle : ∀ process ∈ fresh, process.phase = .preflight ∨ process.phase = .ended) :
    ({ world with state := state, processes := world.processes ++ fresh } :
      World τ).ledger = world.ledger := by
  have none : fresh.filterMap Process.begun = [] := by
    rw [List.filterMap_eq_nil_iff]
    rintro ⟨reserved, phase⟩ member
    rcases idle _ member with same | same
    · rw [Process.begun, same]
    · rw [Process.begun, same]
  simp only [World.ledger, List.filterMap_append, none, List.append_nil]

omit [Recorded τ] in
/-- Processes that have not begun anything join a session that keeps its prompts. -/
theorem World.Commanded.join (commanded : world.Commanded agent)
    {state : SessionState τ Continuation} {fresh : List Process}
    (turns : state.providerTurns = world.state.providerTurns)
    (kept : ∀ target prompt, promptOf world.state target = some prompt →
      promptOf state target = some prompt)
    (joins : ∀ process ∈ fresh, (process.phase = .preflight ∨ process.phase = .ended) ∧
      promptOf state process.reserved.branchId = some process.reserved.prompt) :
    ({ world with state := state, processes := world.processes ++ fresh } :
      World τ).Commanded agent := by
  have ledger : ({ world with state := state, processes := world.processes ++ fresh } :
      World τ).ledger = world.ledger :=
    ledger_join fun process member => (joins process member).1
  constructor
  · intro process member
    rcases List.mem_append.mp member with old | new
    · exact kept _ _ (commanded.prompts process old)
    · exact (joins process new).2
  · intro process member named mission
    rcases List.mem_append.mp member with old | new
    · exact commanded.phases process old named mission
    · rcases (joins process new).1 with same | same <;> rw [same] <;> trivial
  · rw [ledger]
    intro entry member
    rcases Option.isSome_iff_exists.mp (commanded.known entry member) with ⟨prompt, before⟩
    rw [kept _ _ before]
    rfl
  · rw [ledger]
    intro entry member named commands
    change IsNamed agent named entry.call ∧ entry.Alone state.providerTurns
    rw [turns]
    rcases commanded.commands_cases kept commands with before | none
    · exact commanded.entries entry member named before
    · rw [countOn, List.countP_eq_zero] at none
      exact absurd (decide_eq_true rfl) (none entry member)
  · rw [ledger]
    intro branchId named commands
    rw [List.countP_append]
    rcases commanded.commands_cases kept commands with before | none
    · exact (commanded.counts branchId named before).trans (Nat.le_add_right _ _)
    · rw [none]
      exact Nat.zero_le _

theorem World.Commanded.step (commanded : world.Commanded agent) (booked : world.Booked agent drawn)
    (ledgered : world.Ledgered agent) (action : Action) : (world.step agent action).Commanded agent
    := by
  cases action with
  | start request owner now =>
      simp only [World.step]
      split
      · exact commanded
      · rename_i reserved state started
        rcases startRequest_prompt booked.checked.validated.ids started with ⟨prompted, kept⟩
        apply commanded.join (startRequest_effect started).1 kept
        intro process member
        rw [List.mem_singleton.mp member]
        refine ⟨?_, prompted⟩
        simp only
        split
        · exact .inr rfl
        · exact .inl rfl
  | renew index now =>
      simp only [World.step]
      split
      · exact commanded
      · split
        · exact commanded
        · rename_i process _ state renewed
          have quiet := (renewLease_quiet renewed).1
          simp only [renewLease, bind_eq_ok] at renewed
          rcases renewed with ⟨branch, _, appended⟩
          have turns : state.providerTurns = world.state.providerTurns :=
            applyEvent_turns (appendEvent_eq_ok appended).1 (by simp)
          have joined := @World.Commanded.join _ agent world commanded state [] turns
            (fun target prompt known => (quiet.prompts target).trans known)
            (fun _ member => absurd member List.not_mem_nil)
          rw [List.append_nil] at joined
          exact joined
  | advance index outside =>
      simp only [World.step]
      split
      · exact commanded
      · rename_i process found
        exact commanded.advance booked ledgered found (advances_advance process.phase) worksOff_advance

omit [Recorded τ] in
theorem World.commanded_empty (sessionId : String) :
    (World.empty sessionId : World τ).Commanded agent where
  prompts _ member := absurd member List.not_mem_nil
  phases _ member := absurd member List.not_mem_nil
  known _ member := absurd member List.not_mem_nil
  entries _ member := absurd member List.not_mem_nil
  counts _ _ _ := Nat.zero_le _

/-- The orders of a world are kept in every world that a run passes through. -/
theorem commanded_run {sessionId : String} {actions : List Action}
    (distinct : (actions.filterMap Action.drawn).Nodup) :
    ∀ reached, reached <+: actions →
      (run (World.step agent) (World.empty sessionId) reached).Booked agent
        (reached.filterMap Action.drawn).reverse ∧
      (run (World.step agent) (World.empty sessionId) reached).Ledgered agent ∧
      (run (World.step agent) (World.empty sessionId) reached).Commanded agent := by
  apply run_fresh (fun drawn world => world.Booked agent drawn ∧ world.Ledgered agent ∧
    world.Commanded agent) ⟨World.booked_empty sessionId, World.ledgered_empty sessionId,
      World.commanded_empty sessionId⟩ _ distinct
  rintro before action _ ⟨booked, ledgered, commanded⟩ unused
  exact ⟨booked.step action unused, ledgered.step booked action unused,
    commanded.step booked ledgered action⟩

/-- Whatever providers, tools, crashes and reclaims do: what is handed over for a
mission is its command, each time as the only call of a reply, and at most once by
each reservation of the branch. -/
theorem mission_of_run (agent : CodingAgent τ) (sessionId : String)
    (actions : List Action) (distinct : (actions.filterMap Action.drawn).Nodup) :
    let world := run (World.step agent) (World.empty sessionId) actions
    ∀ branchId named, SessionState.Commands world.state branchId named →
      (∀ entry ∈ world.dispatched, entry.branchId = branchId →
        IsNamed agent named entry.call ∧ entry.Alone world.state.providerTurns) ∧
      countOn branchId world.dispatched ≤
        world.processes.countP fun process => process.reserved.branchId = branchId := by
  intro world branchId named commands
  rcases @commanded_run _ _ agent sessionId actions distinct actions List.prefix_rfl with
    ⟨_, _, commanded⟩
  have within : world.dispatched.Sublist world.ledger := List.sublist_append_right _ _
  constructor
  · intro entry member same
    exact commanded.entries entry (within.subset member) named (same ▸ commands)
  · calc
      countOn branchId world.dispatched ≤ countOn branchId world.ledger :=
        countOn_le_of_subperm within.subperm branchId
      _ ≤ world.processes.countP (Process.closes branchId) :=
        commanded.counts branchId named commands
      _ ≤ world.processes.countP fun process => process.reserved.branchId = branchId := by
        apply List.countP_mono_left
        intro process _ closes
        exact (Bool.and_eq_true _ _ ▸ closes).1

end Worlds

section Once

/-- A call that waits is the first one of the turn. -/
def Phase.Unspent : Phase → Prop
  | .executing work (_ :: _) => work.attempt.usage.totalCalls = 0
  | _ => True

theorem Phase.IsIdle.unspent {phase : Phase} (idle : phase.IsIdle) : phase.Unspent := by
  cases phase with
  | executing => cases idle
  | _ => trivial

/-- The named command is admitted only to attempts that have recovered no rounds. -/
def World.FirstHand (agent : CodingAgent τ) (world : World τ) : Action → Prop
  | .advance index _ => ∀ process named asking attempt intent reply,
      world.processes[index]? = some process →
      process.phase = .admitting asking attempt intent reply →
      missionOf process.reserved = some named → isMissionReply agent named reply = true →
      attempt.rounds = []
  | _ => True

/-- No mission of the world has more than one call on the ledger. -/
structure World.Once (world : World τ) : Prop where
  unspent : ∀ process ∈ world.processes, ∀ named, missionOf process.reserved = some named →
    process.phase.Unspent
  once : ∀ branchId named, SessionState.Commands world.state branchId named →
    countOn branchId world.ledger ≤ 1

variable [Recorded τ] {agent : CodingAgent τ} {world : World τ} {drawn : List String}

theorem Advances.unspent {named : String} {later : World τ}
    {reserved : ReservedRequest Continuation} {phase : Phase} {next : Process}
    (advances : Advances agent world reserved phase later next)
    (mission : missionOf reserved = some named) (commanded : PhaseCommanded agent named phase)
    (works : WorksOff agent reserved phase next.phase)
    (single : ∀ work call waiting outcome, phase = .returned work call waiting outcome →
      waiting = [])
    (firstHand : ∀ asking attempt intent reply, phase = .admitting asking attempt intent reply →
      isMissionReply agent named reply = true → attempt.rounds = []) : next.phase.Unspent := by
  cases advances with
  | stopped quiet cleared stops => exact stops.idle.unspent
  | @resumed requests resumed found =>
      rcases @preflightRequests_cases _ agent reserved requests with
        ⟨kept, _, ⟨_, _, same⟩ | ⟨_, _, same⟩⟩ <;> rw [same] <;> trivial
  | recovered recovers => exact (idle_resume _ _).phase.unspent
  | reduced settle => exact settle.idle.phase.unspent
  | rejected quiet settle => exact settle.idle.phase.unspent
  | @admitted asking attempt intent reply state now next accepted follow =>
      cases follow with
      | settled settle => exact settle.idle.phase.unspent
      | @round worked_ ids waiting valid =>
          have replied := works named mission _ _ _ _ _ rfl rfl
          cases waiting
          have fresh := firstHand _ _ _ _ rfl replied
          have none : attempt.usage.totalCalls = 0 := commanded fresh
          generalize (splitOverBudget agent.maxToolCalls _ _).1 = calls
          cases calls with
          | nil => trivial
          | cons call rest => exact none
  | recorded projection quiet =>
      rw [single _ _ _ _ rfl]
      trivial
  | checkpointed exchanged persisted same =>
      rcases same with rfl | ⟨_, _, rfl⟩
      · exact (idle_afterRound _).phase.unspent
      · trivial
  | prepared => trivial
  | intended intent => trivial
  | reissued quiet => trivial
  | replied response check => trivial
  | staged accepted => trivial
  | begun renewed => trivial
  | closed => trivial
  | dispatched outcome known => trivial
  | unknown outcome unknown => trivial
  | refused quiet => trivial
  | rounded => trivial
  | finalized exchanged persisted => trivial
  | failed persisted => trivial

theorem World.Once.advance (once : world.Once) (commanded : world.Commanded agent)
    (booked : world.Booked agent drawn) (ledgered : world.Ledgered agent) {index : Nat}
    {process next : Process} {later : World τ} (outside : Outside)
    (found : world.processes[index]? = some process)
    (advances : Advances agent world process.reserved process.phase later next)
    (works : WorksOff agent process.reserved process.phase next.phase)
    (firstHand : world.FirstHand agent (.advance index outside)) :
    ({ later with processes := later.processes.set index next } : World τ).Once := by
  have member := List.mem_of_getElem? found
  have confined := advances.confined booked.checked
  constructor
  · intro other inside named mission
    rw [confined.processes] at inside
    rcases booked.apart found inside with rfl | ⟨old, _⟩
    · rw [missionOf, advances.prompts.2] at mission
      apply advances.unspent mission (commanded.phases process member named mission) works
        (commanded.single ledgered member mission)
      intro asking attempt intent reply here replied
      exact firstHand process named asking attempt intent reply found here mission replied
    · exact once.unspent other old named mission
  · intro branchId named commands
    have before := advances.commands commands
    have old := once.once branchId named before
    have spent := advances.ledger found confined.processes
    generalize ({ later with processes := later.processes.set index next } :
      World τ).ledger = entries at spent ⊢
    cases spent with
    | begun executing holds grown =>
        rw [countOn_perm grown, countOn_cons]
        split
        · rename_i here
          change process.reserved.branchId = branchId at here
          subst here
          have mission := missionOf_of_commands (commanded.prompts process member) before
          have unspent := once.unspent process member named mission
          have counted := ledgered.counted process member
          rw [executing] at unspent counted
          have none : countOn process.reserved.branchId world.ledger ≤ 0 :=
            (counted.1 holds).trans (Nat.le_of_eq unspent)
          exact Nat.succ_le_succ none
        · exact old
    | kept within none => exact (countOn_le_of_subperm within branchId).trans old

omit [Recorded τ] in
theorem World.Once.join (once : world.Once) (commanded : world.Commanded agent)
    {state : SessionState τ Continuation} {fresh : List Process}
    (kept : ∀ target prompt, promptOf world.state target = some prompt →
      promptOf state target = some prompt)
    (idle : ∀ process ∈ fresh, process.phase = .preflight ∨ process.phase = .ended) :
    ({ world with state := state, processes := world.processes ++ fresh } : World τ).Once
    where
  unspent process member named mission := by
    rcases List.mem_append.mp member with old | new
    · exact once.unspent process old named mission
    · rcases idle process new with same | same <;> rw [same] <;> trivial
  once branchId named commands := by
    rw [ledger_join idle]
    rcases commanded.commands_cases kept commands with before | none
    · exact once.once branchId named before
    · rw [none]
      exact Nat.zero_le _

theorem World.Once.step (once : world.Once) (commanded : world.Commanded agent)
    (booked : world.Booked agent drawn) (ledgered : world.Ledgered agent) (action : Action)
    (firstHand : world.FirstHand agent action) : (world.step agent action).Once := by
  cases action with
  | start request owner now =>
      simp only [World.step]
      split
      · exact once
      · rename_i reserved state started
        apply once.join commanded (startRequest_prompt booked.checked.validated.ids started).2
        intro process member
        rw [List.mem_singleton.mp member]
        simp only
        split
        · exact .inr rfl
        · exact .inl rfl
  | renew index now =>
      simp only [World.step]
      split
      · exact once
      · split
        · exact once
        · rename_i process _ state renewed
          have quiet := (renewLease_quiet renewed).1
          have joined := @World.Once.join _ agent world once commanded state []
            (fun target prompt known => (quiet.prompts target).trans known)
            (fun _ member => absurd member List.not_mem_nil)
          rw [List.append_nil] at joined
          exact joined
  | advance index outside =>
      simp only [World.step]
      split
      · exact once
      · rename_i process found
        exact once.advance commanded booked ledgered outside found (advances_advance process.phase)
          worksOff_advance firstHand

/-- A mission hands over one call in all, whatever crashes and reclaims there are,
as long as no owner that has recovered rounds is answered with the command again. -/
theorem mission_once_of_run (agent : CodingAgent τ) (sessionId : String)
    (actions : List Action) (distinct : (actions.filterMap Action.drawn).Nodup)
    (firstHand : ∀ before action, before ++ [action] <+: actions →
      (run (World.step agent) (World.empty sessionId) before).FirstHand agent action) :
    let world := run (World.step agent) (World.empty sessionId) actions
    ∀ branchId named, SessionState.Commands world.state branchId named →
      countOn branchId world.dispatched ≤ 1 := by
  intro world branchId named commands
  have kept : ∀ reached, reached <+: actions →
      (run (World.step agent) (World.empty sessionId) reached).Once := by
    intro reached
    induction reached using List.reverseRecOn with
    | nil =>
        intro _
        constructor
        · exact fun _ member => absurd member List.not_mem_nil
        · exact fun _ _ _ => Nat.zero_le _
    | append_singleton before action ih =>
        intro isPrefix
        have earlier := (List.prefix_append before [action]).trans isPrefix
        rcases @commanded_run _ _ agent sessionId actions distinct before earlier with
          ⟨booked, ledgered, commanded⟩
        rw [run_concat]
        exact (ih earlier).step commanded booked ledgered action (firstHand before action isPrefix)
  have within : world.dispatched.Sublist world.ledger := List.sublist_append_right _ _
  exact (countOn_le_of_subperm within.subperm branchId).trans
    ((kept actions List.prefix_rfl).once branchId named commands)

end Once

section Samples

/-- The call of the named command. -/
def missionResponse : ModelResponse :=
  ⟨[.toolCall ⟨"run_shell_command", "\x7b\x7d", some "call"⟩], some .toolCall, none⟩

/-- An agent whose shell is asked for `true`. -/
def missionAgent : CodingAgent Unit :=
  { sampleAgent with
    allowShell := true
    shellCommand := fun _ => some "true"
    codec := sampleCodec [.fromResponse id none missionResponse] }

def missionRequest : StartRequest :=
  { sampleRequest with prompt := "Run exactly one shell command: `true`" }

/-- The first owner is answered with the command, hands it over and crashes; after
its lease a second owner reclaims the branch and recovers the round. -/
def missionActions : List Action :=
  .start missionRequest "first" 1 ::
    List.replicate 9 (.advance 0 (sampleOutside missionResponse)) ++
  .start missionRequest "second" 4000 ::
    List.replicate 2 (.advance 1 { sampleOutside missionResponse with now := 4001 })

/-- No process is about to record a reply behind the rounds of an attempt. -/
def admitsFirst (world : World Unit) : Bool :=
  world.processes.all fun process =>
    match process.phase with
    | .admitting _ attempt _ _ => attempt.rounds.isEmpty
    | _ => true

/-- No world of the run records a reply behind other rounds. -/
def runsFirst (step : World Unit → Action → World Unit) : World Unit → List Action → Bool
  | _, [] => true
  | world, action :: rest => admitsFirst world && runsFirst step (step world action) rest

theorem firstHand_of_runsFirst {agent : CodingAgent Unit} {world : World Unit}
    {actions : List Action} (first : runsFirst (World.step agent) world actions = true) :
    ∀ before action, before ++ [action] <+: actions →
      (run (World.step agent) world before).FirstHand agent action := by
  induction actions generalizing world with
  | nil => exact forall_steps_nil
  | cons action rest ih =>
      rw [runsFirst, Bool.and_eq_true] at first
      refine forall_steps_cons ?_ (ih first.2)
      cases action with
      | start => trivial
      | renew => trivial
      | advance index outside =>
          intro process named asking attempt intent reply found phase _ _
          have admits := List.all_eq_true.mp first.1 process (List.mem_of_getElem? found)
          rw [phase] at admits
          exact List.isEmpty_iff.mp admits

/-- What is computed about the run: which owner holds the branch in the end, and
what was handed over for it. -/
theorem computed_mission :
    let world := run (World.step missionAgent) (World.empty "session") missionActions
    runsFirst (World.step missionAgent) (World.empty "session") missionActions = true ∧
      world.state.branches.map (fun branch => (branch.branchId, branch.owner)) =
        [("b1", "second")] ∧
      world.dispatched.map Dispatch.branchId = ["b1"] ∧
      promptOf world.state "b1" = some missionRequest.prompt := by
  -- the appends are all that is not computed as it is written
  delta World.step World.advance World.gatewayRound World.sendRound World.commanded
    World.admitCall World.recordCall providerIntent providerCommand recoverProviderTurns
    appendCommand renewLease startRequest reserveExisting reserveFresh reclaimPending reserveRetry
    pushNewBranch
  simp only [appendEvent_eq_quickly]
  decide +kernel

theorem mission_of_run_sample :
    let world := run (World.step missionAgent) (World.empty "session") missionActions
    world.dispatched.map Dispatch.branchId = ["b1"] ∧
    SessionState.Commands world.state "b1" "true" ∧
    ∀ branchId named, SessionState.Commands world.state branchId named →
      (∀ entry ∈ world.dispatched, entry.branchId = branchId →
        IsNamed missionAgent named entry.call ∧ entry.Alone world.state.providerTurns) ∧
      countOn branchId world.dispatched ≤
        world.processes.countP fun process => process.reserved.branchId = branchId :=
  ⟨computed_mission.2.2.1, ⟨_, computed_mission.2.2.2, by decide⟩,
    mission_of_run missionAgent "session" missionActions (by decide)⟩

theorem mission_once_of_run_sample :
    let world := run (World.step missionAgent) (World.empty "session") missionActions
    world.state.branches.map (fun branch => (branch.branchId, branch.owner)) =
      [("b1", "second")] ∧
    world.dispatched.map Dispatch.branchId = ["b1"] ∧
    (∀ before action, before ++ [action] <+: missionActions →
      (run (World.step missionAgent) (World.empty "session") before).FirstHand missionAgent
        action) ∧
    ∀ branchId named, SessionState.Commands world.state branchId named →
      countOn branchId world.dispatched ≤ 1 := by
  rcases computed_mission with ⟨first, owner, dispatched, _⟩
  have firstHand := firstHand_of_runsFirst first
  exact ⟨owner, dispatched, firstHand,
    mission_once_of_run missionAgent "session" missionActions (by decide) firstHand⟩

end Samples

end Llxprt.Agent
