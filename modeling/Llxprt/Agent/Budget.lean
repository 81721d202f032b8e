import Llxprt.Agent.Rounds
import Mathlib.Data.List.Perm.Subperm

/-!
# The tool-call budget of a branch

A call that was let through to its executor is on the ledger whether the process
has handed it over or not, so a process that lost its branch cannot spend what a
later owner has counted.  Every entry is a recorded call, and a fresh owner counts
all recorded calls as used.
-/

namespace Llxprt.Agent

open Llxprt.Kernel Llxprt.Kernel.Recorded Llxprt.Rust Llxprt.Gateway Llxprt.Log

variable {τ : Type}

/-- The call that a process is about to hand over. -/
def Process.begun (process : Process) : Option Dispatch :=
  match process.phase with
  | .dispatching work call _ => some ⟨process.reserved.branchId, work.identity, call⟩
  | _ => none

/-- The calls that were handed over or are about to be. -/
def World.ledger (world : World τ) : List Dispatch :=
  world.processes.filterMap Process.begun ++ world.dispatched

/-- A call by the reply it is of. -/
def Dispatch.key (entry : Dispatch) : String × String :=
  (entry.identity, entry.call.id)

def countOn (branchId : String) (entries : List Dispatch) : Nat :=
  entries.countP fun entry => entry.branchId = branchId

section Recorded

/-- The recorded calls of a branch with the identities of their replies. -/
def recordedCalls (turns : List TurnRecord) (branchId : String) : List (String × ToolCall) :=
  (turns.filter fun record => record.intent.branch = branchId ∧ record.status = .admitted).flatMap
    fun record => (record.executions.map callOf).map fun call => (record.intent.identity, call)

/-- The entry is a recorded call of its branch. -/
def Dispatch.Recorded (turns : List TurnRecord) (entry : Dispatch) : Prop :=
  ∃ record ∈ turns, record.intent.identity = entry.identity ∧
    record.intent.branch = entry.branchId ∧ record.status = .admitted ∧
    entry.call ∈ record.executions.map callOf

theorem Dispatch.Recorded.mem {turns : List TurnRecord} {entry : Dispatch}
    (recorded : entry.Recorded turns) :
    (entry.identity, entry.call) ∈ recordedCalls turns entry.branchId := by
  rcases recorded with ⟨record, member, identity, branch, status, listed⟩
  rw [recordedCalls, List.mem_flatMap]
  refine ⟨record, ?_, ?_⟩
  · rw [List.mem_filter]
    exact ⟨member, decide_eq_true ⟨branch, status⟩⟩
  · rw [← identity]
    exact List.mem_map_of_mem listed

theorem Dispatch.Recorded.framed {state later : SessionState τ Continuation}
    {owner : String} {entry : Dispatch} (recorded : entry.Recorded state.providerTurns)
    (framed : Framed owner state later) : entry.Recorded later.providerTurns := by
  rcases recorded with ⟨record, member, identity, branch, status, listed⟩
  rcases framed.kept record member with ⟨next, present, followed⟩
  rcases followed.admitted status with ⟨still, _, calls⟩
  refine ⟨next, present, ?_, ?_, still, calls ▸ listed⟩
  · rw [followed.intent, identity]
  · rw [followed.intent, branch]

/-- Recorded calls that do not repeat are no more than the recorded calls. -/
theorem countOn_le_recordedCalls {turns : List TurnRecord} {entries : List Dispatch}
    (distinct : (entries.map Dispatch.key).Nodup) (recorded : ∀ entry ∈ entries, entry.Recorded turns)
    (branchId : String) : countOn branchId entries ≤ (recordedCalls turns branchId).length := by
  let own := entries.filter fun entry => entry.branchId = branchId
  have apart : (own.map fun entry => (entry.identity, entry.call)).Nodup := by
    have keys : (own.map Dispatch.key).Nodup :=
      (List.filter_sublist.map Dispatch.key).nodup distinct
    have through : own.map Dispatch.key =
        (own.map fun entry => (entry.identity, entry.call)).map fun pair => (pair.1, pair.2.id) := by
      rw [List.map_map]
      rfl
    rw [through] at keys
    exact keys.of_map _
  have inside : (own.map fun entry => (entry.identity, entry.call)) ⊆
      recordedCalls turns branchId := by
    intro pair member
    rcases List.mem_map.mp member with ⟨entry, filtered, rfl⟩
    rw [List.mem_filter, decide_eq_true_eq] at filtered
    rw [← filtered.2]
    exact (recorded entry filtered.1).mem
  calc
    countOn branchId entries = (own.map fun entry => (entry.identity, entry.call)).length := by
      rw [List.length_map, countOn, List.countP_eq_length_filter]
    _ ≤ (recordedCalls turns branchId).length := (apart.subperm inside).length_le

/-- The calls of recovered rounds are the recorded calls. -/
theorem sum_recoveredCalls {records : List TurnRecord} {recovery : Recovery Continuation}
    (kinds : ∀ record ∈ records, record.intent.kind = .conversation)
    (recovers : recoveredCalls records = .ok recovery) :
    (recovery.rounds.map fun round => round.calls.length).sum =
      ((records.filter fun record => record.status = .admitted).map fun record =>
        record.executions.length).sum := by
  induction records generalizing recovery with
  | nil =>
      cases recovers
      rfl
  | cons record records ih =>
      have kind := kinds record List.mem_cons_self
      have others : ∀ other ∈ records, other.intent.kind = .conversation :=
        fun other member => kinds other (List.mem_cons_of_mem _ member)
      unfold recoveredCalls at recovers
      by_cases admitted : record.status = .admitted
      · rw [if_pos ⟨admitted, kind⟩] at recovers
        simp only [bind_eq_ok, okOr_eq_ok, pure_eq_ok] at recovers
        rcases recovers with ⟨reply, _, rest, recovered, rfl⟩
        rw [List.filter_cons, if_pos (decide_eq_true admitted), List.map_cons, List.sum_cons,
          ← ih others recovered]
        split
        · rename_i none
          rw [none]
          simp
        · simp
      · rw [if_neg fun both => admitted both.1] at recovers
        rw [List.filter_cons, if_neg (by simpa using admitted)]
        exact ih others recovers

theorem length_recordedCalls (turns : List TurnRecord) (branchId : String) :
    (recordedCalls turns branchId).length =
      (((turns.filter fun record => record.intent.branch = branchId).filter fun record =>
        record.status = .admitted).map fun record => record.executions.length).sum := by
  rw [recordedCalls, List.length_flatMap, List.filter_filter]
  congr 1
  rw [List.filter_congr (q := fun record =>
    decide (record.status = .admitted) && decide (record.intent.branch = branchId))]
  · apply List.map_congr_left
    intro record _
    simp
  · intro record _
    simp [Bool.and_comm]

variable [Recorded τ]

/-- A fresh owner recovers all recorded calls of its branch. -/
theorem sum_recovery {checks : Checks τ Continuation}
    {state later : SessionState τ Continuation} {reserved : ReservedRequest Continuation}
    {now : UInt64} {recovery : Recovery Continuation}
    (unused : ∀ record ∈ state.providerTurns, record.intent.owner ≠ reserved.owner)
    (kinds : ∀ record ∈ state.providerTurns, record.intent.kind = .conversation)
    (recovers : recoverProviderTurns checks state reserved now = (.ok recovery, later)) :
    (recovery.rounds.map fun round => round.calls.length).sum =
      (recordedCalls state.providerTurns reserved.branchId).length := by
  have old : oldTurns state reserved =
      state.providerTurns.filter fun record => record.intent.branch = reserved.branchId := by
    apply List.filter_congr
    intro record member
    simp [unused record member]
  have oldKinds : ∀ record ∈ oldTurns state reserved, record.intent.kind = .conversation :=
    fun record member => kinds record (List.mem_of_mem_filter member)
  rw [length_recordedCalls, ← old]
  unfold recoverProviderTurns at recovers
  split at recovers
  · cases recovers
  · simp only at recovers
    split at recovers
    · rename_i none
      cases recovers
      rw [none]
      rfl
    · split at recovers
      · cases recovers
      · split at recovers
        · cases recovers
        · rw [Prod.mk.injEq] at recovers
          exact sum_recoveredCalls oldKinds recovers.1

omit [Recorded τ] in
theorem calls_restoreRound (reply : LlmResult) (rounds : List (RoundRecord Continuation)) :
    (restoreRound reply rounds).map RoundRecord.calls = rounds.map RoundRecord.calls := by
  unfold restoreRound
  induction rounds with
  | nil => rfl
  | cons round rounds ih =>
      rw [updateFirst]
      split
      · rfl
      · rw [List.map_cons, List.map_cons, ih]

omit [Recorded τ] in
/-- The restored rounds have the calls of the recovered ones. -/
theorem calls_restoreResponses {agent : CodingAgent τ}
    {rounds restored : List (RoundRecord Continuation)} {final last : Option LlmResult}
    {replies : List Bytes}
    (restores : restoreResponses agent rounds final replies = some (restored, last)) :
    restored.map RoundRecord.calls = rounds.map RoundRecord.calls := by
  induction replies generalizing rounds final with
  | nil =>
      cases restores
      rfl
  | cons bytes replies ih =>
      simp only [restoreResponses] at restores
      split at restores
      · cases restores
      · split at restores
        · exact ih restores
        · exact (ih restores).trans (calls_restoreRound _ rounds)

end Recorded

section Ledger

variable [Recorded τ] {agent : CodingAgent τ} {world later : World τ}
  {reserved : ReservedRequest Continuation} {phase : Phase} {next : Process}

theorem Phase.IsIdle.begun {process : Process} (idle : process.phase.IsIdle) :
    process.begun = none := by
  rcases process with ⟨reserved, phase⟩
  cases phase with
  | dispatching => cases idle
  | _ => rfl

/-- A step lets one call of the holder of the branch through, hands over the call
that was let through, or leaves the calls alone. -/
theorem Advances.spends (advances : Advances agent world reserved phase later next) :
    (∃ work call waiting, phase = .executing work (call :: waiting) ∧
      next = ⟨reserved, .dispatching work call waiting⟩ ∧
      later.dispatched = world.dispatched ∧ Holds world.state reserved.branchId reserved.owner) ∨
    (next.begun = none ∧ (later.dispatched = world.dispatched ∨
      ∃ work call waiting, phase = .dispatching work call waiting ∧
        later.dispatched = ⟨reserved.branchId, work.identity, call⟩ :: world.dispatched)) := by
  cases advances with
  | begun renewed => exact .inl ⟨_, _, _, rfl, rfl, rfl, (renewLease_quiet renewed).2⟩
  | stopped quiet cleared stops => exact .inr ⟨Phase.IsIdle.begun stops.idle, .inl rfl⟩
  | @resumed requests resumed found =>
      refine .inr ⟨?_, .inl (state_of_resumed found).2.2⟩
      rcases @preflightRequests_cases _ agent reserved requests with
        ⟨kept, _, ⟨_, _, same⟩ | ⟨_, _, same⟩⟩ <;> rw [same] <;> rfl
  | recovered recovers => exact .inr ⟨Phase.IsIdle.begun (idle_resume _ _).phase, .inl rfl⟩
  | reduced settle => exact .inr ⟨Phase.IsIdle.begun settle.idle.phase, .inl rfl⟩
  | rejected quiet settle => exact .inr ⟨Phase.IsIdle.begun settle.idle.phase, .inl rfl⟩
  | admitted accepted follow =>
      refine .inr ⟨?_, .inl rfl⟩
      cases follow with
      | settled settle => exact Phase.IsIdle.begun settle.idle.phase
      | round => rfl
  | checkpointed exchanged persisted same =>
      refine .inr ⟨?_, .inl rfl⟩
      rcases same with rfl | ⟨_, _, rfl⟩
      · exact Phase.IsIdle.begun (idle_afterRound _).phase
      · rfl
  | dispatched outcome known => exact .inr ⟨rfl, .inr ⟨_, _, _, rfl, rfl⟩⟩
  | unknown outcome unknown => exact .inr ⟨rfl, .inl rfl⟩
  | prepared => exact .inr ⟨rfl, .inl rfl⟩
  | intended recorded => exact .inr ⟨rfl, .inl rfl⟩
  | reissued quiet => exact .inr ⟨rfl, .inl rfl⟩
  | replied response check => exact .inr ⟨rfl, .inl rfl⟩
  | staged accepted => exact .inr ⟨rfl, .inl rfl⟩
  | closed => exact .inr ⟨rfl, .inl rfl⟩
  | recorded projection quiet => exact .inr ⟨rfl, .inl rfl⟩
  | refused quiet => exact .inr ⟨rfl, .inl rfl⟩
  | rounded => exact .inr ⟨rfl, .inl rfl⟩
  | finalized exchanged persisted => exact .inr ⟨rfl, .inl rfl⟩
  | failed persisted => exact .inr ⟨rfl, .inl rfl⟩

omit [Recorded τ] in
/-- The calls that are about to be handed over, with those of one process in
front. -/
theorem perm_filterMap_set {processes : List Process} {index : Nat} {process : Process}
    (found : processes[index]? = some process) :
    ∃ others, (processes.filterMap Process.begun).Perm (process.begun.toList ++ others) ∧
      ∀ next, ((processes.set index next).filterMap Process.begun).Perm
        (next.begun.toList ++ others) := by
  have bound := (List.getElem?_eq_some_iff.mp found).1
  have split : processes = processes.take index ++ process :: processes.drop (index + 1) := by
    rw [← (List.getElem?_eq_some_iff.mp found).2, List.getElem_cons_drop, List.take_append_drop]
  have replaced : ∀ next, processes.set index next =
      processes.take index ++ next :: processes.drop (index + 1) :=
    fun next => List.set_eq_take_append_cons_drop .. |>.trans (if_pos bound)
  have moved : ∀ (front back : List Process) (next : Process),
      ((front ++ next :: back).filterMap Process.begun).Perm (next.begun.toList ++
        (front.filterMap Process.begun ++ back.filterMap Process.begun)) := by
    intro front back next
    rw [List.filterMap_append, List.filterMap_cons]
    cases next.begun with
    | none => exact .refl _
    | some entry => exact List.perm_middle
  refine ⟨(processes.take index).filterMap Process.begun ++
    (processes.drop (index + 1)).filterMap Process.begun, ?_, ?_⟩
  · have here := moved (processes.take index) (processes.drop (index + 1)) process
    rw [← split] at here
    exact here
  · intro next
    rw [replaced]
    exact moved _ _ next

/-- What the step of a process makes of the ledger: it lets a call through, or it adds
nothing and is not about to hand anything over. -/
inductive LedgerStep (world : World τ) (process : Process) : Process → List Dispatch → Prop where
  | begun {work : Work} {call : ToolCall} {waiting : List ToolCall} {entries : List Dispatch}
      (executing : process.phase = .executing work (call :: waiting))
      (holds : Holds world.state process.reserved.branchId process.reserved.owner)
      (grown : entries.Perm (⟨process.reserved.branchId, work.identity, call⟩ :: world.ledger)) :
      LedgerStep world process ⟨process.reserved, .dispatching work call waiting⟩ entries
  | kept {next : Process} {entries : List Dispatch} (within : entries.Subperm world.ledger)
      (none : next.begun = none) : LedgerStep world process next entries

/-- The ledger after a step: one entry more, for the holder of the branch, or no
entry that was not there. -/
theorem Advances.ledger {index : Nat} {process : Process}
    (found : world.processes[index]? = some process)
    (advances : Advances agent world process.reserved process.phase later next)
    (same : later.processes = world.processes) :
    LedgerStep world process next
      ({ later with processes := later.processes.set index next } : World τ).ledger := by
  rcases perm_filterMap_set found with ⟨others, before, after⟩
  have old : world.ledger.Perm (process.begun.toList ++ (others ++ world.dispatched)) := by
    rw [← List.append_assoc]
    exact before.append_right _
  have new : ({ later with processes := later.processes.set index next } :
      World τ).ledger.Perm (next.begun.toList ++ (others ++ later.dispatched)) := by
    rw [← List.append_assoc, same]
    exact (after next).append_right _
  rcases advances.spends with ⟨work, call, waiting, executing, rfl, kept, holds⟩ |
    ⟨none, kept | ⟨work, call, waiting, dispatching, handed⟩⟩
  · refine .begun executing holds (new.trans ?_)
    have quiet : process.begun = none := by
      rw [Process.begun, executing]
    rw [quiet] at old
    rw [kept]
    exact old.symm.cons _
  · refine .kept (new.subperm.trans ?_) none
    rw [none, kept]
    exact (List.sublist_append_right _ _).subperm.trans old.symm.subperm
  · have begun : process.begun = some ⟨process.reserved.branchId, work.identity, call⟩ := by
      rw [Process.begun, dispatching]
    rw [begun] at old
    refine .kept (new.trans ?_).subperm none
    rw [none, handed]
    exact List.perm_middle.trans old.symm

end Ledger

section Counting

/-- The calls on the ledger are those that the process has counted as used, while
it holds its branch; a call in flight is counted ahead. -/
def PhaseCounted (agent : CodingAgent τ) (holds : Prop) (count : Nat) : Phase → Prop
  | .preparing _ attempt | .requesting _ attempt | .sending _ attempt _ | .staging _ attempt _ _
  | .admitting _ attempt _ _ => holds → count ≤ attempt.usage.totalCalls
  | .executing work waiting => (holds → count ≤ work.attempt.usage.totalCalls) ∧
      ∀ max, agent.maxToolCalls = some max → waiting ≠ [] →
        work.attempt.usage.totalCalls + waiting.length ≤ max
  | .dispatching work _ waiting | .returned work _ waiting _ =>
      (holds → count ≤ work.attempt.usage.totalCalls + 1) ∧
      ∀ max, agent.maxToolCalls = some max →
        work.attempt.usage.totalCalls + 1 + waiting.length ≤ max
  | .refusing work _ | .checkpointing work => holds → count ≤ work.attempt.usage.totalCalls
  | .preflight | .recovering _ | .completing _ _ | .failing _ _ | .ended => True

variable {agent : CodingAgent τ} {holds : Prop} {count : Nat}

theorem PhaseCounted.mono {phase : Phase} {still : Prop} {less : Nat}
    (counted : PhaseCounted agent holds count phase) (held : still → holds)
    (fewer : still → less ≤ count) : PhaseCounted agent still less phase := by
  have bound : ∀ {limit : Nat}, (holds → count ≤ limit) → still → less ≤ limit :=
    fun within still => (fewer still).trans (within (held still))
  cases phase with
  | preparing asking attempt => exact bound counted
  | requesting asking attempt => exact bound counted
  | sending asking attempt intent => exact bound counted
  | staging asking attempt intent reply => exact bound counted
  | admitting asking attempt intent reply => exact bound counted
  | executing work waiting => exact ⟨bound counted.1, counted.2⟩
  | dispatching work call waiting => exact ⟨bound counted.1, counted.2⟩
  | returned work call waiting outcome => exact ⟨bound counted.1, counted.2⟩
  | refusing work refused => exact bound counted
  | checkpointing work => exact bound counted
  | preflight => trivial
  | recovering requests => trivial
  | completing attempt summary => trivial
  | failing error rounds => trivial
  | ended => trivial

theorem Settle.counted {reserved : ReservedRequest Continuation} {attempt : AttemptState}
    {next : Process} (settle : Settle agent reserved attempt next)
    (within : holds → count ≤ attempt.usage.totalCalls) :
    PhaseCounted agent holds count next.phase := by
  cases settle with
  | failing => trivial
  | ended => trivial
  | asking cleared asking derived =>
      intro held
      rw [derived.usage]
      exact within held
  | completing => trivial

theorem Phase.IsStop.counted {stop : Phase} (stops : stop.IsStop) :
    PhaseCounted agent holds count stop := by
  cases stop with
  | failing => trivial
  | ended => trivial
  | _ => cases stops

variable [Recorded τ] {world later : World τ}
  {reserved : ReservedRequest Continuation} {phase : Phase} {next : Process}

omit [Recorded τ] in
/-- A fresh owner counts every call on the ledger as used. -/
theorem counted_resume {requests : List ModelRequest} {recovery : Recovery Continuation}
    (within : count ≤ (recovery.rounds.map fun round => round.calls.length).sum) :
    PhaseCounted agent holds count (resume agent reserved requests recovery).phase := by
  rcases @resume_cases _ agent reserved requests recovery with ⟨none, _, settle⟩ |
    ⟨rounds, final, restored, settle⟩ | same
  · apply settle.counted
    intro _
    rw [none] at within
    exact within
  · apply settle.counted
    intro _
    have calls := congrArg (fun calls => (calls.map List.length).sum) (calls_restoreResponses restored)
    simp only [List.map_map] at calls
    exact within.trans calls.symm.le
  · rw [same]
    trivial

/-- A step counts what it adds to the ledger. -/
theorem Advances.counted (advances : Advances agent world reserved phase later next) {after : Nat}
    (recorded : count ≤ (recordedCalls world.state.providerTurns reserved.branchId).length)
    (turns : TurnsBooked agent world.state.providerTurns)
    (booked : PhaseBooked agent world.state.providerTurns reserved phase)
    (closed : ∀ work, phase = .checkpointing work → work.attempt.current = none)
    (counted : PhaseCounted agent holds count phase) (kept : next.begun = none → after ≤ count)
    (grown : after ≤ count + 1) : PhaseCounted agent holds after next.phase := by
  cases advances with
  | stopped quiet cleared stops => exact stops.counted
  | @resumed requests resumed found =>
      rcases @preflightRequests_cases _ agent reserved requests with
        ⟨kept, _, ⟨_, _, same⟩ | ⟨_, _, same⟩⟩ <;> rw [same] <;> trivial
  | recovered recovers =>
      have all := sum_recovery booked (fun record member => (turns record member).kind) recovers
      apply counted_resume
      have same := kept (Phase.IsIdle.begun (idle_resume _ _).phase)
      omega
  | prepared => exact fun held => (kept rfl).trans (counted held)
  | reduced settle =>
      exact settle.counted fun held =>
        (kept (Phase.IsIdle.begun settle.idle.phase)).trans (counted held)
  | intended intent => exact fun held => (kept rfl).trans (counted held)
  | rejected quiet settle =>
      exact settle.counted fun held =>
        (kept (Phase.IsIdle.begun settle.idle.phase)).trans (counted held)
  | reissued quiet => exact fun held => (kept rfl).trans (counted held)
  | replied response check => exact fun held => (kept rfl).trans (counted held)
  | staged accepted => exact fun held => (kept rfl).trans (counted held)
  | admitted accepted follow =>
      cases follow with
      | settled settle =>
          exact settle.counted fun held =>
            (kept (Phase.IsIdle.begun settle.idle.phase)).trans (counted held)
      | round waiting valid =>
          exact ⟨fun held => (kept rfl).trans (counted held),
            fun max limited some => length_splitOverBudget limited some⟩
  | begun renewed =>
      refine ⟨fun held => grown.trans (Nat.succ_le_succ (counted.1 held)), ?_⟩
      intro max limited
      have room := counted.2 max limited (List.cons_ne_nil _ _)
      rw [List.length_cons] at room
      omega
  | closed => exact fun held => (kept rfl).trans (counted.1 held)
  | dispatched outcome known => exact ⟨fun held => (kept rfl).trans (counted.1 held), counted.2⟩
  | unknown outcome unknown => exact ⟨fun held => (kept rfl).trans (counted.1 held), counted.2⟩
  | recorded projection quiet =>
      exact ⟨fun held => (kept rfl).trans (counted.1 held), fun max limited _ => counted.2 max limited⟩
  | refused quiet => exact fun held => (kept rfl).trans (counted held)
  | rounded => exact fun held => (kept rfl).trans (counted held)
  | checkpointed exchanged persisted same =>
      rcases same with rfl | ⟨_, _, rfl⟩
      · have settle : Settle agent reserved _ (afterRound agent reserved _) :=
          settle_afterRound (closed _ rfl)
        exact settle.counted fun held =>
          (kept (Phase.IsIdle.begun settle.idle.phase)).trans (counted held)
      · trivial
  | finalized exchanged persisted => trivial
  | failed persisted => trivial

end Counting

section Serving

/-- The calls of a reply that are on the ledger are listed, and the calls with a
tool among those behind it were handed over. -/
structure Served (agent : CodingAgent τ) (ledger dispatched : List Dispatch)
    (branchId identity : String) (listed behind : List ToolCall) : Prop where
  listed : ∀ entry ∈ ledger, entry.identity = identity → entry.call ∈ listed
  handed : ∀ call ∈ behind, knownTool call.name agent.allowShell = true →
    ⟨branchId, identity, call⟩ ∈ dispatched

/-- Where a process is in its round. -/
def PhaseServed (agent : CodingAgent τ) (ledger dispatched : List Dispatch)
    (branchId : String) : Phase → Prop
  | .executing work waiting => ∃ executed, work.Traced agent executed waiting ∧
      Served agent ledger dispatched branchId work.identity executed executed
  | .dispatching work call waiting => ∃ executed, work.Traced agent executed (call :: waiting) ∧
      Served agent ledger dispatched branchId work.identity (executed ++ [call]) executed
  | .returned work call waiting _ => ∃ executed, work.Traced agent executed (call :: waiting) ∧
      Served agent ledger dispatched branchId work.identity (executed ++ [call])
        (executed ++ [call])
  | .refusing work _ | .checkpointing work => ∃ executed, work.Closed agent executed ∧
      Served agent ledger dispatched branchId work.identity executed executed
  | _ => True

/-- The reply that a process works on. -/
def Phase.working : Phase → Option Work
  | .executing work _ | .dispatching work _ _ | .returned work _ _ _ | .refusing work _
  | .checkpointing work => some work
  | _ => none

variable {agent : CodingAgent τ} {ledger dispatched moreLedger moreDispatched : List Dispatch}
  {branchId : String}

theorem Served.mono {identity : String} {listed behind : List ToolCall}
    (served : Served agent ledger dispatched branchId identity listed behind)
    (entries : ∀ entry ∈ moreLedger, entry.identity = identity → entry ∈ ledger)
    (grown : dispatched ⊆ moreDispatched) :
    Served agent moreLedger moreDispatched branchId identity listed behind where
  listed entry member same := served.listed entry (entries entry member same) same
  handed call member known := grown (served.handed call member known)

/-- Entries of other replies do not matter to a process. -/
theorem PhaseServed.mono {phase : Phase}
    (served : PhaseServed agent ledger dispatched branchId phase)
    (entries : ∀ work, phase.working = some work →
      ∀ entry ∈ moreLedger, entry.identity = work.identity → entry ∈ ledger)
    (grown : dispatched ⊆ moreDispatched) :
    PhaseServed agent moreLedger moreDispatched branchId phase := by
  cases phase with
  | executing work waiting =>
      rcases served with ⟨executed, traced, served⟩
      exact ⟨executed, traced, served.mono (entries work rfl) grown⟩
  | dispatching work call waiting =>
      rcases served with ⟨executed, traced, served⟩
      exact ⟨executed, traced, served.mono (entries work rfl) grown⟩
  | returned work call waiting outcome =>
      rcases served with ⟨executed, traced, served⟩
      exact ⟨executed, traced, served.mono (entries work rfl) grown⟩
  | refusing work refused =>
      rcases served with ⟨executed, closed, served⟩
      exact ⟨executed, closed, served.mono (entries work rfl) grown⟩
  | checkpointing work =>
      rcases served with ⟨executed, closed, served⟩
      exact ⟨executed, closed, served.mono (entries work rfl) grown⟩
  | _ => trivial

theorem Phase.IsIdle.served {phase : Phase} (idle : phase.IsIdle) :
    PhaseServed agent ledger dispatched branchId phase := by
  cases phase with
  | preparing => trivial
  | completing => trivial
  | failing => trivial
  | ended => trivial
  | _ => cases idle

variable [Recorded τ] {world later : World τ}
  {reserved : ReservedRequest Continuation} {phase : Phase} {next : Process}

/-- Nothing of a reply is on the ledger before it is admitted. -/
theorem unspent_of_admission {intent : SendIntent} {executions : List ExecutionIntent} {now : UInt64}
    {state : SessionState τ Continuation} (validated : world.state.Validated)
    (recorded : ∀ entry ∈ ledger, entry.Recorded world.state.providerTurns)
    (accepted : providerCommand agent.checks world.state reserved
      (.admitReply intent.identity executions) now = .ok state) :
    ∀ entry ∈ ledger, entry.identity ≠ intent.identity := by
  intro entry member same
  rcases admit_split validated (providerCommand_eq_ok accepted).1 with
    ⟨before, record, after, split, named, _, _, pending, _⟩
  rcases recorded entry member with ⟨other, present, identity, _, admitted, _⟩
  have inside : record ∈ world.state.providerTurns := by
    rw [split]
    simp
  have one : record = other := List.inj_on_of_nodup_map validated.turns.unique inside present
    (named.trans (same.symm.trans identity.symm))
  rw [one, admitted] at pending
  cases pending

/-- A step of a process keeps track of its round. -/
theorem Advances.served (advances : Advances agent world reserved phase later next)
    (validated : world.state.Validated)
    (recorded : ∀ entry ∈ world.ledger, entry.Recorded world.state.providerTurns)
    (served : PhaseServed agent world.ledger world.dispatched reserved.branchId phase)
    (kept : next.begun = none → ledger ⊆ world.ledger)
    (grown : ∀ work call waiting, next.phase = .dispatching work call waiting →
      ∀ entry ∈ ledger, entry = ⟨reserved.branchId, work.identity, call⟩ ∨ entry ∈ world.ledger) :
    PhaseServed agent ledger later.dispatched reserved.branchId next.phase := by
  cases advances with
  | stopped quiet cleared stops => exact stops.idle.served
  | @resumed requests resumed found =>
      rcases @preflightRequests_cases _ agent reserved requests with
        ⟨kept, _, ⟨_, _, same⟩ | ⟨_, _, same⟩⟩ <;> rw [same] <;> trivial
  | recovered recovers => exact (idle_resume _ _).phase.served
  | reduced settle => exact settle.idle.phase.served
  | rejected quiet settle => exact settle.idle.phase.served
  | admitted accepted follow =>
      cases follow with
      | settled settle => exact settle.idle.phase.served
      | @round reply ids waiting valid =>
          refine ⟨[], traced_opened _ _ _ _, ⟨?_, ?_⟩⟩
          · intro entry member same
            exact absurd same (unspent_of_admission validated recorded accepted entry
              (kept rfl member))
          · intro call member
            cases member
  | @begun work call waiting state now renewed =>
      rcases served with ⟨executed, traced, served⟩
      refine ⟨executed, traced, ⟨?_, served.handed⟩⟩
      intro entry member same
      rcases grown work call waiting rfl entry member with rfl | old
      · simp
      · exact List.mem_append_left _ (served.listed entry old same)
  | closed =>
      rcases served with ⟨executed, traced, served⟩
      exact ⟨executed, traced.close,
        served.mono (fun entry member _ => kept rfl member) (fun _ member => member)⟩
  | dispatched outcome known =>
      rcases served with ⟨executed, traced, served⟩
      refine ⟨executed, traced, ⟨?_, ?_⟩⟩
      · intro entry member same
        exact served.listed entry (kept rfl member) same
      · intro call member usable
        rcases List.mem_append.mp member with old | new
        · exact List.mem_cons_of_mem _ (served.handed call old usable)
        · rw [List.mem_singleton.mp new]
          exact List.mem_cons_self
  | unknown outcome unknown =>
      rcases served with ⟨executed, traced, served⟩
      refine ⟨executed, traced, ⟨?_, ?_⟩⟩
      · intro entry member same
        exact served.listed entry (kept rfl member) same
      · intro call member usable
        rcases List.mem_append.mp member with old | new
        · exact served.handed call old usable
        · rw [List.mem_singleton.mp new, unknown] at usable
          cases usable
  | recorded projection quiet =>
      rcases served with ⟨executed, traced, served⟩
      exact ⟨_, traced.record _ projection,
        served.mono (fun entry member _ => kept rfl member) (fun _ member => member)⟩
  | refused quiet =>
      rcases served with ⟨executed, closed, served⟩
      exact ⟨executed, closed,
        served.mono (fun entry member _ => kept rfl member) (fun _ member => member)⟩
  | rounded =>
      rcases served with ⟨executed, closed, served⟩
      exact ⟨executed, closed,
        served.mono (fun entry member _ => kept rfl member) (fun _ member => member)⟩
  | checkpointed exchanged persisted same =>
      rcases same with rfl | ⟨_, _, rfl⟩
      · exact (idle_afterRound _).phase.served
      · trivial
  | prepared => trivial
  | intended intent => trivial
  | reissued quiet => trivial
  | replied response check => trivial
  | staged accepted => trivial
  | finalized exchanged persisted => trivial
  | failed persisted => trivial

end Serving

section Worlds

variable [Recorded τ] {agent : CodingAgent τ} {world : World τ} {drawn : List String}

/-- The ledger of a world is in order. -/
structure World.Ledgered (agent : CodingAgent τ) (world : World τ) : Prop where
  distinct : (world.ledger.map Dispatch.key).Nodup
  recorded : ∀ entry ∈ world.ledger, entry.Recorded world.state.providerTurns
  bounded : ∀ max, agent.maxToolCalls = some max → ∀ branchId, countOn branchId world.ledger ≤ max
  counted : ∀ process ∈ world.processes, PhaseCounted agent
    (Holds world.state process.reserved.branchId process.reserved.owner)
    (countOn process.reserved.branchId world.ledger) process.phase
  served : ∀ process ∈ world.processes,
    PhaseServed agent world.ledger world.dispatched process.reserved.branchId process.phase

omit [Recorded τ] in
theorem holds_unique {state : SessionState τ Continuation} {branchId owner other : String}
    (first : Holds state branchId owner) (second : Holds state branchId other) : owner = other := by
  rcases first with ⟨branch, present, rfl⟩
  rcases second with ⟨same, found, rfl⟩
  rw [present, Option.some.injEq] at found
  rw [found]

omit [Recorded τ] in
theorem World.Booked.engaged (booked : world.Booked agent drawn) {process : Process}
    (member : process ∈ world.processes) {work : Work} (working : process.phase.working = some work) :
    Engaged world.state.providerTurns process.reserved work := by
  have listed := booked.phases process member
  rcases process with ⟨reserved, phase⟩
  cases phase with
  | executing => cases working; exact listed
  | dispatching => cases working; exact listed
  | returned => cases working; exact listed
  | refusing => cases working; exact listed
  | checkpointing => cases working; exact listed
  | _ => cases working

omit [Recorded τ] in
/-- Processes of different owners work on different replies. -/
theorem World.Booked.identity_ne (booked : world.Booked agent drawn) {process other : Process}
    (member : process ∈ world.processes) (inside : other ∈ world.processes)
    (apart : process.reserved.owner ≠ other.reserved.owner) {work rest : Work}
    (working : process.phase.working = some work) (busy : other.phase.working = some rest) :
    work.identity ≠ rest.identity := by
  intro same
  rcases (booked.engaged member working).admitted with ⟨first, here, named, own, _⟩
  rcases (booked.engaged inside busy).admitted with ⟨second, there, called, held, _⟩
  have one : first = second :=
    List.inj_on_of_nodup_map booked.checked.validated.turns.unique here there
      (named.trans (same.trans called.symm))
  rw [← own, ← held, one] at apart
  exact apart rfl

theorem Advances.dispatched_subset {later : World τ}
    {reserved : ReservedRequest Continuation} {phase : Phase} {next : Process}
    (advances : Advances agent world reserved phase later next) :
    world.dispatched ⊆ later.dispatched := by
  rcases advances.spends with ⟨_, _, _, _, _, same, _⟩ | ⟨_, same | ⟨_, _, _, _, handed⟩⟩
  · exact fun _ member => same ▸ member
  · exact fun _ member => same ▸ member
  · intro entry member
    rw [handed]
    exact List.mem_cons_of_mem _ member

omit [Recorded τ] in
theorem countOn_cons (branchId : String) (entry : Dispatch) (entries : List Dispatch) :
    countOn branchId (entry :: entries) =
      countOn branchId entries + if entry.branchId = branchId then 1 else 0 := by
  simp [countOn, List.countP_cons]

omit [Recorded τ] in
theorem countOn_le_of_subperm {entries more : List Dispatch} (within : entries.Subperm more)
    (branchId : String) : countOn branchId entries ≤ countOn branchId more :=
  within.countP_le _

omit [Recorded τ] in
theorem countOn_perm {entries others : List Dispatch} (same : entries.Perm others)
    (branchId : String) : countOn branchId entries = countOn branchId others :=
  same.countP_eq _

omit [Recorded τ] in
/-- The call that is let through is not on the ledger yet. -/
theorem unspent_of_traced {ledger dispatched : List Dispatch} {branchId : String} {work : Work}
    {executed waiting : List ToolCall} {call : ToolCall}
    (traced : work.Traced agent executed (call :: waiting)) (sound : work.reply.Sound)
    (served : Served agent ledger dispatched branchId work.identity executed executed) :
    (work.identity, call.id) ∉ ledger.map Dispatch.key := by
  intro member
  rcases List.mem_map.mp member with ⟨entry, inside, same⟩
  rw [Dispatch.key, Prod.mk.injEq] at same
  have listed := served.listed entry inside same.1
  have nodup := sound.nodup
  rw [traced.calls, List.map_append, List.nodup_append] at nodup
  exact nodup.2.2 entry.call.id (List.mem_map_of_mem listed) call.id (by simp) same.2

namespace LedgerStep

variable {process next : Process} {entries : List Dispatch}

omit [Recorded τ] in
theorem mem (step : LedgerStep world process next entries) :
    ∀ entry ∈ entries, entry ∈ world.ledger ∨ ∃ work call waiting,
      next.phase = .dispatching work call waiting ∧
      process.phase = .executing work (call :: waiting) ∧
      entry = ⟨process.reserved.branchId, work.identity, call⟩ := by
  intro entry inside
  cases step with
  | begun executing holds grown =>
      rcases List.mem_cons.mp (grown.mem_iff.mp inside) with rfl | old
      · exact .inr ⟨_, _, _, rfl, executing, rfl⟩
      · exact .inl old
  | kept within none => exact .inl (within.subset inside)

omit [Recorded τ] in
theorem subperm (step : LedgerStep world process next entries) (none : next.begun = none) :
    entries.Subperm world.ledger := by
  cases step with
  | begun executing holds grown => cases none
  | kept within none => exact within

omit [Recorded τ] in
theorem countOn_le (step : LedgerStep world process next entries) (branchId : String) :
    countOn branchId entries ≤ countOn branchId world.ledger +
      if process.reserved.branchId = branchId ∧ next.begun ≠ none then 1 else 0 := by
  cases step with
  | begun executing holds grown =>
      rw [countOn_perm grown, countOn_cons]
      simp [Process.begun]
  | kept within none =>
      exact (countOn_le_of_subperm within branchId).trans (Nat.le_add_right _ _)

omit [Recorded τ] in
/-- The call that is let through is recorded for the reply that the process works on. -/
theorem begins (ledgered : world.Ledgered agent) (booked : world.Booked agent drawn)
    (member : process ∈ world.processes) {work : Work} {call : ToolCall} {waiting : List ToolCall}
    (executing : process.phase = .executing work (call :: waiting)) :
    Dispatch.Recorded world.state.providerTurns
        ⟨process.reserved.branchId, work.identity, call⟩ ∧
      (work.identity, call.id) ∉ world.ledger.map Dispatch.key := by
  have working : process.phase.working = some work := by
    rw [executing]
    rfl
  have engaged := booked.engaged member working
  have served := ledgered.served process member
  rw [executing] at served
  rcases served with ⟨executed, traced, served⟩
  refine ⟨?_, unspent_of_traced traced engaged.sound served⟩
  rcases engaged.admitted with ⟨record, present, named, _, branch, status, calls⟩
  refine ⟨record, present, named, branch, status, ?_⟩
  rw [calls, traced.calls]
  simp

omit [Recorded τ] in
theorem distinct (step : LedgerStep world process next entries) (ledgered : world.Ledgered agent)
    (booked : world.Booked agent drawn) (member : process ∈ world.processes) :
    (entries.map Dispatch.key).Nodup := by
  cases step with
  | begun executing holds grown =>
      rw [(grown.map _).nodup_iff, List.map_cons, List.nodup_cons]
      exact ⟨(begins ledgered booked member executing).2, ledgered.distinct⟩
  | kept within none =>
      rcases within with ⟨list, same, sub⟩
      rw [← (same.map _).nodup_iff]
      exact (sub.map _).nodup ledgered.distinct

omit [Recorded τ] in
theorem bounded (step : LedgerStep world process next entries) (ledgered : world.Ledgered agent)
    (member : process ∈ world.processes) {max : Nat} (limited : agent.maxToolCalls = some max)
    (branchId : String) : countOn branchId entries ≤ max := by
  cases step with
  | begun executing holds grown =>
      rw [countOn_perm grown, countOn_cons]
      split
      · rename_i here
        rw [← here]
        have counted := ledgered.counted process member
        rw [executing] at counted
        have used : countOn process.reserved.branchId world.ledger ≤ _ := counted.1 holds
        have room := counted.2 max limited (List.cons_ne_nil _ _)
        rw [List.length_cons] at room
        change countOn process.reserved.branchId world.ledger + 1 ≤ max
        omega
      · exact ledgered.bounded max limited branchId
  | kept within none =>
      exact (countOn_le_of_subperm within branchId).trans (ledgered.bounded max limited branchId)

omit [Recorded τ] in
/-- Only the holder of a branch adds to its entries. -/
theorem countOn_other (step : LedgerStep world process next entries) {other : Process}
    (apart : process.reserved.owner ≠ other.reserved.owner)
    (held : Holds world.state other.reserved.branchId other.reserved.owner) :
    countOn other.reserved.branchId entries ≤ countOn other.reserved.branchId world.ledger := by
  apply (step.countOn_le other.reserved.branchId).trans
  rw [if_neg]
  · exact le_rfl
  · rintro ⟨same, some⟩
    cases step with
    | begun executing holds grown =>
        rw [same] at holds
        exact apart (holds_unique holds held)
    | kept within none => exact some none

end LedgerStep

/-- The process that goes on has counted the calls of its branch. -/
theorem World.Ledgered.counted_own (ledgered : world.Ledgered agent)
    (booked : world.Booked agent drawn) {process next : Process} {later : World τ}
    {entries : List Dispatch} (member : process ∈ world.processes)
    (advances : Advances agent world process.reserved process.phase later next)
    (spent : LedgerStep world process next entries) :
    PhaseCounted agent (Holds world.state process.reserved.branchId process.reserved.owner)
      (countOn process.reserved.branchId entries) next.phase := by
  have closed : ∀ work, process.phase = .checkpointing work → work.attempt.current = none := by
    intro work here
    have served := ledgered.served process member
    rw [here] at served
    rcases served with ⟨_, closed, _⟩
    exact closed.current
  apply advances.counted (countOn_le_recordedCalls ledgered.distinct ledgered.recorded _)
    booked.turns (booked.phases process member) closed (ledgered.counted process member)
  · intro none
    exact countOn_le_of_subperm (spent.subperm none) _
  · apply (spent.countOn_le process.reserved.branchId).trans
    split <;> omega

/-- The calls of the process that goes on are on the ledger in their order. -/
theorem World.Ledgered.served_own (ledgered : world.Ledgered agent)
    (booked : world.Booked agent drawn) {process next : Process} {later : World τ}
    {entries : List Dispatch} (member : process ∈ world.processes)
    (advances : Advances agent world process.reserved process.phase later next)
    (spent : LedgerStep world process next entries) :
    PhaseServed agent entries later.dispatched process.reserved.branchId next.phase := by
  apply advances.served booked.checked.validated ledgered.recorded (ledgered.served process member)
  · intro none
    exact (spent.subperm none).subset
  · intro work call waiting here entry inside
    rcases spent.mem entry inside with old | ⟨other, same, rest, there, _, rfl⟩
    · exact .inr old
    · rw [here, Phase.dispatching.injEq] at there
      rcases there with ⟨rfl, rfl, _⟩
      exact .inl rfl

/-- The step of a process keeps the ledger. -/
theorem World.Ledgered.advance (ledgered : world.Ledgered agent)
    (booked : world.Booked agent drawn) {index : Nat} {process next : Process}
    {later : World τ} (found : world.processes[index]? = some process)
    (advances : Advances agent world process.reserved process.phase later next) :
    ({ later with processes := later.processes.set index next } : World τ).Ledgered agent := by
  have member := List.mem_of_getElem? found
  have confined := advances.confined booked.checked
  have spent := advances.ledger found confined.processes
  generalize ledger : ({ later with processes := later.processes.set index next } :
    World τ).ledger = entries at spent
  constructor <;> rw [ledger]
  · exact spent.distinct ledgered booked member
  · intro entry inside
    apply Dispatch.Recorded.framed _ confined.framed
    rcases spent.mem entry inside with old | ⟨work, call, waiting, _, executing, rfl⟩
    · exact ledgered.recorded entry old
    · exact (LedgerStep.begins ledgered booked member executing).1
  · exact fun max limited branchId => spent.bounded ledgered member limited branchId
  · intro other inside
    rw [confined.processes] at inside
    rcases booked.apart found inside with rfl | ⟨old, apart⟩
    · rw [confined.branchId, confined.owner]
      exact (ledgered.counted_own booked member advances spent).mono (confined.framed.holds _ _).mp
        fun _ => le_rfl
    · apply (ledgered.counted other old).mono (confined.framed.holds _ _).mp
      exact fun held => spent.countOn_other apart ((confined.framed.holds _ _).mp held)
  · intro other inside
    rw [confined.processes] at inside
    rcases booked.apart found inside with rfl | ⟨old, apart⟩
    · have own := ledgered.served_own booked member advances spent
      rw [confined.branchId]
      exact own
    · apply (ledgered.served other old).mono _ advances.dispatched_subset
      intro work working entry listed same
      rcases spent.mem entry listed with here | ⟨own, call, waiting, _, executing, rfl⟩
      · exact here
      · have mine : process.phase.working = some own := by
          rw [executing]
          rfl
        exact absurd same (booked.identity_ne member old apart mine working)

omit [Recorded τ] in
theorem World.ledgered_empty (sessionId : String) :
    (World.empty sessionId : World τ).Ledgered agent where
  distinct := .nil
  recorded _ member := absurd member List.not_mem_nil
  bounded _ _ _ := Nat.zero_le _
  counted _ member := absurd member List.not_mem_nil
  served _ member := absurd member List.not_mem_nil

omit [Recorded τ] in
/-- Neither the turns nor the holders of a world have changed. -/
theorem World.Ledgered.of_state (ledgered : world.Ledgered agent)
    {state : SessionState τ Continuation} (turns : state.providerTurns = world.state.providerTurns)
    (holds : ∀ process ∈ world.processes,
      Holds state process.reserved.branchId process.reserved.owner →
        Holds world.state process.reserved.branchId process.reserved.owner) :
    ({ world with state := state } : World τ).Ledgered agent where
  distinct := ledgered.distinct
  recorded entry member := by
    change entry.Recorded state.providerTurns
    rw [turns]
    exact ledgered.recorded entry member
  bounded := ledgered.bounded
  counted process member :=
    (ledgered.counted process member).mono (holds process member) fun _ => le_rfl
  served := ledgered.served

omit [Recorded τ] in
/-- A process that has not begun anything joins. -/
theorem World.Ledgered.join (ledgered : world.Ledgered agent)
    {reserved : ReservedRequest Continuation} {phase : Phase}
    (fresh : phase = .preflight ∨ phase = .ended) :
    ({ world with processes := world.processes ++ [⟨reserved, phase⟩] } :
      World τ).Ledgered agent := by
  have same : ({ world with processes := world.processes ++ [⟨reserved, phase⟩] } :
      World τ).ledger = world.ledger := by
    have none : Process.begun ⟨reserved, phase⟩ = none := by
      rcases fresh with rfl | rfl <;> rfl
    simp [World.ledger, none]
  constructor
  · rw [same]
    exact ledgered.distinct
  · rw [same]
    exact ledgered.recorded
  · rw [same]
    exact ledgered.bounded
  · rw [same]
    intro process member
    rcases List.mem_append.mp member with old | new
    · exact ledgered.counted process old
    · rw [List.mem_singleton.mp new]
      rcases fresh with rfl | rfl <;> trivial
  · rw [same]
    intro process member
    rcases List.mem_append.mp member with old | new
    · exact ledgered.served process old
    · rw [List.mem_singleton.mp new]
      rcases fresh with rfl | rfl <;> trivial

theorem World.Ledgered.step (ledgered : world.Ledgered agent) (booked : world.Booked agent drawn)
    (action : Action) (unused : ∀ owner, action.drawn = some owner → owner ∉ drawn) :
    (world.step agent action).Ledgered agent := by
  cases action with
  | start request owner now =>
      simp only [World.step]
      split
      · exact ledgered
      · rename_i reserved state started
        rcases startRequest_effect started with ⟨turns, _, holds⟩
        have moved : ({ world with state := state } : World τ).Ledgered agent := by
          apply ledgered.of_state turns
          intro process member held
          rcases holds _ _ held with old | new
          · exact old
          · exact absurd (new ▸ booked.processes process member) (unused owner rfl)
        apply moved.join
        split
        · exact .inr rfl
        · exact .inl rfl
  | renew index now =>
      simp only [World.step]
      split
      · exact ledgered
      · split
        · exact ledgered
        · rename_i process _ state renewed
          have quiet := (renewLease_quiet renewed).1
          have framed := (quiet.framed booked.checked.validated).1
          simp only [renewLease, bind_eq_ok] at renewed
          rcases renewed with ⟨branch, _, appended⟩
          apply ledgered.of_state
          · exact applyEvent_turns (appendEvent_eq_ok appended).1 (by simp)
          · intro other _
            exact (framed.holds _ _).mp
  | advance index outside =>
      simp only [World.step]
      split
      · exact ledgered
      · rename_i process found
        exact ledgered.advance booked found (advances_advance process.phase)

/-- What the agent keeps of its budget: the calls handed over for a branch are
within it, no call of an admitted reply is handed over twice, and a round that is
done has one record and one return for every call of its reply, first those that
were executed, then those that were refused. -/
structure World.WithinBudget (agent : CodingAgent τ) (world : World τ) : Prop where
  bounded : ∀ max, agent.maxToolCalls = some max →
    ∀ branchId, countOn branchId world.dispatched ≤ max
  once : (world.dispatched.map Dispatch.key).Nodup
  admitted : ∀ entry ∈ world.dispatched, entry.Recorded world.state.providerTurns
  rounds : ∀ process ∈ world.processes, ∀ work, process.phase = .checkpointing work →
    ∃ executed, work.Closed agent executed ∧ Served agent world.dispatched world.dispatched
      process.reserved.branchId work.identity executed executed

omit [Recorded τ] in
theorem World.Ledgered.withinBudget (ledgered : world.Ledgered agent) :
    world.WithinBudget agent := by
  have within : world.dispatched.Sublist world.ledger := List.sublist_append_right _ _
  constructor
  · intro max limited branchId
    exact (countOn_le_of_subperm within.subperm branchId).trans
      (ledgered.bounded max limited branchId)
  · exact (within.map _).nodup ledgered.distinct
  · intro entry member
    exact ledgered.recorded entry (within.subset member)
  · intro process member work here
    have served := ledgered.served process member
    rw [here] at served
    rcases served with ⟨executed, closed, served⟩
    exact ⟨executed, closed,
      served.mono (fun entry inside _ => within.subset inside) fun _ inside => inside⟩

/-- The budget over the life of every branch: for every order of steps, replies,
results, crashes and reclaims, with owner tokens that are not drawn twice. -/
theorem withinBudget_of_run (agent : CodingAgent τ) (sessionId : String)
    (actions : List Action) (distinct : (actions.filterMap Action.drawn).Nodup) :
    (run (World.step agent) (World.empty sessionId) actions).WithinBudget agent := by
  have both : ∀ reached, reached <+: actions →
      (run (World.step agent) (World.empty sessionId) reached).Booked agent
        (reached.filterMap Action.drawn).reverse ∧
      (run (World.step agent) (World.empty sessionId) reached).Ledgered agent := by
    apply run_fresh (fun drawn world => world.Booked agent drawn ∧ world.Ledgered agent)
      ⟨World.booked_empty sessionId, World.ledgered_empty sessionId⟩ _ distinct
    rintro before action _ ⟨booked, ledgered⟩ unused
    exact ⟨booked.step action unused, ledgered.step booked action unused⟩
  exact (both actions List.prefix_rfl).2.withinBudget

end Worlds

section Samples

/-- Replies are written as their JSON text, and the known ones are read back. -/
def sampleCodec (known : List LlmResult) : ReplyCodec where
  encode := serialize
  decode bytes := known.find? fun reply => serialize reply = bytes

/-- A reply with two calls of a tool. -/
def sampleResponse : ModelResponse :=
  ⟨["call-1", "call-2"].map fun id => .toolCall ⟨"read_file", "\x7b\x7d", some id⟩, some .toolCall,
    none⟩

def sampleAgent : CodingAgent Unit where
  sessionId := "session"
  maxToolCalls := some 1
  maxRounds := 8
  turnOutput := 4096
  allowShell := false
  checkpointRequested := false
  systemPrompt := "system"
  binding := none
  checks :=
    { telemetryValid := fun _ => true
      continuationValid := fun _ => .ok ()
      continuationBytes := fun _ => 2
      argsObject := fun args => args = "\x7b\x7d" }
  measures :=
    { roundBudgetExceeded := fun _ => false
      contentBytes := fun _ => none
      assistantDominated := fun _ _ _ => false
      supportsContextHandles := false }
  codec := sampleCodec [.fromResponse id none sampleResponse]
  compactJson := some
  shellCommand _ := none
  scrub text := text
  boundText _ text := text
  namingFailure name := name
  providerClass := .statelessAttested
  containsSecret _ := false
  continuationSafe _ := .ok ()
  looksLikeCall _ := false

/-- The outside of a step whose provider answers with the response. -/
def sampleOutside (response : ModelResponse) : Outside where
  now := 2
  halted := false
  requestHash := "0000000000000000000000000000000000000000000000000000000000000000"
  contractHash := "0000000000000000000000000000000000000000000000000000000000000000"
  contextVersion := 1
  answer := .response response
  outcome := (true, "text")
  ingest _ _ := none

/-- A turn whose reply has two calls, one over the budget of one, and the same
prompt once more. -/
def sampleActions : List Action :=
  .start sampleRequest "first" 1 ::
    List.replicate 13 (.advance 0 (sampleOutside sampleResponse)) ++
  [.start sampleRequest "second" 4000, .renew 1 4001]

theorem withinBudget_sampleActions :
    sampleActions.filterMap Action.drawn = ["first", "second"] ∧
      (run (World.step sampleAgent) (World.empty "session") sampleActions).WithinBudget
        sampleAgent := by
  constructor
  · rfl
  · exact withinBudget_of_run sampleAgent "session" sampleActions (by decide)

end Samples

end Llxprt.Agent
