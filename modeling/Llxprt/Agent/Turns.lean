import Llxprt.Agent.Decisions
import Llxprt.Log.Permits

/-!
# The provider turns of an owner

A command moves the records of the owner it acts for; the records of other
owners it leaves alone or recovers with their branch.  What was admitted stays
admitted, with the reply and the calls it was admitted with.
-/

namespace Llxprt.Agent

open Llxprt.Kernel Llxprt.Kernel.Recorded Llxprt.Rust Llxprt.Gateway Llxprt.Log

/-- The call that an execution was recorded for. -/
def callOf (execution : ExecutionIntent) : ToolCall :=
  ⟨execution.id, execution.tool, execution.args⟩

theorem map_callOf_executionsOf (reply : LlmResult) :
    (executionsOf reply).map callOf = reply.calls := by
  simp [executionsOf, callOf, Function.comp_def]

/-- What a command of the owner does to a record. -/
inductive RecordStep (owner : String) (command : Gateway.Command) (record : TurnRecord) :
    TurnRecord → Prop where
  | kept : RecordStep owner command record record
  | staged {bytes : Bytes} (own : record.intent.owner = owner)
      (names : command = .stage record.intent.identity bytes) (status : record.status = .intent) :
      RecordStep owner command record { record with response := some bytes, status := .pending }
  | admitted {executions : List ExecutionIntent} (own : record.intent.owner = owner)
      (names : command = .admitReply record.intent.identity executions)
      (status : record.status = .pending) :
      RecordStep owner command record { record with executions := executions, status := .admitted }
  | rejected (own : record.intent.owner = owner)
      (names : command = .reject record.intent.identity) (isOpen : record.isOpen) :
      RecordStep owner command record { record with response := none, status := .rejected }
  | completed {before after : List ExecutionIntent} {execution : ExecutionIntent} {call : String}
      {outcome : Bool × String} (own : record.intent.owner = owner)
      (names : command = .complete record.intent.identity call outcome.1 outcome.2)
      (status : record.status = .admitted)
      (split : record.executions = before ++ execution :: after) :
      RecordStep owner command record { record with
        executions := before ++ { execution with completion := some outcome } :: after }
  | recovered (names : command = .recover record.intent.branch) :
      RecordStep owner command record record.recover

namespace RecordStep

variable {owner : String} {command : Gateway.Command} {record next : TurnRecord}

theorem intent_eq (step : RecordStep owner command record next) : next.intent = record.intent := by
  cases step <;> rfl

/-- An admitted record keeps its reply and its calls. -/
theorem of_admitted (step : RecordStep owner command record next)
    (status : record.status = .admitted) :
    next.status = .admitted ∧ next.response = record.response ∧
      next.executions.map callOf = record.executions.map callOf := by
  have closed : ¬ record.isOpen := by
    rintro (was | was) <;> rw [was] at status <;> cases status
  cases step with
  | kept => exact ⟨status, rfl, rfl⟩
  | staged own names was => rw [was] at status; cases status
  | admitted own names was => rw [was] at status; cases status
  | rejected own names isOpen => exact absurd isOpen closed
  | completed own names was split =>
      refine ⟨status, rfl, ?_⟩
      rw [split, List.map_append, List.map_append, List.map_cons, List.map_cons]
      rfl
  | recovered names =>
      refine ⟨(TurnRecord.recover_status_of_closed closed).trans status,
        TurnRecord.recover_response_of_closed closed, ?_⟩
      change (record.executions.map _).map callOf = _
      rw [List.map_map]
      rfl

/-- The record of another owner is left alone or recovered. -/
theorem foreign (step : RecordStep owner command record next)
    (other : record.intent.owner ≠ owner) : next = record ∨ next = record.recover := by
  cases step with
  | kept => exact .inl rfl
  | staged own => exact absurd own other
  | admitted own => exact absurd own other
  | rejected own => exact absurd own other
  | completed own => exact absurd own other
  | recovered names => exact .inr rfl

end RecordStep

section Commands

variable {τ κ : Type} {checks : Checks τ κ}
  {state later : SessionState τ κ} {branchId owner : String} {command : Gateway.Command}

/-- A command on a record that passed the fence moves the record of its owner. -/
theorem onRecord_steps {identity : String} {change : TurnRecord → Except GatewayError TurnRecord}
    {turns : List TurnRecord} (validated : state.Validated)
    (fenced : ∃ record ∈ state.providerTurns, record.intent.identity = identity ∧
      record.intent.owner = owner)
    (moves : ∀ record next, record.intent.owner = owner → record.intent.identity = identity →
      change record = .ok next → RecordStep owner command record next)
    (accepted : onRecord state.providerTurns identity change = .ok turns) :
    List.Forall₂ (RecordStep owner command) state.providerTurns turns := by
  simp only [onRecord, bind_eq_ok, okOr_eq_ok, pure_eq_ok] at accepted
  rcases accepted with ⟨record, present, next, changed, rfl⟩
  rcases fenced with ⟨own, member, named, held⟩
  refine forall₂_updateFirst (fun _ => .kept) ?_
  intro item found
  rw [present, Option.some.injEq] at found
  subst found
  have called := List.find?_some present
  have hit : record.intent.identity = identity := of_decide_eq_true called
  have same : record = own := List.inj_on_of_nodup_map validated.turns.unique
    (List.mem_of_find?_eq_some present) member (hit.trans named.symm)
  exact moves record next (same ▸ held) hit changed

/-- A staged or admitted reply changes the one record of its identity. -/
theorem providerEvent_split {identity : String}
    {change : TurnRecord → Except GatewayError TurnRecord} (validated : state.Validated)
    (accepted : providerEvent state branchId owner command = .ok later)
    (fence : providerFence state branchId owner command = .ok () →
      (state.providerTurns.any fun record => record.intent.identity = identity &&
        record.intent.branch = branchId && record.intent.owner = owner) = true)
    (changes : Gateway.apply state.providerTurns command =
      onRecord state.providerTurns identity change) :
    ∃ before record after next, state.providerTurns = before ++ record :: after ∧
      record.intent.identity = identity ∧ record.intent.branch = branchId ∧
      record.intent.owner = owner ∧ change record = .ok next ∧
      later = { state with providerTurns := before ++ next :: after } := by
  rcases providerEvent_eq_ok accepted with ⟨fenced, turns, applied, rfl⟩
  rw [changes] at applied
  simp only [onRecord, bind_eq_ok, okOr_eq_ok, pure_eq_ok] at applied
  rcases applied with ⟨record, present, next, changed, rfl⟩
  have hit := fence fenced
  simp only [List.any_eq_true, Bool.and_eq_true, decide_eq_true_eq] at hit
  rcases hit with ⟨own, member, ⟨named, branch⟩, held⟩
  have called := List.find?_some present
  have same : record = own := List.inj_on_of_nodup_map validated.turns.unique
    (List.mem_of_find?_eq_some present) member ((of_decide_eq_true called).trans named.symm)
  subst same
  rcases updateFirst_of_find? present with ⟨before, after, split, _, _, updated⟩
  rw [updated]
  exact ⟨before, record, after, next, split, named, branch, held, changed, rfl⟩

theorem stage_split {identity : String} {bytes : Bytes} (validated : state.Validated)
    (applied : applyEvent checks state (.provider branchId owner (.stage identity bytes)) =
      .ok later) :
    ∃ before record after, state.providerTurns = before ++ record :: after ∧
      record.intent.identity = identity ∧ record.intent.owner = owner ∧
      later.providerTurns =
        before ++ { record with response := some bytes, status := .pending } :: after := by
  rcases @providerEvent_split _ _ _ _ _ _ _ identity (fun record => record.stage bytes) validated
    applied (fun fence => by
      simpa only [providerFence, reject_eq_ok, Decidable.not_not] using fence) rfl with
    ⟨before, record, after, next, split, named, _, held, staged, rfl⟩
  rcases stage_eq_ok.mp staged with ⟨_, _, rfl⟩
  exact ⟨before, record, after, split, named, held, rfl⟩

theorem admit_split {identity : String} {executions : List ExecutionIntent}
    (validated : state.Validated)
    (applied : applyEvent checks state (.provider branchId owner (.admitReply identity executions)) =
      .ok later) :
    ∃ before record after, state.providerTurns = before ++ record :: after ∧
      record.intent.identity = identity ∧ record.intent.branch = branchId ∧
      record.intent.owner = owner ∧ record.status = .pending ∧
      later.providerTurns =
        before ++ { record with executions := executions, status := .admitted } :: after := by
  rcases @providerEvent_split _ _ _ _ _ _ _ identity (fun record => record.admitReply executions)
    validated applied (fun fence => by
      simpa only [providerFence, reject_eq_ok, Decidable.not_not] using fence) rfl with
    ⟨before, record, after, next, split, named, branch, held, admitted, rfl⟩
  rcases admit_eq_ok.mp admitted with ⟨status, _, _, _, rfl⟩
  exact ⟨before, record, after, split, named, branch, held, status, rfl⟩

/-- What an accepted command does to the turns. -/
theorem providerEvent_turns (validated : state.Validated)
    (accepted : providerEvent state branchId owner command = .ok later) :
    (∃ intent, command = .intent intent ∧ intent.branch = branchId ∧ intent.owner = owner ∧
      (∀ record ∈ state.providerTurns, record.intent.identity ≠ intent.identity) ∧
      later = { state with providerTurns := state.providerTurns ++ [.fresh intent] }) ∨
    ∃ turns, List.Forall₂ (RecordStep owner command) state.providerTurns turns ∧
      later = { state with providerTurns := turns } := by
  rcases providerEvent_eq_ok accepted with ⟨fence, turns, applied, rfl⟩
  have fenced : ∀ identity, (state.providerTurns.any fun record =>
        record.intent.identity = identity && record.intent.branch = branchId &&
          record.intent.owner = owner) = true →
      ∃ record ∈ state.providerTurns, record.intent.identity = identity ∧
        record.intent.owner = owner := by
    intro identity hit
    simp only [List.any_eq_true, Bool.and_eq_true, decide_eq_true_eq] at hit
    rcases hit with ⟨record, member, ⟨named, _⟩, held⟩
    exact ⟨record, member, named, held⟩
  cases command with
  | intent intent =>
      left
      simp only [providerFence, reject_eq_ok, not_or, Decidable.not_not] at fence
      rcases insert_eq_ok.mp applied with ⟨_, unused, rfl⟩
      exact ⟨intent, rfl, fence.1, fence.2.1, unused, rfl⟩
  | stage identity bytes =>
      right
      simp only [providerFence, reject_eq_ok, Decidable.not_not] at fence
      refine ⟨turns, onRecord_steps validated (fenced identity fence) ?_ applied, rfl⟩
      intro record next own named staged
      rcases stage_eq_ok.mp staged with ⟨status, _, rfl⟩
      exact .staged own (by rw [named]) status
  | admitReply identity executions =>
      right
      simp only [providerFence, reject_eq_ok, Decidable.not_not] at fence
      refine ⟨turns, onRecord_steps validated (fenced identity fence) ?_ applied, rfl⟩
      intro record next own named admitted
      rcases admit_eq_ok.mp admitted with ⟨status, _, _, _, rfl⟩
      exact .admitted own (by rw [named]) status
  | reject identity =>
      right
      simp only [providerFence, reject_eq_ok, Decidable.not_not] at fence
      refine ⟨turns, onRecord_steps validated (fenced identity fence) ?_ applied, rfl⟩
      intro record next own named rejected
      rcases reject_record_eq_ok.mp rejected with ⟨status, rfl⟩
      exact .rejected own (by rw [named]) status
  | complete identity call ok result =>
      right
      simp only [providerFence, reject_eq_ok, Decidable.not_not] at fence
      refine ⟨turns, onRecord_steps validated (fenced identity fence) ?_ applied, rfl⟩
      intro record next own named completed
      simp only [TurnRecord.complete, bind_eq_ok, reject_eq_ok, okOr_eq_ok, pure_eq_ok,
        Decidable.not_not] at completed
      rcases completed with ⟨_, status, found, present, _, _, rfl⟩
      rcases updateFirst_of_find? present with ⟨before, after, split, _, _, updated⟩
      rw [updated]
      exact @RecordStep.completed owner _ record before after found call (ok, result) own
        (by rw [named]) status split
  | recover branch =>
      right
      obtain rfl := pure_eq_ok.mp applied
      refine ⟨_, ?_, rfl⟩
      apply List.forall₂_map_right_iff.mpr
      apply List.forall₂_same.mpr
      intro record _
      split
      · rename_i same
        exact .recovered (by rw [same])
      · exact .kept

end Commands

section Frames

variable {τ κ : Type} {checks : Checks τ κ}
  {state later last : SessionState τ κ} {branchId owner : String}

/-- The owner holds the branch. -/
def Holds (state : SessionState τ κ) (branchId owner : String) : Prop :=
  ∃ branch, state.branch branchId = some branch ∧ branch.owner = owner

/-- What an operation of an owner leaves of a record: its intent, what it was
admitted with, and everything else when it is of another owner and not recovered. -/
structure Followed (owner : String) (record next : TurnRecord) : Prop where
  intent : next.intent = record.intent
  admitted : record.status = .admitted → next.status = .admitted ∧
    next.response = record.response ∧ next.executions.map callOf = record.executions.map callOf
  foreign : record.intent.owner ≠ owner → next = record ∨ next = record.recover

theorem Followed.refl (owner : String) (record : TurnRecord) : Followed owner record record :=
  ⟨rfl, fun status => ⟨status, rfl, rfl⟩, fun _ => .inl rfl⟩

theorem Followed.trans {record middle next : TurnRecord} (first : Followed owner record middle)
    (second : Followed owner middle next) : Followed owner record next where
  intent := second.intent.trans first.intent
  admitted status := by
    rcases first.admitted status with ⟨still, response, calls⟩
    rcases second.admitted still with ⟨last, sameResponse, sameCalls⟩
    exact ⟨last, sameResponse.trans response, sameCalls.trans calls⟩
  foreign other := by
    have more := second.foreign (first.intent.symm ▸ other)
    rcases first.foreign other with rfl | rfl
    · exact more
    · rcases more with rfl | rfl
      · exact .inr rfl
      · exact .inr TurnRecord.settled_recover.recover

theorem RecordStep.followed {command : Gateway.Command} {record next : TurnRecord}
    (step : RecordStep owner command record next) : Followed owner record next :=
  ⟨step.intent_eq, step.of_admitted, step.foreign⟩

/-- What operations of one owner leave of a session. -/
structure Framed (owner : String) (state later : SessionState τ κ) : Prop where
  holds : ∀ branchId other, Holds later branchId other ↔ Holds state branchId other
  kept : ∀ record ∈ state.providerTurns, ∃ next ∈ later.providerTurns, Followed owner record next
  traced : ∀ next ∈ later.providerTurns, next.intent.owner = owner ∨
    ∃ record ∈ state.providerTurns, Followed owner record next

theorem Framed.refl (owner : String) (state : SessionState τ κ) : Framed owner state state where
  holds _ _ := .rfl
  kept record member := ⟨record, member, .refl owner record⟩
  traced next member := .inr ⟨next, member, .refl owner next⟩

theorem Framed.trans (first : Framed owner state later) (second : Framed owner later last) :
    Framed owner state last where
  holds branchId other := (second.holds branchId other).trans (first.holds branchId other)
  kept record member := by
    rcases first.kept record member with ⟨middle, inside, followed⟩
    rcases second.kept middle inside with ⟨next, present, more⟩
    exact ⟨next, present, followed.trans more⟩
  traced next member := by
    rcases second.traced next member with own | ⟨middle, inside, followed⟩
    · exact .inl own
    · rcases first.traced middle inside with own | ⟨record, present, earlier⟩
      · exact .inl (followed.intent ▸ own)
      · exact .inr ⟨record, present, earlier.trans followed⟩

/-- The first branch of a name is the same place in branches that are related one
by one. -/
theorem forall₂_find? {α : Type} {relation : α → α → Prop} {found : α → Bool} {items later : List α}
    (related : List.Forall₂ relation items later)
    (same : ∀ item next, relation item next → found next = found item) {item : α}
    (present : items.find? found = some item) :
    ∃ next, later.find? found = some next ∧ relation item next := by
  induction related with
  | nil => cases present
  | @cons head next tail rest first _ ih =>
      have agrees := same head next first
      by_cases hit : found head = true
      · rw [List.find?_cons_of_pos hit, Option.some.injEq] at present
        exact ⟨next, List.find?_cons_of_pos (agrees.trans hit), present ▸ first⟩
      · rw [List.find?_cons_of_neg hit] at present
        rcases ih present with ⟨other, located, kept⟩
        refine ⟨other, ?_, kept⟩
        rw [List.find?_cons_of_neg (by rw [agrees]; exact hit)]
        exact located

/-- An event that acts for an owner leaves every branch with its owner. -/
theorem holds_of_acting {event : Event τ κ}
    (applied : applyEvent checks state event = .ok later) (acts : event.acting ≠ none)
    (target other : String) : Holds later target other ↔ Holds state target other := by
  rcases applyEvent_cases applied with ⟨_, _, _, _, _, rfl, _⟩ | stays
  · exact absurd rfl acts
  · have kept : ∀ branch next, Touched event branch next →
        next.branchId = branch.branchId ∧ next.owner = branch.owner := by
      intro branch next touched
      refine ⟨touched.continued.branchId, ?_⟩
      rcases touched.owner with same | reclaimed
      · exact same
      · cases event with
        | branchReclaimed _ _ _ _ _ => exact absurd rfl acts
        | _ => cases reclaimed
    constructor
    · rintro ⟨next, present, held⟩
      rcases forall₂_find? stays.touched.flip (fun next branch touched => by
        rw [(kept branch next touched).1]) present with ⟨branch, found, touched⟩
      exact ⟨branch, found, (kept branch next touched).2.symm.trans held⟩
    · rintro ⟨branch, present, held⟩
      rcases forall₂_find? stays.touched (fun branch next touched => by
        rw [(kept branch next touched).1]) present with ⟨next, found, touched⟩
      exact ⟨next, found, (kept branch next touched).2.trans held⟩

/-- An event that acts for an owner frames everything else. -/
theorem framed_of_acting {event : Event τ κ} (validated : state.Validated)
    (applied : applyEvent checks state event = .ok later)
    (acts : event.acting = some (branchId, owner)) : Framed owner state later := by
  have holds := holds_of_acting applied (by rw [acts]; simp)
  by_cases provider : ∃ command, event = .provider branchId owner command
  · rcases provider with ⟨command, rfl⟩
    rcases providerEvent_turns validated applied with ⟨intent, _, _, own, _, rfl⟩ |
      ⟨turns, related, rfl⟩
    · constructor
      · exact holds
      · intro record member
        exact ⟨record, List.mem_append_left _ member, .refl owner record⟩
      · intro next member
        rcases List.mem_append.mp member with old | new
        · exact .inr ⟨next, old, .refl owner next⟩
        · rw [List.mem_singleton.mp new]
          exact .inl own
    · constructor
      · exact holds
      · intro record member
        rcases List.getElem?_of_mem member with ⟨index, found⟩
        rcases forall₂_getElem? related found with ⟨next, present, step⟩
        exact ⟨next, List.mem_of_getElem? present, step.followed⟩
      · intro next member
        rcases List.getElem?_of_mem member with ⟨index, found⟩
        rcases forall₂_getElem? related.flip found with ⟨record, present, step⟩
        exact .inr ⟨record, List.mem_of_getElem? present, RecordStep.followed step⟩
  · have turns : later.providerTurns = state.providerTurns := by
      apply applyEvent_turns applied
      rintro target actor command rfl
      cases acts
      exact provider ⟨command, rfl⟩
    constructor
    · exact holds
    · intro record member
      exact ⟨record, turns ▸ member, .refl owner record⟩
    · intro next member
      exact .inr ⟨next, turns ▸ member, .refl owner next⟩

end Frames

end Llxprt.Agent
