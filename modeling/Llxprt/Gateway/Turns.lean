import Llxprt.Gateway.Protocol

/-!
# Runs of the provider-turn protocol

A settled record is final: no command changes it.  Every other record moves
along the order of its statuses, keeps its intent, and keeps each completion
that was set.  A recovery settles all records of its branch at once, so no
unsettled record can come before an indeterminate one of the same branch.
-/

namespace Llxprt.Gateway

open Llxprt.Kernel Llxprt.Rust

/-- The moves of a status. -/
inductive Status.Move : Status → Status → Prop where
  | staged : Move .intent .pending
  | admitted : Move .pending .admitted
  | rejected {status : Status} (isOpen : status = .intent ∨ status = .pending) :
      Move status .rejected
  | abandoned {status : Status} (isOpen : status = .intent ∨ status = .pending) :
      Move status .indeterminate

/-- The fields of a record agree with its status. -/
structure TurnRecord.WellFormed (record : TurnRecord) : Prop where
  owner : record.intent.owner ≠ ""
  branch : record.intent.branch ≠ ""
  epoch : record.intent.epoch ≠ 0
  allowance : record.intent.allowance ≠ 0
  requestHash : hashValid record.intent.requestHash = true
  contractHash : hashValid record.intent.contractHash = true
  response : record.response ≠ none ↔ record.status = .pending ∨ record.status = .admitted
  bounded : ∀ bytes, record.response = some bytes → bytes.length ≤ record.intent.allowance.toNat
  released : record.status ≠ .admitted → record.executions = []
  named : ∀ call ∈ record.executions, call.id ≠ "" ∧ call.tool ≠ ""
  nodup : (record.executions.map ExecutionIntent.id).Nodup

/-- Identities are unique and every record is well formed. -/
structure WellFormed (records : List TurnRecord) : Prop where
  unique : (records.map fun record => record.intent.identity).Nodup
  each : ∀ record ∈ records, record.WellFormed

/-- A recovery that made a record indeterminate has settled the earlier records of
its branch. -/
def Follows (earlier later : TurnRecord) : Prop :=
  later.intent.branch = earlier.intent.branch → later.status = .indeterminate → earlier.Settled

/-- What commands ensure and the fields of single records do not show. -/
structure Replayable (records : List TurnRecord) : Prop where
  identities : ∀ record ∈ records,
    record.intent.identity ≠ "" ∧ record.intent.identity.utf8ByteSize ≤ 256
  ordered : records.Pairwise Follows

/-- What commands leave of a record. -/
structure TurnRecord.Grown (record next : TurnRecord) : Prop where
  intent : next.intent = record.intent
  status : Relation.ReflTransGen Status.Move record.status next.status
  completions : ∀ (position : Nat) (call : ExecutionIntent), record.executions[position]? = some call →
    call.completion ≠ none → next.executions[position]? = some call
  settled : record.Settled → next = record

section Records

variable {record next : TurnRecord}

theorem TurnRecord.Settled.of_moved (settled : record.Settled) (moved : Moved record next) :
    next = record := by
  cases moved with
  | kept => rfl
  | staged bytes status bounded => exact absurd (.inl status) settled.closed
  | admitted executions status present named nodup => exact absurd (.inr status) settled.closed
  | rejected status => exact absurd status settled.closed
  | completed before after call outcome status split incomplete =>
      have set := settled.complete call (by rw [split]; simp)
      rw [incomplete] at set
      cases set

theorem TurnRecord.recover_status (isOpen : record.isOpen) :
    record.recover.status = .indeterminate :=
  if_pos isOpen

theorem TurnRecord.recover_status_of_closed (closed : ¬ record.isOpen) :
    record.recover.status = record.status :=
  if_neg closed

theorem TurnRecord.recover_response (isOpen : record.isOpen) : record.recover.response = none :=
  if_pos isOpen

theorem TurnRecord.recover_response_of_closed (closed : ¬ record.isOpen) :
    record.recover.response = record.response :=
  if_neg closed

theorem TurnRecord.settled_recover : record.recover.Settled := by
  constructor
  · by_cases isOpen : record.isOpen
    · rw [TurnRecord.isOpen, recover_status isOpen]
      simp
    · rw [TurnRecord.isOpen, recover_status_of_closed isOpen]
      exact isOpen
  · intro call member
    rcases List.mem_map.mp member with ⟨_, _, rfl⟩
    rfl

/-- A call that is complete is left as it is. -/
theorem completion_recover {call : ExecutionIntent} (complete : call.completion ≠ none) :
    { call with completion := some (call.completion.getD TurnRecord.abandonedNote) } = call := by
  rcases call with ⟨id, tool, args, readOnly, _ | outcome⟩
  · exact absurd rfl complete
  · rfl

theorem TurnRecord.Settled.recover (settled : record.Settled) : record.recover = record := by
  have executions : record.recover.executions = record.executions := by
    change record.executions.map _ = record.executions
    rw [List.map_congr_left (g := id), List.map_id]
    intro call member
    exact completion_recover (Option.isSome_iff_ne_none.mp (settled.complete call member))
  have status := recover_status_of_closed settled.closed
  have response := recover_response_of_closed settled.closed
  rcases record with ⟨intent, _, _, _⟩
  unfold TurnRecord.recover at executions status response ⊢
  rw [TurnRecord.mk.injEq]
  exact ⟨rfl, status, response, executions⟩

theorem Moved.intent_eq (moved : Moved record next) : next.intent = record.intent := by
  cases moved <;> rfl

theorem Moved.status_move (moved : Moved record next) :
    next.status = record.status ∨ Status.Move record.status next.status := by
  cases moved with
  | kept => exact .inl rfl
  | staged bytes status bounded =>
      rw [status]
      exact .inr .staged
  | admitted executions status present named nodup =>
      rw [status]
      exact .inr .admitted
  | rejected status => exact .inr (.rejected status)
  | completed before after call outcome status split incomplete => exact .inl rfl

theorem TurnRecord.recover_status_move :
    record.recover.status = record.status ∨ Status.Move record.status record.recover.status := by
  by_cases isOpen : record.isOpen
  · rw [recover_status isOpen]
    exact .inr (.abandoned isOpen)
  · exact .inl (recover_status_of_closed isOpen)

/-- A move that makes a record indeterminate is none: only a recovery does. -/
theorem Moved.indeterminate (moved : Moved record next) (status : next.status = .indeterminate) :
    record.status = .indeterminate := by
  cases moved with
  | kept => exact status
  | staged bytes was bounded => cases status
  | admitted executions was present named nodup => cases status
  | rejected was => cases status
  | completed before after call outcome was split incomplete => exact status

theorem Moved.wellFormed (moved : Moved record next) (wellFormed : record.WellFormed) :
    next.WellFormed := by
  cases moved with
  | kept => exact wellFormed
  | staged bytes status bounded =>
      have none : record.executions = [] := wellFormed.released (by rw [status]; simp)
      refine { wellFormed with response := ?_, bounded := ?_, released := fun _ => none }
      · simp
      · intro stored same
        exact Option.some.inj same ▸ bounded
  | admitted executions status present named nodup =>
      refine { wellFormed with
        response := ?_, released := fun other => absurd rfl other, named := ?_, nodup := nodup }
      · exact ⟨fun _ => .inr rfl, fun _ => present⟩
      · intro call member
        exact ⟨(named call member).1, (named call member).2.1⟩
  | rejected status =>
      have none : record.executions = [] := by
        apply wellFormed.released
        rcases status with status | status <;> rw [status] <;> simp
      refine { wellFormed with response := ?_, bounded := ?_, released := fun _ => none }
      · simp
      · intro stored same
        cases same
  | completed before after call outcome status split incomplete =>
      have ids : (before ++ { call with completion := some outcome } :: after).map
          ExecutionIntent.id = record.executions.map ExecutionIntent.id := by
        rw [split, List.map_append, List.map_append, List.map_cons, List.map_cons]
      refine { wellFormed with
        released := fun other => absurd status other, named := ?_, nodup := ids ▸ wellFormed.nodup }
      intro other member
      have named := wellFormed.named
      rw [split] at named
      rcases List.mem_append.mp member with earlier | later
      · exact named other (List.mem_append_left _ earlier)
      · rcases List.mem_cons.mp later with rfl | later
        · exact named call (by simp)
        · exact named other (by simp [later])

theorem TurnRecord.WellFormed.recover (wellFormed : record.WellFormed) :
    record.recover.WellFormed := by
  have ids : record.recover.executions.map ExecutionIntent.id =
      record.executions.map ExecutionIntent.id := by
    simp [TurnRecord.recover, Function.comp_def]
  have named : ∀ call ∈ record.recover.executions, call.id ≠ "" ∧ call.tool ≠ "" := by
    intro call member
    rcases List.mem_map.mp member with ⟨old, present, rfl⟩
    exact wellFormed.named old present
  by_cases isOpen : record.isOpen
  · have status := recover_status isOpen
    have response := recover_response isOpen
    have none : record.executions = [] := by
      apply wellFormed.released
      rcases isOpen with was | was <;> rw [was] <;> simp
    refine { wellFormed with
      response := ?_, bounded := ?_, released := ?_, named := named, nodup := ids ▸ wellFormed.nodup }
    · rw [status, response]
      simp
    · intro stored same
      rw [response] at same
      cases same
    · intro _
      simp [TurnRecord.recover, none]
  · have status := recover_status_of_closed isOpen
    have response := recover_response_of_closed isOpen
    refine { wellFormed with
      response := ?_, bounded := ?_, released := ?_, named := named, nodup := ids ▸ wellFormed.nodup }
    · rw [status, response]
      exact wellFormed.response
    · intro stored same
      exact wellFormed.bounded stored (response ▸ same)
    · intro other
      have none := wellFormed.released (status ▸ other)
      simp [TurnRecord.recover, none]

theorem TurnRecord.Grown.refl (record : TurnRecord) : record.Grown record where
  intent := rfl
  status := .refl
  completions _ _ present _ := present
  settled _ := rfl

theorem TurnRecord.Grown.trans {last : TurnRecord} (first : record.Grown next)
    (second : next.Grown last) : record.Grown last where
  intent := second.intent.trans first.intent
  status := first.status.trans second.status
  completions position call present complete :=
    second.completions position call (first.completions position call present complete) complete
  settled isSettled := by
    have same := first.settled isSettled
    rw [same] at second
    exact second.settled isSettled

theorem Moved.grown (moved : Moved record next) (wellFormed : record.WellFormed) :
    record.Grown next where
  intent := moved.intent_eq
  status := by
    rcases moved.status_move with same | move
    · rw [same]
    · exact .single move
  settled isSettled := isSettled.of_moved moved
  completions position call present complete := by
    cases moved with
    | kept => exact present
    | staged bytes status bounded => exact present
    | admitted executions status _ named nodup =>
        -- a record is admitted once, so there was nothing to overwrite
        rw [wellFormed.released (by rw [status]; simp)] at present
        simp at present
    | rejected status => exact present
    | completed before after opened outcome status split incomplete =>
        rw [split] at present
        change (before ++ _ :: after)[position]? = some call
        rw [List.getElem?_append] at present ⊢
        by_cases early : position < before.length
        · rwa [if_pos early] at present ⊢
        · rw [if_neg early] at present ⊢
          generalize position - before.length = offset at present ⊢
          cases offset with
          | zero =>
              rw [List.getElem?_cons_zero, Option.some.injEq] at present
              rw [← present] at complete
              exact absurd incomplete complete
          | succ offset => exact present

theorem TurnRecord.grown_recover : record.Grown record.recover where
  intent := rfl
  status := by
    rcases record.recover_status_move with same | move
    · rw [same]
    · exact .single move
  settled isSettled := isSettled.recover
  completions position call present complete := by
    change (record.executions.map _)[position]? = some call
    rw [List.getElem?_map, present, Option.map_some, completion_recover complete]

end Records

section Steps

variable {records later : List TurnRecord} {command : Command}

theorem TurnRecord.wellFormed_fresh {intent : SendIntent} (sendable : intent.Sendable) :
    (TurnRecord.fresh intent).WellFormed where
  owner := sendable.owner
  branch := sendable.branch
  epoch := sendable.epoch
  allowance := sendable.allowance
  requestHash := sendable.requestHash
  contractHash := sendable.contractHash
  response := by simp [TurnRecord.fresh]
  bounded _ same := by cases same
  released _ := rfl
  named _ member := by cases member
  nodup := .nil

theorem WellFormed.append (wellFormed : WellFormed records) {record : TurnRecord}
    (unused : ∀ other ∈ records, other.intent.identity ≠ record.intent.identity)
    (formed : record.WellFormed) : WellFormed (records ++ [record]) := by
  constructor
  · rw [List.map_append, List.nodup_append]
    refine ⟨wellFormed.unique, List.pairwise_singleton _ _, ?_⟩
    intro identity listed other last same
    rcases List.mem_map.mp listed with ⟨earlier, member, rfl⟩
    rw [List.map_singleton, List.mem_singleton] at last
    exact unused earlier member (same.trans last)
  · exact List.forall_mem_append.mpr ⟨wellFormed.each, List.forall_mem_singleton.mpr formed⟩

/-- A change of single records that keeps their identities. -/
theorem WellFormed.change (wellFormed : WellFormed records)
    {relation : TurnRecord → TurnRecord → Prop} (changed : List.Forall₂ relation records later)
    (intent : ∀ record next, relation record next → next.intent = record.intent)
    (formed : ∀ record next, relation record next → record.WellFormed → next.WellFormed) :
    WellFormed later := by
  have identities : later.map (fun record => record.intent.identity) =
      records.map fun record => record.intent.identity := by
    rw [← List.forall₂_eq_eq_eq, List.forall₂_map_left_iff, List.forall₂_map_right_iff]
    refine changed.flip.imp ?_
    intro next record moved
    rw [intent record next moved]
  constructor
  · rw [identities]
    exact wellFormed.unique
  · intro next member
    rcases List.getElem?_of_mem member with ⟨index, found⟩
    rcases forall₂_getElem? changed.flip found with ⟨record, present, moved⟩
    exact formed record next moved (wellFormed.each record (List.mem_of_getElem? present))

/-- The step of a recovery, record by record. -/
def Recovered (branch : String) (record next : TurnRecord) : Prop :=
  next = if record.intent.branch = branch then record.recover else record

theorem forall₂_recovered (branch : String) (records : List TurnRecord) :
    List.Forall₂ (Recovered branch) records (records.map fun record =>
      if record.intent.branch = branch then record.recover else record) := by
  rw [List.forall₂_map_right_iff, List.forall₂_same]
  exact fun _ _ => rfl

/-- An accepted command keeps the lists that commands can produce. -/
theorem apply_keeps (accepted : apply records command = .ok later) (wellFormed : WellFormed records)
    (replayable : Replayable records) : WellFormed later ∧ Replayable later := by
  rcases apply_cases accepted with ⟨intent, _, sendable, unused, rfl⟩ | moved | ⟨branch, _, rfl⟩
  · refine ⟨wellFormed.append unused (TurnRecord.wellFormed_fresh sendable), ?_, ?_⟩
    · exact List.forall_mem_append.mpr ⟨replayable.identities,
        List.forall_mem_singleton.mpr ⟨sendable.identity, sendable.length⟩⟩
    · rw [List.pairwise_append]
      refine ⟨replayable.ordered, List.pairwise_singleton _ _, ?_⟩
      intro earlier _ last member _ indeterminate
      rw [List.mem_singleton.mp member] at indeterminate
      cases indeterminate
  · have formed := wellFormed.change moved (fun _ _ step => step.intent_eq)
      fun _ _ step formed => step.wellFormed formed
    refine ⟨formed, ?_, ?_⟩
    · intro next member
      rcases List.getElem?_of_mem member with ⟨index, found⟩
      rcases forall₂_getElem? moved.flip found with ⟨record, present, step⟩
      rw [step.intent_eq]
      exact replayable.identities record (List.mem_of_getElem? present)
    · refine pairwise_of_forall₂ moved replayable.ordered ?_
      intro first second next following step other follows same indeterminate
      have settled := follows (by rwa [← step.intent_eq, ← other.intent_eq])
        (other.indeterminate indeterminate)
      rw [settled.of_moved step]
      exact settled
  · have formed := wellFormed.change (forall₂_recovered branch records)
      (fun record next step => by rw [step]; split <;> rfl)
      fun record next step formed => by
        rw [step]
        split
        · exact formed.recover
        · exact formed
    refine ⟨formed, ?_, ?_⟩
    · intro next member
      rcases List.mem_map.mp member with ⟨record, present, rfl⟩
      have same : (if record.intent.branch = branch then record.recover else record).intent =
          record.intent := by split <;> rfl
      rw [same]
      exact replayable.identities record present
    · rw [List.pairwise_map]
      refine replayable.ordered.imp ?_
      intro first second follows
      by_cases mine : first.intent.branch = branch
      · rw [if_pos mine]
        exact fun _ _ => TurnRecord.settled_recover
      · rw [if_neg mine]
        intro same indeterminate
        by_cases other : second.intent.branch = branch
        · rw [if_pos other] at same
          exact absurd (same.symm.trans other) mine
        · rw [if_neg other] at same indeterminate
          exact follows same indeterminate

/-- Every record is still there after a command, and at most one move on. -/
theorem apply_getElem? (accepted : apply records command = .ok later)
    (wellFormed : WellFormed records) {index : Nat} {record : TurnRecord}
    (present : records[index]? = some record) :
    ∃ next, later[index]? = some next ∧ record.Grown next ∧
      (next.status = record.status ∨ Status.Move record.status next.status) := by
  rcases apply_cases accepted with ⟨intent, _, sendable, unused, rfl⟩ | moved | ⟨branch, _, rfl⟩
  · refine ⟨record, ?_, .refl record, .inl rfl⟩
    rw [List.getElem?_append_left (List.getElem?_eq_some_iff.mp present).1]
    exact present
  · rcases forall₂_getElem? moved present with ⟨next, found, step⟩
    have formed := wellFormed.each record (List.mem_of_getElem? present)
    exact ⟨next, found, step.grown formed, step.status_move⟩
  · rw [List.getElem?_map, present, Option.map_some]
    refine ⟨_, rfl, ?_⟩
    by_cases mine : record.intent.branch = branch
    · rw [if_pos mine]
      exact ⟨TurnRecord.grown_recover, TurnRecord.recover_status_move⟩
    · rw [if_neg mine]
      exact ⟨.refl record, .inl rfl⟩

end Steps

section Runs

variable {records later : List TurnRecord} {commands : List Command}

theorem foldlM_keeps (accepted : commands.foldlM apply records = .ok later)
    (wellFormed : WellFormed records) (replayable : Replayable records) :
    WellFormed later ∧ Replayable later := by
  induction commands generalizing records with
  | nil =>
      rw [List.foldlM_nil, pure_eq_ok] at accepted
      exact accepted ▸ ⟨wellFormed, replayable⟩
  | cons command rest ih =>
      rw [List.foldlM_cons, bind_eq_ok] at accepted
      rcases accepted with ⟨middle, first, others⟩
      rcases apply_keeps first wellFormed replayable with ⟨formed, ordered⟩
      exact ih others formed ordered

theorem foldlM_getElem? (accepted : commands.foldlM apply records = .ok later)
    (wellFormed : WellFormed records) (replayable : Replayable records) {index : Nat}
    {record : TurnRecord} (present : records[index]? = some record) :
    ∃ next, later[index]? = some next ∧ record.Grown next := by
  induction commands generalizing records record with
  | nil =>
      rw [List.foldlM_nil, pure_eq_ok] at accepted
      exact ⟨record, accepted ▸ present, .refl record⟩
  | cons command rest ih =>
      rw [List.foldlM_cons, bind_eq_ok] at accepted
      rcases accepted with ⟨middle, first, others⟩
      rcases apply_keeps first wellFormed replayable with ⟨formed, ordered⟩
      rcases apply_getElem? first wellFormed present with ⟨moved, found, grown, _⟩
      rcases ih others formed ordered found with ⟨next, last, more⟩
      exact ⟨next, last, grown.trans more⟩

theorem replay_keeps (accepted : replay commands = .ok records) :
    WellFormed records ∧ Replayable records := by
  apply foldlM_keeps accepted
  · exact ⟨.nil, fun _ member => absurd member List.not_mem_nil⟩
  · exact ⟨fun _ member => absurd member List.not_mem_nil, .nil⟩

end Runs

section Final

variable {records : List TurnRecord} {record : TurnRecord}

/-- The command stages, admits or completes the reply of the identity. -/
def Command.Advances (identity : String) : Command → Prop
  | .stage target _ | .admitReply target _ | .complete target _ _ _ => target = identity
  | .intent _ | .reject _ | .recover _ => False

/-- Identities are unique, so a command reaches the record it names. -/
theorem WellFormed.find? (wellFormed : WellFormed records) (member : record ∈ records) :
    records.find? (TurnRecord.named record.intent.identity) = some record := by
  rcases List.append_of_mem member with ⟨before, after, rfl⟩
  apply find?_append_hit
  · intro other earlier
    have nodup := wellFormed.unique
    rw [List.map_append, List.nodup_append] at nodup
    simp only [TurnRecord.named, decide_eq_false_iff_not]
    exact nodup.2.2 _ (List.mem_map_of_mem earlier) _ (by simp)
  · simp [TurnRecord.named]

/-- A settled record is never staged, admitted or completed. -/
theorem refuses_of_settled (settled : record.Settled) (wellFormed : WellFormed records)
    (member : record ∈ records) {command : Command}
    (advances : command.Advances record.intent.identity) :
    (apply records command).isOk = false := by
  cases accepted : apply records command with
  | error error => rfl
  | ok later =>
      exfalso
      have found := wellFormed.find? member
      cases command with
      | intent intent => exact advances
      | reject identity => exact advances
      | recover branch => exact advances
      | stage identity bytes =>
          cases advances
          simp only [apply, onRecord, found, okOr, bind_eq_ok, Except.ok.injEq, exists_eq_left',
            stage_eq_ok] at accepted
          rcases accepted with ⟨next, ⟨status, _, _⟩, _⟩
          exact settled.closed (.inl status)
      | admitReply identity executions =>
          cases advances
          simp only [apply, onRecord, found, okOr, bind_eq_ok, Except.ok.injEq, exists_eq_left',
            admit_eq_ok] at accepted
          rcases accepted with ⟨next, ⟨status, _⟩, _⟩
          exact settled.closed (.inr status)
      | complete identity call ok result =>
          cases advances
          simp only [apply, onRecord, found, okOr, bind_eq_ok, Except.ok.injEq, exists_eq_left',
            TurnRecord.complete, reject_eq_ok] at accepted
          rcases accepted with ⟨next, ⟨_, _, execution, present, _, incomplete, _⟩, _⟩
          cases looked : record.executions.find? fun execution => execution.id = call with
          | none =>
              rw [looked] at present
              cases present
          | some call =>
              rw [looked] at present
              cases present
              exact incomplete (settled.complete _ (List.mem_of_find?_eq_some looked))

end Final

end Llxprt.Gateway
