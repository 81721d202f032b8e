import Llxprt.Log.Permits
import Llxprt.Log.Tails

/-!
# Replies to recorded sends

A command for the record of a live reservation is refused for one reason only:
its frame or the state behind it is too large for the log.  A record that is
admitted or rejected has that status in every later state of the log.
-/

namespace Llxprt.Log

open Llxprt.Kernel Llxprt.Kernel.Recorded Llxprt.Rust Llxprt.Gateway

variable {τ κ : Type} {checks : Checks τ κ}
  {state later : SessionState τ κ} {reserved : ReservedRequest κ}

namespace SessionState

/-- The first provider record of the identity. -/
def turn (state : SessionState τ κ) (identity : String) : Option TurnRecord :=
  state.providerTurns.find? (TurnRecord.named identity)

/-- The state with another record in the place of the one of its identity. -/
def setTurn (state : SessionState τ κ) (record : TurnRecord) : SessionState τ κ :=
  { state with
    providerTurns :=
      updateFirst (TurnRecord.named record.intent.identity) (fun _ => record) state.providerTurns }

/-- The provider record of the intent is admitted or rejected. -/
def Concluded (state : SessionState τ κ) (intent : SendIntent) : Prop :=
  ∃ record ∈ state.providerTurns, record.intent = intent ∧
    (record.status = .admitted ∨ record.status = .rejected)

end SessionState

section Turns

theorem mem_of_turn {identity : String} {record : TurnRecord}
    (found : state.turn identity = some record) : record ∈ state.providerTurns :=
  List.mem_of_find?_eq_some found

theorem turn_setTurn {record next : TurnRecord} (intent : next.intent = record.intent)
    (found : state.turn record.intent.identity = some record) :
    (state.setTurn next).turn next.intent.identity = some next := by
  rcases updateFirst_of_find? found with ⟨before, after, _, _, missed, updated⟩
  rw [SessionState.turn, SessionState.setTurn, intent, updated]
  apply find?_append_hit missed
  simp [TurnRecord.named, intent]

/-- An identity has one record, so an open record has not been concluded. -/
theorem not_concluded {record : TurnRecord} (validated : state.Validated)
    (found : state.turn record.intent.identity = some record) (isOpen : record.isOpen) :
    ¬ state.Concluded record.intent := by
  rintro ⟨other, member, same, status⟩
  have one : other = record := by
    have hit := validated.turns.find? member
    rw [same] at hit
    exact Option.some.inj (hit.symm.trans found)
  rw [one] at status
  rcases isOpen with isOpen | isOpen <;> rw [isOpen] at status <;> simp at status

/-- Nothing moves a record that is admitted or rejected. -/
theorem status_of_concluded {status next : Status}
    (concluded : status = .admitted ∨ status = .rejected)
    (moves : Relation.ReflTransGen Status.Move status next) : next = status := by
  rcases Relation.ReflTransGen.cases_head moves with same | ⟨middle, move, _⟩
  · exact same.symm
  · cases move with
    | staged => simp at concluded
    | admitted => simp at concluded
    | rejected isOpen => rcases isOpen with rfl | rfl <;> simp at concluded
    | abandoned isOpen => rcases isOpen with rfl | rfl <;> simp at concluded

/-- Whatever is appended to the log, a concluded intent stays concluded. -/
theorem SessionState.Concluded.step {event : Event τ κ} {intent : SendIntent}
    (concluded : state.Concluded intent) (validated : state.Validated)
    (applied : applyEvent checks state event = .ok later) : later.Concluded intent := by
  rcases concluded with ⟨record, member, same, status⟩
  by_cases provider : ∃ branchId owner command, event = .provider branchId owner command
  · rcases provider with ⟨branchId, owner, command, rfl⟩
    rcases providerEvent_eq_ok applied with ⟨_, turns, accepted, rfl⟩
    rcases List.getElem?_of_mem member with ⟨index, present⟩
    rcases apply_getElem? accepted validated.turns present with ⟨next, found, grown, _⟩
    refine ⟨next, List.mem_of_getElem? found, grown.intent.trans same, ?_⟩
    rw [status_of_concluded status grown.status]
    exact status
  · have kept := applyEvent_turns applied (by simpa using provider)
    exact ⟨record, kept ▸ member, same, status⟩

end Turns

section Room

variable [Recorded τ] [Recorded κ]

/-- The log takes the frame of the event, and the state behind it. -/
structure Room (event : Event τ κ) (later : SessionState τ κ) : Prop where
  frame : (serialize (batchOf [event])).length ≤ maxFramePayload
  session : (serialize later).length ≤ maxSessionBytes

theorem appendEvent_iff {event : Event τ κ} :
    appendEvent checks state event = .ok later ↔
      applyEvent checks state event = .ok later ∧ later.validate checks = .ok () ∧
        Room event later := by
  constructor
  · intro accepted
    rcases appendEvent_eq_ok accepted with ⟨applied, valid⟩
    simp only [appendEvent, bind_eq_ok, reject_eq_ok, pure_eq_ok, checkLogicalWrite,
      Nat.not_lt] at accepted
    rcases accepted with ⟨_, frame, _, _, _, ⟨_, _, session⟩, rfl⟩
    exact ⟨applied, valid, frame, session⟩
  · rintro ⟨applied, valid, room⟩
    have batch : applyBatch checks state (batchOf [event]) = .ok later :=
      applyBatch_eq_ok.mpr ⟨event, rfl, applied, valid⟩
    simp only [appendEvent, bind_eq_ok, reject_eq_ok, pure_eq_ok, checkLogicalWrite, Nat.not_lt]
    exact ⟨(), room.frame, later, batch, (), ⟨(), valid, room.session⟩, rfl⟩

/-- Documents with a small ceiling are far below the caps. -/
theorem room_of_ceiling {event : Event τ κ}
    (frame : ceiling (json [event]) ≤ 2 ^ 20) (session : ceiling (json later) ≤ 2 ^ 20) :
    Room event later := by
  have frameWeight := (weight_batchOf_le [event]).trans
    (Nat.add_le_add_right (weight_le_ceiling (json [event])) 256)
  have sessionWeight := weight_le_ceiling (json later)
  have frameCap : maxFramePayload = 34603008 := rfl
  have sessionCap : maxSessionBytes = 33554432 := rfl
  constructor
  · rw [length_serialize]
    omega
  · rw [length_serialize]
    omega

/-- An append that is quick to compute where the documents have a small ceiling. -/
def appendQuickly (checks : Checks τ κ) (state : SessionState τ κ) (event : Event τ κ) :
    Except StoreError (SessionState τ κ) :=
  match applyEvent checks state event with
  | .error _ => appendEvent checks state event
  | .ok later =>
      if ceiling (json [event]) ≤ 2 ^ 20 ∧ ceiling (json later) ≤ 2 ^ 20 ∧
          later.validate checks = .ok () then
        .ok later
      else
        appendEvent checks state event

theorem appendEvent_eq_quickly (checks : Checks τ κ)
    (state : SessionState τ κ) (event : Event τ κ) :
    appendEvent checks state event = appendQuickly checks state event := by
  unfold appendQuickly
  split
  · rfl
  · rename_i later applied
    split
    · rename_i small
      exact appendEvent_iff.mpr ⟨applied, small.2.2, room_of_ceiling small.1 small.2.1⟩
    · rfl

omit [Recorded τ] [Recorded κ] in
/-- Validation of other provider turns, of branches and epochs that are known. -/
theorem validate_of_turns {turns : List TurnRecord} (valid : state.validate checks = .ok ())
    (formed : WellFormed turns)
    (fenced : ∀ record ∈ turns, record.intent.epoch ≤ state.providerEpoch ∧
      state.contains record.intent.branch = true) :
    ({ state with providerTurns := turns } : SessionState τ κ).validate checks =
      .ok () := by
  simp only [SessionState.validate, bind_eq_ok, reject_eq_ok, mapError_eq_ok] at valid ⊢
  rcases valid with ⟨_, header, _, _, _, _, rest⟩
  refine ⟨(), header, (), validateRecords_eq_ok.mpr formed, (), ?_, rest⟩
  simp only [List.any_eq_true, Bool.or_eq_true, decide_eq_true_eq, Bool.not_eq_true', not_exists,
    not_and, not_or, Bool.not_eq_false]
  intro record member
  exact ⟨UInt64.not_lt.mpr (fenced record member).1, (fenced record member).2⟩

end Room

section Commands

variable {now : UInt64} {branch : BranchRecord τ κ}

theorem pending_of_live (live : liveBranch state reserved now = .ok branch) :
    state.pending reserved.branchId reserved.owner = .ok branch := by
  simp only [liveBranch, bind_eq_ok, okOr_eq_ok, reject_eq_ok, pure_eq_ok, not_or,
    Decidable.not_not, exists_const] at live
  rcases live with ⟨found, present, ⟨lifecycle, owner, _⟩, _, rfl⟩
  exact pending_eq_ok.mpr ⟨present, lifecycle, owner⟩

/-- A record that was made under the reservation, in a valid state. -/
structure Awaits (checks : Checks τ κ) (state : SessionState τ κ) (reserved : ReservedRequest κ)
    (record : TurnRecord) : Prop where
  valid : state.validate checks = .ok ()
  found : state.turn record.intent.identity = some record
  branch : record.intent.branch = reserved.branchId
  owner : record.intent.owner = reserved.owner

variable {record next : TurnRecord}

theorem Awaits.concluded (awaits : Awaits checks state reserved record)
    (status : record.status = .admitted ∨ record.status = .rejected) :
    state.Concluded record.intent :=
  ⟨record, mem_of_turn awaits.found, rfl, status⟩

theorem Awaits.unconcluded (awaits : Awaits checks state reserved record) (isOpen : record.isOpen) :
    ¬ state.Concluded record.intent :=
  not_concluded (validated_of_validate awaits.valid) awaits.found isOpen

theorem Awaits.moves (awaits : Awaits checks state reserved record) (moved : Moved record next) :
    List.Forall₂ Moved state.providerTurns (state.setTurn next).providerTurns := by
  apply forall₂_updateFirst (fun _ => .kept)
  intro item present
  rw [moved.intent_eq] at present
  exact Option.some.inj (present.symm.trans awaits.found) ▸ moved

theorem Awaits.step (awaits : Awaits checks state reserved record) (moved : Moved record next) :
    Awaits checks (state.setTurn next) reserved next := by
  have moves := awaits.moves moved
  have intent := moved.intent_eq
  constructor
  · apply validate_of_turns awaits.valid
    · exact (validated_of_validate awaits.valid).turns.change moves
        (fun _ _ step => step.intent_eq) fun _ _ step formed => step.wellFormed formed
    · intro later member
      rcases List.getElem?_of_mem member with ⟨index, found⟩
      rcases forall₂_getElem? moves.flip found with ⟨earlier, present, step⟩
      have before := List.mem_of_getElem? present
      have validated := validated_of_validate awaits.valid
      rw [step.intent_eq]
      exact ⟨validated.epochs earlier before, validated.branches earlier before⟩
  · exact turn_setTurn intent awaits.found
  · rw [intent]
    exact awaits.branch
  · rw [intent]
    exact awaits.owner

/-- What is concluded for other sends stays so. -/
theorem Awaits.keeps (awaits : Awaits checks state reserved record) (moved : Moved record next)
    {intent : SendIntent} (concluded : state.Concluded intent) :
    (state.setTurn next).Concluded intent := by
  rcases concluded with ⟨other, member, same, status⟩
  rcases List.getElem?_of_mem member with ⟨index, present⟩
  rcases forall₂_getElem? (awaits.moves moved) present with ⟨later, found, step⟩
  have moves : Relation.ReflTransGen Status.Move other.status later.status := by
    rcases step.status_move with kept | move
    · rw [kept]
    · exact .single move
  refine ⟨later, List.mem_of_getElem? found, step.intent_eq.trans same, ?_⟩
  rw [status_of_concluded status moves]
  exact status

/-- An open send is admitted while its reservation is live. -/
theorem Awaits.admitSend (awaits : Awaits checks state reserved record)
    (live : liveBranch state reserved now = .ok branch) (status : record.status = .intent) :
    admitSend state reserved record.intent now = .ok record.intent := by
  simp only [Log.admitSend, bind_eq_ok, reject_eq_ok, pure_eq_ok, Decidable.not_not,
    List.any_eq_true, Bool.and_eq_true, decide_eq_true_eq]
  exact ⟨branch, live, (), ⟨record, mem_of_turn awaits.found, rfl, status⟩, trivial⟩

/-- The command changes the record of the identity, and is fenced by its owner. -/
structure Reaches (τ κ : Type) (command : Gateway.Command) (identity : String)
    (change : TurnRecord → Except GatewayError TurnRecord) : Prop where
  applies : ∀ records, Gateway.apply records command = onRecord records identity change
  fences : ∀ (state : SessionState τ κ) branchId owner,
    (∃ record ∈ state.providerTurns, record.intent.identity = identity ∧
      record.intent.branch = branchId ∧ record.intent.owner = owner) →
    providerFence state branchId owner command = .ok ()

theorem reaches_reject (identity : String) :
    Reaches τ κ (.reject identity) identity TurnRecord.reject where
  applies _ := rfl
  fences state branchId owner known := by
    simpa [providerFence, and_assoc] using known

theorem reaches_stage (identity : String) (bytes : Bytes) :
    Reaches τ κ (.stage identity bytes) identity (TurnRecord.stage · bytes) where
  applies _ := rfl
  fences state branchId owner known := by
    simpa [providerFence, and_assoc] using known

theorem reaches_admission (identity : String) (executions : List ExecutionIntent) :
    Reaches τ κ (.admitReply identity executions) identity
      (TurnRecord.admitReply · executions) where
  applies _ := rfl
  fences state branchId owner known := by
    simpa [providerFence, and_assoc] using known

variable [Recorded τ] [Recorded κ]

/-- A command for a live record is taken exactly when the log has room. -/
theorem providerCommand_iff {command : Gateway.Command}
    {change : TurnRecord → Except GatewayError TurnRecord}
    (awaits : Awaits checks state reserved record)
    (live : liveBranch state reserved now = .ok branch)
    (reaches : Reaches τ κ command record.intent.identity change)
    (changed : change record = .ok next) (moved : Moved record next) :
    providerCommand checks state reserved command now = .ok later ↔
      later = state.setTurn next ∧ Room (.provider reserved.branchId reserved.owner command)
        later := by
  have applied : Gateway.apply state.providerTurns command =
      .ok (state.setTurn next).providerTurns := by
    rw [reaches.applies]
    simp only [onRecord, bind_eq_ok, okOr_eq_ok, pure_eq_ok]
    refine ⟨record, awaits.found, next, changed, ?_⟩
    rw [SessionState.setTurn, moved.intent_eq]
  have stepped : applyEvent checks state (.provider reserved.branchId reserved.owner command) =
      .ok (state.setTurn next) := by
    simp only [applyEvent, providerEvent, bind_eq_ok, mapError_eq_ok, pure_eq_ok]
    refine ⟨branch, pending_of_live live, (), ?_, _, applied, rfl⟩
    apply reaches.fences
    exact ⟨record, mem_of_turn awaits.found, rfl, awaits.branch, awaits.owner⟩
  simp only [providerCommand, appendCommand, bind_eq_ok, mapError_eq_ok, appendEvent_iff]
  constructor
  · rintro ⟨_, _, _, _, same, _, room⟩
    rw [stepped, Except.ok.injEq] at same
    exact ⟨same.symm, room⟩
  · rintro ⟨rfl, room⟩
    exact ⟨branch, live, _, applied, stepped, (awaits.step moved).valid, room⟩

/-- A sendable intent with a new identity is recorded when the log has room. -/
theorem providerIntent_of_room {sessionId : String} {intent stamp : SendIntent}
    (valid : state.validate checks = .ok ()) (live : liveBranch state reserved now = .ok branch)
    (stamps : stamped sessionId state reserved intent = stamp) (sendable : stamp.Sendable)
    (unused : ∀ record ∈ state.providerTurns, record.intent.identity ≠ stamp.identity)
    (room : Room (.provider reserved.branchId reserved.owner (.intent stamp))
      { state with providerTurns := state.providerTurns ++ [.fresh stamp] }) :
    providerIntent checks sessionId state reserved intent now =
      .ok (stamp, { state with providerTurns := state.providerTurns ++ [.fresh stamp] }) := by
  have validated := validated_of_validate valid
  have inserted : Gateway.apply state.providerTurns (.intent stamp) =
      .ok (state.providerTurns ++ [.fresh stamp]) := insert_eq_ok.mpr ⟨sendable, unused, rfl⟩
  have named : stamp.branch = reserved.branchId ∧ stamp.owner = reserved.owner ∧
      stamp.epoch = state.providerEpoch := by
    rw [← stamps]
    exact ⟨rfl, rfl, rfl⟩
  have later : ({ state with providerTurns := state.providerTurns ++ [.fresh stamp] } :
      SessionState τ κ).validate checks = .ok () := by
    apply validate_of_turns valid
    · exact validated.turns.append unused (TurnRecord.wellFormed_fresh sendable)
    · intro record member
      rcases List.mem_append.mp member with earlier | last
      · exact ⟨validated.epochs record earlier, validated.branches record earlier⟩
      · rw [List.mem_singleton.mp last, TurnRecord.fresh, named.1, named.2.2]
        have present := (pending_eq_ok.mp (pending_of_live live)).1
        refine ⟨UInt64.le_refl _, ?_⟩
        rw [SessionState.contains, List.any_eq_true]
        refine ⟨branch, List.mem_of_find?_eq_some present, ?_⟩
        exact decide_eq_true (branchId_of_branch present)
  have stepped : applyEvent checks state
      (.provider reserved.branchId reserved.owner (.intent stamp)) =
        .ok { state with providerTurns := state.providerTurns ++ [.fresh stamp] } := by
    simp only [applyEvent, providerEvent, bind_eq_ok, mapError_eq_ok, pure_eq_ok]
    refine ⟨branch, pending_of_live live, (), ?_, _, inserted, rfl⟩
    simp [providerFence, named]
  simp only [providerIntent, appendCommand, bind_eq_ok, mapError_eq_ok, appendEvent_iff, stamps,
    pure_eq_ok]
  exact ⟨branch, live, _, ⟨_, inserted, stepped, later, room⟩, rfl⟩

end Commands

end Llxprt.Log
