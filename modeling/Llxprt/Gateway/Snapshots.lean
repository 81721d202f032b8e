import Llxprt.Gateway.Turns
import Llxprt.Rust.Runs

/-!
# Validation of recorded turns

A snapshot is validated record by record.  The validator accepts exactly the
well-formed lists; the lists that commands can produce are the well-formed ones
whose identities could have been inserted and whose indeterminate records come
after settled ones.  Every list of the second kind is rebuilt by commands, one
record after the other.
-/

namespace Llxprt.Gateway

open Llxprt.Kernel Llxprt.Rust

/-- The status asks for a reply that is missing, or has one it must not have. -/
def TurnRecord.disagrees (record : TurnRecord) : Bool :=
  match record.status with
  | .intent | .rejected | .indeterminate => record.response.isSome
  | .pending | .admitted => record.response.isNone

def validateFrom (identities : BTreeSet String) : List TurnRecord → Except GatewayError Unit
  | [] => pure ()
  | record :: rest => do
      reject (identities.contains record.intent.identity = true ∨
        hashValid record.intent.requestHash = false ∨
        hashValid record.intent.contractHash = false ∨ record.intent.epoch = 0 ∨
        record.intent.allowance = 0 ∨ record.intent.branch.isEmpty ∨
        record.intent.owner.isEmpty) GatewayError.identity
      reject (record.disagrees = true) .transition
      reject (record.response.any fun bytes => record.intent.allowance.toNat < bytes.length) .allowance
      reject (record.executions ≠ [] ∧ record.status ≠ .admitted) .transition
      reject (anyBadOrRepeated (fun call => call.id.isEmpty || call.tool.isEmpty)
        ExecutionIntent.id ∅ record.executions = true) .identity
      validateFrom (identities.insert record.intent.identity) rest

def validateRecords (records : List TurnRecord) : Except GatewayError Unit :=
  validateFrom ∅ records

/-- Some commands, all of them accepted, lead from no records to these. -/
def Producible (records : List TurnRecord) : Prop :=
  ∃ commands, replay commands = .ok records

section Validation

theorem TurnRecord.disagrees_eq_false {record : TurnRecord} :
    record.disagrees = false ↔
      (record.response ≠ none ↔ record.status = .pending ∨ record.status = .admitted) := by
  rcases record with ⟨intent, status, response, executions⟩
  cases status <;> cases response <;> simp [TurnRecord.disagrees]

theorem any_eq_false_iff {response : Option Bytes} {allowance : Nat} :
    (response.any fun bytes => decide (allowance < bytes.length)) = false ↔
      ∀ bytes, response = some bytes → bytes.length ≤ allowance := by
  cases response <;> simp

theorem validateFrom_eq_ok {identities : BTreeSet String} {records : List TurnRecord} :
    validateFrom identities records = .ok () ↔
      (∀ record ∈ records, record.WellFormed) ∧
        (records.map fun record => record.intent.identity).Nodup ∧
        ∀ record ∈ records, record.intent.identity ∉ identities := by
  induction records generalizing identities with
  | nil => simp [validateFrom]
  | cons record rest ih =>
      have unseen : ¬ identities.contains record.intent.identity = true ↔
          record.intent.identity ∉ identities := by
        rw [Std.ExtTreeSet.contains_iff_mem]
      rw [List.forall_mem_cons, List.forall_mem_cons, List.map_cons, List.nodup_cons]
      simp only [validateFrom, bind_eq_ok, reject_eq_ok, not_or, not_and, Decidable.not_not,
        exists_const, Bool.not_eq_false, Bool.not_eq_true, String.isEmpty_iff,
        TurnRecord.disagrees_eq_false, any_eq_false_iff, anyBadOrRepeated_eq_false, ih, unseen,
        forall_notMem_insert]
      constructor
      · rintro ⟨⟨first, request, contract, epoch, allowance, branch, owner⟩, response, bounded,
          released, ⟨named, nodup, _⟩, formed, others, apart, missed⟩
        refine ⟨⟨?_, formed⟩, ⟨apart, others⟩, first, missed⟩
        refine ⟨owner, branch, epoch, allowance, request, contract, response, bounded, ?_, ?_, nodup⟩
        · intro other
          by_contra some
          exact other (released some)
        · simpa using named
      · rintro ⟨⟨record, formed⟩, ⟨apart, others⟩, first, missed⟩
        refine ⟨⟨first, record.requestHash, record.contractHash, record.epoch, record.allowance,
          record.branch, record.owner⟩, record.response, record.bounded, ?_, ?_, formed, others,
          apart, missed⟩
        · intro some
          by_contra other
          exact some (record.released other)
        · refine ⟨?_, record.nodup, by simp⟩
          simpa using record.named

theorem validateRecords_eq_ok {records : List TurnRecord} :
    validateRecords records = .ok () ↔ WellFormed records := by
  rw [validateRecords, validateFrom_eq_ok]
  constructor
  · rintro ⟨formed, unique, _⟩
    exact ⟨unique, formed⟩
  · rintro ⟨unique, formed⟩
    exact ⟨formed, unique, by simp⟩

end Validation

section Rebuilding

variable {records : List TurnRecord} {record next : TurnRecord}

theorem Producible.apply (producible : Producible records) {later : List TurnRecord}
    (command : Command) (accepted : apply records command = .ok later) : Producible later := by
  rcases producible with ⟨commands, reached⟩
  refine ⟨commands ++ [command], ?_⟩
  rw [replay] at reached ⊢
  rw [List.foldlM_append, reached]
  change (List.foldlM Gateway.apply records [command]) = .ok later
  rw [List.foldlM_cons, accepted]
  rfl

/-- A command that names the last record changes it alone. -/
theorem onRecord_concat {identity : String} {change : TurnRecord → Except GatewayError TurnRecord}
    (unused : ∀ other ∈ records, other.intent.identity ≠ identity)
    (same : record.intent.identity = identity) (changed : change record = .ok next) :
    onRecord (records ++ [record]) identity change = .ok (records ++ [next]) := by
  have missed : ∀ other ∈ records, TurnRecord.named identity other = false := by
    intro other member
    simpa [TurnRecord.named] using unused other member
  have hit : TurnRecord.named identity record = true := by
    simpa [TurnRecord.named] using same
  rw [onRecord, find?_append_hit missed hit]
  simp only [okOr, bind_eq_ok, pure_eq_ok, Except.ok.injEq, exists_eq_left', changed]
  exact updateFirst_append missed hit

/-- The calls of a reply before any of them has completed. -/
def blank (executions : List ExecutionIntent) : List ExecutionIntent :=
  executions.map fun call => { call with completion := none }

theorem ids_blank (executions : List ExecutionIntent) :
    (blank executions).map ExecutionIntent.id = executions.map ExecutionIntent.id := by
  simp [blank, Function.comp_def]

theorem complete_eq_ok {before after : List ExecutionIntent} {call : ExecutionIntent}
    {outcome : Bool × String} (status : record.status = .admitted)
    (split : record.executions = before ++ call :: after)
    (missed : ∀ other ∈ before, other.id ≠ call.id) (incomplete : call.completion = none) :
    record.complete call.id outcome.1 outcome.2 = .ok
      { record with executions := before ++ { call with completion := some outcome } :: after } := by
  have absent : ∀ other ∈ before, decide (other.id = call.id) = false := by
    simpa using missed
  simp only [TurnRecord.complete, bind_eq_ok, reject_eq_ok, okOr_eq_ok, pure_eq_ok,
    Decidable.not_not, exists_const, status, true_and, split]
  refine ⟨call, find?_append_hit absent (by simp), by rw [incomplete]; simp, ?_⟩
  rw [updateFirst_append absent (by simp)]

/-- One call after the other is completed. -/
theorem producible_complete {rest before : List ExecutionIntent}
    (unused : ∀ other ∈ records, other.intent.identity ≠ record.intent.identity)
    (status : record.status = .admitted)
    (nodup : ((before ++ rest).map ExecutionIntent.id).Nodup)
    (producible : Producible (records ++ [{ record with executions := before ++ blank rest }])) :
    Producible (records ++ [{ record with executions := before ++ rest }]) := by
  induction rest generalizing before with
  | nil => exact producible
  | cons call rest ih =>
      have shift : before ++ call :: rest = (before ++ [call]) ++ rest := by simp
      have missed : ∀ other ∈ before, other.id ≠ call.id := by
        rw [List.map_append, List.nodup_append] at nodup
        exact fun other member => nodup.2.2 _ (List.mem_map_of_mem member) _ (by simp)
      rw [shift] at nodup ⊢
      apply ih nodup
      rw [List.append_assoc, List.singleton_append]
      cases completed : call.completion with
      | none =>
          have same : { call with completion := none } = call := by
            rw [← completed]
          rw [← same]
          exact producible
      | some outcome =>
          have same : { call with completion := some outcome } = call := by
            rw [← completed]
          apply producible.apply (.complete record.intent.identity call.id outcome.1 outcome.2)
          have step : TurnRecord.complete
              { record with executions := before ++ blank (call :: rest) } call.id outcome.1
                outcome.2 = .ok { record with
                  executions := before ++ { call with completion := some outcome } :: blank rest } :=
            @complete_eq_ok _ _ _ { call with completion := none } _ status rfl missed rfl
          rw [same] at step
          refine onRecord_concat unused ?_ step
          rfl

theorem Producible.append (producible : Producible records) (formed : record.WellFormed)
    (named : record.intent.identity ≠ "" ∧ record.intent.identity.utf8ByteSize ≤ 256)
    (unused : ∀ other ∈ records, other.intent.identity ≠ record.intent.identity)
    (follows : ∀ earlier ∈ records, Follows earlier record) : Producible (records ++ [record]) := by
  have sendable : record.intent.Sendable :=
    ⟨named.1, named.2, formed.owner, formed.branch, formed.epoch, formed.allowance,
      formed.requestHash, formed.contractHash⟩
  have inserted : Producible (records ++ [.fresh record.intent]) :=
    producible.apply (.intent record.intent) (insert_eq_ok.mpr ⟨sendable, unused, rfl⟩)
  have staged : ∀ bytes, record.response = some bytes →
      Producible (records ++ [{ TurnRecord.fresh record.intent with
        response := some bytes, status := .pending }]) := by
    intro bytes present
    apply inserted.apply (.stage record.intent.identity bytes)
    exact onRecord_concat unused rfl (stage_eq_ok.mpr ⟨rfl, formed.bounded bytes present, rfl⟩)
  rcases record with ⟨intent, status, response, executions⟩
  have answered := formed.response
  have released := formed.released
  -- the list is rebuilt by the commands that the status of its last record tells
  cases status with
  | intent =>
      obtain rfl : response = none := by simpa using answered
      obtain rfl : executions = [] := released (by simp)
      exact inserted
  | pending =>
      obtain rfl : executions = [] := released (by simp)
      cases response with
      | none => simp at answered
      | some bytes => exact staged bytes rfl
  | admitted =>
      cases response with
      | none => simp at answered
      | some bytes =>
          apply @producible_complete _ _ _ [] unused rfl formed.nodup
          apply (staged bytes rfl).apply (.admitReply intent.identity (blank executions))
          refine onRecord_concat unused rfl (admit_eq_ok.mpr ⟨rfl, by simp, ?_, ?_, rfl⟩)
          · intro call member
            rcases List.mem_map.mp member with ⟨old, present, rfl⟩
            exact ⟨(formed.named old present).1, (formed.named old present).2, rfl⟩
          · rw [ids_blank]
            exact formed.nodup
  | rejected =>
      obtain rfl : response = none := by simpa using answered
      obtain rfl : executions = [] := released (by simp)
      apply inserted.apply (.reject intent.identity)
      exact onRecord_concat unused rfl (reject_record_eq_ok.mpr ⟨.inl rfl, rfl⟩)
  | indeterminate =>
      obtain rfl : response = none := by simpa using answered
      obtain rfl : executions = [] := released (by simp)
      apply inserted.apply (.recover intent.branch)
      have kept : ∀ earlier ∈ records,
          (if earlier.intent.branch = intent.branch then earlier.recover else earlier) =
            id earlier := by
        intro earlier member
        by_cases mine : earlier.intent.branch = intent.branch
        · rw [if_pos mine]
          exact (follows earlier member mine.symm rfl).recover
        · exact if_neg mine
      rw [Gateway.apply, pure_eq_ok, List.map_append, List.map_congr_left kept, List.map_id]
      simp [TurnRecord.fresh, TurnRecord.recover, TurnRecord.isOpen]

theorem producible_iff : Producible records ↔ WellFormed records ∧ Replayable records := by
  constructor
  · rintro ⟨commands, reached⟩
    exact replay_keeps reached
  · rintro ⟨wellFormed, replayable⟩
    induction records using List.reverseRecOn with
    | nil => exact ⟨[], rfl⟩
    | append_singleton records record ih =>
        have unique := wellFormed.unique
        rw [List.map_append, List.nodup_append] at unique
        have ordered := replayable.ordered
        rw [List.pairwise_append] at ordered
        have member : ∀ other ∈ records, other ∈ records ++ [record] :=
          fun other => List.mem_append_left _
        have last : record ∈ records ++ [record] := by simp
        apply (ih ⟨unique.1, fun other earlier => wellFormed.each other (member other earlier)⟩
          ⟨fun other earlier => replayable.identities other (member other earlier),
            ordered.1⟩).append (wellFormed.each record last) (replayable.identities record last)
        · intro other earlier
          exact unique.2.2 _ (List.mem_map_of_mem earlier) _ (by simp)
        · intro earlier present
          exact ordered.2.2 earlier present record (by simp)

end Rebuilding

section Laws

/-- The laws of recorded turns, and of everything that commands make of them. -/
structure Lawful (records : List TurnRecord) : Prop where
  unique : (records.map fun record => record.intent.identity).Nodup
  bounded : ∀ record ∈ records, ∀ bytes, record.response = some bytes →
    bytes.length ≤ record.intent.allowance.toNat
  moves : ∀ command later, apply records command = .ok later →
    ∀ (index : Nat) (record : TurnRecord), records[index]? = some record →
    ∃ next, later[index]? = some next ∧ next.intent = record.intent ∧
      (next.status = record.status ∨ Status.Move record.status next.status)
  paths : ∀ commands later, List.foldlM apply records commands = .ok later →
    ∀ (index : Nat) (record : TurnRecord), records[index]? = some record →
    ∃ next, later[index]? = some next ∧ next.intent = record.intent ∧
      Relation.ReflTransGen Status.Move record.status next.status ∧
      ∀ (position : Nat) (call : ExecutionIntent), record.executions[position]? = some call →
        call.completion ≠ none → next.executions[position]? = some call
  recovered : ∀ branch commands later,
    (Command.recover branch :: commands).foldlM apply records = .ok later →
    ∀ record ∈ records, record.intent.branch = branch →
    ∀ command : Command, command.Advances record.intent.identity →
    (apply later command).isOk = false

variable {records : List TurnRecord}

/-- A recovery settles the records of its branch, and settled records stay. -/
theorem recovered_refuses (wellFormed : WellFormed records) (replayable : Replayable records)
    {branch : String} {commands : List Command} {later : List TurnRecord}
    (accepted : (Command.recover branch :: commands).foldlM apply records = .ok later)
    {record : TurnRecord} (member : record ∈ records) (mine : record.intent.branch = branch)
    {command : Command} (advances : command.Advances record.intent.identity) :
    (apply later command).isOk = false := by
  rw [List.foldlM_cons, bind_eq_ok] at accepted
  rcases accepted with ⟨settled, first, others⟩
  rcases apply_keeps first wellFormed replayable with ⟨formed, ordered⟩
  rw [apply, pure_eq_ok] at first
  rcases List.getElem?_of_mem member with ⟨index, present⟩
  have recovered : settled[index]? = some record.recover := by
    rw [← first, List.getElem?_map, present, Option.map_some, if_pos mine]
  rcases foldlM_getElem? others formed ordered recovered with ⟨next, last, grown⟩
  have same : next = record.recover := grown.settled TurnRecord.settled_recover
  rw [same] at last
  exact refuses_of_settled TurnRecord.settled_recover (foldlM_keeps others formed ordered).1
    (List.mem_of_getElem? last) advances

theorem lawful_of_keeps (wellFormed : WellFormed records) (replayable : Replayable records) :
    Lawful records where
  unique := wellFormed.unique
  bounded record member := (wellFormed.each record member).bounded
  moves command later accepted index record present := by
    rcases apply_getElem? accepted wellFormed present with ⟨next, found, grown, move⟩
    exact ⟨next, found, grown.intent, move⟩
  paths commands later accepted index record present := by
    rcases foldlM_getElem? accepted wellFormed replayable present with ⟨next, found, grown⟩
    exact ⟨next, found, grown.intent, grown.status, grown.completions⟩
  recovered branch commands later accepted record member mine command advances :=
    recovered_refuses wellFormed replayable accepted member mine advances

/-- Commands obey the laws of recorded turns.  The validator accepts exactly what
commands produce, except for well-formed lists with an identity that cannot be
inserted or with an unsettled record before an indeterminate one of its branch. -/
theorem lawful_and_validated_iff_producible (records : List TurnRecord) :
    (∀ commands, replay commands = .ok records → Lawful records) ∧
    ((validateRecords records = .ok () ↔ Producible records) ↔
      (WellFormed records → Replayable records)) := by
  constructor
  · intro commands reached
    rcases replay_keeps reached with ⟨wellFormed, replayable⟩
    exact lawful_of_keeps wellFormed replayable
  · rw [validateRecords_eq_ok, producible_iff]
    constructor
    · intro same wellFormed
      exact (same.mp wellFormed).2
    · intro replayable
      exact ⟨fun wellFormed => ⟨wellFormed, replayable wellFormed⟩, fun both => both.1⟩

/-- An intent of the first branch. -/
def sampleIntent (identity : String) : SendIntent where
  identity := identity
  branch := "b1"
  owner := "owner"
  epoch := 1
  contextVersion := 1
  requestHash := "".pushn '0' 64
  contractHash := "".pushn '0' 64
  providerClass := .statelessAttested
  kind := .conversation
  allowance := 8

/-- A send that was staged, admitted with one call and completed. -/
def sampleTurn : List Command :=
  [.intent (sampleIntent "first"), .stage "first" [1, 2],
    .admitReply "first" [⟨"call", "read_file", "\x7b\x7d", true, none⟩],
    .complete "first" "call" true "done"]

/-- The record that it leaves. -/
def sampleRecord : TurnRecord where
  intent := sampleIntent "first"
  status := .admitted
  response := some [1, 2]
  executions := [⟨"call", "read_file", "\x7b\x7d", true, some (true, "done")⟩]

theorem lawful_sampleTurn :
    replay sampleTurn = .ok [sampleRecord] ∧ Lawful [sampleRecord] ∧
      (validateRecords [sampleRecord] = .ok () ↔ Producible [sampleRecord]) := by
  have reached : replay sampleTurn = .ok [sampleRecord] := by decide +kernel
  refine ⟨reached, (lawful_and_validated_iff_producible _).1 _ reached, ?_⟩
  rw [(lawful_and_validated_iff_producible _).2]
  exact fun _ => (replay_keeps reached).2

/-- A record without an identity, and a recovery that has skipped a record. -/
theorem validated_not_producible :
    (validateRecords [.fresh (sampleIntent "")] = .ok () ∧
      ¬ Producible [.fresh (sampleIntent "")]) ∧
    let skipped : List TurnRecord := [.fresh (sampleIntent "first"),
      (TurnRecord.fresh (sampleIntent "second")).recover]
    validateRecords skipped = .ok () ∧ ¬ Producible skipped := by
  refine ⟨⟨by decide +kernel, ?_⟩, by decide +kernel, ?_⟩
  · rintro ⟨commands, reached⟩
    have named := (replay_keeps reached).2.identities _ List.mem_cons_self
    exact named.1 rfl
  · rintro ⟨commands, reached⟩
    have ordered := (replay_keeps reached).2.ordered
    rw [List.pairwise_pair] at ordered
    exact (ordered rfl rfl).closed (.inl rfl)

end Laws

end Llxprt.Gateway
