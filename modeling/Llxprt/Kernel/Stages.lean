import Llxprt.Kernel.Governed
import Llxprt.Kernel.Runs

/-!
# Stages of a fold

The stages of a log are the states that its prefixes fold into.  The event at a
position turns the stage before it into the next one, so a fact about all states
that a fold passes through is proved along the stages.
-/

namespace Llxprt.Kernel

open Llxprt.Rust

section Logs

variable [Wire] {storeVersion : UInt64} {next index : Nat} {previous : Digest}
  {events : List RecordedEvent} {event : RecordedEvent}

/-- Kind of the event at a position. -/
def EventLog.kindAt (log : EventLog) (index : Nat) : Option EventKind :=
  log.events[index]?.map RecordedEvent.kind

theorem Chained.sequence_eq (chained : Chained storeVersion next previous events)
    (found : events[index]? = some event) : event.sequence = next + index := by
  induction chained generalizing index with
  | nil => simp at found
  | cons _ _ sequence _ _ ih =>
      cases index with
      | zero =>
          cases found
          exact sequence
      | succ index =>
          rw [ih found]
          omega

/-- A prefix longer than the log is the log. -/
theorem EventLog.prefixLog_min (log : EventLog) (count : Nat) :
    log.prefixLog (min count log.events.length) = log.prefixLog count := by
  apply EventLog.ext_of_events
  · simp only [prefixLog]
    rcases Nat.le_total count log.events.length with short | long
    · rw [Nat.min_eq_left short]
    · rw [Nat.min_eq_right long, List.take_length, List.take_of_length_le long]
  · rfl
  · rfl

theorem EventLog.prefixLog_length (log : EventLog) : log.prefixLog log.events.length = log := by
  apply EventLog.ext_of_events
  · exact List.take_length
  · rfl
  · rfl

end Logs

namespace Reducer

open Method

variable [Wire] {window : Nat} {log : EventLog} {state before after final : TypedState}
  {count : Nat} {event : RecordedEvent}

/-- The identities that a fold has applied lie before its next sequence number. -/
theorem foldEvents_appliedBelow {storeVersion : UInt64} {next : Nat} {previous : Digest}
    {events : List RecordedEvent} (chained : Chained storeVersion next previous events)
    (fresh : AppliedBelow state next) (h : foldEvents events state = (.ok (), final)) :
    AppliedBelow final (next + events.length) := by
  induction chained generalizing state with
  | nil =>
      cases h
      exact fresh
  | @cons next _ event rest _ _ sequence _ _ ih =>
      rw [foldEvents, bind_eq_ok_iff] at h
      rcases h with ⟨_, between, eventOk, restOk⟩
      subst sequence
      have below := ih (foldEvent_moves fresh eventOk).2 restOk
      rwa [List.length_cons, Nat.add_comm rest.length 1, ← Nat.add_assoc]

/-- The event at a position turns the stage before it into the next stage; only
the fold loop's own bookkeeping is different. -/
theorem stage_step (found : log.events[count]? = some event)
    (beforeOk : fold window (log.prefixLog count) = .ok before)
    (afterOk : fold window (log.prefixLog (count + 1)) = .ok after) :
    apply event before = (.ok (), after.mark (before.stateHash, before.applied)) := by
  rcases fold_eq_ok.mp beforeOk with ⟨folded, foldedOk, rfl⟩
  rcases fold_eq_ok.mp afterOk with ⟨result, resultOk, rfl⟩
  have split : (log.prefixLog (count + 1)).events = log.events.take count ++ [event] := by
    simp [EventLog.prefixLog, List.take_add_one, found]
  rw [split, foldEvents_append] at resultOk
  rcases resultOk with ⟨middle, middleOk, lastOk⟩
  have same : middle = folded := by
    have twice : foldEvents (log.events.take count) (.genesis window log.storeVersion) =
        (.ok (), folded) := foldedOk
    rw [show foldEvents (log.events.take count) (.genesis window log.storeVersion) =
      (.ok (), middle) from middleOk] at twice
    exact (Prod.ext_iff.mp twice).2
  subst same
  rw [foldEvents, bind_eq_ok_iff] at lastOk
  rcases lastOk with ⟨_, next, eventOk, done⟩
  cases done
  have fresh : AppliedBelow middle event.sequence := by
    have below := foldEvents_appliedBelow (log.chained.take count)
      (by simp [AppliedBelow, TypedState.genesis]) foldedOk
    have short : count < log.events.length := (List.getElem?_eq_some_iff.mp found).choose
    rw [log.chained.sequence_eq found]
    rwa [List.length_take, Nat.min_eq_left (Nat.le_of_lt short)] at below
  rcases foldEvent_eq_ok eventOk with ⟨applied, _⟩ | ⟨_, _, result, appliedOk, rfl⟩
  · exact absurd (fresh event.identity applied) (Nat.lt_irrefl _)
  · have framed := apply_unmarked event (hash middle, middle.applied) middle
    rw [appliedOk] at framed
    exact framed

/-- A property of the first stage that every event passes on holds at every
stage. -/
theorem stage_induction (invariant : Nat → TypedState → Prop)
    (folds : fold window log = .ok final)
    (initial : invariant 0 (rehash (.genesis window log.storeVersion)))
    (step : ∀ count event before after, log.events[count]? = some event →
      fold window (log.prefixLog count) = .ok before →
      fold window (log.prefixLog (count + 1)) = .ok after →
      apply event before = (.ok (), after.mark (before.stateHash, before.applied)) →
      invariant count before → invariant (count + 1) after) :
    ∀ count state, count ≤ log.events.length → fold window (log.prefixLog count) = .ok state →
      invariant count state := by
  intro count
  induction count with
  | zero =>
      intro state _ stageOk
      rcases fold_eq_ok.mp stageOk with ⟨folded, foldedOk, rfl⟩
      cases foldedOk
      exact initial
  | succ count ih =>
      intro state short stageOk
      rcases exists_fold_prefixLog folds count with ⟨before, beforeOk⟩
      have found : log.events[count]? = some log.events[count] := List.getElem?_eq_getElem short
      exact step count _ before state found beforeOk stageOk (stage_step found beforeOk stageOk)
        (ih before (Nat.le_of_succ_le short) beforeOk)

/-- A preorder that every event follows relates every stage to the later ones. -/
theorem stage_relation (relation : TypedState → TypedState → Prop)
    (refl : ∀ state, relation state state)
    (trans : ∀ first second third, relation first second → relation second third →
      relation first third)
    (folds : fold window log = .ok final)
    (step : ∀ count event before after, log.events[count]? = some event →
      fold window (log.prefixLog count) = .ok before →
      fold window (log.prefixLog (count + 1)) = .ok after → relation before after)
    {first last : Nat} {earlier later : TypedState} (ordered : first ≤ last)
    (inRange : last ≤ log.events.length)
    (earlierOk : fold window (log.prefixLog first) = .ok earlier)
    (laterOk : fold window (log.prefixLog last) = .ok later) : relation earlier later := by
  induction last, ordered using Nat.le_induction generalizing later with
  | base =>
      cases earlierOk.symm.trans laterOk
      exact refl earlier
  | succ last _ ih =>
      rcases exists_fold_prefixLog folds last with ⟨middle, middleOk⟩
      have found : log.events[last]? = some log.events[last] := List.getElem?_eq_getElem inRange
      apply trans earlier middle later (ih (Nat.le_of_succ_le inRange) middleOk)
      exact step last _ middle later found middleOk laterOk

/-- The governed records move along the stages. -/
theorem stage_governs (found : log.events[count]? = some event)
    (beforeOk : fold window (log.prefixLog count) = .ok before)
    (afterOk : fold window (log.prefixLog (count + 1)) = .ok after) :
    Governs event.sequence event.kind before.governed after.governed := by
  have governs := apply_governs (stage_step found beforeOk afterOk)
  exact governs

end Reducer

end Llxprt.Kernel
