import Llxprt.Kernel.Moves
import Llxprt.Kernel.Replay

/-!
# Successful folds are runs

The sequence numbers of a log are distinct, so its fold skips nothing and is a
run of moves, one for each event.
-/

namespace Llxprt.Kernel.Reducer

open Llxprt.Rust Method

/-- A sequence of moves, one for each event. -/
inductive Run : List RecordedEvent → Core → Core → Prop
  | nil {core : Core} : Run [] core core
  | cons {event : RecordedEvent} {events : List RecordedEvent} {core middle final : Core}
      (move : Moves event.sequence event.kind core middle) (rest : Run events middle final) :
      Run (event :: events) core final

section Folds

variable [Wire] {state final : TypedState} {window : Nat} {log : EventLog}

/-- The identities applied so far all lie before `next`. -/
def AppliedBelow (state : TypedState) (next : Nat) : Prop :=
  ∀ identity ∈ state.applied, identity.1 < next

/-- A turn of the loop at the next sequence number applies the event. -/
theorem foldEvent_moves {event : RecordedEvent} {next : TypedState}
    (fresh : AppliedBelow state event.sequence)
    (h : foldEvent event state = (.ok (), next)) :
    Moves event.sequence event.kind state.core next.core ∧
      AppliedBelow next (event.sequence + 1) := by
  rcases foldEvent_eq_ok h with ⟨applied, _⟩ | ⟨_, _, result, appliedOk, rfl⟩
  · exact absurd (fresh event.identity applied) (Nat.lt_irrefl event.sequence)
  · have move := apply_moves appliedOk
    refine ⟨move, ?_⟩
    intro identity member
    rcases List.mem_append.mp member with earlier | last
    · exact Nat.lt_succ_of_lt (fresh identity earlier)
    · rw [List.mem_singleton.mp last]
      exact Nat.lt_succ_self event.sequence

theorem foldEvents_run {storeVersion : UInt64} {next : Nat} {previous : Digest}
    {events : List RecordedEvent} (chained : Chained storeVersion next previous events)
    (fresh : AppliedBelow state next) (h : foldEvents events state = (.ok (), final)) :
    Run events state.core final.core := by
  induction chained generalizing state with
  | nil =>
      cases h
      exact .nil
  | cons _ _ sequence _ _ ih =>
      rw [foldEvents, bind_eq_ok_iff] at h
      rcases h with ⟨_, between, eventOk, restOk⟩
      subst sequence
      have moved := foldEvent_moves fresh eventOk
      exact .cons moved.1 (ih moved.2 restOk)

/-- The same for a list of events folded in two stages. -/
theorem foldEvents_run_append {storeVersion : UInt64} {next : Nat} {previous : Digest}
    {earlier later : List RecordedEvent} {middle : TypedState}
    (chained : Chained storeVersion next previous (earlier ++ later))
    (fresh : AppliedBelow state next)
    (earlierOk : foldEvents earlier state = (.ok (), middle))
    (laterOk : foldEvents later middle = (.ok (), final)) :
    Run earlier state.core middle.core ∧ Run later middle.core final.core := by
  induction earlier generalizing state next previous with
  | nil =>
      cases earlierOk
      exact ⟨.nil, foldEvents_run chained fresh laterOk⟩
  | cons event earlier ih =>
      rw [foldEvents, bind_eq_ok_iff] at earlierOk
      rcases earlierOk with ⟨_, between, eventOk, restOk⟩
      cases chained with
      | cons _ _ sequence _ tail =>
          subst sequence
          have moved := foldEvent_moves fresh eventOk
          have rest := ih tail moved.2 restOk
          exact ⟨.cons moved.1 rest.1, rest.2⟩

/-- The core of the state an empty log folds into. -/
def genesisCore (storeVersion : UInt64) : Core where
  conversationIr := .new
  nextOffset := 0
  version := initialVersion
  selectedStoreVersion := none
  storeVersion := storeVersion

/-- The fold of a log runs through the fold of each of its prefixes. -/
theorem fold_runs (h : fold window log = .ok final) (count : Nat) {middle : TypedState}
    (prefixOk : fold window (log.prefixLog count) = .ok middle) :
    Run (log.events.take count) (genesisCore log.storeVersion) middle.core ∧
      Run (log.events.drop count) middle.core final.core := by
  rcases fold_eq_ok.mp h with ⟨folded, foldedOk, rfl⟩
  rcases fold_eq_ok.mp prefixOk with ⟨between, betweenOk, rfl⟩
  rw [← List.take_append_drop count log.events, foldEvents_append] at foldedOk
  rcases foldedOk with ⟨same, earlierOk, laterOk⟩
  have chained := log.chained
  rw [← List.take_append_drop count log.events] at chained
  have agree : between = same := by
    have twice : foldEvents (log.events.take count) (.genesis window log.storeVersion) =
        (.ok (), between) := betweenOk
    rw [earlierOk] at twice
    exact (Prod.ext_iff.mp twice).2.symm
  subst agree
  have fresh : AppliedBelow (.genesis window log.storeVersion)
      (log.resume.elim firstSequence Prod.fst) := by
    simp [AppliedBelow, TypedState.genesis]
  have runs := foldEvents_run_append chained fresh earlierOk laterOk
  exact runs

theorem fold_run (h : fold window log = .ok final) :
    Run log.events (genesisCore log.storeVersion) final.core := by
  have whole : fold window (log.prefixLog log.events.length) = .ok final := by
    rcases fold_eq_ok.mp h with ⟨folded, foldedOk, rfl⟩
    refine fold_eq_ok.mpr ⟨folded, ?_, rfl⟩
    simpa [EventLog.prefixLog] using foldedOk
  have runs := (fold_runs h log.events.length whole).1
  rwa [List.take_length] at runs

end Folds

end Llxprt.Kernel.Reducer
