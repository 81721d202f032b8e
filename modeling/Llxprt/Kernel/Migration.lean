import Llxprt.Kernel.Runs

/-!
# Migration deciders

Crash recovery scans the raw log for the selected store version; the live path
folds the selection into the state.  The scan stops at the first selection and
lets a v3 framing override it, while the fold keeps the last one.
-/

namespace Llxprt.Kernel

open Llxprt.Rust

/-- Outcome of the crash matrix applied to a recovered log. -/
inductive MigrationDecision where
  | keepV2 (reason : String)
  | selectV3 (selectedSequence : Nat)

/-- Store version the decision resolves to. -/
def MigrationDecision.storeVersion : MigrationDecision → UInt64
  | keepV2 _ => v2
  | selectV3 _ => v3

namespace Migration

/-- The version that a committed selection names. -/
def selectionOf (event : RecordedEvent) : Option UInt64 :=
  match event.kind with
  | .operationCommit .migrationSelect subject _ => some subject
  | _ => none

/-- Sequence of the first selection naming `target`, or zero. -/
def selectionSequence (target : UInt64) : List RecordedEvent → Nat
  | [] => 0
  | event :: events =>
      if selectionOf event = some target then event.sequence else selectionSequence target events

/-- The scan of a log that was not written under v3. -/
def scan : List RecordedEvent → MigrationDecision
  | [] => .keepV2 "no complete v3 selection event in the recovered log"
  | event :: events =>
      match selectionOf event with
      | some subject =>
          if subject = v3 then .selectV3 event.sequence
          else .keepV2 "selection named a version other than v3"
      | none => scan events

section Deciders

variable [Wire]

/-- Applies the crash matrix to a recovered log. -/
def decideStore (afterCrash : EventLog) : MigrationDecision :=
  if afterCrash.storeVersion = v3 then
    .selectV3 (selectionSequence v3 afterCrash.events)
  else
    scan afterCrash.events

/-- The versions selected by a log, in order. -/
def selections (events : List RecordedEvent) : List UInt64 :=
  events.filterMap selectionOf

/-- The condition on a log under which both deciders name the same version. -/
def SelectsOnce (log : EventLog) : Prop :=
  if log.storeVersion = v3 then
    (selections log.events).getLast?.getD v3 = v3
  else if selections log.events = [] then
    log.storeVersion = v2
  else
    (selections log.events).head? = (selections log.events).getLast?

omit [Wire] in
theorem selections_cons (event : RecordedEvent) (events : List RecordedEvent) :
    selections (event :: events) = (selectionOf event).toList ++ selections events := by
  unfold selections
  cases h : selectionOf event <;> simp [h]

omit [Wire] in
/-- The scan reports the first selection. -/
theorem scan_storeVersion (events : List RecordedEvent) :
    (scan events).storeVersion = if (selections events).head? = some v3 then v3 else v2 := by
  induction events with
  | nil => rfl
  | cons event events ih =>
      rw [scan, selections_cons]
      cases h : selectionOf event with
      | none =>
          rw [Option.toList_none, List.nil_append]
          exact ih
      | some subject =>
          by_cases isV3 : subject = v3
          · simp [isV3, MigrationDecision.storeVersion]
          · simp [isV3, MigrationDecision.storeVersion]

omit [Wire] in
/-- A selection moves the selected version; no other event does. -/
theorem move_selected {event : RecordedEvent} {core next : Core}
    (move : Reducer.Moves event.sequence event.kind core next) :
    next.selectedStoreVersion = (selectionOf event).or core.selectedStoreVersion ∧
      ∀ version ∈ selectionOf event, version = v2 ∨ version = v3 := by
  unfold selectionOf
  generalize event.kind = kind at move
  cases move with
  | @quiet kind _ isQuiet =>
      cases kind with
      | operationCommit operationClass subject argument =>
          cases operationClass <;> simp [Reducer.quietKind, Reducer.quietOperation] at isQuiet ⊢
      | _ => simp
  | @unplaced operationClass _ _ _ _ isUnplace _ =>
      rcases isUnplace with rfl | rfl <;> simp
  | @versioned operationClass _ _ _ _ _ isVersioned _ _ =>
      cases operationClass <;> simp [Reducer.versionedOperation] at isVersioned ⊢
  | selected known => simpa using known
  | _ => simp

omit [Wire] in
/-- The fold keeps the last selection. -/
theorem run_selected {events : List RecordedEvent} {core final : Core}
    (run : Reducer.Run events core final) :
    final.selectedStoreVersion = (selections events).getLast?.or core.selectedStoreVersion ∧
      ∀ version ∈ selections events, version = v2 ∨ version = v3 := by
  induction run with
  | nil => simp [selections]
  | @cons event events core middle final move _ ih =>
      rcases move_selected move with ⟨moved, known⟩
      rw [selections_cons, ih.1, moved]
      constructor
      · cases selectionOf event with
        | none => simp
        | some subject =>
            cases h : (selections events).getLast? <;> simp [List.getLast?_cons, h]
      · intro version member
        rcases List.mem_append.mp member with isHead | isTail
        · exact known version (by simpa using isHead)
        · exact ih.2 version isTail

/-- The two deciders agree on a log that folds exactly when it selects one
version only, in keeping with its framing. -/
theorem deciders_agree_iff (window : Nat) (log : EventLog) (state : TypedState)
    (folds : Reducer.fold window log = .ok state) :
    (decideStore log).storeVersion = state.selectedStoreVersion.getD log.storeVersion ↔
      SelectsOnce log := by
  rcases run_selected (Reducer.fold_run folds) with ⟨selected, known⟩
  have folded : state.selectedStoreVersion = (selections log.events).getLast? := by
    simpa [TypedState.core, Reducer.genesisCore] using selected
  unfold SelectsOnce decideStore
  rw [folded]
  by_cases framed : log.storeVersion = v3
  · rw [if_pos framed, if_pos framed, framed, MigrationDecision.storeVersion]
    exact eq_comm
  · rw [if_neg framed, if_neg framed, scan_storeVersion]
    cases all : selections log.events with
    | nil =>
        simp only [List.head?_nil, List.getLast?_nil, Option.getD_none, if_true]
        simp [eq_comm]
    | cons first rest =>
        rw [all] at known
        have firstKnown := known first (by simp)
        have lastKnown := known ((first :: rest).getLast (by simp)) (List.getLast_mem _)
        rw [List.getLast?_eq_some_getLast (by simp)]
        simp only [List.head?_cons, Option.getD_some, reduceCtorEq, if_false, Option.some.injEq]
        rcases firstKnown with isV2 | isV3
        · rw [isV2, if_neg (by decide)]
        · rw [isV3, if_pos rfl]

end Deciders

section Sample

local instance selectionWire : Wire := .emptySession

/-- A v2 log that selects v2 and then v3. -/
def reselectedLog : EventLog :=
  ((EventLog.new v2).record 1 1000 (.operationCommit .migrationSelect v2 0)).record 1 1001
    (.operationCommit .migrationSelect v3 0)

/-- Recovery keeps v2 although the fold has selected v3. -/
theorem reselection_disagrees :
    ¬ ∀ (window : Nat) (log : EventLog) (state : TypedState),
      Reducer.fold window log = .ok state →
        (decideStore log).storeVersion = state.selectedStoreVersion.getD log.storeVersion := by
  intro claim
  have succeeds : (Reducer.fold idlenessWindow reselectedLog).isOk = true := by
    decide +kernel
  rcases Outcome.isOk_iff.mp succeeds with ⟨state, folds⟩
  have recovered : (decideStore reselectedLog).storeVersion = v2 := by
    decide +kernel
  have selected : state.selectedStoreVersion = some v3 := by
    have last : (selections reselectedLog.events).getLast? = some v3 := by
      decide +kernel
    rw [show state.selectedStoreVersion = state.core.selectedStoreVersion from rfl,
      (run_selected (Reducer.fold_run folds)).1, last]
    rfl
  have agreed := claim idlenessWindow reselectedLog state folds
  rw [recovered, selected] at agreed
  exact absurd agreed (by decide)

/-- A v2 log that selects v3 once. -/
def migratedLog : EventLog :=
  (EventLog.new v2).record 1 1000 (.operationCommit .migrationSelect v3 0)

/-- The criterion applied to a single selection. -/
theorem single_selection_agrees :
    ∃ state, Reducer.fold idlenessWindow migratedLog = .ok state ∧
      (decideStore migratedLog).storeVersion =
        state.selectedStoreVersion.getD migratedLog.storeVersion := by
  have succeeds : (Reducer.fold idlenessWindow migratedLog).isOk = true := by
    decide +kernel
  rcases Outcome.isOk_iff.mp succeeds with ⟨state, folds⟩
  refine ⟨state, folds, (deciders_agree_iff idlenessWindow migratedLog state folds).mpr ?_⟩
  unfold SelectsOnce
  decide +kernel

end Sample

end Migration

end Llxprt.Kernel
