import Llxprt.Kernel.Branch.Reads
import Llxprt.Kernel.Ledger.Steps
import Llxprt.Kernel.Serde
import Llxprt.Kernel.Stages

/-!
# Evidence of returned branches

A branch reads domains at versions, the main line writes them, and a return is
marked current when every read is still at the version of the ledger.  A domain
without a recorded version counts as version zero for the branch, while the
ledger accepts any first version for it.
-/

namespace Llxprt.Kernel.Reducer

open Llxprt.Rust BranchState

/-- The domain versions that an event writes. -/
def writtenBy : EventKind → BTreeMap String UInt64
  | .ledger command => Ledger.written command
  | _ => ∅

/-- A first write at version zero of a domain that an active branch has read at
zero. -/
def HiddenWrite (state : TypedState) (writes : BTreeMap String UInt64) : Prop :=
  ∃ domain, writes[domain]? = some 0 ∧ state.ledger.versions[domain]? = none ∧
    ∃ (nameSpace : String) (branch : Branch), state.branches.branches[nameSpace]? = some branch ∧
      branch.active = true ∧ branch.HasRead domain 0

section Moves

variable [Wire] {sequence : Nat} {kind : EventKind} {before after : Governed} {domain : String}

theorem Governs.versions (governs : Governs sequence kind before after) :
    after.ledger.versions = before.ledger.versions ∪ writtenBy kind := by
  cases governs with
  | kept isUngoverned =>
      cases kind with
      | ledger => cases isUngoverned
      | _ => exact Ledger.union_empty.symm
  | commanded moved => exact (Ledger.transition_step moved).versions
  | revoked | projected | branched | secured | erased => exact Ledger.union_empty.symm

/-- A write of a recorded domain raises its version. -/
theorem Governs.advances (governs : Governs sequence kind before after) {old new : UInt64}
    (recorded : before.ledger.versions[domain]? = some old)
    (isWritten : (writtenBy kind)[domain]? = some new) : old < new := by
  cases governs with
  | commanded moved =>
      rename_i command _ _
      cases command with
      | factInvalidate result writes =>
          simp only [Ledger.transition, Ledger.invalidate, bind_eq_ok, reject_eq_ok] at moved
          rcases moved with ⟨_, _, _, fresh, _⟩
          by_contra stale
          apply fresh
          rw [List.any_eq_true]
          refine ⟨(domain, new), Std.ExtTreeMap.mem_toList_iff_getElem?_eq_some.mpr isWritten, ?_⟩
          simpa [recorded] using stale
      | _ => simp [writtenBy, Ledger.written] at isWritten
  | kept isUngoverned =>
      cases kind with
      | ledger => cases isUngoverned
      | _ => simp [writtenBy] at isWritten
  | revoked | projected | branched | secured | erased => simp [writtenBy] at isWritten

theorem Governs.currentVersion_unwritten (governs : Governs sequence kind before after)
    (unwritten : (writtenBy kind)[domain]? = none) :
    currentVersion after.ledger.versions domain = currentVersion before.ledger.versions domain := by
  rw [currentVersion, governs.versions, Std.ExtTreeMap.getElem?_union, unwritten, Option.none_or]
  rfl

theorem Governs.currentVersion_written (governs : Governs sequence kind before after)
    {new : UInt64} (isWritten : (writtenBy kind)[domain]? = some new) :
    currentVersion after.ledger.versions domain = new := by
  rw [currentVersion, governs.versions, Std.ExtTreeMap.getElem?_union, isWritten, Option.some_or]
  rfl

/-- Versions never fall. -/
theorem Governs.currentVersion_le (governs : Governs sequence kind before after) :
    currentVersion before.ledger.versions domain ≤ currentVersion after.ledger.versions domain := by
  cases isWritten : (writtenBy kind)[domain]? with
  | none => exact UInt64.le_of_eq (governs.currentVersion_unwritten isWritten).symm
  | some new =>
      rw [governs.currentVersion_written isWritten]
      cases recorded : before.ledger.versions[domain]? with
      | none =>
          rw [currentVersion, recorded]
          exact UInt64.zero_le
      | some old =>
          rw [currentVersion, recorded]
          exact UInt64.le_of_lt (governs.advances recorded isWritten)

/-- A write raises the version of the domain, unless it is the first one and at
version zero. -/
theorem Governs.currentVersion_lt (governs : Governs sequence kind before after) {new : UInt64}
    (isWritten : (writtenBy kind)[domain]? = some new)
    (visible : before.ledger.versions[domain]? = none → new ≠ 0) :
    currentVersion before.ledger.versions domain < currentVersion after.ledger.versions domain := by
  rw [governs.currentVersion_written isWritten]
  cases recorded : before.ledger.versions[domain]? with
  | none =>
      rw [currentVersion, recorded]
      exact UInt64.pos_iff_ne_zero.mpr (visible recorded)
  | some old =>
      rw [currentVersion, recorded]
      exact governs.advances recorded isWritten

theorem Governs.readsRecorded (governs : Governs sequence kind before after)
    (recorded : ∀ (name : String) branch, before.branches.branches[name]? = some branch →
      ReadsRecorded branch) :
    ∀ (name : String) branch, after.branches.branches[name]? = some branch →
      ReadsRecorded branch := by
  intro name branch found
  cases governs with
  | kept | revoked | commanded | projected | secured | erased => exact recorded name branch found
  | branched moved =>
      rcases transition_moves moved with ⟨nameSpace, current, moves, lookup⟩
      rw [lookup name] at found
      split at found
      · cases found
        exact moves.readsRecorded recorded
      · exact recorded name branch found

theorem Governs.continues (governs : Governs sequence kind before after) {name : String}
    {branch : Branch} (present : before.branches.branches[name]? = some branch) :
    ∃ later, after.branches.branches[name]? = some later ∧ Continues branch later := by
  cases governs with
  | kept | revoked | commanded | projected | secured | erased => exact ⟨branch, present, .refl⟩
  | branched moved =>
      rcases transition_moves moved with ⟨nameSpace, current, moves, lookup⟩
      by_cases same : nameSpace = name
      · subst same
        exact ⟨current, by rw [lookup nameSpace, if_pos rfl], moves.continues present⟩
      · exact ⟨branch, by rw [lookup name, if_neg same, present], .refl⟩

end Moves

/-- The status and the revalidation set say which reads the ledger has left
behind. -/
structure Flagged (branch : Branch) (versions : BTreeMap String UInt64) (returned : Returned) :
    Prop where
  status : returned.status = .currentEvidence ↔ ∀ round ∈ branch.rounds, ∀ (domain : String) version,
    round.reads[domain]? = some version → currentVersion versions domain = version
  revalidate : ∀ domain, domain ∈ returned.revalidate ↔ ∃ round ∈ branch.rounds, ∃ version,
    round.reads[domain]? = some version ∧ currentVersion versions domain ≠ version

/-- No domain that a round of the namespace read at its version of the time was
written between the round and the position. -/
def Undisturbed [Wire] (window : Nat) (log : EventLog) (nameSpace : String) (index : Nat) : Prop :=
  ∀ earlier round stage (domain : String) version, earlier < index →
    log.kindAt earlier = some (.branch (.roundBranch nameSpace round)) →
    fold window (log.prefixLog earlier) = .ok stage → round.reads[domain]? = some version →
    currentVersion stage.ledger.versions domain = version →
    ∀ middle result writes, earlier < middle → middle < index →
      log.kindAt middle = some (.ledger (.factInvalidate result writes)) → domain ∉ writes

section Returns

variable [Wire] {window : Nat} {log : EventLog} {state final : TypedState} {index : Nat}
  {nameSpace : String} {before after earlier later : TypedState} {event : RecordedEvent}

theorem stage_readsRecorded (folds : fold window log = .ok final) :
    ∀ count state, count ≤ log.events.length → fold window (log.prefixLog count) = .ok state →
      ∀ (name : String) branch, state.branches.branches[name]? = some branch →
        ReadsRecorded branch := by
  apply stage_induction (fun _ state => ∀ (name : String) branch,
    state.branches.branches[name]? = some branch → ReadsRecorded branch) folds
  · intro name branch found
    exact absurd found (by simp [rehash, TypedState.genesis, BranchState.initial])
  · intro count event before after found beforeOk afterOk _ recorded
    exact (stage_governs found beforeOk afterOk).readsRecorded recorded

theorem stage_currentVersion_le (folds : fold window log = .ok final) {first last : Nat}
    (ordered : first ≤ last) (inRange : last ≤ log.events.length)
    (earlierOk : fold window (log.prefixLog first) = .ok earlier)
    (laterOk : fold window (log.prefixLog last) = .ok later) (domain : String) :
    currentVersion earlier.ledger.versions domain ≤ currentVersion later.ledger.versions domain := by
  apply stage_relation (fun earlier later => currentVersion earlier.ledger.versions domain ≤
    currentVersion later.ledger.versions domain) _ _ folds _ ordered inRange earlierOk laterOk
  · intro state
    exact UInt64.le_refl _
  · intro first second third
    exact UInt64.le_trans
  · intro count event before after found beforeOk afterOk
    exact (stage_governs found beforeOk afterOk).currentVersion_le

theorem stage_continues (folds : fold window log = .ok final) {first last : Nat}
    (ordered : first ≤ last) (inRange : last ≤ log.events.length)
    (earlierOk : fold window (log.prefixLog first) = .ok earlier)
    (laterOk : fold window (log.prefixLog last) = .ok later) :
    ∀ (name : String) branch, earlier.branches.branches[name]? = some branch →
      ∃ current, later.branches.branches[name]? = some current ∧ Continues branch current := by
  apply stage_relation (fun earlier later => ∀ (name : String) branch,
    earlier.branches.branches[name]? = some branch → ∃ current,
      later.branches.branches[name]? = some current ∧ Continues branch current) _ _ folds _ ordered
      inRange earlierOk laterOk
  · intro state name branch present
    exact ⟨branch, present, .refl⟩
  · intro first second third firstSecond secondThird name branch present
    rcases firstSecond name branch present with ⟨middle, middlePresent, continues⟩
    rcases secondThird name middle middlePresent with ⟨last, lastPresent, continuesLast⟩
    exact ⟨last, lastPresent, continues.trans continuesLast⟩
  · intro count event before after found beforeOk afterOk name branch present
    exact (stage_governs found beforeOk afterOk).continues present

/-- The stage at which a branch event of the log is applied. -/
theorem stage_moves {branchEvent : BranchEvent} (folds : fold window log = .ok final)
    (isEvent : log.kindAt index = some (.branch branchEvent))
    (beforeOk : fold window (log.prefixLog index) = .ok before) :
    index < log.events.length ∧ ∃ after nameSpace current,
      fold window (log.prefixLog (index + 1)) = .ok after ∧
      before.branches.Moves before.ledger.versions branchEvent nameSpace current ∧
      after.branches.branches[nameSpace]? = some current := by
  rcases Option.map_eq_some_iff.mp isEvent with ⟨event, found, kind⟩
  rcases exists_fold_prefixLog folds (index + 1) with ⟨after, afterOk⟩
  have governs := stage_governs found beforeOk afterOk
  rw [kind] at governs
  refine ⟨(List.getElem?_eq_some_iff.mp found).choose, after, ?_⟩
  generalize afterRecords : after.governed = records at governs
  cases governs with
  | kept isUngoverned => cases isUngoverned
  | branched moved =>
      rcases transition_moves moved with ⟨nameSpace, current, moves, lookup⟩
      refine ⟨nameSpace, current, afterOk, moves, ?_⟩
      have branches : after.branches = _ := congrArg Governed.branches afterRecords
      rw [branches, lookup nameSpace, if_pos rfl]

/-- The return of a branch is checked against all of its reads. -/
theorem return_flagged {returned : Returned} (folds : fold window log = .ok final)
    (isReturn : log.kindAt index = some (.branch (.returnBranch nameSpace returned)))
    (beforeOk : fold window (log.prefixLog index) = .ok before) :
    ∃ branch, before.branches.branches[nameSpace]? = some branch ∧ branch.active = true ∧
      Flagged branch before.ledger.versions returned := by
  rcases stage_moves folds isReturn beforeOk with ⟨inRange, _, _, _, _, moves, _⟩
  cases moves with
  | @returned _ branch _ present isActive _ status revalidate =>
      have recorded := stage_readsRecorded folds index before (Nat.le_of_lt inRange) beforeOk _ _
        present
      refine ⟨branch, present, isActive, ?_, ?_⟩
      · rw [status, expectedStatus_eq_current]
        constructor
        · intro noConflict round member domain version read
          by_contra differs
          apply noConflict domain
          exact (mem_branchConflicts recorded).mpr ⟨version, ⟨round, member, read⟩, differs⟩
        · intro allCurrent domain conflict
          rcases (mem_branchConflicts recorded).mp conflict with
            ⟨version, ⟨round, member, read⟩, differs⟩
          exact differs (allCurrent round member domain version read)
      · intro domain
        rw [revalidate, mem_branchConflicts recorded]
        constructor
        · rintro ⟨version, ⟨round, member, read⟩, differs⟩
          exact ⟨round, member, version, read, differs⟩
        · rintro ⟨round, member, version, read, differs⟩
          exact ⟨version, ⟨round, member, read⟩, differs⟩

/-- What a round reads stays in the read set of its branch until the branch is
closed. -/
theorem read_kept {round : Round} {domain : String} {version : UInt64} {last : Nat}
    {later : TypedState} (folds : fold window log = .ok final)
    (isRound : log.kindAt index = some (.branch (.roundBranch nameSpace round)))
    (read : round.reads[domain]? = some version) (isLater : index < last)
    (inRange : last ≤ log.events.length)
    (laterOk : fold window (log.prefixLog last) = .ok later) :
    ∃ branch, later.branches.branches[nameSpace]? = some branch ∧
      branch.reads[domain]? = some version := by
  rcases exists_fold_prefixLog folds index with ⟨before, beforeOk⟩
  rcases stage_moves folds isRound beforeOk with ⟨_, after, _, _, afterOk, moves, placed⟩
  cases moves with
  | rounded _ _ passes =>
      rcases stage_continues folds isLater inRange afterOk laterOk _ _ placed with
        ⟨current, found, continues⟩
      exact ⟨current, found, continues.reads domain version ((extend_reads passes).mpr (.inr read))⟩

/-- Every return is flagged by what its reads have become.  When no first write at
version zero hides behind a read, a return marked current has seen no write of a
domain that was current when it was read. -/
theorem return_evidence (window : Nat) (log : EventLog) (final : TypedState)
    (folds : fold window log = .ok final) (index : Nat) (nameSpace : String) (returned : Returned)
    (before : TypedState)
    (isReturn : log.kindAt index = some (.branch (.returnBranch nameSpace returned)))
    (beforeOk : fold window (log.prefixLog index) = .ok before) :
    (∃ branch, before.branches.branches[nameSpace]? = some branch ∧
      Flagged branch before.ledger.versions returned) ∧
    ((∀ middle result writes stage,
        log.kindAt middle = some (.ledger (.factInvalidate result writes)) →
        fold window (log.prefixLog middle) = .ok stage → ¬ HiddenWrite stage writes) →
      returned.status = .currentEvidence → Undisturbed window log nameSpace index) := by
  rcases return_flagged folds isReturn beforeOk with ⟨branch, present, isActive, flagged⟩
  refine ⟨⟨branch, present, flagged⟩, ?_⟩
  intro visible isCurrent earlier round stage domain version isBefore isRound stageOk read wasCurrent
    middle result writes afterRound beforeReturn isWrite member
  have inRange := Nat.le_of_lt (stage_moves folds isReturn beforeOk).1
  have middleRange : middle ≤ log.events.length := by omega
  rcases exists_fold_prefixLog folds middle with ⟨middleStage, middleOk⟩
  rcases exists_fold_prefixLog folds (middle + 1) with ⟨written, writtenOk⟩
  rcases Option.map_eq_some_iff.mp isWrite with ⟨event, found, kind⟩
  have governs := stage_governs found middleOk writtenOk
  rw [kind] at governs
  -- The branch holds the read when the write comes and when it returns.
  rcases read_kept folds isRound read afterRound middleRange middleOk with
    ⟨active, activePresent, activeRead⟩
  rcases stage_continues folds (Nat.le_of_lt beforeReturn) inRange middleOk beforeOk _ _
    activePresent with ⟨same, samePresent, continues⟩
  cases present.symm.trans samePresent
  have atReturn : currentVersion before.ledger.versions domain = version := by
    have recorded := stage_readsRecorded folds index before inRange beforeOk _ _ present
    rcases (recorded domain version).mp (continues.reads domain version activeRead) with
      ⟨done, listed, doneRead⟩
    exact flagged.status.mp isCurrent done listed domain version doneRead
  have rises : currentVersion stage.ledger.versions domain ≤
      currentVersion middleStage.ledger.versions domain :=
    stage_currentVersion_le folds (Nat.le_of_lt afterRound) middleRange stageOk middleOk domain
  have remains : currentVersion written.ledger.versions domain ≤
      currentVersion before.ledger.versions domain :=
    stage_currentVersion_le folds beforeReturn inRange writtenOk beforeOk domain
  have jumps : currentVersion middleStage.ledger.versions domain <
      currentVersion written.ledger.versions domain := by
    apply governs.currentVersion_lt (Std.ExtTreeMap.getElem?_eq_some_getElem member)
    intro (unrecorded : middleStage.ledger.versions[domain]? = none) isZero
    apply visible middle result writes middleStage isWrite middleOk
    have atZero : version = 0 := by
      rw [wasCurrent, currentVersion, unrecorded] at rises
      exact UInt64.le_zero_iff.mp rises
    subst atZero
    have recorded := stage_readsRecorded folds middle middleStage middleRange middleOk _ _
      activePresent
    have zeroWrite : writes[domain]? = some 0 := by
      rw [Std.ExtTreeMap.getElem?_eq_some_getElem member, isZero]
    exact ⟨domain, zeroWrite, unrecorded, nameSpace, active, activePresent,
      continues.active isActive, (recorded domain 0).mp activeRead⟩
  rw [wasCurrent] at rises
  rw [atReturn] at remains
  exact UInt64.lt_irrefl _ (UInt64.lt_of_le_of_lt rises (UInt64.lt_of_lt_of_le jumps remains))

end Returns

section Survey

local instance surveyWire : Wire := .serde

def surveySpawn : Spawn where
  nameSpace := "survey"
  parent := none
  parentVersion := 1
  scope := 1
  constitutional := ∅
  notes := ∅
  limits := .default
  tools := [⟨"read_file", true, .ofList ["src"], ∅⟩]

/-- A read of the domain at the given version. -/
def surveyRound (version : UInt64) : Round where
  call := "call"
  tool := "read_file"
  reads := (∅ : BTreeMap String UInt64).insert "src" version
  storeHandle := "store"
  contextSpend := 1
  managementSpend := 1
  complete := true

def surveyReturn : Returned where
  handle := "handle"
  digest := "0123456789abcdef0123456789abcdef0123456789abcdef0123456789abcdef"
  status := .currentEvidence
  revalidate := ∅

/-- The versions of a write of the domain. -/
def surveyWrites (version : UInt64) : BTreeMap String UInt64 :=
  (∅ : BTreeMap String UInt64).insert "src" version

def surveyWrite (version : UInt64) : EventKind :=
  .ledger (.factInvalidate ⟨"write", "write_file", 1, [111, 107]⟩ (surveyWrites version))

/-- A session in one scope with the given events. -/
def surveyLog (first second third fourth : EventKind) : EventLog :=
  (((((EventLog.new v2).record 1 1000 (.operationCommit .scopeOpen 1 0)).record 1 1001
    first).record 1 1002 second).record 1 1003 third).record 1 1004 fourth

/-- A branch reads a domain without versions, the main line writes the domain, and
the branch returns. -/
def disturbedLog : EventLog :=
  surveyLog (.branch (.openBranch surveySpawn)) (.branch (.roundBranch "survey" (surveyRound 0)))
    (surveyWrite 0) (.branch (.returnBranch "survey" surveyReturn))

/-- The write is not seen. -/
theorem first_write_unseen :
    ¬ ∀ (window : Nat) (log : EventLog) (final : TypedState), fold window log = .ok final →
      ∀ (index : Nat) (nameSpace : String) (returned : Returned) (before : TypedState),
        log.kindAt index = some (.branch (.returnBranch nameSpace returned)) →
        fold window (log.prefixLog index) = .ok before →
        (∃ branch, before.branches.branches[nameSpace]? = some branch ∧
          Flagged branch before.ledger.versions returned) ∧
        (returned.status = .currentEvidence → Undisturbed window log nameSpace index) := by
  intro claim
  have succeeds : (fold idlenessWindow disturbedLog).isOk = true := by
    decide +kernel
  have unwritten : (fold idlenessWindow (disturbedLog.prefixLog 2)).satisfies (fun state =>
      currentVersion state.ledger.versions "src" = 0) = true := by
    decide +kernel
  rcases Outcome.isOk_iff.mp succeeds with ⟨final, folds⟩
  rcases Outcome.satisfies_iff.mp unwritten with ⟨stage, stageOk, wasCurrent⟩
  rcases exists_fold_prefixLog folds 4 with ⟨before, beforeOk⟩
  have undisturbed := (claim idlenessWindow disturbedLog final folds 4 "survey" surveyReturn before
    rfl beforeOk).2 rfl
  have read : (surveyRound 0).reads["src"]? = some 0 := by
    simp [surveyRound]
  apply undisturbed 2 (surveyRound 0) stage "src" 0 (by decide) rfl stageOk read
    (of_decide_eq_true wasCurrent) 3 _ (surveyWrites 0) (by decide) (by decide) rfl
  simp [surveyWrites]

/-- The branch reads the domain after its write. -/
def orderlyLog : EventLog :=
  surveyLog (surveyWrite 1) (.branch (.openBranch surveySpawn))
    (.branch (.roundBranch "survey" (surveyRound 1)))
    (.branch (.returnBranch "survey" surveyReturn))

theorem orderly_return_undisturbed :
    ∃ final before, fold idlenessWindow orderlyLog = .ok final ∧
      fold idlenessWindow (orderlyLog.prefixLog 4) = .ok before ∧
      (∃ branch, before.branches.branches["survey"]? = some branch ∧
        Flagged branch before.ledger.versions surveyReturn) ∧
      Undisturbed idlenessWindow orderlyLog "survey" 4 := by
  have succeeds : (fold idlenessWindow orderlyLog).isOk = true := by
    decide +kernel
  rcases Outcome.isOk_iff.mp succeeds with ⟨final, folds⟩
  rcases exists_fold_prefixLog folds 4 with ⟨before, beforeOk⟩
  rcases return_evidence idlenessWindow orderlyLog final folds 4 "survey" surveyReturn before rfl
    beforeOk with ⟨flagged, undisturbed⟩
  refine ⟨final, before, folds, beforeOk, flagged, undisturbed ?_ rfl⟩
  rintro middle result writes stage isWrite _ ⟨domain, isZero, _⟩
  match middle with
  | 0 | 2 | 3 | 4 => cases isWrite
  | 1 =>
      cases isWrite
      rw [surveyWrites, Std.ExtTreeMap.getElem?_insert] at isZero
      split at isZero
      · cases isZero
      · simp at isZero
  | middle + 5 =>
      simp [EventLog.kindAt, orderlyLog, surveyLog, EventLog.record, EventLog.new] at isWrite

end Survey

end Llxprt.Kernel.Reducer
