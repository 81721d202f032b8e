import Llxprt.Kernel.Branch.Moves

/-!
# What a branch has read

The read set of a branch is the union of the read sets of its rounds.  Rounds
that read the same domain agree on its version, so the union loses nothing, and
a return is checked against every single read.
-/

namespace Llxprt.Kernel

open Llxprt.Rust

/-- A round of the branch has read the domain at the version. -/
def Branch.HasRead (branch : Branch) (domain : String) (version : UInt64) : Prop :=
  ∃ round ∈ branch.rounds, round.reads[domain]? = some version

/-- Version of a domain: a domain without a recorded version is at zero. -/
def currentVersion (versions : BTreeMap String UInt64) (domain : String) : UInt64 :=
  versions[domain]?.getD 0

namespace BranchState

/-- The read set of a branch holds exactly what its rounds have read. -/
def ReadsRecorded (branch : Branch) : Prop :=
  ∀ (domain : String) version, branch.reads[domain]? = some version ↔ branch.HasRead domain version

/-- What later events leave of a branch: what was read stays read, and a closed
branch stays closed. -/
structure Continues (before after : Branch) : Prop where
  active : after.active = true → before.active = true
  reads : ∀ (domain : String) version, before.reads[domain]? = some version →
    after.reads[domain]? = some version

section Reads

variable {branch : Branch} {round : Round} {domain : String} {version : UInt64}
  {versions : BTreeMap String UInt64}

theorem Continues.refl : Continues branch branch :=
  ⟨id, fun _ _ => id⟩

theorem Continues.trans {first second third : Branch} (earlier : Continues first second)
    (later : Continues second third) : Continues first third :=
  ⟨fun isActive => earlier.active (later.active isActive),
    fun domain version read => later.reads domain version (earlier.reads domain version read)⟩

theorem extend_reads (passes : Extends branch round) :
    (branch.extend round).reads[domain]? = some version ↔
      branch.reads[domain]? = some version ∨ round.reads[domain]? = some version := by
  rw [Branch.extend, Std.ExtTreeMap.getElem?_union]
  cases read : round.reads[domain]? with
  | none => simp
  | some new =>
      rw [Option.some_or]
      constructor
      · exact .inr
      · rintro (earlier | same)
        · rw [passes.consistent domain version new earlier read]
        · exact same

theorem extend_hasRead : (branch.extend round).HasRead domain version ↔
    branch.HasRead domain version ∨ round.reads[domain]? = some version := by
  simp only [Branch.HasRead, Branch.extend, List.mem_append, List.mem_singleton]
  constructor
  · rintro ⟨done, earlier | rfl, read⟩
    · exact .inl ⟨done, earlier, read⟩
    · exact .inr read
  · rintro (⟨done, earlier, read⟩ | read)
    · exact ⟨done, .inl earlier, read⟩
    · exact ⟨round, .inr rfl, read⟩

theorem ReadsRecorded.extend (recorded : ReadsRecorded branch) (passes : Extends branch round) :
    ReadsRecorded (branch.extend round) := by
  intro domain version
  rw [extend_reads passes, extend_hasRead, recorded domain version]

theorem continues_extend (passes : Extends branch round) :
    Continues branch (branch.extend round) where
  active := id
  reads _ _ read := (extend_reads passes).mpr (.inl read)

/-- The conflicts of a branch are the domains that it has read at another
version. -/
theorem mem_branchConflicts (recorded : ReadsRecorded branch) :
    domain ∈ branchConflicts branch versions ↔
      ∃ version, branch.HasRead domain version ∧ currentVersion versions domain ≠ version := by
  simp only [branchConflicts, Std.ExtTreeSet.mem_ofList, List.contains_eq_mem, List.mem_map,
    List.mem_filter, decide_eq_true_eq, Prod.exists, exists_and_right, exists_eq_right,
    Std.ExtTreeMap.mem_toList_iff_getElem?_eq_some, recorded domain, currentVersion]

theorem expectedStatus_eq_current {conflicts : BTreeSet String} :
    expectedStatus conflicts = .currentEvidence ↔ ∀ domain, domain ∉ conflicts := by
  unfold expectedStatus
  split
  · rename_i isEmpty
    simp [Std.ExtTreeSet.isEmpty_iff.mp isEmpty]
  · rename_i occupied
    constructor
    · intro same
      cases same
    · intro none
      have isEmpty := Std.ExtTreeSet.eq_empty_iff_forall_not_mem.mpr none
      exact absurd (Std.ExtTreeSet.isEmpty_iff.mpr isEmpty) occupied

end Reads

section Moves

variable {state next : BranchState} {nameSpace : String} {current : Branch} {event : BranchEvent}
  {versions : BTreeMap String UInt64}

theorem Moves.readsRecorded (moves : state.Moves versions event nameSpace current)
    (recorded : ∀ (name : String) branch, state.branches[name]? = some branch →
      ReadsRecorded branch) : ReadsRecorded current := by
  cases moves with
  | opened _ => simp [ReadsRecorded, Branch.HasRead, Branch.fresh]
  | rounded present _ passes => exact (recorded _ _ present).extend passes
  | returned present | aborted present =>
      have earlier := recorded _ _ present
      exact earlier

theorem Moves.continues {before : Branch} (moves : state.Moves versions event nameSpace current)
    (present : state.branches[nameSpace]? = some before) : Continues before current := by
  cases moves with
  | opened opens => cases present.symm.trans opens.absent
  | rounded found _ passes =>
      cases present.symm.trans found
      exact continues_extend passes
  | returned found isActive | aborted found isActive =>
      cases present.symm.trans found
      exact ⟨fun _ => isActive, fun _ _ => id⟩

end Moves

end BranchState

end Llxprt.Kernel
