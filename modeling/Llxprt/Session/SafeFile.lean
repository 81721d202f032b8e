import Llxprt.Rust.Runs
import Llxprt.Rust.Schedules
import Mathlib.Tactic.IntervalCases

/-!
# Publication of an artifact

Payload to a private temporary file, then one rename over the final name.  Calls
follow each other in one directory.  Any operation of a call may fail and any
call may stop between two of them; what it leaves is nothing new, a temporary
file, or the whole artifact.
-/

namespace Llxprt.Session.SafeFile

open Llxprt.Rust Llxprt.Rust.Files

/-- The temporary file of a publisher, by its process id. -/
def tempName (pid : Nat) (name : String) : String :=
  "." ++ name ++ "." ++ toString pid ++ ".tmp"

def publishArtifact (pid : Nat) (name : String) (bytes : List UInt8) : Action Failure Unit := do
  -- `open_regular_at` inspects the file that `O_CREAT | O_EXCL` has made.
  let file ← ask (.createNew (tempName pid name)) id
  let _ ← ask (.length file) id
  ask (.write file 0 bytes) id
  ask (.sync file) id
  ask (.rename (tempName pid name) name) id
  ask .openDirectory id
  ask .syncDirectory id

/-- One call: the process, its bytes, how its operations come out, and after how
many of them the process stops. -/
structure Publication where
  pid : Nat
  bytes : List UInt8
  fates : Nat → Fate
  stop : Option Nat

namespace Publication

/-- The directory that a call leaves. -/
def after (name : String) (disk : Disk) (call : Publication) : Disk :=
  (publishArtifact call.pid name call.bytes).run.leaves (directory call.fates) call.stop 0 disk

/-- The temporary file is created, provided that its name is free. -/
def Creates (call : Publication) : Prop :=
  Passes call.fates call.stop 0

/-- The operations up to the rename all work. -/
def Installs (call : Publication) : Prop :=
  ∀ operation ≤ 4, Passes call.fates call.stop operation

/-- The call creates its temporary file and fails or stops before the rename. -/
def Abandons (call : Publication) : Prop :=
  call.Creates ∧ ¬ call.Installs

end Publication

section Names

variable {name : String} {pid other : Nat}

theorem tempName_ne : tempName pid name ≠ name := by
  intro same
  have lengths := congrArg String.length same
  simp only [tempName, String.length_append] at lengths
  have : ".".length = 1 := rfl
  omega

theorem pid_of_tempName (same : tempName pid name = tempName other name) : pid = other := by
  have lists := congrArg String.toList same
  simp only [tempName, String.toList_append, List.append_assoc, List.append_cancel_left_eq] at lists
  have digits := List.append_cancel_right lists
  rw [Nat.toString_eq_ofList_toDigits, Nat.toString_eq_ofList_toDigits, String.toList_ofList,
    String.toList_ofList] at digits
  rw [← Nat.ofDigitChars_ten_toDigits (n := pid), digits, Nat.ofDigitChars_ten_toDigits]

end Names

section Leaving

variable {name : String} {disk after : Disk} {call : Publication}

/-- The directory has got the temporary file of the process and is otherwise the same. -/
structure Left (name : String) (pid : Nat) (disk after : Disk) : Prop where
  same : Disk.Same [tempName pid name] disk after
  stale : after.entries (tempName pid name) ≠ none

/-- The directory has got the artifact and is otherwise the same. -/
structure Installed (name : String) (call : Publication) (disk after : Disk) : Prop where
  same : Disk.Same [tempName call.pid name, name] disk after
  artifact : after.file name = some call.bytes
  clear : after.entries (tempName call.pid name) = none

/-- A temporary file in the way refuses the call. -/
theorem after_of_stale (stale : disk.entries (tempName call.pid name) ≠ none) :
    call.after name disk = disk := by
  apply leaves_of_fails
  · rw [Op.perform]
    cases taken : disk.entries (tempName call.pid name) with
    | none => exact absurd taken stale
    | some file => rfl
  · exact fun _ => rfl

theorem after_of_not_creates (idle : ¬ call.Creates) : call.after name disk = disk :=
  @leaves_of_not_passes _ _ _ _ _ _ _ _ _ _ idle (fun left => left = disk) rfl fun _ => rfl

/-- A call that creates its temporary file leaves it or the artifact. -/
theorem after_of_creates (free : disk.entries (tempName call.pid name) = none)
    (creates : call.Creates) :
    (call.Installs ∧ Installed name call disk (call.after name disk)) ∨
      (¬ call.Installs ∧ Left name call.pid disk (call.after name disk)) := by
  let temp := tempName call.pid name
  let created := disk.create temp
  have made : created.entries temp = some disk.unused := Disk.entries_create
  have left : Left name call.pid disk created :=
    ⟨Disk.same_create, by rw [made]; exact Option.some_ne_none _⟩
  -- whatever is written to the new file is seen under its temporary name alone
  have stored : ∀ bytes, Left name call.pid disk (created.store disk.unused bytes) := by
    intro bytes
    constructor
    · exact left.same.trans (Disk.same_store made)
    · exact left.stale
  have performed : (Op.createNew temp).perform disk = (.ok disk.unused, created) := by
    rw [Op.perform, free]
  have opened : call.after name disk = _ := leaves_of_passes creates performed
  rw [opened]
  have blank : created.contents disk.unused = [] := Disk.contents_create
  let full := created.store disk.unused (overwrite (created.contents disk.unused) 0 call.bytes)
  have filled : full.file temp = some call.bytes := by
    rw [Disk.file_store made, blank]
    simp [overwrite]
  let final := full.rename temp name
  have moved : (Op.rename temp name).perform full = (.ok (), final) := by
    have held : full.entries temp = some disk.unused := made
    rw [Op.perform, held]
  have installed : Installed name call disk final := by
    constructor
    · apply Disk.Same.trans ((stored _).same.weaken fun other member => List.mem_cons.mpr
        (.inl (List.mem_singleton.mp member)))
      exact Disk.same_rename
    · rw [Disk.file_rename]
      exact filled
    · change Function.update (Function.update full.entries temp none) name _ temp = none
      rw [Function.update_of_ne tempName_ne, Function.update_self]
  have fails : ∀ {operation}, ¬ Passes call.fates call.stop operation → operation ≤ 4 →
      ¬ call.Installs := fun halted early installs => halted (installs _ early)
  by_cases inspected : Passes call.fates call.stop 1
  · rw [leaves_of_passes inspected rfl]
    by_cases written : Passes call.fates call.stop 2
    · rw [leaves_of_passes written rfl]
      by_cases synced : Passes call.fates call.stop 3
      · rw [leaves_of_passes synced rfl]
        by_cases renamed : Passes call.fates call.stop 4
        · left
          constructor
          · intro operation early
            interval_cases operation
            · exact creates
            · exact inspected
            · exact written
            · exact synced
            · exact renamed
          · rw [leaves_of_passes renamed moved]
            rw [leaves_of_quiet rfl (fun _ => rfl) (leaves_last rfl fun _ => rfl)]
            exact installed
        · right
          refine ⟨fails renamed (le_refl 4), ?_⟩
          exact leaves_of_not_passes renamed (stored _) fun _ => stored _
      · right
        refine ⟨fails synced (by decide), ?_⟩
        exact leaves_of_not_passes synced (stored _) fun _ => stored _
    · right
      refine ⟨fails written (by decide), ?_⟩
      exact leaves_of_not_passes written left fun _ => stored _
  · right
    refine ⟨fails inspected (by decide), ?_⟩
    exact leaves_of_not_passes inspected left fun _ => left

end Leaving

section Runs

variable {name : String} {start : Disk} {calls : List Publication}

/-- A directory with neither the artifact nor any temporary file of it. -/
structure Fresh (name : String) (disk : Disk) : Prop where
  artifact : disk.file name = none
  temps : ∀ pid, disk.entries (tempName pid name) = none

/-- The artifact is absent or whole, and exactly the processes that have abandoned a
call have a temporary file. -/
structure Settled (name : String) (calls : List Publication) (disk : Disk) : Prop where
  artifact : disk.file name = none ∨ ∃ call ∈ calls, disk.file name = some call.bytes
  stale : ∀ pid, disk.entries (tempName pid name) ≠ none ↔
    ∃ call ∈ calls, call.pid = pid ∧ call.Abandons

variable {disk : Disk}

theorem Settled.of_fresh (fresh : Fresh name disk) : Settled name [] disk where
  artifact := .inl fresh.artifact
  stale pid := by simp [fresh.temps pid]

/-- A call that changes nothing and abandons nothing new. -/
theorem Settled.keep (settled : Settled name calls disk) {call : Publication}
    (known : call.Abandons → disk.entries (tempName call.pid name) ≠ none) :
    Settled name (calls ++ [call]) disk where
  artifact := by
    rcases settled.artifact with absent | ⟨other, member, whole⟩
    · exact .inl absent
    · exact .inr ⟨other, List.mem_append_left _ member, whole⟩
  stale pid := by
    rw [settled.stale pid]
    constructor
    · rintro ⟨other, member, abandoned⟩
      exact ⟨other, List.mem_append_left _ member, abandoned⟩
    · rintro ⟨other, member, rfl, abandoned⟩
      rcases List.mem_append.mp member with earlier | last
      · exact ⟨other, earlier, rfl, abandoned⟩
      · rw [List.mem_singleton.mp last] at abandoned ⊢
        exact (settled.stale _).mp (known abandoned)

theorem Settled.left (settled : Settled name calls disk) {call : Publication} {after : Disk}
    (abandons : call.Abandons) (left : Left name call.pid disk after) :
    Settled name (calls ++ [call]) after where
  artifact := by
    have same : after.file name = disk.file name :=
      left.same.file_eq fun inside => tempName_ne (List.mem_singleton.mp inside).symm
    rw [same]
    rcases settled.artifact with absent | ⟨other, member, whole⟩
    · exact .inl absent
    · exact .inr ⟨other, List.mem_append_left _ member, whole⟩
  stale pid := by
    by_cases own : call.pid = pid
    · subst own
      exact iff_of_true left.stale
        ⟨call, List.mem_append_right _ List.mem_cons_self, rfl, abandons⟩
    · have outside : tempName pid name ∉ [tempName call.pid name] :=
        fun inside => own (pid_of_tempName (List.mem_singleton.mp inside)).symm
      rw [(left.same _ outside).1, settled.stale pid]
      constructor
      · rintro ⟨other, member, abandoned⟩
        exact ⟨other, List.mem_append_left _ member, abandoned⟩
      · rintro ⟨other, member, rfl, abandoned⟩
        rcases List.mem_append.mp member with earlier | last
        · exact ⟨other, earlier, rfl, abandoned⟩
        · rw [List.mem_singleton.mp last] at own
          exact absurd rfl own

theorem Settled.installed (settled : Settled name calls disk) {call : Publication} {after : Disk}
    (free : disk.entries (tempName call.pid name) = none) (installs : call.Installs)
    (installed : Installed name call disk after) : Settled name (calls ++ [call]) after where
  artifact := .inr ⟨call, List.mem_append_right _ List.mem_cons_self, installed.artifact⟩
  stale pid := by
    have entries : after.entries (tempName pid name) = disk.entries (tempName pid name) := by
      by_cases own : call.pid = pid
      · rw [← own, installed.clear, free]
      · refine (installed.same _ ?_).1
        intro inside
        rcases List.mem_cons.mp inside with same | same
        · exact own (pid_of_tempName same).symm
        · exact tempName_ne (List.mem_singleton.mp same)
    rw [entries, settled.stale pid]
    constructor
    · rintro ⟨other, member, abandoned⟩
      exact ⟨other, List.mem_append_left _ member, abandoned⟩
    · rintro ⟨other, member, rfl, abandoned⟩
      rcases List.mem_append.mp member with earlier | last
      · exact ⟨other, earlier, rfl, abandoned⟩
      · rw [List.mem_singleton.mp last] at abandoned
        exact absurd installs abandoned.2

/-- What a call makes of a directory, by what becomes of it. -/
theorem Settled.step (settled : Settled name calls disk) (call : Publication) :
    Settled name (calls ++ [call]) (call.after name disk) := by
  by_cases free : disk.entries (tempName call.pid name) = none
  · by_cases creates : call.Creates
    · rcases after_of_creates free creates with ⟨installs, installed⟩ | ⟨incomplete, left⟩
      · exact settled.installed free installs installed
      · exact settled.left ⟨creates, incomplete⟩ left
    · rw [after_of_not_creates creates]
      exact settled.keep fun abandons => absurd abandons.1 creates
  · rw [after_of_stale free]
    exact settled.keep fun _ => free

theorem settled_run (fresh : Fresh name start) :
    Settled name calls (run (Publication.after name) start calls) := by
  induction calls using List.reverseRecOn with
  | nil => exact Settled.of_fresh fresh
  | append_singleton calls call ih =>
      rw [run_concat]
      exact ih.step call

/-- A call that nothing fails publishes its bytes or is refused over a temporary file. -/
theorem run_publishArtifact (pid : Nat) (bytes : List UInt8) :
    ((publishArtifact pid name bytes).run.run disk =
        (.error .alreadyExists, disk) ∧ disk.entries (tempName pid name) ≠ none) ∨
      (((publishArtifact pid name bytes).run.run disk).1 = .ok () ∧
        ((publishArtifact pid name bytes).run.run disk).2.file name = some bytes ∧
        disk.entries (tempName pid name) = none) := by
  cases taken : disk.entries (tempName pid name) with
  | some file =>
      left
      constructor
      · unfold publishArtifact
        rw [run_andThen, run_ask, Op.perform, taken]
        rfl
      · exact Option.some_ne_none _
  | none =>
      right
      let created := disk.create (tempName pid name)
      let full := created.store disk.unused (overwrite (created.contents disk.unused) 0 bytes)
      have made : full.entries (tempName pid name) = some disk.unused := Disk.entries_create
      have blank : created.contents disk.unused = [] := Disk.contents_create
      have done : (publishArtifact pid name bytes).run.run disk =
          (.ok (), full.rename (tempName pid name) name) := by
        have opened : (Op.createNew (tempName pid name)).perform disk =
            (.ok disk.unused, created) := by
          rw [Op.perform, taken]
        have moved : (Op.rename (tempName pid name) name).perform full =
            (.ok (), full.rename (tempName pid name) name) := by
          rw [Op.perform, made]
        unfold publishArtifact
        rw [run_andThen, run_ask, opened]
        change (ask (.rename (tempName pid name) name) id >>= _).run.run full = _
        rw [run_andThen, run_ask, moved]
        rfl
      rw [done]
      refine ⟨rfl, ?_, rfl⟩
      rw [Disk.file_rename, Disk.file_eq_some]
      refine ⟨disk.unused, made, ?_⟩
      change Function.update created.contents disk.unused _ disk.unused = bytes
      rw [Function.update_self, blank]
      simp [overwrite]

/-- Whatever becomes of the calls on a name, the artifact is absent or holds the
bytes of one of them.  A later call whose operations all work installs its bytes,
unless its process has abandoned a call: then it is refused and changes nothing. -/
theorem whole_and_installed (fresh : Fresh name start) :
    let reached := run (Publication.after name) start calls
    (reached.file name = none ∨ ∃ call ∈ calls, reached.file name = some call.bytes) ∧
      ∀ pid bytes,
        let later := (publishArtifact pid name bytes).run.on (directory fun _ => .works) 0 reached
        ((∃ call ∈ calls, call.pid = pid ∧ call.Abandons) →
            later.1 = .error .alreadyExists ∧ later.2.2 = reached) ∧
          ((¬ ∃ call ∈ calls, call.pid = pid ∧ call.Abandons) →
            later.1 = .ok () ∧ later.2.2.file name = some bytes) := by
  have settled := @settled_run _ _ calls fresh
  refine ⟨settled.artifact, ?_⟩
  intro pid bytes
  simp only [on_works]
  rw [← settled.stale pid]
  rcases run_publishArtifact
    pid bytes with ⟨refused, stale⟩ | ⟨done, artifact, free⟩
  · rw [refused]
    exact ⟨fun _ => ⟨rfl, rfl⟩, fun free => absurd stale free⟩
  · exact ⟨fun stale => absurd free stale, fun _ => ⟨done, artifact⟩⟩

theorem fresh_empty : Fresh name Disk.empty :=
  ⟨rfl, fun _ => rfl⟩

/-- A publication whose write fails. -/
def failedWrite : Publication where
  pid := 7
  bytes := [1]
  fates operation := if operation = 2 then .fails else .works
  stop := none

theorem abandons_failedWrite : failedWrite.Abandons :=
  ⟨⟨rfl, rfl⟩, fun installs => absurd (installs 2 (by decide)).2 (by decide)⟩

theorem whole_and_installed_failedWrite :
    let reached := run (Publication.after "artifact") Disk.empty [failedWrite]
    ((publishArtifact 8 "artifact" [2]).run.on (directory fun _ => .works) 0 reached).1 = .ok () ∧
      ((publishArtifact 8 "artifact" [2]).run.on (directory fun _ => .works) 0 reached).2.2.file
        "artifact" = some [2] := by
  apply ((whole_and_installed fresh_empty).2 8 [2]).2
  rintro ⟨call, member, own, _⟩
  rw [List.mem_singleton.mp member] at own
  cases own

/-- The same process can publish no more. -/
theorem refused_after_failedWrite :
    ¬∀ name start, Fresh name start → ∀ calls pid bytes,
      ((publishArtifact pid name bytes).run.on (directory fun _ => .works) 0
        (run (Publication.after name) start calls)).1 = .ok () := by
  intro retryable
  have works := retryable "artifact" Disk.empty fresh_empty [failedWrite] 7 [2]
  have stale := ((@settled_run _ _ [failedWrite] (@fresh_empty "artifact")).stale
    7).mpr ⟨failedWrite, List.mem_cons_self, rfl, abandons_failedWrite⟩
  rw [on_works.1] at works
  rcases run_publishArtifact 7 [2] with ⟨refused, _⟩ | ⟨_, _, free⟩
  · rw [refused] at works
    cases works
  · exact stale free

end Runs

end Llxprt.Session.SafeFile
