import Llxprt.Rust.Register
import Llxprt.Session.Artifacts

/-!
# Publication of a generation

The slots of the context directory and the file operations of one publication,
in order.  A crash leaves what some first operations did.  Recovery selects the
generation to read from what it finds.
-/

namespace Llxprt.Session

open Llxprt.Kernel Llxprt.Kernel.Recorded Llxprt.Rust Llxprt.Store

inductive GenerationSlot where
  | stage
  | committed
  | previous
  deriving DecidableEq

/-- The session directory as far as the context is concerned: the files and the
generation slots of the context directory, and the two files beside it. -/
structure Disk where
  files : Directory
  stage : Option Directory
  committed : Option Directory
  previous : Option Directory
  marker : Option Bytes
  key : Option Bytes

namespace Disk

def slot (disk : Disk) : GenerationSlot → Option Directory
  | .stage => disk.stage
  | .committed => disk.committed
  | .previous => disk.previous

def setSlot (disk : Disk) (slot : GenerationSlot) (dir : Option Directory) : Disk :=
  match slot with
  | .stage => { disk with stage := dir }
  | .committed => { disk with committed := dir }
  | .previous => { disk with previous := dir }

/-- A change inside a slot, or among the files when there is no slot. -/
def modify (disk : Disk) (place : Option GenerationSlot) (change : Directory → Directory) : Disk :=
  match place with
  | none => { disk with files := change disk.files }
  | some slot => disk.setSlot slot ((disk.slot slot).map change)

end Disk

/-- One file operation. -/
inductive FileOp where
  | unlink (slot : GenerationSlot) (name : String)
  | rmdir (slot : GenerationSlot)
  | mkdir (slot : GenerationSlot)
  | create (place : Option GenerationSlot) (name : String)
  | write (place : Option GenerationSlot) (name : String) (bytes : Bytes)
  | rename (place : Option GenerationSlot) (before after : String)
  | move (source target : GenerationSlot)
  | sync
  deriving DecidableEq

/-- Give a file another name, replacing whatever had it. -/
def renameFile (before after : String) (dir : Directory) : Directory :=
  match dir[before]? with
  | none => dir
  | some bytes => (dir.erase before).insert after bytes

/-- Whether a directory may be replaced by a rename: it is absent or empty. -/
def replaceable (dir : Option Directory) : Bool :=
  match dir with
  | none => true
  | some dir => dir.isEmpty

def FileOp.apply (disk : Disk) : FileOp → Disk
  | unlink slot name => disk.modify (some slot) (·.erase name)
  | rmdir slot => if replaceable (disk.slot slot) then disk.setSlot slot none else disk
  | mkdir slot => if (disk.slot slot).isSome then disk else disk.setSlot slot (some ∅)
  | create place name => disk.modify place (·.insert name [])
  | write place name bytes => disk.modify place (·.insert name bytes)
  | rename place before after => disk.modify place (renameFile before after)
  | move source target =>
      if (disk.slot source).isSome ∧ replaceable (disk.slot target) then
        (disk.setSlot target (disk.slot source)).setSlot source none
      else
        disk
  | sync => disk

def runOps (ops : List FileOp) (disk : Disk) : Disk :=
  ops.foldl FileOp.apply disk

/-- The publishing process: its number and the order in which the system lists a
directory to it. -/
structure Process where
  pid : Nat
  listing : Directory → List String

/-- Listing a directory names all its entries. -/
def Process.Lists (process : Process) : Prop :=
  ∀ dir name, name ∈ process.listing dir ↔ name ∈ dir

section Publishing

variable (process : Process)

def removeDirAll (slot : GenerationSlot) (disk : Disk) : List FileOp :=
  match disk.slot slot with
  | none => []
  | some dir => (process.listing dir).map (.unlink slot) ++ [.rmdir slot]

def tempName (name : String) : String :=
  "." ++ name ++ "." ++ toString process.pid ++ ".tmp"

/-- Payload to a temporary file, then one rename over the final name. -/
def publishArtifact (place : Option GenerationSlot) (artifact : String × Bytes) : List FileOp :=
  [.create place (tempName process artifact.1), .write place (tempName process artifact.1) artifact.2,
    .sync, .rename place (tempName process artifact.1) artifact.1, .sync]

/-- The stage of an earlier publisher goes, and every artifact is written into a
new one. -/
def stageOps (disk : Disk) (state : ContextState) : List FileOp :=
  removeDirAll process .stage disk ++ .mkdir .stage ::
    (artifacts state).flatMap (publishArtifact process (some .stage))

/-- The committed generation is set aside. -/
def asideOps (disk : Disk) : List FileOp :=
  if disk.committed.isSome then
    removeDirAll process .previous disk ++ [.move .committed .previous]
  else
    []

def unitIndex (state : ContextState) : String × Bytes :=
  ("unit-index", serialize state.store.spine.records)

/-- The unit index is published only when no temporary file is in its way. -/
def indexOps (disk : Disk) (state : ContextState) : List FileOp :=
  if tempName process (unitIndex state).1 ∈ disk.files then
    []
  else
    publishArtifact process none (unitIndex state)

/-- The file operations of a publication, in order. -/
def persistOps (disk : Disk) (state : ContextState) : List FileOp :=
  let staging := stageOps process disk state
  let staged := runOps staging disk
  let aside := asideOps process staged
  let publish := [.move .stage .committed, .sync]
  let renamed := runOps publish (runOps aside staged)
  let cleanup := removeDirAll process .previous renamed
  staging ++ (aside ++ (publish ++ (cleanup ++ indexOps process (runOps cleanup renamed) state)))

/-- The publication fails only over a temporary file of the unit index. -/
def persistContext (disk : Disk) (state : ContextState) : Except String Unit × Disk :=
  let done := runOps (persistOps process disk state) disk
  if tempName process (unitIndex state).1 ∈ disk.files then
    (.error "publish unit index", done)
  else
    (.ok (), done)

end Publishing

section Recovering

variable {Request : Type} (libraries : Libraries Request)

/-- The key of the session, drawn when there is none yet. -/
def ensureVaultKey (disk : Disk) (entropy : Entropy) : Except String Bytes × Disk :=
  match disk.key with
  | none => (.ok entropy.key, { disk with key := some entropy.key })
  | some bytes =>
      if vaultKeyLen < bytes.length then
        (.error ("context vault key artifact unreadable: " ++
          (ArtifactError.overBound "context-vault-key" vaultKeyLen).text), disk)
      else if bytes.length ≠ vaultKeyLen then
        (.error ("context vault key artifact is " ++ toString bytes.length ++ " bytes, want " ++
          toString vaultKeyLen), disk)
      else
        (.ok bytes, disk)

/-- The generation that the manifest of a slot names. -/
def validateGeneration (dir : Directory) : Except String Nat :=
  match readArtifact dir "manifest.json" manifestReloadMax with
  | .error error => .error ("context manifest unreadable: " ++ error.text)
  | .ok bytes =>
      match libraries.decodeManifest bytes with
      | .error error => .error ("context manifest corrupt: " ++ error)
      | .ok manifest => .ok manifest.generation

/-- The generation that a recovering process must read. -/
def openCommittedGeneration (disk : Disk) : Except String (Option (Directory × Nat)) × Disk :=
  match disk.committed with
  | none => (.ok none, disk)
  | some committed =>
      match validateGeneration libraries committed with
      | .ok generation => (.ok (some (committed, generation)), { disk with stage := none })
      | .error reason =>
          let torn := "context committed generation is torn: " ++ reason
          match disk.previous with
          | none => (.error torn, disk)
          | some previous =>
              match validateGeneration libraries previous with
              | .ok generation => (.ok (some (previous, generation)), disk)
              | .error _ => (.error torn, disk)

def recoverContextState (disk : Disk) (entropy : Entropy) : Except String ContextState × Disk :=
  match ensureVaultKey disk entropy with
  | (.error error, disk) => (.error error, disk)
  | (.ok key, disk) =>
      match openCommittedGeneration libraries disk with
      | (.error error, disk) => (.error error, disk)
      | (.ok (some (dir, generation)), disk) =>
          (recoverFrom libraries dir disk.marker key generation entropy, disk)
      | (.ok none, disk) =>
          (recoverFrom libraries disk.files disk.marker key 0 entropy, disk)

end Recovering

section Slots

variable {disk : Disk} {slot other : GenerationSlot} {dir : Option Directory}

@[simp]
theorem slot_setSlot : (disk.setSlot slot dir).slot slot = dir := by
  cases slot <;> rfl

theorem slot_setSlot_of_ne (differs : slot ≠ other) :
    (disk.setSlot slot dir).slot other = disk.slot other := by
  cases slot <;> cases other <;> first | rfl | exact absurd rfl differs

@[simp]
theorem setSlot_files : (disk.setSlot slot dir).files = disk.files := by
  cases slot <;> rfl

@[simp]
theorem setSlot_marker : (disk.setSlot slot dir).marker = disk.marker := by
  cases slot <;> rfl

@[simp]
theorem setSlot_key : (disk.setSlot slot dir).key = disk.key := by
  cases slot <;> rfl

@[simp]
theorem setSlot_setSlot {later : Option Directory} :
    (disk.setSlot slot dir).setSlot slot later = disk.setSlot slot later := by
  cases slot <;> rfl

theorem setSlot_self : disk.setSlot slot (disk.slot slot) = disk := by
  cases slot <;> rfl

end Slots

section Operations

variable {disk : Disk}

/-- The operation touches neither the committed slot nor the files. -/
def FileOp.Spares : FileOp → Prop
  | unlink slot _ => slot ≠ .committed
  | rmdir slot => slot ≠ .committed
  | mkdir slot => slot ≠ .committed
  | create place _ => place ≠ none ∧ place ≠ some .committed
  | write place _ _ => place ≠ none ∧ place ≠ some .committed
  | rename place _ _ => place ≠ none ∧ place ≠ some .committed
  | move source target => source ≠ .committed ∧ target ≠ .committed
  | sync => True

theorem runOps_append (first later : List FileOp) :
    runOps (first ++ later) disk = runOps later (runOps first disk) := by
  simp [runOps]

theorem modify_committed {place : Option GenerationSlot} {change : Directory → Directory}
    (elsewhere : place ≠ some .committed) : (disk.modify place change).committed = disk.committed := by
  rcases place with _ | slot
  · rfl
  · have differs : slot ≠ .committed := fun same => elsewhere (congrArg some same)
    exact slot_setSlot_of_ne differs

theorem modify_files {place : Option GenerationSlot} {change : Directory → Directory}
    (inSlot : place ≠ none) : (disk.modify place change).files = disk.files := by
  rcases place with _ | slot
  · exact absurd rfl inSlot
  · exact setSlot_files

@[simp]
theorem modify_marker {place : Option GenerationSlot} {change : Directory → Directory} :
    (disk.modify place change).marker = disk.marker := by
  rcases place with _ | slot
  · rfl
  · exact setSlot_marker

@[simp]
theorem modify_key {place : Option GenerationSlot} {change : Directory → Directory} :
    (disk.modify place change).key = disk.key := by
  rcases place with _ | slot
  · rfl
  · exact setSlot_key

theorem apply_marker (op : FileOp) : (op.apply disk).marker = disk.marker := by
  cases op <;> simp only [FileOp.apply, modify_marker] <;> split <;> simp

theorem apply_key (op : FileOp) : (op.apply disk).key = disk.key := by
  cases op <;> simp only [FileOp.apply, modify_key] <;> split <;> simp

theorem apply_spared {op : FileOp} (spares : op.Spares) :
    (op.apply disk).committed = disk.committed ∧ (op.apply disk).files = disk.files := by
  cases op with
  | unlink slot name =>
      have differs : some slot ≠ some .committed := fun same => spares (Option.some.inj same)
      exact ⟨modify_committed differs, modify_files (by simp)⟩
  | rmdir slot =>
      simp only [FileOp.apply]
      split
      · exact ⟨slot_setSlot_of_ne spares, setSlot_files⟩
      · exact ⟨rfl, rfl⟩
  | mkdir slot =>
      simp only [FileOp.apply]
      split
      · exact ⟨rfl, rfl⟩
      · exact ⟨slot_setSlot_of_ne spares, setSlot_files⟩
  | create place name => exact ⟨modify_committed spares.2, modify_files spares.1⟩
  | write place name bytes => exact ⟨modify_committed spares.2, modify_files spares.1⟩
  | rename place before after => exact ⟨modify_committed spares.2, modify_files spares.1⟩
  | move source target =>
      simp only [FileOp.apply]
      split
      · have first : ((disk.setSlot target (disk.slot source)).setSlot source none).committed =
            (disk.setSlot target (disk.slot source)).committed := slot_setSlot_of_ne spares.1
        exact ⟨first.trans (slot_setSlot_of_ne spares.2), by simp⟩
      · exact ⟨rfl, rfl⟩
  | sync => exact ⟨rfl, rfl⟩

theorem runOps_beside (ops : List FileOp) :
    (runOps ops disk).marker = disk.marker ∧ (runOps ops disk).key = disk.key := by
  induction ops generalizing disk with
  | nil => exact ⟨rfl, rfl⟩
  | cons op ops ih =>
      have rest := @ih (op.apply disk)
      exact ⟨rest.1.trans (apply_marker op), rest.2.trans (apply_key op)⟩

/-- Sparing operations leave the committed generation and the files alone. -/
theorem runOps_spared {ops : List FileOp} (spares : ∀ op ∈ ops, op.Spares) :
    (runOps ops disk).committed = disk.committed ∧ (runOps ops disk).files = disk.files := by
  induction ops generalizing disk with
  | nil => exact ⟨rfl, rfl⟩
  | cons op ops ih =>
      rcases apply_spared (spares op List.mem_cons_self) with ⟨committed, files⟩
      have rest := @ih (op.apply disk) fun op member => spares op (List.mem_cons_of_mem _ member)
      exact ⟨rest.1.trans committed, rest.2.trans files⟩

end Operations

section Phases

variable {process : Process} {disk : Disk} {state : ContextState}

theorem removeDirAll_spares {slot : GenerationSlot} (differs : slot ≠ .committed) :
    ∀ op ∈ removeDirAll process slot disk, op.Spares := by
  intro op member
  unfold removeDirAll at member
  split at member
  · cases member
  · rcases List.mem_append.mp member with unlinked | removed
    · rcases List.mem_map.mp unlinked with ⟨name, _, rfl⟩
      exact differs
    · rw [List.mem_singleton.mp removed]
      exact differs

theorem publishArtifact_spares {artifact : String × Bytes} :
    ∀ op ∈ publishArtifact process (some .stage) artifact, op.Spares := by
  simp [publishArtifact, FileOp.Spares]

theorem stageOps_spares : ∀ op ∈ stageOps process disk state, op.Spares := by
  intro op member
  unfold stageOps at member
  rcases List.mem_append.mp member with removed | made
  · exact removeDirAll_spares (by decide) op removed
  · rcases List.mem_cons.mp made with rfl | written
    · exact (by decide : GenerationSlot.stage ≠ .committed)
    · rcases List.mem_flatMap.mp written with ⟨artifact, _, inside⟩
      exact publishArtifact_spares op inside

theorem runOps_unlink (slot : GenerationSlot) (names : List String) :
    runOps (names.map (.unlink slot)) disk =
      disk.setSlot slot ((disk.slot slot).map fun dir =>
        names.foldl (fun dir name => dir.erase name) dir) := by
  induction names generalizing disk with
  | nil =>
      have same : ((disk.slot slot).map fun dir => dir) = disk.slot slot := Option.map_id'
      exact (by rw [show (fun dir => [].foldl (fun (dir : Directory) (name : String) =>
        dir.erase name) dir) = fun dir => dir from rfl, same, setSlot_self]; rfl)
  | cons name names ih =>
      have rest := @ih (FileOp.apply disk (.unlink slot name))
      rw [List.map_cons]
      refine rest.trans ?_
      simp only [FileOp.apply, Disk.modify, setSlot_setSlot, slot_setSlot, Option.map_map]
      rfl

theorem foldl_erase_isEmpty {names : List String} {dir : Directory}
    (listed : ∀ name ∈ dir, name ∈ names) :
    (names.foldl (fun dir name => dir.erase name) dir).isEmpty = true := by
  have absent : ∀ (names : List String) (dir : Directory) (name : String),
      name ∈ names.foldl (fun dir name => dir.erase name) dir → name ∈ dir ∧ name ∉ names := by
    intro names
    induction names with
    | nil => exact fun _ _ member => ⟨member, List.not_mem_nil⟩
    | cons first names ih =>
        intro dir name member
        rcases ih _ _ member with ⟨erased, later⟩
        rw [Std.ExtTreeMap.mem_erase] at erased
        refine ⟨erased.2, ?_⟩
        rw [List.mem_cons, not_or]
        refine ⟨?_, later⟩
        rintro rfl
        exact erased.1 Std.ReflCmp.compare_self
  rw [Std.ExtTreeMap.isEmpty_iff, Std.ExtTreeMap.eq_empty_iff_forall_not_mem]
  intro name member
  rcases absent names dir name member with ⟨present, unlisted⟩
  exact unlisted (listed name present)

/-- A removed directory is gone and nothing else has changed. -/
theorem runOps_removeDirAll (lists : process.Lists) (slot : GenerationSlot) :
    runOps (removeDirAll process slot disk) disk = disk.setSlot slot none := by
  unfold removeDirAll
  cases found : disk.slot slot with
  | none =>
      have same := @setSlot_self disk slot
      rw [found] at same
      exact same.symm
  | some dir =>
      have empty : replaceable ((disk.setSlot slot (some ((process.listing dir).foldl
          (fun dir name => dir.erase name) dir))).slot slot) = true := by
        rw [slot_setSlot]
        exact foldl_erase_isEmpty fun name member => (lists dir name).mpr member
      simp only [runOps_append, runOps_unlink, found, Option.map_some]
      simp only [runOps, List.foldl_cons, List.foldl_nil, FileOp.apply, empty, if_true,
        setSlot_setSlot]

/-- The name is that of a hidden file. -/
def Hidden (name : String) : Prop :=
  name.toList.head? = some '.'

theorem hidden_tempName (name : String) : Hidden (tempName process name) := by
  simp [Hidden, tempName]

theorem not_hidden_of_mem_artifacts {artifact : String × Bytes}
    (member : artifact ∈ artifacts state) : ¬ Hidden artifact.1 := by
  revert artifact
  simp only [artifacts, List.forall_mem_cons, Hidden]
  decide

/-- A published artifact ends in the stage under its own name. -/
theorem runOps_publishArtifact {dir : Directory} {artifact : String × Bytes}
    (staged : disk.stage = some dir) (plain : ∀ name ∈ dir, ¬ Hidden name)
    (visible : ¬ Hidden artifact.1) :
    runOps (publishArtifact process (some .stage) artifact) disk =
      disk.setSlot .stage (some (dir.insert artifact.1 artifact.2)) := by
  have hidden := @hidden_tempName process artifact.1
  unfold publishArtifact
  generalize tempName process artifact.1 = temp at hidden ⊢
  have absent : dir[temp]? = none := by
    rw [Std.ExtTreeMap.getElem?_eq_none]
    exact fun member => plain temp member hidden
  have differs : temp ≠ artifact.1 := fun same => visible (same ▸ hidden)
  have renamed : renameFile temp artifact.1 ((dir.insert temp []).insert temp artifact.2) =
      dir.insert artifact.1 artifact.2 := by
    unfold renameFile
    rw [Std.ExtTreeMap.getElem?_insert_self]
    apply Std.ExtTreeMap.ext_getElem?
    intro name
    simp only [Std.ExtTreeMap.getElem?_insert, Std.ExtTreeMap.getElem?_erase,
      Std.LawfulEqOrd.compare_eq_iff_eq]
    by_cases isTemp : temp = name
    · subst isTemp
      simp [absent, Ne.symm differs]
    · simp [isTemp]
  simp only [runOps, List.foldl_cons, List.foldl_nil, FileOp.apply, Disk.modify, Disk.slot,
    Disk.setSlot, staged, Option.map_some, renamed]

/-- Published one after the other the artifacts fill the stage. -/
theorem runOps_publishArtifacts {entries : List (String × Bytes)} {dir : Directory}
    (staged : disk.stage = some dir) (plain : ∀ name ∈ dir, ¬ Hidden name)
    (visible : ∀ entry ∈ entries, ¬ Hidden entry.1) :
    runOps (entries.flatMap (publishArtifact process (some .stage))) disk =
      disk.setSlot .stage
        (some (entries.foldl (fun dir entry => dir.insert entry.1 entry.2) dir)) := by
  induction entries generalizing disk dir with
  | nil =>
      rw [List.foldl_nil, ← staged]
      exact setSlot_self.symm
  | cons entry entries ih =>
      have first := @runOps_publishArtifact process disk dir entry staged plain
        (visible entry List.mem_cons_self)
      have grown : ∀ name ∈ dir.insert entry.1 entry.2, ¬ Hidden name := by
        intro name member
        rw [Std.ExtTreeMap.mem_insert, Std.LawfulEqOrd.compare_eq_iff_eq] at member
        rcases member with rfl | earlier
        · exact visible entry List.mem_cons_self
        · exact plain name earlier
      rw [List.flatMap_cons, runOps_append, first, List.foldl_cons,
        ih rfl grown fun later member => visible later (List.mem_cons_of_mem _ member),
        setSlot_setSlot]

/-- Staging leaves the whole generation in the stage. -/
theorem runOps_stageOps (lists : process.Lists) :
    runOps (stageOps process disk state) disk = disk.setSlot .stage (some (published state)) := by
  have filled := @runOps_publishArtifacts process (disk.setSlot .stage (some ∅)) (artifacts state) ∅
    rfl (fun name member => absurd member Std.ExtTreeMap.not_mem_empty)
    (fun _ member => not_hidden_of_mem_artifacts member)
  have begun : ∀ ops, runOps (.mkdir .stage :: ops) (disk.setSlot .stage none) =
      runOps ops (disk.setSlot .stage (some ∅)) := fun _ => rfl
  rw [stageOps, runOps_append, runOps_removeDirAll lists, begun, filled, setSlot_setSlot, published]

/-- The operation leaves the committed generation alone. -/
def FileOp.KeepsCommitted (op : FileOp) : Prop :=
  ∀ disk, (op.apply disk).committed = disk.committed

theorem runOps_committed {ops : List FileOp} (keep : ∀ op ∈ ops, op.KeepsCommitted) :
    (runOps ops disk).committed = disk.committed := by
  induction ops generalizing disk with
  | nil => rfl
  | cons op ops ih =>
      have rest := @ih (op.apply disk) fun op member => keep op (List.mem_cons_of_mem _ member)
      exact rest.trans (keep op List.mem_cons_self disk)

theorem indexOps_keep : ∀ op ∈ indexOps process disk state, op.KeepsCommitted := by
  intro op member
  unfold indexOps at member
  split at member
  · cases member
  · simp only [publishArtifact, List.mem_cons, List.not_mem_nil, or_false] at member
    rcases member with rfl | rfl | rfl | rfl | rfl
    · exact fun _ => rfl
    · exact fun _ => rfl
    · exact fun _ => rfl
    · exact fun _ => rfl
    · exact fun _ => rfl

/-- What follows the publishing rename leaves the generation in place. -/
theorem settle_keep {before after : Disk} : ∀ op ∈ FileOp.sync ::
    (removeDirAll process .previous before ++ indexOps process after state),
    op.KeepsCommitted := by
  intro op member
  rcases List.mem_cons.mp member with rfl | later
  · exact fun _ => rfl
  · rcases List.mem_append.mp later with removed | indexed
    · exact fun _ => (apply_spared (removeDirAll_spares (by decide) op removed)).1
    · exact indexOps_keep op indexed

/-- A cut falls into the first operations or after them. -/
theorem take_append_cases (first later : List FileOp) (cut : Nat) :
    (first ++ later).take cut = first.take cut ∨
      ∃ further, (first ++ later).take cut = first ++ later.take (further + 1) := by
  rw [List.take_append]
  by_cases early : cut ≤ first.length
  · left
    rw [Nat.sub_eq_zero_of_le early, List.take_zero, List.append_nil]
  · right
    refine ⟨cut - first.length - 1, ?_⟩
    rw [List.take_of_length_le (by omega), Nat.sub_add_cancel (by omega)]

/-- The operations of a publication around the rename that publishes. -/
theorem persistOps_eq (process : Process) (disk : Disk) (state : ContextState) :
    ∃ settling, (∀ op ∈ settling, op.KeepsCommitted) ∧
      persistOps process disk state = stageOps process disk state ++
        (asideOps process (runOps (stageOps process disk state) disk) ++
          .move .stage .committed :: settling) :=
  ⟨_, settle_keep, rfl⟩

/-- What an interrupted publication may leave: the committed generation, the new
one, or none at all between the two renames. -/
inductive Interrupted (disk : Disk) (state : ContextState) (done : List FileOp) : Prop
  | kept (committed : (runOps done disk).committed = disk.committed)
      (files : (runOps done disk).files = disk.files)
  | taken (renamed : FileOp.move .stage .committed ∈ done)
      (committed : (runOps done disk).committed = some (published state))
  | lost (last : done.getLast? = some (.move .committed .previous))

theorem runOps_take_spared {ops : List FileOp} (spares : ∀ op ∈ ops, op.Spares) (cut : Nat) :
    (runOps (ops.take cut) disk).committed = disk.committed ∧
      (runOps (ops.take cut) disk).files = disk.files :=
  runOps_spared fun op member => spares op (List.mem_of_mem_take member)

/-- Once the stage has been renamed the new generation is committed. -/
theorem committed_of_publish {settling : List FileOp} (keep : ∀ op ∈ settling, op.KeepsCommitted)
    (staged : disk.stage = some (published state)) (free : disk.committed = none) (count : Nat) :
    (runOps (.move .stage .committed :: settling.take count) disk).committed =
      some (published state) := by
  have moved : (FileOp.apply disk (.move .stage .committed)).committed =
      some (published state) := by
    simp [FileOp.apply, Disk.slot, Disk.setSlot, staged, free, replaceable]
  have rest := @runOps_committed (FileOp.apply disk (.move .stage .committed))
    (settling.take count) fun op member => keep op (List.mem_of_mem_take member)
  exact rest.trans moved

/-- Setting the committed generation aside frees its slot. -/
theorem runOps_setAside (lists : process.Lists) (present : disk.committed.isSome = true) :
    runOps (removeDirAll process .previous disk ++ [.move .committed .previous]) disk =
      { disk with committed := none, previous := disk.committed } := by
  rw [runOps_append, runOps_removeDirAll lists]
  simp [runOps, FileOp.apply, Disk.slot, Disk.setSlot, present, replaceable]

theorem runOps_asideOps (lists : process.Lists) :
    (runOps (asideOps process disk) disk).committed = none ∧
      (runOps (asideOps process disk) disk).stage = disk.stage := by
  unfold asideOps
  by_cases present : disk.committed.isSome = true
  · rw [if_pos present, runOps_setAside lists present]
    exact ⟨rfl, rfl⟩
  · rw [if_neg present]
    exact ⟨Option.not_isSome_iff_eq_none.mp present, rfl⟩

/-- A cut in the middle of a publication is one of the three. -/
theorem interrupted (lists : process.Lists) (cut : Nat) :
    Interrupted disk state ((persistOps process disk state).take cut) := by
  rcases persistOps_eq process disk state with ⟨settling, keep, shape⟩
  rw [shape]
  rcases take_append_cases (stageOps process disk state) _ cut with staging | ⟨further, staged⟩
  · rw [staging]
    rcases @runOps_take_spared disk _ (@stageOps_spares process disk state) cut with
      ⟨committed, files⟩
    exact .kept committed files
  · rw [staged]
    have stageDone := @runOps_stageOps process disk state lists
    unfold asideOps
    rw [stageDone]
    cases committed : disk.committed with
    | none =>
        have free : (disk.setSlot .stage (some (published state))).committed = none := committed
        rw [free]
        refine .taken (by simp) ?_
        rw [runOps_append, stageDone]
        exact committed_of_publish keep rfl free further
    | some old =>
        have present : (disk.setSlot .stage (some (published state))).committed.isSome = true := by
          change disk.committed.isSome = true
          rw [committed]
          rfl
        rw [if_pos present, List.append_assoc]
        rcases take_append_cases (removeDirAll process .previous
          (disk.setSlot .stage (some (published state)))) _ (further + 1) with
          removing | ⟨later, removed⟩
        · rw [removing]
          have spared : ∀ op ∈ stageOps process disk state ++ (removeDirAll process .previous
              (disk.setSlot .stage (some (published state)))).take (further + 1), op.Spares := by
            intro op member
            rcases List.mem_append.mp member with first | second
            · exact stageOps_spares op first
            · exact removeDirAll_spares (by decide) op (List.mem_of_mem_take second)
          rcases @runOps_spared disk _ spared with ⟨same, files⟩
          exact .kept same files
        · rw [removed, List.singleton_append, List.take_succ_cons]
          cases later with
          | zero => exact .lost (by simp)
          | succ count =>
              refine .taken (by simp) ?_
              rw [List.take_succ_cons, List.append_cons, runOps_append, stageDone, runOps_append,
                runOps_setAside lists present]
              exact committed_of_publish keep rfl rfl count

theorem persistContext_disk (process : Process) (disk : Disk) (state : ContextState) :
    (persistContext process disk state).2 = runOps (persistOps process disk state) disk := by
  unfold persistContext
  split <;> rfl

/-- A completed publication commits the new generation. -/
theorem committed_persistContext (lists : process.Lists) :
    (persistContext process disk state).2.committed = some (published state) := by
  rcases persistOps_eq process disk state with ⟨settling, keep, shape⟩
  rcases @runOps_asideOps process (disk.setSlot .stage (some (published state))) lists with
    ⟨free, staged⟩
  rw [persistContext_disk, shape, runOps_append, runOps_stageOps lists, runOps_append,
    ← @List.take_length _ settling]
  exact committed_of_publish keep staged free _

theorem indexOps_previous : (runOps (indexOps process disk state) disk).previous = disk.previous := by
  unfold indexOps
  split <;> rfl

/-- A completed publication leaves no earlier generation. -/
theorem previous_persistContext (lists : process.Lists) :
    (persistContext process disk state).2.previous = none := by
  rw [persistContext_disk]
  simp only [persistOps, runOps_append, runOps_removeDirAll lists]
  exact indexOps_previous

end Phases

end Llxprt.Session
