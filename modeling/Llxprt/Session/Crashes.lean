import Llxprt.Rust.Runs
import Llxprt.Session.Publication

/-!
# Publications that are cut short

A session over many processes: each recovers the live state, moves it, and
publishes it as often as it likes, and any publication may stop after any of its
file operations.  The committed slot behaves as a register of generations, as
long as no publication stops between its two renames.
-/

namespace Llxprt.Session

open Llxprt.Kernel Llxprt.Kernel.Recorded Llxprt.Rust Llxprt.Store

section Recovery

variable {Request : Type} {libraries : Libraries Request} {disk : Disk} {state : ContextState}

theorem ensureVaultKey_congr {other : Disk} (same : disk.key = other.key) (entropy : Entropy) :
    (ensureVaultKey disk entropy).1 = (ensureVaultKey other entropy).1 := by
  unfold ensureVaultKey
  rw [same]
  cases other.key with
  | none => rfl
  | some bytes =>
      simp only
      split
      · rfl
      · split <;> rfl

theorem ensureVaultKey_of_key {key : Bytes} (entropy : Entropy) (stored : disk.key = some key)
    (length : key.length = vaultKeyLen) : ensureVaultKey disk entropy = (.ok key, disk) := by
  simp [ensureVaultKey, stored, length]

/-- The key of an opened session is stored beside it. -/
theorem key_of_ensureVaultKey {entropy : Entropy} {key : Bytes} {opened : Disk}
    (ensured : ensureVaultKey disk entropy = (.ok key, opened)) :
    opened = { disk with key := some key } ∧ key.length = vaultKeyLen ∧
      ∀ stored, disk.key = some stored → stored = key := by
  unfold ensureVaultKey at ensured
  split at ensured
  · rename_i missing
    cases ensured
    refine ⟨rfl, entropy.drawn, ?_⟩
    intro stored found
    cases missing.symm.trans found
  · rename_i bytes stored
    split at ensured
    · cases ensured
    · split at ensured
      · cases ensured
      · rename_i same
        cases ensured
        refine ⟨by rw [← stored], not_not.mp same, ?_⟩
        intro other found
        exact Option.some.inj (found.symm.trans stored)

theorem ensureVaultKey_error {entropy : Entropy} {error : String} {opened : Disk}
    (refused : ensureVaultKey disk entropy = (.error error, opened)) : opened = disk := by
  unfold ensureVaultKey at refused
  split at refused
  · cases refused
  · split at refused
    · cases refused
      rfl
    · split at refused
      · cases refused
        rfl
      · cases refused

/-- Without a committed generation a process reads the files beside the slots. -/
theorem recoverContextState_unpublished (committed : disk.committed = none) (entropy : Entropy) :
    (recoverContextState libraries disk entropy).1 =
      (ensureVaultKey disk entropy).1.bind fun key =>
        recoverFrom libraries disk.files disk.marker key 0 entropy := by
  unfold recoverContextState
  rcases ensured : ensureVaultKey disk entropy with ⟨outcome, opened⟩
  cases outcome with
  | error error => rfl
  | ok key =>
      rcases key_of_ensureVaultKey ensured with ⟨rfl, _, _⟩
      simp [openCommittedGeneration, committed, Except.bind]

theorem validateGeneration_published (reads : libraries.Reads) (typed : state.Typed)
    (fits : Fits (published state)) :
    validateGeneration libraries (published state) = .ok (saturatingAdd state.generation 1) := by
  have manifest : readArtifact (published state) "manifest.json" manifestReloadMax =
      .ok (serialize (contextManifest state (saturatingAdd state.generation 1))) :=
    readArtifact_published fits (by simp [artifacts]) (by simp [reloadBounds])
  simp only [validateGeneration, manifest, reads.manifest _ typed.manifest]
  rfl

/-- A committed generation within the read bounds is what a process recovers, as
long as its prefixes can be read. -/
theorem recoverContextState_published (reads : libraries.Reads) (typed : state.Typed)
    (sound : state.Sound libraries) (fits : Fits (published state))
    (committed : disk.committed = some (published state))
    (stored : disk.key = some state.store.vault.key)
    (length : state.store.vault.key.length = vaultKeyLen) (entropy : Entropy) :
    ∃ recovered, recovered.durable recovered.generation =
        state.durable (saturatingAdd state.generation 1) ∧
      ∀ loaded, (recoverContextState libraries disk entropy).1 = .ok loaded ↔
        state.Readable libraries ∧ loaded = recovered := by
  rcases @recoverFrom_published _ libraries state disk.marker (saturatingAdd state.generation 1)
    entropy reads typed sound fits with ⟨recovered, same, accepted⟩
  refine ⟨recovered, same, ?_⟩
  intro loaded
  simp only [recoverContextState, ensureVaultKey_of_key entropy stored length,
    openCommittedGeneration, committed, validateGeneration_published reads typed fits]
  exact accepted loaded

end Recovery

/-- A session directory, the process on it if there is one, and the attempts to
publish so far. -/
structure Timeline where
  disk : Disk
  live : Option ContextState
  attempts : List (Attempt Generation)

/-- What can happen to a session. -/
inductive Activity (Request : Type) where
  | recover (entropy : Entropy)
  | change (mutation : Mutation Request)
  | publish (process : Process)
  | crash (process : Process) (cut : Nat)

/-- The generation that a publication of the state writes. -/
def ContextState.successor (state : ContextState) : Generation :=
  state.durable (saturatingAdd state.generation 1)

section Activities

variable {Request : Type} (libraries : Libraries Request)

/-- One activity of a session.  A crash ends the process after the first operations
of a publication. -/
def Activity.apply (timeline : Timeline) : Activity Request → Timeline
  | recover entropy =>
      let (outcome, disk) := recoverContextState libraries timeline.disk entropy
      { timeline with disk := disk, live := outcome.toOption }
  | change mutation =>
      { timeline with live := timeline.live.map (mutation.apply libraries) }
  | publish process =>
      match timeline.live with
      | none => timeline
      | some state =>
          { timeline with
            disk := (persistContext process timeline.disk state).2
            attempts := timeline.attempts ++ [.completed state.successor] }
  | crash process cut =>
      match timeline.live with
      | none => timeline
      | some state =>
          { disk := runOps ((persistOps process timeline.disk state).take cut) timeline.disk
            live := none
            attempts := timeline.attempts ++ [.interrupted state.successor] }

/-- A change finds a vault slot number, a publication that reaches its rename
leaves what recovery can restore, and no crash falls between the two renames. -/
def Activity.Safe (timeline : Timeline) : Activity Request → Prop
  | recover _ => True
  | change mutation => ∀ state, timeline.live = some state → mutation.Roomy state
  | publish process => process.Lists ∧
      ∀ state, timeline.live = some state → state.Restorable libraries
  | crash process cut => process.Lists ∧
      ∀ state, timeline.live = some state →
        ((persistOps process timeline.disk state).take cut).getLast? ≠
          some (.move .committed .previous) ∧
        (FileOp.move .stage .committed ∈ (persistOps process timeline.disk state).take cut →
          state.Restorable libraries)

/-- The numbers that the process on the disk works with are machine integers. -/
def Timeline.Typed (timeline : Timeline) : Prop :=
  ∀ state, timeline.live = some state → state.Typed

/-- A directory before the first process of the run. -/
def Timeline.start (disk : Disk) : Timeline :=
  ⟨disk, none, []⟩

/-- What recovering the disk must give: the generation, or what the starting
directory gives under the key of the session. -/
def Recovers (start disk : Disk) (entropy : Entropy) : Option Generation → Prop
  | some generation => ∃ state, (recoverContextState libraries disk entropy).1 = .ok state ∧
      state.durable state.generation = generation
  | none => (recoverContextState libraries disk entropy).1 =
      (recoverContextState libraries { start with key := disk.key } entropy).1

end Activities

section Registers

variable {Request : Type} (libraries : Libraries Request)

/-- The disk holds the value of the register. -/
def Holds (start disk : Disk) : Option Generation → Prop
  | some generation => ∃ state, state.Typed ∧ state.Sound libraries ∧
      state.Restorable libraries ∧ disk.committed = some (published state) ∧
      disk.key = some state.store.vault.key ∧
      state.store.vault.key.length = vaultKeyLen ∧ state.successor = generation
  | none => disk.committed = none ∧ disk.files = start.files ∧ disk.marker = start.marker

/-- The process on the disk works on a sound state under the stored key. -/
structure Working (disk : Disk) (state : ContextState) : Prop where
  sound : state.Sound libraries
  key : disk.key = some state.store.vault.key
  length : state.store.vault.key.length = vaultKeyLen

/-- Recovering changes nothing but the stage and a missing key. -/
structure Undisturbed (before after : Disk) : Prop where
  committed : after.committed = before.committed
  files : after.files = before.files
  marker : after.marker = before.marker
  key : ∀ key, before.key = some key → after.key = some key

/-- What every activity of a session keeps. -/
structure Consistent (start : Disk) (timeline : Timeline) : Prop where
  working : ∀ state, timeline.live = some state → Working libraries timeline.disk state
  register : ∃ current, Register.Allows timeline.attempts current ∧
    Holds libraries start timeline.disk current

variable {libraries} {start disk : Disk} {timeline : Timeline} {state : ContextState}

theorem openCommittedGeneration_disk (libraries : Libraries Request) (disk : Disk) :
    (openCommittedGeneration libraries disk).2 = disk ∨
      (openCommittedGeneration libraries disk).2 = { disk with stage := none } := by
  unfold openCommittedGeneration
  split
  · exact .inl rfl
  · split
    · exact .inr rfl
    · simp only
      split
      · exact .inl rfl
      · split <;> exact .inl rfl

/-- A recovery leaves the disk as it was under a stored key, and whatever it
accepts is a sound state under that key. -/
theorem recoverContextState_spec (libraries : Libraries Request) (disk : Disk) (entropy : Entropy) :
    Undisturbed disk (recoverContextState libraries disk entropy).2 ∧
      ∀ state, (recoverContextState libraries disk entropy).1 = .ok state →
        Working libraries (recoverContextState libraries disk entropy).2 state := by
  unfold recoverContextState
  rcases ensured : ensureVaultKey disk entropy with ⟨error | key, opened⟩
  · rw [ensureVaultKey_error ensured]
    constructor
    · exact ⟨rfl, rfl, rfl, fun _ stored => stored⟩
    · intro state accepted
      cases accepted
  · rcases key_of_ensureVaultKey ensured with ⟨rfl, length, sameKey⟩
    simp only
    have disks := openCommittedGeneration_disk libraries { disk with key := some key }
    generalize openCommittedGeneration libraries { disk with key := some key } = opened at disks ⊢
    rcases opened with ⟨selected, chosen⟩
    have kept : Undisturbed disk chosen ∧ chosen.key = some key := by
      rcases disks with rfl | rfl
      · exact ⟨⟨rfl, rfl, rfl, fun stored found => by rw [sameKey stored found]⟩, rfl⟩
      · exact ⟨⟨rfl, rfl, rfl, fun stored found => by rw [sameKey stored found]⟩, rfl⟩
    have working : ∀ dir number state,
        recoverFrom libraries dir chosen.marker key number entropy = .ok state →
        Working libraries chosen state := by
      intro dir number state accepted
      rcases sound_of_recoverFrom accepted with ⟨sound, underKey⟩
      exact ⟨sound, by rw [underKey]; exact kept.2, by rw [underKey]; exact length⟩
    cases selected with
    | error error =>
        refine ⟨kept.1, ?_⟩
        intro state accepted
        cases accepted
    | ok selected =>
        cases selected with
        | none => exact ⟨kept.1, fun state accepted => working _ _ state accepted⟩
        | some found => exact ⟨kept.1, fun state accepted => working _ _ state accepted⟩

theorem Holds.undisturbed {current : Option Generation} {later : Disk}
    (holds : Holds libraries start disk current) (same : Undisturbed disk later) :
    Holds libraries start later current := by
  cases current with
  | none =>
      rcases holds with ⟨committed, files, marker⟩
      exact ⟨same.committed.trans committed, same.files.trans files, same.marker.trans marker⟩
  | some generation =>
      rcases holds with ⟨state, typed, sound, restorable, committed, stored, rest⟩
      exact ⟨state, typed, sound, restorable, same.committed.trans committed, same.key _ stored,
        rest⟩

theorem undisturbed_runOps {ops : List FileOp}
    (committed : (runOps ops disk).committed = disk.committed)
    (files : (runOps ops disk).files = disk.files) : Undisturbed disk (runOps ops disk) := by
  rcases @runOps_beside disk ops with ⟨marker, key⟩
  exact ⟨committed, files, marker, fun _ stored => key.trans stored⟩

/-- A disk with the published generation of the working process holds it. -/
theorem Working.holds (working : Working libraries disk state) (typed : state.Typed)
    (restorable : state.Restorable libraries)
    {ops : List FileOp} (committed : (runOps ops disk).committed = some (published state)) :
    Holds libraries start (runOps ops disk) (some state.successor) :=
  ⟨state, typed, working.sound, restorable, committed, (runOps_beside ops).2.trans working.key,
    working.length,
    rfl⟩

/-- Every safe activity keeps the session consistent. -/
theorem Consistent.apply (lawful : libraries.cipher.Lawful)
    (consistent : Consistent libraries start timeline) (typed : timeline.Typed)
    (activity : Activity Request) (safe : activity.Safe libraries timeline) :
    Consistent libraries start (activity.apply libraries timeline) := by
  rcases consistent.register with ⟨current, allows, holds⟩
  cases activity with
  | recover entropy =>
      rcases recoverContextState_spec libraries timeline.disk entropy with ⟨same, accepted⟩
      constructor
      · intro state live
        apply accepted
        cases outcome : (recoverContextState libraries timeline.disk entropy).1 with
        | error error =>
            simp [Activity.apply, outcome, Except.toOption] at live
        | ok recovered =>
            simp only [Activity.apply, outcome, Except.toOption, Option.some.injEq] at live
            rw [live]
      · exact ⟨current, allows, holds.undisturbed same⟩
  | change mutation =>
      constructor
      · intro state live
        rcases Option.map_eq_some_iff.mp live with ⟨before, wasLive, rfl⟩
        have working := consistent.working before wasLive
        constructor
        · exact mutation.apply_sound lawful working.sound (safe before wasLive)
        · rw [mutation.apply_key]
          exact working.key
        · rw [mutation.apply_key]
          exact working.length
      · exact ⟨current, allows, holds⟩
  | publish process =>
      simp only [Activity.apply]
      cases live : timeline.live with
      | none => exact ⟨consistent.working, current, allows, holds⟩
      | some state =>
          have working := consistent.working state live
          simp only [persistContext_disk]
          constructor
          · intro other isLive
            cases isLive
            exact ⟨working.sound, (runOps_beside _).2.trans working.key, working.length⟩
          · refine ⟨_, allows.completed, working.holds (typed state live) (safe.2 state live) ?_⟩
            rw [← persistContext_disk]
            exact committed_persistContext safe.1
  | crash process cut =>
      simp only [Activity.apply]
      cases live : timeline.live with
      | none => exact ⟨consistent.working, current, allows, holds⟩
      | some state =>
          rcases safe.2 state live with ⟨outside, restorable⟩
          constructor
          · intro other isLive
            cases isLive
          · cases @interrupted process timeline.disk state safe.1 cut with
            | kept committed files =>
                exact ⟨current, allows.kept, holds.undisturbed (undisturbed_runOps committed files)⟩
            | taken renamed committed =>
                exact ⟨_, allows.taken, (consistent.working state live).holds (typed state live)
                  (restorable renamed) committed⟩
            | lost last => exact absurd last outside

theorem recovers_of_holds {current : Option Generation} (reads : libraries.Reads)
    (unpublished : start.committed = none) (holds : Holds libraries start disk current)
    (entropy : Entropy) : Recovers libraries start disk entropy current := by
  cases current with
  | some generation =>
      rcases holds with ⟨state, typed, sound, restorable, committed, stored, length, rfl⟩
      rcases recoverContextState_published reads typed sound restorable.fits committed stored length
        entropy with ⟨recovered, same, accepted⟩
      exact ⟨recovered, (accepted recovered).mpr ⟨restorable.readable, rfl⟩, same⟩
  | none =>
      rcases holds with ⟨committed, files, marker⟩
      change (recoverContextState libraries disk entropy).1 = _
      have sameKey := @ensureVaultKey_congr disk { start with key := disk.key } rfl entropy
      have begun := @recoverContextState_unpublished _ libraries { start with key := disk.key }
        unpublished entropy
      rw [recoverContextState_unpublished committed, begun, sameKey, files, marker]

end Registers

section PlainLibraries

/-- The reader that finds the value behind what a writer wrote. -/
noncomputable def readBack {α : Type} (write : α → Bytes) (bytes : Bytes) : Except String α :=
  open Classical in
  if written : ∃ value, write value = bytes then .ok written.choose else .error "expected value"

theorem readBack_write {α : Type} {write : α → Bytes} (injective : ∀ {left right : α},
    write left = write right → left = right) (value : α) :
    readBack write (write value) = .ok value := by
  have written : ∃ other, write other = write value := ⟨value, rfl⟩
  rw [readBack, dif_pos written, injective written.choose_spec]

/-- Readers that invert the serializers, over a cipher that only tags. -/
noncomputable def plainLibraries : Libraries String where
  cipher := ⟨fun _ _ _ message => some (message ++ List.replicate 16 0),
    fun _ _ _ ciphertext => some (ciphertext.take (ciphertext.length - 16))⟩
  encodeRequests requests := .ok (serialize requests)
  decodeRequests := readBack serialize
  parseValue := readBack documentBytes
  decodeVault := readBack serialize
  decodeEpochs := readBack serialize
  decodePrefixes := readBack serialize
  decodeManifest := readBack serialize

theorem plainLibraries_lawful : plainLibraries.cipher.Lawful := by
  intro key nonce associated message ciphertext encrypted
  rw [← Option.some.inj encrypted]
  simp [plainLibraries]

theorem plainLibraries_reads : plainLibraries.Reads := by
  constructor
  · intro fields distinct _
    refine ⟨.object fields, readBack_write documentBytes_injective _, ?_⟩
    intro field member
    rcases List.append_of_mem member with ⟨before, after, rfl⟩
    apply List.lookup_eq_some_iff.mpr
    refine ⟨before, after, rfl, ?_⟩
    intro other earlier
    rw [List.map_append, List.map_cons, List.nodup_append] at distinct
    simpa using Ne.symm (distinct.2.2 other.1 (List.mem_map_of_mem earlier) field.1
      List.mem_cons_self)
  · exact fun snapshot _ => readBack_write serialize_injective snapshot
  · exact fun cache _ => readBack_write serialize_injective cache
  · exact fun prefixes _ => readBack_write serialize_injective prefixes
  · exact fun manifest _ => readBack_write serialize_injective manifest

end PlainLibraries

section Runs

variable {Request : Type} {libraries : Libraries Request} {start : Disk}

/-- While no publication stops between its renames, every state of a session
recovers to a generation that its attempts allow: the last completed one, or
one whose publication was cut short after it. -/
theorem recovers_last_generation (lawful : libraries.cipher.Lawful) (reads : libraries.Reads)
    (unpublished : start.committed = none) {activities : List (Activity Request)}
    (typed : ∀ before activity, before ++ [activity] <+: activities →
      (run (Activity.apply libraries) (.start start) before).Typed)
    (safe : ∀ before activity, before ++ [activity] <+: activities →
      activity.Safe libraries (run (Activity.apply libraries) (.start start) before)) :
    ∀ reached, reached <+: activities →
      ∃ current, Register.Allows (run (Activity.apply libraries) (.start start) reached).attempts
          current ∧
        (∀ generation, .completed generation ∈
            (run (Activity.apply libraries) (.start start) reached).attempts →
          current.isSome = true) ∧
        ∀ entropy, Recovers libraries start
          (run (Activity.apply libraries) (.start start) reached).disk entropy current := by
  intro reached isPrefix
  have begun : Consistent libraries start (.start start) := by
    constructor
    · intro state live
      cases live
    · exact ⟨none, .initial, unpublished, rfl, rfl⟩
  have consistent := run_invariant (Consistent libraries start) begun
    (fun before activity member holds =>
      holds.apply lawful (typed before activity member) activity (safe before activity member))
    reached isPrefix
  rcases consistent.register with ⟨current, allows, holds⟩
  exact ⟨current, allows, fun _ written => allows.isSome written,
    fun entropy => recovers_of_holds reads unpublished holds entropy⟩

/-- A session directory without any file. -/
def emptyDisk : Disk :=
  ⟨∅, none, none, none, none, none⟩

def sampleEntropy : Entropy :=
  ⟨List.replicate 32 0, rfl, 0, 0⟩

def sampleProcess : Process :=
  ⟨1, fun dir => dir.keys⟩

theorem sampleProcess_lists : sampleProcess.Lists :=
  fun _ _ => Std.ExtTreeMap.mem_keys

/-- One generation is published and the publication of the next is cut short. -/
def cutShort (cut : Nat) : List (Activity String) :=
  [.recover sampleEntropy, .change (.append [7]), .publish sampleProcess, .crash sampleProcess cut]

/-- The state that the sample process works on. -/
def sampleState : ContextState :=
  let fresh := newContextState (List.replicate 32 0) 0
  { fresh with store := (fresh.store.sanitizedAppend [7]).2 }

theorem sampleState_restorable : sampleState.Restorable plainLibraries := by
  constructor
  · apply fits_published
    decide +kernel
  · intro branch recorded found
    simp [sampleState, newContextState] at found

/-- Up to the first rename a crash is harmless. -/
theorem recovers_last_generation_staging : ∃ current,
    Register.Allows
      (run (Activity.apply plainLibraries) (.start emptyDisk) (cutShort 41)).attempts current ∧
    (∀ generation, .completed generation ∈
        (run (Activity.apply plainLibraries) (.start emptyDisk) (cutShort 41)).attempts →
      current.isSome = true) ∧
    ∀ entropy, Recovers plainLibraries emptyDisk
      (run (Activity.apply plainLibraries) (.start emptyDisk) (cutShort 41)).disk entropy
      current := by
  refine recovers_last_generation plainLibraries_lawful plainLibraries_reads rfl ?_ ?_ _
    List.prefix_rfl
  · let kept := fun (timeline : Timeline) (_ : Activity String) => timeline.Typed
    refine @forall_steps_cons _ _ _ _ _ kept _ ?_ (@forall_steps_cons _ _ _ _ _ kept _ ?_
      (@forall_steps_cons _ _ _ _ _ kept _ ?_ (@forall_steps_cons _ _ _ _ _ kept _ ?_
        (@forall_steps_nil _ _ _ _ kept))))
    · rintro state live
      cases live
    · rintro state live
      cases live
      constructor <;> decide +kernel
    · rintro state live
      cases live
      constructor <;> decide +kernel
    · rintro state live
      cases live
      constructor <;> decide +kernel
  · refine forall_steps_cons trivial (forall_steps_cons ?_ (forall_steps_cons ?_
      (forall_steps_cons ?_ forall_steps_nil)))
    · exact fun _ _ => trivial
    · refine ⟨sampleProcess_lists, ?_⟩
      rintro state live
      cases live
      exact sampleState_restorable
    · refine ⟨sampleProcess_lists, ?_⟩
      rintro state live
      cases live
      exact ⟨by decide +kernel, fun _ => sampleState_restorable⟩

/-- A crash between the two renames loses the published generation, and the next
publication removes what was left of it. -/
theorem published_generation_lost :
    (¬ ∃ current, Register.Allows
        (run (Activity.apply plainLibraries) (.start emptyDisk) (cutShort 42)).attempts current ∧
      ∀ entropy, Recovers plainLibraries emptyDisk
        (run (Activity.apply plainLibraries) (.start emptyDisk) (cutShort 42)).disk entropy
        current) ∧
    (run (Activity.apply plainLibraries) (.start emptyDisk)
      (cutShort 42 ++ [.recover sampleEntropy, .publish sampleProcess])).disk.previous.isNone =
        true := by
  constructor
  · rintro ⟨current, allows, recovers⟩
    have attempts : (run (Activity.apply plainLibraries) (.start emptyDisk) (cutShort 42)).attempts =
        [.completed sampleState.successor, .interrupted sampleState.successor] := rfl
    have fresh : (recoverContextState plainLibraries
        (run (Activity.apply plainLibraries) (.start emptyDisk) (cutShort 42)).disk
        sampleEntropy).1 = .ok (newContextState (List.replicate 32 0) 0) := rfl
    rw [attempts] at allows
    have published := allows.isSome List.mem_cons_self
    rcases Option.isSome_iff_exists.mp published with ⟨generation, rfl⟩
    have same : generation = sampleState.successor := by
      rcases allows.attempted with completed | interrupted
      · simpa using completed
      · simpa using interrupted
    rcases recovers sampleEntropy with ⟨state, recovered, durable⟩
    cases fresh.symm.trans recovered
    rw [same] at durable
    have spine := congrArg (fun generation => generation.spine.records.length) durable
    revert spine
    decide +kernel
  · decide +kernel

end Runs


end Llxprt.Session
