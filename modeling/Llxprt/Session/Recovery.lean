import Llxprt.Kernel.Weights
import Llxprt.Session.Crashes

/-!
# What is published can be recovered

The writer puts no bound on an artifact and the reader has one for each, and
writes request lists that the reader of JSON may refuse.  A published state comes
back exactly when all its artifacts are within the bounds and its prefixes can be
read.
-/

namespace Llxprt.Session

open Llxprt.Kernel Llxprt.Kernel.Recorded Llxprt.Rust Llxprt.Store

section Recovery

variable {Request : Type} {libraries : Libraries Request} {disk : Disk} {state start : ContextState}
  {process : Process}

/-- A published generation is accepted only within the read bounds. -/
theorem fits_of_recoverContextState {entropy : Entropy} {loaded : ContextState}
    (committed : disk.committed = some (published state)) (alone : disk.previous = none)
    (accepted : (recoverContextState libraries disk entropy).1 = .ok loaded) :
    Fits (published state) := by
  unfold recoverContextState at accepted
  rcases ensured : ensureVaultKey disk entropy with ⟨error | key, opened⟩
  · rw [ensured] at accepted
    cases accepted
  · rw [ensured] at accepted
    rcases key_of_ensureVaultKey ensured with ⟨rfl, _, _⟩
    simp only [openCommittedGeneration, committed, alone] at accepted
    cases validated : validateGeneration libraries (published state) with
    | error reason =>
        rw [validated] at accepted
        cases accepted
    | ok number =>
        simp only [validated] at accepted
        exact fits_of_recoverFrom accepted

theorem sound_of_run (lawful : libraries.cipher.Lawful) (sound : start.Sound libraries)
    {mutations : List (Mutation Request)}
    (roomy : ∀ before mutation, before ++ [mutation] <+: mutations →
      mutation.Roomy (run (Mutation.apply libraries) start before)) :
    (run (Mutation.apply libraries) start mutations).Sound libraries :=
  run_invariant (ContextState.Sound libraries) sound
    (fun before mutation member holds =>
      mutation.apply_sound lawful holds (roomy before mutation member))
    mutations List.prefix_rfl

theorem key_of_run (mutations : List (Mutation Request)) :
    (run (Mutation.apply libraries) start mutations).store.vault.key = start.store.vault.key :=
  run_invariant (fun state : ContextState => state.store.vault.key = start.store.vault.key) rfl
    (fun _ mutation _ holds => (Mutation.apply_key mutation).trans holds)
    mutations List.prefix_rfl

/-- Whatever a session makes of the state it recovered, its publication can be
recovered exactly when every artifact is within its read bound and every prefix
can be read. -/
theorem recovers_published_iff (lawful : libraries.cipher.Lawful) (reads : libraries.Reads)
    {origin : Disk} {opening : Entropy}
    (opened : (recoverContextState libraries origin opening).1 = .ok start)
    (sameKey : disk.key = (recoverContextState libraries origin opening).2.key)
    {mutations : List (Mutation Request)}
    (roomy : ∀ before mutation, before ++ [mutation] <+: mutations →
      mutation.Roomy (run (Mutation.apply libraries) start before))
    (typed : (run (Mutation.apply libraries) start mutations).Typed) (lists : process.Lists) :
    (persistContext process disk (run (Mutation.apply libraries) start mutations)).1 = .ok () →
    ((∀ entropy, ∃ recovered,
        (recoverContextState libraries
          (persistContext process disk (run (Mutation.apply libraries) start mutations)).2
          entropy).1 = .ok recovered ∧
        recovered.durable recovered.generation =
          (run (Mutation.apply libraries) start mutations).successor ∧
        ∀ handle, recovered.store.vaultGet libraries.cipher handle =
          (run (Mutation.apply libraries) start mutations).store.vaultGet libraries.cipher handle) ↔
      (run (Mutation.apply libraries) start mutations).Restorable libraries) := by
  intro _
  have working := (recoverContextState_spec libraries origin opening).2 start opened
  have sound := sound_of_run lawful working.sound roomy
  have key := @key_of_run _ libraries start mutations
  generalize run (Mutation.apply libraries) start mutations = state at sound key typed ⊢
  have committed := @committed_persistContext process disk state lists
  have stored : (persistContext process disk state).2.key = some state.store.vault.key := by
    rw [persistContext_disk, (runOps_beside _).2, sameKey, working.key, key]
  have length : state.store.vault.key.length = vaultKeyLen := by
    rw [key]
    exact working.length
  constructor
  · intro recovers
    rcases recovers opening with ⟨recovered, accepted, _⟩
    have fits := fits_of_recoverContextState committed (previous_persistContext lists) accepted
    rcases recoverContextState_published reads typed sound fits committed stored length opening with
      ⟨_, _, exact⟩
    exact ⟨fits, ((exact recovered).mp accepted).1⟩
  · rintro ⟨fits, readable⟩ entropy
    rcases recoverContextState_published reads typed sound fits committed stored length entropy with
      ⟨recovered, durable, exact⟩
    have accepted := (exact recovered).mpr ⟨readable, rfl⟩
    have reopened := recoverContextState_spec libraries (persistContext process disk state).2 entropy
    have underKey := (reopened.2 recovered accepted).key
    rw [reopened.1.key _ stored] at underKey
    have slots := congrArg Generation.slots durable
    exact ⟨recovered, accepted, durable,
      vaultGet_congr (Option.some.inj underKey).symm slots⟩

end Recovery

section Samples

/-- A session that appends a result and records a prefix. -/
def shortSession : List (Mutation String) :=
  [.append [7], .record "main" ["hello"] none]

/-- Its live state. -/
noncomputable def shortState : ContextState :=
  run (Mutation.apply plainLibraries) (newContextState (List.replicate 32 0) 0) shortSession

theorem shortState_restorable : shortState.Restorable plainLibraries := by
  constructor
  · apply fits_published
    simp only [artifacts, List.forall_mem_cons, length_serialize, length_documentBytes]
    decide +kernel
  · intro branch recorded found bytes readable
    have alone : shortState.requestPrefixes.toList.all (fun entry =>
        entry.2.requests = 1 ∧ shortState.store.vaultGet plainLibraries.cipher entry.2.handle =
          .ok (serialize ["hello"])) = true := by
      decide +kernel
    have both := List.all_eq_true.mp alone (branch, recorded)
      (Std.ExtTreeMap.mem_toList_iff_getElem?_eq_some.mpr found)
    rcases of_decide_eq_true both with ⟨one, payload⟩
    cases readable.symm.trans payload
    exact ⟨["hello"], readBack_write serialize_injective _, one.symm⟩

/-- The process that comes after it recovers what it published. -/
theorem recovers_published_sample : ∃ recovered,
    (recoverContextState plainLibraries
      (persistContext sampleProcess { emptyDisk with key := some (List.replicate 32 0) }
        shortState).2 sampleEntropy).1 = .ok recovered ∧
    recovered.durable recovered.generation = shortState.successor ∧
    ∀ handle, recovered.store.vaultGet plainLibraries.cipher handle =
      shortState.store.vaultGet plainLibraries.cipher handle := by
  have opened : (recoverContextState plainLibraries emptyDisk sampleEntropy).1 =
      .ok (newContextState (List.replicate 32 0) 0) := rfl
  have roomy : ∀ before mutation, before ++ [mutation] <+: shortSession →
      mutation.Roomy (run (Mutation.apply plainLibraries) (newContextState (List.replicate 32 0) 0)
        before) := by
    have free : (newContextState (List.replicate 32 0) 0).store.vault.next < u64Max := by
      decide
    exact forall_steps_cons trivial (forall_steps_cons free forall_steps_nil)
  have typed : shortState.Typed := by
    constructor <;> decide +kernel
  exact (recovers_published_iff plainLibraries_lawful plainLibraries_reads opened rfl roomy typed
    sampleProcess_lists rfl).mpr shortState_restorable sampleEntropy

/-- A writable spine grows by every payload that is appended. -/
theorem length_encode_appends {Request : Type} (libraries : Libraries Request) (bytes : Bytes)
    (count : Nat) {state : ContextState} (admitted : state.store.spine.Admitted)
    (writable : state.store.mode.writable = true) :
    (run (Mutation.apply libraries) state
      (List.replicate count (.append bytes))).store.spine.encode.length =
        state.store.spine.encode.length + count * (bytes.length + 12) := by
  induction count generalizing state with
  | zero => simp
  | succ count ih =>
      let next : ContextState := { state with store := (state.store.sanitizedAppend bytes).2 }
      have appended : next.store.spine = state.store.spine.admitFrame bytes := by
        simp only [next, ContextStore.sanitizedAppend, writable, if_true]
        rfl
      have sameMode : next.store.mode = state.store.mode := by
        simp only [next, ContextStore.sanitizedAppend, writable, if_true]
      have rest := @ih next (by rw [appended]; exact admitted.admitFrame bytes)
        (by rw [sameMode]; exact writable)
      rw [appended, admitted.length_encode_admitFrame] at rest
      rw [List.replicate_succ]
      refine Eq.trans rest ?_
      rw [Nat.add_mul, Nat.add_assoc]
      omega

/-- The session after 64 results of half a mebibyte. -/
def longSession : List (Mutation String) :=
  List.replicate 64 (.append (List.replicate (2 ^ 19) 0))

/-- Its publication succeeds, and no process can recover it. -/
theorem published_not_recoverable :
    (persistContext sampleProcess emptyDisk
        (run (Mutation.apply plainLibraries) (newContextState (List.replicate 32 0) 0)
          longSession)).1 = .ok () ∧
      ∀ entropy recovered,
        (recoverContextState plainLibraries
          (persistContext sampleProcess emptyDisk
            (run (Mutation.apply plainLibraries) (newContextState (List.replicate 32 0) 0)
              longSession)).2 entropy).1 ≠ .ok recovered := by
  have long := @length_encode_appends _ plainLibraries (List.replicate (2 ^ 19) 0) 64
    (newContextState (List.replicate 32 0) 0) Spine.admitted_new rfl
  rw [List.length_replicate] at long
  unfold longSession
  generalize run (Mutation.apply plainLibraries) (newContextState (List.replicate 32 0) 0)
    (List.replicate 64 (.append (List.replicate (2 ^ 19) 0))) = state at long ⊢
  constructor
  · simp [persistContext, emptyDisk]
  · intro entropy recovered accepted
    have fits := fits_of_recoverContextState (committed_persistContext sampleProcess_lists)
      (previous_persistContext sampleProcess_lists) accepted
    have within := fits ("sanitized", spineReloadMax) (by simp [reloadBounds])
      state.store.spine.encode (published_get (by simp [artifacts]))
    rw [long] at within
    revert within
    decide

end Samples

end Llxprt.Session
