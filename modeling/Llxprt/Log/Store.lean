import Llxprt.Log.Segments

/-!
# The session store

A manifest selects the current recovery set, a snapshot and the segment behind
it, and retains the set before.  Every handle keeps the state and the cursor it
has reached, and catches up with what other handles have appended before it
appends itself.  A segment that has grown past a threshold is sealed and a new
set is published.
-/

namespace Llxprt.Log

open Llxprt.Kernel Llxprt.Kernel.Recorded Llxprt.Rust Llxprt.Rust.Files

section Records

structure SnapshotFile (τ κ : Type) where
  formatVersion : UInt32
  baseSeq : UInt64
  lastSeq : UInt64
  lastFrameDigest : Bytes
  state : SessionState τ κ

structure RecoverySet where
  snapshot : String
  snapshotDigest : String
  baseSeq : UInt64
  lastSeq : UInt64
  segment : String
  firstSeq : UInt64
  sealedLen : Option UInt64
  sealedDigest : Option String

structure Manifest where
  formatVersion : UInt32
  generation : UInt64
  current : RecoverySet
  previous : Option RecoverySet

instance {τ κ : Type} [Recorded τ] [Recorded κ] : Recorded (SnapshotFile τ κ) where
  json value := .object
    [("format_version", json value.formatVersion), ("base_seq", json value.baseSeq),
      ("last_seq", json value.lastSeq),
      ("last_frame_digest", json (α := List UInt8) value.lastFrameDigest),
      ("state", json value.state)]

instance : Recorded RecoverySet where
  json value := .object
    [("snapshot", json value.snapshot), ("snapshot_digest", json value.snapshotDigest),
      ("base_seq", json value.baseSeq), ("last_seq", json value.lastSeq),
      ("segment", json value.segment), ("first_seq", json value.firstSeq),
      ("sealed_len", optional value.sealedLen), ("sealed_digest", optional value.sealedDigest)]

instance : Recorded Manifest where
  json value := .object
    [("format_version", json value.formatVersion), ("generation", json value.generation),
      ("current", json value.current), ("previous", optional value.previous)]

/-- The readers of the stored documents. -/
structure Codec (τ κ : Type) where
  batch : Bytes → Option (EventBatch τ κ)
  snapshot : Bytes → Option (SnapshotFile τ κ)
  manifest : Bytes → Option Manifest

/-- What a handle has loaded. -/
structure LoadedStore (τ κ : Type) where
  manifest : Manifest
  state : SessionState τ κ
  cursor : ReplayCursor
  segmentIdentity : Nat
  repairedTail : Bool

end Records

section Artifacts

def manifestName : String := "session.manifest.json"

def manifestTemp : String := ".session.manifest.tmp"

def snapshotName (generation seq : UInt64) : String :=
  "snapshot-" ++ toString generation.toNat ++ "-" ++ toString seq.toNat ++ ".json"

def segmentName (generation seq : UInt64) : String :=
  "segment-" ++ toString generation.toNat ++ "-" ++ toString seq.toNat ++ ".log"

def tempName (name : String) : String :=
  "." ++ name ++ ".tmp"

/-- `u64::saturating_add(1)`. -/
def saturatingIncrement (value : UInt64) : UInt64 :=
  (checkedIncrement value).getD value

def manifestCap : Nat := 256 * 1024

def snapshotCap : Nat := maxSessionBytes + 4096

def segmentCap : Nat := segmentByteThreshold + maxSessionBytes + 4096

def readOptional (name : String) (cap : Nat) : Action StoreError (Option Bytes) := do
  match ← attempt (.openFile name) with
  | .error .notFound => pure none
  | .error _ => throw (.io "open session artifact safely failed")
  | .ok file => do
      let bytes ← ask (.read file 0 (cap + 1)) fun _ => .io "read session artifact failed"
      lift (reject (cap < bytes.length) (.corrupt "session artifact exceeds its byte cap"))
      pure (some bytes)

def readArtifact (name : String) (cap : Nat) : Action StoreError Bytes := do
  let bytes ← readOptional name cap
  lift (okOr bytes (.corrupt "session artifact is missing"))

def syncDir : Action StoreError Unit := do
  ask .openDirectory fun _ => .installedDurabilityUnknown
  ask .syncDirectory fun _ => .installedDurabilityUnknown

def fchmod (file : Nat) : Action StoreError Unit :=
  ask (.chmod file) fun _ => .io "chmod retained session descriptor failed"

def sameFileIdentity (left right : Nat) : Action StoreError Bool := do
  let first ← ask (.identity left) fun _ => .io "inspect retained artifact failed"
  let second ← ask (.identity right) fun _ => .io "inspect installed artifact failed"
  pure (first = second)

/-- Write a file under a temporary name and move it to its own. -/
def writeTempRename (temp name : String) (bytes : Bytes) : Action StoreError Unit := do
  let _ ← attempt (.remove temp)
  let file ← ask (.createNew temp) fun _ => .io "create session artifact temporary failed"
  fchmod file
  ask (.write file 0 bytes) fun _ => .io "write session artifact failed"
  ask (.sync file) fun _ => .io "sync session artifact failed"
  ask (.rename temp name) fun _ => .io "publish session artifact failed"
  syncDir
  let installed ← ask (.openFile name) fun _ => .installedDurabilityUnknown
  let same ← sameFileIdentity file installed
  lift (reject (same = false) .installedDurabilityUnknown)

def createEmpty (name : String) : Action StoreError Unit := do
  let file ← ask (.createNew name) fun _ => .io "create session segment failed"
  fchmod file
  ask (.sync file) fun _ => .io "sync new session segment failed"
  syncDir

/-- Remove the file, unless the manifest retains it. -/
def removeUnless (retained : List String) (name : String) : Action StoreError Bool := do
  if name ∈ retained then
    pure false
  else
    match ← attempt (.remove name) with
    | .ok _ => pure true
    | .error .notFound => pure false
    | .error _ => throw (.io "remove superseded session artifact failed")

def removeSet (set : RecoverySet) (retained : Manifest) : Action StoreError Unit := do
  let retainedNames := [retained.current.snapshot, retained.current.segment,
    (retained.previous.map RecoverySet.snapshot).getD "",
    (retained.previous.map RecoverySet.segment).getD ""]
  let first ← removeUnless retainedNames set.snapshot
  let second ← removeUnless retainedNames set.segment
  if first || second then syncDir else pure ()

def removeOld (old : Option RecoverySet) (retained : Manifest) : Action StoreError Unit :=
  match old with
  | some set => removeSet set retained
  | none => pure ()

/-- A name that is not the name of a file in the directory. -/
def badName (name : String) : Bool :=
  name.isEmpty || name = "." || name = ".." ||
    name.toList.any fun char => char = '/' || char = '\\' || char = '\x00'

/-- The artifacts that a manifest names. -/
def Manifest.names (manifest : Manifest) : List String :=
  (manifest.current :: manifest.previous.toList).flatMap fun set => [set.snapshot, set.segment]

def combinedRecoveryError (current previous : StoreError) : StoreError :=
  let message := "current recovery set failed (" ++ current.text ++
    "); retained recovery set failed (" ++ previous.text ++ ")"
  match current, previous with
  | .io _, _ | _, .io _ => .io message
  | _, _ => .corrupt message

end Artifacts

section Store

variable {τ κ : Type} [Recorded τ] [Recorded κ] (checks : Checks τ κ) (codec : Codec τ κ)

def parseManifest (bytes : Bytes) : Except StoreError Manifest := do
  let manifest ← okOr (codec.manifest bytes) (.corrupt "session manifest is invalid")
  reject (manifest.formatVersion ≠ formatVersion) (.corrupt "unsupported session manifest version")
  reject (manifest.names.any badName)
    (.corrupt "session manifest artifact name must be a single local basename")
  pure manifest

def readManifest : Action StoreError (Option Manifest) := do
  match ← readOptional manifestName manifestCap with
  | none => pure none
  | some bytes => do
      let manifest ← lift (parseManifest codec bytes)
      pure (some manifest)

/-- The snapshot of a set, from its bytes. -/
def parseSnapshot (set : RecoverySet) (bytes : Bytes) :
    Except StoreError (SnapshotFile τ κ) := do
  reject (fullDigest bytes ≠ set.snapshotDigest) (.corrupt "session snapshot digest mismatch")
  let snapshot ← okOr (codec.snapshot bytes) (.corrupt "session snapshot is invalid")
  reject (snapshot.formatVersion ≠ formatVersion ∨ snapshot.baseSeq ≠ set.baseSeq ∨
    snapshot.lastSeq ≠ set.baseSeq) (.corrupt "session snapshot metadata is inconsistent")
  checkLogicalRead checks snapshot.state
  pure snapshot

def openSegment (set : RecoverySet) : Action StoreError Nat :=
  ask (.openFile set.segment) fun
    | .notFound => .corrupt "session segment is missing"
    | _ => .io "open session segment safely failed"

/-- A sealed segment has the length and the digest of its seal. -/
def checkSealed (set : RecoverySet) (active : Bool) : Action StoreError Unit :=
  match set.sealedLen, set.sealedDigest with
  | some length, some digest => do
      let bytes ← readArtifact set.segment segmentCap
      lift (reject (UInt64.ofNat bytes.length ≠ length ∨ fullDigest bytes ≠ digest)
        (.corrupt "sealed session segment digest mismatch"))
  | _, _ => lift (reject (active = false) (.corrupt "retained session segment is not sealed"))

def loadSetMode (manifest : Manifest) (set : RecoverySet) (active writable : Bool) :
    Action StoreError (LoadedStore τ κ) := do
  lift (reject (manifest.formatVersion ≠ formatVersion ∨
    (set.baseSeq ≠ set.lastSeq ∧ active = true))
    (.corrupt "unsupported or inconsistent session manifest"))
  let snapshotBytes ← readArtifact set.snapshot snapshotCap
  let snapshot ← lift (parseSnapshot checks codec set snapshotBytes)
  let segment ← openSegment set
  checkSealed set active
  let identity ← ask (.identity segment) fun _ => .io "inspect session segment failed"
  let (state, cursor, repaired) ← replayReadMode checks codec.batch segment snapshot.state
    ⟨snapshot.lastSeq, 0, snapshot.lastFrameDigest, 0⟩ active writable
  lift (reject (active = false ∧ cursor.seq ≠ set.lastSeq)
    (.corrupt "retained session segment sequence mismatch"))
  pure ⟨manifest, state, cursor, identity, repaired⟩

def loadSet (manifest : Manifest) (set : RecoverySet) (active : Bool) :
    Action StoreError (LoadedStore τ κ) :=
  loadSetMode checks codec manifest set active true

def snapshotOf (state : SessionState τ κ) (seq : UInt64) (digest : Bytes) : SnapshotFile τ κ :=
  ⟨formatVersion, seq, seq, digest, state⟩

def writeSnapshot (name : String) (state : SessionState τ κ) (seq : UInt64)
    (digest : Bytes) : Action StoreError String := do
  lift (state.validate checks)
  lift (checkLogicalWrite checks state)
  let bytes := serialize (snapshotOf state seq digest)
  writeTempRename (tempName name) name bytes
  pure (fullDigest bytes)

def publishManifest (manifest : Manifest) : Action StoreError Unit :=
  writeTempRename manifestTemp manifestName (serialize manifest)

/-- The set that begins behind a state. -/
def openedSet (generation seq : UInt64) (snapshotDigest : String) : RecoverySet where
  snapshot := snapshotName generation seq
  snapshotDigest := snapshotDigest
  baseSeq := seq
  lastSeq := seq
  segment := segmentName generation (saturatingIncrement seq)
  firstSeq := saturatingIncrement seq
  sealedLen := none
  sealedDigest := none

/-- Write the snapshot and the empty segment of a new set and publish it. -/
def publishSet (generation : UInt64) (state : SessionState τ κ) (seq : UInt64)
    (digest : Bytes) (previous : Option RecoverySet) : Action StoreError Manifest := do
  let snapshotDigest ← writeSnapshot checks (snapshotName generation seq) state seq digest
  createEmpty (segmentName generation (saturatingIncrement seq))
  let manifest : Manifest :=
    ⟨formatVersion, generation, openedSet generation seq snapshotDigest, previous⟩
  publishManifest manifest
  pure manifest

/-- The generation behind the published one. -/
def nextGeneration : Option Manifest → Except StoreError UInt64
  | some manifest => okOr (checkedIncrement manifest.generation)
      (.corrupt "manifest generation overflow")
  | none => pure 0

def initialManifest (state : SessionState τ κ) (seq : UInt64) (digest : Bytes)
    (previous : Option RecoverySet) : Action StoreError Manifest := do
  lift (state.validate checks)
  lift (checkLogicalWrite checks state)
  let published ← readManifest codec
  let generation ← lift (nextGeneration published)
  publishSet checks generation state seq digest previous

def recoverPrevious (loaded : LoadedStore τ κ) (previous : RecoverySet) :
    Action StoreError (LoadedStore τ κ) := do
  let manifest ← initialManifest checks codec loaded.state loaded.cursor.seq loaded.cursor.digest
    (some previous)
  loadSet checks codec manifest manifest.current true

/-- The retained set, after the current one could not be loaded. -/
def fallBack (manifest : Manifest) (currentError : StoreError) :
    Action StoreError (LoadedStore τ κ) :=
  match manifest.previous with
  | none => throw currentError
  | some previous => do
      let loaded ← (loadSet checks codec manifest previous false).adapt
        (combinedRecoveryError currentError)
      recoverPrevious checks codec loaded previous

def loadManifest (manifest : Manifest) : Action StoreError (LoadedStore τ κ) :=
  tryCatch (loadSet checks codec manifest manifest.current true) (fallBack checks codec manifest)

/-- The files of builds before the manifest. -/
def predatesManifest : Action StoreError Bool := do
  let first ← attempt (.openFile "session.json")
  if first.isOk then
    pure true
  else do
    let second ← attempt (.openFile "session.alt.json")
    pure second.isOk

def firstDigest : Bytes := List.replicate digestLen 0

def loadState (sessionId : String) : Action StoreError (LoadedStore τ κ) := do
  match ← readManifest codec with
  | some manifest => loadManifest checks codec manifest
  | none => do
      let predates ← predatesManifest
      lift (reject (predates = true) (.corrupt ("no snapshot manifest: the session predates " ++
        "the slot format; start a new session")))
      let state : SessionState τ κ := .empty sessionId
      lift (checkLogicalRead checks state)
      let manifest ← initialManifest checks codec state 0 firstDigest none
      loadSet checks codec manifest manifest.current true

/-- A failed replay falls back to the retained set when the segment is corrupt. -/
def catchUpError (manifest : Manifest) :
    StoreError → Action StoreError (LoadedStore τ κ)
  | .corrupt text => fallBack checks codec manifest (.corrupt text)
  | error => throw error

/-- The frames that were appended since the handle last looked. -/
def catchUpSegment (manifest : Manifest) (file : Nat) (loaded : LoadedStore τ κ) :
    Action StoreError (LoadedStore τ κ) :=
  tryCatch
    (do
      let (state, cursor, repaired) ← replayReadMode checks codec.batch file loaded.state
        loaded.cursor true true
      pure { loaded with
        state := state, cursor := cursor, repairedTail := loaded.repairedTail || repaired })
    (catchUpError checks codec manifest)

def catchUp (loaded : LoadedStore τ κ) :
    Action StoreError (LoadedStore τ κ) := do
  let published ← readManifest codec
  let manifest ← lift (okOr published (.corrupt "session manifest disappeared"))
  if manifest.generation ≠ loaded.manifest.generation ∨
      manifest.current.segment ≠ loaded.manifest.current.segment then
    loadState checks codec loaded.state.sessionId
  else do
    let file ← ask (.openFile manifest.current.segment) fun _ =>
      .io "open active session segment failed"
    let identity ← ask (.identity file) fun _ => .io "inspect session segment failed"
    if identity ≠ loaded.segmentIdentity then
      loadState checks codec loaded.state.sessionId
    else
      catchUpSegment checks codec manifest file loaded

def sealCurrent (loaded : LoadedStore τ κ) : Action StoreError RecoverySet := do
  let bytes ← readArtifact loaded.manifest.current.segment segmentCap
  lift (reject (bytes.length ≠ loaded.cursor.offset)
    (.corrupt "active session segment length is inconsistent"))
  pure { loaded.manifest.current with
    lastSeq := loaded.cursor.seq
    sealedLen := some (UInt64.ofNat bytes.length)
    sealedDigest := some (fullDigest bytes) }

def compact (loaded : LoadedStore τ κ) :
    Action StoreError (LoadedStore τ κ) := do
  lift (loaded.state.validate checks)
  lift (checkLogicalWrite checks loaded.state)
  let previous ← sealCurrent loaded
  let generation ← lift (okOr (checkedIncrement loaded.manifest.generation)
    (.corrupt "manifest generation overflow"))
  let manifest ← publishSet checks generation loaded.state loaded.cursor.seq loaded.cursor.digest
    (some previous)
  removeOld loaded.manifest.previous manifest
  loadSet checks codec manifest manifest.current true

end Store

section Appending

variable {τ κ : Type}

/-- The file ends at the offset, when it is still the installed one. -/
def endsAt (same : Bool) (file offset : Nat) : Action StoreError Bool :=
  if same then do
    let length ← attempt (.length file)
    pure (length.toOption = some offset)
  else
    pure false

/-- Before a write: the name stands for the file, and the file ends at the offset. -/
def checkUnchanged (file : Nat) (name : String) (offset : Nat) : Action StoreError Unit := do
  let installed ← ask (.openFile name) fun _ => .io "verify active session segment failed"
  let same ← sameFileIdentity file installed
  let unchanged ← endsAt same file offset
  lift (reject (unchanged = false) (.io "active session segment was replaced or changed"))

/-- After a write: the name stands for the file, and the file has the length. -/
def checkAppended (file : Nat) (name : String) (size : Nat) : Action StoreError Unit := do
  let installed ← ask (.openFile name) fun _ => .io "verify appended session segment failed"
  lift (reject (counterEnd ≤ size) (.corrupt "session segment length overflow"))
  let length ← ask (.length installed) fun _ => .io "inspect appended session segment failed"
  let same ← sameFileIdentity file installed
  lift (reject (same = false ∨ length ≠ size) (.io "active session segment name was replaced"))

def appendFrame (name : String) (expectedOffset : Nat)
    (frame : EncodedFrame τ κ) : Action StoreError Unit := do
  let file ← ask (.openFile name) fun _ => .io "open active session segment failed"
  checkUnchanged file name expectedOffset
  ask (.write file expectedOffset frame.bytes) fun _ =>
    .io ("append session transaction " ++ frame.batch.txnId ++ " failed")
  ask (.sync file) fun _ => .io ("sync session transaction " ++ frame.batch.txnId ++ " failed")
  checkAppended file name (expectedOffset + frame.bytes.length)

variable [Recorded τ] [Recorded κ] (checks : Checks τ κ) (codec : Codec τ κ)

/-- The frame of the events and what the handle holds after it. -/
def prepareFrame (loaded : LoadedStore τ κ) (events : List (Event τ κ)) :
    Except StoreError (EncodedFrame τ κ × LoadedStore τ κ) := do
  let seq ← okOr (checkedIncrement loaded.cursor.seq) (.corrupt "session sequence overflow")
  let frame ← encodeFrame seq loaded.cursor.digest events
  let candidate ← applyBatch checks loaded.state frame.batch
  checkLogicalWrite checks candidate
  let offset := loaded.cursor.offset + frame.bytes.length
  reject (counterEnd ≤ offset) (.corrupt "session segment offset overflow")
  reject (counterEnd ≤ loaded.cursor.events + 1) (.corrupt "session event count overflow")
  pure (frame, { loaded with
    state := candidate, cursor := ⟨seq, offset, frame.digest, loaded.cursor.events + 1⟩ })

/-- The segment is long enough to be sealed. -/
def rotates (cursor : ReplayCursor) : Bool :=
  segmentByteThreshold ≤ cursor.offset || eventThreshold ≤ cursor.events

/-- Sealing after an append.  The event is committed, whether it succeeds or not. -/
def rotate (loaded : LoadedStore τ κ) :
    Prog (Except StoreError Unit × LoadedStore τ κ) := do
  if rotates loaded.cursor then
    match ← (compact checks codec loaded).run with
    | .ok compacted => pure (.ok (), compacted)
    | .error error => pure (.error (.committedMaintenance ("snapshot rotation failed: " ++
        error.text)), loaded)
  else
    pure (.ok (), loaded)

/-- The outcome of an append, and what the handle holds after it. -/
def append (loaded : LoadedStore τ κ) (events : List (Event τ κ)) :
    Prog (Except StoreError Unit × LoadedStore τ κ) := do
  match ← (catchUp checks codec loaded).run with
  | .error error => pure (.error error, loaded)
  | .ok current =>
      match prepareFrame checks current events with
      | .error error => pure (.error error, current)
      | .ok (frame, next) =>
          match ← (appendFrame current.manifest.current.segment current.cursor.offset frame).run with
          | .error error => pure (.error error, current)
          | .ok _ => rotate checks codec next

end Appending

section Handles

variable {τ κ : Type} [Recorded τ] [Recorded κ] (checks : Checks τ κ) (codec : Codec τ κ)

/-- The cached store, or the loaded one on first use. -/
def openOnce (sessionId : String) : Option (LoadedStore τ κ) →
    Action StoreError (LoadedStore τ κ)
  | some loaded => pure loaded
  | none => loadState checks codec sessionId

/-- The cached store with what was appended since, or the loaded one on first use. -/
def openCurrent (sessionId : String) : Option (LoadedStore τ κ) →
    Action StoreError (LoadedStore τ κ)
  | some loaded => catchUp checks codec loaded
  | none => loadState checks codec sessionId

/-- The outcome of a read, and the cache after it. -/
def read (sessionId : String) (cache : Option (LoadedStore τ κ)) :
    Prog (Except StoreError (SessionState τ κ) ×
      Option (LoadedStore τ κ)) := do
  match ← (openCurrent checks codec sessionId cache).run with
  | .ok loaded => pure (.ok loaded.state, some loaded)
  | .error error => pure (.error error, cache)

/-- The outcome of an append by a handle, and the cache after it. -/
def appendOne (sessionId : String) (cache : Option (LoadedStore τ κ)) (event : Event τ κ) :
    Prog (Except StoreError Unit × Option (LoadedStore τ κ)) := do
  match ← (openOnce checks codec sessionId cache).run with
  | .error error => pure (.error error, cache)
  | .ok loaded => do
      let (outcome, next) ← append checks codec loaded [event]
      pure (outcome, some next)

end Handles

end Llxprt.Log
