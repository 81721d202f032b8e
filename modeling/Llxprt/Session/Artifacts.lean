import Llxprt.Session.Mutations
import Llxprt.Session.Serde
import Mathlib.Data.List.Infix

/-!
# The artifacts of a generation

What a publication writes for one state, and how a recovering process reads a
generation back.  Every artifact has a read bound of its own.  Within the bounds
a sound state comes back with all its durable parts.
-/

namespace Llxprt.Session

open Llxprt.Kernel Llxprt.Kernel.Recorded Llxprt.Rust Llxprt.Store Llxprt.Ingress Llxprt.Policy

/-- The regular files of one directory. -/
abbrev Directory := BTreeMap String Bytes

section Bounds

def spineReloadMax : Nat := 32 * 2 ^ 20
def vaultReloadMax : Nat := 8 * 2 ^ 20
def manifestReloadMax : Nat := 2 ^ 20
def eventsReloadMax : Nat := 8 * 2 ^ 20
def epochReloadMax : Nat := 8 * 2 ^ 20
def checkpointReloadMax : Nat := 8 * 2 ^ 20
def kernelChainReloadMax : Nat := 64

/-- The read bound of every artifact. -/
def reloadBounds : List (String × Nat) :=
  [("sanitized", spineReloadMax), ("vault", vaultReloadMax), ("events.log", eventsReloadMax),
    ("checkpoints", checkpointReloadMax), ("epochs.json", epochReloadMax),
    ("request-prefixes.json", epochReloadMax), ("kernel-chain", kernelChainReloadMax),
    ("manifest.json", manifestReloadMax)]

end Bounds

section Publishing

/-- One JSON line for every policy event. -/
def policyEvents (state : ContextState) : Bytes :=
  utf8 (String.ofList (Text.joinLines
    (state.policy.events.map fun event => (Json.object event.fields).print)))

/-- The frames of the first records. -/
def encodedSpinePrefix (spine : Spine) (applied : Nat) : Bytes :=
  (spine.records.take applied).flatMap fun record =>
    Spine.frame (spine.recordBytes record) record.contentDigest

/-- The checkpoint of the first records, over exactly the content it names. -/
def durableCheckpoint (spine : Spine) (applied : Nat) (logicalTime : UInt64) : Json :=
  let covered := encodedSpinePrefix spine applied
  .object [("applied", json applied), ("spine_len", json covered.length),
    ("spine_digest", json (digest covered)), ("logical_time", json logicalTime)]

/-- Recovered text without its trailing newlines. -/
def trimNewlines (bytes : Bytes) : Bytes :=
  (bytes.reverse.dropWhile (· = 10)).reverse

/-- The recovered lines and one line for the current position. -/
def checkpointLines (state : ContextState) : Bytes :=
  let recovered := match state.recoveredCheckpoints with
    | none => []
    | some recovered => trimNewlines (Text.fromUtf8Lossy recovered)
  let history := if recovered = [] then [] else recovered ++ [10]
  let checkpoint := durableCheckpoint state.store.spine state.store.spine.records.length
    state.policy.logicalTime
  history ++ documentBytes checkpoint ++ [10]

def kernelChainFields (state : ContextState) : List (String × Json) :=
  [("chain", .number state.kernelChain.2.toNat),
    ("next_sequence", .number state.kernelChain.1.toNat)]

def admissionRegionBudget : Nat := spineReloadMax + 2 ^ 20

def wrapUpAvailable (state : ContextState) : Nat :=
  admissionRegionBudget - state.regionAdmitted

def contextManifest (state : ContextState) (generation : Nat) : Manifest where
  generation := generation
  mode := state.store.mode.name
  quiesce := state.quiesce
  detail := state.detail
  rules := state.filters.rules
  vocabularies := state.filters.vocabularySnapshots
  terminalOutcome := state.policy.terminalOutcome.map TerminalLabel.asTerminalStr
  terminalFitSaturated := state.policy.terminalFitSaturated
  terminalFitAvailable :=
    match state.policy.terminalFitRoom with
    | some room => some room
    | none => some (wrapUpAvailable state)
  preserved := state.preserved

/-- The artifacts of one generation, in the order of their writing. -/
def artifacts (state : ContextState) : List (String × Bytes) :=
  [("sanitized", state.store.spine.encode), ("vault", serialize state.store.vault.snapshot),
    ("events.log", policyEvents state), ("checkpoints", checkpointLines state),
    ("epochs.json", serialize state.policy.cache),
    ("request-prefixes.json", serialize state.requestPrefixes),
    ("kernel-chain", documentBytes (.object (kernelChainFields state))),
    ("manifest.json", serialize (contextManifest state (saturatingAdd state.generation 1)))]

/-- The directory that holds the artifacts. -/
def published (state : ContextState) : Directory :=
  (artifacts state).foldl (fun dir artifact => dir.insert artifact.1 artifact.2) ∅

end Publishing

section Reading

inductive ArtifactError where
  | notFound (name : String)
  | overBound (name : String) (bound : Nat)

def ArtifactError.text : ArtifactError → String
  | notFound name => "artifact " ++ name ++ " not found"
  | overBound name bound => "artifact " ++ name ++ " exceeds the read bound " ++ toString bound

def readArtifact (dir : Directory) (name : String) (bound : Nat) : Except ArtifactError Bytes :=
  match dir[name]? with
  | none => .error (.notFound name)
  | some bytes => if bound < bytes.length then .error (.overBound name bound) else .ok bytes

/-- An artifact that may be missing. -/
def readOptional (dir : Directory) (name : String) (bound : Nat) (context : String) :
    Except String (Option Bytes) :=
  match readArtifact dir name bound with
  | .ok bytes => .ok (some bytes)
  | .error (.notFound _) => .ok none
  | .error error => .error (context ++ error.text)

/-- An artifact that every generation has. -/
def readRequired (dir : Directory) (name : String) (bound : Nat) (context : String) :
    Except String Bytes :=
  (readArtifact dir name bound).mapError fun error => context ++ error.text

def vaultKeyLen : Nat := 32

/-- What a recovering process draws from the operating system. -/
structure Entropy where
  key : Bytes
  drawn : key.length = vaultKeyLen
  openedPrefix : UInt32
  restoredPrefix : UInt32

variable {Request : Type} (libraries : Libraries Request)

def chainField (value : Json) (name missing : String) : Except String UInt64 :=
  match (value.get name).bind Json.asU64 with
  | some number => .ok (UInt64.ofNat number)
  | none => .error missing

def recoverKernelChain (dir : Directory) (state : ContextState) : Except String ContextState := do
  match ← readOptional dir "kernel-chain" kernelChainReloadMax
      "context kernel chain unreadable: " with
  | none => return state
  | some bytes =>
      let value ← (libraries.parseValue bytes).mapError ("context kernel chain unreadable: " ++ ·)
      let nextSequence ← chainField value "next_sequence" "context kernel chain carries no sequence"
      let chain ← chainField value "chain" "context kernel chain carries no checksum"
      return { state with kernelChain := (nextSequence, chain) }

/-- One event for every line that is not blank. -/
def loadEventLines : List (List Char) → Except String (List PolicyEvent)
  | [] => .ok []
  | line :: rest =>
      if Text.isBlank line then
        loadEventLines rest
      else do
        let value ← (libraries.parseValue (utf8 (String.ofList line))).mapError
          ("context policy event corrupt: " ++ ·)
        let event ← PolicyEvent.fromJson value
        let later ← loadEventLines rest
        return event :: later

/-- The reason of a malformed byte sequence is left out of the text. -/
def loadPolicyEvents (bytes : Bytes) : Except String (List PolicyEvent) :=
  match String.fromUTF8? ⟨bytes.toArray⟩ with
  | none => .error "context policy events are not utf-8: "
  | some text => loadEventLines libraries (Text.lines text.toList)

def recoverEvents (dir : Directory) : Except String (List PolicyEvent) := do
  match ← readOptional dir "events.log" eventsReloadMax "context policy events unreadable: " with
  | none => return []
  | some bytes => loadPolicyEvents libraries bytes

def recoverDurablePolicyArtifacts (dir : Directory) (state : ContextState) :
    Except String ContextState := do
  let recoveredCheckpoints ← readOptional dir "checkpoints" checkpointReloadMax
    "context checkpoints unreadable: "
  let events ← recoverEvents libraries dir
  let epochs ← readRequired dir "epochs.json" epochReloadMax "context epochs unreadable: "
  let cache ← (libraries.decodeEpochs epochs).mapError ("context epochs corrupt: " ++ ·)
  let policy ← (state.policy.restoreHistory events cache 0).mapError EpochError.text
  let prefixes ← readRequired dir "request-prefixes.json" epochReloadMax
    "context request prefixes unreadable: "
  let requestPrefixes ← (libraries.decodePrefixes prefixes).mapError
    ("context request prefixes corrupt: " ++ ·)
  return { state with recoveredCheckpoints, policy, requestPrefixes }

/-- A missing field is a snapshot of an older build. -/
def describeVaultDeserError (error : String) : String :=
  if "missing field".toList <:+: error.toList then
    "context vault written by an older build (" ++ error ++
      "); resume needs a session written by this build"
  else
    "context vault corrupt: " ++ error

def contextStoreError : Store.StoreError → String
  | .vault _ => "vault refused the write"
  | .blocked _ => "store mode refused the write"

def recoverVault (dir : Directory) (entropy : Entropy) (state : ContextState) :
    Except String ContextState := do
  match ← readOptional dir "vault" vaultReloadMax "context vault unreadable: " with
  | none => return state
  | some bytes =>
      let snapshot ← (libraries.decodeVault bytes).mapError describeVaultDeserError
      let store ← (state.store.restoreVault snapshot entropy.restoredPrefix).mapError fun error =>
        "context vault refused restore: " ++ contextStoreError error
      return { state with store }

def restoredMode (mode : String) (current : StoreMode) : StoreMode :=
  if mode = "read-only" then .readOnly
  else if mode = "unavailable" then .unavailable
  else current

def restoreManifestIntoState (manifest : Manifest) (state : ContextState) :
    Except String ContextState := do
  let rules ← (state.filters.restoreHistories manifest.rules).mapError fun _ =>
    "context manifest filter rules are not relaxations"
  let filters ← (rules.restoreVocabularySnapshots manifest.vocabularies).mapError fun _ =>
    "context manifest vocabularies are not additions"
  return { state with
    filters := filters
    store := state.store.setMode (restoredMode manifest.mode state.store.mode)
    quiesce := manifest.quiesce
    detail := manifest.detail
    preserved := manifest.preserved }

def recoverTerminalOutcome (outcome : Option String) : Option TerminalLabel :=
  match outcome with
  | none => none
  | some name =>
      if name = "quiesce_unwritable" then some .quiesceUnwritable
      else if name = "quiesce_rate" then some .quiesceRate
      else if name = "wrap_up" then some .wrapUp
      else none

/-- The state with the terminal branch that the manifest records. -/
def withTerminalOutcome (state : ContextState) (manifest : Manifest) : ContextState :=
  match recoverTerminalOutcome manifest.terminalOutcome with
  | none => state
  | some outcome =>
      { state with
        policy := state.policy.restoreTerminalOutcome outcome manifest.terminalFitSaturated }

def recoverManifest (dir : Directory) (state : ContextState) : Except String ContextState := do
  match ← readOptional dir "manifest.json" manifestReloadMax "context manifest unreadable: " with
  | none => return state
  | some bytes =>
      let manifest ← (libraries.decodeManifest bytes).mapError ("context manifest corrupt: " ++ ·)
      let restored ← restoreManifestIntoState manifest state
      return withTerminalOutcome restored manifest

/-- The marker beside a session whose artifacts are gone. -/
def recoverQuiesceMarker (marker : Option Bytes) (fresh : ContextState) :
    Except String ContextState :=
  match marker with
  | none => .ok fresh
  | some bytes => do
      let manifest ← (libraries.decodeManifest bytes).mapError
        ("context quiesce marker unreadable: " ++ ·)
      return withTerminalOutcome
        { fresh with quiesce := manifest.quiesce, detail := manifest.detail } manifest

def SpineLoadError.debug : SpineLoadError → String
  | .corruptFrame index goodRecords =>
      "CorruptFrame \x7b index: " ++ toString index ++ ", good_records: " ++ toString goodRecords ++
        " \x7d"

/-- The state behind one generation directory. -/
def recoverFrom (dir : Directory) (marker : Option Bytes) (key : Bytes) (generation : Nat)
    (entropy : Entropy) : Except String ContextState :=
  let fresh := newContextState key entropy.openedPrefix
  match readArtifact dir "sanitized" spineReloadMax with
  | .error (.notFound _) => recoverQuiesceMarker libraries marker fresh
  | .error error => .error ("context spine unreadable: " ++ error.text)
  | .ok spineBytes => do
      let store ← (fresh.store.loadSpineTyped spineBytes).mapError fun error =>
        "context spine corrupt: " ++ SpineLoadError.debug error
      let chained ← recoverKernelChain libraries dir { fresh with store, generation }
      let accounted ← recoverDurablePolicyArtifacts libraries dir chained
      let vaulted ← recoverVault libraries dir entropy accounted
      let state ← recoverManifest libraries dir vaulted
      validate libraries state
      return state

end Reading

/-- The readers undo the serializers of documents whose numbers are machine
integers.  A flat object is read with its fields, whatever their order. -/
structure Libraries.Reads {Request : Type} (libraries : Libraries Request) : Prop where
  value : ∀ fields : List (String × Json), (fields.map Prod.fst).Nodup →
    (∀ field ∈ fields, field.2.IsScalar) →
    ∃ parsed, libraries.parseValue (documentBytes (.object fields)) = .ok parsed ∧
      ∀ field ∈ fields, parsed.get field.1 = some field.2
  vault : ∀ snapshot : VaultSnapshot, (json snapshot).machine = true →
    libraries.decodeVault (serialize snapshot) = .ok snapshot
  epochs : ∀ cache : EpochCache, (json cache).machine = true →
    libraries.decodeEpochs (serialize cache) = .ok cache
  prefixes : ∀ prefixes : RequestPrefixes, (json prefixes).machine = true →
    libraries.decodePrefixes (serialize prefixes) = .ok prefixes
  manifest : ∀ manifest : Manifest, (json manifest).machine = true →
    libraries.decodeManifest (serialize manifest) = .ok manifest

/-- The numbers that the state writes are machine integers, as they are in the
source. -/
structure ContextState.Typed (state : ContextState) : Prop where
  vault : (json state.store.vault.snapshot).machine = true
  epochs : (json state.policy.cache).machine = true
  prefixes : (json state.requestPrefixes).machine = true
  manifest : (json (contextManifest state (saturatingAdd state.generation 1))).machine = true

/-- What one generation holds. -/
structure Generation where
  number : Nat
  mode : StoreMode
  spine : Spine
  slots : BTreeMap String Slot
  next : Nat
  filters : FilterRegistry
  events : List PolicyEvent
  epochs : EpochCache
  terminalOutcome : Option TerminalLabel
  prefixes : RequestPrefixes
  kernelChain : UInt64 × Digest
  quiesce : Option String
  detail : Option String
  preserved : List String

/-- The durable parts of a state, as the generation of the given number. -/
def ContextState.durable (state : ContextState) (number : Nat) : Generation where
  number := number
  mode := state.store.mode
  spine := state.store.spine
  slots := state.store.vault.slots
  next := state.store.vault.next
  filters := state.filters
  events := state.policy.events
  epochs := state.policy.cache
  terminalOutcome := state.policy.terminalOutcome
  prefixes := state.requestPrefixes
  kernelChain := state.kernelChain
  quiesce := state.quiesce
  detail := state.detail
  preserved := state.preserved

/-- Every artifact of the directory is within its read bound. -/
def Fits (dir : Directory) : Prop :=
  ∀ bound ∈ reloadBounds, ∀ bytes, dir[bound.1]? = some bytes → bytes.length ≤ bound.2

/-- What recovery asks of a published state: its artifacts are within their bounds
and its prefixes can be read. -/
structure ContextState.Restorable {Request : Type} (libraries : Libraries Request)
    (state : ContextState) : Prop where
  fits : Fits (published state)
  readable : state.Readable libraries

section Directories

theorem getElem?_foldl_insert {entries : List (String × Bytes)} {dir : Directory}
    (distinct : (entries.map Prod.fst).Nodup) {entry : String × Bytes} (member : entry ∈ entries) :
    (entries.foldl (fun dir entry => dir.insert entry.1 entry.2) dir)[entry.1]? = some entry.2 := by
  have other : ∀ (entries : List (String × Bytes)) (dir : Directory) (name : String),
      name ∉ entries.map Prod.fst →
      (entries.foldl (fun dir entry => dir.insert entry.1 entry.2) dir)[name]? = dir[name]? := by
    intro entries
    induction entries with
    | nil => exact fun _ _ _ => rfl
    | cons first entries ih =>
        intro dir name absent
        rw [List.map_cons, List.mem_cons, not_or] at absent
        rw [List.foldl_cons, ih _ _ absent.2, Std.ExtTreeMap.getElem?_insert, if_neg]
        exact fun equal => absent.1 (Std.LawfulEqOrd.compare_eq_iff_eq.mp equal).symm
  induction entries generalizing dir with
  | nil => cases member
  | cons first entries ih =>
      rw [List.map_cons, List.nodup_cons] at distinct
      rw [List.foldl_cons]
      rcases List.mem_cons.mp member with rfl | later
      · rw [other _ _ _ distinct.1, Std.ExtTreeMap.getElem?_insert_self]
      · exact ih distinct.2 later

theorem published_get {state : ContextState} {name : String} {bytes : Bytes}
    (member : (name, bytes) ∈ artifacts state) : (published state)[name]? = some bytes := by
  have distinct : ((artifacts state).map Prod.fst).Nodup := by
    simp [artifacts]
  have found := @getElem?_foldl_insert _ ∅ distinct _ member
  exact found

variable {dir : Directory} {name : String} {bytes : Bytes} {bound : Nat}

theorem readArtifact_of_le (found : dir[name]? = some bytes) (within : bytes.length ≤ bound) :
    readArtifact dir name bound = .ok bytes := by
  simp [readArtifact, found, Nat.not_lt.mpr within]

/-- A published artifact within its bound is read. -/
theorem readArtifact_published {state : ContextState} (fits : Fits (published state))
    (member : (name, bytes) ∈ artifacts state) (listed : (name, bound) ∈ reloadBounds) :
    readArtifact (published state) name bound = .ok bytes :=
  readArtifact_of_le (published_get member) (fits _ listed bytes (published_get member))

/-- Whether a publication fits is seen from its artifacts. -/
theorem fits_published {state : ContextState} (within : ∀ artifact ∈ artifacts state,
    ∀ bound ∈ reloadBounds, bound.1 = artifact.1 → artifact.2.length ≤ bound.2) :
    Fits (published state) := by
  intro bound listed bytes found
  have named : ∃ artifact ∈ artifacts state, bound.1 = artifact.1 := by
    revert bound
    simp [reloadBounds, artifacts]
  rcases named with ⟨artifact, member, same⟩
  have stored := published_get member
  rw [← same, found] at stored
  rw [Option.some.inj stored]
  exact within artifact member bound listed same

theorem readOptional_of_read (read : readArtifact dir name bound = .ok bytes) (context : String) :
    readOptional dir name bound context = .ok (some bytes) := by
  simp [readOptional, read]

theorem readRequired_of_read (read : readArtifact dir name bound = .ok bytes) (context : String) :
    readRequired dir name bound context = .ok bytes := by
  simp [readRequired, read, Except.mapError]

end Directories

section RoundTrip

variable {Request : Type} {libraries : Libraries Request} {state base : ContextState}

theorem recoverKernelChain_published (reads : libraries.Reads) (fits : Fits (published state)) :
    recoverKernelChain libraries (published state) base =
      .ok { base with kernelChain := state.kernelChain } := by
  have stored : readArtifact (published state) "kernel-chain" kernelChainReloadMax =
      .ok (documentBytes (.object (kernelChainFields state))) :=
    readArtifact_published fits (by simp [artifacts]) (by simp [reloadBounds])
  have inRange : ∀ number : UInt64, number.toNat ≤ u64Max := by
    intro number
    have := number.toNat_lt
    unfold u64Max
    omega
  have scalar : ∀ field ∈ kernelChainFields state, field.2.IsScalar := by
    intro field member
    simp only [kernelChainFields, List.mem_cons, List.not_mem_nil, or_false] at member
    rcases member with rfl | rfl
    · exact inRange _
    · exact inRange _
  rcases reads.value (kernelChainFields state) (by simp [kernelChainFields]) scalar with
    ⟨parsed, read, has⟩
  have field : ∀ name missing (number : UInt64),
      (name, Json.number number.toNat) ∈ kernelChainFields state →
      chainField parsed name missing = .ok number := by
    intro name missing number member
    simp [chainField, has _ member, Json.asU64, inRange number]
  have sequence := field "next_sequence" "context kernel chain carries no sequence"
    state.kernelChain.1 (by simp [kernelChainFields])
  have chain := field "chain" "context kernel chain carries no checksum"
    state.kernelChain.2 (by simp [kernelChainFields])
  simp only [recoverKernelChain, readOptional_of_read stored, read, sequence, chain,
    Except.mapError, bind, Except.bind, pure, Except.pure]

theorem loadEventLines_print (reads : libraries.Reads) (events : List PolicyEvent) :
    loadEventLines libraries (events.map fun event => (Json.object event.fields).print) =
      .ok events := by
  induction events with
  | nil => rfl
  | cons event events ih =>
      have shown : Text.isBlank (Json.object event.fields).print = false := rfl
      have inRange : ∀ number : UInt64, number.toNat ≤ u64Max := by
        intro number
        have := number.toNat_lt
        unfold u64Max
        omega
      have scalar : ∀ field ∈ event.fields, field.2.IsScalar := by
        simp [PolicyEvent.fields, Json.IsScalar, inRange]
      rcases reads.value event.fields (by simp [PolicyEvent.fields]) scalar with
        ⟨parsed, read, has⟩
      rw [documentBytes] at read
      rw [List.map_cons, loadEventLines, if_neg (by simp [shown]), ih, read]
      simp only [Except.mapError, bind, Except.bind, PolicyEvent.fromJson_of_fields has]
      rfl

/-- Printed events are the lines of the event log. -/
theorem unbroken_print (event : PolicyEvent) : Text.Unbroken (Json.object event.fields).print := by
  constructor
  · intro empty
    cases empty
  · intro char member
    have visible := Json.print_visible _ char member
    constructor
    · rintro rfl
      exact absurd visible (by decide)
    · rintro rfl
      exact absurd visible (by decide)

theorem loadPolicyEvents_policyEvents (reads : libraries.Reads) :
    loadPolicyEvents libraries (policyEvents state) = .ok state.policy.events := by
  have lines : Text.lines (Text.joinLines
      (state.policy.events.map fun event => (Json.object event.fields).print)) =
      state.policy.events.map fun event => (Json.object event.fields).print := by
    apply Text.lines_joinLines
    intro line member
    rcases List.mem_map.mp member with ⟨event, _, rfl⟩
    exact unbroken_print event
  rw [loadPolicyEvents, policyEvents, fromUTF8?_utf8]
  simp only [String.toList_ofList, lines]
  exact loadEventLines_print reads state.policy.events

theorem recoverDurablePolicyArtifacts_published (reads : libraries.Reads) (typed : state.Typed)
    (fits : Fits (published state)) (valid : state.policy.cache.Valid)
    (fresh : base.policy = .default) :
    ∃ policy, recoverDurablePolicyArtifacts libraries (published state) base =
        .ok { base with
          recoveredCheckpoints := some (checkpointLines state)
          policy := policy
          requestPrefixes := state.requestPrefixes } ∧
      policy.events = state.policy.events ∧ policy.cache = state.policy.cache ∧
      policy.terminalOutcome = none := by
  have checkpoints : readArtifact (published state) "checkpoints" checkpointReloadMax =
      .ok (checkpointLines state) :=
    readArtifact_published fits (by simp [artifacts]) (by simp [reloadBounds])
  have events : readArtifact (published state) "events.log" eventsReloadMax =
      .ok (policyEvents state) :=
    readArtifact_published fits (by simp [artifacts]) (by simp [reloadBounds])
  have epochs : readArtifact (published state) "epochs.json" epochReloadMax =
      .ok (serialize state.policy.cache) :=
    readArtifact_published fits (by simp [artifacts]) (by simp [reloadBounds])
  have prefixes : readArtifact (published state) "request-prefixes.json" epochReloadMax =
      .ok (serialize state.requestPrefixes) :=
    readArtifact_published fits (by simp [artifacts]) (by simp [reloadBounds])
  have accepted := EpochCache.validate_eq_ok_iff.mpr valid
  simp only [recoverDurablePolicyArtifacts, recoverEvents, readOptional_of_read checkpoints,
    readOptional_of_read events, readRequired_of_read epochs, readRequired_of_read prefixes,
    loadPolicyEvents_policyEvents reads, reads.epochs _ typed.epochs,
    reads.prefixes _ typed.prefixes, fresh,
    Controller.restoreHistory, accepted, Except.mapError, bind, Except.bind, pure, Except.pure]
  exact ⟨_, rfl, rfl, rfl, rfl⟩

theorem recoverVault_published {entropy : Entropy} (reads : libraries.Reads) (typed : state.Typed)
    (fits : Fits (published state)) (minted : state.store.vault.Minted) :
    recoverVault libraries (published state) entropy base =
      .ok { base with
        store := { base.store with
          vault := { base.store.vault with
            slots := state.store.vault.slots
            next := state.store.vault.next
            noncePrefix := entropy.restoredPrefix } } } := by
  have stored : readArtifact (published state) "vault" vaultReloadMax =
      .ok (serialize state.store.vault.snapshot) :=
    readArtifact_published fits (by simp [artifacts]) (by simp [reloadBounds])
  simp only [recoverVault, readOptional_of_read stored, reads.vault _ typed.vault,
    ContextStore.restoreVault,
    Vault.restore_snapshot minted, Except.mapError, bind, Except.bind, pure, Except.pure]

theorem restoredMode_name (mode : StoreMode) : restoredMode mode.name .normal = mode := by
  cases mode <;> rfl

theorem recoverTerminalOutcome_label (outcome : Option TerminalLabel) :
    recoverTerminalOutcome (outcome.map TerminalLabel.asTerminalStr) = outcome := by
  rcases outcome with _ | label
  · rfl
  · cases label <;> rfl

theorem recoverManifest_published (reads : libraries.Reads) (typed : state.Typed)
    (fits : Fits (published state)) (producible : state.filters.Producible)
    (mode : base.store.mode = .normal)
    (unsettled : base.policy.terminalOutcome = none) :
    ∃ policy, recoverManifest libraries (published state) base =
        .ok { base with
          filters := state.filters
          store := base.store.setMode state.store.mode
          quiesce := state.quiesce
          detail := state.detail
          preserved := state.preserved
          policy := policy } ∧
      policy.events = base.policy.events ∧ policy.cache = base.policy.cache ∧
      policy.terminalOutcome = state.policy.terminalOutcome := by
  have stored : readArtifact (published state) "manifest.json" manifestReloadMax =
      .ok (serialize (contextManifest state (saturatingAdd state.generation 1))) :=
    readArtifact_published fits (by simp [artifacts]) (by simp [reloadBounds])
  rcases producible.restore base.filters with ⟨rules, vocabularies⟩
  have outcome := recoverTerminalOutcome_label state.policy.terminalOutcome
  simp only [recoverManifest, readOptional_of_read stored, reads.manifest _ typed.manifest, bind,
    Except.bind, Except.mapError]
  simp only [restoreManifestIntoState, contextManifest, rules, vocabularies, mode, restoredMode_name,
    withTerminalOutcome, outcome, Except.mapError, bind, Except.bind, pure, Except.pure]
  cases label : state.policy.terminalOutcome with
  | none => exact ⟨base.policy, rfl, rfl, rfl, unsettled⟩
  | some label =>
      refine ⟨_, rfl, ?_⟩
      simp [Controller.restoreTerminalOutcome, unsettled]

/-- Within the read bounds a sound state is recovered from its artifacts exactly
when its prefixes can be read. -/
theorem recoverFrom_published {marker : Option Bytes} {number : Nat} {entropy : Entropy}
    (reads : libraries.Reads) (typed : state.Typed) (sound : state.Sound libraries)
    (fits : Fits (published state)) :
    ∃ recovered, recovered.durable recovered.generation = state.durable number ∧
      ∀ loaded, recoverFrom libraries (published state) marker state.store.vault.key number
          entropy = .ok loaded ↔
        state.Readable libraries ∧ loaded = recovered := by
  have stored : readArtifact (published state) "sanitized" spineReloadMax =
      .ok state.store.spine.encode :=
    readArtifact_published fits (by simp [artifacts]) (by simp [reloadBounds])
  have short : state.store.spine.encode.length < 2 ^ 32 := by
    have within := fits ("sanitized", spineReloadMax) (by simp [reloadBounds])
      state.store.spine.encode (published_get (by simp [artifacts]))
    simp only [spineReloadMax] at within
    omega
  have spine := Spine.loadTyped_encode sound.store.admitted short
  let fresh := newContextState state.store.vault.key entropy.openedPrefix
  let store := ContextStore.rebuildIndex { fresh.store with spine := state.store.spine }
  have chained := @recoverKernelChain_published _ libraries state
    { fresh with store := store, generation := number } reads fits
  let chain : ContextState :=
    { fresh with store := store, generation := number, kernelChain := state.kernelChain }
  rcases @recoverDurablePolicyArtifacts_published _ libraries state chain reads typed fits sound.cache
    rfl with ⟨restored, accounted, events, cache, unsettled⟩
  have vaulted := @recoverVault_published _ libraries state
    { chain with
      recoveredCheckpoints := some (checkpointLines state)
      policy := restored
      requestPrefixes := state.requestPrefixes } entropy reads typed fits sound.store.minted
  let vault : Vault :=
    ⟨state.store.vault.key, state.store.vault.slots, state.store.vault.next,
      entropy.restoredPrefix⟩
  rcases @recoverManifest_published _ libraries state
    { chain with
      recoveredCheckpoints := some (checkpointLines state)
      policy := restored
      requestPrefixes := state.requestPrefixes
      store := { store with vault := vault } } reads typed fits sound.filters rfl unsettled with
    ⟨settled, manifest, sameEvents, sameCache, outcome⟩
  let recovered : ContextState :=
    { chain with
      recoveredCheckpoints := some (checkpointLines state)
      policy := settled
      requestPrefixes := state.requestPrefixes
      store := { store with vault := vault, mode := state.store.mode }
      filters := state.filters
      quiesce := state.quiesce
      detail := state.detail
      preserved := state.preserved }
  have cacheKept : settled.cache = state.policy.cache := sameCache.trans cache
  have eventsKept : settled.events = state.policy.events := sameEvents.trans events
  have checked : validate libraries recovered = .ok () ↔ state.Readable libraries := by
    rw [validate_eq_ok_iff, readable_congr rfl (vaultGet_congr rfl rfl)]
    refine and_iff_right ?_
    intro branch recorded found
    apply (sound.prefixes branch recorded found).transfer
    · rw [show recovered.policy.cache = state.policy.cache from cacheKept]
      exact keepsEpochs_refl _
    · intro bytes readable
      exact readable
  refine ⟨recovered, ?_, ?_⟩
  · simp only [ContextState.durable, recovered, cacheKept, eventsKept, outcome]
    rfl
  · intro final
    have loaded : (fresh.store.loadSpineTyped state.store.spine.encode).mapError
        (fun error => "context spine corrupt: " ++ SpineLoadError.debug error) = .ok store := by
      rw [mapError_eq_ok, ContextStore.loadSpineTyped, spine]
    rw [← checked]
    simp only [recoverFrom, stored, bind_eq_ok]
    constructor
    · rintro ⟨_, one, _, two, _, three, _, four, _, five, _, accepted, done⟩
      cases Except.ok.inj (loaded.symm.trans one)
      cases Except.ok.inj (chained.symm.trans two)
      cases Except.ok.inj (accounted.symm.trans three)
      cases Except.ok.inj (vaulted.symm.trans four)
      cases Except.ok.inj (manifest.symm.trans five)
      exact ⟨accepted, (Except.ok.inj done).symm⟩
    · rintro ⟨accepted, rfl⟩
      exact ⟨store, loaded, _, chained, _, accounted, _, vaulted, _, manifest, (), accepted, rfl⟩

end RoundTrip

section Acceptance

variable {Request : Type} {libraries : Libraries Request} {dir : Directory}
  {state loaded : ContextState} {key : Bytes}

/-- The parts of a state that are checked before its prefixes. -/
structure Loaded (key : Bytes) (state : ContextState) : Prop where
  store : state.store.Sound
  key : state.store.vault.key = key
  filters : state.filters.Producible
  cache : state.policy.cache.Valid

theorem loaded_newContextState (key : Bytes) (noncePrefix : UInt32) :
    Loaded key (newContextState key noncePrefix) := by
  constructor
  · exact ContextStore.sound_openWith key noncePrefix
  · rfl
  · exact FilterRegistry.producible_new
  · intro index record found
    cases found

theorem Loaded.sound (checked : Loaded key state)
    (backed : ∀ (branch : String) recorded, state.requestPrefixes[branch]? = some recorded →
      Backed libraries state recorded) : state.Sound libraries :=
  ⟨checked.store, checked.filters, checked.cache, backed⟩

theorem Loaded.recoverKernelChain (checked : Loaded key state)
    (accepted : recoverKernelChain libraries dir state = .ok loaded) : Loaded key loaded := by
  rw [Session.recoverKernelChain, bind_eq_ok] at accepted
  rcases accepted with ⟨artifact, _, accepted⟩
  cases artifact with
  | none =>
      cases accepted
      exact checked
  | some bytes =>
      simp only [bind_eq_ok] at accepted
      rcases accepted with ⟨_, _, _, _, _, _, accepted⟩
      cases accepted
      exact ⟨checked.store, checked.key, checked.filters, checked.cache⟩

theorem restoreHistory_valid {controller next : Controller} {events : List PolicyEvent}
    {cache : EpochCache} {time : UInt64}
    (accepted : controller.restoreHistory events cache time = .ok next) : next.cache.Valid := by
  unfold Controller.restoreHistory at accepted
  split at accepted
  · cases accepted
  · rename_i valid
    cases accepted
    exact EpochCache.validate_eq_ok_iff.mp valid

theorem Loaded.recoverDurablePolicyArtifacts (checked : Loaded key state)
    (accepted : recoverDurablePolicyArtifacts libraries dir state = .ok loaded) :
    Loaded key loaded := by
  simp only [Session.recoverDurablePolicyArtifacts, bind_eq_ok, mapError_eq_ok] at accepted
  rcases accepted with ⟨_, _, _, _, _, _, _, _, policy, history, _, _, _, _, accepted⟩
  cases accepted
  exact ⟨checked.store, checked.key, checked.filters, restoreHistory_valid history⟩

theorem Loaded.recoverVault {entropy : Entropy} (checked : Loaded key state)
    (accepted : recoverVault libraries dir entropy state = .ok loaded) : Loaded key loaded := by
  rw [Session.recoverVault, bind_eq_ok] at accepted
  rcases accepted with ⟨artifact, _, accepted⟩
  cases artifact with
  | none =>
      cases accepted
      exact checked
  | some bytes =>
      simp only [bind_eq_ok, mapError_eq_ok] at accepted
      rcases accepted with ⟨_, _, store, restored, accepted⟩
      cases accepted
      rcases checked.store.restoreVault restored with ⟨sound, sameKey⟩
      exact ⟨sound, sameKey.trans checked.key, checked.filters, checked.cache⟩

theorem restoreTerminalOutcome_cache (controller : Controller) (outcome : TerminalLabel)
    (saturated : Option Bool) :
    (controller.restoreTerminalOutcome outcome saturated).cache = controller.cache := by
  unfold Controller.restoreTerminalOutcome
  split <;> rfl

theorem withTerminalOutcome_requestPrefixes (manifest : Manifest) :
    (withTerminalOutcome state manifest).requestPrefixes = state.requestPrefixes := by
  unfold withTerminalOutcome
  split <;> rfl

theorem Loaded.withTerminalOutcome (checked : Loaded key state) (manifest : Manifest) :
    Loaded key (withTerminalOutcome state manifest) := by
  unfold Session.withTerminalOutcome
  split
  · exact checked
  · refine ⟨checked.store, checked.key, checked.filters, ?_⟩
    rw [restoreTerminalOutcome_cache]
    exact checked.cache

theorem Loaded.recoverManifest (checked : Loaded key state)
    (accepted : recoverManifest libraries dir state = .ok loaded) : Loaded key loaded := by
  rw [Session.recoverManifest, bind_eq_ok] at accepted
  rcases accepted with ⟨artifact, _, accepted⟩
  cases artifact with
  | none =>
      cases accepted
      exact checked
  | some bytes =>
      simp only [bind_eq_ok, restoreManifestIntoState, mapError_eq_ok] at accepted
      rcases accepted with ⟨manifest, _, restored, ⟨rules, rulesDone, filters, filtersDone, done⟩,
        accepted⟩
      cases done
      cases accepted
      apply Loaded.withTerminalOutcome
      exact ⟨⟨checked.store.admitted, checked.store.minted⟩, checked.key,
        FilterRegistry.producible_of_restore rulesDone filtersDone, checked.cache⟩

/-- Whatever a recovery accepts is a sound state under the session's key. -/
theorem sound_of_recoverFrom {marker : Option Bytes} {number : Nat} {entropy : Entropy}
    (accepted : recoverFrom libraries dir marker key number entropy = .ok loaded) :
    loaded.Sound libraries ∧ loaded.store.vault.key = key := by
  have fresh := loaded_newContextState key entropy.openedPrefix
  unfold recoverFrom at accepted
  simp only at accepted
  split at accepted
  · unfold recoverQuiesceMarker at accepted
    split at accepted
    · cases accepted
      exact ⟨sound_newContextState key entropy.openedPrefix, rfl⟩
    · simp only [bind_eq_ok] at accepted
      rcases accepted with ⟨manifest, _, accepted⟩
      cases accepted
      have marked : Loaded key
          { newContextState key entropy.openedPrefix with
            quiesce := manifest.quiesce
            detail := manifest.detail } :=
        ⟨fresh.store, fresh.key, fresh.filters, fresh.cache⟩
      have checked := marked.withTerminalOutcome manifest
      refine ⟨checked.sound ?_, checked.key⟩
      intro branch recorded found
      rw [withTerminalOutcome_requestPrefixes] at found
      simp [newContextState] at found
  · cases accepted
  · simp only [bind_eq_ok, mapError_eq_ok] at accepted
    rcases accepted with ⟨store, spine, chained, chainDone, accounted, accountDone, vaulted,
      vaultDone, state, manifestDone, _, valid, done⟩
    cases done
    rcases fresh.store.loadSpineTyped spine with ⟨storeSound, sameVault⟩
    have begun : Loaded key
        { newContextState key entropy.openedPrefix with store := store, generation := number } :=
      ⟨storeSound, by rw [sameVault]; exact fresh.key, fresh.filters, fresh.cache⟩
    have checked := (((begun.recoverKernelChain chainDone).recoverDurablePolicyArtifacts
      accountDone).recoverVault vaultDone).recoverManifest manifestDone
    exact ⟨checked.sound (validate_eq_ok_iff.mp valid).1, checked.key⟩

end Acceptance

section Exactness

variable {Request : Type} {libraries : Libraries Request} {dir : Directory} {state : ContextState}
  {name context : String} {bytes : Bytes} {bound : Nat}

theorem le_of_readArtifact (found : dir[name]? = some bytes) {result : Bytes}
    (read : readArtifact dir name bound = .ok result) : bytes.length ≤ bound := by
  unfold readArtifact at read
  rw [found] at read
  simp only at read
  split at read
  · cases read
  · rename_i within
    exact Nat.le_of_not_lt within

/-- A present artifact that an optional read accepts is within its bound. -/
theorem le_of_readOptional (found : dir[name]? = some bytes) {result : Option Bytes}
    (read : readOptional dir name bound context = .ok result) : bytes.length ≤ bound := by
  unfold readOptional at read
  split at read
  · rename_i accepted
    exact le_of_readArtifact found accepted
  · rename_i missing
    unfold readArtifact at missing
    rw [found] at missing
    simp only at missing
    split at missing
    · cases missing
    · cases missing
  · cases read

theorem le_of_readRequired (found : dir[name]? = some bytes) {result : Bytes}
    (read : readRequired dir name bound context = .ok result) : bytes.length ≤ bound := by
  rw [readRequired, mapError_eq_ok] at read
  exact le_of_readArtifact found read

/-- A recovery of published artifacts succeeds only within the read bounds. -/
theorem fits_of_recoverFrom {marker : Option Bytes} {key : Bytes} {number : Nat}
    {entropy : Entropy} {loaded : ContextState}
    (accepted : recoverFrom libraries (published state) marker key number entropy = .ok loaded) :
    Fits (published state) := by
  have found : ∀ artifact ∈ artifacts state,
      (published state)[artifact.1]? = some artifact.2 := fun _ member => published_get member
  simp only [artifacts, List.forall_mem_cons, List.not_mem_nil, false_implies, implies_true,
    and_true] at found
  rcases found with ⟨spine, vault, events, checkpoints, epochs, prefixes, chain, manifest⟩
  unfold recoverFrom at accepted
  simp only at accepted
  split at accepted
  · rename_i missing
    unfold readArtifact at missing
    rw [spine] at missing
    simp only at missing
    split at missing
    · cases missing
    · cases missing
  · cases accepted
  · rename_i spineRead
    simp only [bind_eq_ok, recoverKernelChain, recoverDurablePolicyArtifacts, recoverEvents,
      recoverVault, recoverManifest] at accepted
    rcases accepted with ⟨_, _, _, ⟨_, chainRead, _⟩, _,
      ⟨_, checkpointsRead, _, ⟨_, eventsRead, _⟩, _, epochsRead, _, _, _, _, _, prefixesRead, _⟩, _,
      ⟨_, vaultRead, _⟩, _, ⟨_, manifestRead, _⟩, _⟩
    have within : ∀ bound ∈ reloadBounds, ∃ bytes, (published state)[bound.1]? = some bytes ∧
        bytes.length ≤ bound.2 := by
      simp only [reloadBounds, List.forall_mem_cons, List.not_mem_nil, false_implies, implies_true,
        and_true]
      exact ⟨⟨_, spine, le_of_readArtifact spine spineRead⟩,
        ⟨_, vault, le_of_readOptional vault vaultRead⟩,
        ⟨_, events, le_of_readOptional events eventsRead⟩,
        ⟨_, checkpoints, le_of_readOptional checkpoints checkpointsRead⟩,
        ⟨_, epochs, le_of_readRequired epochs epochsRead⟩,
        ⟨_, prefixes, le_of_readRequired prefixes prefixesRead⟩,
        ⟨_, chain, le_of_readOptional chain chainRead⟩,
        ⟨_, manifest, le_of_readOptional manifest manifestRead⟩⟩
    intro bound listed bytes present
    rcases within bound listed with ⟨stored, isStored, short⟩
    cases isStored.symm.trans present
    exact short

end Exactness

end Llxprt.Session
