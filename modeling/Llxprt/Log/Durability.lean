import Llxprt.Log.Artifacts
import Llxprt.Log.Tails

/-!
# The durable log

The current recovery set holds the whole history: the older events in its snapshot,
the recent ones in its segment, and perhaps the torn beginning of a further frame.
Loading, catching up, appending and sealing take one such set to another, and every
disk that a cut of them leaves is one of the two.
-/

namespace Llxprt.Log

open Llxprt.Kernel Llxprt.Kernel.Recorded Llxprt.Rust Llxprt.Rust.Files

section Cursors

variable {τ κ : Type} [Recorded τ] [Recorded κ]
  {events : List (Event τ κ)} {left right cursor : ReplayCursor}

/-- The start of every log. -/
def origin : ReplayCursor :=
  ⟨0, 0, firstDigest, 0⟩

/-- The start of the segment that is opened at a cursor. -/
def ReplayCursor.opened (cursor : ReplayCursor) : ReplayCursor :=
  { cursor with offset := 0, events := 0 }

/-- The chain depends on the sequence number and the digest alone. -/
theorem behind_congr (seq : left.seq = right.seq) (digest : left.digest = right.digest) :
    (left.behind events).seq = (right.behind events).seq ∧
      (left.behind events).digest = (right.behind events).digest := by
  induction events generalizing left right with
  | nil => exact ⟨seq, digest⟩
  | cons event events ih =>
      apply ih
      · simp [ReplayCursor.advance, seq]
      · simp [ReplayCursor.advance, seq, digest]

theorem seq_origin (few : events.length < counterEnd) :
    (origin.behind events).seq.toNat = events.length := by
  have start : origin.seq.toNat = 0 := rfl
  rw [toNat_seq_behind (by omega), start, Nat.zero_add]

theorem chained_origin : (origin.behind events).digest.length = digestLen :=
  digest_behind List.length_replicate

end Cursors

section Reading

variable {τ κ : Type} [Recorded τ] [Recorded κ] {codec : Codec τ κ} {checks : Checks τ κ}
  {first : SessionState τ κ} {history more : List (Event τ κ)}

/-- What the store writes for a history is read back: the manifests, the frames of
its events, and the snapshots of the states along it.  The reader of JSON gives up
on documents that nest too deep. -/
structure Codec.Faithful (codec : Codec τ κ) (checks : Checks τ κ) (first : SessionState τ κ)
    (history : List (Event τ κ)) : Prop where
  manifest : ∀ value, codec.manifest (serialize value) = some value
  batch : ∀ event ∈ history, codec.batch (serialize (batchOf [event])) = some (batchOf [event])
  snapshot : ∀ before state, before <+: history → replayed checks first before = .ok state →
    ∀ seq digest, digest.length = digestLen →
      codec.snapshot (serialize (snapshotOf state seq digest)) =
        some (snapshotOf state seq digest)

end Reading

section Holdings

/-- What a recovery set holds: the events behind its snapshot and those of its
segment, and the states after them. -/
structure Holding (τ κ : Type) where
  manifest : Manifest
  older : List (Event τ κ)
  recent : List (Event τ κ)
  base : SessionState τ κ
  state : SessionState τ κ

/-- A set of an earlier generation. -/
def RecoverySet.Retained (set : RecoverySet) (generation : UInt64) : Prop :=
  set.Short ∧ ∃ earlier seq place, earlier < generation ∧ set.snapshot = snapshotName earlier seq ∧
    set.segment = segmentName earlier place

variable {τ κ : Type} [Recorded τ] [Recorded κ] (checks : Checks τ κ) (first : SessionState τ κ)
  (holding : Holding τ κ)

def Holding.history : List (Event τ κ) :=
  holding.older ++ holding.recent

/-- The cursor at the start of the segment. -/
def Holding.start : ReplayCursor :=
  (origin.behind holding.older).opened

/-- The cursor behind the segment. -/
def Holding.cursor : ReplayCursor :=
  holding.start.behind holding.recent

def Holding.frames : Bytes :=
  framesFrom holding.start holding.recent

def Holding.snapshotBytes : Bytes :=
  serialize (snapshotOf holding.base holding.start.seq holding.start.digest)

/-- What a handle holds that has reached the end. -/
def Holding.loaded (identity : Nat) (repaired : Bool) : LoadedStore τ κ :=
  ⟨holding.manifest, holding.state, holding.cursor, identity, repaired⟩

/-- The set describes itself, and its events were accepted. -/
structure Holding.Sound : Prop where
  version : holding.manifest.formatVersion = formatVersion
  current : holding.manifest.current = openedSet holding.manifest.generation holding.start.seq
    (fullDigest holding.snapshotBytes)
  previous : ∀ set, holding.manifest.previous = some set →
    set.Retained holding.manifest.generation
  based : replayed checks first holding.older = .ok holding.base
  reached : replayed checks holding.base holding.recent = .ok holding.state
  readable : checkLogicalRead checks holding.base = .ok ()
  fits : ∀ event ∈ holding.recent, Fits [event]
  paced : holding.manifest.generation.toNat ≤ holding.older.length
  numbered : holding.history.length + 1 < counterEnd
  sized : holding.frames.length ≤ segmentCap

/-- The files of the set, with a torn frame behind the segment. -/
structure Holding.On (tail : Bytes) (disk : Disk) : Prop where
  published : disk.file manifestName = some (serialize holding.manifest)
  snapshot : disk.file holding.manifest.current.snapshot = some holding.snapshotBytes
  segment : disk.file holding.manifest.current.segment = some (holding.frames ++ tail)
  torn : Torn holding.cursor tail
  ahead : ∀ generation seq, holding.manifest.generation < generation →
    disk.entries (segmentName generation seq) ≠ none → seq.toNat ≤ holding.history.length + 1

/-- What a handle has cached: a set that was replaced, or a part of this one. -/
def Holding.FollowedBy (disk : Disk) (loaded : LoadedStore τ κ) : Prop :=
  loaded.manifest.generation < holding.manifest.generation ∨
    (loaded.manifest = holding.manifest ∧
      disk.entries holding.manifest.current.segment = some loaded.segmentIdentity ∧
      ∃ seen rest, holding.recent = seen ++ rest ∧ loaded.cursor = holding.start.behind seen ∧
        replayed checks holding.base seen = .ok loaded.state)

end Holdings

section Facts

variable {τ κ : Type} [Recorded τ] [Recorded κ] {checks : Checks τ κ} {first : SessionState τ κ}
  {holding : Holding τ κ} {tail : Bytes} {disk after : Disk} {names : List String}

theorem checkLogicalWrite_eq_ok {state : SessionState τ κ} :
    checkLogicalWrite checks state = .ok () ↔ checkLogicalRead checks state = .ok () := by
  simp only [checkLogicalWrite, checkLogicalRead, bind_eq_ok, reject_eq_ok]

theorem checkLogicalRead_eq_ok {state : SessionState τ κ} :
    checkLogicalRead checks state = .ok () ↔
      state.validate checks = .ok () ∧ (serialize state).length ≤ maxSessionBytes := by
  simp only [checkLogicalRead, bind_eq_ok, reject_eq_ok, Nat.not_lt]
  constructor
  · rintro ⟨_, valid, small⟩
    exact ⟨valid, small⟩
  · rintro ⟨valid, small⟩
    exact ⟨(), valid, small⟩

namespace Holding

theorem Sound.history_replayed (sound : holding.Sound checks first) :
    replayed checks first holding.history = .ok holding.state :=
  replayed_append.mpr ⟨_, sound.based, sound.reached⟩

theorem chained_start : holding.start.digest.length = digestLen :=
  chained_origin

theorem Sound.seq_start (sound : holding.Sound checks first) :
    holding.start.seq.toNat = holding.older.length := by
  have numbered := sound.numbered
  rw [history, List.length_append] at numbered
  exact seq_origin (by omega)

theorem Sound.seq_cursor (sound : holding.Sound checks first) :
    holding.cursor.seq.toNat = holding.history.length := by
  have numbered := sound.numbered
  have start := sound.seq_start
  rw [history, List.length_append] at numbered ⊢
  rw [cursor, toNat_seq_behind (by omega), start]

theorem chain_cursor : holding.cursor.seq = (origin.behind holding.history).seq ∧
    holding.cursor.digest = (origin.behind holding.history).digest := by
  rw [history, behind_append]
  exact behind_congr rfl rfl

theorem offset_cursor : holding.cursor.offset = holding.frames.length := by
  have start : holding.start.offset = 0 := rfl
  rw [cursor, offset_behind, start, Nat.zero_add, frames]

theorem events_cursor : holding.cursor.events = holding.recent.length := by
  have start : holding.start.events = 0 := rfl
  rw [cursor, events_behind, start, Nat.zero_add]

theorem Sound.framed (sound : holding.Sound checks first) :
    Framed holding.start holding.recent where
  chained := chained_start
  fits := sound.fits
  numbered := by
    have numbered := sound.numbered
    rw [history, List.length_append] at numbered
    rw [sound.seq_start]
    omega
  counted := by
    have numbered := sound.numbered
    have start : holding.start.events = 0 := rfl
    rw [history, List.length_append] at numbered
    omega
  placed := by
    have sized := sound.sized
    have small : segmentCap < counterEnd := by decide
    have start : holding.start.offset = 0 := rfl
    rw [frames] at sized
    omega

theorem Sound.valid (sound : holding.Sound checks first) : holding.state.validate checks = .ok () :=
  validate_replayed (checkLogicalRead_eq_ok.mp sound.readable).1 sound.reached

theorem Sound.snapshot_eq (sound : holding.Sound checks first) :
    holding.manifest.current.snapshot =
      snapshotName holding.manifest.generation holding.start.seq := by
  rw [sound.current, openedSet]

theorem Sound.segment_eq (sound : holding.Sound checks first) :
    holding.manifest.current.segment = segmentName holding.manifest.generation
      (saturatingIncrement holding.start.seq) := by
  rw [sound.current, openedSet]

/-- Files of other names do not matter. -/
theorem On.same (on : holding.On tail disk) (same : Disk.Same names disk after)
    (published : manifestName ∉ names) (snapshot : holding.manifest.current.snapshot ∉ names)
    (segment : holding.manifest.current.segment ∉ names)
    (ahead : ∀ generation seq, holding.manifest.generation < generation →
      segmentName generation seq ∈ names → seq.toNat ≤ holding.history.length + 1) :
    holding.On tail after where
  published := (same.file_eq published).trans on.published
  snapshot := (same.file_eq snapshot).trans on.snapshot
  segment := (same.file_eq segment).trans on.segment
  torn := on.torn
  ahead generation seq later present := by
    by_cases named : segmentName generation seq ∈ names
    · exact ahead generation seq later named
    · rw [(same _ named).1] at present
      exact on.ahead generation seq later present

theorem FollowedBy.same {loaded : LoadedStore τ κ}
    (followed : holding.FollowedBy checks disk loaded)
    (same : after.entries holding.manifest.current.segment =
      disk.entries holding.manifest.current.segment) :
    holding.FollowedBy checks after loaded := by
  rcases followed with older | ⟨manifest, identity, seen⟩
  · exact .inl older
  · exact .inr ⟨manifest, same.trans identity, seen⟩

end Holding

end Facts

section Loading

variable {τ κ : Type} [Recorded τ] [Recorded κ] {checks : Checks τ κ} {codec : Codec τ κ}
  {first : SessionState τ κ} {holding : Holding τ κ}
  {tail : Bytes} {disk : Disk} {file : Nat} {crash : Disk → Prop}

theorem short_of_retained {set : RecoverySet} {generation : UInt64}
    (retained : set.Retained generation) :
    set.Short ∧ badName set.snapshot = false ∧ badName set.segment = false := by
  rcases retained with ⟨short, earlier, seq, place, _, snapshot, segment⟩
  rw [snapshot, segment]
  exact ⟨short, badName_snapshotName, badName_segmentName⟩

namespace Holding

theorem Sound.length_manifest (sound : holding.Sound checks first) :
    (serialize holding.manifest).length ≤ manifestCap := by
  apply length_manifest_le
  · rw [sound.current]
    exact short_openedSet _ _ _
  · exact fun set found => (short_of_retained (sound.previous set found)).1

theorem Sound.names (sound : holding.Sound checks first) :
    ∀ name ∈ holding.manifest.names, badName name = false := by
  intro name member
  rw [Manifest.names, List.flatMap_cons, List.mem_append] at member
  rcases member with current | previous
  · rw [sound.current, openedSet, List.mem_cons, List.mem_singleton] at current
    rcases current with rfl | rfl
    · exact badName_snapshotName
    · exact badName_segmentName
  · rw [List.mem_flatMap] at previous
    rcases previous with ⟨set, inside, named⟩
    rcases short_of_retained (sound.previous set (Option.mem_toList.mp inside)) with
      ⟨_, snapshot, segment⟩
    rw [List.mem_cons, List.mem_singleton] at named
    rcases named with rfl | rfl
    · exact snapshot
    · exact segment

theorem Sound.parseManifest (sound : holding.Sound checks first)
    (faithful : codec.Faithful checks first holding.history) :
    Log.parseManifest codec (serialize holding.manifest) = .ok holding.manifest := by
  have named : ¬ holding.manifest.names.any badName = true := by
    rw [Bool.not_eq_true, List.any_eq_false]
    intro name member
    rw [sound.names name member]
    exact Bool.false_ne_true
  simp only [Log.parseManifest, bind_eq_ok, okOr_eq_ok, reject_eq_ok, pure_eq_ok, exists_const]
  exact ⟨_, faithful.manifest _, not_not.mpr sound.version, named, rfl⟩

theorem Sound.parseSnapshot (sound : holding.Sound checks first)
    (faithful : codec.Faithful checks first holding.history) :
    Log.parseSnapshot checks codec holding.manifest.current holding.snapshotBytes =
      .ok (snapshotOf holding.base holding.start.seq holding.start.digest) := by
  simp only [Log.parseSnapshot, bind_eq_ok, okOr_eq_ok, reject_eq_ok, pure_eq_ok, exists_const]
  rw [sound.current]
  refine ⟨not_not.mpr rfl, _, faithful.snapshot holding.older holding.base
    (List.prefix_append _ _) sound.based _ _ chained_start, ?_, _, sound.readable, rfl⟩
  simp [snapshotOf, openedSet]

theorem On.readManifest_goes (on : holding.On tail disk) (sound : holding.Sound checks first)
    (faithful : codec.Faithful checks first holding.history) (recoverable : crash disk) :
    Goes crash (readManifest codec).run disk (.ok (some holding.manifest)) disk := by
  apply Goes.andThen (readOptional_goes on.published sound.length_manifest recoverable)
  apply Goes.andThen (Goes.liftOk (sound.parseManifest faithful) recoverable)
  exact Goes.pure recoverable

/-- The segment with other bytes behind its snapshot. -/
theorem On.stored (on : holding.On tail disk) (sound : holding.Sound checks first)
    (entry : disk.entries holding.manifest.current.segment = some file)
    {other : Holding τ κ} {rest : Bytes} (manifest : other.manifest = holding.manifest)
    (snapshot : other.snapshotBytes = holding.snapshotBytes)
    (longer : holding.history.length ≤ other.history.length) (torn : Torn other.cursor rest) :
    other.On rest (disk.store file (other.frames ++ rest)) := by
  have same : Disk.Same [holding.manifest.current.segment] disk
      (disk.store file (other.frames ++ rest)) := Disk.same_store entry
  constructor
  · rw [manifest]
    apply (same.file_eq _).trans on.published
    rw [List.mem_singleton, sound.segment_eq]
    exact ne_of_initials (by simp)
  · rw [manifest, snapshot]
    apply (same.file_eq _).trans on.snapshot
    rw [List.mem_singleton, sound.segment_eq, sound.snapshot_eq]
    exact ne_of_initials (by simp)
  · rw [manifest]
    exact Disk.file_store entry
  · exact torn
  · rw [manifest]
    intro generation seq newer present
    exact Nat.le_trans (on.ahead generation seq newer present) (Nat.succ_le_succ longer)

/-- The segment without the torn frame. -/
theorem On.mended (on : holding.On tail disk) (sound : holding.Sound checks first)
    (entry : disk.entries holding.manifest.current.segment = some file) :
    holding.On [] (disk.store file holding.frames) := by
  have stored := on.stored sound entry rfl rfl (Nat.le_refl _) (.inl rfl)
  rw [List.append_nil] at stored
  exact stored

/-- A whole segment is written over with itself. -/
theorem On.store_frames (on : holding.On [] disk)
    (entry : disk.entries holding.manifest.current.segment = some file) :
    disk.store file holding.frames = disk := by
  rcases entries_of_file on.segment with ⟨other, found, contents⟩
  rw [entry] at found
  rw [List.append_nil] at contents
  cases found
  rw [← contents, Disk.store, Function.update_eq_self]

/-- Replay from anywhere in the segment reaches its end and cuts the torn frame off. -/
theorem On.replay_goes (on : holding.On tail disk) (sound : holding.Sound checks first)
    (decodes : ∀ event ∈ holding.history,
      codec.batch (serialize (batchOf [event])) = some (batchOf [event]))
    (entry : disk.entries holding.manifest.current.segment = some file)
    {seen rest : List (Event τ κ)} (parts : holding.recent = seen ++ rest)
    {state : SessionState τ κ}
    (reached : replayed checks holding.base seen = .ok state)
    (room : (holding.frames ++ tail).length ≤ maxReplayBytes) (recoverable : crash disk)
    (mended : crash (disk.store file holding.frames)) :
    Goes crash
      (replayReadMode checks codec.batch file state (holding.start.behind seen) true true).run disk
      (.ok (holding.state, holding.cursor, decide (tail ≠ [])))
      (disk.store file holding.frames) := by
  have framed := sound.framed
  have accepted := sound.reached
  rw [parts] at framed accepted
  rcases replayed_append.mp accepted with ⟨middle, before, others⟩
  have same : middle = state := Except.ok.inj (before.symm.trans reached)
  rw [same] at others
  have split : holding.frames =
      framesFrom holding.start seen ++ framesFrom (holding.start.behind seen) rest := by
    rw [frames, parts, framesFrom_append]
  have ends : (holding.start.behind seen).behind rest = holding.cursor := by
    rw [cursor, parts, behind_append]
  have contents : disk.contents file = holding.frames ++ tail := by
    rcases entries_of_file on.segment with ⟨other, found, held⟩
    rw [entry] at found
    exact Option.some.inj found ▸ held
  have torn := on.torn
  rw [← ends] at torn
  have placed : (holding.start.behind seen).offset = (framesFrom holding.start seen).length := by
    have start : holding.start.offset = 0 := rfl
    rw [offset_behind, start, Nat.zero_add]
  have reads : Goes crash (readReplayBytes file (holding.start.behind seen)).run disk
      (.ok (framesFrom (holding.start.behind seen) rest ++ tail)) disk := by
    apply readReplayBytes_goes _ placed _ recoverable
    · rw [contents, split, List.append_assoc]
    · rw [split, List.append_assoc, List.length_append] at room
      omega
  have scanned := scan_framesFrom_torn
    (fun event member => decodes event
      (List.mem_append_right _ (parts ▸ List.mem_append_right _ member)))
    framed.append_right others torn
  rw [ends] at scanned
  have settled : Goes crash
      (settleTail (decide (tail ≠ [])) file holding.cursor.offset true true).run disk
      (.ok (decide (tail ≠ []))) (disk.store file holding.frames) := by
    by_cases ended : tail = []
    · rw [ended] at on
      rw [on.store_frames entry]
      simp only [ended, ne_eq, not_true_eq_false, decide_false]
      exact Goes.pure recoverable
    · have cut : (Op.truncate file holding.cursor.offset).perform disk =
          (.ok (), disk.store file holding.frames) := by
        change (Except.ok (), disk.store file _) = _
        rw [contents, resize, offset_cursor, List.take_left' rfl]
        simp
      simp only [ended, ne_eq, not_false_eq_true, decide_true]
      apply Goes.andThen (Goes.liftOk rfl recoverable)
      apply Goes.andThen (Goes.ask cut (fun _ => recoverable) mended)
      apply Goes.andThen (Goes.ask rfl (fun _ => mended) mended)
      exact Goes.pure mended
  apply Goes.andThen reads
  apply Goes.andThen (Goes.liftOk scanned recoverable)
  apply Goes.andThen settled
  apply Goes.andThen (Goes.liftOk sound.valid mended)
  exact Goes.pure mended

theorem Sound.length_snapshotBytes (sound : holding.Sound checks first) :
    holding.snapshotBytes.length ≤ snapshotCap := by
  have chained := @chained_start _ _ _ _ holding
  have little := length_snapshot_le holding.base holding.start.seq chained
  have state := (checkLogicalRead_eq_ok.mp sound.readable).2
  exact Nat.le_trans little (Nat.add_le_add_right state 4096)

theorem On.loadSet_goes (on : holding.On tail disk) (sound : holding.Sound checks first)
    (faithful : codec.Faithful checks first holding.history)
    (entry : disk.entries holding.manifest.current.segment = some file)
    (room : (holding.frames ++ tail).length ≤ maxReplayBytes) (recoverable : crash disk)
    (mended : crash (disk.store file holding.frames)) :
    Goes crash (loadSet checks codec holding.manifest holding.manifest.current true).run disk
      (.ok (holding.loaded file (decide (tail ≠ [])))) (disk.store file holding.frames) := by
  have consistent : reject (holding.manifest.formatVersion ≠ formatVersion ∨
      (holding.manifest.current.baseSeq ≠ holding.manifest.current.lastSeq ∧ true = true))
      (StoreError.corrupt "unsupported or inconsistent session manifest") = .ok () := by
    rw [reject_eq_ok, sound.current]
    simp [sound.version, openedSet]
  have unsealed :
      Goes crash (checkSealed holding.manifest.current true).run disk (.ok ()) disk := by
    rw [sound.current]
    exact Goes.lift recoverable
  have parts : holding.recent = [] ++ holding.recent := rfl
  have unread : replayed checks holding.base ([] : List (Event τ κ)) =
      .ok holding.base := rfl
  have replays := on.replay_goes sound faithful.batch entry parts unread room recoverable mended
  unfold loadSet loadSetMode
  apply Goes.andThen (Goes.liftOk consistent recoverable)
  apply Goes.andThen (readArtifact_goes on.snapshot sound.length_snapshotBytes recoverable)
  apply Goes.andThen (Goes.liftOk (sound.parseSnapshot faithful) recoverable)
  apply Goes.andThen (Goes.ask (openFile_performs entry) (fun _ => recoverable) recoverable)
  apply Goes.andThen unsealed
  apply Goes.andThen (Goes.ask rfl (fun _ => recoverable) recoverable)
  apply Goes.andThen replays
  apply Goes.andThen (Goes.liftOk rfl mended)
  exact Goes.pure mended

theorem On.loadState_goes (on : holding.On tail disk) (sound : holding.Sound checks first)
    (faithful : codec.Faithful checks first holding.history)
    (entry : disk.entries holding.manifest.current.segment = some file)
    (room : (holding.frames ++ tail).length ≤ maxReplayBytes) (recoverable : crash disk)
    (mended : crash (disk.store file holding.frames)) (sessionId : String) :
    Goes crash (loadState checks codec sessionId).run disk
      (.ok (holding.loaded file (decide (tail ≠ [])))) (disk.store file holding.frames) :=
  Goes.andThen (on.readManifest_goes sound faithful recoverable)
    (Goes.tryCatch (on.loadSet_goes sound faithful entry room recoverable mended) mended)

/-- A handle that catches up reaches the end of the log. -/
theorem On.catchUp_goes (on : holding.On tail disk) (sound : holding.Sound checks first)
    (faithful : codec.Faithful checks first holding.history)
    (entry : disk.entries holding.manifest.current.segment = some file)
    (room : (holding.frames ++ tail).length ≤ maxReplayBytes) (recoverable : crash disk)
    (mended : crash (disk.store file holding.frames)) {loaded : LoadedStore τ κ}
    (followed : holding.FollowedBy checks disk loaded) :
    ∃ repaired, Goes crash (catchUp checks codec loaded).run disk
      (.ok (holding.loaded file repaired)) (disk.store file holding.frames) := by
  have published := on.readManifest_goes sound faithful recoverable
  rcases followed with older | ⟨manifest, identity, seen, rest, parts, place, reached⟩
  · have apart : holding.manifest.generation ≠ loaded.manifest.generation ∨
        holding.manifest.current.segment ≠ loaded.manifest.current.segment :=
      .inl (UInt64.ne_of_lt older).symm
    refine ⟨decide (tail ≠ []),
      Goes.andThen published (Goes.andThen (Goes.liftOk rfl recoverable) ?_)⟩
    rw [if_pos apart]
    exact on.loadState_goes sound faithful entry room recoverable mended _
  · have equal : ¬ (holding.manifest.generation ≠ loaded.manifest.generation ∨
        holding.manifest.current.segment ≠ loaded.manifest.current.segment) := by
      simp [manifest]
    have known : file = loaded.segmentIdentity := Option.some.inj (entry.symm.trans identity)
    have replays := on.replay_goes sound faithful.batch entry parts reached room recoverable mended
    rw [← place] at replays
    refine ⟨loaded.repairedTail || decide (tail ≠ []),
      Goes.andThen published (Goes.andThen (Goes.liftOk rfl recoverable) ?_)⟩
    rw [if_neg equal]
    apply Goes.andThen (Goes.ask (openFile_performs entry) (fun _ => recoverable) recoverable)
    apply Goes.andThen (Goes.ask rfl (fun _ => recoverable) recoverable)
    rw [if_neg (not_not.mpr known)]
    subst known
    apply Goes.tryCatch _ mended
    apply Goes.andThen replays
    rw [Holding.loaded, ← manifest]
    exact Goes.pure mended

end Holding

end Loading

section Appending

variable {τ κ : Type} [Recorded τ] [Recorded κ]

/-- What the store checks of an event, whatever its files are. -/
def acceptEvent (checks : Checks τ κ) (state : SessionState τ κ) (event : Event τ κ) :
    Except StoreError (SessionState τ κ) := do
  reject (maxFramePayload < (serialize (batchOf [event])).length)
    (.invalid "session transaction exceeds the frame byte cap")
  let candidate ← applyBatch checks state (batchOf [event])
  checkLogicalWrite checks candidate
  pure candidate

/-- The bytes that an event takes in a segment. -/
def frameSize (event : Event τ κ) : Nat :=
  headerLen + (serialize (batchOf [event])).length + digestLen

/-- The frame of an event behind the set. -/
def Holding.frame (holding : Holding τ κ) (event : Event τ κ) : EncodedFrame τ κ :=
  ⟨frameBytes (holding.cursor.seq + 1) holding.cursor.digest [event],
    frameDigest (holding.cursor.seq + 1) holding.cursor.digest [event], batchOf [event]⟩

/-- The set with one more event in its segment. -/
def Holding.extended (holding : Holding τ κ) (event : Event τ κ) (state : SessionState τ κ) :
    Holding τ κ :=
  { holding with recent := holding.recent ++ [event], state := state }

variable {checks : Checks τ κ} {codec : Codec τ κ}
  {first later : SessionState τ κ} {holding : Holding τ κ}
  {event : Event τ κ} {disk : Disk} {file : Nat} {crash : Disk → Prop}

theorem acceptEvent_eq_ok {state : SessionState τ κ} :
    acceptEvent checks state event = .ok later ↔ Fits [event] ∧
      applyBatch checks state (batchOf [event]) = .ok later ∧
      checkLogicalWrite checks later = .ok () := by
  simp only [acceptEvent, bind_eq_ok, reject_eq_ok, pure_eq_ok, Nat.not_lt, exists_const, Fits]
  constructor
  · rintro ⟨fits, candidate, applied, _, write, rfl⟩
    exact ⟨fits, applied, write⟩
  · rintro ⟨fits, applied, write⟩
    exact ⟨fits, later, applied, (), write, rfl⟩

namespace Holding

omit [Recorded τ] [Recorded κ] in
theorem history_extended : (holding.extended event later).history = holding.history ++ [event] := by
  rw [history, history, List.append_assoc]
  rfl

theorem cursor_extended : (holding.extended event later).cursor = holding.cursor.advance event := by
  change holding.start.behind (holding.recent ++ [event]) = _
  rw [behind_append]
  rfl

theorem frames_extended :
    (holding.extended event later).frames = holding.frames ++ (holding.frame event).bytes := by
  change framesFrom holding.start (holding.recent ++ [event]) = _
  rw [framesFrom_append, framesFrom, framesFrom, List.append_nil]
  rfl

theorem chained_cursor : holding.cursor.digest.length = digestLen :=
  digest_behind chained_start

theorem length_frame : (holding.frame event).bytes.length = frameSize event :=
  length_frameBytes chained_cursor

theorem length_extended :
    (holding.extended event later).frames.length = holding.frames.length + frameSize event := by
  rw [frames_extended, List.length_append, length_frame]

theorem Sound.extended (sound : holding.Sound checks first)
    (admitted : acceptEvent checks holding.state event = .ok later)
    (numbered : holding.history.length + 2 < counterEnd)
    (sized : (holding.extended event later).frames.length ≤ segmentCap) :
    (holding.extended event later).Sound checks first := by
  rcases acceptEvent_eq_ok.mp admitted with ⟨fits, applied, _⟩
  constructor
  · exact sound.version
  · exact sound.current
  · exact sound.previous
  · exact sound.based
  · exact replayed_append.mpr ⟨_, sound.reached, replayed_cons.mpr ⟨_, applied, rfl⟩⟩
  · exact sound.readable
  · exact List.forall_mem_append.mpr ⟨sound.fits, List.forall_mem_singleton.mpr fits⟩
  · exact sound.paced
  · rw [history_extended, List.length_append, List.length_singleton]
    omega
  · exact sized

/-- What is checked of a frame is what is checked of its event. -/
theorem Sound.prepareFrame (sound : holding.Sound checks first)
    (numbered : holding.history.length + 2 < counterEnd)
    (placed : holding.frames.length + frameSize event < counterEnd) {repaired : Bool} :
    Log.prepareFrame checks (holding.loaded file repaired) [event] =
      (acceptEvent checks holding.state event).map fun later =>
        (holding.frame event, (holding.extended event later).loaded file repaired) := by
  have next : checkedIncrement holding.cursor.seq = some (holding.cursor.seq + 1) := by
    apply checkedIncrement_of_lt
    rw [sound.seq_cursor]
    omega
  have few : holding.recent.length ≤ holding.history.length := by
    rw [history, List.length_append]
    omega
  have offset : ¬ counterEnd ≤ holding.cursor.offset + (holding.frame event).bytes.length := by
    rw [offset_cursor, length_frame]
    omega
  have count : ¬ counterEnd ≤ holding.cursor.events + 1 := by
    rw [events_cursor]
    omega
  by_cases fits : Fits [event]
  · have encodes : encodeFrame (holding.cursor.seq + 1) holding.cursor.digest [event] =
        .ok (holding.frame event) := encodeFrame_eq_ok.mpr ⟨fits, rfl⟩
    have batch : (holding.frame event).batch = batchOf [event] := rfl
    have small : reject (maxFramePayload < (serialize (batchOf [event])).length)
        (StoreError.invalid "session transaction exceeds the frame byte cap") = .ok () :=
      reject_eq_ok.mpr (Nat.not_lt.mpr fits)
    cases applied : applyBatch checks holding.state (batchOf [event]) with
    | error error =>
        simp only [Log.prepareFrame, acceptEvent, Holding.loaded, next, okOr, encodes, batch, small,
          applied, bind, Except.bind, Except.map]
    | ok later =>
        cases written : checkLogicalWrite checks later with
        | error error =>
            simp only [Log.prepareFrame, acceptEvent, Holding.loaded, next, okOr, encodes, batch,
              small, applied, written, bind, Except.bind, Except.map]
        | ok _ =>
            have admitted : acceptEvent checks holding.state event = .ok later :=
              acceptEvent_eq_ok.mpr ⟨fits, applied, written⟩
            rw [admitted, Except.map, Holding.loaded, Holding.loaded, cursor_extended]
            simp only [Log.prepareFrame, bind_eq_ok, okOr_eq_ok, reject_eq_ok, pure_eq_ok]
            exact ⟨_, next, _, encodes, later, applied, (), written, (), offset, (), count, rfl⟩
  · have large : reject (maxFramePayload < (serialize (batchOf [event])).length)
        (StoreError.invalid "session transaction exceeds the frame byte cap") =
        .error (.invalid "session transaction exceeds the frame byte cap") :=
      if_pos (Nat.not_le.mp fits)
    have encodes : encodeFrame (holding.cursor.seq + 1) holding.cursor.digest [event] =
        .error (.invalid "session transaction exceeds the frame byte cap") := by
      unfold encodeFrame
      simp only [large, bind, Except.bind]
    simp only [Log.prepareFrame, acceptEvent, Holding.loaded, next, okOr, encodes, large, bind,
      Except.bind, Except.map]

end Holding

end Appending

section Writing

variable {τ κ : Type} [Recorded τ] [Recorded κ] {checks : Checks τ κ} {codec : Codec τ κ}
  {first later : SessionState τ κ} {holding : Holding τ κ}
  {event : Event τ κ} {disk : Disk} {file : Nat} {crash : Disk → Prop}

theorem overwrite_end (old bytes : Bytes) : overwrite old old.length bytes = old ++ bytes := by
  simp [overwrite]

namespace Holding

/-- Behind a written frame the segment holds one event more. -/
theorem On.extended (on : holding.On [] disk) (sound : holding.Sound checks first)
    (entry : disk.entries holding.manifest.current.segment = some file) :
    (holding.extended event later).On []
      (disk.store file (holding.frames ++ (holding.frame event).bytes)) := by
  have longer : holding.history.length ≤ (holding.extended event later).history.length := by
    rw [history_extended, List.length_append]
    omega
  have stored : (holding.extended event later).On []
      (disk.store file ((holding.extended event later).frames ++ [])) :=
    on.stored sound entry rfl rfl longer (.inl rfl)
  rw [List.append_nil, frames_extended] at stored
  exact stored

/-- A frame that was cut short is a torn frame behind the segment. -/
theorem On.torn_frame (on : holding.On [] disk) (sound : holding.Sound checks first)
    (entry : disk.entries holding.manifest.current.segment = some file) (fits : Fits [event])
    (numbered : holding.history.length + 2 < counterEnd) {count : Nat}
    (short : count < (holding.frame event).bytes.length) :
    holding.On ((holding.frame event).bytes.take count)
      (disk.store file (holding.frames ++ (holding.frame event).bytes.take count)) := by
  have next : checkedIncrement holding.cursor.seq = some (holding.cursor.seq + 1) := by
    apply checkedIncrement_of_lt
    rw [sound.seq_cursor]
    omega
  apply on.stored sound entry rfl rfl (Nat.le_refl _)
  refine .inr ⟨_, (holding.frame event).bytes, next, shaped_frameBytes fits,
    List.take_prefix _ _, ?_⟩
  rw [List.length_take]
  exact Nat.lt_of_le_of_lt (Nat.min_le_left _ _) short

/-- The append of a frame, or of the first bytes of it. -/
theorem On.appendFrame_goes (on : holding.On [] disk)
    (entry : disk.entries holding.manifest.current.segment = some file)
    (placed : holding.frames.length + frameSize event < counterEnd) (recoverable : crash disk)
    (torn : ∀ count,
      crash (disk.store file (holding.frames ++ (holding.frame event).bytes.take count))) :
    Goes crash (appendFrame holding.manifest.current.segment holding.cursor.offset
        (holding.frame event)).run disk (.ok ())
      (disk.store file (holding.frames ++ (holding.frame event).bytes)) := by
  have contents : disk.contents file = holding.frames := by
    rcases entries_of_file on.segment with ⟨other, found, held⟩
    rw [entry] at found
    rw [List.append_nil] at held
    exact Option.some.inj found ▸ held
  have finished := torn (holding.frame event).bytes.length
  rw [List.take_length] at finished
  have sized : ((disk.store file (holding.frames ++ (holding.frame event).bytes)).contents
      file).length = holding.cursor.offset + (holding.frame event).bytes.length := by
    simp [Disk.store, offset_cursor]
  have later : (disk.store file (holding.frames ++ (holding.frame event).bytes)).entries
      holding.manifest.current.segment = some file := entry
  have ends : Goes crash (endsAt true file holding.cursor.offset).run disk (.ok true) disk := by
    apply Goes.andThen (Goes.attempt rfl (fun _ => recoverable) recoverable)
    have equal : decide (Except.toOption (Except.ok (disk.contents file).length : Except Failure Nat) =
        some holding.cursor.offset) = true := by
      rw [contents, offset_cursor]
      exact decide_eq_true rfl
    rw [equal]
    exact Goes.pure recoverable
  have unchanged : Goes crash
      (checkUnchanged file holding.manifest.current.segment holding.cursor.offset).run disk (.ok ())
      disk := by
    apply Goes.andThen (Goes.ask (openFile_performs entry) (fun _ => recoverable) recoverable)
    apply Goes.andThen (sameFileIdentity_goes recoverable)
    apply Goes.andThen ends
    exact Goes.liftOk rfl recoverable
  have writes : (Op.write file holding.cursor.offset (holding.frame event).bytes).perform disk =
      (.ok (), disk.store file (holding.frames ++ (holding.frame event).bytes)) := by
    change (Except.ok (), disk.store file _) = _
    rw [contents, offset_cursor, overwrite_end]
  have cut : ∀ count, crash
      ((Op.write file holding.cursor.offset (holding.frame event).bytes).torn count disk) := by
    intro count
    change crash (disk.store file (overwrite (disk.contents file) _ _))
    rw [contents, offset_cursor, overwrite_end]
    exact torn count
  have bounded : reject (counterEnd ≤ holding.cursor.offset + (holding.frame event).bytes.length)
      (StoreError.corrupt "session segment length overflow") = .ok () := by
    rw [reject_eq_ok, offset_cursor, length_frame]
    omega
  apply Goes.andThen (Goes.ask (openFile_performs entry) (fun _ => recoverable) recoverable)
  apply Goes.andThen unchanged
  apply Goes.andThen (Goes.ask writes cut finished)
  apply Goes.andThen (Goes.ask rfl (fun _ => finished) finished)
  apply Goes.andThen (Goes.ask (openFile_performs later) (fun _ => finished) finished)
  apply Goes.andThen (Goes.liftOk bounded finished)
  apply Goes.andThen (Goes.ask rfl (fun _ => finished) finished)
  apply Goes.andThen (sameFileIdentity_goes finished)
  apply Goes.liftOk _ finished
  rw [reject_eq_ok, sized]
  simp

end Holding

end Writing

section Sealing

variable {τ κ : Type} [Recorded τ] [Recorded κ] {checks : Checks τ κ} {codec : Codec τ κ}
  {first : SessionState τ κ} {holding : Holding τ κ}
  {disk : Disk} {file : Nat} {crash : Disk → Prop}

/-- The set that begins behind a history. -/
def Holding.opening (generation : UInt64) (history : List (Event τ κ))
    (state : SessionState τ κ) (previous : Option RecoverySet) : Holding τ κ where
  manifest := ⟨formatVersion, generation,
    openedSet generation (origin.behind history).seq
      (fullDigest (serialize (snapshotOf state (origin.behind history).seq
        (origin.behind history).digest))),
    previous⟩
  older := history
  recent := []
  base := state
  state := state

/-- The set as the next one retains it. -/
def Holding.retained (holding : Holding τ κ) : RecoverySet :=
  { holding.manifest.current with
    lastSeq := holding.cursor.seq
    sealedLen := some (UInt64.ofNat holding.frames.length)
    sealedDigest := some (fullDigest holding.frames) }

/-- The set behind a sealed one. -/
def Holding.compacted (holding : Holding τ κ) : Holding τ κ :=
  .opening (holding.manifest.generation + 1) holding.history holding.state (some holding.retained)

/-- The files that are written before a set is published. -/
def Holding.drafts (holding : Holding τ κ) : List String :=
  [tempName holding.manifest.current.snapshot, holding.manifest.current.snapshot,
    holding.manifest.current.segment, manifestTemp]

theorem toNat_saturatingIncrement {value : UInt64} (fits : value.toNat + 1 < counterEnd) :
    (saturatingIncrement value).toNat = value.toNat + 1 := by
  rw [saturatingIncrement, checkedIncrement_of_lt fits, Option.getD_some, UInt64.toNat_add]
  exact Nat.mod_eq_of_lt fits

namespace Holding

variable {generation : UInt64} {history : List (Event τ κ)}
  {state : SessionState τ κ} {previous : Option RecoverySet}

theorem sound_opening (replays : replayed checks first history = .ok state)
    (readable : checkLogicalRead checks state = .ok ())
    (retained : ∀ set, previous = some set → set.Retained generation)
    (paced : generation.toNat ≤ history.length) (numbered : history.length + 1 < counterEnd) :
    (opening generation history state previous).Sound checks first where
  version := rfl
  current := rfl
  previous := retained
  based := replays
  reached := rfl
  readable := readable
  fits _ member := absurd member List.not_mem_nil
  paced := paced
  numbered := by
    rw [Holding.history, List.length_append]
    exact numbered
  sized := Nat.zero_le _

theorem history_opening : (opening generation history state previous).history = history :=
  List.append_nil history

theorem opening_names (opens : holding = opening generation history state previous) :
    holding.manifest.current.snapshot = snapshotName generation (origin.behind history).seq ∧
      holding.manifest.current.segment =
        segmentName generation (saturatingIncrement (origin.behind history).seq) := by
  rw [opens]
  exact ⟨rfl, rfl⟩

/-- The set is the current one as soon as its manifest has the name. -/
theorem on_of_published (opens : holding = opening generation history state previous)
    (ahead : ∀ later seq, generation < later → disk.entries (segmentName later seq) ≠ none →
      seq.toNat ≤ history.length + 1) {written reached : Disk}
    (made : Disk.Same holding.drafts disk (written.create holding.manifest.current.segment))
    (snapshot : written.file holding.manifest.current.snapshot = some holding.snapshotBytes)
    (later : Disk.Same [manifestTemp, manifestName]
      (written.create holding.manifest.current.segment) reached)
    (published : reached.file manifestName = some (serialize holding.manifest)) :
    holding.On [] reached := by
  rcases opening_names opens with ⟨snapshotNamed, segmentNamed⟩
  have segment : (written.create holding.manifest.current.segment).file
      holding.manifest.current.segment = some [] :=
    Disk.file_eq_some.mpr ⟨_, Disk.entries_create, Disk.contents_create⟩
  constructor
  · exact published
  · rw [later.file_eq, Disk.same_create.file_eq]
    · exact snapshot
    · rw [snapshotNamed, segmentNamed]
      exact notMem_of_initials (by simp)
    · rw [snapshotNamed]
      exact notMem_of_initials (by simp)
  · rw [later.file_eq, segment, opens]
    · rfl
    · rw [segmentNamed]
      exact notMem_of_initials (by simp)
  · exact .inl rfl
  · intro other seq newer present
    have apart : segmentName other seq ≠ holding.manifest.current.segment := by
      rw [segmentNamed]
      intro equal
      rw [(segmentName_injective equal).1, opens] at newer
      exact UInt64.lt_irrefl _ newer
    rw [(later _ (notMem_of_initials (by simp))).1, (made _ _).1] at present
    · rw [opens] at newer
      rw [opens, history_opening]
      exact ahead other seq newer present
    · rw [drafts, snapshotNamed]
      simp only [List.mem_cons, List.not_mem_nil, or_false, not_or]
      exact ⟨ne_of_initials (by simp), ne_of_initials (by simp), apart, ne_of_initials (by simp)⟩

/-- The snapshot, the segment and the manifest of a new set.  Until the manifest has
its name the set before is the current one. -/
theorem publishSet_goes (opens : holding = opening generation history state previous)
    (readable : checkLogicalRead checks state = .ok ())
    (free : disk.entries holding.manifest.current.segment = none)
    (ahead : ∀ later seq, generation < later → disk.entries (segmentName later seq) ≠ none →
      seq.toNat ≤ history.length + 1)
    (before : ∀ reached, Disk.Same holding.drafts disk reached → crash reached)
    (behind : ∀ reached, holding.On [] reached → crash reached) :
    ∃ after, Goes crash (publishSet checks generation state (origin.behind history).seq
        (origin.behind history).digest previous).run disk (.ok holding.manifest) after ∧
      holding.On [] after := by
  rcases opening_names opens with ⟨snapshotNamed, segmentNamed⟩
  have second : ∀ reached, Disk.Same [tempName holding.manifest.current.snapshot,
      holding.manifest.current.snapshot] disk reached → Disk.Same holding.drafts disk reached :=
    fun _ same => same.weaken (by simp [drafts])
  rcases @writeTempRename_goes crash disk holding.manifest.current.snapshot
    (tempName holding.manifest.current.snapshot) holding.snapshotBytes
    (fun reached same => before reached (second _ (same.weaken (by simp))))
    (fun reached same _ => before reached (second _ same)) with ⟨written, writes, same, snapshot⟩
  have vacant : written.entries holding.manifest.current.segment = none := by
    rw [(same _ _).1]
    · exact free
    · rw [snapshotNamed, segmentNamed]
      exact notMem_of_initials (by simp)
  have made : Disk.Same holding.drafts disk (written.create holding.manifest.current.segment) :=
    (second _ same).trans (Disk.same_create.weaken (by simp [drafts]))
  have on : ∀ reached, Disk.Same [manifestTemp, manifestName]
      (written.create holding.manifest.current.segment) reached →
      reached.file manifestName = some (serialize holding.manifest) → holding.On [] reached :=
    fun _ later published => on_of_published opens ahead made snapshot later published
  have valid := (checkLogicalRead_eq_ok.mp readable).1
  have writable := checkLogicalWrite_eq_ok.mpr readable
  rcases @writeTempRename_goes crash (written.create holding.manifest.current.segment) manifestName
    manifestTemp (serialize holding.manifest)
    (fun reached later => before reached (made.trans (later.weaken (by simp [drafts]))))
    (fun reached later found => behind reached (on reached later found)) with
    ⟨after, publishes, later, published⟩
  refine ⟨after, ?_, on after later published⟩
  have whole := on after later published
  have prepared := before _ (second _ same)
  have snapshots : Goes crash (writeSnapshot checks (snapshotName generation
      (origin.behind history).seq) state (origin.behind history).seq
      (origin.behind history).digest).run disk
      (.ok (fullDigest holding.snapshotBytes)) written := by
    rw [← snapshotNamed]
    have bytes : holding.snapshotBytes = serialize (snapshotOf state (origin.behind history).seq
        (origin.behind history).digest) := by
      rw [opens]
      rfl
    rw [bytes] at writes ⊢
    have start := before disk (Disk.Same.refl _ _)
    apply Goes.andThen (Goes.liftOk valid start)
    apply Goes.andThen (Goes.liftOk writable start)
    exact Goes.andThen writes (Goes.pure prepared)
  have manifest : holding.manifest = ⟨formatVersion, generation,
      openedSet generation (origin.behind history).seq (fullDigest holding.snapshotBytes),
      previous⟩ := by
    rw [opens]
    rfl
  apply Goes.andThen snapshots
  rw [← segmentNamed, ← manifest]
  apply Goes.andThen (createEmpty_goes vacant prepared (before _ made))
  exact Goes.andThen publishes (Goes.pure (behind after whole))

end Holding

end Sealing

section Compaction

variable {τ κ : Type} [Recorded τ] [Recorded κ] {checks : Checks τ κ} {codec : Codec τ κ}
  {first : SessionState τ κ} {holding : Holding τ κ}
  {disk : Disk} {file : Nat} {crash : Disk → Prop}

theorem RecoverySet.Retained.names {set : RecoverySet} {generation later seq : UInt64}
    (retained : set.Retained generation) (newer : generation ≤ later) :
    snapshotName later seq ∉ [set.snapshot, set.segment] ∧
      segmentName later seq ∉ [set.snapshot, set.segment] ∧
      manifestName ∉ [set.snapshot, set.segment] := by
  rcases retained with ⟨_, earlier, number, place, before, snapshot, segment⟩
  have apart : earlier ≠ later := UInt64.ne_of_lt (UInt64.lt_of_lt_of_le before newer)
  rw [snapshot, segment]
  refine ⟨?_, ?_, notMem_of_initials (by simp)⟩
  · simp only [List.mem_cons, List.not_mem_nil, or_false, not_or]
    exact ⟨fun same => apart (generation_of_snapshotName same).symm, ne_of_initials (by simp)⟩
  · simp only [List.mem_cons, List.not_mem_nil, or_false, not_or]
    exact ⟨ne_of_initials (by simp), fun same => apart (segmentName_injective same).1.symm⟩

namespace Holding

theorem Sound.generation_lt (sound : holding.Sound checks first) :
    holding.manifest.generation.toNat + 1 < counterEnd := by
  have paced := sound.paced
  have numbered := sound.numbered
  rw [history, List.length_append] at numbered
  omega

theorem Sound.toNat_next (sound : holding.Sound checks first) :
    (holding.manifest.generation + 1).toNat = holding.manifest.generation.toNat + 1 := by
  rw [UInt64.toNat_add]
  exact Nat.mod_eq_of_lt sound.generation_lt

theorem Sound.retained (sound : holding.Sound checks first) :
    holding.retained.Retained (holding.manifest.generation + 1) := by
  have short := short_openedSet holding.manifest.generation holding.start.seq holding.snapshotBytes
  rw [← sound.current] at short
  constructor
  · exact ⟨short.snapshot, short.snapshotDigest, short.segment,
      fun digest found => Option.some.inj found ▸ Nat.le_of_eq (length_fullDigest _)⟩
  · refine ⟨_, _, _, ?_, sound.snapshot_eq, sound.segment_eq⟩
    rw [UInt64.lt_iff_toNat_lt, sound.toNat_next]
    exact Nat.lt_succ_self _

theorem Sound.compacted (sound : holding.Sound checks first)
    (readable : checkLogicalRead checks holding.state = .ok ()) (longer : holding.recent ≠ []) :
    holding.compacted.Sound checks first := by
  apply sound_opening sound.history_replayed readable
  · intro set found
    exact Option.some.inj found ▸ sound.retained
  · have paced := sound.paced
    have grown := List.length_pos_iff.mpr longer
    rw [sound.toNat_next, history, List.length_append]
    omega
  · exact sound.numbered

theorem compacted_names : holding.compacted.manifest.current.snapshot =
      snapshotName (holding.manifest.generation + 1) holding.cursor.seq ∧
    holding.compacted.manifest.current.segment =
      segmentName (holding.manifest.generation + 1) (saturatingIncrement holding.cursor.seq) := by
  rw [chain_cursor.1]
  exact ⟨rfl, rfl⟩

/-- What is written before the new manifest leaves the set as it was. -/
theorem On.drafted (on : holding.On [] disk) (sound : holding.Sound checks first) {reached : Disk}
    (same : Disk.Same holding.compacted.drafts disk reached) :
    holding.On [] reached ∧ reached.entries holding.manifest.current.segment =
      disk.entries holding.manifest.current.segment := by
  have apart : holding.manifest.generation ≠ holding.manifest.generation + 1 := by
    intro equal
    have next := sound.toNat_next
    rw [← equal] at next
    omega
  have snapshot : holding.manifest.current.snapshot ∉ holding.compacted.drafts := by
    rw [drafts, compacted_names.1, compacted_names.2, sound.snapshot_eq]
    simp only [List.mem_cons, List.not_mem_nil, or_false, not_or]
    exact ⟨ne_of_initials (by simp), fun equal => apart (generation_of_snapshotName equal),
      ne_of_initials (by simp), ne_of_initials (by simp)⟩
  have segment : holding.manifest.current.segment ∉ holding.compacted.drafts := by
    rw [drafts, compacted_names.1, compacted_names.2, sound.segment_eq]
    simp only [List.mem_cons, List.not_mem_nil, or_false, not_or]
    exact ⟨ne_of_initials (by simp), ne_of_initials (by simp),
      fun equal => apart (segmentName_injective equal).1, ne_of_initials (by simp)⟩
  refine ⟨on.same same ?_ snapshot segment ?_, (same _ segment).1⟩
  · rw [drafts, compacted_names.1, compacted_names.2]
    exact notMem_of_initials (by simp)
  · intro generation seq newer named
    rw [drafts, compacted_names.1, compacted_names.2] at named
    simp only [List.mem_cons, List.not_mem_nil, or_false] at named
    rcases named with equal | equal | equal | equal
    · exact absurd equal (ne_of_initials (by simp))
    · exact absurd equal (ne_of_initials (by simp))
    · rw [(segmentName_injective equal).2, toNat_saturatingIncrement, sound.seq_cursor]
      rw [sound.seq_cursor]
      exact sound.numbered
    · exact absurd equal (ne_of_initials (by simp))

/-- The retained set before the last one goes, and nothing else. -/
theorem On.removeOld_goes (on : holding.compacted.On [] disk) (sound : holding.Sound checks first)
    (behind : ∀ reached, holding.compacted.On [] reached → crash reached) :
    ∃ after, Goes crash (removeOld holding.manifest.previous holding.compacted.manifest).run disk
      (.ok ()) after ∧ holding.compacted.On [] after := by
  cases found : holding.manifest.previous with
  | none => exact ⟨disk, Goes.pure (behind disk on), on⟩
  | some set =>
      have retained := sound.previous set found
      have newer : holding.manifest.generation ≤ holding.manifest.generation + 1 := by
        rw [UInt64.le_iff_toNat_le, sound.toNat_next]
        exact Nat.le_succ _
      have kept : ∀ reached, Disk.Same [set.snapshot, set.segment] disk reached →
          holding.compacted.On [] reached := by
        intro reached same
        apply on.same same (@RecoverySet.Retained.names _ _ _ 0 retained newer).2.2
        · rw [compacted_names.1]
          exact (retained.names newer).1
        · rw [compacted_names.2]
          exact (retained.names newer).2.1
        · intro generation seq later named
          have further := UInt64.le_trans newer (UInt64.le_of_lt later)
          exact absurd named (retained.names further).2.1
      rcases removeSet_goes fun reached same => behind reached (kept reached same) with
        ⟨after, removes, same⟩
      exact ⟨after, removes, kept after same⟩

/-- Sealing the segment: a cut of it leaves the sealed set or the one behind it. -/
theorem On.compact_goes (on : holding.On [] disk) (sound : holding.Sound checks first)
    (faithful : codec.Faithful checks first holding.history)
    (readable : checkLogicalRead checks holding.state = .ok ()) (longer : holding.recent ≠ [])
    (free : disk.entries holding.compacted.manifest.current.segment = none)
    (before : ∀ reached, holding.On [] reached →
      reached.entries holding.manifest.current.segment =
        disk.entries holding.manifest.current.segment → crash reached)
    (behind : ∀ reached, holding.compacted.On [] reached → crash reached) {repaired : Bool} :
    ∃ number after, Goes crash (compact checks codec (holding.loaded file repaired)).run disk
        (.ok (holding.compacted.loaded number false)) after ∧ holding.compacted.On [] after ∧
      after.entries holding.compacted.manifest.current.segment = some number := by
  have start := before disk on rfl
  have segment := on.segment
  rw [List.append_nil] at segment
  have ends : reject (holding.frames.length ≠ holding.cursor.offset)
      (StoreError.corrupt "active session segment length is inconsistent") = .ok () := by
    rw [reject_eq_ok, offset_cursor]
    exact not_not.mpr rfl
  have seals : Goes crash (sealCurrent (holding.loaded file repaired)).run disk
      (.ok holding.retained) disk := by
    apply Goes.andThen (readArtifact_goes segment sound.sized start)
    exact Goes.andThen (Goes.liftOk ends start) (Goes.pure start)
  have counts : okOr (checkedIncrement holding.manifest.generation)
      (StoreError.corrupt "manifest generation overflow") =
        .ok (holding.manifest.generation + 1) := by
    rw [okOr_eq_ok]
    exact checkedIncrement_of_lt sound.generation_lt
  have ahead : ∀ later seq, holding.manifest.generation + 1 < later →
      disk.entries (segmentName later seq) ≠ none → seq.toNat ≤ holding.history.length + 1 := by
    intro later seq newer present
    apply on.ahead later seq _ present
    rw [UInt64.lt_iff_toNat_lt, sound.toNat_next] at newer
    rw [UInt64.lt_iff_toNat_lt]
    omega
  rcases publishSet_goes rfl readable free ahead
    (fun reached same => before reached (on.drafted sound same).1 (on.drafted sound same).2)
    behind with ⟨middle, publishes, published⟩
  rw [← chain_cursor.1, ← chain_cursor.2] at publishes
  rcases published.removeOld_goes sound behind with ⟨after, removes, kept⟩
  rcases entries_of_file kept.segment with ⟨number, entry, contents⟩
  have mended := kept.mended (sound.compacted readable longer) entry
  have again : codec.Faithful checks first holding.compacted.history :=
    (history_opening : holding.compacted.history = holding.history) ▸ faithful
  have loads := kept.loadSet_goes (sound.compacted readable longer) again entry (Nat.zero_le _)
    (behind after kept) (behind _ mended)
  refine ⟨number, after.store number holding.compacted.frames, ?_, mended, entry⟩
  apply Goes.andThen (Goes.liftOk sound.valid start)
  apply Goes.andThen (Goes.liftOk (checkLogicalWrite_eq_ok.mpr readable) start)
  apply Goes.andThen seals
  apply Goes.andThen (Goes.liftOk counts start)
  apply Goes.andThen publishes
  apply Goes.andThen removes
  exact loads

end Holding

end Compaction

end Llxprt.Log
