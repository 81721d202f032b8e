import Llxprt.Log.Durability
import Llxprt.Rust.Runs

/-!
# The handles of a session

Any number of handles read the log of a session and append to it, each operation
under the session lock.  An operation may be cut after any of its file operations and
in the middle of a write; its handle is gone then, and the others go on.
-/

namespace Llxprt.Log

open Llxprt.Kernel Llxprt.Kernel.Recorded Llxprt.Rust Llxprt.Rust.Files

section Keeping

variable {τ κ : Type} [Recorded τ] [Recorded κ]

/-- The set that a directory holds, with what the handles have cached of it. -/
structure Holding.Keeps (holding : Holding τ κ) (checks : Checks τ κ) (first : SessionState τ κ)
    (handles : Nat → Option (LoadedStore τ κ)) (limit : Nat) (tail : Bytes)
    (disk : Disk) : Prop where
  sound : holding.Sound checks first
  on : holding.On tail disk
  room : (holding.frames ++ tail).length < limit
  followed : ∀ handle loaded, handles handle = some loaded → holding.FollowedBy checks disk loaded

/-- The directory holds the history. -/
def Kept (checks : Checks τ κ) (first : SessionState τ κ)
    (handles : Nat → Option (LoadedStore τ κ)) (limit : Nat)
    (history : List (Event τ κ)) (disk : Disk) : Prop :=
  ∃ (holding : Holding τ κ) (tail : Bytes), holding.history = history ∧
    holding.Keeps checks first handles limit tail disk

variable {checks : Checks τ κ} {codec : Codec τ κ} {first later : SessionState τ κ}
  {handles : Nat → Option (LoadedStore τ κ)} {limit more size : Nat}
  {holding : Holding τ κ} {tail : Bytes} {disk : Disk} {file : Nat} {event : Event τ κ}

namespace Holding

theorem Keeps.weaken (keeps : holding.Keeps checks first handles limit tail disk)
    (wider : limit ≤ more) : holding.Keeps checks first handles more tail disk :=
  ⟨keeps.sound, keeps.on, Nat.lt_of_lt_of_le keeps.room wider, keeps.followed⟩

theorem Keeps.mended (keeps : holding.Keeps checks first handles limit tail disk)
    (entry : disk.entries holding.manifest.current.segment = some file) :
    holding.Keeps checks first handles limit [] (disk.store file holding.frames) where
  sound := keeps.sound
  on := keeps.on.mended keeps.sound entry
  room := by
    have room := keeps.room
    rw [List.length_append] at room
    rw [List.append_nil]
    omega
  followed handle loaded found := (keeps.followed handle loaded found).same rfl

theorem Keeps.replayable (keeps : holding.Keeps checks first handles limit tail disk)
    (limited : limit ≤ segmentCap) : (holding.frames ++ tail).length ≤ maxReplayBytes := by
  have smaller : segmentCap ≤ maxReplayBytes := by decide
  have room := keeps.room
  omega

/-- A handle at the end of the log follows it. -/
theorem followedBy_loaded (sound : holding.Sound checks first)
    (entry : disk.entries holding.manifest.current.segment = some file) (repaired : Bool) :
    holding.FollowedBy checks disk (holding.loaded file repaired) :=
  .inr ⟨rfl, entry, holding.recent, [], (List.append_nil _).symm, rfl, sound.reached⟩

theorem FollowedBy.extended {loaded : LoadedStore τ κ} {after : Disk}
    (followed : holding.FollowedBy checks disk loaded)
    (same : after.entries holding.manifest.current.segment =
      disk.entries holding.manifest.current.segment) :
    (holding.extended event later).FollowedBy checks after loaded := by
  rcases followed.same same with older | ⟨manifest, identity, seen, rest, parts, cursor, state⟩
  · exact .inl older
  · refine .inr ⟨manifest, identity, seen, rest ++ [event], ?_, cursor, state⟩
    rw [← List.append_assoc, ← parts]
    rfl

theorem FollowedBy.compacted {loaded : LoadedStore τ κ} {after : Disk}
    (followed : holding.FollowedBy checks disk loaded) (sound : holding.Sound checks first) :
    holding.compacted.FollowedBy checks after loaded := by
  have newer : holding.manifest.generation < holding.manifest.generation + 1 := by
    rw [UInt64.lt_iff_toNat_lt, sound.toNat_next]
    exact Nat.lt_succ_self _
  rcases followed with older | ⟨manifest, _⟩
  · exact .inl (UInt64.lt_trans older newer)
  · left
    rw [manifest]
    exact newer

/-- A handle that opens the session reaches the end of the log. -/
theorem Keeps.openCurrent_goes (keeps : holding.Keeps checks first handles limit tail disk)
    (faithful : codec.Faithful checks first holding.history) (limited : limit ≤ segmentCap)
    (entry : disk.entries holding.manifest.current.segment = some file) (sessionId : String)
    (handle : Nat) :
    ∃ repaired, Goes (Kept checks first handles limit holding.history)
      (openCurrent checks codec sessionId (handles handle)).run disk
      (.ok (holding.loaded file repaired)) (disk.store file holding.frames) := by
  have start : Kept checks first handles limit holding.history disk := ⟨_, _, rfl, keeps⟩
  have mended : Kept checks first handles limit holding.history (disk.store file holding.frames) :=
    ⟨_, _, rfl, keeps.mended entry⟩
  have room := keeps.replayable limited
  cases cached : handles handle with
  | none => exact ⟨_, keeps.on.loadState_goes keeps.sound faithful entry room start mended _⟩
  | some loaded =>
      exact keeps.on.catchUp_goes keeps.sound faithful entry room start mended
        (keeps.followed handle loaded cached)

theorem Keeps.read_goes (keeps : holding.Keeps checks first handles limit tail disk)
    (faithful : codec.Faithful checks first holding.history) (limited : limit ≤ segmentCap)
    (entry : disk.entries holding.manifest.current.segment = some file) (sessionId : String)
    (handle : Nat) :
    ∃ repaired, Goes (Kept checks first handles limit holding.history)
      (read checks codec sessionId (handles handle)) disk
      (.ok holding.state, some (holding.loaded file repaired))
      (disk.store file holding.frames) := by
  rcases keeps.openCurrent_goes faithful limited entry sessionId handle with ⟨repaired, opens⟩
  exact ⟨repaired, Goes.bind opens (Goes.done ⟨_, _, rfl, keeps.mended entry⟩)⟩

end Holding

end Keeping

section Rotating

variable {τ κ : Type} [Recorded τ] [Recorded κ] {checks : Checks τ κ} {codec : Codec τ κ}
  {first later : SessionState τ κ}
  {handles : Nat → Option (LoadedStore τ κ)} {limit more size : Nat}
  {holding : Holding τ κ} {tail : Bytes} {disk : Disk} {file : Nat}
  {event : Event τ κ} {crash : Disk → Prop}

/-- A handle that has finished stands at the end of a whole log. -/
def Ends (checks : Checks τ κ) (first : SessionState τ κ)
    (handles : Nat → Option (LoadedStore τ κ)) (limit : Nat)
    (history : List (Event τ κ)) (loaded : LoadedStore τ κ) (disk : Disk) : Prop :=
  ∃ (holding : Holding τ κ) (file : Nat) (repaired : Bool),
    holding.history = history ∧
    disk.entries holding.manifest.current.segment = some file ∧
    loaded = holding.loaded file repaired ∧ holding.Keeps checks first handles limit [] disk

namespace Holding

theorem rotates_nonempty (rotating : rotates holding.cursor = true) : holding.recent ≠ [] := by
  intro none
  have offset : holding.cursor.offset = 0 := by
    rw [offset_cursor, frames, none]
    rfl
  have events : holding.cursor.events = 0 := by
    rw [events_cursor, none]
    rfl
  rw [rotates, offset, events] at rotating
  exact absurd rotating (by decide)

/-- Sealing after an append, when the segment is long enough. -/
theorem Keeps.rotate_goes (keeps : holding.Keeps checks first handles limit [] disk)
    (faithful : codec.Faithful checks first holding.history)
    (readable : checkLogicalRead checks holding.state = .ok ())
    (free : disk.entries holding.compacted.manifest.current.segment = none)
    (entry : disk.entries holding.manifest.current.segment = some file) {repaired : Bool}
    (threshold : segmentByteThreshold ≤ limit)
    (recoverable : ∀ reached, Kept checks first handles limit holding.history reached →
      crash reached) :
    ∃ loaded after, Goes crash (rotate checks codec (holding.loaded file repaired)) disk
        (.ok (), loaded) after ∧
      Ends checks first handles segmentByteThreshold holding.history loaded after := by
  have start := recoverable disk ⟨_, _, rfl, keeps⟩
  have positive : 0 < segmentByteThreshold := by decide
  unfold rotate
  split
  · rename_i rotating
    have longer := rotates_nonempty rotating
    have compacted := keeps.sound.compacted readable longer
    have sealedKeeps : ∀ reached, holding.compacted.On [] reached →
        holding.compacted.Keeps checks first handles segmentByteThreshold [] reached :=
      fun reached on => ⟨compacted, on, positive,
        fun handle loaded found => (keeps.followed handle loaded found).compacted keeps.sound⟩
    have before : ∀ reached, holding.On [] reached →
        reached.entries holding.manifest.current.segment =
          disk.entries holding.manifest.current.segment → crash reached := by
      intro reached on same
      exact recoverable reached ⟨_, _, rfl, keeps.sound, on, keeps.room,
        fun handle loaded found => (keeps.followed handle loaded found).same same⟩
    have behind : ∀ reached, holding.compacted.On [] reached → crash reached :=
      fun reached on => recoverable reached
        ⟨_, _, history_opening, (sealedKeeps reached on).weaken threshold⟩
    rcases keeps.on.compact_goes keeps.sound faithful readable longer free before behind with
      ⟨number, after, compacts, on, found⟩
    exact ⟨_, after, Goes.bind compacts (Goes.done (behind after on)), _, number, _,
      history_opening,
      found, rfl, sealedKeeps after on⟩
  · rename_i short
    refine ⟨_, disk, Goes.done start, holding, file, repaired, rfl, entry, rfl, keeps.sound,
      keeps.on,
      ?_, keeps.followed⟩
    have below : holding.cursor.offset < segmentByteThreshold := by
      rw [rotates, Bool.or_eq_true, not_or, decide_eq_true_eq, Nat.not_le] at short
      exact short.1
    rw [offset_cursor] at below
    rw [List.append_nil]
    exact below

end Holding

end Rotating

section Appends

variable {τ κ : Type} [Recorded τ] [Recorded κ] {checks : Checks τ κ} {codec : Codec τ κ}
  {first later : SessionState τ κ}
  {handles : Nat → Option (LoadedStore τ κ)} {limit more size : Nat}
  {holding : Holding τ κ} {tail : Bytes} {disk : Disk} {file : Nat}
  {event : Event τ κ} {history : List (Event τ κ)} {loaded : LoadedStore τ κ}

/-- What an append can leave that was cut: the log without the event, or with it. -/
def Holding.Survives (holding : Holding τ κ) (checks : Checks τ κ) (first : SessionState τ κ)
    (handles : Nat → Option (LoadedStore τ κ)) (limit : Nat)
    (event : Event τ κ) (disk : Disk) : Prop :=
  Kept checks first handles limit holding.history disk ∨
    (∃ later, acceptEvent checks holding.state event = .ok later) ∧
      Kept checks first handles limit (holding.history ++ [event]) disk

theorem Kept.weaken (kept : Kept checks first handles limit history disk) (wider : limit ≤ more) :
    Kept checks first handles more history disk := by
  rcases kept with ⟨holding, tail, same, keeps⟩
  exact ⟨holding, tail, same, keeps.weaken wider⟩

theorem Ends.weaken (ends : Ends checks first handles limit history loaded disk)
    (wider : limit ≤ more) : Ends checks first handles more history loaded disk := by
  rcases ends with ⟨holding, file, repaired, same, entry, reached, keeps⟩
  exact ⟨holding, file, repaired, same, entry, reached, keeps.weaken wider⟩

namespace Holding

theorem Keeps.entry (keeps : holding.Keeps checks first handles limit tail disk) :
    ∃ file, disk.entries holding.manifest.current.segment = some file := by
  rcases entries_of_file keeps.on.segment with ⟨file, entry, _⟩
  exact ⟨file, entry⟩

/-- The set with an admitted event, once its frame is written. -/
theorem Keeps.extended (keeps : holding.Keeps checks first handles limit [] disk)
    (entry : disk.entries holding.manifest.current.segment = some file)
    (admitted : acceptEvent checks holding.state event = .ok later)
    (small : frameSize event ≤ size) (limited : limit + size ≤ segmentCap)
    (numbered : holding.history.length + 2 < counterEnd) :
    (holding.extended event later).Keeps checks first handles (limit + size) []
      (disk.store file (holding.frames ++ (holding.frame event).bytes)) := by
  have room := keeps.room
  have length := @length_extended _ _ _ _ later holding event
  rw [List.append_nil] at room
  constructor
  · apply keeps.sound.extended admitted numbered
    omega
  · exact keeps.on.extended keeps.sound entry
  · rw [List.append_nil]
    omega
  · exact fun handle loaded found => (keeps.followed handle loaded found).extended rfl

/-- The set behind which a frame was cut short. -/
theorem Keeps.torn (keeps : holding.Keeps checks first handles limit [] disk)
    (entry : disk.entries holding.manifest.current.segment = some file) (fits : Fits [event])
    (small : frameSize event ≤ size) (numbered : holding.history.length + 2 < counterEnd)
    {count : Nat} (short : count < (holding.frame event).bytes.length) :
    holding.Keeps checks first handles (limit + size) ((holding.frame event).bytes.take count)
      (disk.store file (holding.frames ++ (holding.frame event).bytes.take count)) := by
  have room := keeps.room
  have length := @length_frame _ _ _ _ holding event
  rw [List.append_nil] at room
  constructor
  · exact keeps.sound
  · exact keeps.on.torn_frame keeps.sound entry fits numbered short
  · rw [List.length_append, List.length_take]
    omega
  · exact fun handle loaded found => (keeps.followed handle loaded found).same rfl

/-- No file is in the way of the set behind an appended event. -/
theorem Keeps.free (keeps : holding.Keeps checks first handles limit [] disk)
    (extended : (holding.extended event later).Sound checks first) :
    disk.entries (holding.extended event later).compacted.manifest.current.segment = none := by
  by_contra present
  rw [compacted_names.2] at present
  have newer : holding.manifest.generation < holding.manifest.generation + 1 := by
    rw [UInt64.lt_iff_toNat_lt, keeps.sound.toNat_next]
    exact Nat.lt_succ_self _
  have few := keeps.on.ahead _ _ newer present
  have numbered := extended.numbered
  rw [toNat_saturatingIncrement, extended.seq_cursor, history_extended, List.length_append,
    List.length_singleton] at few
  · omega
  · rw [extended.seq_cursor]
    exact numbered

/-- An append by a handle that follows the log. -/
theorem Keeps.append_goes (keeps : holding.Keeps checks first handles limit tail disk)
    (faithful : codec.Faithful checks first holding.history)
    (next : ∀ later, acceptEvent checks holding.state event = .ok later →
      codec.Faithful checks first (holding.history ++ [event]))
    (followed : holding.FollowedBy checks disk loaded)
    (small : frameSize event ≤ size) (limited : limit + size ≤ segmentCap)
    (numbered : holding.history.length + 2 < counterEnd)
    (threshold : segmentByteThreshold ≤ limit) :
    ∃ answer next after,
      Goes (holding.Survives checks first handles (limit + size) event)
        (append checks codec loaded [event]) disk (answer, next) after ∧
      ((∃ error, acceptEvent checks holding.state event = .error error ∧ answer = .error error ∧
          Ends checks first handles limit holding.history next after) ∨
        (∃ later, acceptEvent checks holding.state event = .ok later ∧ answer = .ok () ∧
          Ends checks first handles limit (holding.history ++ [event]) next after)) := by
  rcases keeps.entry with ⟨file, entry⟩
  have whole := keeps.mended entry
  have wider : limit ≤ limit + size := Nat.le_add_right _ _
  have recover : ∀ tail reached, holding.Keeps checks first handles limit tail reached →
      holding.Survives checks first handles (limit + size) event reached :=
    fun _ _ kept => .inl ⟨_, _, rfl, kept.weaken wider⟩
  have small64 : segmentCap < counterEnd := by decide
  have placed : holding.frames.length + frameSize event < counterEnd := by
    have room := whole.room
    rw [List.append_nil] at room
    omega
  rcases keeps.on.catchUp_goes keeps.sound faithful entry
    (keeps.replayable (Nat.le_trans wider limited)) (recover _ _ keeps) (recover _ _ whole) followed
    with ⟨repaired, catches⟩
  have prepared := @Sound.prepareFrame _ _ _ _ checks first holding event file keeps.sound numbered
    placed repaired
  cases admitted : acceptEvent checks holding.state event with
  | error error =>
      rw [admitted] at prepared
      refine ⟨.error error, holding.loaded file repaired, disk.store file holding.frames,
        Goes.bind catches ?_,
        .inl ⟨error, rfl, rfl, holding, file, repaired, rfl, entry, rfl, whole⟩⟩
      simp only [prepared, Except.map]
      exact Goes.done (recover _ _ whole)
  | ok later =>
      rw [admitted] at prepared
      rcases acceptEvent_eq_ok.mp admitted with ⟨fits, _, written⟩
      have extended := whole.extended entry admitted small limited numbered
      have torn : ∀ count, holding.Survives checks first handles (limit + size) event
          ((disk.store file holding.frames).store file
            (holding.frames ++ (holding.frame event).bytes.take count)) := by
        intro count
        by_cases short : count < (holding.frame event).bytes.length
        · exact .inl ⟨_, _, rfl, whole.torn entry fits small numbered short⟩
        · rw [List.take_of_length_le (Nat.not_lt.mp short)]
          exact .inr ⟨⟨later, admitted⟩, _, _, history_extended, extended⟩
      have writes := whole.on.appendFrame_goes entry placed (recover _ _ whole) torn
      have survives : ∀ reached, Kept checks first handles (limit + size)
          (holding.extended event later).history reached →
          holding.Survives checks first handles (limit + size) event reached := by
        intro reached kept
        rw [history_extended] at kept
        exact .inr ⟨⟨later, admitted⟩, kept⟩
      have again : codec.Faithful checks first (holding.extended event later).history := by
        rw [history_extended]
        exact next later admitted
      rcases extended.rotate_goes again (checkLogicalWrite_eq_ok.mp written)
        (whole.free extended.sound) entry (Nat.le_trans threshold wider) survives with
        ⟨next, after, rotates, ends⟩
      rw [history_extended] at ends
      refine ⟨.ok (), next, after, Goes.bind catches ?_, .inr ⟨later, rfl, rfl,
        ends.weaken threshold⟩⟩
      simp only [prepared, Except.map]
      exact Goes.bind writes rotates

end Holding

end Appends

section Sessions

variable {τ κ : Type} [Recorded τ] [Recorded κ] {checks : Checks τ κ} {codec : Codec τ κ}
  {first : SessionState τ κ} {handles : Nat → Option (LoadedStore τ κ)} {limit size : Nat}
  {holding : Holding τ κ} {tail : Bytes} {disk : Disk} {sessionId : String}
  {event : Event τ κ} {history : List (Event τ κ)} {loaded : LoadedStore τ κ}

theorem Kept.dropped (kept : Kept checks first handles limit history disk) (handle : Nat) :
    Kept checks first (Function.update handles handle none) limit history disk := by
  rcases kept with ⟨holding, tail, same, keeps⟩
  refine ⟨holding, tail, same, keeps.sound, keeps.on, keeps.room, ?_⟩
  intro other loaded found
  rw [Function.update_apply] at found
  split at found
  · cases found
  · exact keeps.followed other loaded found

theorem Ends.kept (ends : Ends checks first handles limit history loaded disk) (handle : Nat) :
    Kept checks first (Function.update handles handle (some loaded)) limit history disk := by
  rcases ends with ⟨holding, file, repaired, same, entry, rfl, keeps⟩
  refine ⟨holding, [], same, keeps.sound, keeps.on, keeps.room, ?_⟩
  intro other reached found
  rw [Function.update_apply] at found
  split at found
  · cases found
    exact Holding.followedBy_loaded keeps.sound entry repaired
  · exact keeps.followed other reached found

/-- A fresh load finds what the handle that has finished holds, and changes nothing. -/
theorem Ends.fresh (ends : Ends checks first handles limit history loaded disk)
    (faithful : codec.Faithful checks first history) (limited : limit ≤ segmentCap)
    (sessionId : String) :
    (loadState checks codec sessionId).run.run disk =
      (.ok { loaded with repairedTail := false }, disk) := by
  rcases ends with ⟨holding, file, repaired, rfl, entry, rfl, keeps⟩
  have loads := @Holding.On.loadState_goes _ _ _ _ checks codec first holding [] disk file
    (fun _ => True) keeps.on keeps.sound faithful entry (keeps.replayable limited) trivial trivial
    sessionId
  rw [loads.runs, keeps.on.store_frames entry]
  rfl

namespace Holding

theorem Keeps.appendOne_goes (keeps : holding.Keeps checks first handles limit tail disk)
    (faithful : codec.Faithful checks first holding.history)
    (further : ∀ later, acceptEvent checks holding.state event = .ok later →
      codec.Faithful checks first (holding.history ++ [event]))
    (sessionId : String) (handle : Nat)
    (small : frameSize event ≤ size) (limited : limit + size ≤ segmentCap)
    (numbered : holding.history.length + 2 < counterEnd)
    (threshold : segmentByteThreshold ≤ limit) :
    ∃ answer next after,
      Goes (holding.Survives checks first handles (limit + size) event)
        (appendOne checks codec sessionId (handles handle) event) disk (answer, some next) after ∧
      ((∃ error, acceptEvent checks holding.state event = .error error ∧ answer = .error error ∧
          Ends checks first handles limit holding.history next after) ∨
        (∃ later, acceptEvent checks holding.state event = .ok later ∧ answer = .ok () ∧
          Ends checks first handles limit (holding.history ++ [event]) next after)) := by
  have wider : limit ≤ limit + size := Nat.le_add_right _ _
  have recover : ∀ tail reached, holding.Keeps checks first handles limit tail reached →
      holding.Survives checks first handles (limit + size) event reached :=
    fun _ _ kept => .inl ⟨_, _, rfl, kept.weaken wider⟩
  cases cached : handles handle with
  | none =>
      rcases keeps.entry with ⟨file, entry⟩
      have whole := keeps.mended entry
      have opens := keeps.on.loadState_goes keeps.sound faithful entry
        (keeps.replayable (Nat.le_trans wider limited)) (recover _ _ keeps) (recover _ _ whole)
        sessionId
      rcases whole.append_goes faithful further
        (followedBy_loaded whole.sound entry (decide (tail ≠ []))) small limited numbered threshold
        with ⟨answer, next, after, appends, ends⟩
      exact ⟨answer, next, after,
        Goes.bind opens (Goes.bind appends (Goes.done appends.finishes)), ends⟩
  | some loaded =>
      rcases keeps.append_goes faithful further (keeps.followed handle loaded cached) small limited
        numbered threshold with ⟨answer, next, after, appends, ends⟩
      exact ⟨answer, next, after, Goes.bind (Goes.done (recover _ _ keeps))
        (Goes.bind appends (Goes.done appends.finishes)), ends⟩

end Holding

/-- The first open of a session. -/
theorem loadState_first (faithful : codec.Faithful checks (.empty sessionId) [])
    (readable : checkLogicalRead checks (.empty sessionId) = .ok ()) :
    ∃ loaded after,
      (loadState checks codec sessionId).run.run Disk.empty = (.ok loaded, after) ∧
        Ends checks (.empty sessionId) (fun _ => none) segmentByteThreshold [] loaded after := by
  have missing : Goes (fun _ => True) (readManifest codec).run Disk.empty (.ok none) Disk.empty :=
    Goes.andThen (readOptional_missing rfl trivial) (Goes.pure trivial)
  have modern : Goes (fun _ => True) predatesManifest.run Disk.empty (.ok false) Disk.empty := by
    apply Goes.andThen (Goes.attempt rfl (fun _ => trivial) trivial)
    rw [if_neg (by decide)]
    exact Goes.andThen (Goes.attempt rfl (fun _ => trivial) trivial) (Goes.pure trivial)
  have few : 0 + 1 < counterEnd := by decide
  have sound : (Holding.opening 0 [] (.empty sessionId) none).Sound checks (.empty sessionId) :=
    Holding.sound_opening rfl readable (fun _ found => by cases found) (Nat.le_refl 0) few
  rcases @Holding.publishSet_goes _ _ _ _ checks (.opening 0 [] (.empty sessionId) none) Disk.empty
    (fun _ => True) 0 [] (.empty sessionId) none rfl readable rfl
    (fun _ _ _ present => absurd rfl present) (fun _ _ => trivial) (fun _ _ => trivial) with
    ⟨after, publishes, on⟩
  rcases entries_of_file on.segment with ⟨file, entry, _⟩
  have loads := @Holding.On.loadSet_goes _ _ _ _ checks codec (.empty sessionId)
    (.opening 0 [] (.empty sessionId) none) [] after file (fun _ => True) on sound faithful entry
    (Nat.zero_le _) trivial trivial
  rw [on.store_frames entry] at loads
  have valid := (checkLogicalRead_eq_ok.mp readable).1
  have initial : Goes (fun _ => True)
      (initialManifest checks codec (.empty sessionId) 0 firstDigest none).run Disk.empty
      (.ok (Holding.opening 0 ([] : List (Event τ κ)) (.empty sessionId)
        none).manifest) after := by
    apply Goes.andThen (Goes.liftOk valid trivial)
    apply Goes.andThen (Goes.liftOk (checkLogicalWrite_eq_ok.mpr readable) trivial)
    apply Goes.andThen missing
    apply Goes.andThen (Goes.liftOk rfl trivial)
    exact publishes
  have whole : Goes (fun _ => True) (loadState checks codec sessionId).run Disk.empty
      (.ok ((Holding.opening 0 [] (.empty sessionId) none).loaded file false)) after := by
    apply Goes.andThen missing
    apply Goes.andThen modern
    apply Goes.andThen (Goes.liftOk rfl trivial)
    apply Goes.andThen (Goes.liftOk readable trivial)
    apply Goes.andThen initial
    exact loads
  have positive : 0 < segmentByteThreshold := by decide
  refine ⟨_, after, whole.runs, _, file, false, rfl, entry, rfl, sound, on, positive, ?_⟩
  intro _ _ found
  cases found

end Sessions

section Directories

variable {τ κ : Type}

/-- An operation of a handle, whole or cut: behind some file operations, and in the
middle of the next one if that is a write. -/
inductive Operation (τ κ : Type) where
  | read (handle : Nat)
  | append (handle : Nat) (event : Event τ κ)
  | cutRead (handle steps count : Nat)
  | cutAppend (handle : Nat) (event : Event τ κ) (steps count : Nat)

namespace Operation

/-- The event that is to be appended. -/
def event : Operation τ κ → Option (Event τ κ)
  | append _ event | cutAppend _ event _ _ => some event
  | _ => none

def isCut : Operation τ κ → Bool
  | cutRead .. | cutAppend .. => true
  | _ => false

/-- The handle that finishes the operation. -/
def finisher : Operation τ κ → Option Nat
  | read handle | append handle _ => some handle
  | _ => none

end Operation

/-- What comes back from an operation. -/
inductive Outcome (τ κ : Type) where
  | state (result : Except StoreError (SessionState τ κ))
  | stored (result : Except StoreError Unit)
  | lost

/-- The directory of a session, its handles, and what was asked and came back. -/
structure Directory (τ κ : Type) where
  disk : Disk
  handles : Nat → Option (LoadedStore τ κ)
  past : List (Operation τ κ × Outcome τ κ)

def Directory.empty : Directory τ κ :=
  ⟨.empty, fun _ => none, []⟩

variable [Recorded τ] [Recorded κ]

def Directory.step (checks : Checks τ κ) (codec : Codec τ κ)
    (sessionId : String) (directory : Directory τ κ) :
    Operation τ κ → Directory τ κ
  | .read handle =>
      let ((answer, cache), disk) :=
        (read checks codec sessionId (directory.handles handle)).run directory.disk
      ⟨disk, Function.update directory.handles handle cache,
        directory.past ++ [(.read handle, .state answer)]⟩
  | .append handle event =>
      let ((answer, cache), disk) :=
        (appendOne checks codec sessionId (directory.handles handle) event).run directory.disk
      ⟨disk, Function.update directory.handles handle cache,
        directory.past ++ [(.append handle event, .stored answer)]⟩
  | .cutRead handle steps count =>
      ⟨(read checks codec sessionId (directory.handles handle)).cut steps count directory.disk,
        Function.update directory.handles handle none,
        directory.past ++ [(.cutRead handle steps count, .lost)]⟩
  | .cutAppend handle event steps count =>
      ⟨(appendOne checks codec sessionId (directory.handles handle) event).cut steps count
          directory.disk,
        Function.update directory.handles handle none,
        directory.past ++ [(.cutAppend handle event steps count, .lost)]⟩

/-- What the one log of a session makes of an operation, from a history to the next. -/
inductive Serves (checks : Checks τ κ)
    (first : SessionState τ κ) :
    List (Event τ κ) → Operation τ κ →
      Outcome τ κ → List (Event τ κ) → Prop
  | read {history state} (handle : Nat) (reached : replayed checks first history = .ok state) :
      Serves checks first history (.read handle) (.state (.ok state)) history
  | stored {history state later event} (handle : Nat)
      (reached : replayed checks first history = .ok state)
      (admitted : acceptEvent checks state event = .ok later) :
      Serves checks first history (.append handle event) (.stored (.ok ())) (history ++ [event])
  | refused {history state error event} (handle : Nat)
      (reached : replayed checks first history = .ok state)
      (refused : acceptEvent checks state event = .error error) :
      Serves checks first history (.append handle event) (.stored (.error error)) history
  | cutRead {history} (handle steps count : Nat) :
      Serves checks first history (.cutRead handle steps count) .lost history
  | cutBefore {history} (handle : Nat) (event : Event τ κ)
      (steps count : Nat) :
      Serves checks first history (.cutAppend handle event steps count) .lost history
  | cutBehind {history state later event} (handle steps count : Nat)
      (reached : replayed checks first history = .ok state)
      (admitted : acceptEvent checks state event = .ok later) :
      Serves checks first history (.cutAppend handle event steps count) .lost (history ++ [event])

/-- The operations, in their order, take the empty log to the history. -/
inductive Served (checks : Checks τ κ)
    (first : SessionState τ κ) :
    List (Operation τ κ × Outcome τ κ) →
      List (Event τ κ) → Prop
  | start : Served checks first [] []
  | step {past history operation outcome later} (earlier : Served checks first past history)
      (serves : Serves checks first history operation outcome later) :
      Served checks first (past ++ [(operation, outcome)]) later

/-- A fresh load finds what the handle has cached, and changes nothing. -/
def Directory.Fresh (checks : Checks τ κ) (codec : Codec τ κ) (sessionId : String)
    (directory : Directory τ κ) (handle : Nat) : Prop :=
  ∃ cached, directory.handles handle = some cached ∧
    (loadState checks codec sessionId).run.run directory.disk =
      (.ok { cached with repairedTail := false }, directory.disk)

/-- The number of operations that were cut. -/
def cuts (past : List (Operation τ κ × Outcome τ κ)) : Nat :=
  past.countP fun entry => entry.1.isCut

/-- The directory serves its handles as the one log does. -/
structure Directory.Holds (checks : Checks τ κ)
    (codec : Codec τ κ) (sessionId : String) (size : Nat) (directory : Directory τ κ)
    (history : List (Event τ κ)) : Prop where
  served : Served checks (.empty sessionId) directory.past history
  kept : Kept checks (.empty sessionId) directory.handles
    (segmentByteThreshold + cuts directory.past * size) history directory.disk
  counted : history.length + 1 ≤ directory.past.length
  fresh : ∀ operation outcome, directory.past.getLast? = some (operation, outcome) →
    ∀ handle, operation.finisher = some handle → directory.Fresh checks codec sessionId handle

variable {checks : Checks τ κ} {codec : Codec τ κ}
  {sessionId : String} {size : Nat} {directory : Directory τ κ} {history : List (Event τ κ)}
  {operation : Operation τ κ}

omit [Recorded τ] [Recorded κ] in
theorem cuts_concat {past : List (Operation τ κ × Outcome τ κ)}
    {entry : Operation τ κ × Outcome τ κ} :
    cuts (past ++ [entry]) = cuts past + if entry.1.isCut then 1 else 0 := by
  simp [cuts, List.countP_append, List.countP_singleton]

/-- The first read opens an empty log. -/
theorem Directory.holds_first (faithful : codec.Faithful checks (.empty sessionId) [])
    (readable : checkLogicalRead checks (.empty sessionId) = .ok ()) (handle : Nat) :
    ((Directory.empty : Directory τ κ).step checks codec sessionId
      (.read handle)).Holds checks codec sessionId size [] := by
  rcases loadState_first faithful readable with ⟨loaded, after, loads, ends⟩
  have state : loaded.state = .empty sessionId := by
    rcases ends with ⟨holding, file, repaired, same, _, rfl, keeps⟩
    have reached := keeps.sound.history_replayed
    rw [same] at reached
    exact (Except.ok.inj reached).symm
  have reads : (read checks codec sessionId none).run Disk.empty =
      ((.ok (.empty sessionId), some loaded), after) := by
    have opened : (openCurrent checks codec sessionId none).run.run Disk.empty =
        (.ok loaded, after) := loads
    rw [read, Prog.run_bind, opened, ← state]
    rfl
  have stepped : (Directory.empty : Directory τ κ).step checks codec sessionId
      (.read handle) = ⟨after, Function.update (fun _ => none) handle (some loaded),
        [(.read handle, .state (.ok (.empty sessionId)))]⟩ := by
    simp only [Directory.step, Directory.empty, reads, List.nil_append]
  rw [stepped]
  constructor
  · exact @Served.step _ _ _ _ checks _ [] [] _ _ [] .start (.read handle rfl)
  · exact (ends.weaken (Nat.le_add_right _ _)).kept handle
  · exact Nat.le_refl 1
  · intro operation outcome last other finishes
    cases last
    cases finishes
    exact ⟨loaded, by simp, ends.fresh faithful (by decide) sessionId⟩

end Directories

section Runs

variable {τ κ : Type} [Recorded τ] [Recorded κ] {checks : Checks τ κ} {codec : Codec τ κ}
  {sessionId : String} {size handle : Nat} {directory : Directory τ κ}
  {history later : List (Event τ κ)} {operation : Operation τ κ} {outcome : Outcome τ κ}
  {after : Disk}

theorem Serves.length_le {first : SessionState τ κ}
    (serves : Serves checks first history operation outcome later) :
    later.length ≤ history.length + 1 := by
  cases serves <;> simp

/-- A whole operation that served as the log does. -/
theorem Directory.Holds.finished (holds : directory.Holds checks codec sessionId size history)
    (faithful : codec.Faithful checks (.empty sessionId) later)
    (limited : segmentByteThreshold + cuts directory.past * size ≤ segmentCap)
    (serves : Serves checks (.empty sessionId) history operation outcome later)
    (finishes : operation.finisher = some handle) (whole : operation.isCut = false)
    {loaded : LoadedStore τ κ} (ends : Ends checks (.empty sessionId) directory.handles
      (segmentByteThreshold + cuts directory.past * size) later loaded after) :
    Directory.Holds checks codec sessionId size
      ⟨after, Function.update directory.handles handle (some loaded),
        directory.past ++ [(operation, outcome)]⟩ later := by
  constructor
  · exact .step holds.served serves
  · rw [cuts_concat, whole]
    exact ends.kept handle
  · have counted := holds.counted
    have length := serves.length_le
    rw [List.length_append, List.length_singleton]
    omega
  · intro last answer found other finished
    rw [List.getLast?_concat] at found
    cases found
    rw [finishes] at finished
    cases finished
    exact ⟨loaded, by simp, ends.fresh faithful limited sessionId⟩

/-- An operation that was cut, and whose handle is gone. -/
theorem Directory.Holds.lost (holds : directory.Holds checks codec sessionId size history)
    (serves : Serves checks (.empty sessionId) history operation .lost later)
    (unfinished : operation.finisher = none) (cut : operation.isCut = true) (handle : Nat)
    (kept : Kept checks (.empty sessionId) directory.handles
      (segmentByteThreshold + (cuts directory.past + 1) * size) later after) :
    Directory.Holds checks codec sessionId size
      ⟨after, Function.update directory.handles handle none,
        directory.past ++ [(operation, .lost)]⟩ later := by
  constructor
  · exact .step holds.served serves
  · rw [cuts_concat, cut]
    exact kept.dropped handle
  · have counted := holds.counted
    have length := serves.length_le
    rw [List.length_append, List.length_singleton]
    omega
  · intro last answer found other finished
    rw [List.getLast?_concat] at found
    cases found
    rw [unfinished] at finished
    cases finished

/-- Every operation leaves a directory that serves as the log does. -/
theorem Directory.Holds.step (holds : directory.Holds checks codec sessionId size history)
    (faithful : ∀ past history, Served checks (.empty sessionId) past history →
      past.map Prod.fst <+: directory.past.map Prod.fst ++ [operation] →
      codec.Faithful checks (.empty sessionId) history)
    (small : ∀ event, operation.event = some event → frameSize event ≤ size)
    (few : (cuts directory.past + 1) * size ≤ maxSessionBytes + 4096)
    (short : directory.past.length + 2 < counterEnd) :
    ∃ later, (directory.step checks codec sessionId operation).Holds checks codec sessionId size
      later := by
  rcases holds.kept with ⟨holding, tail, rfl, keeps⟩
  have roomy : segmentByteThreshold + (cuts directory.past + 1) * size ≤ segmentCap :=
    Nat.le_trans (Nat.add_le_add_left few _)
      (Nat.le_of_eq (Nat.add_assoc segmentByteThreshold maxSessionBytes 4096).symm)
  have more : segmentByteThreshold + cuts directory.past * size + size =
      segmentByteThreshold + (cuts directory.past + 1) * size := by
    rw [Nat.add_mul, Nat.one_mul, Nat.add_assoc]
  have limited : segmentByteThreshold + cuts directory.past * size ≤ segmentCap := by
    omega
  have threshold : segmentByteThreshold ≤ segmentByteThreshold + cuts directory.past * size :=
    Nat.le_add_right _ _
  have counted := holds.counted
  have numbered : holding.history.length + 2 < counterEnd := by
    omega
  have reached := keeps.sound.history_replayed
  have current := faithful directory.past holding.history holds.served (List.prefix_append _ _)
  -- what the one log makes of the operation is read back as well
  have served : ∀ outcome later,
      Serves checks (.empty sessionId) holding.history operation outcome later →
      codec.Faithful checks (.empty sessionId) later := by
    intro outcome later serves
    apply faithful (directory.past ++ [(operation, outcome)]) later (.step holds.served serves)
    rw [List.map_append]
    exact List.prefix_rfl
  rcases keeps.entry with ⟨file, entry⟩
  cases operation with
  | read handle =>
      rcases keeps.read_goes current limited entry sessionId handle with ⟨repaired, reads⟩
      have ends : Ends checks (.empty sessionId) directory.handles
          (segmentByteThreshold + cuts directory.past * size) holding.history
          (holding.loaded file repaired) (directory.disk.store file holding.frames) :=
        ⟨holding, file, repaired, rfl, entry, rfl, keeps.mended entry⟩
      refine ⟨holding.history, ?_⟩
      simp only [Directory.step, reads.runs]
      exact holds.finished current limited (.read handle reached) rfl rfl ends
  | append handle event =>
      rcases keeps.appendOne_goes current
        (fun later admitted => served _ _ (.stored handle reached admitted)) sessionId handle
        (small event rfl)
        (more.trans_le roomy) numbered threshold with ⟨answer, next, after, appends, outcome⟩
      simp only [Directory.step, appends.runs]
      rcases outcome with ⟨error, refused, rfl, ends⟩ | ⟨later, admitted, rfl, ends⟩
      · exact ⟨_, holds.finished current limited (.refused handle reached refused) rfl rfl ends⟩
      · have serves := Serves.stored handle reached admitted
        exact ⟨_, holds.finished (served _ _ serves) limited serves rfl rfl ends⟩
  | cutRead handle steps count =>
      rcases keeps.read_goes current limited entry sessionId handle with ⟨repaired, reads⟩
      have kept := (reads.survives steps count).weaken (Nat.le_add_right _ size)
      rw [more] at kept
      exact ⟨_, holds.lost (.cutRead handle steps count) rfl rfl handle kept⟩
  | cutAppend handle event steps count =>
      rcases keeps.appendOne_goes current
        (fun later admitted => served _ _ (.cutBehind handle steps count reached admitted))
        sessionId handle (small event rfl)
        (more.trans_le roomy) numbered threshold with ⟨answer, next, after, appends, _⟩
      have survives := appends.survives steps count
      rw [Holding.Survives, more] at survives
      rcases survives with kept | ⟨⟨later, admitted⟩, kept⟩
      · exact ⟨_, holds.lost (.cutBefore handle event steps count) rfl rfl handle kept⟩
      · exact ⟨_, holds.lost (.cutBehind handle steps count reached admitted) rfl rfl handle kept⟩

theorem past_step : ∃ outcome, (directory.step checks codec sessionId operation).past =
    directory.past ++ [(operation, outcome)] := by
  cases operation <;> exact ⟨_, rfl⟩

theorem past_run (start : Directory τ κ) (operations : List (Operation τ κ)) :
    (run (Directory.step checks codec sessionId) start operations).past.map Prod.fst =
      start.past.map Prod.fst ++ operations := by
  induction operations using List.reverseRecOn with
  | nil => exact (List.append_nil _).symm
  | append_singleton operations operation ih =>
      rw [run_concat]
      rcases @past_step _ _ _ _ checks codec sessionId
        (run (Directory.step checks codec sessionId) start operations) operation
        with ⟨outcome, same⟩
      rw [same, List.map_append, ih, List.append_assoc]
      rfl

/-- However the operations of any number of handles interleave, and wherever they are
cut behind the first, the session serves them as one log does: a whole operation as if
it were alone with the history, and one that was cut entirely or not at all.  A fresh
load finds the history, and what the handle holds that finished last. -/
theorem served_of_run (readable : checkLogicalRead checks (.empty sessionId) = .ok ())
    (handle : Nat) (operations : List (Operation τ κ))
    (faithful : ∀ past history, Served checks (.empty sessionId) past history →
      past.map Prod.fst <+: .read handle :: operations →
      codec.Faithful checks (.empty sessionId) history)
    (small : ∀ operation ∈ operations, ∀ event, operation.event = some event →
      frameSize event ≤ size)
    (few : (operations.countP Operation.isCut + 1) * size ≤ maxSessionBytes + 4096)
    (short : operations.length + 3 < counterEnd) :
    let directory := run (Directory.step checks codec sessionId) .empty (.read handle :: operations)
    directory.past.map Prod.fst = .read handle :: operations ∧
      ∃ history, Served checks (.empty sessionId) directory.past history ∧
        (∃ loaded after,
          (loadState checks codec sessionId).run.run directory.disk = (.ok loaded, after) ∧
          replayed checks (.empty sessionId) history = .ok loaded.state ∧
          loaded.cursor.seq.toNat = history.length ∧
          loaded.cursor.digest = (origin.behind history).digest) ∧
        ∀ operation outcome, directory.past.getLast? = some (operation, outcome) →
          ∀ handle, operation.finisher = some handle →
            directory.Fresh checks codec sessionId handle := by
  intro directory
  have opened := @Directory.holds_first _ _ _ _ checks codec sessionId size
    (faithful [] [] .start List.nil_prefix) readable handle
  have entries : ∀ reached,
      (run (Directory.step checks codec sessionId)
        (Directory.empty.step checks codec sessionId (.read handle)) reached).past.map Prod.fst =
        .read handle :: reached :=
    fun reached => past_run _ reached
  have counted : ∀ reached, cuts (run (Directory.step checks codec sessionId)
      (Directory.empty.step checks codec sessionId (.read handle)) reached).past =
        reached.countP Operation.isCut := by
    intro reached
    have same := congrArg (List.countP Operation.isCut) (entries reached)
    rw [List.countP_map, List.countP_cons_of_neg Bool.false_ne_true] at same
    exact same
  have holds : ∀ reached, reached <+: operations → ∃ history,
      (run (Directory.step checks codec sessionId)
        (Directory.empty.step checks codec sessionId (.read handle)) reached).Holds checks codec
        sessionId size history := by
    apply run_invariant (fun directory : Directory τ κ => ∃ history,
      directory.Holds checks codec sessionId size history) ⟨[], opened⟩
    rintro before operation reached ⟨history, holds⟩
    have earlier := entries before
    have length := congrArg List.length earlier
    have shorter := reached.length_le
    have fewer : (before ++ [operation]).countP Operation.isCut ≤
        operations.countP Operation.isCut := reached.sublist.countP_le
    rw [List.length_map, List.length_cons] at length
    rw [List.length_append, List.length_singleton] at shorter
    rw [List.countP_append] at fewer
    apply holds.step
    · intro past history served part
      apply faithful past history served
      rw [earlier, List.cons_append] at part
      exact part.trans (List.prefix_cons_inj _ |>.mpr reached)
    · exact small operation (reached.subset (by simp))
    · rw [counted]
      exact Nat.le_trans (Nat.mul_le_mul_right size (by omega)) few
    · omega
  refine ⟨entries operations, ?_⟩
  rcases holds operations List.prefix_rfl with ⟨history, held⟩
  refine ⟨history, held.served, ?_, held.fresh⟩
  rcases held.kept with ⟨holding, tail, rfl, keeps⟩
  rcases keeps.entry with ⟨file, entry⟩
  have roomy : segmentByteThreshold + cuts directory.past * size ≤ segmentCap := by
    have same : cuts directory.past = operations.countP Operation.isCut := counted operations
    rw [same]
    apply Nat.le_trans (Nat.add_le_add_left (Nat.mul_le_mul_right size (Nat.le_succ _)) _)
    exact Nat.le_trans (Nat.add_le_add_left few _)
      (Nat.le_of_eq (Nat.add_assoc segmentByteThreshold maxSessionBytes 4096).symm)
  have current := faithful _ _ held.served (by rw [entries operations])
  have loads := @Holding.On.loadState_goes _ _ _ _ checks codec (.empty sessionId) holding tail
    directory.disk file (fun _ => True) keeps.on keeps.sound current entry
    (keeps.replayable roomy) trivial trivial sessionId
  refine ⟨_, _, loads.runs, keeps.sound.history_replayed, ?_, ?_⟩
  · exact keeps.sound.seq_cursor
  · exact Holding.chain_cursor.2

/-- The reader of everything that the store writes. -/
noncomputable def sampleCodec : Codec Unit Unit :=
  ⟨readBack, readBack, readBack⟩

theorem faithful_sampleCodec {checks : Checks Unit Unit} {first : SessionState Unit Unit}
    {history : List (Event Unit Unit)} : sampleCodec.Faithful checks first history :=
  ⟨readBack_serialize, fun event _ => readBack_serialize (batchOf [event]),
    fun _ state _ _ seq digest _ => readBack_serialize (snapshotOf state seq digest)⟩

/-- An append, an append that is cut in the write of its frame, and a read. -/
def sampleOperations : List (Operation Unit Unit) :=
  [.append 0 sampleEvent, .cutAppend 1 sampleEvent 40 7, .read 2]

theorem served_of_run_sample :
    let directory := run (Directory.step sampleChecks sampleCodec "session") .empty
      (.read 0 :: sampleOperations)
    directory.past.map Prod.fst = .read 0 :: sampleOperations ∧
      ∃ history, Served sampleChecks (.empty "session") directory.past history ∧
        (∃ loaded after,
          (loadState sampleChecks sampleCodec "session").run.run directory.disk =
            (.ok loaded, after) ∧
          replayed sampleChecks (.empty "session") history = .ok loaded.state ∧
          loaded.cursor.seq.toNat = history.length ∧
          loaded.cursor.digest = (origin.behind history).digest) ∧
        ∀ operation outcome, directory.past.getLast? = some (operation, outcome) →
          ∀ handle, operation.finisher = some handle →
            directory.Fresh sampleChecks sampleCodec "session" handle := by
  have readable : checkLogicalRead sampleChecks
      (.empty "session" : SessionState Unit Unit) = .ok () :=
    checkLogicalRead_eq_ok.mpr ⟨by decide +kernel, by decide +kernel⟩
  have small : frameSize sampleEvent ≤ 3072 := by
    have fits := fits_sampleEvent
    rw [frameSize, headerLen, digestLen]
    omega
  apply @served_of_run _ _ _ _ sampleChecks sampleCodec "session" 3072 readable 0 sampleOperations
  · exact fun _ _ _ _ => faithful_sampleCodec
  · intro operation member event named
    simp only [sampleOperations, List.mem_cons, List.not_mem_nil, or_false] at member
    rcases member with rfl | rfl | rfl <;> cases named <;> exact small
  · decide
  · decide

end Runs

end Llxprt.Log
