import Llxprt.Store.ContextStore

/-!
# Loading and salvaging the spine

The durable loader refuses a text with a corrupt frame, the salvage keeps the
records in front of it.  Both walk the same frames, so a text is a sequence of
valid frames followed by a rest that begins with none, and the two loaders
differ only in what they do with the rest.
-/

namespace Llxprt.Store

open Llxprt.Kernel Llxprt.Rust

namespace Spine

/-- The first loop of the salvage, which stops at a frame that is torn or fails
its digest. -/
def salvage (encoded : Bytes) : Nat → Nat → Spine → Nat × Spine
  | 0, cursor, spine => (cursor, spine)
  | rounds + 1, cursor, spine =>
      if cursor < encoded.length then
        match frameAt encoded cursor with
        | none => (cursor, spine)
        | some (bytes, contentDigest, next) =>
            if digest bytes ≠ contentDigest then
              (cursor, spine)
            else
              salvage encoded rounds next (spine.append (canonicalHandle spine.len bytes) bytes)
      else
        (cursor, spine)

/-- The second loop, which counts the frames behind the cursor.  A torn frame is
the last one and counts too. -/
def countDropped (encoded : Bytes) : Nat → Nat → Nat → Nat
  | 0, _, dropped => dropped
  | rounds + 1, cursor, dropped =>
      if cursor < encoded.length then
        match frameAt encoded cursor with
        | some (_, _, next) => countDropped encoded rounds next (dropped + 1)
        | none => dropped + 1
      else
        dropped

/-- The salvage of a text: it never fails. -/
def load (encoded : Bytes) : Spine :=
  let (cursor, spine) := salvage encoded (encoded.length + 1) 0 new
  { spine with droppedTailFrames := countDropped encoded (encoded.length + 1) cursor 0 }

end Spine

namespace Spine

/-- The text of the payloads when each is framed with its own digest. -/
def frames (payloads : List Bytes) : Bytes :=
  payloads.flatMap fun bytes => frame bytes (digest bytes)

/-- Every payload fits the four bytes of its length. -/
def Short (payloads : List Bytes) : Prop :=
  ∀ bytes ∈ payloads, bytes.length < 2 ^ 32

/-- The text begins with no valid frame. -/
def Invalid (rest : Bytes) : Prop :=
  ∀ bytes, bytes.length < 2 ^ 32 → ¬frame bytes (digest bytes) <+: rest

/-- The payloads fill the longest prefix of the text that is made of valid
frames. -/
structure LongestPrefix (payloads : List Bytes) (encoded : Bytes) : Prop where
  short : Short payloads
  isPrefix : frames payloads <+: encoded
  longest : ∀ others, Short others → frames others <+: encoded → others <+: payloads

section Frames

variable {encoded rest bytes : Bytes} {contentDigest : Digest} {payloads others : List Bytes}
  {cursor next : Nat}

@[simp]
theorem frames_nil : frames [] = [] :=
  rfl

@[simp]
theorem frames_cons : frames (bytes :: payloads) = frame bytes (digest bytes) ++ frames payloads :=
  rfl

theorem length_le_frames : payloads.length ≤ (frames payloads).length := by
  induction payloads with
  | nil => exact Nat.le_refl 0
  | cons bytes payloads ih =>
      rw [frames_cons, List.length_append, length_frame, List.length_cons]
      omega

theorem short_nil : Short [] := by
  intro bytes member
  cases member

theorem short_cons : Short (bytes :: payloads) ↔ bytes.length < 2 ^ 32 ∧ Short payloads := by
  unfold Short
  exact List.forall_mem_cons

/-- A number is below the power of its bytes. -/
theorem ofLittleEndian_lt (bytes : Bytes) : ofLittleEndian bytes < 2 ^ (8 * bytes.length) := by
  induction bytes with
  | nil => exact Nat.one_pos
  | cons byte bytes ih =>
      have low := byte.toNat_lt
      have power : 2 ^ (8 * (byte :: bytes).length) = 256 * 2 ^ (8 * bytes.length) := by
        rw [List.length_cons, Nat.mul_add, Nat.pow_add, Nat.mul_comm]
      have split : ofLittleEndian (byte :: bytes) = byte.toNat + 256 * ofLittleEndian bytes := rfl
      rw [power, split]
      omega

/-- What is read at a cursor is a frame that stands there. -/
theorem frameAt_eq_some (read : frameAt encoded cursor = some (bytes, contentDigest, next)) :
    bytes.length < 2 ^ 32 ∧ encoded.drop cursor = frame bytes contentDigest ++ encoded.drop next ∧
      next = cursor + (frame bytes contentDigest).length := by
  unfold frameAt at read
  split at read
  · cases read
  rename_i header
  dsimp only at read
  split at read
  · cases read
  rename_i body
  rw [Option.some.injEq, Prod.mk.injEq, Prod.mk.injEq] at read
  rcases read with ⟨payload, stamp, stop⟩
  generalize written : ofLittleEndian ((encoded.drop cursor).take 4) = length at payload stamp stop
  have four : ((encoded.drop cursor).take 4).length = 4 := by
    rw [List.length_take, List.length_drop]
    omega
  have eight : ((encoded.drop (cursor + 4 + length)).take 8).length = 8 := by
    rw [written] at body
    rw [List.length_take, List.length_drop]
    omega
  have size : bytes.length = length := by
    rw [written] at body
    rw [← payload, List.length_take, List.length_drop]
    omega
  have bound : length < 2 ^ 32 := by
    have limit := ofLittleEndian_lt ((encoded.drop cursor).take 4)
    rw [written, four] at limit
    exact limit
  have stampBound : ofLittleEndian ((encoded.drop (cursor + 4 + length)).take 8) < 2 ^ 64 := by
    have limit := ofLittleEndian_lt ((encoded.drop (cursor + 4 + length)).take 8)
    rw [eight] at limit
    exact limit
  have lengthBytes : (encoded.drop cursor).take 4 = leBytes32 (UInt32.ofNat bytes.length) := by
    apply eq_leBytes32 four
    rw [written, size, UInt32.toNat_ofNat', Nat.mod_eq_of_lt bound]
  have digestBytes : (encoded.drop (cursor + 4 + length)).take 8 = leBytes contentDigest := by
    apply eq_leBytes eight
    rw [← stamp, UInt64.toNat_ofNat', Nat.mod_eq_of_lt stampBound]
  have stopped : next = cursor + 4 + length + 8 := stop.symm
  constructor
  · rw [size]
    exact bound
  constructor
  · calc encoded.drop cursor
        = (encoded.drop cursor).take 4 ++ encoded.drop (cursor + 4) := by
          rw [← List.drop_drop, List.take_append_drop]
      _ = (encoded.drop cursor).take 4 ++ ((encoded.drop (cursor + 4)).take length ++
            encoded.drop (cursor + 4 + length)) := by
          rw [← List.drop_drop (i := length), List.take_append_drop]
      _ = (encoded.drop cursor).take 4 ++ ((encoded.drop (cursor + 4)).take length ++
            ((encoded.drop (cursor + 4 + length)).take 8 ++ encoded.drop next)) := by
          rw [stopped, ← List.drop_drop (i := 8), List.take_append_drop]
      _ = frame bytes contentDigest ++ encoded.drop next := by
          rw [lengthBytes, payload, digestBytes]
          simp only [frame, List.append_assoc]
  · rw [stopped, length_frame, size]
    omega

/-- A frame tells where it ends. -/
theorem frame_append_inj {other after : Bytes} (short : bytes.length < 2 ^ 32)
    (otherShort : other.length < 2 ^ 32)
    (same : frame bytes (digest bytes) ++ rest = frame other (digest other) ++ after) :
    bytes = other ∧ rest = after := by
  have first := frameAt_frame [] rest (digest bytes) short
  have second := frameAt_frame [] after (digest other) otherShort
  rw [List.nil_append] at first second
  rw [same, second, Option.some.injEq, Prod.mk.injEq] at first
  have equal : bytes = other := first.1.symm
  rw [equal] at same
  exact ⟨equal, List.append_cancel_left same⟩

/-- A frame read at the start of a rest without valid frames fails its digest. -/
theorem Invalid.frameAt (invalid : Invalid rest) {before : Bytes}
    (read : frameAt (before ++ rest) before.length = some (bytes, contentDigest, next)) :
    digest bytes ≠ contentDigest := by
  rcases frameAt_eq_some read with ⟨short, stands, _⟩
  rw [List.drop_left] at stands
  rintro rfl
  exact invalid bytes short ⟨_, stands.symm⟩

/-- Every text is a sequence of valid frames and a rest that begins with none. -/
theorem exists_frames (encoded : Bytes) :
    ∃ payloads rest, Short payloads ∧ Invalid rest ∧ encoded = frames payloads ++ rest := by
  generalize size : encoded.length = length
  induction length using Nat.strong_induction_on generalizing encoded with
  | h length ih =>
      by_cases invalid : Invalid encoded
      · exact ⟨[], encoded, short_nil, invalid, rfl⟩
      · simp only [Invalid, not_forall, Decidable.not_not] at invalid
        rcases invalid with ⟨bytes, short, rest, rfl⟩
        have smaller : rest.length < length := by
          rw [← size, List.length_append, length_frame]
          omega
        rcases ih rest.length smaller rest rfl with ⟨payloads, after, shorts, stop, rfl⟩
        refine ⟨bytes :: payloads, after, short_cons.mpr ⟨short, shorts⟩, stop, ?_⟩
        rw [frames_cons, List.append_assoc]

/-- No sequence of valid frames reaches further than the one in front of the
rest. -/
theorem Invalid.longest (invalid : Invalid rest) (short : Short payloads)
    (otherShort : Short others) (isPrefix : frames others <+: frames payloads ++ rest) :
    others <+: payloads := by
  induction others generalizing payloads with
  | nil => exact List.nil_prefix
  | cons other others ih =>
      rcases isPrefix with ⟨after, covered⟩
      rw [frames_cons, List.append_assoc] at covered
      rcases short_cons.mp otherShort with ⟨headShort, tailShort⟩
      cases payloads with
      | nil => exact absurd ⟨_, covered⟩ (invalid other headShort)
      | cons bytes payloads =>
          rcases short_cons.mp short with ⟨bytesShort, payloadsShort⟩
          rw [frames_cons, List.append_assoc] at covered
          rcases frame_append_inj headShort bytesShort covered with ⟨rfl, tails⟩
          exact List.prefix_cons_inj other |>.mpr (ih payloadsShort tailShort ⟨after, tails⟩)

theorem longestPrefix (invalid : Invalid rest) (short : Short payloads) :
    LongestPrefix payloads (frames payloads ++ rest) :=
  ⟨short, List.prefix_append _ _, fun _ => invalid.longest short⟩

end Frames

section Loops

variable {rest : Bytes} {payloads : List Bytes} {spine : Spine} {rounds index : Nat}

theorem lt_length_frames (before : Bytes) (bytes : Bytes) :
    before.length < (before ++ (frames (bytes :: payloads) ++ rest)).length := by
  rw [frames_cons, List.length_append, List.length_append, List.length_append, length_frame]
  omega

/-- The frame in front of the others is read at the cursor. -/
theorem frameAt_frames {bytes : Bytes} (before : Bytes) (short : bytes.length < 2 ^ 32) :
    frameAt (before ++ (frames (bytes :: payloads) ++ rest)) before.length =
      some (bytes, digest bytes, (before ++ frame bytes (digest bytes)).length) := by
  rw [frames_cons, List.append_assoc, frameAt_frame before _ (digest bytes) short,
    List.length_append]

theorem frames_shift (before bytes : Bytes) :
    before ++ (frames (bytes :: payloads) ++ rest) =
      before ++ frame bytes (digest bytes) ++ (frames payloads ++ rest) := by
  simp only [frames_cons, List.append_assoc]

/-- The salvage admits the frames and stops in front of the rest. -/
theorem salvage_frames (before : Bytes) (short : Short payloads) (invalid : Invalid rest)
    (enough : payloads.length < rounds) :
    salvage (before ++ (frames payloads ++ rest)) rounds before.length spine =
      ((before ++ frames payloads).length, payloads.foldl admitFrame spine) := by
  induction payloads generalizing before spine rounds with
  | nil =>
      cases rounds with
      | zero => cases enough
      | succ rounds =>
          rw [frames_nil, List.nil_append, List.append_nil, salvage]
          split
          · split
            · rfl
            · rename_i bytes contentDigest next read
              rw [if_pos (invalid.frameAt read)]
              rfl
          · rfl
  | cons bytes payloads ih =>
      cases rounds with
      | zero => cases enough
      | succ rounds =>
          rcases short_cons.mp short with ⟨head, tail⟩
          rw [salvage, if_pos (lt_length_frames before bytes), frameAt_frames before head]
          simp only [ne_eq, not_true_eq_false, if_false]
          rw [frames_shift, ih _ tail (Nat.lt_of_succ_lt_succ enough)]
          simp only [frames_cons, List.append_assoc]
          rfl

/-- The durable loader refuses the frames when a rest follows them. -/
theorem loadFrames_invalid (before : Bytes) (short : Short payloads) (invalid : Invalid rest)
    (torn : rest ≠ []) (enough : payloads.length < rounds) :
    loadFrames (before ++ (frames payloads ++ rest)) rounds before.length index spine =
      .error (.corruptFrame (index + payloads.length)
        (payloads.foldl admitFrame spine).records.length) := by
  induction payloads generalizing before spine rounds index with
  | nil =>
      cases rounds with
      | zero => cases enough
      | succ rounds =>
          have remains : before.length < (before ++ rest).length := by
            rw [List.length_append]
            have := List.length_pos_iff.mpr torn
            omega
          rw [frames_nil, List.nil_append, loadFrames, if_pos remains]
          split
          · rfl
          · rename_i bytes contentDigest next read
            rw [if_pos (invalid.frameAt read)]
            rfl
  | cons bytes payloads ih =>
      cases rounds with
      | zero => cases enough
      | succ rounds =>
          rcases short_cons.mp short with ⟨head, tail⟩
          rw [loadFrames, if_pos (lt_length_frames before bytes), frameAt_frames before head]
          simp only [ne_eq, not_true_eq_false, if_false]
          rw [frames_shift, ih _ tail (Nat.lt_of_succ_lt_succ enough), List.length_cons,
            Nat.add_right_comm, Nat.add_assoc]
          rfl

theorem enough_rounds (payloads : List Bytes) (rest : Bytes) :
    payloads.length < (frames payloads ++ rest).length + 1 := by
  have bound := @length_le_frames payloads
  rw [List.length_append]
  omega

/-- The salvage of a text keeps its valid frames and counts what stands behind
them. -/
theorem load_frames (short : Short payloads) (invalid : Invalid rest) :
    load (frames payloads ++ rest) = { holding payloads with
      droppedTailFrames := countDropped (frames payloads ++ rest)
        ((frames payloads ++ rest).length + 1) (frames payloads).length 0 } := by
  have salvaged := @salvage_frames rest payloads new _ [] short invalid
    (enough_rounds payloads rest)
  rw [List.nil_append, List.nil_append, List.length_nil] at salvaged
  unfold load
  rw [salvaged]
  rfl

theorem dropped_holding (payloads : List Bytes) : (holding payloads).droppedTailFrames = 0 := by
  have kept : ∀ spine : Spine, (payloads.foldl admitFrame spine).droppedTailFrames =
      spine.droppedTailFrames := by
    induction payloads with
    | nil => exact fun _ => rfl
    | cons bytes payloads ih => exact fun spine => ih (spine.admitFrame bytes)
  exact kept new

theorem invalid_nil : Invalid [] := by
  intro bytes _ isPrefix
  have empty := congrArg List.length (List.prefix_nil.mp isPrefix)
  rw [length_frame] at empty
  cases empty

/-- Nothing is dropped from a text of valid frames. -/
theorem load_whole (short : Short payloads) : load (frames payloads) = holding payloads := by
  have loaded := load_frames short invalid_nil
  rw [List.append_nil] at loaded
  rw [loaded, countDropped, if_neg (Nat.lt_irrefl _), ← dropped_holding payloads]

theorem loadTyped_whole (short : Short payloads) :
    loadTyped (frames payloads) = .ok (holding payloads) := by
  have enough := enough_rounds payloads []
  rw [List.append_nil] at enough
  exact loadFrames_frames [] short enough

/-- The durable loader accepts a text when it is a sequence of valid frames. -/
theorem loadTyped_eq_ok {encoded : Bytes} {loaded : Spine}
    (accepted : loadTyped encoded = .ok loaded) :
    ∃ payloads, Short payloads ∧ encoded = frames payloads ∧ loaded = holding payloads := by
  rcases exists_frames encoded with ⟨payloads, rest, short, invalid, rfl⟩
  by_cases whole : rest = []
  · subst whole
    rw [List.append_nil, loadTyped_whole short] at accepted
    cases accepted
    exact ⟨payloads, short, List.append_nil _, rfl⟩
  · have refused := @loadFrames_invalid rest payloads new _ 0 [] short invalid whole
      (enough_rounds payloads rest)
    rw [List.nil_append, List.length_nil] at refused
    unfold loadTyped at accepted
    rw [refused] at accepted
    cases accepted

end Loops

end Spine

namespace ContextStore

/-- A call that writes the spine, or changes whether writes are admitted. -/
inductive SpineCall where
  | setMode (mode : StoreMode)
  | sanitizedAppend (bytes : Bytes)

/-- The record that the call writes fits the four bytes of its length. -/
def SpineCall.Short : SpineCall → Prop
  | setMode _ => True
  | sanitizedAppend bytes => bytes.length < 2 ^ 32

def perform (store : ContextStore) : SpineCall → ContextStore
  | .setMode mode => store.setMode mode
  | .sanitizedAppend bytes => (store.sanitizedAppend bytes).2

/-- The spine holds short payloads and the index names its records. -/
structure Indexed (store : ContextStore) : Prop where
  held : ∃ payloads, Spine.Short payloads ∧ store.spine = .holding payloads
  index : store.index = store.rebuildIndex.index

variable {store : ContextStore}

theorem indexed_openWith (key : Bytes) (noncePrefix : UInt32) :
    (openWith key noncePrefix).Indexed :=
  ⟨⟨[], Spine.short_nil, rfl⟩, rfl⟩

/-- An append pushes the index entry of its record. -/
theorem Indexed.perform {call : SpineCall} (indexed : store.Indexed) (short : call.Short) :
    (store.perform call).Indexed := by
  cases call with
  | setMode mode => exact ⟨indexed.held, indexed.index⟩
  | sanitizedAppend bytes =>
      rcases indexed.held with ⟨payloads, shorts, spine⟩
      change (store.sanitizedAppend bytes).2.Indexed
      unfold ContextStore.sanitizedAppend
      split
      · constructor
        · refine ⟨payloads ++ [bytes], ?_, ?_⟩
          · exact List.forall_mem_append.mpr ⟨shorts, List.forall_mem_singleton.mpr short⟩
          · simp [Spine.holding, spine, Spine.admitFrame]
        · have pushed := indexed.index
          simp only [rebuildIndex] at pushed ⊢
          simp only [pushed, Spine.append, List.map_append, List.map_cons, List.map_nil]
          rfl
      · exact indexed

theorem Indexed.run {calls : List SpineCall} (indexed : store.Indexed)
    (short : ∀ call ∈ calls, call.Short) : (calls.foldl ContextStore.perform store).Indexed := by
  induction calls generalizing store with
  | nil => exact indexed
  | cons call calls ih =>
      rcases List.forall_mem_cons.mp short with ⟨head, tail⟩
      exact ih (indexed.perform head) tail

/-- Both loaders give an indexed spine back from its text. -/
theorem Indexed.loaded (indexed : store.Indexed) :
    Spine.loadTyped store.spine.encode = .ok store.spine ∧
      Spine.load store.spine.encode = store.spine ∧ store.spine.droppedTailFrames = 0 := by
  rcases indexed.held with ⟨payloads, short, spine⟩
  have text : store.spine.encode = Spine.frames payloads := by
    rw [spine, Spine.encode_holding]
    rfl
  rw [text, spine]
  exact ⟨Spine.loadTyped_whole short, Spine.load_whole short, Spine.dropped_holding payloads⟩

/-- Appended spines are restored by both loaders, an arbitrary text is salvaged
up to its last valid frame, and the durable loader accepts nothing else. -/
theorem spine_restored (key : Bytes) (noncePrefix : UInt32) :
    (∀ calls : List SpineCall, (∀ call ∈ calls, call.Short) →
      let store := calls.foldl perform (openWith key noncePrefix)
      Spine.loadTyped store.spine.encode = .ok store.spine ∧
        Spine.load store.spine.encode = store.spine ∧
        store.spine.droppedTailFrames = 0 ∧
        store.index = store.rebuildIndex.index) ∧
    (∀ encoded : Bytes, ∃ payloads, Spine.LongestPrefix payloads encoded ∧
      (Spine.load encoded).bytes = (Spine.holding payloads).bytes ∧
      (Spine.load encoded).records = (Spine.holding payloads).records) ∧
    (∀ (encoded : Bytes) (loaded : Spine), Spine.loadTyped encoded = .ok loaded →
      loaded.encode = encoded ∧ Spine.load encoded = loaded) := by
  constructor
  · intro calls short
    have indexed := (indexed_openWith key noncePrefix).run short
    rcases indexed.loaded with ⟨typed, salvaged, dropped⟩
    exact ⟨typed, salvaged, dropped, indexed.index⟩
  constructor
  · intro encoded
    rcases Spine.exists_frames encoded with ⟨payloads, rest, short, invalid, rfl⟩
    refine ⟨payloads, Spine.longestPrefix invalid short, ?_, ?_⟩
    · rw [Spine.load_frames short invalid]
    · rw [Spine.load_frames short invalid]
  · intro encoded loaded accepted
    rcases Spine.loadTyped_eq_ok accepted with ⟨payloads, short, rfl, rfl⟩
    rw [Spine.encode_holding, Spine.load_whole short]
    exact ⟨rfl, rfl⟩

/-- Two records, the second refused by the mode of the store. -/
def sampleCalls : List SpineCall :=
  [.sanitizedAppend [7], .setMode .readOnly, .sanitizedAppend [8]]

theorem spine_restored_sample :
    let store := sampleCalls.foldl perform (openWith [] 0)
    store.spine.records.length = 1 ∧ Spine.load store.spine.encode = store.spine := by
  have short : ∀ call ∈ sampleCalls, call.Short := by
    simp [sampleCalls, SpineCall.Short]
  exact ⟨rfl, ((spine_restored [] 0).1 sampleCalls short).2.1⟩

end ContextStore
end Llxprt.Store
