import Llxprt.Kernel.Canonical
import Llxprt.Rust.Text
import Mathlib.Data.List.Basic

/-!
# The sanitized spine

An append-only byte string cut into records.  A record is framed as its length,
its bytes and their digest, and a reader accepts a framed text only when every
frame is whole and carries the digest of its own bytes.
-/

namespace Llxprt.Store

open Llxprt.Kernel Llxprt.Rust

/-- A half-open range of spine bytes. -/
structure ByteRange where
  start : Nat
  stop : Nat

structure SpineRecord where
  handle : String
  range : ByteRange
  contentDigest : Digest

structure Spine where
  bytes : Bytes
  records : List SpineRecord
  droppedTailFrames : Nat

/-- A truncated frame, a frame of a bad length or one that fails its digest. -/
inductive SpineLoadError where
  | corruptFrame (index goodRecords : Nat)

/-- A range that is reversed or ends behind the spine. -/
inductive SpineError where
  | rangeOutside (start stop len : Nat)

/-- One bounded page of a range read, and the range still unread. -/
structure Page where
  bytes : Bytes
  remaining : Option ByteRange

/-- The content-stable handle of the frame that starts behind `precedingLen`
bytes. -/
def canonicalHandle (precedingLen : Nat) (bytes : Bytes) : String :=
  "sanitized-" ++ String.ofList
    (Text.hexDigits 16 (digest (leBytes (UInt64.ofNat precedingLen) ++ bytes)).toNat)

namespace Spine

def new : Spine :=
  ⟨[], [], 0⟩

def len (spine : Spine) : Nat :=
  spine.bytes.length

def recordBytes (spine : Spine) (record : SpineRecord) : Bytes :=
  (spine.bytes.drop record.range.start).take (record.range.stop - record.range.start)

def append (spine : Spine) (handle : String) (bytes : Bytes) : Spine :=
  let range := ⟨spine.len, spine.len + bytes.length⟩
  { spine with
    bytes := spine.bytes ++ bytes
    records := spine.records ++ [⟨handle, range, digest bytes⟩] }

def readPage (spine : Spine) (range : ByteRange) (limit : Nat) : Except SpineError Page :=
  if range.stop < range.start ∨ spine.len < range.stop then
    .error (.rangeOutside range.start range.stop spine.len)
  else
    let wanted := range.stop - range.start
    let taken := min wanted limit
    .ok ⟨(spine.bytes.drop range.start).take taken,
      if taken < wanted then some ⟨range.start + taken, range.stop⟩ else none⟩

/-- A full range, refused when it is longer than `most`. -/
def read (spine : Spine) (range : ByteRange) (most : Nat) : Except SpineError Bytes :=
  match spine.readPage range most with
  | .error error => .error error
  | .ok page =>
      if page.remaining.isSome then
        .error (.rangeOutside range.start range.stop spine.len)
      else
        .ok page.bytes

/-- One frame: the length in four bytes, the bytes and their digest. -/
def frame (bytes : Bytes) (contentDigest : Digest) : Bytes :=
  leBytes32 (UInt32.ofNat bytes.length) ++ bytes ++ leBytes contentDigest

def encode (spine : Spine) : Bytes :=
  spine.records.flatMap fun record => frame (spine.recordBytes record) record.contentDigest

/-- The frame that begins at the cursor, and where it ends. -/
def frameAt (encoded : Bytes) (cursor : Nat) : Option (Bytes × Digest × Nat) :=
  if encoded.length < cursor + 4 then
    none
  else
    let length := ofLittleEndian ((encoded.drop cursor).take 4)
    let body := cursor + 4
    if encoded.length < body + length + 8 then
      none
    else
      let digestAt := body + length
      some ((encoded.drop body).take length,
        UInt64.ofNat (ofLittleEndian ((encoded.drop digestAt).take 8)), digestAt + 8)

/-- The loading loop.  Every frame takes at least twelve bytes, so the length of
the text bounds the number of rounds. -/
def loadFrames (encoded : Bytes) : Nat → Nat → Nat → Spine → Except SpineLoadError Spine
  | 0, _, _, spine => .ok spine
  | rounds + 1, cursor, index, spine =>
      if cursor < encoded.length then
        match frameAt encoded cursor with
        | none => .error (.corruptFrame index spine.records.length)
        | some (bytes, contentDigest, next) =>
            if digest bytes ≠ contentDigest then
              .error (.corruptFrame index spine.records.length)
            else
              loadFrames encoded rounds next (index + 1)
                (spine.append (canonicalHandle spine.len bytes) bytes)
      else
        .ok spine

def loadTyped (encoded : Bytes) : Except SpineLoadError Spine :=
  loadFrames encoded (encoded.length + 1) 0 0 new

/-- The write of the store: the handle is derived from the position and the
bytes, so a reload finds it again. -/
def admitFrame (spine : Spine) (bytes : Bytes) : Spine :=
  spine.append (canonicalHandle spine.len bytes) bytes

/-- The spine that the payloads leave when they are admitted in order. -/
def holding (payloads : List Bytes) : Spine :=
  payloads.foldl admitFrame new

/-- The spine was built by admissions alone. -/
def Admitted (spine : Spine) : Prop :=
  ∃ payloads, spine = holding payloads

theorem admitted_new : new.Admitted :=
  ⟨[], rfl⟩

theorem Admitted.admitFrame {spine : Spine} (admitted : spine.Admitted) (bytes : Bytes) :
    (spine.admitFrame bytes).Admitted := by
  rcases admitted with ⟨payloads, rfl⟩
  exact ⟨payloads ++ [bytes], by simp [holding]⟩

section Framing

variable {spine : Spine} {bytes : Bytes}

/-- Appending keeps the bytes of every record inside the spine. -/
theorem recordBytes_append {handle : String} {record : SpineRecord}
    (inside : record.range.stop ≤ spine.len) :
    (spine.append handle bytes).recordBytes record = spine.recordBytes record := by
  unfold recordBytes append
  unfold len at inside
  by_cases ordered : record.range.start ≤ record.range.stop
  · rw [List.drop_append_of_le_length (Nat.le_trans ordered inside),
      List.take_append_of_le_length (by simp; omega)]
  · have empty : record.range.stop - record.range.start = 0 := by omega
    simp [empty]

theorem recordBytes_appended {handle : String} :
    (spine.append handle bytes).recordBytes
      ⟨handle, ⟨spine.len, spine.len + bytes.length⟩, digest bytes⟩ = bytes := by
  simp [recordBytes, append, len]

/-- Every record of the spine ends inside it. -/
def Inside (spine : Spine) : Prop :=
  ∀ record ∈ spine.records, record.range.stop ≤ spine.len

theorem Inside.append {handle : String} (inside : spine.Inside) :
    (spine.append handle bytes).Inside := by
  intro record member
  have longer : (spine.append handle bytes).len = spine.len + bytes.length := by
    simp [Spine.append, len]
  rw [longer]
  have split : record ∈ spine.records ++
      [⟨handle, ⟨spine.len, spine.len + bytes.length⟩, digest bytes⟩] := member
  rcases List.mem_append.mp split with old | fresh
  · exact Nat.le_trans (inside record old) (Nat.le_add_right _ _)
  · rw [List.mem_singleton.mp fresh]

theorem encode_append {handle : String} (inside : spine.Inside) :
    (spine.append handle bytes).encode = spine.encode ++ frame bytes (digest bytes) := by
  let appended : SpineRecord := ⟨handle, ⟨spine.len, spine.len + bytes.length⟩, digest bytes⟩
  have split : (spine.append handle bytes).encode = (spine.records ++ [appended]).flatMap
      fun record => frame ((spine.append handle bytes).recordBytes record)
        record.contentDigest := rfl
  rw [split, List.flatMap_append, List.flatMap_singleton, recordBytes_appended]
  congr 1
  apply List.flatMap_congr
  intro record member
  rw [recordBytes_append (inside record member)]

/-- The text of admitted payloads is the sequence of their frames. -/
theorem encode_foldl (inside : spine.Inside) (payloads : List Bytes) :
    (payloads.foldl admitFrame spine).encode =
      spine.encode ++ payloads.flatMap fun bytes => frame bytes (digest bytes) := by
  induction payloads generalizing spine with
  | nil => simp
  | cons bytes payloads ih =>
      have longer : (spine.admitFrame bytes).Inside := inside.append
      rw [List.foldl_cons, ih longer, admitFrame, encode_append inside, List.flatMap_cons,
        List.append_assoc]

theorem encode_holding (payloads : List Bytes) :
    (holding payloads).encode = payloads.flatMap fun bytes => frame bytes (digest bytes) := by
  have inside : new.Inside := by
    intro record member
    cases member
  exact encode_foldl inside payloads

theorem length_frame {contentDigest : Digest} :
    (frame bytes contentDigest).length = bytes.length + 12 := by
  simp [frame, length_leBytes]
  omega

/-- An admission adds its payload and one frame. -/
theorem Admitted.length_encode_admitFrame (admitted : spine.Admitted) (bytes : Bytes) :
    (spine.admitFrame bytes).encode.length = spine.encode.length + (bytes.length + 12) := by
  rcases admitted with ⟨payloads, rfl⟩
  have grown : (holding payloads).admitFrame bytes = holding (payloads ++ [bytes]) := by
    simp [holding]
  rw [grown, encode_holding, encode_holding, List.flatMap_append, List.length_append,
    List.flatMap_singleton, length_frame]

/-- A whole frame is read back with its digest and its end. -/
theorem frameAt_frame (before rest : Bytes) (contentDigest : Digest)
    (short : bytes.length < 2 ^ 32) :
    frameAt (before ++ (frame bytes contentDigest ++ rest)) before.length =
      some (bytes, contentDigest, before.length + (frame bytes contentDigest).length) := by
  have length : (UInt32.ofNat bytes.length).toNat = bytes.length := by
    rw [UInt32.toNat_ofNat']
    exact Nat.mod_eq_of_lt short
  have laidOut : before ++ (frame bytes contentDigest ++ rest) = before ++
      (leBytes32 (UInt32.ofNat bytes.length) ++ (bytes ++ (leBytes contentDigest ++ rest))) := by
    simp [frame]
  have header : (before ++ (frame bytes contentDigest ++ rest)).drop before.length =
      leBytes32 (UInt32.ofNat bytes.length) ++ (bytes ++ (leBytes contentDigest ++ rest)) := by
    rw [laidOut, List.drop_left]
  have body : (before ++ (frame bytes contentDigest ++ rest)).drop (before.length + 4) =
      bytes ++ (leBytes contentDigest ++ rest) := by
    rw [← List.drop_drop, header]
    exact List.drop_left' (length_leBytes32 _)
  have trailer : (before ++ (frame bytes contentDigest ++ rest)).drop
      (before.length + 4 + bytes.length) = leBytes contentDigest ++ rest := by
    rw [← List.drop_drop, body, List.drop_left]
  have written : (leBytes32 (UInt32.ofNat bytes.length) ++
      (bytes ++ (leBytes contentDigest ++ rest))).take 4 =
      leBytes32 (UInt32.ofNat bytes.length) := List.take_left' (length_leBytes32 _)
  have stamped : (leBytes contentDigest ++ rest).take 8 = leBytes contentDigest :=
    List.take_left' (length_leBytes contentDigest)
  have total : (before ++ (frame bytes contentDigest ++ rest)).length =
      before.length + (bytes.length + 12) + rest.length := by
    rw [List.length_append, List.length_append, length_frame]
    omega
  unfold frameAt
  rw [if_neg (by omega)]
  simp only [header, written, ofLittleEndian_leBytes32, length]
  rw [if_neg (by omega)]
  simp only [body, trailer, stamped, List.take_left, ofLittleEndian_leBytes, UInt64.ofNat_toNat,
    length_frame, Option.some.injEq, Prod.mk.injEq, true_and]
  omega

end Framing

section Loading

variable {encoded : Bytes} {spine loaded : Spine} {rounds cursor index : Nat}

/-- Frames that carry their own digests are loaded one by one. -/
theorem loadFrames_frames (before : Bytes) {payloads : List Bytes}
    (short : ∀ bytes ∈ payloads, bytes.length < 2 ^ 32) (enough : payloads.length < rounds) :
    loadFrames (before ++ payloads.flatMap fun bytes => frame bytes (digest bytes)) rounds
      before.length index spine = .ok (payloads.foldl admitFrame spine) := by
  induction payloads generalizing before spine rounds index with
  | nil =>
      cases rounds with
      | zero => cases enough
      | succ rounds => simp [loadFrames]
  | cons bytes payloads ih =>
      cases rounds with
      | zero => cases enough
      | succ rounds =>
          have read := frameAt_frame before
            (payloads.flatMap fun bytes => frame bytes (digest bytes)) (digest bytes)
            (short bytes List.mem_cons_self)
          have behind : before.length < (before ++ (frame bytes (digest bytes) ++
              payloads.flatMap fun bytes => frame bytes (digest bytes))).length := by
            rw [List.length_append, List.length_append, length_frame]
            omega
          rw [List.flatMap_cons, loadFrames, if_pos behind, read]
          simp only [ne_eq, not_true_eq_false, if_false]
          rw [← List.append_assoc, ← List.length_append]
          exact ih _ (fun bytes member => short bytes (List.mem_cons_of_mem _ member))
            (Nat.lt_of_succ_lt_succ enough)

theorem length_payload_lt {payloads : List Bytes} {limit : Nat}
    (bounded : (holding payloads).encode.length < limit) :
    payloads.length < limit ∧ ∀ bytes ∈ payloads, bytes.length < limit := by
  rw [encode_holding] at bounded
  have total : ∀ payloads : List Bytes, payloads.length ≤
      (payloads.flatMap fun bytes => frame bytes (digest bytes)).length ∧
      ∀ bytes ∈ payloads, bytes.length ≤
        (payloads.flatMap fun bytes => frame bytes (digest bytes)).length := by
    intro payloads
    induction payloads with
    | nil => simp
    | cons bytes payloads ih =>
        rw [List.flatMap_cons, List.length_append, length_frame]
        constructor
        · rw [List.length_cons]
          have := ih.1
          omega
        · intro other member
          rcases List.mem_cons.mp member with rfl | member
          · omega
          · have := ih.2 other member
            omega
  have sizes := total payloads
  constructor
  · exact Nat.lt_of_le_of_lt sizes.1 bounded
  · intro bytes member
    exact Nat.lt_of_le_of_lt (sizes.2 bytes member) bounded

/-- An admitted spine is loaded back from its text, as long as every record
length fits its four bytes. -/
theorem loadTyped_encode (admitted : spine.Admitted) (bounded : spine.encode.length < 2 ^ 32) :
    loadTyped spine.encode = .ok spine := by
  rcases admitted with ⟨payloads, rfl⟩
  have enough : payloads.length < (holding payloads).encode.length + 1 :=
    (length_payload_lt (Nat.lt_succ_self _)).1
  have short := (length_payload_lt bounded).2
  unfold loadTyped
  rw [encode_holding] at enough ⊢
  exact loadFrames_frames [] short enough

/-- Whatever text is accepted, the spine it gives was built by admissions. -/
theorem Admitted.loadFrames (admitted : spine.Admitted)
    (accepted : loadFrames encoded rounds cursor index spine = .ok loaded) : loaded.Admitted := by
  induction rounds generalizing cursor index spine with
  | zero =>
      cases accepted
      exact admitted
  | succ rounds ih =>
      rw [Spine.loadFrames] at accepted
      split at accepted
      · split at accepted
        · cases accepted
        · split at accepted
          · cases accepted
          · exact ih (admitted.admitFrame _) accepted
      · cases accepted
        exact admitted

theorem admitted_of_loadTyped (accepted : loadTyped encoded = .ok loaded) : loaded.Admitted :=
  admitted_new.loadFrames accepted

end Loading

end Spine
end Llxprt.Store
