import Llxprt.Log.Frames
import Llxprt.Log.Replay
import Llxprt.Rust.Files

/-!
# Segments of the session log

A segment is a sequence of frames.  Replay reads the bytes behind its cursor,
applies one whole frame after the other, and cuts off the incomplete frame that
a crash may have left at the end.
-/

namespace Llxprt.Log

open Llxprt.Kernel Llxprt.Kernel.Recorded Llxprt.Rust Llxprt.Rust.Files

structure ReplayCursor where
  seq : UInt64
  offset : Nat
  digest : Bytes
  events : Nat

/-- Offsets and counts are 64-bit. -/
def counterEnd : Nat := 2 ^ 64

def u32At (bytes : Bytes) (place : Nat) : Nat :=
  ofLittleEndian ((bytes.drop place).take 4)

def u64At (bytes : Bytes) (place : Nat) : Nat :=
  ofLittleEndian ((bytes.drop place).take 8)

/-- The length of the payload, when the header continues the chain at the cursor. -/
def validateHeader (header : Bytes) (cursor : ReplayCursor) : Except StoreError Nat := do
  reject (header.take 8 ≠ magic) (.corrupt "session frame has invalid magic")
  reject (u32At header 8 ≠ formatVersion.toNat) (.corrupt "unsupported session frame version")
  let payloadLen := u32At header 12
  reject (maxFramePayload < payloadLen) (.corrupt "session frame exceeds its byte cap")
  let expectedSeq ← okOr (checkedIncrement cursor.seq) (.corrupt "session sequence overflow")
  reject (u64At header 16 ≠ expectedSeq.toNat) (.corrupt "session frame sequence is not contiguous")
  reject (header.drop 40 ≠ cursor.digest) (.corrupt "session frame digest chain is broken")
  pure payloadLen

def validateFrame (frame : Bytes) (payloadLen : Nat) : Except StoreError Bytes := do
  let digest := digestPrefix (frame.take (headerLen + payloadLen))
  reject (frame.drop (headerLen + payloadLen) ≠ digest) (.corrupt "session frame digest mismatch")
  pure digest

section Reading

variable {τ κ : Type} [Recorded τ] [Recorded κ] (checks : Checks τ κ)
  (decode : Bytes → Option (EventBatch τ κ))

def decodeBatch (frame : Bytes) (payloadLen : Nat) (header : Bytes) :
    Except StoreError (EventBatch τ κ) := do
  let batch ← okOr (decode ((frame.drop headerLen).take payloadLen))
    (.corrupt "session frame payload is invalid")
  reject (batch.txnId ≠ txnId batch.events) (.corrupt "session transaction id mismatch")
  reject ((header.drop 24).take 16 ≠ digestPrefix (utf8 batch.txnId))
    (.corrupt "session frame transaction header mismatch")
  pure batch

/-- The round of the replay loop: nothing when the frame is incomplete, else the
state and the cursor behind it and the bytes that follow. -/
def readFrame (bytes : Bytes) (cursor : ReplayCursor) (state : SessionState τ κ) :
    Except StoreError (Option (SessionState τ κ × ReplayCursor × Bytes)) :=
  if bytes.length < headerLen then do
    reject (bytes.length ≤ magic.length ∧ bytes ≠ magic.take bytes.length)
      (.corrupt "garbage follows the final session frame")
    pure none
  else do
    let header := bytes.take headerLen
    let payloadLen ← validateHeader header cursor
    let frameLen := headerLen + payloadLen + digestLen
    if bytes.length < frameLen then
      pure none
    else do
      let frame := bytes.take frameLen
      let digest ← validateFrame frame payloadLen
      let batch ← decodeBatch decode frame payloadLen header
      let later ← applyBatch checks state batch
      reject (counterEnd ≤ cursor.events + 1) (.corrupt "session event count overflow")
      reject (counterEnd ≤ cursor.offset + frameLen) (.corrupt "session segment offset overflow")
      pure (some (later,
        ⟨UInt64.ofNat (u64At header 16), cursor.offset + frameLen, digest, cursor.events + 1⟩,
        bytes.drop frameLen))

/-- The replay loop, and whether an incomplete frame ended it.  Every frame takes
bytes, so their number bounds the rounds. -/
def scan : Nat → Bytes → ReplayCursor → SessionState τ κ →
    Except StoreError (SessionState τ κ × ReplayCursor × Bool)
  | 0, _, cursor, state => .ok (state, cursor, false)
  | rounds + 1, bytes, cursor, state =>
      if bytes = [] then
        .ok (state, cursor, false)
      else
        match readFrame checks decode bytes cursor state with
        | .error error => .error error
        | .ok none => .ok (state, cursor, true)
        | .ok (some (later, next, rest)) => scan rounds rest next later

end Reading

section Replay

def maxReplayBytes : Nat :=
  segmentByteThreshold + maxFramePayload + (headerLen + digestLen)

/-- The bytes behind the cursor. -/
def readReplayBytes (file : Nat) (cursor : ReplayCursor) : Action StoreError Bytes := do
  let fileLen ← ask (.length file) fun _ => .io "inspect session segment failed"
  lift (reject (fileLen < cursor.offset) (.corrupt "session segment shrank"))
  lift (reject (maxReplayBytes < fileLen - cursor.offset)
    (.corrupt "active session segment exceeds replay bound"))
  ask (.read file cursor.offset (fileLen - cursor.offset)) fun _ =>
    .io "read session segment failed"

def repairTail (file size : Nat) (permitted : Bool) : Action StoreError Bool := do
  lift (reject (permitted = false) (.corrupt "retained session segment has an incomplete frame"))
  ask (.truncate file size) fun _ => .io "truncate incomplete session frame failed"
  ask (.sync file) fun _ => .io "sync repaired session segment failed"
  pure true

/-- What becomes of an incomplete frame, if there is one. -/
def settleTail (torn : Bool) (file size : Nat) (permitTailRepair writable : Bool) :
    Action StoreError Bool :=
  if torn = false then
    pure false
  else if writable then
    repairTail file size permitTailRepair
  else do
    lift (reject (permitTailRepair = false)
      (.corrupt "retained session segment has an incomplete frame"))
    pure false

variable {τ κ : Type} [Recorded τ] [Recorded κ] (checks : Checks τ κ)
  (decode : Bytes → Option (EventBatch τ κ))

/-- The state and the cursor behind the last whole frame, and whether a tail was
cut off. -/
def replayReadMode (file : Nat) (state : SessionState τ κ)
    (cursor : ReplayCursor) (permitTailRepair writable : Bool) :
    Action StoreError (SessionState τ κ × ReplayCursor × Bool) := do
  let bytes ← readReplayBytes file cursor
  let (later, next, torn) ← lift (scan checks decode (bytes.length + 1) bytes cursor state)
  let repaired ← settleTail torn file next.offset permitTailRepair writable
  lift (later.validate checks)
  pure (later, next, repaired)

end Replay

section Headers

/-- A header with the digest of a transaction identifier as it is written. -/
def rawHeader (payloadLen : Nat) (seq : UInt64) (identifier previous : Bytes) : Bytes :=
  magic ++ leBytes32 formatVersion ++ leBytes32 (UInt32.ofNat payloadLen) ++ leBytes seq ++
    identifier ++ previous

/-- The shape of a frame behind a digest: any identifier, payload and trailer of the
right lengths. -/
def Shaped (seq : UInt64) (previous whole : Bytes) : Prop :=
  ∃ identifier payload trailer, identifier.length = digestLen ∧ payload.length ≤ maxFramePayload ∧
    trailer.length = digestLen ∧
    whole = rawHeader payload.length seq identifier previous ++ payload ++ trailer

/-- The bytes behind the cursor are the beginning of a frame that was cut short. -/
def Torn (cursor : ReplayCursor) (tail : Bytes) : Prop :=
  tail = [] ∨ ∃ seq whole, checkedIncrement cursor.seq = some seq ∧
    Shaped seq cursor.digest whole ∧ tail <+: whole ∧ tail.length < whole.length

variable {payloadLen : Nat} {seq : UInt64} {identifier previous tail whole : Bytes}
  {cursor : ReplayCursor}

@[simp]
theorem length_magic : magic.length = 8 := by
  decide

@[simp]
theorem length_digestPrefix (bytes : Bytes) : (digestPrefix bytes).length = digestLen := by
  rw [digestPrefix, List.length_take, Sha256.length_digestBytes]
  rfl

theorem maxFramePayload_lt : maxFramePayload < 2 ^ 32 := by
  decide

theorem length_rawHeader (identified : identifier.length = digestLen)
    (chained : previous.length = digestLen) :
    (rawHeader payloadLen seq identifier previous).length = headerLen := by
  simp [rawHeader, length_leBytes, identified, chained, digestLen, headerLen]

/-- The fields of a header, at the places where they are read. -/
theorem rawHeader_fields (fits : payloadLen ≤ maxFramePayload)
    (identified : identifier.length = digestLen) :
    let header := rawHeader payloadLen seq identifier previous
    header.take 8 = magic ∧ u32At header 8 = formatVersion.toNat ∧ u32At header 12 = payloadLen ∧
      u64At header 16 = seq.toNat ∧ (header.drop 24).take 16 = identifier ∧
      header.drop 40 = previous := by
  have version : ∀ rest : Bytes, ((magic ++ (leBytes32 formatVersion ++ rest)).drop 8).take 4 =
      leBytes32 formatVersion := by
    intro rest
    rw [List.drop_left' length_magic, List.take_left' (length_leBytes32 _)]
  have length : (UInt32.ofNat payloadLen).toNat = payloadLen := by
    rw [UInt32.toNat_ofNat']
    exact Nat.mod_eq_of_lt (Nat.lt_of_le_of_lt fits maxFramePayload_lt)
  have sixteen : identifier.length = 16 := identified
  simp only [rawHeader, u32At, u64At, List.append_assoc]
  refine ⟨List.take_left' length_magic, ?_, ?_, ?_, ?_, ?_⟩
  · rw [version, ofLittleEndian_leBytes32]
  · rw [← List.append_assoc, List.drop_left' (by simp), List.take_left' (length_leBytes32 _),
      ofLittleEndian_leBytes32, length]
  · rw [← List.append_assoc, ← List.append_assoc, List.drop_left' (by simp),
      List.take_left' (length_leBytes _), ofLittleEndian_leBytes]
  · rw [← List.append_assoc, ← List.append_assoc, ← List.append_assoc,
      List.drop_left' (by simp [length_leBytes]), List.take_left' sixteen]
  · rw [← List.append_assoc, ← List.append_assoc, ← List.append_assoc, ← List.append_assoc,
      List.drop_left' (by simp [length_leBytes, sixteen])]

/-- A header that continues the chain at the cursor is accepted. -/
theorem validateHeader_rawHeader (fits : payloadLen ≤ maxFramePayload)
    (identified : identifier.length = digestLen) (next : checkedIncrement cursor.seq = some seq) :
    validateHeader (rawHeader payloadLen seq identifier cursor.digest) cursor = .ok payloadLen := by
  rcases rawHeader_fields fits identified with ⟨magicFirst, version, length, number, _, chain⟩
  simp only [validateHeader, bind_eq_ok, reject_eq_ok, okOr_eq_ok, pure_eq_ok, exists_const]
  refine ⟨by rw [magicFirst]; simp, by rw [version]; simp, ?_, seq, next, ?_, ?_, length⟩
  · rw [length]
    exact Nat.not_lt.mpr fits
  · rw [number]
    simp
  · rw [chain]
    simp

end Headers

section Frames

variable {τ κ : Type} [Recorded τ] [Recorded κ]

/-- The bytes of a frame before its digest. -/
def frameBody (seq : UInt64) (previous : Bytes) (events : List (Event τ κ)) : Bytes :=
  frameHeader (serialize (batchOf events)).length seq (batchOf events).txnId previous ++
    serialize (batchOf events)

def frameDigest (seq : UInt64) (previous : Bytes) (events : List (Event τ κ)) : Bytes :=
  digestPrefix (frameBody seq previous events)

def frameBytes (seq : UInt64) (previous : Bytes) (events : List (Event τ κ)) : Bytes :=
  frameBody seq previous events ++ frameDigest seq previous events

/-- The payload fits a frame. -/
def Fits (events : List (Event τ κ)) : Prop :=
  (serialize (batchOf events)).length ≤ maxFramePayload

variable {checks : Checks τ κ} {decode : Bytes → Option (EventBatch τ κ)}
  {seq : UInt64} {previous rest : Bytes} {events : List (Event τ κ)}
  {cursor : ReplayCursor} {state later : SessionState τ κ}

theorem encodeFrame_eq_ok {frame : EncodedFrame τ κ} :
    encodeFrame seq previous events = .ok frame ↔
      Fits events ∧ frame = ⟨frameBytes seq previous events, frameDigest seq previous events,
        batchOf events⟩ := by
  simp only [encodeFrame, bind_eq_ok, reject_eq_ok, pure_eq_ok, Nat.not_lt, exists_const]
  exact and_congr_right fun _ => eq_comm

theorem length_frameDigest : (frameDigest seq previous events).length = digestLen :=
  length_digestPrefix _

theorem length_frameHeader {identifier : String} {payloadLen : Nat}
    (chained : previous.length = digestLen) :
    (frameHeader payloadLen seq identifier previous).length = headerLen :=
  length_rawHeader (length_digestPrefix _) chained

theorem length_frameBytes (chained : previous.length = digestLen) :
    (frameBytes seq previous events).length =
      headerLen + (serialize (batchOf events)).length + digestLen := by
  rw [frameBytes, List.length_append, length_frameDigest, frameBody, List.length_append,
    length_frameHeader chained]

theorem shaped_frameBytes (fits : Fits events) : Shaped seq previous (frameBytes seq previous events) :=
  ⟨digestPrefix (utf8 (batchOf events).txnId), serialize (batchOf events),
    frameDigest seq previous events, length_digestPrefix _, fits, length_digestPrefix _, rfl⟩

/-- The header of a whole frame with anything behind it. -/
theorem take_headerLen (chained : previous.length = digestLen) :
    (frameBytes seq previous events ++ rest).take headerLen =
      frameHeader (serialize (batchOf events)).length seq (batchOf events).txnId previous := by
  rw [frameBytes, frameBody, List.append_assoc, List.append_assoc,
    List.take_left' (length_frameHeader chained)]

theorem length_frameBody (chained : previous.length = digestLen) :
    (frameBody seq previous events).length = headerLen + (serialize (batchOf events)).length := by
  rw [frameBody, List.length_append, length_frameHeader chained]

theorem validateFrame_frameBytes (chained : previous.length = digestLen) :
    validateFrame (frameBytes seq previous events) (serialize (batchOf events)).length =
      .ok (frameDigest seq previous events) := by
  have length := @length_frameBody _ _ _ _ seq previous events chained
  simp only [validateFrame, bind_eq_ok, reject_eq_ok, pure_eq_ok, exists_const]
  rw [frameBytes, List.take_left' length, List.drop_left' length]
  exact ⟨by rw [frameDigest]; simp, rfl⟩

theorem decodeBatch_frameBytes
    (decodes : decode (serialize (batchOf events)) = some (batchOf events))
    (fits : Fits events) (chained : previous.length = digestLen) :
    decodeBatch decode (frameBytes seq previous events) (serialize (batchOf events)).length
      (frameHeader (serialize (batchOf events)).length seq (batchOf events).txnId previous) =
      .ok (batchOf events) := by
  rcases @rawHeader_fields _ seq _ previous fits (length_digestPrefix (utf8 (batchOf events).txnId))
    with ⟨_, _, _, _, identifier, _⟩
  have payload : ((frameBytes seq previous events).drop headerLen).take
      (serialize (batchOf events)).length = serialize (batchOf events) := by
    rw [frameBytes, frameBody, List.append_assoc, List.drop_left' (length_frameHeader chained),
      List.take_left' rfl]
  simp only [decodeBatch, bind_eq_ok, reject_eq_ok, okOr_eq_ok, pure_eq_ok, exists_const]
  refine ⟨batchOf events, by rw [payload, decodes], by simp [batchOf], ?_, rfl⟩
  exact not_not.mpr identifier

/-- A whole frame is read. -/
theorem readFrame_frameBytes (decodes : decode (serialize (batchOf events)) = some (batchOf events))
    (fits : Fits events) (chained : cursor.digest.length = digestLen)
    (next : checkedIncrement cursor.seq = some seq)
    (applied : applyBatch checks state (batchOf events) = .ok later)
    (counted : cursor.events + 1 < counterEnd)
    (placed : cursor.offset + (frameBytes seq cursor.digest events).length < counterEnd) :
    readFrame checks decode (frameBytes seq cursor.digest events ++ rest) cursor state =
      .ok (some (later, ⟨seq, cursor.offset + (frameBytes seq cursor.digest events).length,
        frameDigest seq cursor.digest events, cursor.events + 1⟩, rest)) := by
  have length := @length_frameBytes _ _ _ _ seq cursor.digest events chained
  rcases @rawHeader_fields _ seq _ cursor.digest fits
    (length_digestPrefix (utf8 (batchOf events).txnId)) with ⟨_, _, _, number, _, _⟩
  have long : ¬ (frameBytes seq cursor.digest events ++ rest).length < headerLen := by
    rw [List.length_append, length]
    omega
  have whole : ¬ (frameBytes seq cursor.digest events ++ rest).length <
      headerLen + (serialize (batchOf events)).length + digestLen := by
    rw [List.length_append, length]
    omega
  rw [readFrame, if_neg long, take_headerLen chained]
  simp only [bind_eq_ok]
  refine ⟨_, validateHeader_rawHeader fits (length_digestPrefix _) next, ?_⟩
  rw [if_neg whole, List.take_left' length, List.drop_left' length]
  simp only [bind_eq_ok, reject_eq_ok, pure_eq_ok, exists_const]
  refine ⟨_, validateFrame_frameBytes chained, _, decodeBatch_frameBytes decodes fits chained,
    later, applied, Nat.not_le.mpr counted, ?_, ?_⟩
  · rw [← length]
    exact Nat.not_le.mpr placed
  · have numbered : u64At (frameHeader (serialize (batchOf events)).length seq
        (batchOf events).txnId cursor.digest) 16 = seq.toNat := number
    rw [numbered, UInt64.ofNat_toNat, length]

/-- The first bytes of a frame are read as an incomplete one. -/
theorem readFrame_torn {tail whole : Bytes} (shaped : Shaped seq cursor.digest whole)
    (chained : cursor.digest.length = digestLen) (next : checkedIncrement cursor.seq = some seq)
    (part : tail <+: whole) (short : tail.length < whole.length) :
    readFrame checks decode tail cursor state = .ok none := by
  rcases shaped with ⟨identifier, payload, trailer, identified, fits, trailed, rfl⟩
  have headed := @length_rawHeader payload.length seq identifier cursor.digest identified chained
  rcases part with ⟨missing, parts⟩
  rw [List.length_append, List.length_append, headed, trailed] at short
  by_cases brief : tail.length < headerLen
  · rw [readFrame, if_pos brief]
    simp only [bind_eq_ok, reject_eq_ok, pure_eq_ok, not_and, Decidable.not_not, exists_const,
      and_true]
    intro few
    have first : (tail ++ missing).take 8 = magic := by
      rw [parts, rawHeader]
      simp only [List.append_assoc]
      exact List.take_left' length_magic
    rw [← first, List.take_take, Nat.min_eq_left (by simpa using few), List.take_left' rfl]
  · have header : tail.take headerLen = rawHeader payload.length seq identifier cursor.digest := by
      have taken : (tail ++ missing).take headerLen =
          rawHeader payload.length seq identifier cursor.digest := by
        rw [parts, List.append_assoc, List.take_left' headed]
      rw [List.take_append_of_le_length (Nat.not_lt.mp brief)] at taken
      exact taken
    rw [readFrame, if_neg brief, header]
    simp only [bind_eq_ok]
    refine ⟨_, validateHeader_rawHeader fits identified next, ?_⟩
    rw [if_pos short, pure_eq_ok]

end Frames

section Chains

variable {τ κ : Type} [Recorded τ] [Recorded κ]

/-- The cursor behind the frame of an event. -/
def ReplayCursor.advance (cursor : ReplayCursor) (event : Event τ κ) : ReplayCursor where
  seq := cursor.seq + 1
  offset := cursor.offset + (frameBytes (cursor.seq + 1) cursor.digest [event]).length
  digest := frameDigest (cursor.seq + 1) cursor.digest [event]
  events := cursor.events + 1

/-- The cursor behind the frames of the events. -/
def ReplayCursor.behind (cursor : ReplayCursor) (events : List (Event τ κ)) : ReplayCursor :=
  events.foldl ReplayCursor.advance cursor

/-- The frames of the events, each chained to the one before. -/
def framesFrom (cursor : ReplayCursor) : List (Event τ κ) → Bytes
  | [] => []
  | event :: events =>
      frameBytes (cursor.seq + 1) cursor.digest [event] ++ framesFrom (cursor.advance event) events

/-- The state after the events, each in a transaction of its own. -/
def replayed (checks : Checks τ κ) (state : SessionState τ κ) (events : List (Event τ κ)) :
    Except StoreError (SessionState τ κ) :=
  events.foldlM (fun state event => applyBatch checks state (batchOf [event])) state

/-- The events can be framed behind the cursor without an overflow. -/
structure Framed (cursor : ReplayCursor) (events : List (Event τ κ)) : Prop where
  chained : cursor.digest.length = digestLen
  fits : ∀ event ∈ events, Fits [event]
  numbered : cursor.seq.toNat + events.length < counterEnd
  counted : cursor.events + events.length < counterEnd
  placed : cursor.offset + (framesFrom cursor events).length < counterEnd

variable {checks : Checks τ κ} {decode : Bytes → Option (EventBatch τ κ)}
  {cursor : ReplayCursor} {state later : SessionState τ κ}
  {event : Event τ κ} {events more : List (Event τ κ)}

theorem behind_append : cursor.behind (events ++ more) = (cursor.behind events).behind more := by
  simp [ReplayCursor.behind]

theorem framesFrom_append :
    framesFrom cursor (events ++ more) =
      framesFrom cursor events ++ framesFrom (cursor.behind events) more := by
  induction events generalizing cursor with
  | nil => rfl
  | cons event events ih =>
      rw [List.cons_append, framesFrom, framesFrom, ih, List.append_assoc]
      rfl

theorem offset_behind :
    (cursor.behind events).offset = cursor.offset + (framesFrom cursor events).length := by
  induction events generalizing cursor with
  | nil => rfl
  | cons event events ih =>
      change ((cursor.advance event).behind events).offset = _
      rw [ih, framesFrom, List.length_append, ReplayCursor.advance, Nat.add_assoc]

theorem events_behind : (cursor.behind events).events = cursor.events + events.length := by
  induction events generalizing cursor with
  | nil => rfl
  | cons event events ih =>
      have advanced : (cursor.advance event).events = cursor.events + 1 := rfl
      change ((cursor.advance event).behind events).events = _
      rw [ih, advanced, List.length_cons]
      omega

theorem digest_behind (chained : cursor.digest.length = digestLen) :
    (cursor.behind events).digest.length = digestLen := by
  induction events generalizing cursor with
  | nil => exact chained
  | cons event events ih => exact ih length_frameDigest

theorem toNat_seq_advance (numbered : cursor.seq.toNat + 1 < counterEnd) :
    (cursor.advance event).seq.toNat = cursor.seq.toNat + 1 := by
  rw [ReplayCursor.advance, UInt64.toNat_add]
  exact Nat.mod_eq_of_lt numbered

theorem toNat_seq_behind (numbered : cursor.seq.toNat + events.length < counterEnd) :
    (cursor.behind events).seq.toNat = cursor.seq.toNat + events.length := by
  induction events generalizing cursor with
  | nil => rfl
  | cons event events ih =>
      rw [List.length_cons] at numbered ⊢
      have first := @toNat_seq_advance _ _ _ _ cursor event (by omega)
      change ((cursor.advance event).behind events).seq.toNat = _
      rw [ih (by omega), first]
      omega

theorem Framed.tail (framed : Framed cursor (event :: events)) :
    Framed (cursor.advance event) events where
  chained := length_frameDigest
  fits other member := framed.fits other (List.mem_cons_of_mem _ member)
  numbered := by
    have numbered := framed.numbered
    rw [List.length_cons] at numbered
    rw [toNat_seq_advance (by omega)]
    omega
  counted := by
    have counted := framed.counted
    rw [List.length_cons] at counted
    change cursor.events + 1 + events.length < counterEnd
    omega
  placed := by
    have placed := framed.placed
    rw [framesFrom, List.length_append] at placed
    change cursor.offset + _ + _ < counterEnd
    omega

theorem Framed.append_right (framed : Framed cursor (events ++ more)) :
    Framed (cursor.behind events) more := by
  induction events generalizing cursor with
  | nil => exact framed
  | cons event events ih => exact ih framed.tail

theorem checkedIncrement_of_lt {value : UInt64} (fits : value.toNat + 1 < counterEnd) :
    checkedIncrement value = some (value + 1) :=
  if_pos fits

theorem replayed_cons :
    replayed checks state (event :: events) = .ok later ↔
      ∃ middle, applyBatch checks state (batchOf [event]) = .ok middle ∧
        replayed checks middle events = .ok later := by
  rw [replayed, List.foldlM_cons, bind_eq_ok]
  rfl

theorem replayed_append :
    replayed checks state (events ++ more) = .ok later ↔
      ∃ middle, replayed checks state events = .ok middle ∧
        replayed checks middle more = .ok later := by
  rw [replayed, List.foldlM_append, bind_eq_ok]
  rfl

theorem scan_torn {tail : Bytes} {rounds : Nat} (chained : cursor.digest.length = digestLen)
    (torn : Torn cursor tail) :
    scan checks decode (rounds + 1) tail cursor state = .ok (state, cursor, tail ≠ []) := by
  by_cases ended : tail = []
  · simp [scan, ended]
  · rcases torn with none | ⟨seq, whole, next, shaped, part, short⟩
    · exact absurd none ended
    · rw [scan, if_neg ended, readFrame_torn shaped chained next part short]
      simp [ended]

theorem frameBytes_append_ne_nil {seq : UInt64} {previous rest : Bytes} :
    frameBytes seq previous events ++ rest ≠ [] := by
  intro none
  have empty := congrArg List.length none
  rw [List.length_append, frameBytes, List.length_append, length_frameDigest, digestLen] at empty
  simp at empty

/-- Replay takes one round for every frame. -/
theorem scan_framesFrom (decodes : ∀ event ∈ events,
      decode (serialize (batchOf [event])) = some (batchOf [event]))
    {tail : Bytes} (rounds : Nat) (framed : Framed cursor events)
    (accepted : replayed checks state events = .ok later) :
    scan checks decode (rounds + events.length) (framesFrom cursor events ++ tail) cursor state =
      scan checks decode rounds tail (cursor.behind events) later := by
  induction events generalizing cursor state with
  | nil =>
      cases accepted
      rfl
  | cons event events ih =>
      rcases replayed_cons.mp accepted with ⟨middle, applied, others⟩
      have numbered := framed.numbered
      have counted := framed.counted
      have placed := framed.placed
      rw [List.length_cons] at numbered counted
      rw [framesFrom, List.length_append] at placed
      have first := @readFrame_frameBytes _ _ _ _ checks decode (cursor.seq + 1)
        (framesFrom (cursor.advance event) events ++ tail) [event] cursor state middle
        (decodes event List.mem_cons_self)
        (framed.fits event List.mem_cons_self) framed.chained
        (checkedIncrement_of_lt (by omega)) applied (by omega) (by omega)
      rw [framesFrom, List.append_assoc, List.length_cons, ← Nat.add_assoc, scan,
        if_neg frameBytes_append_ne_nil, first]
      exact ih (fun event member => decodes event (List.mem_cons_of_mem _ member)) framed.tail others

theorem length_le_framesFrom : events.length ≤ (framesFrom cursor events).length := by
  induction events generalizing cursor with
  | nil => exact Nat.le_refl _
  | cons event events ih =>
      have rest := @ih (cursor.advance event)
      rw [framesFrom, List.length_append, frameBytes, List.length_append, length_frameDigest,
        digestLen, List.length_cons]
      omega

/-- The bytes are enough rounds for the frames and one more. -/
theorem rounds_framesFrom {tail : Bytes} :
    (framesFrom cursor events ++ tail).length + 1 =
      ((framesFrom cursor events).length - events.length + tail.length + 1) + events.length := by
  have enough := @length_le_framesFrom _ _ _ _ cursor events
  rw [List.length_append]
  omega

/-- Replay of frames gives the state after their events and the cursor behind them,
and finds the incomplete frame that follows. -/
theorem scan_framesFrom_torn (decodes : ∀ event ∈ events,
      decode (serialize (batchOf [event])) = some (batchOf [event]))
    {tail : Bytes} (framed : Framed cursor events)
    (accepted : replayed checks state events = .ok later) (torn : Torn (cursor.behind events) tail) :
    scan checks decode ((framesFrom cursor events ++ tail).length + 1)
      (framesFrom cursor events ++ tail) cursor state =
      .ok (later, cursor.behind events, tail ≠ []) := by
  rw [rounds_framesFrom, scan_framesFrom decodes _ framed accepted]
  exact scan_torn (digest_behind framed.chained) torn

end Chains

end Llxprt.Log
