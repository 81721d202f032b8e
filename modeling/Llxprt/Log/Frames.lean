import Llxprt.Log.Serde
import Llxprt.Log.Validation

/-!
# Frames of the session log

A transaction is framed by a header with its sequence number, the digest of its
identifier and the digest of the frame before it, and closed by its own digest.
-/

namespace Llxprt.Log

open Llxprt.Kernel Llxprt.Kernel.Recorded Llxprt.Rust

/-- The version in every frame header. -/
def formatVersion : UInt32 := 1

/-- A segment of this size is closed before the next append. -/
def segmentByteThreshold : Nat := 4 * 1024 * 1024

/-- As many events in a segment close it as well. -/
def eventThreshold : Nat := 1024

def magic : Bytes := utf8 "LLXLOG01"

/-- Magic, version, payload length, sequence number, transaction and the digest before. -/
def headerLen : Nat := 56

def digestLen : Nat := 16

def maxFramePayload : Nat := maxSessionBytes + 1024 * 1024

/-- The digest of an artifact in the manifest. -/
def fullDigest (bytes : Bytes) : String :=
  Sha256.digest bytes

/-- The digest of a frame, cut to the length that frames carry. -/
def digestPrefix (bytes : Bytes) : Bytes :=
  (Sha256.digestBytes bytes).take digestLen

section Encoding

variable {τ κ : Type} [Recorded τ] [Recorded κ]

/-- A transaction is named after its events. -/
def txnId (events : List (Event τ κ)) : String :=
  String.ofList (Text.hex (digestPrefix (serialize events)))

def batchOf (events : List (Event τ κ)) : EventBatch τ κ :=
  ⟨txnId events, events⟩

structure EncodedFrame (τ κ : Type) where
  bytes : Bytes
  digest : Bytes
  batch : EventBatch τ κ

/-- The header of a frame. -/
def frameHeader (payloadLen : Nat) (seq : UInt64) (identifier : String) (previous : Bytes) : Bytes :=
  magic ++ leBytes32 formatVersion ++ leBytes32 (UInt32.ofNat payloadLen) ++ leBytes seq ++
    digestPrefix (utf8 identifier) ++ previous

/-- A frame behind the one whose digest is given. -/
def encodeFrame (seq : UInt64) (previous : Bytes) (events : List (Event τ κ)) :
    Except StoreError (EncodedFrame τ κ) := do
  let batch := batchOf events
  let payload := serialize batch
  reject (maxFramePayload < payload.length)
    (.invalid "session transaction exceeds the frame byte cap")
  let body := frameHeader payload.length seq batch.txnId previous ++ payload
  pure ⟨body ++ digestPrefix body, digestPrefix body, batch⟩

end Encoding

section Caps

variable {τ κ : Type} [Recorded τ] [Recorded κ] (checks : Checks τ κ)

/-- What a state that was read must satisfy. -/
def checkLogicalRead (state : SessionState τ κ) : Except StoreError Unit := do
  state.validate checks
  reject (maxSessionBytes < (serialize state).length)
    (.corrupt "session state exceeds the session byte cap")

/-- What a state must satisfy before an event is appended. -/
def checkLogicalWrite (state : SessionState τ κ) : Except StoreError Unit := do
  state.validate checks
  reject (maxSessionBytes < (serialize state).length)
    (.invalid ("session state exceeds the " ++ toString maxSessionBytes ++ " byte cap"))

end Caps

end Llxprt.Log
