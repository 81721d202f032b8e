import Llxprt.Ingress.Redactor
import Llxprt.Rust.Result
import Llxprt.Store.ContextStore

/-!
# The ingress transaction

Capture, redaction, the check that the segments cover the sanitized bytes, and
the one append to the spine.  Every payload that is appended is as long as the
payload that was captured.
-/

namespace Llxprt.Ingress

open Llxprt.Kernel Llxprt.Rust Llxprt.Store

section Segments

/-- The spans of the lines, each with its newline. -/
def segmentFrom (start : Nat) : Bytes → Nat → List Span
  | [], index => if start < index then [⟨start, index⟩] else []
  | byte :: rest, index =>
      if byte = 10 then
        ⟨start, index + 1⟩ :: segmentFrom (index + 1) rest (index + 1)
      else
        segmentFrom start rest (index + 1)

def segment (bytes : Bytes) : List Span :=
  segmentFrom 0 bytes 0

/-- The spans are in order, disjoint, and end at the given length. -/
def coverageIsTotal (segments : List Span) (length : Nat) : Bool :=
  match segments.foldl (fun cursor segment =>
      match cursor with
      | none => none
      | some cursor =>
          if segment.start ≠ cursor ∨ segment.stop < segment.start then none else some segment.stop)
    (some 0) with
  | none => false
  | some cursor => cursor = length

inductive StructuralClass where
  | exactSpan
  | identifier
  | code
  | testLog
  | noise
  | unknown
  deriving DecidableEq

/-- One byte range of the payload with its structural class. -/
structure Segment where
  span : Span
  structural : StructuralClass

/-- Whether the needle occurs in the line. -/
def occursIn (needle line : Bytes) : Bool :=
  line.tails.any fun tail => needle.isPrefixOf tail

/-- The class of one line of sanitized bytes. -/
def StructuralClass.ofLine (line : Bytes) : StructuralClass :=
  if occursIn (utf8 "exact error span") line || occursIn (utf8 "constraint:") line ||
      occursIn (utf8 "failing test identity:") line then
    .exactSpan
  else if occursIn (utf8 "unknown-shaped identifier") line then
    .identifier
  else if (utf8 "noise:").isPrefixOf line || (utf8 "fill line").isPrefixOf line then
    .noise
  else if occursIn (utf8 "test ") line || (utf8 "running ").isPrefixOf line then
    .testLog
  else if (utf8 "    ").isPrefixOf line || occursIn (utf8 "fn ") line ||
      occursIn (utf8 "-> \x7b") line then
    .code
  else
    .unknown

/-- Segments of the bytes with their classes. -/
def classified (bytes : Bytes) (segments : List Span) : List Segment :=
  segments.map fun span =>
    ⟨span, .ofLine ((bytes.drop span.start).take (span.stop - span.start))⟩

end Segments

section Tokens

def isSeparator (byte : UInt8) : Bool :=
  byte ∈ utf8 " \n\r\t\"'),;"

/-- The runs without a separator, in their order; the first goes on with the current
one. -/
def tokensFrom (current : Bytes) : Bytes → List Bytes
  | [] => if current = [] then [] else [current]
  | byte :: rest =>
      if isSeparator byte then
        (if current = [] then [] else [current]) ++ tokensFrom [] rest
      else
        tokensFrom (current ++ [byte]) rest

def tokens (bytes : Bytes) : List Bytes :=
  tokensFrom [] bytes

/-- The tokens of a payload that are digested. -/
def secretTokens (raw : Bytes) : List Bytes :=
  (tokens raw).filter fun token => 8 ≤ token.length

def secretTokenDigests (raw : Bytes) : List Digest :=
  (secretTokens raw).map digest

end Tokens

inductive CaptureSource where
  | userPrompt
  | toolResult
  | toolCall
  | assistant
  | generatedArtifact
  | imported

structure CaptureSlot where
  source : CaptureSource
  bytes : Bytes

inductive IngressError where
  | capacityExceeded (cap requested : Nat)
  | coverage (sanitizedLen : Nat)
  | emptyPreservedSpine
  | storeBlocked (mode : String)
  deriving DecidableEq

structure SpinePlacement where
  handle : String
  range : ByteRange

structure VaultReference where
  handle : String
  reason : String
  placeholder : Bytes
  contentDigest : Digest

/-- The admitted record as it landed in the store. -/
structure IngressPayload where
  handle : String
  ranges : List ByteRange
  bytes : Bytes
  segments : List Segment

/-- The digests of the secret tokens let generated artifacts be checked without the
plaintext. -/
structure IngressRecord where
  source : CaptureSource
  payload : IngressPayload
  sanitized : Bytes
  segments : List Span
  redactions : Nat
  vault : Option VaultReference
  secretDigests : List Digest
  spine : SpinePlacement

/-- What the spine will receive for one slot. -/
inductive ValidatedSlot where
  | sanitized (bytes : Bytes) (segments : List Span) (redactions : Nat)
  | vaulted (placeholder : Bytes) (segments : List Span) (reason : VaultReason)

def ValidatedSlot.appended : ValidatedSlot → Bytes
  | sanitized bytes _ _ => bytes
  | vaulted placeholder _ _ => placeholder

structure IngressTxn where
  cap : Nat
  slots : List CaptureSlot
  atRisk : Nat
  workBudget : Nat

namespace IngressTxn

def new (captureCap workBudget : Nat) : IngressTxn :=
  ⟨captureCap, [], 0, workBudget⟩

def capture (txn : IngressTxn) (source : CaptureSource) (bytes : Bytes) :
    Except IngressError IngressTxn :=
  if txn.cap < txn.atRisk + bytes.length then
    .error (.capacityExceeded txn.cap bytes.length)
  else
    .ok { txn with slots := txn.slots ++ [⟨source, bytes⟩], atRisk := txn.atRisk + bytes.length }

/-- The bytes are not empty and their segments cover them. -/
def checkedSegments (bytes : Bytes) : Except IngressError (List Span) :=
  if bytes = [] then
    .error .emptyPreservedSpine
  else if coverageIsTotal (segment bytes) bytes.length then
    .ok (segment bytes)
  else
    .error (.coverage bytes.length)

def validateSlot (txn : IngressTxn) (raw : Bytes) : Except IngressError ValidatedSlot :=
  match redact txn.workBudget raw with
  | .sanitized bytes redactions =>
      match checkedSegments bytes with
      | .error error => .error error
      | .ok segments => .ok (.sanitized bytes segments redactions.length)
  | .vaulted reason byteLen =>
      let placeholder := vaultPlaceholder reason byteLen
      match checkedSegments placeholder with
      | .error error => .error error
      | .ok segments => .ok (.vaulted placeholder segments reason)

def storeIsAdmitting (store : ContextStore) : Except IngressError Unit :=
  if store.mode.name = "normal" then .ok () else .error (.storeBlocked store.mode.name)

/-- The mode that a refusal of the store names. -/
def refusalMode : StoreError → String
  | .blocked mode => mode.name
  | .vault _ => "vault"

/-- The append, and the checks that follow it. -/
def placeOnSpine (store : ContextStore) (bytes : Bytes) (segments : List Span) :
    Except IngressError SpinePlacement × ContextStore :=
  match store.sanitizedAppend bytes with
  | (.error refusal, store) => (.error (.storeBlocked (refusalMode refusal)), store)
  | (.ok (handle, range), store) =>
      match storeIsAdmitting store with
      | .error error => (.error error, store)
      | .ok () =>
          if range.stop ≤ range.start then
            (.error .emptyPreservedSpine, store)
          else if coverageIsTotal segments bytes.length then
            (.ok ⟨handle, range⟩, store)
          else
            (.error (.coverage bytes.length), store)

variable (cipher : Cipher)

def payloadAt (placement : SpinePlacement) (bytes : Bytes) (segments : List Span) :
    IngressPayload :=
  ⟨placement.handle, [placement.range], bytes, classified bytes segments⟩

/-- A payload for the vault is sealed after its placeholder is on the spine. -/
def transactOne (store : ContextStore) (slot : CaptureSlot) :
    ValidatedSlot → Except IngressError IngressRecord × ContextStore
  | .sanitized bytes segments redactions =>
      match placeOnSpine store bytes segments with
      | (.error error, store) => (.error error, store)
      | (.ok placement, store) =>
          (.ok ⟨slot.source, payloadAt placement bytes segments, bytes, segments, redactions, none,
            secretTokenDigests slot.bytes, placement⟩, store)
  | .vaulted placeholder segments reason =>
      match placeOnSpine store placeholder segments with
      | (.error error, store) => (.error error, store)
      | (.ok placement, store) =>
          match store.vaultPut cipher slot.bytes reason.name with
          | (.error refusal, store) => (.error (.storeBlocked (refusalMode refusal)), store)
          | (.ok handle, store) =>
              (.ok ⟨slot.source, payloadAt placement placeholder segments, placeholder, segments, 0,
                some ⟨handle, reason.name, placeholder, digest slot.bytes⟩,
                secretTokenDigests slot.bytes, placement⟩, store)

/-- All slots are validated before the first is appended. -/
def validateSlots (txn : IngressTxn) : List CaptureSlot → Except IngressError (List ValidatedSlot)
  | [] => .ok []
  | slot :: rest => do
      let validated ← txn.validateSlot slot.bytes
      let later ← validateSlots txn rest
      return validated :: later

def transactAll (store : ContextStore) :
    List (CaptureSlot × ValidatedSlot) → Except IngressError (List IngressRecord) × ContextStore
  | [] => (.ok [], store)
  | (slot, validated) :: rest =>
      match transactOne cipher store slot validated with
      | (.error error, store) => (.error error, store)
      | (.ok record, store) =>
          match transactAll store rest with
          | (.error error, store) => (.error error, store)
          | (.ok records, store) => (.ok (record :: records), store)

def commit (txn : IngressTxn) (store : ContextStore) :
    Except IngressError (List IngressRecord) × ContextStore :=
  match storeIsAdmitting store with
  | .error error => (.error error, store)
  | .ok () =>
      match txn.validateSlots txn.slots with
      | .error error => (.error error, store)
      | .ok validated =>
          match transactAll cipher store (txn.slots.zip validated) with
          | (.error error, store) => (.error error, store)
          | (.ok records, store) =>
              match storeIsAdmitting store with
              | .error error => (.error error, store)
              | .ok () => (.ok records, store)

section Growth

variable {cipher} {txn : IngressTxn} {store : ContextStore}

theorem length_appended {raw : Bytes} {validated : ValidatedSlot}
    (accepted : txn.validateSlot raw = .ok validated) :
    validated.appended.length ≤ max raw.length 1 := by
  unfold validateSlot at accepted
  split at accepted
  · rename_i bytes redactions outcome
    split at accepted
    · cases accepted
    · cases accepted
      rw [ValidatedSlot.appended, length_of_redact outcome]
      exact le_max_left _ _
  · rename_i reason byteLen outcome
    simp only at accepted
    split at accepted
    · cases accepted
    · cases accepted
      rw [ValidatedSlot.appended, length_vaultPlaceholder, byteLen_of_redactWith outcome]

/-- What an ingestion may do to the spine: nothing, or admit some payload of at
most the given length. -/
inductive Grows (limit : Nat) (store later : ContextStore) : Prop
  | kept (same : later.spine = store.spine)
  | grown {bytes : Bytes} (within : bytes.length ≤ limit)
      (admitted : later.spine = store.spine.admitFrame bytes)

theorem placeOnSpine_spine (bytes : Bytes) (segments : List Span) :
    Grows bytes.length store (placeOnSpine store bytes segments).2 := by
  have appended : Grows bytes.length store (store.sanitizedAppend bytes).2 := by
    unfold ContextStore.sanitizedAppend
    split
    · exact .grown le_rfl rfl
    · exact .kept rfl
  unfold placeOnSpine
  generalize store.sanitizedAppend bytes = result at appended ⊢
  rcases result with ⟨refusal | placed, later⟩
  · exact appended
  · simp only
    split
    · exact appended
    · split
      · exact appended
      · split <;> exact appended

theorem transactOne_spine (slot : CaptureSlot) (validated : ValidatedSlot) :
    Grows validated.appended.length store (transactOne cipher store slot validated).2 := by
  cases validated with
  | sanitized bytes segments redactions =>
      have placed := @placeOnSpine_spine store bytes segments
      simp only [transactOne]
      generalize placeOnSpine store bytes segments = result at placed ⊢
      rcases result with ⟨error | placement, later⟩
      · exact placed
      · exact placed
  | vaulted placeholder segments reason =>
      have placed := @placeOnSpine_spine store placeholder segments
      simp only [transactOne]
      generalize placeOnSpine store placeholder segments = result at placed ⊢
      rcases result with ⟨error | placement, later⟩
      · exact placed
      · have spine : (later.vaultPut cipher slot.bytes reason.name).2.spine = later.spine :=
          ContextStore.vaultPut_spine
        simp only
        generalize later.vaultPut cipher slot.bytes reason.name = put at spine ⊢
        have kept : Grows placeholder.length store put.2 := by
          cases placed with
          | kept same => exact .kept (spine.trans same)
          | grown within admitted => exact .grown within (spine.trans admitted)
        rcases put with ⟨refusal | handle, sealed⟩
        · exact kept
        · exact kept

/-- A transaction over one payload admits at most that payload. -/
theorem commit_spine {slot : CaptureSlot} (single : txn.slots = [slot]) :
    Grows (max slot.bytes.length 1) store (txn.commit cipher store).2 := by
  unfold commit
  rw [single]
  split
  · exact .kept rfl
  · split
    · exact .kept rfl
    · rename_i validated accepted
      simp only [validateSlots, bind_eq_ok, pure_eq_ok] at accepted
      rcases accepted with ⟨first, valid, remaining, isNil, rfl⟩
      cases isNil
      have grows := @transactOne_spine cipher store slot first
      have within := length_appended valid
      simp only [List.zip_cons_cons, List.zip_nil_left, transactAll]
      generalize transactOne cipher store slot first = result at grows ⊢
      have limited : Grows (max slot.bytes.length 1) store result.2 := by
        cases grows with
        | kept same => exact .kept same
        | grown short admitted => exact .grown (Nat.le_trans short within) admitted
      rcases result with ⟨error | record, later⟩
      · exact limited
      · simp only
        split <;> exact limited

end Growth

end IngressTxn

end Llxprt.Ingress
