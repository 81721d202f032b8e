import Llxprt.Ingress.Verdict
import Llxprt.Session.Admission

/-!
# Projections of bulk results

What a transcript keeps of a bulk result is decided by the verdict of the filter on
the sanitized bytes: the bytes themselves, a stub, or a compact record with a few
preserved spans.  The same record is derived with and without a store.
-/

namespace Llxprt.Session

open Llxprt.Kernel Llxprt.Rust Llxprt.Store Llxprt.Ingress Llxprt.Transaction

def bulkResultBytes : Nat := 1024
def digestSpanLimit : Nat := 4
def digestSpanBytes : Nat := 1024
def preservedSpanLimit : Nat := 64

inductive FilterClass where
  | exact
  | ranked
  | noise

def FilterClass.name : FilterClass → String
  | exact => "exact"
  | ranked => "ranked"
  | noise => "noise"

structure PreservedSpan where
  span : Span
  label : String

/-- A digest of one payload. -/
structure FilterDigest where
  handle : String
  ranges : List ByteRange
  cls : FilterClass
  preserved : List PreservedSpan
  summary : Bytes
  ruleVersion : Nat
  vocabularyVersion : Nat

/-- What the provider sees of a result and what the transcript keeps. -/
structure ToolResultProjection where
  live : Bytes
  persisted : Bytes

def ToolResultProjection.verbatim (text : Bytes) : ToolResultProjection :=
  ⟨text, text⟩

section Records

/-- The bytes of a span. -/
def Span.slice (span : Span) (bytes : Bytes) : Bytes :=
  (bytes.drop span.start).take (span.stop - span.start)

/-- The label under which a class of segments is preserved. -/
def preservedLabel : Ingress.StructuralClass → Option String
  | .exactSpan => some "error-span"
  | .identifier => some "identifier"
  | _ => none

/-- The preserved spans of some segments. -/
def preservedSpans (labels : List String) (segments : List Segment) : List PreservedSpan :=
  segments.filterMap fun segment =>
    match preservedLabel segment.structural with
    | some label => if labels.contains label then some ⟨segment.span, label⟩ else none
    | none => none

/-- `FilterRegistry::digest`. -/
def filterDigest (registry : FilterRegistry) (tool handle : String) (ranges : List ByteRange)
    (bytes : Bytes) (segments : List Segment) : FilterDigest :=
  let preserved := preservedSpans registry.currentVocabulary.labels segments
  { handle := handle
    ranges := ranges
    cls :=
      match registry.verdict tool segments bytes.length with
      | .digest => .exact
      | .dropBulk => .noise
      | .passVerbatim => .ranked
    preserved := preserved
    summary := preserved.flatMap fun kept => Span.slice kept.span bytes
    ruleVersion := registry.currentRules.version
    vocabularyVersion := registry.currentVocabulary.version }

/-- The content-stable handle of sanitized bytes. -/
def contentDigestHandle (bytes : Bytes) : String :=
  "content-" ++ String.ofList (Text.hexDigits 16 (digest bytes).toNat)

def floorMarginDivisor : Nat := 8
def refetchVerbatimMax : Nat := 512

/-- A window that stays under the admission floor. -/
def safeWindow (floor : Nat) : Nat :=
  max (floor - floor / floorMarginDivisor) 1

def digestWindow (floor : Nat) : Nat :=
  max 1 (min (safeWindow floor) refetchVerbatimMax)

def digestReFetchLine (floor : Nat) : String :=
  "re-fetch: read_file windows of at most " ++ toString (digestWindow floor) ++
    " bytes via \x7b\"path\":...,\"offset\":...,\"max_output_bytes\":" ++
    toString (digestWindow floor) ++ "\x7d"

def dropStub (tool : String) (length : Nat) (handle : String) : Bytes :=
  utf8 ("CTXDROP v1 tool=" ++ tool ++ " bytes=" ++ toString length ++ " handle=" ++ handle ++ "\n")

def recordHeader (tool : String) (length : Nat) (digest : FilterDigest) (handle : String) :
    Bytes :=
  utf8 ("CTXDIGEST v1 tool=" ++ tool ++ " bytes=" ++ toString length ++ " class=" ++
    digest.cls.name ++ " rule=" ++ toString digest.ruleVersion ++ " vocab=" ++
    toString digest.vocabularyVersion ++ " handle=" ++ handle ++ "\n")

/-- The texts of the spans that the record carries: at most four, all whole, and within
the byte budget together. -/
def carried (bytes : Bytes) : List PreservedSpan → Nat → Nat → List Bytes
  | [], _, _ => []
  | kept :: rest, budget, count =>
      if digestSpanLimit ≤ count then
        []
      else
        let text := Text.fromUtf8Lossy (Span.slice kept.span bytes)
        if budget < text.length then
          []
        else
          text :: carried bytes rest (budget - text.length) (count + 1)

def elidedLine (elided : Nat) : Bytes :=
  if 0 < elided then utf8 ("preserved_spans_elided=" ++ toString elided ++ "\n") else []

def floorLine (floor : Nat) : Bytes :=
  utf8 ("floor=" ++ toString floor ++ "\n")

/-- The re-fetch line of the tools that read files. -/
def reFetchLine (tool : String) (floor : Nat) : Bytes :=
  if tool = "read_file" ∨ tool = "search_file_content" then
    utf8 (digestReFetchLine floor ++ "\n")
  else
    []

/-- The text of a summary. -/
def summaryText (summary : Bytes) : String :=
  (String.fromUTF8? ⟨(Text.fromUtf8Lossy summary).toArray⟩).getD ""

/-- The bytes of a compact record. -/
def recordText (floor : Nat) (tool : String) (bytes : Bytes) (handle : String)
    (digest : FilterDigest) : Bytes :=
  let texts := carried bytes digest.preserved digestSpanBytes 0
  recordHeader tool bytes.length digest handle ++ texts.flatMap (fun text => text ++ [10]) ++
    elidedLine (digest.preserved.length - texts.length) ++ floorLine floor ++
    reFetchLine tool floor

/-- A compact record; the summary of the preserved spans goes into the state. -/
def digestRecord (state : ContextState) (tool : String) (payload : IngressPayload)
    (handle : String) (digest : FilterDigest) : Bytes × ContextState :=
  (recordText state.filters.currentRules.sizeFloor tool payload.bytes handle digest,
    if digest.summary = [] then
      state
    else
      { state with preserved := state.preserved ++ [summaryText digest.summary] })

end Records

section Paths

/-- The projections of an admitted payload. -/
def verdictProjection (state : ContextState) (tool : String) (payload : IngressPayload)
    (handle : String) : ToolResultProjection × ContextState :=
  match state.filters.verdict tool payload.segments payload.bytes.length with
  | .passVerbatim => (.verbatim (Text.fromUtf8Lossy payload.bytes), state)
  | .dropBulk => (.verbatim (dropStub tool payload.bytes.length payload.handle), state)
  | .digest =>
      let digest := filterDigest state.filters tool payload.handle payload.ranges payload.bytes
        payload.segments
      let (record, state) := digestRecord state tool payload handle digest
      (⟨Text.fromUtf8Lossy payload.bytes, record⟩, state)

def sanitizeForDigest (bytes : Bytes) : Bytes :=
  match redact ingressWorkBudget bytes with
  | .sanitized bytes _ => bytes
  | .vaulted reason byteLen => vaultPlaceholder reason byteLen

/-- The record of a result without a store. -/
def memoryDigest (state : ContextState) (tool : String) (bytes : Bytes) : Bytes × ContextState :=
  let sanitized := sanitizeForDigest bytes
  let segments := classify sanitized
  let handle := contentDigestHandle sanitized
  match state.filters.verdict tool segments sanitized.length with
  | .passVerbatim => (Text.fromUtf8Lossy sanitized, state)
  | .dropBulk => (dropStub tool sanitized.length handle, state)
  | .digest =>
      let digest := filterDigest state.filters tool handle [] sanitized segments
      digestRecord state tool ⟨handle, [], sanitized, segments⟩ handle digest

/-- What an ingestion hands to its caller: the projections of the record that it
committed. -/
def projected (tool : String) :
    Outcome AdmissionError Ingress.IngressRecord × ContextState →
      Outcome AdmissionError ToolResultProjection × ContextState
  | (.ok record, state) =>
      let (projection, state) := verdictProjection state tool record.payload
        (contentDigestHandle record.sanitized)
      (.ok projection, state)
  | (.err error, state) => (.err error, state)
  | (.panic, state) => (.panic, state)

inductive CompactError where
  | mode (mode : StoreMode)
  | ingest (error : AdmissionError)
  | persist (text : String)

def trimPreserved (state : ContextState) : ContextState :=
  { state with preserved := state.preserved.drop (state.preserved.length - preservedSpanLimit) }

variable [Wire] (cipher : Cipher) (governor : Governor)

/-- A result before it is recorded into its round.  The artifacts are published by a
function of the session. -/
def compactToolResult (publish : ContextState → Except String Unit × ContextState)
    (state : ContextState) (epoch : Nat) (tool : String) (result : Bytes) :
    Outcome CompactError ToolResultProjection × ContextState :=
  if result.length < bulkResultBytes then
    (.ok (.verbatim result), state)
  else if state.store.mode.writable = false then
    if state.store.mode = .unavailable then
      let (record, state) := memoryDigest state tool result
      (.ok (.verbatim record), state)
    else
      (.err (.mode state.store.mode), state)
  else
    match projected tool (ingestBulk cipher governor state epoch tool result) with
    | (.err error, state) => (.err (.ingest error), state)
    | (.panic, state) => (.panic, state)
    | (.ok projection, state) =>
        match publish state with
        | (.error text, state) => (.err (.persist text), state)
        | (.ok (), state) => (.ok projection, trimPreserved state)

/-- A call of a round, as the checkpoint reads and rewrites it. -/
structure RecordedCall where
  name : String
  result : Bytes

/-- The calls of the rounds in their order; `lease` is the lease that an admission gets. -/
def digestCalls (lease : ContextState → Nat) (state : ContextState) :
    List RecordedCall → Outcome AdmissionError (List RecordedCall) × ContextState
  | [] => (.ok [], state)
  | call :: rest =>
      if call.result.length < bulkResultBytes then
        match digestCalls lease state rest with
        | (.ok calls, state) => (.ok (call :: calls), state)
        | (.err error, state) => (.err error, state)
        | (.panic, state) => (.panic, state)
      else
        match projected call.name
            (ingestBulk cipher governor state (lease state) call.name call.result) with
        | (.err error, state) => (.err error, state)
        | (.panic, state) => (.panic, state)
        | (.ok projection, state) =>
            match digestCalls lease state rest with
            | (.ok calls, state) => (.ok ({ call with result := projection.persisted } :: calls),
                state)
            | (.err error, state) => (.err error, state)
            | (.panic, state) => (.panic, state)

end Paths

section Commits

variable {cipher : Cipher} {governor : Governor} {state later : ContextState} {epoch : Nat}
  {tool : String} {bytes : Bytes} {record : Ingress.IngressRecord}

/-- What a committed record says about a payload: its sanitized bytes with their
segments, at the end of the spine. -/
structure Recorded (store : ContextStore) (bytes : Bytes) (record : Ingress.IngressRecord) : Prop where
  sanitized : record.sanitized = sanitizeForDigest bytes
  segments : record.segments = segment record.sanitized
  handle : record.spine.handle = canonicalHandle store.spine.len record.sanitized
  range : record.spine.range =
    ⟨store.spine.len, store.spine.len + record.sanitized.length⟩
  placed : record.payload = IngressTxn.payloadAt record.spine record.sanitized record.segments

theorem placeOnSpine_eq_ok {store after : ContextStore} {segments : List Span}
    {placement : SpinePlacement}
    (placed : IngressTxn.placeOnSpine store bytes segments = (.ok placement, after)) :
    placement = ⟨canonicalHandle store.spine.len bytes,
      ⟨store.spine.len, store.spine.len + bytes.length⟩⟩ := by
  unfold IngressTxn.placeOnSpine ContextStore.sanitizedAppend at placed
  by_cases writable : store.mode.writable = true
  · rw [if_pos writable] at placed
    simp only at placed
    split at placed
    · cases placed
    · split at placed
      · cases placed
      · split at placed
        · cases placed
          rfl
        · cases placed
  · rw [if_neg writable] at placed
    cases placed

theorem checkedSegments_eq_ok {segments : List Span}
    (accepted : IngressTxn.checkedSegments bytes = .ok segments) : segments = segment bytes := by
  unfold IngressTxn.checkedSegments at accepted
  split at accepted
  · cases accepted
  · split at accepted
    · cases accepted
      rfl
    · cases accepted

/-- A validated payload that is transacted becomes a record of its sanitized bytes. -/
theorem transactOne_eq_ok {txn : IngressTxn} {store after : ContextStore} {slot : CaptureSlot}
    {validated : ValidatedSlot} (budget : txn.workBudget = ingressWorkBudget)
    (accepted : txn.validateSlot slot.bytes = .ok validated)
    (done : IngressTxn.transactOne cipher store slot validated = (.ok record, after)) :
    Recorded store slot.bytes record := by
  unfold IngressTxn.validateSlot at accepted
  rw [budget] at accepted
  cases outcome : redact ingressWorkBudget slot.bytes with
  | sanitized sanitized redactions =>
      have shown : sanitizeForDigest slot.bytes = sanitized := by
        rw [sanitizeForDigest, outcome]
      simp only [outcome] at accepted
      split at accepted
      · cases accepted
      · rename_i segments checked
        cases accepted
        rw [IngressTxn.transactOne] at done
        split at done
        · cases done
        · rename_i placement placedStore placed
          cases done
          have place := placeOnSpine_eq_ok placed
          exact ⟨shown.symm, checkedSegments_eq_ok checked, by rw [place], by rw [place], rfl⟩
  | vaulted reason byteLen =>
      have shown : sanitizeForDigest slot.bytes = vaultPlaceholder reason byteLen := by
        rw [sanitizeForDigest, outcome]
      simp only [outcome] at accepted
      split at accepted
      · cases accepted
      · rename_i segments checked
        cases accepted
        rw [IngressTxn.transactOne] at done
        split at done
        · cases done
        · rename_i placement placedStore placed
          split at done
          · cases done
          · cases done
            have place := placeOnSpine_eq_ok placed
            exact ⟨shown.symm, checkedSegments_eq_ok checked, by rw [place], by rw [place], rfl⟩

theorem commit_eq_ok {txn : IngressTxn} {store after : ContextStore} {slot : CaptureSlot}
    {rest : List Ingress.IngressRecord} (single : txn.slots = [slot])
    (budget : txn.workBudget = ingressWorkBudget)
    (done : txn.commit cipher store = (.ok (record :: rest), after)) :
    Recorded store slot.bytes record := by
  unfold IngressTxn.commit at done
  rw [single] at done
  split at done
  · cases done
  · split at done
    · cases done
    · rename_i validated accepted
      simp only [IngressTxn.validateSlots, bind_eq_ok, pure_eq_ok] at accepted
      rcases accepted with ⟨first, valid, remaining, isNil, rfl⟩
      cases isNil
      simp only [List.zip_cons_cons, List.zip_nil_left, IngressTxn.transactAll] at done
      split at done
      · cases done
      · rename_i records transacted finished
        split at finished
        · cases finished
        · rename_i only placed transacts
          cases finished
          split at done
          · cases done
          · cases done
            exact transactOne_eq_ok budget valid transacts

/-- The payload of a record of the sanitized bytes. -/
theorem Recorded.payload {store : ContextStore} (recorded : Recorded store bytes record) :
    record.payload =
      ⟨canonicalHandle store.spine.len (sanitizeForDigest bytes),
        [⟨store.spine.len, store.spine.len + (sanitizeForDigest bytes).length⟩],
        sanitizeForDigest bytes, classify (sanitizeForDigest bytes)⟩ := by
  rw [recorded.placed, IngressTxn.payloadAt, recorded.handle, recorded.range, recorded.segments,
    recorded.sanitized]
  rfl

variable [Wire]

/-- A committed ingestion records the sanitized bytes and leaves the filters. -/
theorem ingestBulkCommitted_eq_ok
    (done : ingestBulkCommitted cipher state epoch bytes = (.ok record, later)) :
    Recorded state.store bytes record ∧ later.filters = state.filters ∧
      later.preserved = state.preserved := by
  unfold ingestBulkCommitted at done
  split at done
  · have outcomes := bulkAdmission_cases state epoch bytes
    generalize bulkAdmission state epoch bytes = result at outcomes done
    rcases result with ⟨outcome, admitted⟩
    simp only at outcomes done
    rcases outcomes with ⟨rfl, chain, rfl⟩ | ⟨refused, rfl⟩
    · have captured : (IngressTxn.new bytes.length ingressWorkBudget).capture .toolResult bytes =
          .ok ⟨bytes.length, [⟨.toolResult, bytes⟩], 0 + bytes.length, ingressWorkBudget⟩ := by
        simp [IngressTxn.capture, IngressTxn.new]
      simp only [captured] at done
      rcases committed : IngressTxn.commit cipher
        ⟨bytes.length, [⟨.toolResult, bytes⟩], 0 + bytes.length, ingressWorkBudget⟩ state.store
        with ⟨error | records, store⟩
      · rw [committed] at done
        cases done
      · rw [committed] at done
        cases records with
        | nil => cases done
        | cons first rest =>
            cases done
            exact ⟨commit_eq_ok rfl rfl committed, rfl, rfl⟩
    · cases outcome with
      | ok value => cases refused
      | err error => cases done
      | panic => cases done
  · cases done

theorem ingestBulk_eq_ok
    (done : ingestBulk cipher governor state epoch tool bytes = (.ok record, later)) :
    Recorded state.store bytes record ∧ later.filters = state.filters ∧
      later.preserved = state.preserved := by
  unfold ingestBulk at done
  generalize governor.proposeBulk state.policy tool bytes.length = proposal at done
  rcases proposal with ⟨quiesces, proposed⟩
  cases quiesces with
  | true => cases done
  | false =>
      simp only [Bool.false_eq_true, if_false] at done
      rcases ingested : ingestBulkCommitted cipher { state with policy := proposed } epoch bytes
        with ⟨committed | error | _, after⟩
      · rcases ingestBulkCommitted_eq_ok ingested with ⟨recorded, filters, preserved⟩
        rw [ingested, Prod.mk.injEq, Outcome.ok.injEq] at done
        rcases done with ⟨rfl, rfl⟩
        exact ⟨recorded, filters, preserved⟩
      · rw [ingested] at done
        cases done
      · rw [ingested] at done
        cases done

end Commits

section Agreement

variable [Wire] {cipher : Cipher} {state : ContextState} {epoch : Nat} {tool : String}
  {bytes : Bytes} {projection : ToolResultProjection}

/-- The payload of the sanitized bytes at the end of the spine. -/
def committedPayload (store : ContextStore) (bytes : Bytes) : IngressPayload where
  handle := canonicalHandle store.spine.len (sanitizeForDigest bytes)
  ranges := [⟨store.spine.len, store.spine.len + (sanitizeForDigest bytes).length⟩]
  bytes := sanitizeForDigest bytes
  segments := classify (sanitizeForDigest bytes)

omit [Wire] in
/-- The projections of a recorded payload depend on its sanitized bytes alone. -/
theorem projected_of_recorded {record : Ingress.IngressRecord} {after : ContextState}
    (recorded : Recorded state.store bytes record) (filters : after.filters = state.filters) :
    (projected tool (.ok record, after)).1 = .ok (verdictProjection state tool
      (committedPayload state.store bytes) (contentDigestHandle (sanitizeForDigest bytes))).1 := by
  rw [projected, recorded.payload, recorded.sanitized, committedPayload, verdictProjection,
    verdictProjection, filters]
  cases state.filters.verdict tool (classify (sanitizeForDigest bytes))
      (sanitizeForDigest bytes).length with
  | passVerbatim => rfl
  | dropBulk => rfl
  | digest => simp only [digestRecord, filters]

theorem projected_eq_ok
    (done : (projected tool (ingestBulkCommitted cipher state epoch bytes)).1 =
      .ok projection) :
    projection = (verdictProjection state tool (committedPayload state.store bytes)
      (contentDigestHandle (sanitizeForDigest bytes))).1 := by
  rcases ingested : ingestBulkCommitted cipher state epoch bytes with ⟨record | error | _, after⟩
  · rcases ingestBulkCommitted_eq_ok ingested with ⟨recorded, filters, _⟩
    rw [ingested, projected_of_recorded recorded filters] at done
    exact (Outcome.ok.inj done).symm
  · rw [ingested] at done
    cases done
  · rw [ingested] at done
    cases done

theorem projected_ingestBulk_eq_ok {governor : Governor}
    (done : (projected tool (ingestBulk cipher governor state epoch tool bytes)).1 =
      .ok projection) :
    projection = (verdictProjection state tool (committedPayload state.store bytes)
      (contentDigestHandle (sanitizeForDigest bytes))).1 := by
  rcases ingested : ingestBulk cipher governor state epoch tool bytes with
    ⟨record | error | _, after⟩
  · rcases ingestBulk_eq_ok ingested with ⟨recorded, filters, _⟩
    rw [ingested, projected_of_recorded recorded filters] at done
    exact (Outcome.ok.inj done).symm
  · rw [ingested] at done
    cases done
  · rw [ingested] at done
    cases done

omit [Wire] in
/-- The store-free record is the one of a payload named by its content. -/
theorem memoryDigest_fst :
    (memoryDigest state tool bytes).1 = (verdictProjection state tool
      ⟨contentDigestHandle (sanitizeForDigest bytes), [], sanitizeForDigest bytes,
        classify (sanitizeForDigest bytes)⟩
      (contentDigestHandle (sanitizeForDigest bytes))).1.persisted := by
  rw [memoryDigest, verdictProjection]
  generalize sanitizeForDigest bytes = sanitized
  generalize contentDigestHandle sanitized = handle
  simp only
  cases state.filters.verdict tool (classify sanitized) sanitized.length with
  | passVerbatim => rfl
  | dropBulk => rfl
  | digest => rfl

/-- Whenever the durable path succeeds, its persisted record is the one that the
store-free path derives, and the stubs of a drop differ in the handle alone.  Results
with the same sanitized bytes have the same projections on both paths. -/
theorem durable_eq_memoryDigest (cipher : Cipher) (state : ContextState) (epoch : Nat)
    (tool : String) (bytes : Bytes) :
    (∀ projection,
      (projected tool (ingestBulkCommitted cipher state epoch bytes)).1 = .ok projection →
      match state.filters.verdict tool (classify (sanitizeForDigest bytes))
        (sanitizeForDigest bytes).length with
      | .dropBulk =>
          projection.persisted = dropStub tool (sanitizeForDigest bytes).length
            (canonicalHandle state.store.spine.len (sanitizeForDigest bytes)) ∧
          (memoryDigest state tool bytes).1 = dropStub tool (sanitizeForDigest bytes).length
            (contentDigestHandle (sanitizeForDigest bytes))
      | _ => projection.persisted = (memoryDigest state tool bytes).1) ∧
    ∀ other, sanitizeForDigest other = sanitizeForDigest bytes →
      memoryDigest state tool other = memoryDigest state tool bytes ∧
        ∀ projection otherProjection,
          (projected tool (ingestBulkCommitted cipher state epoch bytes)).1 = .ok projection →
          (projected tool (ingestBulkCommitted cipher state epoch other)).1 =
            .ok otherProjection →
          otherProjection = projection := by
  constructor
  · intro projection done
    have shown := projected_eq_ok done
    rw [verdictProjection, committedPayload] at shown
    rw [memoryDigest]
    simp only at shown ⊢
    generalize sanitizeForDigest bytes = sanitized at shown ⊢
    generalize canonicalHandle state.store.spine.len sanitized = handle at shown ⊢
    generalize contentDigestHandle sanitized = contentHandle at shown ⊢
    cases verdict : state.filters.verdict tool (classify sanitized) sanitized.length with
    | passVerbatim =>
        rw [verdict] at shown
        rw [shown]
        rfl
    | dropBulk =>
        rw [verdict] at shown
        rw [shown]
        exact ⟨rfl, rfl⟩
    | digest =>
        rw [verdict] at shown
        rw [shown]
        simp only [digestRecord, recordText, recordHeader, filterDigest]
  · intro other same
    constructor
    · rw [memoryDigest, memoryDigest, same]
    · intro projection otherProjection done otherDone
      rw [projected_eq_ok done, projected_eq_ok otherDone, committedPayload, committedPayload, same]

end Agreement

end Llxprt.Session
