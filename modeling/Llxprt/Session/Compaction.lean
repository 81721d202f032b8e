import Llxprt.Session.Projections

/-!
# The length of compacted results

The checkpoint passes over results below the bulk threshold.  A compacted result is
below it only where the tool name, the printed numbers and the carried spans leave
room: one span may fill the threshold alone.
-/

namespace Llxprt.Session

open Llxprt.Kernel Llxprt.Rust Llxprt.Store Llxprt.Ingress Llxprt.Transaction

section Lengths

/-- The digits of a number. -/
def digits (number : Nat) : Nat :=
  (toString number).utf8ByteSize

theorem length_utf8 (text : String) : (utf8 text).length = text.utf8ByteSize := by
  rw [utf8, Array.length_toList]
  rfl

theorem utf8ByteSize_ofList {chars : List Char} (single : ∀ char ∈ chars, char.utf8Size = 1) :
    (String.ofList chars).utf8ByteSize = chars.length := by
  induction chars with
  | nil => rfl
  | cons char chars ih =>
      rw [String.ofList_cons, String.utf8ByteSize_append, String.utf8ByteSize_singleton,
        single char List.mem_cons_self, ih fun other member =>
          single other (List.mem_cons_of_mem _ member), List.length_cons, Nat.add_comm]

theorem utf8ByteSize_hexDigits (count value : Nat) :
    (String.ofList (Text.hexDigits count value)).utf8ByteSize = count := by
  have ascii : ∀ digit < 16, (Nat.digitChar digit).utf8Size = 1 := by decide
  rw [utf8ByteSize_ofList]
  · simp [Text.hexDigits]
  · intro char member
    rcases List.mem_map.mp member with ⟨place, _, rfl⟩
    exact ascii _ (Nat.mod_lt _ (by decide))

theorem utf8ByteSize_contentDigestHandle (bytes : Bytes) :
    (contentDigestHandle bytes).utf8ByteSize = 24 := by
  rw [contentDigestHandle, String.utf8ByteSize_append, utf8ByteSize_hexDigits]
  rfl

theorem utf8ByteSize_canonicalHandle (position : Nat) (bytes : Bytes) :
    (canonicalHandle position bytes).utf8ByteSize = 26 := by
  rw [canonicalHandle, String.utf8ByteSize_append, utf8ByteSize_hexDigits]
  rfl

/-- How many of the leading spans, at most so many, fit the budget together. -/
def carriedCount (lengths : List Nat) (budget limit : Nat) : Nat :=
  Nat.findGreatest (fun count => (lengths.take count).sum ≤ budget) (min limit lengths.length)

theorem carriedCount_of_full (lengths : List Nat) (budget : Nat) :
    carriedCount lengths budget 0 = 0 := by
  rw [carriedCount, Nat.zero_min]
  rfl

theorem carriedCount_of_lt {length budget : Nat} (large : budget < length) (lengths : List Nat)
    (limit : Nat) : carriedCount (length :: lengths) budget limit = 0 := by
  rw [carriedCount, Nat.findGreatest_eq_zero_iff]
  intro count positive _ fits
  cases count with
  | zero => exact absurd positive (Nat.lt_irrefl 0)
  | succ count =>
      rw [List.take_succ_cons, List.sum_cons] at fits
      omega

theorem carriedCount_of_le {length budget : Nat} (fits : length ≤ budget) (lengths : List Nat)
    (limit : Nat) :
    carriedCount (length :: lengths) budget (limit + 1) =
      carriedCount lengths (budget - length) limit + 1 := by
  rw [carriedCount, carriedCount, List.length_cons, Nat.succ_min_succ, Nat.findGreatest_eq_iff]
  have below := Nat.findGreatest_le (P := fun count =>
    (lengths.take count).sum ≤ budget - length) (min limit lengths.length)
  refine ⟨Nat.succ_le_succ below, ?_, ?_⟩
  · intro _
    have spec := Nat.findGreatest_spec (P := fun count =>
      (lengths.take count).sum ≤ budget - length) (n := min limit lengths.length)
      (Nat.zero_le _) (by simp)
    rw [List.take_succ_cons, List.sum_cons]
    omega
  · intro count above within holds
    cases count with
    | zero => exact absurd above (Nat.not_lt_zero _)
    | succ count =>
        rw [List.take_succ_cons, List.sum_cons] at holds
        refine Nat.findGreatest_is_greatest (Nat.lt_of_succ_lt_succ above)
          (Nat.le_of_succ_le_succ within) ?_
        omega

/-- The record carries the leading spans that fit. -/
theorem carried_eq_take (bytes : Bytes) (spans : List PreservedSpan) (budget count : Nat) :
    carried bytes spans budget count =
      (spans.map fun kept => Text.fromUtf8Lossy (Span.slice kept.span bytes)).take
        (carriedCount (spans.map fun kept =>
          (Text.fromUtf8Lossy (Span.slice kept.span bytes)).length) budget
          (digestSpanLimit - count)) := by
  induction spans generalizing budget count with
  | nil => rw [carried, List.map_nil, List.map_nil, List.take_nil]
  | cons kept spans ih =>
      rw [carried, List.map_cons, List.map_cons]
      by_cases full : digestSpanLimit ≤ count
      · rw [if_pos full, Nat.sub_eq_zero_of_le full, carriedCount_of_full, List.take_zero]
      · rw [if_neg full]
        simp only
        by_cases large : budget < (Text.fromUtf8Lossy (Span.slice kept.span bytes)).length
        · rw [if_pos large, carriedCount_of_lt large, List.take_zero]
        · have room : digestSpanLimit - count = digestSpanLimit - (count + 1) + 1 := by omega
          rw [if_neg large, room, carriedCount_of_le (Nat.le_of_not_lt large), ih,
            List.take_succ_cons]

end Lengths

section Formulas

/-- The lengths of the spans that the record of sanitized bytes may carry. -/
def spanLengths (registry : FilterRegistry) (sanitized : Bytes) : List Nat :=
  (preservedSpans registry.currentVocabulary.labels (classify sanitized)).map fun kept =>
    (Text.fromUtf8Lossy (Span.slice kept.span sanitized)).length

/-- The length of the line that counts the spans left out. -/
def elidedLength (elided : Nat) : Nat :=
  if 0 < elided then 24 + digits elided else 0

/-- The length of the re-fetch line of the tools that read files. -/
def reFetchLength (tool : String) (floor : Nat) : Nat :=
  if tool = "read_file" ∨ tool = "search_file_content" then 96 + 2 * digits (digestWindow floor)
  else 0

/-- The length of the compact record: the fixed words, the tool name, the printed
numbers, and every carried span with its newline. -/
def recordLength (registry : FilterRegistry) (tool : String) (sanitized : Bytes) : Nat :=
  let lengths := spanLengths registry sanitized
  let kept := carriedCount lengths digestSpanBytes digestSpanLimit
  let floor := registry.currentRules.sizeFloor
  90 + tool.utf8ByteSize + digits sanitized.length + digits registry.currentRules.version +
    digits registry.currentVocabulary.version + ((lengths.take kept).sum + kept) +
    elidedLength (lengths.length - kept) + digits floor + reFetchLength tool floor

/-- The length of a stub with a handle of the given length. -/
def stubLength (tool : String) (sanitized : Bytes) (handle : Nat) : Nat :=
  32 + tool.utf8ByteSize + digits sanitized.length + handle

theorem length_dropStub (tool : String) (sanitized : Bytes) (handle : String) :
    (dropStub tool sanitized.length handle).length =
      stubLength tool sanitized handle.utf8ByteSize := by
  have first : "CTXDROP v1 tool=".utf8ByteSize = 16 := by decide
  have second : " bytes=".utf8ByteSize = 7 := by decide
  have third : " handle=".utf8ByteSize = 8 := by decide
  have last : "\n".utf8ByteSize = 1 := by decide
  simp only [dropStub, length_utf8, String.utf8ByteSize_append, stubLength, digits, first, second,
    third, last]
  omega

theorem length_recordHeader {tool handle : String} {length : Nat} {digest : FilterDigest}
    (exact : digest.cls = .exact) :
    (recordHeader tool length digest handle).length =
      59 + tool.utf8ByteSize + digits length + digits digest.ruleVersion +
        digits digest.vocabularyVersion + handle.utf8ByteSize := by
  have words : "CTXDIGEST v1 tool=".utf8ByteSize = 18 ∧ " bytes=".utf8ByteSize = 7 ∧
      " class=".utf8ByteSize = 7 ∧ "exact".utf8ByteSize = 5 ∧ " rule=".utf8ByteSize = 6 ∧
      " vocab=".utf8ByteSize = 7 ∧ " handle=".utf8ByteSize = 8 ∧ "\n".utf8ByteSize = 1 := by
    decide
  rcases words with ⟨first, second, third, fourth, fifth, sixth, seventh, last⟩
  simp only [recordHeader, exact, FilterClass.name, length_utf8, String.utf8ByteSize_append,
    digits, first, second, third, fourth, fifth, sixth, seventh, last]
  omega

theorem length_elidedLine (elided : Nat) : (elidedLine elided).length = elidedLength elided := by
  have words : "preserved_spans_elided=".utf8ByteSize = 23 ∧ "\n".utf8ByteSize = 1 := by decide
  unfold elidedLine elidedLength
  split
  · simp only [length_utf8, String.utf8ByteSize_append, words.1, words.2, digits]
    omega
  · rfl

theorem length_floorLine (floor : Nat) : (floorLine floor).length = 7 + digits floor := by
  have words : "floor=".utf8ByteSize = 6 ∧ "\n".utf8ByteSize = 1 := by decide
  simp only [floorLine, length_utf8, String.utf8ByteSize_append, words.1, words.2, digits]
  omega

theorem length_reFetchLine (tool : String) (floor : Nat) :
    (reFetchLine tool floor).length = reFetchLength tool floor := by
  have words : "re-fetch: read_file windows of at most ".utf8ByteSize = 39 ∧
      " bytes via \x7b\"path\":...,\"offset\":...,\"max_output_bytes\":".utf8ByteSize = 55 ∧
      "\x7d".utf8ByteSize = 1 ∧ "\n".utf8ByteSize = 1 := by
    decide
  rcases words with ⟨first, second, third, last⟩
  unfold reFetchLine reFetchLength
  by_cases reads : tool = "read_file" ∨ tool = "search_file_content"
  · have line : (digestReFetchLine floor).utf8ByteSize =
        95 + 2 * digits (digestWindow floor) := by
      unfold digestReFetchLine digits
      generalize toString (digestWindow floor) = printed
      simp only [String.utf8ByteSize_append, first, second, third]
      omega
    simp only [if_pos reads, length_utf8, String.utf8ByteSize_append, line, last]
    omega
  · simp only [if_neg reads, List.length_nil]

theorem length_lines (texts : List Bytes) :
    (texts.flatMap fun text => text ++ [10]).length =
      (texts.map List.length).sum + texts.length := by
  induction texts with
  | nil => rfl
  | cons text texts ih =>
      simp only [List.flatMap_cons, List.length_append, ih, List.map_cons, List.sum_cons,
        List.length_cons, List.length_nil]
      omega

theorem length_recordText {registry : FilterRegistry} {tool handle : String} {sanitized : Bytes}
    {ranges : List ByteRange}
    (digested : registry.verdict tool (classify sanitized) sanitized.length = .digest) :
    (recordText registry.currentRules.sizeFloor tool sanitized (contentDigestHandle sanitized)
      (filterDigest registry tool handle ranges sanitized (classify sanitized))).length =
        recordLength registry tool sanitized := by
  have exact : (filterDigest registry tool handle ranges sanitized (classify sanitized)).cls =
      .exact := by
    simp only [filterDigest, digested]
  have texts : carried sanitized
      (preservedSpans registry.currentVocabulary.labels (classify sanitized)) digestSpanBytes 0 =
      ((preservedSpans registry.currentVocabulary.labels (classify sanitized)).map fun kept =>
        Text.fromUtf8Lossy (Span.slice kept.span sanitized)).take
          (carriedCount (spanLengths registry sanitized) digestSpanBytes digestSpanLimit) :=
    carried_eq_take ..
  have number : (preservedSpans registry.currentVocabulary.labels (classify sanitized)).length =
      (spanLengths registry sanitized).length :=
    (List.length_map ..).symm
  have within : carriedCount (spanLengths registry sanitized) digestSpanBytes digestSpanLimit ≤
      (spanLengths registry sanitized).length :=
    Nat.le_trans (Nat.findGreatest_le _) (Nat.min_le_right ..)
  have listed : ((preservedSpans registry.currentVocabulary.labels (classify sanitized)).map
      fun kept => Text.fromUtf8Lossy (Span.slice kept.span sanitized)).map List.length =
        spanLengths registry sanitized := by
    rw [List.map_map]
    rfl
  simp only [recordText, List.length_append, length_recordHeader exact, length_lines,
    length_elidedLine, length_floorLine, length_reFetchLine, utf8ByteSize_contentDigestHandle]
  simp only [filterDigest, texts, List.map_take, listed, List.length_take, List.length_map, number,
    Nat.min_eq_left within, recordLength]
  omega

/-- The length of what the transcript keeps of a result that does not pass verbatim. -/
def persistedLength (state : ContextState) (tool : String) (result : Bytes) : Nat :=
  let sanitized := sanitizeForDigest result
  if state.filters.verdict tool (classify sanitized) sanitized.length = .digest then
    recordLength state.filters tool sanitized
  else
    stubLength tool sanitized (if state.store.mode.writable then 26 else 24)

end Formulas

section Once

variable {cipher : Cipher} {governor : Governor} {tool : String} {result : Bytes}
  {state : ContextState} {epoch : Nat} {projection : ToolResultProjection}
  {publish : ContextState → Except String Unit × ContextState}

/-- What a projection of a result that does not pass verbatim weighs. -/
theorem length_verdictProjection {handle : String} {ranges : List ByteRange}
    (filtered : state.filters.verdict tool (classify (sanitizeForDigest result))
      (sanitizeForDigest result).length ≠ .passVerbatim)
    (named : handle.utf8ByteSize = if state.store.mode.writable then 26 else 24) :
    (verdictProjection state tool
      ⟨handle, ranges, sanitizeForDigest result, classify (sanitizeForDigest result)⟩
      (contentDigestHandle (sanitizeForDigest result))).1.persisted.length =
        persistedLength state tool result := by
  rw [verdictProjection, persistedLength]
  generalize sanitizeForDigest result = sanitized at filtered ⊢
  simp only
  cases verdict : state.filters.verdict tool (classify sanitized) sanitized.length with
  | passVerbatim => exact absurd verdict filtered
  | dropBulk =>
      rw [if_neg (by decide), ← named]
      exact length_dropStub tool sanitized handle
  | digest =>
      rw [if_pos rfl]
      exact length_recordText verdict

variable [Wire]

/-- Put a call before what a checkpoint makes of the others. -/
def behind (call : RecordedCall) :
    Outcome AdmissionError (List RecordedCall) × ContextState →
      Outcome AdmissionError (List RecordedCall) × ContextState
  | (.ok calls, state) => (.ok (call :: calls), state)
  | (.err error, state) => (.err error, state)
  | (.panic, state) => (.panic, state)

/-- The checkpoint passes over the call: it keeps its result and ingests nothing. -/
def PassedOver (call : RecordedCall) : Prop :=
  ∀ (cipher : Cipher) (governor : Governor) (lease : ContextState → Nat) (state : ContextState)
    (rest : List RecordedCall), digestCalls cipher governor lease state (call :: rest) =
      behind call (digestCalls cipher governor lease state rest)

theorem passedOver_of_lt {call : RecordedCall} (short : call.result.length < bulkResultBytes) :
    PassedOver call := by
  intro cipher governor lease state rest
  rw [digestCalls, if_pos short]
  rcases digestCalls cipher governor lease state rest with ⟨calls | error | _, later⟩ <;> rfl

theorem length_persisted (bulk : bulkResultBytes ≤ result.length)
    (filtered : state.filters.verdict tool (classify (sanitizeForDigest result))
      (sanitizeForDigest result).length ≠ .passVerbatim)
    (done : (compactToolResult cipher governor publish state epoch tool result).1 =
      .ok projection) :
    projection.persisted.length = persistedLength state tool result := by
  rw [compactToolResult, if_neg (Nat.not_lt.mpr bulk)] at done
  by_cases writable : state.store.mode.writable = false
  · rw [if_pos writable] at done
    by_cases free : state.store.mode = .unavailable
    · rw [if_pos free] at done
      rw [← Outcome.ok.inj done, ToolResultProjection.verbatim, memoryDigest_fst]
      apply length_verdictProjection filtered
      rw [utf8ByteSize_contentDigestHandle, writable]
      rfl
    · rw [if_neg free] at done
      cases done
  · rw [if_neg writable] at done
    have normal : state.store.mode.writable = true := by
      simpa using writable
    rcases ingested : projected tool (ingestBulk cipher governor state epoch tool result) with
      ⟨found | error | _, after⟩
    · rw [ingested] at done
      simp only at done
      generalize publish after = outcome at done
      rcases outcome with ⟨_ | _, published⟩
      · cases done
      · cases done
        rw [projected_ingestBulk_eq_ok (congrArg Prod.fst ingested), committedPayload]
        apply length_verdictProjection filtered
        rw [utf8ByteSize_canonicalHandle, normal]
        rfl
    · rw [ingested] at done
      cases done
    · rw [ingested] at done
      cases done

/-- A bulk result is compacted once exactly when the words, the numbers and the carried
spans of its record, or of its stub, stay below the bulk threshold. -/
theorem compacted_once_iff (bulk : bulkResultBytes ≤ result.length)
    (filtered : state.filters.verdict tool (classify (sanitizeForDigest result))
      (sanitizeForDigest result).length ≠ .passVerbatim)
    (done : (compactToolResult cipher governor publish state epoch tool result).1 =
      .ok projection) :
    (projection.persisted.length < bulkResultBytes ∧ PassedOver ⟨tool, projection.persisted⟩) ↔
      persistedLength state tool result < bulkResultBytes := by
  rw [← length_persisted bulk filtered done]
  constructor
  · exact fun once => once.1
  · exact fun short => ⟨short, passedOver_of_lt short⟩

end Once

section Samples

local instance compactionWire : Wire := .emptySession

/-- A session without a store, under the baseline rules. -/
def storeFree : ContextState :=
  { freshState with store := freshState.store.setMode .unavailable }

/-- One line of a thousand and twenty-four bytes that is preserved whole. -/
def longSpan : Bytes :=
  utf8 "exact error span" ++ List.replicate 1008 120

/-- As many bytes of no known shape. -/
def shapeless : Bytes :=
  List.replicate 1024 120

theorem compactToolResult_storeFree {tool : String} {result : Bytes}
    (bulk : bulkResultBytes ≤ result.length) :
    (compactToolResult taggingCipher admittingGovernor (fun state => (.ok (), state)) storeFree 1
      tool result).1 = .ok (.verbatim (memoryDigest storeFree tool result).1) := by
  have free : storeFree.store.mode.writable = false := rfl
  have unavailable : storeFree.store.mode = .unavailable := rfl
  rw [compactToolResult, if_neg (Nat.not_lt.mpr bulk), if_pos free, if_pos unavailable]

/-- The record of the shapeless bytes is short and stays as it is. -/
theorem compacted_once_shapeless :
    let kept := ToolResultProjection.verbatim (memoryDigest storeFree "read_file" shapeless).1
    kept.persisted.length < bulkResultBytes ∧ PassedOver ⟨"read_file", kept.persisted⟩ := by
  have bulk : bulkResultBytes ≤ shapeless.length := by decide +kernel
  have filtered : storeFree.filters.verdict "read_file" (classify (sanitizeForDigest shapeless))
      (sanitizeForDigest shapeless).length ≠ .passVerbatim := by
    decide +kernel
  have short : persistedLength storeFree "read_file" shapeless < bulkResultBytes := by
    decide +kernel
  intro kept
  exact (compacted_once_iff bulk filtered (compactToolResult_storeFree bulk)).mpr short

/-- The record of one long line is bulk again. -/
theorem bulk_again_longSpan :
    ¬∀ (cipher : Cipher) (governor : Governor)
      (publish : ContextState → Except String Unit × ContextState) (state : ContextState)
      (epoch : Nat) (tool : String) (result : Bytes) (projection : ToolResultProjection),
      state.filters.Producible → bulkResultBytes ≤ result.length →
      state.filters.verdict tool (classify (sanitizeForDigest result))
        (sanitizeForDigest result).length ≠ .passVerbatim →
      (compactToolResult cipher governor publish state epoch tool result).1 = .ok projection →
      projection.persisted.length < bulkResultBytes := by
  intro short
  have bulk : bulkResultBytes ≤ longSpan.length := by decide +kernel
  have filtered : storeFree.filters.verdict "read_file" (classify (sanitizeForDigest longSpan))
      (sanitizeForDigest longSpan).length ≠ .passVerbatim := by
    decide +kernel
  have done := @compactToolResult_storeFree "read_file" longSpan bulk
  have below := short _ _ _ _ _ _ _ _ FilterRegistry.producible_new bulk filtered done
  rw [length_persisted bulk filtered done] at below
  have long : ¬ persistedLength storeFree "read_file" longSpan < bulkResultBytes := by
    decide +kernel
  exact long below

end Samples

end Llxprt.Session
