import Llxprt.Ingress.Transaction
import Llxprt.Store.Seals

/-!
# Commits of the ingress

Everything that can refuse a commit is checked before the first append, so a
refused commit leaves the store as it was, and an accepted one places its slots
one behind the other.
-/

namespace Llxprt.Ingress

open Llxprt.Kernel Llxprt.Rust Llxprt.Store

section Coverage

variable {bytes : Bytes}

/-- The cursor of the coverage check, moved over one span. -/
def coverStep (cursor : Option Nat) (span : Span) : Option Nat :=
  match cursor with
  | none => none
  | some cursor =>
      if span.start ≠ cursor ∨ span.stop < span.start then none else some span.stop

theorem coverStep_some {start stop : Nat} (ordered : start ≤ stop) :
    coverStep (some start) ⟨start, stop⟩ = some stop := by
  simp [coverStep, Nat.not_lt_of_le ordered]

/-- The spans of the lines lead from the start of the open line to the end. -/
theorem foldl_segmentFrom {start index : Nat} (ordered : start ≤ index) :
    (segmentFrom start bytes index).foldl coverStep (some start) =
      some (index + bytes.length) := by
  induction bytes generalizing start index with
  | nil =>
      rw [segmentFrom]
      split
      · rw [List.foldl_cons, List.foldl_nil, coverStep_some ordered]
        rfl
      · have closed : start = index := by omega
        rw [List.foldl_nil, closed]
        rfl
  | cons byte bytes ih =>
      have shifted : index + (byte :: bytes).length = index + 1 + bytes.length := by
        rw [List.length_cons]
        omega
      rw [segmentFrom, shifted]
      split
      · rw [List.foldl_cons, coverStep_some (Nat.le_succ_of_le ordered), ih (Nat.le_refl _)]
      · exact ih (Nat.le_succ_of_le ordered)

theorem coverageIsTotal_segment (bytes : Bytes) :
    coverageIsTotal (segment bytes) bytes.length = true := by
  have covered := @foldl_segmentFrom bytes 0 0 (Nat.le_refl 0)
  unfold coverageIsTotal segment
  change (match (segmentFrom 0 bytes 0).foldl coverStep (some 0) with
    | none => false
    | some cursor => decide (cursor = bytes.length)) = true
  rw [covered]
  simp

end Coverage

namespace IngressTxn

/-- Encryption does not fail. -/
def Sealing (cipher : Cipher) : Prop :=
  ∀ key nonce associated message, (cipher.encrypt key nonce associated message).isSome

/-- What one slot leaves behind: its bytes at the end of the spine, the entry of
the index that names them, and the record that says where they are. -/
structure Placed (store : ContextStore) (slot : CaptureSlot) (validated : ValidatedSlot)
    (record : IngressRecord) (later : ContextStore) : Prop where
  source : record.source = slot.source
  sanitized : record.sanitized = validated.appended
  range : record.spine.range =
    ⟨store.spine.len, store.spine.len + validated.appended.length⟩
  spine : later.spine = store.spine.append record.spine.handle validated.appended
  index : later.index = store.index ++ [⟨record.spine.handle, [record.spine.range], []⟩]
  mode : later.mode = store.mode

variable {cipher : Cipher} {txn : IngressTxn} {store : ContextStore} {slot : CaptureSlot}

def segmentsOf : ValidatedSlot → List Span
  | .sanitized _ segments _ => segments
  | .vaulted _ segments _ => segments

/-- The validated slot appends some bytes and carries segments that cover them. -/
structure Admissible (validated : ValidatedSlot) : Prop where
  nonempty : validated.appended ≠ []
  covered : coverageIsTotal (segmentsOf validated) validated.appended.length = true

theorem checkedSegments_cases (bytes : Bytes) :
    checkedSegments bytes = if bytes = [] then .error .emptyPreservedSpine
      else .ok (segment bytes) := by
  unfold checkedSegments
  rw [coverageIsTotal_segment]
  rfl

/-- Validation refuses only bytes that would preserve nothing. -/
theorem validateSlot_cases (raw : Bytes) :
    txn.validateSlot raw = .error .emptyPreservedSpine ∨
      ∃ validated, txn.validateSlot raw = .ok validated ∧ Admissible validated := by
  unfold validateSlot
  split
  · rename_i bytes redactions outcome
    rw [checkedSegments_cases]
    by_cases empty : bytes = []
    · rw [if_pos empty]
      exact .inl rfl
    · rw [if_neg empty]
      exact .inr ⟨_, rfl, empty, coverageIsTotal_segment bytes⟩
  · rename_i reason byteLen outcome
    simp only [checkedSegments_cases]
    by_cases empty : vaultPlaceholder reason byteLen = []
    · rw [if_pos empty]
      exact .inl rfl
    · rw [if_neg empty]
      exact .inr ⟨_, rfl, empty, coverageIsTotal_segment _⟩

theorem storeIsAdmitting_normal (normal : store.mode = .normal) :
    storeIsAdmitting store = .ok () := by
  simp [storeIsAdmitting, normal, StoreMode.name]

theorem normal_of_storeIsAdmitting (admitting : storeIsAdmitting store = .ok ()) :
    store.mode = .normal := by
  unfold storeIsAdmitting at admitting
  cases mode : store.mode with
  | normal => rfl
  | readOnly => simp [mode, StoreMode.name] at admitting
  | unavailable => simp [mode, StoreMode.name] at admitting

/-- What was validated is placed at the end of the spine. -/
theorem placeOnSpine_eq_ok {bytes : Bytes} {segments : List Span} (normal : store.mode = .normal)
    (nonempty : bytes ≠ []) (covered : coverageIsTotal segments bytes.length = true) :
    placeOnSpine store bytes segments =
      (.ok ⟨canonicalHandle store.spine.len bytes,
          ⟨store.spine.len, store.spine.len + bytes.length⟩⟩,
        (store.sanitizedAppend bytes).2) := by
  have writable : store.mode.writable = true := by
    rw [normal]
    rfl
  have long : ¬store.spine.len + bytes.length ≤ store.spine.len := by
    have := List.length_pos_iff.mpr nonempty
    omega
  unfold placeOnSpine ContextStore.sanitizedAppend
  rw [if_pos writable]
  simp only
  rw [storeIsAdmitting_normal (by exact normal)]
  simp only [long, if_false, covered, if_true]

theorem sanitizedAppend_normal {bytes : Bytes} (normal : store.mode = .normal) :
    (store.sanitizedAppend bytes).2 =
      { store with
        spine := store.spine.append (canonicalHandle store.spine.len bytes) bytes
        index := store.index ++ [⟨canonicalHandle store.spine.len bytes,
          [⟨store.spine.len, store.spine.len + bytes.length⟩], []⟩] } := by
  unfold ContextStore.sanitizedAppend
  rw [normal]
  rfl

/-- A vault that seals without failure accepts every payload. -/
theorem vaultPut_eq_ok_of_sealing {raw : Bytes} {reason : String} (sealing : Sealing cipher)
    (normal : store.mode = .normal) : ∃ handle vault,
    store.vaultPut cipher raw reason = (.ok handle, { store with vault := vault }) := by
  unfold ContextStore.vaultPut
  rw [normal]
  rcases Vault.put_cases cipher store.vault raw reason with failed | ⟨ciphertext, _, added⟩
  · have encrypted := sealing store.vault.key store.vault.nextNonce
      (utf8 (mintedHandle reason store.vault.next)) raw
    unfold Vault.put at failed
    split at failed
    · rename_i none
      rw [none] at encrypted
      cases encrypted
    · cases (Prod.mk.inj failed).1
  · rw [added]
    exact ⟨_, _, rfl⟩

theorem transactOne_eq_ok {validated : ValidatedSlot} (sealing : Sealing cipher)
    (normal : store.mode = .normal) (admissible : Admissible validated) :
    ∃ record later, transactOne cipher store slot validated = (.ok record, later) ∧
      Placed store slot validated record later := by
  cases validated with
  | sanitized bytes segments redactions =>
      have placed := placeOnSpine_eq_ok normal admissible.nonempty admissible.covered
      change placeOnSpine store bytes segments = _ at placed
      rw [sanitizedAppend_normal normal] at placed
      simp only [transactOne, placed]
      exact ⟨_, _, rfl, rfl, rfl, rfl, rfl, rfl, rfl⟩
  | vaulted placeholder segments reason =>
      have nonempty : placeholder ≠ [] := admissible.nonempty
      have placed := placeOnSpine_eq_ok normal nonempty admissible.covered
      change placeOnSpine store placeholder segments = _ at placed
      have grown := @sanitizedAppend_normal store placeholder normal
      have admitting : (store.sanitizedAppend placeholder).2.mode = .normal := by
        rw [grown]
        exact normal
      rcases @vaultPut_eq_ok_of_sealing cipher _ slot.bytes reason.name sealing admitting with
        ⟨handle, vault, put⟩
      simp only [transactOne, placed, put]
      refine ⟨_, _, rfl, rfl, rfl, rfl, ?_, ?_, ?_⟩
      · simp only [grown]
        rfl
      · simp only [grown]
      · simp only [grown]

/-- The ranges follow each other from `start` to `stop`, and none is empty. -/
def Consecutive : Nat → List ByteRange → Nat → Prop
  | start, [], stop => start = stop
  | start, range :: ranges, stop =>
      range.start = start ∧ start < range.stop ∧ Consecutive range.stop ranges stop

theorem Consecutive.le {ranges : List ByteRange} {start stop : Nat}
    (consecutive : Consecutive start ranges stop) : start ≤ stop ∧
      ∀ range ∈ ranges, start ≤ range.start := by
  induction ranges generalizing start with
  | nil =>
      cases consecutive
      exact ⟨Nat.le_refl _, fun range member => nomatch member⟩
  | cons range ranges ih =>
      rcases consecutive with ⟨first, long, later⟩
      rcases ih later with ⟨bound, behind⟩
      constructor
      · omega
      · intro other member
        rcases List.mem_cons.mp member with rfl | member
        · exact Nat.le_of_eq first.symm
        · have := behind other member
          omega

/-- Ranges that follow each other are disjoint. -/
theorem Consecutive.disjoint {ranges : List ByteRange} {start stop : Nat}
    (consecutive : Consecutive start ranges stop) :
    ranges.Pairwise fun left right => left.stop ≤ right.start := by
  induction ranges generalizing start with
  | nil => exact .nil
  | cons range ranges ih =>
      rcases consecutive with ⟨_, _, later⟩
      exact .cons later.le.2 (ih later)

/-- The record of the spine for an ingress record. -/
def spineRecord (record : IngressRecord) : SpineRecord :=
  ⟨record.spine.handle, record.spine.range, digest record.sanitized⟩

/-- The entry of the index for an ingress record. -/
def indexed (record : IngressRecord) : IndexEntry :=
  ⟨record.spine.handle, [record.spine.range], []⟩

/-- What an accepted commit leaves behind: one record a slot, in order, on ranges
that follow each other and read back what was sanitized. -/
structure Committed (txn : IngressTxn) (captured : List CaptureSlot) (store : ContextStore)
    (admitted : List IngressRecord) (later : ContextStore) : Prop where
  slots : List.Forall₂ (fun slot record => record.source = slot.source ∧
    ∃ validated, txn.validateSlot slot.bytes = .ok validated ∧
      record.sanitized = validated.appended) captured admitted
  records : later.spine.records = store.spine.records ++ admitted.map spineRecord
  index : later.index = store.index ++ admitted.map indexed
  consecutive : Consecutive store.spine.len (admitted.map fun record => record.spine.range)
    later.spine.len
  bytes : later.spine.bytes = store.spine.bytes ++ admitted.flatMap IngressRecord.sanitized
  lengths : ∀ record ∈ admitted,
    record.spine.range.stop = record.spine.range.start + record.sanitized.length

theorem len_append (spine : Spine) (handle : String) (bytes : Bytes) :
    (spine.append handle bytes).len = spine.len + bytes.length := by
  simp [Spine.append, Spine.len]

theorem committed_nil : Committed txn [] store [] store :=
  ⟨.nil, (List.append_nil _).symm, (List.append_nil _).symm, rfl, (List.append_nil _).symm,
    fun _ member => nomatch member⟩

/-- A placed slot in front of committed ones. -/
theorem Placed.committed {validated : ValidatedSlot} {record : IngressRecord}
    {records : List IngressRecord} {slots : List CaptureSlot} {middle later : ContextStore}
    (placed : Placed store slot validated record middle)
    (valid : txn.validateSlot slot.bytes = .ok validated) (nonempty : validated.appended ≠ [])
    (committed : Committed txn slots middle records later) :
    Committed txn (slot :: slots) store (record :: records) later where
  slots := .cons ⟨placed.source, validated, valid, placed.sanitized⟩ committed.slots
  records := by
    have first : middle.spine.records = store.spine.records ++ [spineRecord record] := by
      rw [placed.spine, spineRecord, placed.range, placed.sanitized]
      rfl
    rw [committed.records, first, List.append_assoc]
    rfl
  index := by
    rw [committed.index, placed.index, List.append_assoc]
    rfl
  consecutive := by
    have long := List.length_pos_iff.mpr nonempty
    have rest := committed.consecutive
    rw [placed.spine, len_append] at rest
    rw [List.map_cons]
    refine ⟨?_, ?_, ?_⟩
    · rw [placed.range]
    · rw [placed.range]
      exact Nat.lt_add_of_pos_right long
    · rw [placed.range]
      exact rest
  bytes := by
    have first : middle.spine.bytes = store.spine.bytes ++ record.sanitized := by
      rw [placed.spine, placed.sanitized]
      rfl
    rw [committed.bytes, first, List.append_assoc, List.flatMap_cons]
  lengths := by
    intro other member
    rcases List.mem_cons.mp member with rfl | member
    · rw [placed.range, placed.sanitized]
    · exact committed.lengths other member

/-- The slots are validated one by one. -/
def Validated (txn : IngressTxn) (slots : List CaptureSlot) (validated : List ValidatedSlot) :
    Prop :=
  List.Forall₂ (fun slot outcome => txn.validateSlot slot.bytes = .ok outcome ∧
    Admissible outcome) slots validated

theorem validateSlots_cases (slots : List CaptureSlot) :
    txn.validateSlots slots = .error .emptyPreservedSpine ∨
      ∃ validated, txn.validateSlots slots = .ok validated ∧ Validated txn slots validated := by
  induction slots with
  | nil => exact .inr ⟨[], rfl, .nil⟩
  | cons slot slots ih =>
      rw [validateSlots]
      rcases @validateSlot_cases txn slot.bytes with refused | ⟨outcome, valid, admissible⟩
      · rw [refused]
        exact .inl rfl
      · rw [valid]
        rcases ih with refused | ⟨validated, valids, each⟩
        · rw [refused]
          exact .inl rfl
        · rw [valids]
          exact .inr ⟨outcome :: validated, rfl, .cons ⟨valid, admissible⟩ each⟩

/-- Validated slots are placed one behind the other. -/
theorem transactAll_eq_ok {slots : List CaptureSlot} {validated : List ValidatedSlot}
    (sealing : Sealing cipher) (normal : store.mode = .normal)
    (valid : Validated txn slots validated) :
    ∃ records later, transactAll cipher store (slots.zip validated) = (.ok records, later) ∧
      later.mode = .normal ∧ Committed txn slots store records later := by
  induction valid generalizing store with
  | nil => exact ⟨[], store, rfl, normal, committed_nil⟩
  | @cons slot outcome slots validated first rest ih =>
      rcases @transactOne_eq_ok cipher store slot outcome sealing normal first.2 with
        ⟨record, middle, placed, place⟩
      rcases ih (place.mode.trans normal) with ⟨records, later, all, admitting, committed⟩
      refine ⟨record :: records, later, ?_, admitting,
        place.committed first.1 first.2.nonempty committed⟩
      rw [List.zip_cons_cons, transactAll, placed]
      simp only [all]

/-- Consecutive ranges cut the bytes behind them into what was sanitized. -/
theorem take_drop_sanitized {records : List IngressRecord} {before : Bytes} {stop : Nat}
    (consecutive : Consecutive before.length (records.map fun record => record.spine.range) stop)
    (lengths : ∀ record ∈ records,
      record.spine.range.stop = record.spine.range.start + record.sanitized.length) :
    ∀ record ∈ records, record.spine.range.stop ≤ stop ∧
      ((before ++ records.flatMap IngressRecord.sanitized).drop record.spine.range.start).take
        record.sanitized.length = record.sanitized := by
  induction records generalizing before with
  | nil =>
      intro record member
      cases member
  | cons first records ih =>
      rw [List.map_cons] at consecutive
      rcases consecutive with ⟨start, _, later⟩
      rcases List.forall_mem_cons.mp lengths with ⟨length, rest⟩
      have behind : (before ++ first.sanitized).length = first.spine.range.stop := by
        rw [List.length_append, length, start]
      intro record member
      rcases List.mem_cons.mp member with rfl | member
      · refine ⟨later.le.1, ?_⟩
        rw [start, List.drop_left, List.flatMap_cons, List.take_left]
      · rw [← behind] at later
        rw [List.flatMap_cons, ← List.append_assoc]
        exact ih later rest record member

/-- Every range reads back what its slot was sanitized to. -/
theorem Committed.read {slots : List CaptureSlot} {records : List IngressRecord}
    {later : ContextStore} (committed : Committed txn slots store records later)
    {record : IngressRecord} (member : record ∈ records) {most : Nat}
    (enough : record.sanitized.length ≤ most) :
    later.spine.read record.spine.range most = .ok record.sanitized := by
  rcases take_drop_sanitized committed.consecutive committed.lengths record member with
    ⟨inside, cut⟩
  have length := committed.lengths record member
  have wanted : record.spine.range.stop - record.spine.range.start = record.sanitized.length := by
    omega
  have ordered : ¬(record.spine.range.stop < record.spine.range.start ∨
      later.spine.len < record.spine.range.stop) := by
    omega
  have page : later.spine.readPage record.spine.range most = .ok ⟨record.sanitized, none⟩ := by
    unfold Spine.readPage
    rw [if_neg ordered]
    simp only [wanted, Nat.min_eq_left enough, Nat.lt_irrefl, if_false, committed.bytes, cut]
  rw [Spine.read, page]
  rfl

/-- A commit over any store and any capture: refused, it changes nothing, and
never for want of coverage; accepted, it places every slot once and in order. -/
theorem commit_all_or_nothing (sealing : Sealing cipher) (txn : IngressTxn)
    (store : ContextStore) :
    (∀ bytes, coverageIsTotal (segment bytes) bytes.length = true) ∧
    (∀ error later, txn.commit cipher store = (.error error, later) →
      later.spine = store.spine ∧ later.index = store.index ∧ later.vault = store.vault ∧
        ∀ length, error ≠ .coverage length) ∧
    (∀ records later, txn.commit cipher store = (.ok records, later) →
      Committed txn txn.slots store records later ∧
      (records.Pairwise fun left right => left.spine.range.stop ≤ right.spine.range.start) ∧
      ∀ record ∈ records, ∀ most, record.sanitized.length ≤ most →
        later.spine.read record.spine.range most = .ok record.sanitized) := by
  refine ⟨coverageIsTotal_segment, ?_, ?_⟩
  · intro error later refused
    unfold commit at refused
    split at refused
    · rename_i blocked admitting
      cases refused
      refine ⟨rfl, rfl, rfl, ?_⟩
      rintro length rfl
      unfold storeIsAdmitting at admitting
      split at admitting <;> cases admitting
    · rename_i admitting
      have normal := normal_of_storeIsAdmitting admitting
      rcases @validateSlots_cases txn txn.slots with empty | ⟨validated, valid, each⟩
      · rw [empty] at refused
        cases refused
        exact ⟨rfl, rfl, rfl, fun _ => nofun⟩
      · rcases @transactAll_eq_ok cipher txn store _ _ sealing normal each with
          ⟨records, done, all, stillNormal, _⟩
        simp only [valid, all, storeIsAdmitting_normal stillNormal] at refused
        cases (Prod.mk.inj refused).1
  · intro records later accepted
    unfold commit at accepted
    split at accepted
    · cases (Prod.mk.inj accepted).1
    · rename_i admitting
      have normal := normal_of_storeIsAdmitting admitting
      rcases @validateSlots_cases txn txn.slots with empty | ⟨validated, valid, each⟩
      · rw [empty] at accepted
        cases (Prod.mk.inj accepted).1
      · rcases @transactAll_eq_ok cipher txn store _ _ sealing normal each with
          ⟨placed, done, all, stillNormal, committed⟩
        simp only [valid, all, storeIsAdmitting_normal stillNormal] at accepted
        cases accepted
        refine ⟨committed, ?_, ?_⟩
        · exact List.pairwise_map.mp committed.consecutive.disjoint
        · intro record member most enough
          exact committed.read member enough

theorem sealing_labellingCipher : Sealing VaultRun.labellingCipher :=
  fun _ _ _ _ => rfl

/-- Two captured lines. -/
def sampleCapture : IngressTxn :=
  ⟨64, [⟨.userPrompt, [104, 105, 10]⟩, ⟨.toolResult, [111, 107]⟩], 5, 1024⟩

theorem commit_sample :
    ∃ records later, sampleCapture.commit VaultRun.labellingCipher (.openWith [] 7) =
      (.ok records, later) ∧ records.length = 2 ∧
      ∀ record ∈ records, later.spine.read record.spine.range record.sanitized.length =
        .ok record.sanitized := by
  have accepted : ((sampleCapture.commit VaultRun.labellingCipher (.openWith [] 7)).1.toOption.map
      List.length) = some 2 := by
    decide +kernel
  generalize committed : sampleCapture.commit VaultRun.labellingCipher (.openWith [] 7) = result
    at accepted
  rcases result with ⟨error | records, later⟩
  · cases accepted
  · have exact := (commit_all_or_nothing sealing_labellingCipher sampleCapture
      (.openWith [] 7)).2.2 records later committed
    exact ⟨records, later, rfl, Option.some.inj accepted,
      fun record member => exact.2.2 record member _ (Nat.le_refl _)⟩

end IngressTxn
end Llxprt.Ingress
