import Llxprt.Kernel.Weights
import Llxprt.Log.Fencing
import Llxprt.Log.Segments
import Llxprt.Rust.Failures

/-!
# Torn and foreign tails

Behind the last whole frame of a segment replay finds nothing, the beginning of
a frame that a crash has cut short, another frame, or bytes that are none of
these.  The beginning of a frame is cut off, foreign bytes are reported and left
alone, and the mode that only reads decides alike without touching the file.
-/

namespace Llxprt.Log

open Llxprt.Kernel Llxprt.Kernel.Recorded Llxprt.Rust Llxprt.Rust.Files

section Refusals

def StoreError.IsCorrupt (error : StoreError) : Prop :=
  ∃ text, error = .corrupt text

variable {τ κ : Type} {checks : Checks τ κ} {state : SessionState τ κ} {branch : BranchRecord τ κ}

theorem corrupt_reject {refused : Prop} [Decidable refused] {text : String} :
    FailsWith StoreError.IsCorrupt (reject refused (.corrupt text)) :=
  failsWith_reject ⟨text, rfl⟩

theorem corrupt_okOr {α : Type} {value : Option α} {text : String} :
    FailsWith StoreError.IsCorrupt (okOr value (.corrupt text)) :=
  failsWith_okOr ⟨text, rfl⟩

/-- A guard in front of a computation. -/
theorem corrupt_guard {α : Type} {refused : Prop} [Decidable refused] {text : String}
    {next : Unit → Except StoreError α} (late : FailsWith StoreError.IsCorrupt (next ())) :
    FailsWith StoreError.IsCorrupt (reject refused (.corrupt text) >>= next) :=
  failsWith_bind corrupt_reject fun _ => late

theorem corrupt_mapped {ε α : Type} {text : ε → String} {computation : Except ε α} :
    FailsWith StoreError.IsCorrupt (computation.mapError fun error => .corrupt (text error)) :=
  failsWith_mapError fun error => ⟨text error, rfl⟩

theorem corrupt_checkedTotal {total amount : Nat} :
    FailsWith StoreError.IsCorrupt (checkedTotal branch total amount) :=
  corrupt_okOr

theorem corrupt_validateBranchShape :
    FailsWith StoreError.IsCorrupt (validateBranchShape state branch) := by
  unfold validateBranchShape
  repeat apply corrupt_guard
  split
  · repeat apply corrupt_guard
    exact corrupt_reject
  · repeat apply corrupt_guard
    exact corrupt_reject

theorem corrupt_validateParentRelation :
    FailsWith StoreError.IsCorrupt (validateParentRelation state branch) := by
  unfold validateParentRelation
  split
  · exact failsWith_pure
  · repeat apply corrupt_guard
    exact corrupt_reject

theorem corrupt_validateBranchLifecycle :
    FailsWith StoreError.IsCorrupt (validateBranchLifecycle branch) := by
  unfold validateBranchLifecycle
  repeat apply corrupt_guard
  split
  · repeat apply corrupt_guard
    exact corrupt_reject
  · repeat apply corrupt_guard
    apply failsWith_bind corrupt_okOr
    intro _
    repeat apply corrupt_guard
    exact corrupt_reject
  · repeat apply corrupt_guard
    exact corrupt_reject

theorem corrupt_validatePersistedCall {call : ToolCallRecord} {ids : BTreeSet String} :
    FailsWith StoreError.IsCorrupt (validatePersistedCall checks branch call ids) := by
  unfold validatePersistedCall
  repeat apply corrupt_guard
  exact failsWith_pure

theorem corrupt_validateCall {progress : Totals × Nat} {call : ToolCallRecord} :
    FailsWith StoreError.IsCorrupt (validateCall checks branch progress call) := by
  unfold validateCall
  apply failsWith_bind corrupt_validatePersistedCall
  intro ids
  extract_lets rest
  have later : ∀ calls, FailsWith StoreError.IsCorrupt (rest calls) := by
    intro calls
    apply failsWith_bind corrupt_checkedTotal
    intro _
    apply failsWith_bind corrupt_checkedTotal
    intro _
    apply failsWith_bind corrupt_okOr
    intro _
    apply corrupt_guard
    exact failsWith_pure
  split
  · exact failsWith_bind failsWith_pure later
  · exact failsWith_bind corrupt_checkedTotal later

theorem corrupt_validateRound {totals : Totals} {positioned : RoundRecord κ × Nat} :
    FailsWith StoreError.IsCorrupt (validateRound checks branch totals positioned) := by
  unfold validateRound
  apply corrupt_guard
  extract_lets mappedBytes rest
  have later : ∀ found, FailsWith StoreError.IsCorrupt (rest found) := by
    intro _
    apply failsWith_bind corrupt_checkedTotal
    intro _
    apply failsWith_bind corrupt_checkedTotal
    intro _
    apply failsWith_bind corrupt_checkedTotal
    intro _
    apply corrupt_guard
    apply failsWith_bind (failsWith_foldlM fun _ _ => corrupt_validateCall)
    intro _
    exact failsWith_pure
  split
  · exact failsWith_bind (failsWith_mapError fun _ => ⟨_, rfl⟩) later
  · exact later ()

theorem corrupt_validateToolCalls :
    FailsWith StoreError.IsCorrupt (validateToolCalls checks branch) := by
  unfold validateToolCalls
  apply failsWith_bind (failsWith_foldlM fun _ _ => corrupt_validateRound)
  intro _
  repeat apply corrupt_guard
  exact corrupt_reject

theorem corrupt_validateBranch :
    FailsWith StoreError.IsCorrupt (validateBranch checks state branch) := by
  unfold validateBranch
  apply corrupt_guard
  apply failsWith_bind (failsWith_forM fun _ => corrupt_reject)
  intro _
  apply failsWith_bind corrupt_validateBranchShape
  intro _
  apply failsWith_bind corrupt_validateParentRelation
  intro _
  apply failsWith_bind corrupt_validateBranchLifecycle
  intro _
  apply failsWith_bind corrupt_reject
  intro _
  exact corrupt_validateToolCalls

theorem corrupt_walk {branches : List (BranchRecord τ κ)}
    {parents : List (Option Nat)} {fuel current : Nat} {color : List Color} {path : List Nat} :
    FailsWith StoreError.IsCorrupt (walk branches parents fuel color path current) := by
  induction fuel generalizing color path current with
  | zero => exact failsWith_pure
  | succ fuel ih =>
      unfold walk
      split
      · split
        · exact failsWith_error ⟨_, rfl⟩
        · exact failsWith_pure
      · split
        · exact ih
        · exact failsWith_pure
      · exact failsWith_pure
      · exact failsWith_pure

theorem corrupt_validateLineages : FailsWith StoreError.IsCorrupt (validateLineages state) := by
  unfold validateLineages
  refine failsWith_bind (failsWith_foldlM fun color start => ?_) fun _ => failsWith_pure
  unfold validateLineage
  split
  · exact failsWith_pure
  · apply failsWith_bind corrupt_walk
    intro _
    apply failsWith_bind
    · apply failsWith_reject
      split <;> exact ⟨_, rfl⟩
    · intro _
      exact failsWith_pure

theorem corrupt_branchIndex {seen : BTreeSet String} {branches : List (BranchRecord τ κ)} :
    FailsWith StoreError.IsCorrupt (SessionState.branchIndex seen branches) := by
  induction branches generalizing seen with
  | nil => exact failsWith_pure
  | cons branch rest ih =>
      unfold SessionState.branchIndex
      apply corrupt_guard
      exact ih

theorem corrupt_validateToolEntryCap :
    FailsWith StoreError.IsCorrupt state.validateToolEntryCap := by
  unfold SessionState.validateToolEntryCap
  refine failsWith_bind (failsWith_foldlM fun _ _ => ?_) fun _ => failsWith_pure
  apply corrupt_guard
  exact failsWith_pure

theorem corrupt_validateHeader : FailsWith StoreError.IsCorrupt state.validateHeader := by
  unfold SessionState.validateHeader
  apply corrupt_guard
  apply corrupt_guard
  apply corrupt_guard
  exact corrupt_validateToolEntryCap

theorem corrupt_validate : FailsWith StoreError.IsCorrupt (state.validate checks) := by
  unfold SessionState.validate
  apply failsWith_bind corrupt_validateHeader
  intro _
  apply failsWith_bind corrupt_mapped
  intro _
  apply corrupt_guard
  apply failsWith_bind (failsWith_forM fun _ => corrupt_mapped)
  intro _
  apply failsWith_bind corrupt_branchIndex
  intro _
  apply failsWith_bind (failsWith_forM fun _ => corrupt_validateBranch)
  intro _
  apply failsWith_bind corrupt_validateLineages
  intro _
  unfold SessionState.validateCwd
  split
  · apply corrupt_guard
    exact corrupt_reject
  · exact corrupt_reject

theorem corrupt_pending {branchId owner : String} :
    FailsWith StoreError.IsCorrupt (state.pending branchId owner) := by
  unfold SessionState.pending
  apply failsWith_bind corrupt_okOr
  intro _
  apply corrupt_guard
  exact failsWith_pure

theorem corrupt_pinCwd {cwd : Option String} {cwdDev cwdIno : UInt64} :
    FailsWith StoreError.IsCorrupt (pinCwd state cwd cwdDev cwdIno) := by
  unfold pinCwd
  split
  · exact corrupt_guard failsWith_pure
  · exact corrupt_guard failsWith_pure
  · exact failsWith_error ⟨_, rfl⟩

theorem corrupt_onPending {branchId owner : String} {change : BranchRecord τ κ →
      Except StoreError (BranchRecord τ κ)}
    (changes : ∀ branch, FailsWith StoreError.IsCorrupt (change branch)) :
    FailsWith StoreError.IsCorrupt (state.onPending branchId owner change) := by
  unfold SessionState.onPending
  apply failsWith_bind corrupt_pending
  intro branch
  exact failsWith_bind (changes branch) fun _ => failsWith_pure

/-- Every refusal of an event reports corruption. -/
theorem corrupt_applyEvent {event : Event τ κ} :
    FailsWith StoreError.IsCorrupt (applyEvent checks state event) := by
  cases event with
  | provider branchId owner command =>
      apply failsWith_bind corrupt_pending
      intro _
      apply failsWith_bind
      · cases command <;> exact corrupt_reject
      intro _
      exact failsWith_bind (failsWith_mapError fun _ => ⟨_, rfl⟩) fun _ => failsWith_pure
  | renderContract branchId owner publication =>
      exact failsWith_bind corrupt_pending fun _ => failsWith_pure
  | telemetry branchId owner telemetry =>
      apply failsWith_bind corrupt_okOr
      intro _
      apply corrupt_guard
      exact failsWith_pure
  | branchReserved cwd cwdDev cwdIno branch nextBranchSeq =>
      apply corrupt_guard
      apply failsWith_bind corrupt_okOr
      intro _
      apply corrupt_guard
      apply failsWith_bind corrupt_pinCwd
      intro _
      exact failsWith_bind corrupt_okOr fun _ => failsWith_pure
  | branchReclaimed branchId prompt owner reservedAt leaseExpiry =>
      apply failsWith_bind corrupt_okOr
      intro _
      apply failsWith_bind corrupt_okOr
      intro _
      apply corrupt_guard
      exact failsWith_pure
  | streamRetry branchId owner record =>
      exact corrupt_onPending fun _ => failsWith_bind corrupt_reject fun _ => failsWith_pure
  | leaseRenewed branchId owner leaseExpiry =>
      exact corrupt_onPending fun _ => corrupt_guard failsWith_pure
  | checkpoint branchId owner rounds leaseExpiry =>
      exact corrupt_onPending fun _ => corrupt_guard failsWith_pure
  | branchCompleted branchId owner rounds summary =>
      exact corrupt_onPending fun _ => failsWith_pure
  | branchFailed branchId owner rounds error =>
      exact corrupt_onPending fun _ => failsWith_pure

theorem corrupt_applyBatch {batch : EventBatch τ κ} :
    FailsWith StoreError.IsCorrupt (applyBatch checks state batch) := by
  unfold applyBatch
  split
  · apply failsWith_bind corrupt_applyEvent
    intro _
    exact failsWith_bind corrupt_validate fun _ => failsWith_pure
  · exact failsWith_error ⟨_, rfl⟩

end Refusals

section Programs

variable {τ κ : Type} [Recorded τ] [Recorded κ] {checks : Checks τ κ}
  {decode : Bytes → Option (EventBatch τ κ)}
  {state later : SessionState τ κ} {cursor next : ReplayCursor}
  {disk : Disk} {file : Nat} {seen bytes : Bytes} {crash : Disk → Prop}

theorem readReplayBytes_goes (contents : disk.contents file = seen ++ bytes)
    (placed : cursor.offset = seen.length) (bounded : bytes.length ≤ maxReplayBytes)
    (recoverable : crash disk) :
    Goes crash (readReplayBytes file cursor).run disk (.ok bytes) disk := by
  have length : (disk.contents file).length = seen.length + bytes.length := by
    rw [contents, List.length_append]
  refine Goes.andThen (Goes.ask rfl (fun _ => recoverable) recoverable) ?_
  have longEnough : reject ((disk.contents file).length < cursor.offset)
      (StoreError.corrupt "session segment shrank") = .ok () := by
    rw [reject_eq_ok, length, placed]
    omega
  have shortEnough : reject (maxReplayBytes < (disk.contents file).length - cursor.offset)
      (StoreError.corrupt "active session segment exceeds replay bound") = .ok () := by
    rw [reject_eq_ok, length, placed]
    omega
  refine Goes.andThen (Goes.liftOk longEnough recoverable) ?_
  refine Goes.andThen (Goes.liftOk shortEnough recoverable) ?_
  apply Goes.ask _ (fun _ => recoverable) recoverable
  change (Except.ok _, disk) = _
  rw [contents, placed, List.length_append, List.drop_left' rfl, Nat.add_sub_cancel_left,
    List.take_length]

theorem only_readReplayBytes : Only Op.still (readReplayBytes file cursor) := by
  refine only_andThen (only_ask rfl) fun _ => ?_
  refine only_andThen only_lift fun _ => ?_
  exact only_andThen only_lift fun _ => only_ask rfl

/-- Replay behind bytes that were read. -/
theorem replayReadMode_run {permit writable : Bool}
    (reads : (readReplayBytes file cursor).run.run disk = (.ok bytes, disk)) :
    (replayReadMode checks decode file state cursor permit writable).run.run disk =
      match scan checks decode (bytes.length + 1) bytes cursor state with
      | .error error => (.error error, disk)
      | .ok (later, next, torn) =>
          (do
            let repaired ← settleTail torn file next.offset permit writable
            lift (later.validate checks)
            pure (later, next, repaired) : Action StoreError _).run.run disk := by
  unfold replayReadMode
  rw [run_andThen, reads]
  simp only
  rw [run_andThen, run_lift]
  cases scan checks decode (bytes.length + 1) bytes cursor state <;> rfl

/-- A whole segment. -/
theorem replayReadMode_whole {writable permit : Bool}
    (reads : (readReplayBytes file cursor).run.run disk = (.ok bytes, disk))
    (scanned : scan checks decode (bytes.length + 1) bytes cursor state = .ok (later, next, false))
    (valid : later.validate checks = .ok ()) :
    (replayReadMode checks decode file state cursor permit writable).run.run disk =
      (.ok (later, next, false), disk) := by
  rw [replayReadMode_run reads, scanned]
  simp only [settleTail, if_true, valid]
  rfl

/-- An incomplete frame is cut off. -/
theorem replayReadMode_torn (reads : (readReplayBytes file cursor).run.run disk = (.ok bytes, disk))
    (scanned : scan checks decode (bytes.length + 1) bytes cursor state = .ok (later, next, true))
    (valid : later.validate checks = .ok ()) :
    (replayReadMode checks decode file state cursor true true).run.run disk =
      (.ok (later, next, true), disk.store file (resize (disk.contents file) next.offset)) := by
  rw [replayReadMode_run reads, scanned]
  simp only [settleTail, repairTail, valid]
  rfl

/-- The mode that only reads decides as the mode that repairs, and changes nothing. -/
theorem replayReadMode_readOnly (permit : Bool) :
    let repairing := (replayReadMode checks decode file state cursor permit true).run.run disk
    let reading := (replayReadMode checks decode file state cursor permit false).run.run disk
    reading.2 = disk ∧
      reading.1.map (fun found => (found.1, found.2.1)) =
        repairing.1.map (fun found => (found.1, found.2.1)) := by
  intro repairing reading
  have kept := @Prog.Only.leaves _ disk _ (@only_readReplayBytes cursor file)
  rcases reads : (readReplayBytes file cursor).run.run disk with ⟨error | bytes, same⟩
  · have unchanged : same = disk := by rw [← kept, reads]
    rw [unchanged] at reads
    have stops : ∀ writable,
        (replayReadMode checks decode file state cursor permit writable).run.run disk =
          (.error error, disk) := by
      intro writable
      unfold replayReadMode
      rw [run_andThen, reads]
    constructor
    · rw [show reading = _ from stops false]
    · rw [show reading = _ from stops false, show repairing = _ from stops true]
  · have unchanged : same = disk := by rw [← kept, reads]
    rw [unchanged] at reads
    have outcomes := fun writable =>
      @replayReadMode_run _ _ _ _ checks decode state cursor disk file bytes permit writable reads
    rw [show reading = _ from outcomes false, show repairing = _ from outcomes true]
    rcases scan checks decode (bytes.length + 1) bytes cursor state with error | ⟨later, next, torn⟩
    · exact ⟨rfl, rfl⟩
    · cases torn <;> cases permit <;> cases valid : later.validate checks <;>
        simp only [settleTail, repairTail, valid] <;> exact ⟨rfl, rfl⟩

end Programs

section Headers

/-- A list is the slices between places. -/
theorem eq_slices (header : Bytes) :
    header = header.take 8 ++ (header.drop 8).take 4 ++ (header.drop 12).take 4 ++
      (header.drop 16).take 8 ++ (header.drop 24).take 16 ++ header.drop 40 := by
  have slice : ∀ start count stop, start + count = stop →
      (header.drop start).take count ++ header.drop stop = header.drop start := by
    rintro start count _ rfl
    rw [← List.drop_drop, List.take_append_drop]
  simp only [List.append_assoc]
  rw [slice 24 16 40 rfl, slice 16 8 24 rfl, slice 12 4 16 rfl, slice 8 4 12 rfl,
    List.take_append_drop]

/-- An accepted header continues the chain. -/
theorem eq_rawHeader {header : Bytes} {cursor : ReplayCursor} {payloadLen : Nat}
    (whole : header.length = headerLen) (valid : validateHeader header cursor = .ok payloadLen) :
    ∃ seq identifier, checkedIncrement cursor.seq = some seq ∧ identifier.length = digestLen ∧
      payloadLen ≤ maxFramePayload ∧ u64At header 16 = seq.toNat ∧
      identifier = (header.drop 24).take 16 ∧
      header = rawHeader payloadLen seq identifier cursor.digest := by
  simp only [validateHeader, bind_eq_ok, reject_eq_ok, okOr_eq_ok, pure_eq_ok, exists_const,
    Decidable.not_not, Nat.not_lt] at valid
  rcases valid with ⟨magicFirst, version, fits, seq, next, number, chain, length⟩
  rw [length] at fits
  have slice : ∀ start count, start + count ≤ headerLen →
      ((header.drop start).take count).length = count := by
    intro start count inside
    rw [List.length_take, List.length_drop, whole]
    omega
  have versionBytes := eq_leBytes32 (slice 8 4 (by decide)) version
  have lengthBytes : (header.drop 12).take 4 = leBytes32 (UInt32.ofNat payloadLen) := by
    apply eq_leBytes32 (slice 12 4 (by decide))
    rw [UInt32.toNat_ofNat', Nat.mod_eq_of_lt (Nat.lt_of_le_of_lt fits maxFramePayload_lt)]
    exact length
  have seqBytes := eq_leBytes (slice 16 8 (by decide)) number
  refine ⟨seq, (header.drop 24).take 16, next, slice 24 16 (by decide), fits, number, rfl, ?_⟩
  rw [rawHeader, ← magicFirst, ← versionBytes, ← lengthBytes, ← seqBytes, ← chain]
  exact eq_slices header

end Headers

section Classification

variable {τ κ : Type} [Recorded τ] [Recorded κ]

/-- A whole frame that replay accepts: of the right shape, with its digest behind it,
and a payload that is read as an acceptable transaction with its identifier. -/
def Acceptable (checks : Checks τ κ) (decode : Bytes → Option (EventBatch τ κ))
    (state : SessionState τ κ) (seq : UInt64) (previous whole : Bytes) : Prop :=
  ∃ payload batch later, payload.length ≤ maxFramePayload ∧ decode payload = some batch ∧
    batch.txnId = txnId batch.events ∧ applyBatch checks state batch = .ok later ∧
    whole = frameHeader payload.length seq batch.txnId previous ++ payload ++
      digestPrefix (frameHeader payload.length seq batch.txnId previous ++ payload)

/-- Bytes behind the cursor that neither begin a frame nor begin with one.  The
lengths between the magic and a whole header are left open. -/
structure Foreign (checks : Checks τ κ) (decode : Bytes → Option (EventBatch τ κ))
    (state : SessionState τ κ) (seq : UInt64) (previous tail : Bytes) : Prop where
  some : tail ≠ []
  length : tail.length ≤ magic.length ∨ headerLen ≤ tail.length
  noBeginning : ∀ whole, Shaped seq previous whole → tail <+: whole → whole.length ≤ tail.length
  noFrame : ∀ whole, Acceptable checks decode state seq previous whole → ¬ whole <+: tail

variable {checks : Checks τ κ} {decode : Bytes → Option (EventBatch τ κ)} {tail : Bytes}
  {state later : SessionState τ κ} {cursor next : ReplayCursor} {seq : UInt64}

theorem corrupt_readFrame :
    FailsWith StoreError.IsCorrupt (readFrame checks decode tail cursor state) := by
  unfold readFrame
  split
  · exact corrupt_guard failsWith_pure
  · apply failsWith_bind
    · unfold validateHeader
      repeat apply corrupt_guard
      apply failsWith_bind corrupt_okOr
      intro _
      repeat apply corrupt_guard
      exact failsWith_pure
    intro _
    extract_lets frameLen
    split
    · exact failsWith_pure
    · apply failsWith_bind
      · exact corrupt_guard failsWith_pure
      intro _
      apply failsWith_bind
      · apply failsWith_bind corrupt_okOr
        intro _
        repeat apply corrupt_guard
        exact failsWith_pure
      intro _
      apply failsWith_bind corrupt_applyBatch
      intro _
      repeat apply corrupt_guard
      exact failsWith_pure

/-- Missing bytes can be filled up. -/
theorem exists_completion {bytes : Bytes} {first second : Nat}
    (short : bytes.length ≤ first + second) :
    ∃ body trailer : Bytes, body.length = first ∧ trailer.length = second ∧
      bytes <+: body ++ trailer := by
  have length : (bytes ++ List.replicate (first + second - bytes.length) 0).length =
      first + second := by
    rw [List.length_append, List.length_replicate]
    omega
  refine ⟨(bytes ++ List.replicate (first + second - bytes.length) 0).take first,
    (bytes ++ List.replicate (first + second - bytes.length) 0).drop first, ?_, ?_, ?_⟩
  · rw [List.length_take, length]
    omega
  · rw [List.length_drop, length]
    omega
  · rw [List.take_append_drop]
    exact List.prefix_append _ _

/-- Bytes that are read as an incomplete frame begin one, unless they are longer
than the magic and shorter than a header. -/
theorem shaped_of_readFrame (incomplete : readFrame checks decode tail cursor state = .ok none)
    (length : tail.length ≤ magic.length ∨ headerLen ≤ tail.length)
    (chained : cursor.digest.length = digestLen) (next : checkedIncrement cursor.seq = some seq) :
    ∃ whole, Shaped seq cursor.digest whole ∧ tail <+: whole ∧ tail.length < whole.length := by
  by_cases brief : tail.length < headerLen
  · have few : tail.length ≤ magic.length := by
      rcases length with few | long
      · exact few
      · exact absurd long (Nat.not_le.mpr brief)
    rw [readFrame, if_pos brief] at incomplete
    simp only [bind_eq_ok, reject_eq_ok, pure_eq_ok, not_and, Decidable.not_not, exists_const,
      and_true] at incomplete
    have blank : (List.replicate digestLen 0 : Bytes).length = digestLen := List.length_replicate
    refine ⟨rawHeader 0 seq (List.replicate digestLen 0) cursor.digest ++ [] ++
      List.replicate digestLen 0, ⟨_, [], _, blank, Nat.zero_le _, blank, rfl⟩, ?_, ?_⟩
    · rw [incomplete few, rawHeader]
      simp only [List.append_assoc]
      exact (List.take_prefix _ _).trans (List.prefix_append _ _)
    · rw [List.length_append, List.length_append, length_rawHeader blank chained, blank]
      have small : headerLen = 56 := rfl
      omega
  · rw [readFrame, if_neg brief] at incomplete
    simp only [bind_eq_ok] at incomplete
    rcases incomplete with ⟨payloadLen, valid, rest⟩
    have headed : (tail.take headerLen).length = headerLen := by
      rw [List.length_take]
      omega
    rcases eq_rawHeader headed valid with ⟨number, identifier, follows, identified, fits, _, _, header⟩
    cases next.symm.trans follows
    split at rest
    · rename_i short
      have missing := @exists_completion (tail.drop headerLen) payloadLen digestLen (by
        rw [List.length_drop]
        omega)
      rcases missing with ⟨body, trailer, bodyLength, trailerLength, part⟩
      refine ⟨rawHeader body.length seq identifier cursor.digest ++ body ++ trailer,
        ⟨identifier, body, trailer, identified, bodyLength ▸ fits, trailerLength, rfl⟩, ?_, ?_⟩
      · rw [bodyLength, ← header, List.append_assoc]
        nth_rewrite 1 [← List.take_append_drop headerLen tail]
        exact (List.prefix_append_right_inj _).mpr part
      · rw [List.length_append, List.length_append, length_rawHeader identified chained, bodyLength,
          trailerLength]
        exact short
    · simp only [bind_eq_ok, pure_eq_ok] at rest
      rcases rest with ⟨_, _, _, _, _, _, _, _, _, _, nothing⟩
      cases nothing

/-- Bytes that are read as a frame begin with an acceptable one. -/
theorem acceptable_of_readFrame {found : SessionState τ κ × ReplayCursor × Bytes}
    (read : readFrame checks decode tail cursor state = .ok (some found))
    (next : checkedIncrement cursor.seq = some seq) :
    ∃ whole, Acceptable checks decode state seq cursor.digest whole ∧ whole <+: tail := by
  unfold readFrame at read
  split at read
  · simp only [bind_eq_ok, pure_eq_ok] at read
    rcases read with ⟨_, _, nothing⟩
    cases nothing
  · rename_i long
    simp only [bind_eq_ok] at read
    rcases read with ⟨payloadLen, valid, rest⟩
    have headed : (tail.take headerLen).length = headerLen := by
      rw [List.length_take]
      omega
    rcases eq_rawHeader headed valid with ⟨number, identifier, follows, identified, fits, _, slice, header⟩
    cases next.symm.trans follows
    split at rest
    · cases rest
    · rename_i whole
      simp only [bind_eq_ok, validateFrame, decodeBatch, reject_eq_ok, okOr_eq_ok, pure_eq_ok,
        exists_const, Decidable.not_not] at rest
      rcases rest with ⟨digest, ⟨trailer, rfl⟩, _, ⟨batch, decoded, ident, hashed, rfl⟩, later,
        applied, _⟩
      have length : (tail.take (headerLen + payloadLen + digestLen)).length =
          headerLen + payloadLen + digestLen := by
        rw [List.length_take]
        omega
      have payload : (((tail.take (headerLen + payloadLen + digestLen)).drop headerLen).take
          payloadLen).length = payloadLen := by
        rw [List.length_take, List.length_drop, length]
        omega
      have headFirst : (tail.take (headerLen + payloadLen + digestLen)).take headerLen =
          frameHeader payloadLen seq batch.txnId cursor.digest := by
        rw [List.take_take, Nat.min_eq_left (by omega), header, slice, hashed]
        rfl
      have body : (tail.take (headerLen + payloadLen + digestLen)).take (headerLen + payloadLen) =
          frameHeader payloadLen seq batch.txnId cursor.digest ++
            ((tail.take (headerLen + payloadLen + digestLen)).drop headerLen).take payloadLen := by
        rw [← headFirst, List.take_add]
      refine ⟨tail.take (headerLen + payloadLen + digestLen), ⟨_, batch, later, payload.trans_le fits,
        decoded, ident, applied, ?_⟩, List.take_prefix _ _⟩
      rw [payload, ← body, ← trailer, List.take_append_drop]

theorem readFrame_foreign (foreign : Foreign checks decode state seq cursor.digest tail)
    (chained : cursor.digest.length = digestLen) (next : checkedIncrement cursor.seq = some seq) :
    ∃ text, readFrame checks decode tail cursor state = .error (.corrupt text) := by
  rcases read : readFrame checks decode tail cursor state with error | _ | found
  · rcases corrupt_readFrame error read with ⟨text, rfl⟩
    exact ⟨text, rfl⟩
  · rcases shaped_of_readFrame read foreign.length chained next with ⟨whole, shaped, part, short⟩
    exact absurd short (Nat.not_lt.mpr (foreign.noBeginning whole shaped part))
  · rcases acceptable_of_readFrame read next with ⟨whole, acceptable, part⟩
    exact absurd part (foreign.noFrame whole acceptable)

end Classification

section Exactness

variable {τ κ : Type} [Recorded τ] [Recorded κ] {checks : Checks τ κ}
  {decode : Bytes → Option (EventBatch τ κ)}
  {state later : SessionState τ κ} {cursor : ReplayCursor} {seq : UInt64}
  {events : List (Event τ κ)} {disk : Disk} {file : Nat} {seen tail : Bytes}

theorem validate_replayed (valid : state.validate checks = .ok ())
    (accepted : replayed checks state events = .ok later) : later.validate checks = .ok () := by
  induction events generalizing state with
  | nil =>
      cases accepted
      exact valid
  | cons event events ih =>
      rcases replayed_cons.mp accepted with ⟨middle, applied, others⟩
      rcases applyBatch_eq_ok.mp applied with ⟨_, _, _, validated⟩
      exact ih validated others

/-- What replay makes of the bytes behind the frames of accepted events. -/
structure ReplaysExactly (checks : Checks τ κ) (decode : Bytes → Option (EventBatch τ κ))
    (state later : SessionState τ κ) (cursor next : ReplayCursor) (seq : UInt64)
    (disk : Disk) (file : Nat) (kept tail : Bytes) : Prop where
  whole : tail = [] →
    (replayReadMode checks decode file state cursor true true).run.run disk =
      (.ok (later, next, false), disk)
  torn : ∀ frame, Shaped seq next.digest frame → tail <+: frame → tail.length < frame.length →
    tail ≠ [] →
    (replayReadMode checks decode file state cursor true true).run.run disk =
      (.ok (later, next, true), disk.store file kept)
  foreign : Foreign checks decode later seq next.digest tail →
    ∃ text, (replayReadMode checks decode file state cursor true true).run.run disk =
      (.error (.corrupt text), disk)

theorem replaysExactly_of_framed (decodes : ∀ event ∈ events,
      decode (serialize (batchOf [event])) = some (batchOf [event]))
    (valid : state.validate checks = .ok ()) (framed : Framed cursor events)
    (accepted : replayed checks state events = .ok later)
    (room : checkedIncrement (cursor.behind events).seq = some seq)
    (contents : disk.contents file = seen ++ (framesFrom cursor events ++ tail))
    (placed : cursor.offset = seen.length)
    (bounded : (framesFrom cursor events ++ tail).length ≤ maxReplayBytes) :
    ReplaysExactly checks decode state later cursor (cursor.behind events) seq disk file
      (seen ++ framesFrom cursor events) tail := by
  have reads := (@readReplayBytes_goes cursor disk file seen _ (fun _ => True) contents placed
    bounded trivial).runs
  have final := validate_replayed valid accepted
  have chained := @digest_behind _ _ _ _ cursor events framed.chained
  constructor
  · rintro rfl
    have scanned := scan_framesFrom_torn decodes framed accepted (.inl rfl)
    exact replayReadMode_whole reads (by simpa using scanned) final
  · intro frame shaped part short some
    have scanned := scan_framesFrom_torn decodes framed accepted
      (.inr ⟨seq, frame, room, shaped, part, short⟩)
    rw [replayReadMode_torn reads (by simpa [some] using scanned) final]
    have cut : resize (disk.contents file) (cursor.behind events).offset =
        seen ++ framesFrom cursor events := by
      rw [resize, contents, offset_behind, placed, ← List.append_assoc, ← List.length_append,
        List.take_left' rfl]
      simp
    rw [cut]
  · intro foreign
    rcases readFrame_foreign foreign chained room with ⟨text, refused⟩
    refine ⟨text, ?_⟩
    rw [replayReadMode_run reads, rounds_framesFrom, scan_framesFrom decodes _ framed accepted, scan,
      if_neg foreign.some, refused]

/-- Frames of accepted events are replayed exactly, the beginning of a further frame
is cut off, foreign bytes are refused with nothing changed, and reading alone
decides as repairing does for every file. -/
theorem replays_exactly (decodes : ∀ event ∈ events,
      decode (serialize (batchOf [event])) = some (batchOf [event]))
    (valid : state.validate checks = .ok ()) (framed : Framed cursor events)
    (accepted : replayed checks state events = .ok later)
    (room : checkedIncrement (cursor.behind events).seq = some seq)
    (contents : disk.contents file = seen ++ (framesFrom cursor events ++ tail))
    (placed : cursor.offset = seen.length)
    (bounded : (framesFrom cursor events ++ tail).length ≤ maxReplayBytes) :
    ReplaysExactly checks decode state later cursor (cursor.behind events) seq disk file
        (seen ++ framesFrom cursor events) tail ∧
      ∀ (disk : Disk) (file : Nat) (state : SessionState τ κ)
        (cursor : ReplayCursor) (permit : Bool),
        let repairing := (replayReadMode checks decode file state cursor permit true).run.run disk
        let reading := (replayReadMode checks decode file state cursor permit false).run.run disk
        reading.2 = disk ∧
          reading.1.map (fun found => (found.1, found.2.1)) =
            repairing.1.map (fun found => (found.1, found.2.1)) := by
  constructor
  · exact replaysExactly_of_framed decodes valid framed accepted room contents placed bounded
  · intro disk file state cursor permit
    exact replayReadMode_readOnly permit

end Exactness

section Samples

open Classical in
/-- The reader of everything that was written. -/
noncomputable def readBack {α : Type} [Recorded α] (bytes : Bytes) : Option α :=
  if written : ∃ value : α, serialize value = bytes then some written.choose else none

theorem readBack_serialize {α : Type} [Recorded α] (value : α) :
    readBack (serialize value) = some value := by
  have written : ∃ other : α, serialize other = serialize value := ⟨value, rfl⟩
  rw [readBack, dif_pos written, serialize_injective written.choose_spec]

variable {τ κ : Type} [Recorded τ] [Recorded κ]

theorem length_txnId (events : List (Event τ κ)) : (txnId events).length = 32 := by
  have hex : ∀ bytes : Bytes, (Text.hex bytes).length = 2 * bytes.length := by
    intro bytes
    rw [Text.hex, List.length_flatMap]
    simp [Nat.mul_comm]
  rw [txnId, String.length_ofList, hex, length_digestPrefix]
  rfl

/-- A transaction is little more than its events. -/
theorem weight_batchOf_le (events : List (Event τ κ)) :
    weight (json (batchOf events)) ≤ weight (json events) + 256 := by
  have identifier := weight_string_le (batchOf events).txnId
  have length : (batchOf events).txnId.length = 32 := length_txnId events
  have first : width (Json.printString "txn_id") = 8 := by decide
  have second : width (Json.printString "events") = 8 := by decide
  have whole : weight (json (batchOf events)) = fieldsWeight
      [("txn_id", json (batchOf events).txnId), ("events", json events)] + 1 := weight_object_cons
  rw [whole, fieldsWeight_cons, fieldsWeight_cons, fieldsWeight_nil, first, second]
  omega

/-- The start of a log. -/
def sampleCursor : ReplayCursor :=
  ⟨0, 0, List.replicate digestLen 0, 0⟩

/-- The reservation of the first branch. -/
def sampleEvent : Event Unit Unit :=
  .branchReserved (some "/work") 1 1 sampleBranch 1

/-- A segment with the bytes. -/
def sampleDisk (bytes : Bytes) : Disk :=
  (Disk.empty.create "segment-0-1.log").store 0 bytes

theorem contents_sampleDisk (bytes : Bytes) : (sampleDisk bytes).contents 0 = bytes := by
  simp [sampleDisk, Disk.store]

theorem fits_sampleEvent : (serialize (batchOf [sampleEvent])).length ≤ 3000 := by
  have small : weight (json [sampleEvent]) ≤ 2000 := by decide +kernel
  have whole := weight_batchOf_le [sampleEvent]
  rw [length_serialize]
  omega

/-- One frame and the first bytes of another. -/
theorem replays_sample :
    (replayReadMode sampleChecks readBack 0 (.empty "session") sampleCursor true true).run.run
        (sampleDisk (framesFrom sampleCursor [sampleEvent] ++ magic)) =
      (.ok (sampleState [sampleReserved], sampleCursor.behind [sampleEvent], true),
        (sampleDisk (framesFrom sampleCursor [sampleEvent] ++ magic)).store 0
          (framesFrom sampleCursor [sampleEvent])) := by
  have blank : (List.replicate digestLen 0 : Bytes).length = digestLen := List.length_replicate
  have length : (framesFrom sampleCursor [sampleEvent]).length =
      headerLen + (serialize (batchOf [sampleEvent])).length + digestLen := by
    rw [framesFrom, framesFrom, List.append_nil]
    exact length_frameBytes blank
  have fits := fits_sampleEvent
  have framed : Framed sampleCursor [sampleEvent] := by
    refine ⟨blank, ?_, by decide, by decide, ?_⟩
    · intro event member
      rw [List.mem_singleton.mp member]
      exact Nat.le_trans fits (by decide)
    · have start : sampleCursor.offset = 0 := rfl
      rw [start, length, headerLen, digestLen, counterEnd]
      omega
  have valid : (SessionState.empty "session" : SessionState Unit Unit).validate sampleChecks =
      .ok () := by
    decide +kernel
  have accepted : replayed sampleChecks (.empty "session") [sampleEvent] =
      .ok (sampleState [sampleReserved]) := by
    decide +kernel
  have contents : (sampleDisk (framesFrom sampleCursor [sampleEvent] ++ magic)).contents 0 =
      [] ++ (framesFrom sampleCursor [sampleEvent] ++ magic) :=
    contents_sampleDisk _
  have bounded : (framesFrom sampleCursor [sampleEvent] ++ magic).length ≤ maxReplayBytes := by
    rw [List.length_append, length, length_magic, headerLen, digestLen, maxReplayBytes,
      segmentByteThreshold]
    omega
  have next : checkedIncrement (sampleCursor.behind [sampleEvent]).seq = some 2 := by decide
  have replays := (replays_exactly (fun event _ => readBack_serialize (batchOf [event])) valid framed
    accepted next contents rfl bounded).1
  have chained := @digest_behind _ _ _ _ sampleCursor [sampleEvent] blank
  refine replays.torn _ ⟨List.replicate digestLen 0, [], List.replicate digestLen 0, blank,
    Nat.zero_le _, blank, rfl⟩ ?_ ?_ ?_
  · rw [rawHeader]
    simp only [List.append_assoc]
    exact List.prefix_append _ _
  · rw [List.length_append, List.length_append, length_rawHeader blank chained, blank, length_magic]
    decide
  · decide

/-- A header that announces an empty payload begins no frame of any events, and is
cut off like the beginning of one. -/
theorem foreign_header_repaired :
    let blank : Bytes := List.replicate digestLen 0
    let tail := rawHeader 0 1 blank blank
    (∀ events : List (Event Unit Unit), Fits events → ¬ tail <+: frameBytes 1 blank events) ∧
      (replayReadMode sampleChecks readBack 0 (.empty "session") sampleCursor true true).run.run
          (sampleDisk tail) =
        (.ok (.empty "session", sampleCursor, true), (sampleDisk tail).store 0 []) := by
  intro blank tail
  have length : blank.length = digestLen := List.length_replicate
  have whole : tail.length = headerLen := length_rawHeader length length
  constructor
  · rintro events fits ⟨rest, joined⟩
    have header : tail = frameHeader (serialize (batchOf events)).length 1 (batchOf events).txnId
        blank := by
      rw [← @take_headerLen _ _ _ _ 1 blank [] events length, List.append_nil, ← joined,
        List.take_left' whole]
    have announced := (@rawHeader_fields 0 1 blank blank (Nat.zero_le _) length).2.2.1
    have written := (@rawHeader_fields _ 1 _ blank fits
      (length_digestPrefix (utf8 (batchOf events).txnId))).2.2.1
    have none : (serialize (batchOf events)).length = 0 := by
      rw [← written, ← announced]
      exact congrArg (u32At · 12) header.symm
    have some := weight_pos (json (batchOf events))
    rw [← length_serialize, none] at some
    exact absurd some (Nat.lt_irrefl 0)
  · have valid : (SessionState.empty "session" : SessionState Unit Unit).validate sampleChecks =
        .ok () := by
      decide +kernel
    have framed : Framed sampleCursor ([] : List (Event Unit Unit)) :=
      ⟨length, fun _ member => absurd member List.not_mem_nil, by decide, by decide, by decide⟩
    have bounded : (framesFrom sampleCursor ([] : List (Event Unit Unit)) ++ tail).length ≤
        maxReplayBytes := by
      rw [framesFrom, List.nil_append, whole]
      decide
    have next : checkedIncrement (sampleCursor.behind ([] : List (Event Unit Unit))).seq =
        some 1 := by
      decide
    have contents : (sampleDisk tail).contents 0 =
        [] ++ (framesFrom sampleCursor ([] : List (Event Unit Unit)) ++ tail) :=
      contents_sampleDisk tail
    have replays := replaysExactly_of_framed (fun event _ => readBack_serialize (batchOf [event]))
      valid framed rfl next contents rfl bounded
    refine replays.torn (tail ++ [] ++ blank) ⟨blank, [], blank, length, Nat.zero_le _, length, rfl⟩
      ?_ ?_ ?_
    · rw [List.append_assoc]
      exact List.prefix_append _ _
    · rw [List.length_append, List.length_append, length, digestLen]
      omega
    · intro empty
      rw [empty] at whole
      cases whole

end Samples

end Llxprt.Log
