import Llxprt.Rust.Collections
import Llxprt.Rust.Text

/-!
# Epoch accounting

One record for every epoch of the outgoing prefix.  Totals only grow together,
and an observation that would overflow a total is dropped as a whole, so every
reachable cache passes its own check.
-/

namespace Llxprt.Policy

open Llxprt.Rust

inductive CutTrigger where
  | budgetPressure
  | explicitRequest
  | erasure
  deriving DecidableEq

structure EpochRecord where
  epoch : Nat
  headDigest : String
  headRequests : Nat
  trigger : Option CutTrigger
  armed : Bool
  bytesReclaimed : Nat
  bytesInvalidated : Nat
  tokensInvalidated : Option Nat
  tokensReclaimed : Option Nat
  invalidations : Nat
  aggregateValid : Bool
  calls : Nat
  measuredCalls : Nat
  inputTokens : Nat
  cachedTokens : Nat
  armedInputTokens : Nat
  armedCachedTokens : Nat
  disarmedInputTokens : Nat
  disarmedCachedTokens : Nat

structure EpochCache where
  records : List EpochRecord

inductive EpochError where
  | unknownEpoch
  | exhausted
  | corrupt
  | governorRefused
  | prefixChanged

def EpochError.text : EpochError → String
  | unknownEpoch => "context epoch is unknown"
  | exhausted => "context epoch counter exhausted"
  | corrupt => "context epoch accounting is corrupt"
  | governorRefused => "context checkpoint refused by the governor"
  | prefixChanged => "context prefix changed without a checkpoint"

structure CheckpointCut where
  headDigest : String
  headRequests : Nat
  trigger : CutTrigger
  armed : Bool
  bytesReclaimed : Nat
  bytesInvalidated : Nat
  tokensInvalidated : Option Nat

namespace EpochRecord

def new (epoch : Nat) (headDigest : String) (headRequests : Nat) : EpochRecord :=
  { epoch, headDigest, headRequests, trigger := none, armed := false, bytesReclaimed := 0,
    bytesInvalidated := 0, tokensInvalidated := none, tokensReclaimed := none, invalidations := 0,
    aggregateValid := true, calls := 0, measuredCalls := 0, inputTokens := 0, cachedTokens := 0,
    armedInputTokens := 0, armedCachedTokens := 0, disarmedInputTokens := 0,
    disarmedCachedTokens := 0 }

/-- Every total grows, or none does. -/
def addUsage (record : EpochRecord) (input cached : Nat) (armed : Bool) : Option EpochRecord := do
  let inputTokens ← checkedAdd record.inputTokens input
  let cachedTokens ← checkedAdd record.cachedTokens cached
  if armed then
    let armedInputTokens ← checkedAdd record.armedInputTokens input
    let armedCachedTokens ← checkedAdd record.armedCachedTokens cached
    return { record with inputTokens, cachedTokens, armedInputTokens, armedCachedTokens }
  else
    let disarmedInputTokens ← checkedAdd record.disarmedInputTokens input
    let disarmedCachedTokens ← checkedAdd record.disarmedCachedTokens cached
    return { record with inputTokens, cachedTokens, disarmedInputTokens, disarmedCachedTokens }

/-- Usage counts only when both sides are reported and the hits are no more than
the input. -/
def reported : Option Nat → Option Nat → Option (Nat × Nat)
  | some input, some cached => if cached ≤ input then some (input, cached) else none
  | _, _ => none

/-- One provider call.  Usage that is missing or inconsistent only counts as a
call, and usage that overflows a total invalidates the aggregate. -/
def observe (record : EpochRecord) (input cached : Option Nat) (armed : Bool) :
    Except EpochError Unit × EpochRecord :=
  match checkedAdd record.calls 1 with
  | none => (.error .exhausted, record)
  | some calls =>
      let called := { record with calls }
      match reported input cached with
      | none => (.ok (), called)
      | some (input, cached) =>
          match checkedAdd called.measuredCalls 1 with
          | none => (.error .exhausted, called)
          | some measuredCalls =>
              let measured := { called with measuredCalls }
              if measured.aggregateValid = false then
                (.ok (), measured)
              else
                match measured.addUsage input cached armed with
                | none => (.ok (), { measured with aggregateValid := false })
                | some staged => (.ok (), staged)

/-- Sixty-four hexadecimal digits. -/
def digestShaped (digest : String) : Bool :=
  digest.toList.length == 64 && digest.toList.all fun char => (Text.hexValue char).isSome

/-- The check of one record at its position. -/
def consistent (index : Nat) (record : EpochRecord) : Bool :=
  record.epoch == index && digestShaped record.headDigest &&
    record.invalidations == (if record.trigger.isSome then 1 else 0) &&
    record.cachedTokens ≤ record.inputTokens && record.measuredCalls ≤ record.calls &&
    record.armedCachedTokens ≤ record.armedInputTokens &&
    record.disarmedCachedTokens ≤ record.disarmedInputTokens &&
    checkedAdd record.armedInputTokens record.disarmedInputTokens == some record.inputTokens &&
    checkedAdd record.armedCachedTokens record.disarmedCachedTokens == some record.cachedTokens

end EpochRecord

namespace EpochCache

def start (cache : EpochCache) (digest : String) (requests : Nat) :
    Except EpochError (Nat × EpochCache) :=
  match cache.records.getLast? with
  | none => .ok (0, ⟨cache.records ++ [.new 0 digest requests]⟩)
  | some last =>
      match checkedAdd last.epoch 1 with
      | none => .error .exhausted
      | some epoch => .ok (epoch, ⟨cache.records ++ [.new epoch digest requests]⟩)

/-- The record that a cut opens. -/
def cutRecord (cut : CheckpointCut) (epoch : Nat) : EpochRecord :=
  { EpochRecord.new epoch cut.headDigest cut.headRequests with
    trigger := some cut.trigger
    armed := cut.armed
    bytesReclaimed := cut.bytesReclaimed
    bytesInvalidated := cut.bytesInvalidated
    tokensInvalidated := if cut.trigger = .erasure then none else cut.tokensInvalidated
    invalidations := 1 }

def cut (cache : EpochCache) (cut : CheckpointCut) : Except EpochError (Nat × EpochCache) :=
  match cache.start cut.headDigest cut.headRequests with
  | .error error => .error error
  | .ok (epoch, _) => .ok (epoch, ⟨cache.records ++ [cutRecord cut epoch]⟩)

/-- Whether a record is the one of the epoch. -/
def isEpoch (epoch : Nat) (record : EpochRecord) : Bool :=
  record.epoch == epoch

def observe (cache : EpochCache) (epoch : Nat) (input cached : Option Nat) (armed : Bool) :
    Except EpochError Unit × EpochCache :=
  match cache.records.find? (isEpoch epoch) with
  | none => (.error .unknownEpoch, cache)
  | some record =>
      ((record.observe input cached armed).1,
        ⟨updateFirst (isEpoch epoch) (fun record => (record.observe input cached armed).2)
          cache.records⟩)

def validate (cache : EpochCache) : Except EpochError Unit :=
  if cache.records.zipIdx.all fun record => EpochRecord.consistent record.2 record.1 then
    .ok ()
  else
    .error .corrupt

/-- Every record passes the check at its position. -/
def Valid (cache : EpochCache) : Prop :=
  ∀ (index : Nat) (record : EpochRecord), cache.records[index]? = some record →
    record.consistent index = true

theorem validate_eq_ok_iff {cache : EpochCache} : cache.validate = .ok () ↔ cache.Valid := by
  unfold validate Valid
  constructor
  · intro accepted
    split at accepted
    · rename_i checked
      intro index record found
      have member : (record, index) ∈ cache.records.zipIdx := by
        rw [List.mem_zipIdx_iff_getElem?]
        exact found
      have holds := List.all_eq_true.mp checked (record, index) member
      exact holds
    · cases accepted
  · intro valid
    rw [if_pos]
    rw [List.all_eq_true]
    rintro ⟨record, index⟩ member
    rw [List.mem_zipIdx_iff_getElem?] at member
    exact valid index record member

end EpochCache

section Records

variable {record : EpochRecord} {index : Nat}

open EpochRecord

theorem consistent_iff : record.consistent index = true ↔
    record.epoch = index ∧ digestShaped record.headDigest = true ∧
    record.invalidations = (if record.trigger.isSome then 1 else 0) ∧
    record.cachedTokens ≤ record.inputTokens ∧ record.measuredCalls ≤ record.calls ∧
    record.armedCachedTokens ≤ record.armedInputTokens ∧
    record.disarmedCachedTokens ≤ record.disarmedInputTokens ∧
    checkedAdd record.armedInputTokens record.disarmedInputTokens = some record.inputTokens ∧
    checkedAdd record.armedCachedTokens record.disarmedCachedTokens = some record.cachedTokens := by
  simp only [consistent, Bool.and_eq_true, beq_iff_eq, decide_eq_true_eq, and_assoc]

theorem checkedAdd_eq_some_iff {left right total : Nat} :
    checkedAdd left right = some total ↔ left + right ≤ u64Max ∧ left + right = total := by
  unfold checkedAdd
  split <;> simp_all

theorem consistent_new {digest : String} {requests : Nat} (shaped : digestShaped digest = true) :
    (EpochRecord.new index digest requests).consistent index = true := by
  simp [consistent_iff, EpochRecord.new, shaped, checkedAdd]

theorem consistent_cutRecord {cut : CheckpointCut} (shaped : digestShaped cut.headDigest = true) :
    (EpochCache.cutRecord cut index).consistent index = true := by
  simp [consistent_iff, EpochCache.cutRecord, EpochRecord.new, shaped, checkedAdd]

/-- The totals stay balanced when usage is added. -/
theorem consistent_addUsage {staged : EpochRecord} {input cached : Nat} {armed : Bool}
    (consistent : record.consistent index = true) (within : cached ≤ input)
    (added : record.addUsage input cached armed = some staged) :
    staged.consistent index = true := by
  rw [consistent_iff] at consistent ⊢
  rcases consistent with
    ⟨epoch, shaped, counted, tokens, measured, armedTokens, disarmedTokens, inputs, caches⟩
  rw [checkedAdd_eq_some_iff] at inputs caches
  cases armed with
  | true =>
      simp only [addUsage, Option.bind_eq_bind, Option.bind_eq_some_iff, checkedAdd_eq_some_iff,
        if_true, Option.pure_def, Option.some.injEq] at added
      rcases added with ⟨_, ⟨_, rfl⟩, _, ⟨_, rfl⟩, _, ⟨_, rfl⟩, _, ⟨_, rfl⟩, rfl⟩
      simp only [checkedAdd_eq_some_iff]
      exact ⟨epoch, shaped, counted, by omega, measured, by omega, disarmedTokens,
        by omega, by omega⟩
  | false =>
      simp only [addUsage, Option.bind_eq_bind, Option.bind_eq_some_iff, checkedAdd_eq_some_iff,
        Bool.false_eq_true, if_false, Option.pure_def, Option.some.injEq] at added
      rcases added with ⟨_, ⟨_, rfl⟩, _, ⟨_, rfl⟩, _, ⟨_, rfl⟩, _, ⟨_, rfl⟩, rfl⟩
      simp only [checkedAdd_eq_some_iff]
      exact ⟨epoch, shaped, counted, by omega, measured, armedTokens, by omega,
        by omega, by omega⟩

theorem reported_le {input cached : Option Nat} {total hits : Nat}
    (usable : reported input cached = some (total, hits)) : hits ≤ total := by
  unfold reported at usable
  split at usable
  · split at usable
    · rename_i within
      cases usable
      exact within
    · cases usable
  · cases usable

/-- A provider call keeps the record consistent, also when it is refused. -/
theorem consistent_observe {input cached : Option Nat} {armed : Bool}
    (consistent : record.consistent index = true) :
    (record.observe input cached armed).2.consistent index = true := by
  unfold EpochRecord.observe
  split
  · exact consistent
  · rename_i calls counted
    rw [checkedAdd_eq_some_iff] at counted
    have called : ({ record with calls } : EpochRecord).consistent index = true := by
      rw [consistent_iff] at consistent ⊢
      rcases consistent with ⟨epoch, shaped, cuts, tokens, measured, rest⟩
      exact ⟨epoch, shaped, cuts, tokens, by simp only; omega, rest⟩
    simp only
    split
    · exact called
    · rename_i input cached usable
      have within : cached ≤ input := reported_le usable
      split
      · exact called
      · rename_i measuredCalls more
        rw [checkedAdd_eq_some_iff] at more
        have measured : ({ record with calls, measuredCalls } : EpochRecord).consistent index =
            true := by
          rw [consistent_iff] at consistent ⊢
          rcases consistent with ⟨epoch, shaped, cuts, tokens, measured, rest⟩
          exact ⟨epoch, shaped, cuts, tokens, by simp only at more ⊢; omega, rest⟩
        split
        · exact measured
        · split
          · rw [consistent_iff] at measured ⊢
            exact measured
          · rename_i staged added
            exact consistent_addUsage measured within added

end Records

namespace EpochCache

variable {cache grown : EpochCache}

/-- A record appended at its own position keeps the cache valid. -/
theorem Valid.append {record : EpochRecord} (valid : cache.Valid)
    (consistent : record.consistent cache.records.length = true) :
    (⟨cache.records ++ [record]⟩ : EpochCache).Valid := by
  intro index other found
  rw [List.getElem?_append] at found
  split at found
  · exact valid index other found
  · rename_i beyond
    have last : index - cache.records.length = 0 := by
      by_contra further
      rw [List.getElem?_eq_none] at found
      · cases found
      · simp only [List.length_cons, List.length_nil]
        omega
    have here : index = cache.records.length := by omega
    rw [last] at found
    cases found
    rw [here]
    exact consistent

/-- A started epoch is numbered by its position. -/
theorem start_epoch {epoch requests : Nat} {digest : String} (valid : cache.Valid)
    (started : cache.start digest requests = .ok (epoch, grown)) :
    epoch = cache.records.length ∧
      grown = ⟨cache.records ++ [.new epoch digest requests]⟩ := by
  unfold start at started
  split at started
  · rename_i empty
    cases started
    rw [List.getLast?_eq_none_iff.mp empty]
    exact ⟨rfl, rfl⟩
  · rename_i last ends
    split at started
    · cases started
    · rename_i next counted
      cases started
      rw [checkedAdd_eq_some_iff] at counted
      rw [List.getLast?_eq_getElem?] at ends
      have numbered := (consistent_iff.mp (valid _ _ ends)).1
      have inside := List.getElem?_eq_some_iff.mp ends
      rcases inside with ⟨bound, _⟩
      exact ⟨by omega, rfl⟩

theorem Valid.start {epoch requests : Nat} {digest : String} (valid : cache.Valid)
    (shaped : EpochRecord.digestShaped digest = true)
    (started : cache.start digest requests = .ok (epoch, grown)) : grown.Valid := by
  rcases start_epoch valid started with ⟨rfl, rfl⟩
  exact valid.append (consistent_new shaped)

theorem cut_epoch {epoch : Nat} {cut : CheckpointCut} (valid : cache.Valid)
    (done : cache.cut cut = .ok (epoch, grown)) :
    epoch = cache.records.length ∧ grown = ⟨cache.records ++ [cutRecord cut epoch]⟩ := by
  unfold EpochCache.cut at done
  split at done
  · cases done
  · rename_i started
    cases done
    exact ⟨(start_epoch valid started).1, rfl⟩

theorem Valid.cut {epoch : Nat} {cut : CheckpointCut} (valid : cache.Valid)
    (shaped : EpochRecord.digestShaped cut.headDigest = true)
    (done : cache.cut cut = .ok (epoch, grown)) : grown.Valid := by
  rcases cut_epoch valid done with ⟨rfl, rfl⟩
  exact valid.append (consistent_cutRecord shaped)

theorem getElem?_updateFirst {found : EpochRecord → Bool} {change : EpochRecord → EpochRecord}
    {records : List EpochRecord} {index : Nat} {record : EpochRecord}
    (updated : (updateFirst found change records)[index]? = some record) :
    records[index]? = some record ∨ ∃ before, records[index]? = some before ∧
      record = change before := by
  induction records generalizing index with
  | nil => exact .inl updated
  | cons first records ih =>
      rw [updateFirst] at updated
      split at updated
      · cases index with
        | zero =>
            cases updated
            exact .inr ⟨first, rfl, rfl⟩
        | succ index => exact .inl updated
      · cases index with
        | zero => exact .inl updated
        | succ index => exact ih updated

theorem Valid.observe {epoch : Nat} {input cached : Option Nat} {armed : Bool}
    (valid : cache.Valid) : (cache.observe epoch input cached armed).2.Valid := by
  unfold EpochCache.observe
  split
  · exact valid
  · intro index record found
    rcases getElem?_updateFirst found with same | ⟨before, at_index, rfl⟩
    · exact valid index record same
    · exact consistent_observe (valid index before at_index)

/-- A provider call keeps the epoch of its record. -/
theorem observe_epoch (record : EpochRecord) (input cached : Option Nat) (armed : Bool) :
    (record.observe input cached armed).2.epoch = record.epoch := by
  unfold EpochRecord.observe
  split
  · rfl
  · simp only
    split
    · rfl
    · split
      · rfl
      · split
        · rfl
        · split
          · rfl
          · rename_i staged added
            cases armed with
            | true =>
                simp only [EpochRecord.addUsage, Option.bind_eq_bind, Option.bind_eq_some_iff,
                  if_true, Option.pure_def, Option.some.injEq] at added
                rcases added with ⟨_, _, _, _, _, _, _, _, rfl⟩
                rfl
            | false =>
                simp only [EpochRecord.addUsage, Option.bind_eq_bind, Option.bind_eq_some_iff,
                  Bool.false_eq_true, if_false, Option.pure_def, Option.some.injEq] at added
                rcases added with ⟨_, _, _, _, _, _, _, _, rfl⟩
                rfl

/-- Every recorded epoch is still recorded after a provider call. -/
theorem observe_keeps {record : EpochRecord} (member : record ∈ cache.records) (epoch : Nat)
    (input cached : Option Nat) (armed : Bool) :
    ∃ kept ∈ (cache.observe epoch input cached armed).2.records, kept.epoch = record.epoch := by
  have updated : ∀ records : List EpochRecord, record ∈ records →
      ∃ kept ∈ updateFirst (isEpoch epoch) (fun record => (record.observe input cached armed).2)
        records, kept.epoch = record.epoch := by
    intro records
    induction records with
    | nil => exact fun absent => absurd absent List.not_mem_nil
    | cons first records ih =>
        intro member
        rw [updateFirst]
        rcases List.mem_cons.mp member with rfl | later
        · split
          · exact ⟨_, List.mem_cons_self, observe_epoch record input cached armed⟩
          · exact ⟨record, List.mem_cons_self, rfl⟩
        · split
          · exact ⟨record, List.mem_cons_of_mem _ later, rfl⟩
          · rcases ih later with ⟨kept, inside, same⟩
            exact ⟨kept, List.mem_cons_of_mem _ inside, same⟩
  unfold EpochCache.observe
  split
  · exact ⟨record, member, rfl⟩
  · exact updated _ member

end EpochCache

end Llxprt.Policy
