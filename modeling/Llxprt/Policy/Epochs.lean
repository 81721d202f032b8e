import Llxprt.Policy.Cache
import Llxprt.Rust.Integers
import Llxprt.Rust.Runs
import Llxprt.Rust.Tallies

/-!
# Runs of the epoch accounting

Beside a cache runs a list of the usage that the calls of every epoch have
reported.  The totals of a record are the sums over the first usage that fits
into 64 bits, and the aggregate is valid as long as that is all of it.
-/

namespace Llxprt.Policy

open Llxprt.Rust

/-- The usage of one measured call. -/
structure Usage where
  input : Nat
  cached : Nat
  armed : Bool
  deriving DecidableEq

inductive EpochCall where
  | start (digest : String) (requests : Nat)
  | cut (cut : CheckpointCut)
  | observe (epoch : Nat) (input cached : Option Nat) (armed : Bool)

/-- The digests that the call brings have sixty-four hexadecimal digits. -/
def EpochCall.Shaped : EpochCall → Prop
  | .start digest _ => EpochRecord.digestShaped digest = true
  | .cut opened => EpochRecord.digestShaped opened.headDigest = true
  | .observe .. => True

namespace EpochCache

def empty : EpochCache :=
  ⟨[]⟩

/-- The cache after a call, whatever the call returns. -/
def step (cache : EpochCache) : EpochCall → EpochCache
  | .start digest requests =>
      match cache.start digest requests with
      | .ok (_, grown) => grown
      | .error _ => cache
  | .cut opened =>
      match cache.cut opened with
      | .ok (_, grown) => grown
      | .error _ => cache
  | .observe epoch input cached armed => (cache.observe epoch input cached armed).2

end EpochCache

namespace EpochRecord

variable {record : EpochRecord} {index input cached : Nat} {armed : Bool}

/-- One of the totals that the usage would go into leaves 64 bits. -/
def Overflows (record : EpochRecord) (usage : Usage) : Prop :=
  u64Max < record.inputTokens + usage.input ∨ u64Max < record.cachedTokens + usage.cached ∨
    (usage.armed = true ∧ (u64Max < record.armedInputTokens + usage.input ∨
      u64Max < record.armedCachedTokens + usage.cached)) ∨
    (usage.armed = false ∧ (u64Max < record.disarmedInputTokens + usage.input ∨
      u64Max < record.disarmedCachedTokens + usage.cached))

/-- The record with the usage in all its totals. -/
def plus (record : EpochRecord) (usage : Usage) : EpochRecord :=
  { record with
    inputTokens := record.inputTokens + usage.input
    cachedTokens := record.cachedTokens + usage.cached
    armedInputTokens := record.armedInputTokens + if usage.armed then usage.input else 0
    armedCachedTokens := record.armedCachedTokens + if usage.armed then usage.cached else 0
    disarmedInputTokens := record.disarmedInputTokens + if !usage.armed then usage.input else 0
    disarmedCachedTokens := record.disarmedCachedTokens + if !usage.armed then usage.cached else 0 }

/-- The record after one more call without usable usage. -/
def called (record : EpochRecord) : EpochRecord :=
  { record with calls := record.calls + 1 }

/-- The record after one more call with usable usage, before it is added. -/
def measured (record : EpochRecord) : EpochRecord :=
  { record with calls := record.calls + 1, measuredCalls := record.measuredCalls + 1 }

theorem checkedAdd_eq_some {left right : Nat} (fits : left + right ≤ u64Max) :
    checkedAdd left right = some (left + right) :=
  if_pos fits

theorem checkedAdd_eq_none {left right : Nat} (beyond : u64Max < left + right) :
    checkedAdd left right = none :=
  if_neg (Nat.not_le.mpr beyond)

/-- The input total is the largest, so it alone decides. -/
theorem overflows_iff (consistent : record.consistent index = true) (usable : cached ≤ input) :
    record.Overflows ⟨input, cached, armed⟩ ↔ u64Max < record.inputTokens + input := by
  rw [consistent_iff] at consistent
  rcases consistent with ⟨_, _, _, tokens, _, armedTokens, disarmedTokens, inputs, caches⟩
  rw [checkedAdd_eq_some_iff] at inputs caches
  unfold Overflows
  constructor
  · rintro (beyond | beyond | ⟨_, beyond | beyond⟩ | ⟨_, beyond | beyond⟩) <;>
      simp only at beyond <;> omega
  · exact .inl

theorem addUsage_of_le (consistent : record.consistent index = true) (usable : cached ≤ input)
    (fits : record.inputTokens + input ≤ u64Max) :
    record.addUsage input cached armed = some (record.plus ⟨input, cached, armed⟩) := by
  rw [consistent_iff] at consistent
  rcases consistent with ⟨_, _, _, tokens, _, armedTokens, disarmedTokens, inputs, caches⟩
  rw [checkedAdd_eq_some_iff] at inputs caches
  have hits : checkedAdd record.cachedTokens cached = some (record.cachedTokens + cached) :=
    checkedAdd_eq_some (by omega)
  unfold addUsage
  rw [checkedAdd_eq_some fits, hits]
  cases armed with
  | true =>
      have total : checkedAdd record.armedInputTokens input =
          some (record.armedInputTokens + input) := checkedAdd_eq_some (by omega)
      have share : checkedAdd record.armedCachedTokens cached =
          some (record.armedCachedTokens + cached) := checkedAdd_eq_some (by omega)
      rw [total, share]
      rfl
  | false =>
      have total : checkedAdd record.disarmedInputTokens input =
          some (record.disarmedInputTokens + input) := checkedAdd_eq_some (by omega)
      have share : checkedAdd record.disarmedCachedTokens cached =
          some (record.disarmedCachedTokens + cached) := checkedAdd_eq_some (by omega)
      rw [total, share]
      rfl

theorem addUsage_of_lt (beyond : u64Max < record.inputTokens + input) :
    record.addUsage input cached armed = none := by
  unfold addUsage
  rw [checkedAdd_eq_none beyond]
  rfl

/-- A record whose calls are used up refuses the call and stays. -/
theorem observe_exhausted {input cached : Option Nat} (spent : u64Max ≤ record.calls) :
    record.observe input cached armed = (.error .exhausted, record) := by
  unfold observe
  rw [checkedAdd_eq_none (Nat.lt_succ_of_le spent)]

theorem observe_unusable {input cached : Option Nat} (left : record.calls < u64Max)
    (unusable : reported input cached = none) :
    record.observe input cached armed = (.ok (), record.called) := by
  unfold observe
  rw [checkedAdd_eq_some left, unusable]
  rfl

/-- A call with usable usage is counted, and the aggregate takes its usage. -/
theorem observe_measured {reports hits : Option Nat} (left : record.calls < u64Max)
    (room : record.measuredCalls + 1 ≤ u64Max) (usable : reported reports hits = some (input, cached)) :
    record.observe reports hits armed =
      if record.aggregateValid = false then (.ok (), record.measured) else
        match record.measured.addUsage input cached armed with
        | none => (.ok (), { record.measured with aggregateValid := false })
        | some staged => (.ok (), staged) := by
  unfold observe
  rw [checkedAdd_eq_some left, usable]
  simp only
  rw [checkedAdd_eq_some room]
  rfl

/-- A call with usable usage counts twice, and its usage counts while the
aggregate is valid and the totals have room for it. -/
theorem observe_usable (consistent : record.consistent index = true) {reports hits : Option Nat}
    (left : record.calls < u64Max) (usable : reported reports hits = some (input, cached)) :
    record.observe reports hits armed =
      (.ok (),
        if record.aggregateValid = true then
          if record.inputTokens + input ≤ u64Max then
            record.measured.plus ⟨input, cached, armed⟩
          else
            { record.measured with aggregateValid := false }
        else
          record.measured) := by
  have checked := consistent_iff.mp consistent
  have room : record.measuredCalls + 1 ≤ u64Max := by
    have := checked.2.2.2.2.1
    omega
  have kept : record.measured.consistent index = true := by
    rw [consistent_iff] at consistent ⊢
    rcases consistent with ⟨epoch, shaped, cuts, tokens, measuredCalls, rest⟩
    exact ⟨epoch, shaped, cuts, tokens, Nat.succ_le_succ measuredCalls, rest⟩
  have within : cached ≤ input := reported_le usable
  rw [observe_measured left room usable]
  by_cases valid : record.aggregateValid = true
  · rw [if_neg (by simp [valid]), if_pos valid]
    by_cases fits : record.inputTokens + input ≤ u64Max
    · rw [addUsage_of_le kept within fits, if_pos fits]
    · rw [@addUsage_of_lt record.measured _ _ _ (Nat.lt_of_not_le fits), if_neg fits]
  · rw [if_pos (by simpa using valid), if_neg valid]

end EpochRecord

/-- The first usage whose input fits into 64 bits together. -/
def counted (usage : List Usage) : List Usage :=
  within u64Max Usage.input 0 usage

/-- The record holds the sums over the usage of its calls, up to the first that
would overflow. -/
structure Sums (usage : List Usage) (record : EpochRecord) : Prop where
  measured : record.measuredCalls = usage.length
  input : record.inputTokens = ((counted usage).map Usage.input).sum
  cached : record.cachedTokens = ((counted usage).map Usage.cached).sum
  armedInput : record.armedInputTokens = tally Usage.armed Usage.input (counted usage)
  armedCached : record.armedCachedTokens = tally Usage.armed Usage.cached (counted usage)
  disarmedInput : record.disarmedInputTokens =
    tally (fun usage => !usage.armed) Usage.input (counted usage)
  disarmedCached : record.disarmedCachedTokens =
    tally (fun usage => !usage.armed) Usage.cached (counted usage)
  valid : record.aggregateValid = true ↔ counted usage = usage

section Recording

variable {record : EpochRecord} {usage : List Usage} {index : Nat} {added : Usage}

theorem Sums.of_new {epoch requests : Nat} {digest : String} :
    Sums [] (EpochRecord.new epoch digest requests) :=
  ⟨rfl, rfl, rfl, rfl, rfl, rfl, rfl, iff_of_true rfl rfl⟩

theorem Sums.of_cut {cut : CheckpointCut} {epoch : Nat} :
    Sums [] (EpochCache.cutRecord cut epoch) :=
  ⟨rfl, rfl, rfl, rfl, rfl, rfl, rfl, iff_of_true rfl rfl⟩

theorem Sums.called (sums : Sums usage record) : Sums usage record.called :=
  ⟨sums.measured, sums.input, sums.cached, sums.armedInput, sums.armedCached,
    sums.disarmedInput, sums.disarmedCached, sums.valid⟩

theorem counted_concat : counted (usage ++ [added]) =
    if counted usage = usage ∧ (usage.map Usage.input).sum + added.input ≤ u64Max then
      usage ++ [added]
    else
      counted usage := by
  rw [counted, within_concat, Nat.zero_add]
  rfl

/-- Usage that still fits is counted. -/
theorem Sums.plus (sums : Sums usage record) (valid : record.aggregateValid = true)
    (fits : record.inputTokens + added.input ≤ u64Max) :
    Sums (usage ++ [added]) (record.measured.plus added) := by
  have all := sums.valid.mp valid
  have joined : counted (usage ++ [added]) = usage ++ [added] := by
    rw [counted_concat, if_pos]
    rw [sums.input, all] at fits
    exact ⟨all, fits⟩
  rcases sums with ⟨measured, input, cached, armedInput, armedCached, disarmedInput,
    disarmedCached, _⟩
  rw [all] at input cached armedInput armedCached disarmedInput disarmedCached
  constructor
  case measured => rw [List.length_append]; exact congrArg (· + 1) measured
  case input => rw [joined, List.map_append, List.sum_append, ← input]; rfl
  case cached => rw [joined, List.map_append, List.sum_append, ← cached]; rfl
  case armedInput => rw [joined, tally_concat, ← armedInput]; rfl
  case armedCached => rw [joined, tally_concat, ← armedCached]; rfl
  case disarmedInput => rw [joined, tally_concat, ← disarmedInput]; rfl
  case disarmedCached => rw [joined, tally_concat, ← disarmedCached]; rfl
  case valid => exact iff_of_true valid joined

/-- Usage that comes too late is measured and not counted. -/
theorem Sums.skipped (sums : Sums usage record) {flag : Bool} (invalid : flag = false)
    (refused : record.aggregateValid = true → u64Max < record.inputTokens + added.input) :
    Sums (usage ++ [added]) { record.measured with aggregateValid := flag } := by
  have kept : counted (usage ++ [added]) = counted usage := by
    rw [counted_concat, if_neg]
    rintro ⟨all, fits⟩
    have beyond := refused (sums.valid.mpr all)
    rw [sums.input, all] at beyond
    exact Nat.not_le.mpr beyond fits
  have shorter : (counted (usage ++ [added])).length < (usage ++ [added]).length := by
    rw [kept, List.length_append]
    exact Nat.lt_succ_of_le within_prefix.length_le
  constructor
  case measured => rw [List.length_append]; exact congrArg (· + 1) sums.measured
  case input => rw [kept]; exact sums.input
  case cached => rw [kept]; exact sums.cached
  case armedInput => rw [kept]; exact sums.armedInput
  case armedCached => rw [kept]; exact sums.armedCached
  case disarmedInput => rw [kept]; exact sums.disarmedInput
  case disarmedCached => rw [kept]; exact sums.disarmedCached
  case valid =>
    constructor
    · exact fun isValid => absurd (invalid.symm.trans isValid) Bool.false_ne_true
    · exact fun all => absurd (congrArg List.length all) (Nat.ne_of_lt shorter)

theorem Sums.observe_usable (sums : Sums usage record)
    (consistent : record.consistent index = true) {reports hits : Option Nat}
    {input cached : Nat} {armed : Bool} (left : record.calls < u64Max)
    (usable : EpochRecord.reported reports hits = some (input, cached)) :
    Sums (usage ++ [⟨input, cached, armed⟩]) (record.observe reports hits armed).2 := by
  rw [EpochRecord.observe_usable consistent left usable]
  by_cases valid : record.aggregateValid = true
  · rw [if_pos valid]
    by_cases fits : record.inputTokens + input ≤ u64Max
    · rw [if_pos fits]
      exact sums.plus valid fits
    · rw [if_neg fits]
      exact sums.skipped rfl fun _ => Nat.lt_of_not_le fits
  · rw [if_neg valid]
    exact sums.skipped (Bool.not_eq_true _ ▸ valid) fun isValid => absurd isValid valid

end Recording

namespace EpochCache

variable {cache : EpochCache}

/-- In a valid cache an epoch is looked up at its position. -/
theorem Valid.find_epoch (valid : cache.Valid) (epoch : Nat) :
    cache.records.find? (isEpoch epoch) = cache.records[epoch]? ∧
      ∀ change, updateFirst (isEpoch epoch) change cache.records =
        cache.records.modify epoch change := by
  have numbered : ∀ index record, cache.records[index]? = some record →
      record.epoch = 0 + index := fun index record found =>
    ((consistent_iff.mp (valid index record found)).1).trans (Nat.zero_add index).symm
  have shifted : ∀ (records : List EpochRecord) (offset place : Nat),
      (∀ index record, records[index]? = some record → record.epoch = offset + index) →
      records.find? (isEpoch (offset + place)) = records[place]? ∧
        ∀ change, updateFirst (isEpoch (offset + place)) change records =
          records.modify place change := by
    intro records
    induction records with
    | nil => exact fun _ _ _ => ⟨rfl, fun change => (List.modify_nil change _).symm⟩
    | cons first records ih =>
        intro offset place numbered
        have head : first.epoch = offset := numbered 0 first rfl
        cases place with
        | zero =>
            have here : isEpoch (offset + 0) first = true := by simp [isEpoch, head]
            constructor
            · rw [List.find?_cons_of_pos here]
              rfl
            · intro change
              rw [updateFirst, if_pos here]
              rfl
        | succ place =>
            have elsewhere : ¬ isEpoch (offset + (place + 1)) first = true := by
              simp [isEpoch, head]
            have later : ∀ index record, records[index]? = some record →
                record.epoch = offset + 1 + index := by
              intro index record found
              have := numbered (index + 1) record found
              omega
            have rest := ih (offset + 1) place later
            rw [Nat.add_right_comm, Nat.add_assoc] at rest
            constructor
            · rw [List.find?_cons_of_neg elsewhere]
              exact rest.1
            · intro change
              rw [updateFirst, if_neg elsewhere, rest.2]
              rfl
  have here := shifted cache.records 0 epoch numbered
  rwa [Nat.zero_add] at here

/-- What an observation does to a valid cache. -/
theorem Valid.observe_eq (valid : cache.Valid) (epoch : Nat) (input cached : Option Nat)
    (armed : Bool) :
    cache.observe epoch input cached armed =
      match cache.records[epoch]? with
      | none => (.error .unknownEpoch, cache)
      | some record => ((record.observe input cached armed).1,
          ⟨cache.records.set epoch (record.observe input cached armed).2⟩) := by
  rcases valid.find_epoch epoch with ⟨looked, updated⟩
  rw [EpochCache.observe, looked]
  cases found : cache.records[epoch]? with
  | none => rfl
  | some record =>
      simp only [updated]
      rw [List.modify_eq_set_getElem?, found]
      rfl

theorem Valid.step {call : EpochCall} (valid : cache.Valid) (shaped : call.Shaped) :
    (cache.step call).Valid := by
  cases call with
  | start digest requests =>
      simp only [EpochCache.step]
      split
      · rename_i started
        exact valid.start shaped started
      · exact valid
  | cut opened =>
      simp only [EpochCache.step]
      split
      · rename_i done
        exact valid.cut shaped done
      · exact valid
  | observe epoch input cached armed => exact valid.observe

end EpochCache

/-- A cache with the usage that the calls of each epoch have reported. -/
structure Observed where
  cache : EpochCache
  usage : Nat → List Usage

namespace Observed

variable {observed : Observed}

/-- An accepted observation with usable usage is listed under its epoch. -/
def step (observed : Observed) (call : EpochCall) : Observed where
  cache := observed.cache.step call
  usage :=
    match call with
    | .observe epoch input cached armed =>
        match (observed.cache.observe epoch input cached armed).1,
          EpochRecord.reported input cached with
        | .ok (), some (input, cached) =>
            Function.update observed.usage epoch (observed.usage epoch ++ [⟨input, cached, armed⟩])
        | _, _ => observed.usage
    | _ => observed.usage

def empty : Observed :=
  ⟨.empty, fun _ => []⟩

/-- Every record passes the check and sums its usage, and no other epoch has any. -/
structure Exact (observed : Observed) : Prop where
  valid : observed.cache.Valid
  sums : ∀ epoch record, observed.cache.records[epoch]? = some record →
    Sums (observed.usage epoch) record
  none : ∀ epoch, observed.cache.records[epoch]? = none → observed.usage epoch = []

theorem exact_empty : Exact empty where
  valid _ _ found := by cases found
  sums _ _ found := by cases found
  none _ _ := rfl

/-- A new epoch has no usage yet. -/
theorem Exact.grow (exact : observed.Exact) {record : EpochRecord}
    (valid : (⟨observed.cache.records ++ [record]⟩ : EpochCache).Valid) (sums : Sums [] record) :
    Exact ⟨⟨observed.cache.records ++ [record]⟩, observed.usage⟩ where
  valid := valid
  sums := by
    intro epoch other found
    rw [List.getElem?_append] at found
    split at found
    · exact exact.sums epoch other found
    · rename_i beyond
      have unused := exact.none epoch (List.getElem?_eq_none (Nat.le_of_not_lt beyond))
      rw [List.getElem?_singleton] at found
      split at found
      · cases found
        rw [unused]
        exact sums
      · cases found
  none := by
    intro epoch missing
    apply exact.none epoch
    rw [List.getElem?_eq_none_iff] at missing ⊢
    rw [List.length_append] at missing
    exact Nat.le_of_succ_le missing

/-- The record of an epoch changes with its usage. -/
theorem Exact.set (exact : observed.Exact) {epoch : Nat} {before after : EpochRecord}
    {usage : List Usage} (found : observed.cache.records[epoch]? = some before)
    (valid : (⟨observed.cache.records.set epoch after⟩ : EpochCache).Valid)
    (sums : Sums usage after) :
    Exact ⟨⟨observed.cache.records.set epoch after⟩,
      Function.update observed.usage epoch usage⟩ where
  valid := valid
  sums := by
    intro other record held
    change Sums (Function.update observed.usage epoch usage other) record
    rw [List.getElem?_set] at held
    by_cases same : epoch = other
    · subst same
      rw [Function.update_self]
      rw [if_pos rfl] at held
      split at held
      · cases held
        exact sums
      · cases held
    · rw [Function.update_of_ne (Ne.symm same)]
      rw [if_neg same] at held
      exact exact.sums other record held
  none := by
    intro other missing
    change Function.update observed.usage epoch usage other = []
    have inside := (List.getElem?_eq_some_iff.mp found).1
    rw [List.getElem?_eq_none_iff, List.length_set] at missing
    rw [Function.update_of_ne (by omega)]
    exact exact.none other (List.getElem?_eq_none missing)

theorem Exact.setSame (exact : observed.Exact) {epoch : Nat} {before after : EpochRecord}
    (found : observed.cache.records[epoch]? = some before)
    (valid : (⟨observed.cache.records.set epoch after⟩ : EpochCache).Valid)
    (sums : Sums (observed.usage epoch) after) :
    Exact ⟨⟨observed.cache.records.set epoch after⟩, observed.usage⟩ := by
  have same := exact.set found valid sums
  rwa [Function.update_eq_self] at same

/-- Every call keeps the sums. -/
theorem Exact.step (exact : observed.Exact) {call : EpochCall} (shaped : call.Shaped) :
    (observed.step call).Exact := by
  have valid := exact.valid.step shaped
  cases call with
  | start digest requests =>
      simp only [Observed.step, EpochCache.step] at valid ⊢
      split
      · rename_i epoch grown started
        rw [started] at valid
        rcases EpochCache.start_epoch exact.valid started with ⟨rfl, rfl⟩
        exact exact.grow valid Sums.of_new
      · exact exact
  | cut opened =>
      simp only [Observed.step, EpochCache.step] at valid ⊢
      split
      · rename_i epoch grown done
        rw [done] at valid
        rcases EpochCache.cut_epoch exact.valid done with ⟨rfl, rfl⟩
        exact exact.grow valid Sums.of_cut
      · exact exact
  | observe epoch reports hits armed =>
      have seen := exact.valid.observe_eq epoch reports hits armed
      simp only [Observed.step, EpochCache.step] at valid ⊢
      rw [seen] at valid ⊢
      cases found : observed.cache.records[epoch]? with
      | none => exact exact
      | some record =>
          rw [found] at valid
          simp only at valid ⊢
          have consistent := exact.valid epoch record found
          have sums := exact.sums epoch record found
          by_cases left : record.calls < u64Max
          · cases usable : EpochRecord.reported reports hits with
            | none =>
                rw [EpochRecord.observe_unusable left usable] at valid ⊢
                exact exact.setSame found valid sums.called
            | some report =>
                rcases report with ⟨input, cached⟩
                have accepted : (record.observe reports hits armed).1 = .ok () := by
                  rw [EpochRecord.observe_usable consistent left usable]
                rw [accepted]
                exact exact.set found valid (sums.observe_usable consistent left usable)
          · rw [EpochRecord.observe_exhausted (Nat.le_of_not_lt left)] at valid ⊢
            exact exact.setSame found valid sums

/-- Beside every cache of a run stands the usage of its epochs. -/
theorem cache_run {calls : List EpochCall} :
    (run Observed.step .empty calls).cache = run EpochCache.step .empty calls := by
  induction calls using List.reverseRecOn with
  | nil => rfl
  | append_singleton calls call ih =>
      rw [run_concat, run_concat, ← ih]
      rfl

theorem exact_run {calls : List EpochCall} (shaped : ∀ call ∈ calls, call.Shaped) :
    (run Observed.step .empty calls).Exact := by
  induction calls using List.reverseRecOn with
  | nil => exact exact_empty
  | append_singleton calls call ih =>
      rw [run_concat]
      have before := ih fun other member => shaped other (List.mem_append_left _ member)
      exact before.step (shaped call (List.mem_append_right _ List.mem_cons_self))

/-- Every cache that calls with well-shaped digests lead to passes its check.  The
totals of its records are the sums over the first reported usage that fits, and an
observation that would overflow a total counts as a call and only clears the flag. -/
theorem validate_and_sums_of_run {calls : List EpochCall} (shaped : ∀ call ∈ calls, call.Shaped) :
    let cache := run EpochCache.step .empty calls
    cache.validate = .ok () ∧
      ∀ epoch record, cache.records[epoch]? = some record →
        Sums ((run Observed.step .empty calls).usage epoch) record ∧
        ∀ input cached armed, cached ≤ input → record.aggregateValid = true →
          record.Overflows ⟨input, cached, armed⟩ →
          cache.observe epoch (some input) (some cached) armed =
            if record.calls < u64Max then
              (.ok (), ⟨cache.records.set epoch
                { record with
                  calls := record.calls + 1
                  measuredCalls := record.measuredCalls + 1
                  aggregateValid := false }⟩)
            else
              (.error .exhausted, cache) := by
  have exact := exact_run shaped
  rcases exact with ⟨valid, sums, _⟩
  rw [cache_run] at valid sums
  refine ⟨EpochCache.validate_eq_ok_iff.mpr valid, ?_⟩
  intro epoch record found
  refine ⟨sums epoch record found, ?_⟩
  intro input cached armed usable isValid overflows
  have consistent := valid epoch record found
  have beyond := (EpochRecord.overflows_iff consistent usable).mp overflows
  have reports : EpochRecord.reported (some input) (some cached) = some (input, cached) :=
    if_pos usable
  rw [valid.observe_eq, found]
  simp only
  by_cases left : record.calls < u64Max
  · rw [EpochRecord.observe_usable consistent left reports, if_pos isValid,
      if_neg (Nat.not_le.mpr beyond), if_pos left]
    rfl
  · rw [EpochRecord.observe_exhausted (Nat.le_of_not_lt left), if_neg left]
    have same : (run EpochCache.step .empty calls).records.set epoch record =
        (run EpochCache.step .empty calls).records := by
      rcases List.getElem?_eq_some_iff.mp found with ⟨bound, rfl⟩
      exact List.set_getElem_self bound
    rw [same]

/-- An epoch of two calls, the second of which overflows the input total. -/
def sampleCalls : List EpochCall :=
  [.start ("".pushn '0' 64) 1, .observe 0 (some 5) (some 2) true,
    .observe 0 (some u64Max) (some 0) false]

theorem validate_and_sums_sampleCalls :
    (run EpochCache.step .empty sampleCalls).validate = .ok () ∧
      ∃ record, (run EpochCache.step .empty sampleCalls).records[0]? = some record ∧
        Sums [⟨5, 2, true⟩, ⟨u64Max, 0, false⟩] record ∧ record.inputTokens = 5 := by
  have shaped : ∀ call ∈ sampleCalls, call.Shaped := by
    intro call member
    simp only [sampleCalls, List.mem_cons, List.not_mem_nil, or_false] at member
    rcases member with rfl | rfl | rfl
    · change EpochRecord.digestShaped _ = true
      decide +kernel
    · trivial
    · trivial
  rcases validate_and_sums_of_run shaped with ⟨validated, sums⟩
  exact ⟨validated, _, rfl, (sums 0 _ rfl).1, rfl⟩

end Observed

end Llxprt.Policy
