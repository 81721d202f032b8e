import Llxprt.Kernel.Ranges
import Llxprt.Rust.Tiling
import Mathlib.Order.Interval.Finset.Nat

/-!
# The bytes of a range

The set of bytes that a range of machine integers denotes, and what merging and
slicing do to it as long as no end wraps.
-/

namespace Llxprt.Kernel

open Llxprt.Rust.Tiling

namespace StoreRange

/-- The bytes of the range. -/
def bytes (range : StoreRange) : Finset Nat :=
  Finset.Ico range.offset.toNat (range.offset.toNat + range.length.toNat)

/-- The end of the range is a machine integer. -/
def Fits (range : StoreRange) : Prop :=
  range.offset.toNat + range.length.toNat < 2 ^ 64

instance : DecidablePred Fits :=
  fun _ => Nat.decLt _ _

variable {range last : StoreRange}

@[simp]
theorem card_bytes (range : StoreRange) : range.bytes.card = range.length.toNat := by
  simp [bytes]

theorem mem_bytes {byte : Nat} :
    byte ∈ range.bytes ↔
      range.offset.toNat ≤ byte ∧ byte < range.offset.toNat + range.length.toNat :=
  Finset.mem_Ico

theorem endOffset_toNat (fits : range.Fits) :
    range.endOffset.toNat = range.offset.toNat + range.length.toNat := by
  rw [endOffset, UInt64.toNat_add]
  exact Nat.mod_eq_of_lt fits

/-- Extending by a range that touches from above joins the bytes. -/
theorem extend_spec (lastFits : last.Fits) (rangeFits : range.Fits)
    (after : last.offset ≤ range.offset) (touches : range.offset ≤ last.endOffset) :
    (last.extend range).offset = last.offset ∧ (last.extend range).Fits ∧
      (last.extend range).bytes = last.bytes ∪ range.bytes ∧
      last.length ≤ (last.extend range).length := by
  have lastEnd := endOffset_toNat lastFits
  have rangeEnd := endOffset_toNat rangeFits
  rw [UInt64.le_iff_toNat_le] at after touches
  unfold extend
  by_cases further : last.endOffset < range.endOffset
  · have grows := UInt64.lt_iff_toNat_lt.mp further
    have within : last.offset ≤ range.endOffset := by
      rw [UInt64.le_iff_toNat_le]
      omega
    have length : (range.endOffset - last.offset).toNat =
        range.endOffset.toNat - last.offset.toNat := UInt64.toNat_sub_of_le _ _ within
    rw [if_pos further]
    refine ⟨rfl, ?_, ?_, ?_⟩
    · unfold Fits at rangeFits ⊢
      simp only [length]
      omega
    · ext byte
      rw [Finset.mem_union, mem_bytes, mem_bytes, mem_bytes]
      simp only [length]
      omega
    · rw [UInt64.le_iff_toNat_le, length]
      omega
  · have shorter : range.endOffset.toNat ≤ last.endOffset.toNat :=
      UInt64.le_iff_toNat_le.mp (UInt64.not_lt.mp further)
    rw [if_neg further]
    refine ⟨rfl, lastFits, ?_, UInt64.le_refl _⟩
    ext byte
    rw [Finset.mem_union, mem_bytes, mem_bytes]
    omega

end StoreRange

section Merging

/-- Every range of the list is non-empty and does not wrap. -/
def Proper (ranges : List StoreRange) : Prop :=
  ∀ range ∈ ranges, 0 < range.length ∧ range.Fits

/-- Ordered by offset. -/
def Ascending (ranges : List StoreRange) : Prop :=
  ranges.Pairwise fun earlier later => earlier.offset ≤ later.offset

/-- A byte of one of the ranges. -/
def Covers (ranges : List StoreRange) (byte : Nat) : Prop :=
  ∃ range ∈ ranges, byte ∈ range.bytes

/-- The ranges are apart from each other, in order. -/
def Apart (ranges : List StoreRange) : Prop :=
  ranges.Pairwise fun earlier later => earlier.endOffset < later.offset

theorem covers_cons {range : StoreRange} {ranges : List StoreRange} {byte : Nat} :
    Covers (range :: ranges) byte ↔ byte ∈ range.bytes ∨ Covers ranges byte := by
  simp [Covers]

/-- What the merge loop produces from sorted ranges. -/
theorem mergeFrom_spec {last : StoreRange} {rest : List StoreRange}
    (proper : Proper (last :: rest)) (ascending : Ascending (last :: rest)) :
    Proper (mergeFrom last rest) ∧ Apart (mergeFrom last rest) ∧
      (∀ range ∈ mergeFrom last rest, last.offset ≤ range.offset) ∧
      ∀ byte, Covers (mergeFrom last rest) byte ↔ Covers (last :: rest) byte := by
  induction rest generalizing last with
  | nil =>
      refine ⟨proper, List.pairwise_singleton _ _, ?_, fun _ => Iff.rfl⟩
      intro range member
      rw [List.mem_singleton.mp member]
      exact UInt64.le_refl _
  | cons range rest ih =>
      unfold Proper at proper
      rw [List.forall_mem_cons, List.forall_mem_cons] at proper
      rcases proper with ⟨⟨lastPositive, lastFits⟩, ⟨rangePositive, rangeFits⟩, restProper⟩
      unfold Ascending at ascending
      rw [List.pairwise_cons] at ascending
      rcases ascending with ⟨above, restAscending⟩
      rw [List.forall_mem_cons] at above
      unfold mergeFrom
      by_cases touches : range.offset ≤ last.endOffset
      · rw [if_pos touches]
        rcases StoreRange.extend_spec lastFits rangeFits above.1 touches with
          ⟨sameOffset, fits, joined, longer⟩
        have merged := @ih (last.extend range)
          (List.forall_mem_cons.mpr ⟨⟨UInt64.lt_of_lt_of_le lastPositive longer, fits⟩, restProper⟩)
          (List.pairwise_cons.mpr ⟨sameOffset ▸ above.2, restAscending.of_cons⟩)
        refine ⟨merged.1, merged.2.1, sameOffset ▸ merged.2.2.1, ?_⟩
        intro byte
        rw [merged.2.2.2 byte, covers_cons, covers_cons, covers_cons, joined, Finset.mem_union,
          or_assoc]
      · rw [if_neg touches]
        have beyond : last.endOffset < range.offset := UInt64.not_le.mp touches
        have merged := @ih range
          (List.forall_mem_cons.mpr ⟨⟨rangePositive, rangeFits⟩, restProper⟩) restAscending
        refine ⟨?_, ?_, ?_, ?_⟩
        · exact List.forall_mem_cons.mpr ⟨⟨lastPositive, lastFits⟩, merged.1⟩
        · apply List.pairwise_cons.mpr
          exact ⟨fun other member => UInt64.lt_of_lt_of_le beyond (merged.2.2.1 other member),
            merged.2.1⟩
        · rw [List.forall_mem_cons]
          exact ⟨UInt64.le_refl _, fun other member =>
            UInt64.le_trans above.1 (merged.2.2.1 other member)⟩
        · intro byte
          rw [covers_cons, merged.2.2.2 byte, covers_cons, covers_cons, covers_cons]

theorem sortedBefore_total (left right : StoreRange) :
    left.sortedBefore right ∨ right.sortedBefore left := by
  unfold StoreRange.sortedBefore
  simp only [UInt64.lt_iff_toNat_lt, UInt64.le_iff_toNat_le, ← UInt64.toNat_inj]
  omega

theorem sortedBefore_trans {first second third : StoreRange} (before : first.sortedBefore second)
    (after : second.sortedBefore third) : first.sortedBefore third := by
  unfold StoreRange.sortedBefore at before after ⊢
  simp only [UInt64.lt_iff_toNat_lt, UInt64.le_iff_toNat_le, ← UInt64.toNat_inj] at before after ⊢
  omega

theorem sortedBefore_offset {left right : StoreRange} (before : left.sortedBefore right) :
    left.offset ≤ right.offset := by
  rcases before with earlier | ⟨same, _⟩
  · exact UInt64.le_of_lt earlier
  · exact UInt64.le_of_eq same

instance : Std.Total StoreRange.sortedBefore :=
  ⟨sortedBefore_total⟩

instance : IsTrans StoreRange StoreRange.sortedBefore :=
  ⟨fun _ _ _ => sortedBefore_trans⟩

/-- Normalization keeps the bytes and separates the ranges. -/
theorem normalize_spec {ranges : List StoreRange}
    (fits : ∀ range ∈ ranges, 0 < range.length → range.Fits) :
    Proper (normalize ranges) ∧ Apart (normalize ranges) ∧
      ∀ byte, Covers (normalize ranges) byte ↔ Covers ranges byte := by
  let filled := ranges.filter fun range => 0 < range.length
  let sorted := filled.insertionSort StoreRange.sortedBefore
  have perm : sorted.Perm filled := List.perm_insertionSort _ _
  have proper : Proper sorted := by
    intro range member
    rcases List.mem_filter.mp (perm.mem_iff.mp member) with ⟨inRanges, positive⟩
    exact ⟨of_decide_eq_true positive, fits range inRanges (of_decide_eq_true positive)⟩
  have ascending : Ascending sorted :=
    (List.pairwise_insertionSort StoreRange.sortedBefore filled).imp sortedBefore_offset
  have same : ∀ byte, Covers sorted byte ↔ Covers ranges byte := by
    intro byte
    constructor
    · rintro ⟨range, member, inRange⟩
      exact ⟨range, List.mem_of_mem_filter (perm.mem_iff.mp member), inRange⟩
    · rintro ⟨range, member, inRange⟩
      have positive : 0 < range.length := by
        rw [StoreRange.mem_bytes] at inRange
        rw [UInt64.lt_iff_toNat_lt, UInt64.toNat_zero]
        omega
      exact ⟨range, perm.mem_iff.mpr (List.mem_filter.mpr ⟨member, decide_eq_true positive⟩),
        inRange⟩
  change Proper (mergeSorted sorted) ∧ Apart (mergeSorted sorted) ∧
    ∀ byte, Covers (mergeSorted sorted) byte ↔ Covers ranges byte
  cases shape : sorted with
  | nil =>
      refine ⟨by simp [mergeSorted, Proper], List.Pairwise.nil, ?_⟩
      intro byte
      rw [← same byte, shape]
      rfl
  | cons first rest =>
      rw [shape] at proper ascending
      have merged := mergeFrom_spec proper ascending
      refine ⟨merged.1, merged.2.1, ?_⟩
      intro byte
      rw [← same byte, shape]
      exact merged.2.2.2 byte

/-- Ranges that are apart share no byte. -/
theorem hits_le_one_of_apart {ranges : List StoreRange} (proper : Proper ranges)
    (apart : Apart ranges) (byte : Nat) : hits (ranges.map StoreRange.bytes) byte ≤ 1 := by
  revert byte
  rw [hits_le_one_iff, List.pairwise_map]
  refine apart.imp_of_mem ?_
  intro earlier later earlierMember _ before
  rw [Finset.disjoint_left]
  intro byte inEarlier inLater
  rw [StoreRange.mem_bytes] at inEarlier inLater
  rw [UInt64.lt_iff_toNat_lt, StoreRange.endOffset_toNat (proper earlier earlierMember).2] at before
  omega

end Merging

section Bounds

theorem uint64_max_eq_left {left right : UInt64} (h : right ≤ left) : max left right = left := by
  change (if left ≤ right then right else left) = left
  split
  · rename_i above
    exact UInt64.le_antisymm h above
  · rfl

variable {range : StoreRange} {ranges : List StoreRange} {bound : UInt64}

/-- A non-empty range whose bytes stay below a machine integer does not wrap. -/
theorem fits_of_bytes_lt (positive : 0 < range.length)
    (below : ∀ byte ∈ range.bytes, byte < bound.toNat) :
    range.Fits ∧ range.endOffset ≤ bound := by
  rw [UInt64.lt_iff_toNat_lt, UInt64.toNat_zero] at positive
  have last := below (range.offset.toNat + range.length.toNat - 1)
    (StoreRange.mem_bytes.mpr ⟨by omega, by omega⟩)
  have boundLt := bound.toNat_lt
  have fits : range.Fits := by
    unfold StoreRange.Fits
    omega
  refine ⟨fits, ?_⟩
  rw [UInt64.le_iff_toNat_le, StoreRange.endOffset_toNat fits]
  omega

/-- The enclosing range ends where the last of the merged ranges does. -/
theorem enclosing_endOffset_le (bounded : ∀ range ∈ normalize ranges, range.endOffset ≤ bound) :
    (enclosing ranges).endOffset ≤ bound := by
  have lastLe (rest : List StoreRange) (last : UInt64) (lastBound : last ≤ bound)
      (restBound : ∀ range ∈ rest, range.endOffset ≤ bound) :
      rest.foldl (fun last range => if last < range.endOffset then range.endOffset else last) last ≤
        bound := by
    induction rest generalizing last with
    | nil => exact lastBound
    | cons range rest ih =>
        rw [List.forall_mem_cons] at restBound
        rw [List.foldl_cons]
        apply ih _ _ restBound.2
        split
        · exact restBound.1
        · exact lastBound
  unfold enclosing
  cases normalized : normalize ranges with
  | nil =>
      rw [UInt64.le_iff_toNat_le]
      exact Nat.zero_le _
  | cons first rest =>
      rw [normalized, List.forall_mem_cons] at bounded
      have ends := lastLe rest first.endOffset bounded.1 bounded.2
      simp only [StoreRange.endOffset]
      rw [UInt64.add_comm, UInt64.sub_add_cancel]
      exact ends

/-- The sum of the lengths when it does not wrap. -/
theorem totalUnits_toNat (fits : (ranges.map fun range => range.length.toNat).sum < 2 ^ 64) :
    (totalUnits ranges).toNat = (ranges.map fun range => range.length.toNat).sum := by
  induction ranges with
  | nil => rfl
  | cons range ranges ih =>
      rw [List.map_cons, List.sum_cons] at fits ⊢
      have rest := ih (by omega)
      rw [totalUnits, List.foldr_cons, ← totalUnits, UInt64.toNat_add, rest]
      exact Nat.mod_eq_of_lt fits

/-- Spans that cover a payload exactly tile it. -/
theorem tiles_of_coversExactly {length : UInt64} (fits : ∀ range ∈ ranges, range.Fits)
    (sum : (ranges.map fun range => range.length.toNat).sum < 2 ^ 64)
    (covers : coversExactly ranges [⟨0, length⟩] = true) :
    Tiles (ranges.map StoreRange.bytes) (Finset.range length.toNat) := by
  have payloadFits : ∀ range ∈ [(⟨0, length⟩ : StoreRange)], 0 < range.length → range.Fits := by
    intro range member _
    rw [List.mem_singleton.mp member]
    simpa [StoreRange.Fits] using length.toNat_lt
  rw [coversExactly, Bool.and_eq_true, decide_eq_true_eq, decide_eq_true_eq] at covers
  have payloadUnits : coveredUnits [⟨0, length⟩] = length := by
    by_cases positive : 0 < length
    · simp [coveredUnits, normalize, positive, mergeSorted, mergeFrom, totalUnits]
    · have empty : length = 0 := by
        rw [UInt64.lt_iff_toNat_lt, UInt64.toNat_zero] at positive
        exact UInt64.toNat_inj.mp (by simpa using positive)
      simp [coveredUnits, normalize, empty, mergeSorted, totalUnits]
  apply tiles_of_card
  · intro byte
    have same := (normalize_spec payloadFits).2.2 byte
    rw [← covers.2, (normalize_spec fun range member _ => fits range member).2.2 byte] at same
    simpa [Covers, StoreRange.bytes] using same.symm
  · rw [List.map_map, Finset.card_range, ← payloadUnits, ← covers.1, totalUnits_toNat sum]
    congr 1
    exact List.map_congr_left fun range _ => StoreRange.card_bytes range

end Bounds

section Slicing

/-- The bytes left when the first range has already lost `consumed` bytes. -/
def remaining (consumed : UInt64) : List StoreRange → List (Finset Nat)
  | [] => []
  | current :: rest =>
      Finset.Ico (current.offset.toNat + consumed.toNat)
        (current.offset.toNat + current.length.toNat) :: rest.map StoreRange.bytes

/-- The ranges do not wrap and the first one has lost no more than it had. -/
def Consumable (consumed : UInt64) (ranges : List StoreRange) : Prop :=
  (∀ range ∈ ranges, range.Fits) ∧ ∀ first ∈ ranges.head?, consumed ≤ first.length

theorem remaining_zero (ranges : List StoreRange) :
    remaining 0 ranges = ranges.map StoreRange.bytes := by
  cases ranges <;> simp [remaining, StoreRange.bytes]

theorem consumable_zero {ranges : List StoreRange} (fits : ∀ range ∈ ranges, range.Fits) :
    Consumable 0 ranges := by
  refine ⟨fits, ?_⟩
  intro first _
  rw [UInt64.le_iff_toNat_le]
  exact Nat.zero_le _

/-- Cutting an interval in two keeps its points. -/
theorem hits_cut {start middle stop byte : Nat} (first : start ≤ middle) (second : middle ≤ stop) :
    (if byte ∈ Finset.Ico start middle then 1 else 0) +
        (if byte ∈ Finset.Ico middle stop then 1 else 0) =
      if byte ∈ Finset.Ico start stop then 1 else 0 := by
  simp only [Finset.mem_Ico]
  split_ifs <;> omega

/-- The bytes taken from the current range in one turn. -/
def takenFrom (current : StoreRange) (target consumed : UInt64) : UInt64 :=
  if current.length - consumed ≤ target then current.length - consumed else target

theorem takePiece_cons {target consumed : UInt64} {current : StoreRange} {rest : List StoreRange}
    (more : target ≠ 0) :
    takePiece target consumed (current :: rest) =
      if consumed + takenFrom current target consumed = current.length then
        (⟨current.offset + consumed, takenFrom current target consumed⟩ ::
            (takePiece (target - takenFrom current target consumed) 0 rest).1,
          (takePiece (target - takenFrom current target consumed) 0 rest).2)
      else
        ([⟨current.offset + consumed, takenFrom current target consumed⟩],
          consumed + takenFrom current target consumed, current :: rest) := by
  rw [takePiece, if_neg more]
  rfl

/-- The slice of one turn, in natural numbers. -/
theorem takenFrom_spec {current : StoreRange} {target consumed : UInt64} (fits : current.Fits)
    (within : consumed ≤ current.length) :
    (consumed + takenFrom current target consumed).toNat =
        consumed.toNat + (takenFrom current target consumed).toNat ∧
      consumed.toNat + (takenFrom current target consumed).toNat ≤ current.length.toNat ∧
      StoreRange.bytes ⟨current.offset + consumed, takenFrom current target consumed⟩ =
        Finset.Ico (current.offset.toNat + consumed.toNat)
          (current.offset.toNat + (consumed.toNat + (takenFrom current target consumed).toNat)) := by
  have withinNat := UInt64.le_iff_toNat_le.mp within
  have available : (current.length - consumed).toNat =
      current.length.toNat - consumed.toNat := UInt64.toNat_sub_of_le _ _ within
  have taken : (takenFrom current target consumed).toNat ≤
      current.length.toNat - consumed.toNat := by
    unfold takenFrom
    split
    · exact Nat.le_of_eq available
    · rename_i exceeds
      have under := UInt64.lt_iff_toNat_lt.mp (UInt64.not_le.mp exceeds)
      omega
  have bound := current.length.toNat_lt
  unfold StoreRange.Fits at fits
  refine ⟨?_, by omega, ?_⟩
  · rw [UInt64.toNat_add]
    apply Nat.mod_eq_of_lt
    omega
  · have start : (current.offset + consumed).toNat = current.offset.toNat + consumed.toNat := by
      rw [UInt64.toNat_add]
      apply Nat.mod_eq_of_lt
      omega
    simp only [StoreRange.bytes, start, Nat.add_assoc]

/-- A piece and what is left after it make up what was left before. -/
theorem takePiece_hits {target consumed : UInt64} {ranges : List StoreRange}
    (consumable : Consumable consumed ranges) :
    Consumable (takePiece target consumed ranges).2.1 (takePiece target consumed ranges).2.2 ∧
      ∀ byte, hits ((takePiece target consumed ranges).1.map StoreRange.bytes) byte +
        hits (remaining (takePiece target consumed ranges).2.1
          (takePiece target consumed ranges).2.2) byte =
        hits (remaining consumed ranges) byte := by
  induction ranges generalizing target consumed with
  | nil => exact ⟨consumable, fun byte => by simp [takePiece, remaining]⟩
  | cons current rest ih =>
      by_cases done : target = 0
      · rw [takePiece, if_pos done]
        exact ⟨consumable, fun byte => by simp⟩
      · rcases consumable with ⟨fits, within⟩
        rw [List.forall_mem_cons] at fits
        rcases @takenFrom_spec current target consumed fits.1 (within current rfl) with
          ⟨advanced, bounded, slice⟩
        rw [takePiece_cons done]
        by_cases exhausted : consumed + takenFrom current target consumed = current.length
        · rw [if_pos exhausted]
          have next := @ih (target - takenFrom current target consumed) 0 (consumable_zero fits.2)
          refine ⟨next.1, ?_⟩
          intro byte
          have whole : consumed.toNat + (takenFrom current target consumed).toNat =
              current.length.toNat := by
            rw [← advanced, exhausted]
          rw [List.map_cons, hits_cons, slice, whole, Nat.add_assoc, next.2 byte, remaining_zero,
            remaining, hits_cons]
        · rw [if_neg exhausted]
          constructor
          · refine ⟨List.forall_mem_cons.mpr fits, ?_⟩
            rintro _ ⟨⟩
            rw [UInt64.le_iff_toNat_le, advanced]
            exact bounded
          · intro byte
            simp only [List.map_cons, List.map_nil, remaining, hits_cons, hits_nil, Nat.add_zero]
            rw [slice, advanced, ← Nat.add_assoc, hits_cut]
            · exact Nat.add_le_add_left (Nat.le_add_right _ _) _
            · exact Nat.add_le_add_left bounded _

theorem takePieces_hits {base extra consumed : UInt64} {parts part : Nat}
    {ranges : List StoreRange} (consumable : Consumable consumed ranges) (byte : Nat) :
    hits ((takePieces base extra parts part consumed ranges).flatten.map StoreRange.bytes) byte ≤
      hits (remaining consumed ranges) byte := by
  induction parts generalizing part consumed ranges with
  | zero => simp [takePieces]
  | succ parts ih =>
      let target := if part < extra.toNat then base + 1 else base
      have piece := @takePiece_hits target consumed ranges consumable
      have rest := @ih (takePiece target consumed ranges).2.1 (part + 1)
        (takePiece target consumed ranges).2.2 piece.1
      have unfolded : takePieces base extra (parts + 1) part consumed ranges =
          (takePiece target consumed ranges).1 :: takePieces base extra parts (part + 1)
            (takePiece target consumed ranges).2.1 (takePiece target consumed ranges).2.2 := rfl
      rw [unfolded, List.flatten_cons, List.map_append, hits_append, ← piece.2 byte]
      exact Nat.add_le_add_left rest _

/-- Slices lie inside the ranges they are cut from, without overlap. -/
theorem sliceInto_hits {ranges : List StoreRange} (fits : ∀ range ∈ ranges, range.Fits)
    (parts : UInt64) (byte : Nat) :
    hits ((sliceInto ranges parts).flatten.map StoreRange.bytes) byte ≤
      hits (ranges.map StoreRange.bytes) byte := by
  unfold sliceInto
  split
  · simp
  · rw [← remaining_zero ranges]
    exact takePieces_hits (consumable_zero fits) byte

end Slicing

end Llxprt.Kernel
