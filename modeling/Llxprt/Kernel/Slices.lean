import Llxprt.Kernel.Covers

/-!
# Normal forms and their slices

Ranges that are apart are determined by the bytes they cover, so a normal form
does not depend on the order of the ranges it was made from.  Slicing cuts the
sequence of its bytes into pieces one after another.
-/

namespace Llxprt.Kernel

section Uniqueness

variable {first range : StoreRange} {rest left right ranges : List StoreRange} {byte : Nat}

theorem offset_le_of_covers (proper : Proper (first :: rest)) (apart : Apart (first :: rest))
    (covered : Covers (first :: rest) byte) : first.offset.toNat ≤ byte := by
  rcases covers_cons.mp covered with inFirst | ⟨range, member, inside⟩
  · exact (StoreRange.mem_bytes.mp inFirst).1
  · have before := (List.pairwise_cons.mp apart).1 range member
    rw [UInt64.lt_iff_toNat_lt,
      StoreRange.endOffset_toNat (proper first List.mem_cons_self).2] at before
    have start := (StoreRange.mem_bytes.mp inside).1
    omega

/-- The bytes of the later ranges lie beyond the end of the first one. -/
theorem covers_tail (proper : Proper (first :: rest)) (apart : Apart (first :: rest)) :
    Covers rest byte ↔
      Covers (first :: rest) byte ∧ first.offset.toNat + first.length.toNat < byte := by
  constructor
  · rintro ⟨range, member, inside⟩
    constructor
    · exact covers_cons.mpr (Or.inr ⟨range, member, inside⟩)
    · have before := (List.pairwise_cons.mp apart).1 range member
      rw [UInt64.lt_iff_toNat_lt,
        StoreRange.endOffset_toNat (proper first List.mem_cons_self).2] at before
      have start := (StoreRange.mem_bytes.mp inside).1
      omega
  · rintro ⟨covered, beyond⟩
    rcases covers_cons.mp covered with inFirst | later
    · have stop := (StoreRange.mem_bytes.mp inFirst).2
      omega
    · exact later

theorem not_covers_end (proper : Proper (first :: rest)) (apart : Apart (first :: rest)) :
    ¬ Covers (first :: rest) (first.offset.toNat + first.length.toNat) := by
  intro covered
  rcases covers_cons.mp covered with inFirst | later
  · exact Nat.lt_irrefl _ (StoreRange.mem_bytes.mp inFirst).2
  · exact Nat.lt_irrefl _ ((covers_tail proper apart).mp later).2

theorem covers_offset (proper : Proper (first :: rest)) :
    Covers (first :: rest) first.offset.toNat := by
  have positive := UInt64.lt_iff_toNat_lt.mp (proper first List.mem_cons_self).1
  rw [UInt64.toNat_zero] at positive
  exact covers_cons.mpr (Or.inl (StoreRange.mem_bytes.mpr ⟨Nat.le_refl _, by omega⟩))

/-- Ranges that are apart are determined by their bytes. -/
theorem eq_of_covers (leftProper : Proper left) (leftApart : Apart left)
    (rightProper : Proper right) (rightApart : Apart right)
    (same : ∀ byte, Covers left byte ↔ Covers right byte) : left = right := by
  induction left generalizing right with
  | nil =>
      cases right with
      | nil => rfl
      | cons second others =>
          rcases (same _).mpr (covers_offset rightProper) with ⟨range, member, -⟩
          cases member
  | cons first rest ih =>
      cases right with
      | nil =>
          rcases (same _).mp (covers_offset leftProper) with ⟨range, member, -⟩
          cases member
      | cons second others =>
          have below := offset_le_of_covers rightProper rightApart
            ((same _).mp (covers_offset leftProper))
          have above := offset_le_of_covers leftProper leftApart
            ((same _).mpr (covers_offset rightProper))
          have leftEnd := mt (same _).mpr (not_covers_end leftProper leftApart)
          have rightEnd := mt (same _).mp (not_covers_end rightProper rightApart)
          have leftShort : ¬ first.length.toNat < second.length.toNat := by
            intro shorter
            apply leftEnd
            exact covers_cons.mpr (Or.inl (StoreRange.mem_bytes.mpr ⟨by omega, by omega⟩))
          have rightShort : ¬ second.length.toNat < first.length.toNat := by
            intro shorter
            apply rightEnd
            exact covers_cons.mpr (Or.inl (StoreRange.mem_bytes.mpr ⟨by omega, by omega⟩))
          have sameOffset : first.offset = second.offset := UInt64.toNat_inj.mp (by omega)
          have sameLength : first.length = second.length := UInt64.toNat_inj.mp (by omega)
          have heads : first = second := by
            cases first
            cases second
            exact StoreRange.mk.injEq .. ▸ ⟨sameOffset, sameLength⟩
          rw [heads] at same leftProper leftApart ⊢
          congr 1
          apply ih
          · exact fun range member => leftProper range (List.mem_cons_of_mem _ member)
          · exact leftApart.of_cons
          · exact fun range member => rightProper range (List.mem_cons_of_mem _ member)
          · exact rightApart.of_cons
          · intro byte
            rw [covers_tail leftProper leftApart, covers_tail rightProper rightApart, same]

theorem proper_normalize (fits : ∀ range ∈ ranges, range.Fits) : Proper (normalize ranges) :=
  (normalize_spec fun range member _ => fits range member).1

theorem apart_normalize (fits : ∀ range ∈ ranges, range.Fits) : Apart (normalize ranges) :=
  (normalize_spec fun range member _ => fits range member).2.1

theorem covers_normalize_iff (fits : ∀ range ∈ ranges, range.Fits) (byte : Nat) :
    Covers (normalize ranges) byte ↔ Covers ranges byte :=
  (normalize_spec fun range member _ => fits range member).2.2 byte

/-- Lists with the same bytes have one normal form. -/
theorem normalize_eq_of_covers {other : List StoreRange} (fits : ∀ range ∈ ranges, range.Fits)
    (otherFits : ∀ range ∈ other, range.Fits)
    (same : ∀ byte, Covers other byte ↔ Covers ranges byte) :
    normalize other = normalize ranges := by
  apply eq_of_covers (proper_normalize otherFits) (apart_normalize otherFits)
    (proper_normalize fits) (apart_normalize fits)
  intro byte
  rw [covers_normalize_iff otherFits, covers_normalize_iff fits, same]

end Uniqueness

section Sequences

/-- The bytes of the range in their order. -/
def StoreRange.sequence (range : StoreRange) : List Nat :=
  List.range' range.offset.toNat range.length.toNat

/-- The bytes of the ranges, one range after another. -/
def sequence (ranges : List StoreRange) : List Nat :=
  ranges.flatMap StoreRange.sequence

/-- The bytes left when the first range has already lost `consumed` bytes. -/
def leftover (consumed : UInt64) : List StoreRange → List Nat
  | [] => []
  | current :: rest =>
      List.range' (current.offset.toNat + consumed.toNat)
        (current.length.toNat - consumed.toNat) ++ sequence rest

theorem leftover_zero (ranges : List StoreRange) : leftover 0 ranges = sequence ranges := by
  cases ranges <;> simp [leftover, sequence, StoreRange.sequence]

/-- One turn takes what is available or what is still wanted, whichever is less. -/
theorem takenFrom_toNat {current : StoreRange} {target consumed : UInt64}
    (within : consumed ≤ current.length) :
    (takenFrom current target consumed).toNat =
      min (current.length.toNat - consumed.toNat) target.toNat := by
  have available : (current.length - consumed).toNat =
      current.length.toNat - consumed.toNat := UInt64.toNat_sub_of_le _ _ within
  unfold takenFrom
  rw [← available]
  split
  · rename_i enough
    exact (Nat.min_eq_left (UInt64.le_iff_toNat_le.mp enough)).symm
  · rename_i short
    exact (Nat.min_eq_right (Nat.le_of_lt (UInt64.lt_iff_toNat_lt.mp
      (UInt64.not_le.mp short)))).symm

/-- The slice of one turn begins what is left of the current range. -/
theorem sequence_slice {current : StoreRange} {target consumed : UInt64} (fits : current.Fits)
    (within : consumed ≤ current.length) :
    StoreRange.sequence ⟨current.offset + consumed, takenFrom current target consumed⟩ =
      (List.range' (current.offset.toNat + consumed.toNat)
        (current.length.toNat - consumed.toNat)).take target.toNat := by
  have withinNat := UInt64.le_iff_toNat_le.mp within
  unfold StoreRange.Fits at fits
  have start : (current.offset + consumed).toNat = current.offset.toNat + consumed.toNat := by
    rw [UInt64.toNat_add]
    apply Nat.mod_eq_of_lt
    omega
  simp only [StoreRange.sequence, start, takenFrom_toNat within]
  by_cases enough : current.length.toNat - consumed.toNat ≤ target.toNat
  · rw [Nat.min_eq_left enough, List.take_range'_of_length_le enough]
  · have short := Nat.le_of_lt (Nat.lt_of_not_le enough)
    rw [Nat.min_eq_right short, List.take_range'_of_length_ge short]

/-- A piece is the first bytes that are left. -/
theorem takePiece_sequence {target consumed : UInt64} {ranges : List StoreRange}
    (consumable : Consumable consumed ranges) :
    sequence (takePiece target consumed ranges).1 =
        (leftover consumed ranges).take target.toNat ∧
      leftover (takePiece target consumed ranges).2.1 (takePiece target consumed ranges).2.2 =
        (leftover consumed ranges).drop target.toNat := by
  induction ranges generalizing target consumed with
  | nil => simp [takePiece, leftover, sequence]
  | cons current rest ih =>
      by_cases done : target = 0
      · rw [takePiece, if_pos done, done]
        exact ⟨rfl, rfl⟩
      · rcases consumable with ⟨fits, within⟩
        rw [List.forall_mem_cons] at fits
        have bounded := within current rfl
        rw [takePiece_cons done]
        have withinNat := UInt64.le_iff_toNat_le.mp bounded
        have taken := @takenFrom_toNat current target consumed bounded
        have slice := @sequence_slice current target consumed fits.1 bounded
        have advanced := (@takenFrom_spec current target consumed fits.1 bounded).1
        have front : (List.range' (current.offset.toNat + consumed.toNat)
            (current.length.toNat - consumed.toNat)).length =
              current.length.toNat - consumed.toNat := List.length_range'
        by_cases exhausted : consumed + takenFrom current target consumed = current.length
        · rw [if_pos exhausted]
          have whole : consumed.toNat + (takenFrom current target consumed).toNat =
              current.length.toNat := by
            rw [← advanced, exhausted]
          have left : (target - takenFrom current target consumed).toNat =
              target.toNat - (current.length.toNat - consumed.toNat) := by
            rw [UInt64.toNat_sub_of_le]
            · omega
            · rw [UInt64.le_iff_toNat_le]
              omega
          have next := @ih (target - takenFrom current target consumed) 0 (consumable_zero fits.2)
          rw [leftover_zero, left] at next
          rw [leftover, List.take_append, List.drop_append, front]
          constructor
          · rw [← slice, ← next.1]
            rfl
          · have gone : (List.range' (current.offset.toNat + consumed.toNat)
                (current.length.toNat - consumed.toNat)).drop target.toNat = [] := by
              apply List.drop_eq_nil_of_le
              rw [front]
              omega
            rw [next.2, gone, List.nil_append]
        · rw [if_neg exhausted]
          have partway : target.toNat < current.length.toNat - consumed.toNat := by
            by_contra enough
            apply exhausted
            apply UInt64.toNat_inj.mp
            omega
          rw [leftover, List.take_append, List.drop_append, front, leftover,
            Nat.sub_eq_zero_of_le (Nat.le_of_lt partway), List.take_zero, List.append_nil,
            List.drop_zero, List.drop_range', Nat.mul_one, advanced, taken,
            Nat.min_eq_right (Nat.le_of_lt partway), Nat.add_assoc, Nat.sub_sub]
          constructor
          · rw [← slice]
            simp [sequence]
          · rfl

/-- How much the pieces from a part on take together. -/
def targets (base extra : Nat) : Nat → Nat → Nat
  | 0, _ => 0
  | parts + 1, part => (if part < extra then base + 1 else base) + targets base extra parts (part + 1)

theorem targets_eq (base extra parts part : Nat) :
    targets base extra parts part = base * parts + (min (part + parts) extra - min part extra) := by
  induction parts generalizing part with
  | zero => simp [targets]
  | succ parts ih =>
      rw [targets, ih, Nat.mul_succ]
      split <;> omega

/-- The pieces are cut one after another, each as long as its target. -/
theorem takePieces_sequence {base extra consumed : UInt64} {parts part : Nat}
    {ranges : List StoreRange} (consumable : Consumable consumed ranges)
    (small : 0 < extra.toNat → base.toNat + 1 < 2 ^ 64)
    (enough : (leftover consumed ranges).length = targets base.toNat extra.toNat parts part) :
    (takePieces base extra parts part consumed ranges).length = parts ∧
      sequence (takePieces base extra parts part consumed ranges).flatten =
        leftover consumed ranges ∧
      ∀ piece ∈ takePieces base extra parts part consumed ranges,
        base.toNat ≤ (sequence piece).length ∧ (sequence piece).length ≤ base.toNat + 1 := by
  induction parts generalizing part consumed ranges with
  | zero =>
      rw [targets] at enough
      rw [List.eq_nil_of_length_eq_zero enough]
      simp [takePieces, sequence]
  | succ parts ih =>
      let target := if part < extra.toNat then base + 1 else base
      have size : target.toNat = if part < extra.toNat then base.toNat + 1 else base.toNat := by
        simp only [target]
        split
        · rename_i early
          rw [UInt64.toNat_add]
          exact Nat.mod_eq_of_lt (small (Nat.zero_lt_of_lt early))
        · rfl
      have piece := @takePiece_sequence target consumed ranges consumable
      have unfolded : takePieces base extra (parts + 1) part consumed ranges =
          (takePiece target consumed ranges).1 :: takePieces base extra parts (part + 1)
            (takePiece target consumed ranges).2.1 (takePiece target consumed ranges).2.2 := rfl
      rw [targets, ← size] at enough
      have rest := @ih (takePiece target consumed ranges).2.1 (part + 1)
        (takePiece target consumed ranges).2.2 (takePiece_hits consumable).1
        (by rw [piece.2, List.length_drop]; omega)
      rw [unfolded]
      constructor
      · rw [List.length_cons, rest.1]
      · constructor
        · rw [List.flatten_cons, sequence, List.flatMap_append, ← sequence, ← sequence, rest.2.1,
            piece.1, piece.2, List.take_append_drop]
        · rw [List.forall_mem_cons]
          constructor
          · rw [piece.1, List.length_take, size]
            rw [size] at enough
            split <;> rename_i early <;> simp only [early, if_true, if_false] at enough <;> omega
          · exact rest.2.2

/-- Ranges that are apart have a sum of lengths that does not wrap. -/
theorem length_sequence {ranges : List StoreRange} (proper : Proper ranges)
    (apart : Apart ranges) : (sequence ranges).length = (totalUnits ranges).toNat := by
  have once := hits_le_one_of_apart proper apart
  rw [totalUnits_toNat (sum_lt_of_disjoint (fun range member => (proper range member).2) once),
    sequence, List.length_flatMap]
  simp [StoreRange.sequence]

theorem nodup_sequence {ranges : List StoreRange} (proper : Proper ranges)
    (apart : Apart ranges) : (sequence ranges).Nodup := by
  induction ranges with
  | nil => exact List.nodup_nil
  | cons first rest ih =>
      rw [sequence, List.flatMap_cons, List.nodup_append]
      constructor
      · exact List.nodup_range'
      · constructor
        · exact ih (fun range member => proper range (List.mem_cons_of_mem _ member)) apart.of_cons
        · rintro byte inFirst other later rfl
          rcases List.mem_flatMap.mp later with ⟨range, member, inside⟩
          have before := (List.pairwise_cons.mp apart).1 range member
          rw [UInt64.lt_iff_toNat_lt,
            StoreRange.endOffset_toNat (proper first List.mem_cons_self).2] at before
          rw [StoreRange.sequence, List.mem_range'_1] at inFirst inside
          omega

theorem mem_sequence {ranges : List StoreRange} {byte : Nat} :
    byte ∈ sequence ranges ↔ Covers ranges byte := by
  simp only [sequence, List.mem_flatMap, Covers, StoreRange.mem_bytes, StoreRange.sequence,
    List.mem_range'_1]

/-- A normal form has its bytes, and nothing else determines it; slicing it cuts the sequence of
its bytes into pieces whose lengths differ by at most one. -/
theorem normalize_and_slice (ranges : List StoreRange) (fits : ∀ range ∈ ranges, range.Fits) :
    (Ascending (normalize ranges) ∧ Apart (normalize ranges) ∧
      (∀ range ∈ normalize ranges, 0 < range.length) ∧
      (∀ byte, Covers (normalize ranges) byte ↔ Covers ranges byte) ∧
      normalize (normalize ranges) = normalize ranges ∧
      ∀ other, other.Perm ranges → normalize other = normalize ranges) ∧
    ∀ parts : UInt64, 0 < parts → normalize ranges = ranges →
      (sliceInto ranges parts).length = parts.toNat ∧
      sequence (sliceInto ranges parts).flatten = sequence ranges ∧ (sequence ranges).Nodup ∧
      (∀ byte, byte ∈ sequence ranges ↔ Covers ranges byte) ∧
      ∀ piece ∈ sliceInto ranges parts, ∀ other ∈ sliceInto ranges parts,
        (sequence piece).length ≤ (sequence other).length + 1 := by
  have proper := proper_normalize fits
  have apart := apart_normalize fits
  constructor
  · constructor
    · apply apart.imp_of_mem
      intro earlier later earlierMember _ before
      rw [UInt64.lt_iff_toNat_lt,
        StoreRange.endOffset_toNat (proper earlier earlierMember).2] at before
      rw [UInt64.le_iff_toNat_le]
      omega
    · constructor
      · exact apart
      · constructor
        · exact fun range member => (proper range member).1
        · constructor
          · exact covers_normalize_iff fits
          · constructor
            · exact normalize_eq_of_covers fits (fun range member => (proper range member).2)
                (covers_normalize_iff fits)
            · intro other perm
              apply normalize_eq_of_covers fits
                (fun range member => fits range (perm.mem_iff.mp member))
              intro byte
              constructor
              · rintro ⟨range, member, inside⟩
                exact ⟨range, perm.mem_iff.mp member, inside⟩
              · rintro ⟨range, member, inside⟩
                exact ⟨range, perm.mem_iff.mpr member, inside⟩
  · intro parts positive normal
    rw [normal] at proper apart
    have total := length_sequence proper apart
    have positiveNat := UInt64.lt_iff_toNat_lt.mp positive
    rw [UInt64.toNat_zero] at positiveNat
    have nonzero : parts ≠ 0 := by
      rintro rfl
      exact absurd positive (by decide)
    have base : (totalUnits ranges / parts).toNat = (totalUnits ranges).toNat / parts.toNat :=
      UInt64.toNat_div _ _
    have extra : (totalUnits ranges % parts).toNat = (totalUnits ranges).toNat % parts.toNat :=
      UInt64.toNat_mod _ _
    have divided := Nat.div_add_mod (totalUnits ranges).toNat parts.toNat
    have fewer := Nat.mod_lt (totalUnits ranges).toNat positiveNat
    rw [Nat.mul_comm] at divided
    have small : 0 < (totalUnits ranges % parts).toNat →
        (totalUnits ranges / parts).toNat + 1 < 2 ^ 64 := by
      intro some
      have bound := (totalUnits ranges).toNat_lt
      rw [extra] at some
      rw [base]
      have twice : (totalUnits ranges).toNat / parts.toNat * 2 ≤
          (totalUnits ranges).toNat / parts.toNat * parts.toNat :=
        Nat.mul_le_mul_left _ (by omega)
      omega
    have enough : (leftover 0 ranges).length =
        targets (totalUnits ranges / parts).toNat (totalUnits ranges % parts).toNat
          parts.toNat 0 := by
      rw [leftover_zero, total, targets_eq, base, extra]
      omega
    have pieces := takePieces_sequence (consumable_zero fits) small enough
    rw [leftover_zero] at pieces
    rw [sliceInto, if_neg nonzero]
    constructor
    · exact pieces.1
    · constructor
      · exact pieces.2.1
      · constructor
        · exact nodup_sequence proper apart
        · constructor
          · exact fun byte => mem_sequence
          · intro piece member other otherMember
            have upper := (pieces.2.2 piece member).2
            have lower := (pieces.2.2 other otherMember).1
            omega

/-- Three ranges out of order, two of which touch, are two ranges, sliced into three pieces. -/
theorem normalize_and_slice_example :
    normalize [⟨4, 2⟩, ⟨9, 3⟩, ⟨2, 2⟩] = normalize [⟨2, 2⟩, ⟨9, 3⟩, ⟨4, 2⟩] ∧
      (sliceInto [⟨2, 4⟩, ⟨9, 3⟩] 3).length = 3 ∧
      sequence (sliceInto [⟨2, 4⟩, ⟨9, 3⟩] 3).flatten = [2, 3, 4, 5, 9, 10, 11] := by
  constructor
  · apply (normalize_and_slice [⟨2, 2⟩, ⟨9, 3⟩, ⟨4, 2⟩] (by decide)).1.2.2.2.2.2
    decide
  · have sliced := (normalize_and_slice [⟨2, 4⟩, ⟨9, 3⟩] (by decide)).2 3 (by decide) (by decide)
    constructor
    · exact sliced.1
    · rw [sliced.2.1]
      decide

end Sequences

end Llxprt.Kernel
