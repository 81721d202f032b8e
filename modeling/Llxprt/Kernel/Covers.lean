import Llxprt.Kernel.Bytes

/-!
# The coverage test

The test compares a wrapping sum of lengths and two normalized covers.  It is
exact as long as no end of a range and no sum of lengths wraps, and wrong
whenever it accepts ranges for which one of them does.
-/

namespace Llxprt.Kernel

open Llxprt.Rust.Tiling

/-- The children end in the space of offsets, overlap nowhere, and cover the bytes
of the parent. -/
structure CoversBytes (children parent : List StoreRange) : Prop where
  fits : ∀ child ∈ children, child.Fits
  disjoint : (children.map StoreRange.bytes).Pairwise Disjoint
  same : ∀ byte, Covers children byte ↔ Covers parent byte

/-- Neither an end of a range nor the sum of the lengths of the children wraps. -/
structure Unwrapped (children parent : List StoreRange) : Prop where
  childrenFit : ∀ child ∈ children, child.Fits
  parentFit : ∀ range ∈ parent, range.Fits
  sum : (children.map fun child => child.length.toNat).sum < 2 ^ 64

section Exactness

variable {children parent ranges : List StoreRange} {range : StoreRange}

theorem map_card_bytes :
    (ranges.map StoreRange.bytes).map Finset.card = ranges.map fun range => range.length.toNat := by
  rw [List.map_map]
  exact List.map_congr_left fun range _ => StoreRange.card_bytes range

theorem bytes_subset (fits : range.Fits) : range.bytes ⊆ Finset.range (2 ^ 64 - 1) := by
  intro byte member
  rw [StoreRange.mem_bytes] at member
  rw [Finset.mem_range]
  unfold StoreRange.Fits at fits
  omega

/-- The lengths of ranges that share no byte have a sum that does not wrap. -/
theorem sum_lt_of_disjoint (fits : ∀ range ∈ ranges, range.Fits)
    (once : ∀ byte, hits (ranges.map StoreRange.bytes) byte ≤ 1) :
    (ranges.map fun range => range.length.toNat).sum < 2 ^ 64 := by
  have inside : ∀ set ∈ ranges.map StoreRange.bytes, set ⊆ Finset.range (2 ^ 64 - 1) := by
    intro set member
    rcases List.mem_map.mp member with ⟨range, among, rfl⟩
    exact bytes_subset (fits range among)
  have bounded := sum_card_le once inside
  rw [map_card_bytes, Finset.card_range] at bounded
  omega

/-- Ranges whose bytes are covered by ranges that fit do fit. -/
theorem fits_of_covered (fits : ∀ child ∈ children, child.Fits)
    (covered : ∀ byte, Covers parent byte → Covers children byte) (member : range ∈ parent) :
    range.Fits := by
  by_cases positive : 0 < range.length
  · have below : ∀ byte ∈ range.bytes, byte < (UInt64.ofNat (2 ^ 64 - 1)).toNat := by
      intro byte inside
      rcases covered byte ⟨range, member, inside⟩ with ⟨child, among, here⟩
      exact Finset.mem_range.mp (bytes_subset (fits child among) here)
    exact (fits_of_bytes_lt positive below).1
  · have small := range.offset.toNat_lt
    rw [UInt64.lt_iff_toNat_lt, UInt64.toNat_zero] at positive
    unfold StoreRange.Fits
    omega

theorem covers_normalize (fits : ∀ range ∈ ranges, range.Fits) (byte : Nat) :
    Covers (normalize ranges) byte ↔ Covers ranges byte :=
  (normalize_spec fun range member _ => fits range member).2.2 byte

/-- A normalized list tiles its bytes, and their number is the covered units. -/
theorem normalize_tiles (fits : ∀ range ∈ ranges, range.Fits) :
    ∃ whole, Tiles ((normalize ranges).map StoreRange.bytes) whole ∧
      whole.card = (coveredUnits ranges).toNat := by
  have spec : Proper (normalize ranges) ∧ Apart (normalize ranges) ∧
      ∀ byte, Covers (normalize ranges) byte ↔ Covers ranges byte :=
    normalize_spec fun range member _ => fits range member
  have once := hits_le_one_of_apart spec.1 spec.2.1
  have tiles := tiles_union once
  refine ⟨_, tiles, ?_⟩
  have sum := sum_lt_of_disjoint (fun range member => (spec.1 range member).2) once
  rw [← tiles.card, map_card_bytes, coveredUnits, totalUnits_toNat sum]

/-- Of what the test accepts exactly the unwrapped lists are exact covers. -/
theorem coversBytes_iff (accepted : coversExactly children parent = true) :
    CoversBytes children parent ↔ Unwrapped children parent := by
  rw [coversExactly, Bool.and_eq_true, decide_eq_true_eq, decide_eq_true_eq] at accepted
  rcases accepted with ⟨units, normalized⟩
  constructor
  · intro covers
    refine ⟨covers.fits, ?_, sum_lt_of_disjoint covers.fits (hits_le_one_iff.mpr covers.disjoint)⟩
    intro range member
    exact fits_of_covered covers.fits (fun byte => (covers.same byte).mpr) member
  · intro unwrapped
    have same : ∀ byte, Covers children byte ↔ Covers parent byte := by
      intro byte
      rw [← covers_normalize unwrapped.childrenFit, normalized, covers_normalize unwrapped.parentFit]
    rcases normalize_tiles unwrapped.parentFit with ⟨whole, tiles, card⟩
    have tiling : Tiles (children.map StoreRange.bytes) whole := by
      apply tiles_of_card
      · intro byte
        have joined : byte ∈ whole ↔ Covers (normalize parent) byte := by
          rw [tiles.mem_iff]
          simp [Covers]
        rw [joined, covers_normalize unwrapped.parentFit, ← same]
        simp [Covers]
      · rw [map_card_bytes, card, ← units, totalUnits_toNat unwrapped.sum]
    exact ⟨unwrapped.childrenFit, tiling.disjoint, same⟩

end Exactness

section Wrapping

/-- A child that wraps lies inside the first one, and a third one makes the sum
right. -/
def wrappingChildren : List StoreRange :=
  [⟨0, 10⟩, ⟨5, 0xFFFFFFFFFFFFFFFD⟩, ⟨1, 3⟩]

theorem wrapping_children_accepted :
    ¬ ∀ children parent : List StoreRange, coversExactly children parent = true →
      CoversBytes children parent := by
  intro claim
  have covers := claim wrappingChildren [⟨0, 10⟩] (by decide +kernel)
  have fits := covers.fits ⟨5, 0xFFFFFFFFFFFFFFFD⟩ (by decide)
  exact absurd fits (by decide)

/-- Two halves of a payload. -/
theorem halves_cover : CoversBytes [⟨0, 4⟩, ⟨4, 6⟩] [⟨0, 10⟩] := by
  refine (coversBytes_iff (by decide +kernel)).mpr ⟨?_, ?_, by decide⟩
  · decide
  · decide

end Wrapping

end Llxprt.Kernel
