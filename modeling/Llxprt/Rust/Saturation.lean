import Llxprt.Rust.Integers

/-!
# Saturating sums

A chain of saturating additions is the exact sum, cut off at the largest value.
-/

namespace Llxprt.Rust

variable {left right first second : Nat}

theorem saturatingAdd_eq_min : saturatingAdd left right = min (left + right) u64Max :=
  rfl

/-- Only the whole sum is cut off. -/
theorem saturatingAdd_saturatingAdd :
    saturatingAdd (saturatingAdd left right) first = min (left + right + first) u64Max := by
  unfold saturatingAdd
  omega

theorem saturatingAdd_le : saturatingAdd left right ≤ u64Max :=
  Nat.min_le_right _ _

/-- Two cut-off sums agree when the exact sums do, or when both are cut off. -/
theorem min_u64Max_eq_iff :
    min first u64Max = min second u64Max ↔
      first = second ∨ u64Max ≤ first ∧ u64Max ≤ second := by
  omega

end Llxprt.Rust
