import Mathlib.Algebra.Ring.Nat
import Mathlib.Tactic.Common

/-!
# Unsigned machine integers

Counters that are only compared and advanced by checked or saturating steps are
natural numbers; the steps below say where the machine width enters.
-/

namespace Llxprt.Rust

/-- `u64::MAX`. -/
def u64Max : Nat := 2 ^ 64 - 1

/-- `u64::saturating_add`. -/
def saturatingAdd (left right : Nat) : Nat :=
  min (left + right) u64Max

theorem saturatingAdd_of_le {left right : Nat} (fits : left + right ≤ u64Max) :
    saturatingAdd left right = left + right :=
  Nat.min_eq_left fits

/-- `u64::checked_add`. -/
def checkedAdd (left right : Nat) : Option Nat :=
  if left + right ≤ u64Max then some (left + right) else none

/-- `u64::checked_sub`. -/
def checkedSub (left right : Nat) : Option Nat :=
  if right ≤ left then some (left - right) else none

/-- `u64::checked_add(1)`. -/
def checkedIncrement (value : UInt64) : Option UInt64 :=
  if value.toNat + 1 < UInt64.size then some (value + 1) else none

theorem checkedIncrement_eq_some {value next : UInt64} (h : checkedIncrement value = some next) :
    next.toNat = value.toNat + 1 := by
  unfold checkedIncrement at h
  split at h
  · rename_i fits
    rw [← Option.some.inj h, UInt64.toNat_add]
    exact Nat.mod_eq_of_lt fits
  · cases h

/-- The number written by the bytes, the least significant byte first. -/
def ofLittleEndian (bytes : List UInt8) : Nat :=
  bytes.foldr (fun byte rest => byte.toNat + 256 * rest) 0

/-- `u32::to_le_bytes`. -/
def leBytes32 (value : UInt32) : List UInt8 :=
  [value.toUInt8, (value >>> 8).toUInt8, (value >>> 16).toUInt8, (value >>> 24).toUInt8]

@[simp]
theorem length_leBytes32 (value : UInt32) : (leBytes32 value).length = 4 :=
  rfl

theorem ofLittleEndian_leBytes32 (value : UInt32) :
    ofLittleEndian (leBytes32 value) = value.toNat := by
  have bound := value.toNat_lt
  simp only [ofLittleEndian, leBytes32, List.foldr_cons, List.foldr_nil, UInt32.toNat_toUInt8,
    UInt32.toNat_shiftRight, Nat.shiftRight_eq_div_pow]
  simp
  omega

theorem ofLittleEndian_injective {left right : List UInt8} (lengths : left.length = right.length)
    (same : ofLittleEndian left = ofLittleEndian right) : left = right := by
  induction left generalizing right with
  | nil =>
      cases right with
      | nil => rfl
      | cons byte bytes => cases lengths
  | cons byte bytes ih =>
      cases right with
      | nil => cases lengths
      | cons other others =>
          have first := byte.toNat_lt
          have second := other.toNat_lt
          simp only [ofLittleEndian, List.foldr_cons] at same
          rw [List.length_cons, List.length_cons, Nat.add_right_cancel_iff] at lengths
          have rest : ofLittleEndian bytes = ofLittleEndian others := by
            unfold ofLittleEndian
            omega
          have head : byte = other := by
            apply UInt8.toNat_inj.mp
            unfold ofLittleEndian at rest
            omega
          rw [head, ih lengths rest]

theorem eq_leBytes32 {bytes : List UInt8} {value : UInt32} (four : bytes.length = 4)
    (same : ofLittleEndian bytes = value.toNat) : bytes = leBytes32 value :=
  ofLittleEndian_injective (four.trans (length_leBytes32 value).symm)
    (same.trans (ofLittleEndian_leBytes32 value).symm)

end Llxprt.Rust
