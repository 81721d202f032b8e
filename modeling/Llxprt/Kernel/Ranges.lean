import Llxprt.Kernel.Canonical
import Mathlib.Data.List.Sort

/-!
# Byte ranges of the store spine

Offsets and lengths are 64-bit machine integers and every sum of them wraps.
-/

namespace Llxprt.Kernel

/-- A byte range in the context store spine. -/
structure StoreRange where
  offset : UInt64
  length : UInt64
  deriving DecidableEq

namespace StoreRange

/-- Offset one past the last byte. -/
def endOffset (range : StoreRange) : UInt64 :=
  range.offset + range.length

/-- Comparison of the sort keys `(offset, end)`. -/
def sortedBefore (left right : StoreRange) : Prop :=
  left.offset < right.offset ∨
    left.offset = right.offset ∧ left.endOffset ≤ right.endOffset

instance : DecidableRel sortedBefore :=
  fun left right => inferInstanceAs (Decidable (left.offset < right.offset ∨
    left.offset = right.offset ∧ left.endOffset ≤ right.endOffset))

/-- The last merged range, extended by a range that touches it. -/
def extend (last range : StoreRange) : StoreRange :=
  if last.endOffset < range.endOffset then
    { last with length := range.endOffset - last.offset }
  else
    last

end StoreRange

/-- The merge loop, with the range merged last. -/
def mergeFrom (last : StoreRange) : List StoreRange → List StoreRange
  | [] => [last]
  | range :: rest =>
      if range.offset ≤ last.endOffset then mergeFrom (last.extend range) rest
      else last :: mergeFrom range rest

/-- Merges ranges that are already sorted. -/
def mergeSorted : List StoreRange → List StoreRange
  | [] => []
  | range :: rest => mergeFrom range rest

/-- Merges touching and overlapping ranges into an ordered, disjoint cover. -/
def normalize (ranges : List StoreRange) : List StoreRange :=
  mergeSorted ((ranges.filter fun range => 0 < range.length).insertionSort
    StoreRange.sortedBefore)

/-- Sum of the lengths, wrapping. -/
def totalUnits (ranges : List StoreRange) : UInt64 :=
  ranges.foldr (fun range units => range.length + units) 0

/-- Bytes covered by a set of ranges, counted once. -/
def coveredUnits (ranges : List StoreRange) : UInt64 :=
  totalUnits (normalize ranges)

/-- Smallest single range enclosing `ranges`. -/
def enclosing (ranges : List StoreRange) : StoreRange :=
  match normalize ranges with
  | [] => ⟨0, 0⟩
  | first :: rest =>
      let last := rest.foldl
        (fun last range => if last < range.endOffset then range.endOffset else last)
        first.endOffset
      ⟨first.offset, last - first.offset⟩

/-- Whether `children` covers `parent` exactly, with no overlap and no gap. -/
def coversExactly (children parent : List StoreRange) : Bool :=
  totalUnits children = coveredUnits parent && normalize children = normalize parent

/-- The inner loop of slicing.  It takes `target` bytes from the ranges that
are left, of which the first has already lost `consumed` bytes, and returns the
piece, the bytes lost by the first remaining range and the remaining ranges. -/
def takePiece (target consumed : UInt64) :
    List StoreRange → List StoreRange × UInt64 × List StoreRange
  | [] => ([], consumed, [])
  | current :: rest =>
      if target = 0 then ([], consumed, current :: rest)
      else
        let available := current.length - consumed
        let take := if available ≤ target then available else target
        let slice : StoreRange := ⟨current.offset + consumed, take⟩
        if consumed + take = current.length then
          let (piece, left) := takePiece (target - take) 0 rest
          (slice :: piece, left)
        else
          ([slice], consumed + take, current :: rest)

/-- The outer loop of slicing, one piece for each remaining part. -/
def takePieces (base extra : UInt64) :
    Nat → Nat → UInt64 → List StoreRange → List (List StoreRange)
  | 0, _, _, _ => []
  | parts + 1, part, consumed, ranges =>
      let target := if part < extra.toNat then base + 1 else base
      let (piece, consumed, ranges) := takePiece target consumed ranges
      piece :: takePieces base extra parts (part + 1) consumed ranges

/-- Slices an ordered range set into `parts` pieces of near-equal length. -/
def sliceInto (ranges : List StoreRange) (parts : UInt64) : List (List StoreRange) :=
  if parts = 0 then []
  else
    takePieces (totalUnits ranges / parts) (totalUnits ranges % parts) parts.toNat 0 0 ranges

example : normalize [⟨4, 2⟩, ⟨0, 3⟩, ⟨9, 0⟩, ⟨3, 1⟩] = [⟨0, 6⟩] := by
  decide

end Llxprt.Kernel
