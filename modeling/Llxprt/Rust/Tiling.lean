import Mathlib.Algebra.BigOperators.Ring.Finset
import Mathlib.Algebra.Order.BigOperators.Group.Finset
import Mathlib.Data.List.Perm.Basic

/-!
# Tilings

A list of finite sets tiles a whole when every point of the whole lies in
exactly one set of the list, and no other point lies in any.  Counting hits
makes the notion additive, so that a part of the list can be replaced by another
one with the same hits wherever it stands.
-/

namespace Llxprt.Rust.Tiling

variable {α : Type} [DecidableEq α] {sets first second : List (Finset α)} {whole left right : Finset α}

/-- How many sets of the list contain the point. -/
def hits (sets : List (Finset α)) (point : α) : Nat :=
  sets.countP fun set => point ∈ set

/-- Every point of `whole` is hit once and no other point is hit. -/
def Tiles (sets : List (Finset α)) (whole : Finset α) : Prop :=
  ∀ point, hits sets point = if point ∈ whole then 1 else 0

@[simp]
theorem hits_nil (point : α) : hits [] point = 0 :=
  rfl

@[simp]
theorem hits_cons (set : Finset α) (sets : List (Finset α)) (point : α) :
    hits (set :: sets) point = (if point ∈ set then 1 else 0) + hits sets point := by
  by_cases member : point ∈ set
  · simp [hits, member, Nat.add_comm]
  · simp [hits, member]

@[simp]
theorem hits_append (first second : List (Finset α)) (point : α) :
    hits (first ++ second) point = hits first point + hits second point :=
  List.countP_append

theorem hits_perm (h : first.Perm second) (point : α) : hits first point = hits second point :=
  h.countP_eq _

theorem hits_pos {point : α} : 0 < hits sets point ↔ ∃ set ∈ sets, point ∈ set := by
  simp [hits, List.countP_pos_iff]

/-- No point is hit twice exactly when the sets are pairwise disjoint. -/
theorem hits_le_one_iff : (∀ point, hits sets point ≤ 1) ↔ sets.Pairwise Disjoint := by
  induction sets with
  | nil => simp
  | cons set sets ih =>
      rw [List.pairwise_cons, ← ih]
      constructor
      · intro once
        constructor
        · intro other member
          rw [Finset.disjoint_left]
          intro point inSet inOther
          have hit : 0 < hits sets point := hits_pos.mpr ⟨other, member, inOther⟩
          have bound := once point
          rw [hits_cons, if_pos inSet] at bound
          omega
        · intro point
          have bound := once point
          rw [hits_cons] at bound
          omega
      · rintro ⟨apart, once⟩ point
        rw [hits_cons]
        by_cases inSet : point ∈ set
        · have unhit : ¬ 0 < hits sets point := by
            intro hit
            rcases hits_pos.mp hit with ⟨other, member, inOther⟩
            exact Finset.disjoint_left.mp (apart other member) inSet inOther
          rw [if_pos inSet]
          omega
        · rw [if_neg inSet]
          have bound := once point
          omega

theorem tiles_nil : Tiles ([] : List (Finset α)) ∅ := by
  intro point
  simp

theorem tiles_singleton (set : Finset α) : Tiles [set] set := by
  intro point
  simp

namespace Tiles

theorem disjoint (tiles : Tiles sets whole) : sets.Pairwise Disjoint := by
  apply hits_le_one_iff.mp
  intro point
  rw [tiles point]
  split <;> omega

theorem mem_iff (tiles : Tiles sets whole) {point : α} :
    point ∈ whole ↔ ∃ set ∈ sets, point ∈ set := by
  rw [← hits_pos, tiles point]
  split <;> simp_all

theorem subset (tiles : Tiles sets whole) {set : Finset α} (member : set ∈ sets) :
    set ⊆ whole := by
  intro point inSet
  exact tiles.mem_iff.mpr ⟨set, member, inSet⟩

theorem append (firstTiles : Tiles first left) (secondTiles : Tiles second right)
    (apart : Disjoint left right) : Tiles (first ++ second) (left ∪ right) := by
  intro point
  rw [hits_append, firstTiles point, secondTiles point]
  by_cases inLeft : point ∈ left
  · have outRight : point ∉ right := Finset.disjoint_left.mp apart inLeft
    simp [inLeft, outRight]
  · simp [inLeft]

theorem of_hits (tiles : Tiles first whole) (same : ∀ point, hits second point = hits first point) :
    Tiles second whole :=
  fun point => (same point).trans (tiles point)

end Tiles

/-- Double counting of the pairs of a set and a point in it. -/
theorem sum_hits (inside : ∀ set ∈ sets, set ⊆ whole) :
    ∑ point ∈ whole, hits sets point = (sets.map Finset.card).sum := by
  induction sets with
  | nil => simp
  | cons set sets ih =>
      rw [List.forall_mem_cons] at inside
      simp only [hits_cons, Finset.sum_add_distrib, List.map_cons, List.sum_cons]
      rw [ih inside.2, Finset.sum_ite_mem, Finset.inter_eq_right.mpr inside.1]
      simp

/-- Sets that overlap nowhere have no more points than a set around them. -/
theorem sum_card_le (once : ∀ point, hits sets point ≤ 1) (inside : ∀ set ∈ sets, set ⊆ whole) :
    (sets.map Finset.card).sum ≤ whole.card := by
  rw [← sum_hits inside, Finset.card_eq_sum_ones]
  exact Finset.sum_le_sum fun point _ => once point

/-- A tiling has as many points as the whole. -/
theorem Tiles.card (tiles : Tiles sets whole) : (sets.map Finset.card).sum = whole.card := by
  rw [← sum_hits fun set member => tiles.subset member, Finset.card_eq_sum_ones]
  refine Finset.sum_congr rfl fun point member => ?_
  rw [tiles point, if_pos member]

/-- Sets that overlap nowhere tile their union. -/
theorem tiles_union (once : ∀ point, hits sets point ≤ 1) :
    Tiles sets (sets.toFinset.biUnion id) := by
  intro point
  have bounded := once point
  have joined : point ∈ sets.toFinset.biUnion id ↔ 0 < hits sets point := by
    rw [hits_pos]
    simp
  split
  · rename_i member
    have hit := joined.mp member
    omega
  · rename_i outside
    have missed := mt joined.mpr outside
    omega

/-- A cover whose sizes add up to the size of the whole is a tiling. -/
theorem tiles_of_card (covers : ∀ point, point ∈ whole ↔ ∃ set ∈ sets, point ∈ set)
    (tight : (sets.map Finset.card).sum = whole.card) : Tiles sets whole := by
  have inside : ∀ set ∈ sets, set ⊆ whole := fun set member point inSet =>
    (covers point).mpr ⟨set, member, inSet⟩
  have hit : ∀ point ∈ whole, 1 ≤ hits sets point := fun point member =>
    hits_pos.mpr ((covers point).mp member)
  have sums : ∑ point ∈ whole, 1 = ∑ point ∈ whole, hits sets point := by
    rw [sum_hits inside, tight, Finset.card_eq_sum_ones]
  intro point
  by_cases member : point ∈ whole
  · rw [if_pos member]
    exact ((Finset.sum_eq_sum_iff_of_le hit).mp sums point member).symm
  · rw [if_neg member]
    have unhit : ¬ 0 < hits sets point := fun hit => member ((covers point).mpr (hits_pos.mp hit))
    omega

end Llxprt.Rust.Tiling
