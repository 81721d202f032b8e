import Llxprt.Rust.Collections
import Mathlib.Algebra.BigOperators.Group.List.Basic
import Mathlib.Algebra.Order.BigOperators.Group.List
import Mathlib.Algebra.Order.Ring.Nat
import Mathlib.Data.List.Nodup

/-!
# Totals of ordered maps

The sum of the numbers in an ordered map, how it moves when one binding is
added, replaced or removed, and the weight that the values of a map have
together.
-/

namespace Llxprt.Rust

universe u

variable {κ : Type u} [Ord κ] [Std.TransOrd κ]

/-- The sum of all values of a map. -/
def total (map : BTreeMap κ Nat) : Nat :=
  (values map).sum

section Lawful

variable [Std.LawfulEqOrd κ] {map : BTreeMap κ Nat} {key : κ} {value old : Nat}

/-- A list of bindings with distinct keys is a listing of the map it describes. -/
theorem toList_perm {entries : List (κ × Nat)} (distinct : (entries.map Prod.fst).Nodup)
    (same : ∀ key value, (key, value) ∈ entries ↔ map[key]? = some value) :
    map.toList.Perm entries := by
  have listed : map.toList.Nodup := by
    apply map.distinct_keys_toList.imp
    rintro left right differ rfl
    exact differ Std.ReflCmp.compare_self
  apply (List.perm_ext_iff_of_nodup listed (List.Nodup.of_map _ distinct)).mpr
  rintro ⟨key, value⟩
  rw [same, Std.ExtTreeMap.mem_toList_iff_getElem?_eq_some]

theorem nodup_keys (map : BTreeMap κ Nat) : (map.toList.map Prod.fst).Nodup := by
  rw [List.Nodup, List.pairwise_map]
  apply map.distinct_keys_toList.imp
  intro left right differ same
  exact differ (Std.LawfulEqOrd.compare_eq_iff_eq.mpr same)

@[simp]
theorem total_empty : total (∅ : BTreeMap κ Nat) = 0 := by
  have none : (∅ : BTreeMap κ Nat).toList.Perm [] := by
    apply toList_perm
    · exact List.nodup_nil
    · simp
  rw [total, values, none.eq_nil]
  rfl

/-- A new binding adds its value. -/
theorem total_insert (absent : map[key]? = none) :
    total (map.insert key value) = value + total map := by
  have perm : (map.insert key value).toList.Perm ((key, value) :: map.toList) := by
    apply toList_perm
    · rw [List.map_cons, List.nodup_cons]
      refine ⟨?_, nodup_keys map⟩
      intro member
      rcases List.mem_map.mp member with ⟨⟨other, found⟩, listed, rfl⟩
      rw [Std.ExtTreeMap.mem_toList_iff_getElem?_eq_some.mp listed] at absent
      cases absent
    · intro other found
      rw [List.mem_cons, Prod.mk.injEq, Std.ExtTreeMap.mem_toList_iff_getElem?_eq_some,
        Std.ExtTreeMap.getElem?_insert]
      by_cases own : key = other
      · subst own
        rw [if_pos Std.ReflCmp.compare_self, absent]
        simp [eq_comm]
      · rw [if_neg (fun same => own (Std.LawfulEqOrd.compare_eq_iff_eq.mp same))]
        constructor
        · rintro (⟨same, _⟩ | bound)
          · exact absurd same.symm own
          · exact bound
        · exact .inr
  have sums := (perm.map Prod.snd).sum_eq
  exact sums

/-- A removed binding takes its value along. -/
theorem total_erase (bound : map[key]? = some value) :
    total map = value + total (map.erase key) := by
  have absent : (map.erase key)[key]? = none := Std.ExtTreeMap.getElem?_erase_self
  have back : (map.erase key).insert key value = map := by
    apply Std.ExtTreeMap.ext_getElem?
    intro other
    rw [Std.ExtTreeMap.getElem?_insert]
    split
    · rename_i same
      rw [← Std.LawfulEqOrd.compare_eq_iff_eq.mp same, bound]
    · rename_i other
      rw [Std.ExtTreeMap.getElem?_erase, if_neg other]
  calc total map = total ((map.erase key).insert key value) := by rw [back]
    _ = value + total (map.erase key) := total_insert absent

/-- A replaced value is exchanged for the new one. -/
theorem total_replace (bound : map[key]? = some old) :
    total (map.insert key value) + old = total map + value := by
  have absent : (map.erase key)[key]? = none := Std.ExtTreeMap.getElem?_erase_self
  have same : map.insert key value = (map.erase key).insert key value := by
    apply Std.ExtTreeMap.ext_getElem?
    intro other
    rw [Std.ExtTreeMap.getElem?_insert, Std.ExtTreeMap.getElem?_insert]
    split
    · rfl
    · rename_i differs
      rw [Std.ExtTreeMap.getElem?_erase, if_neg differs]
  rw [same, total_insert absent, total_erase bound]
  omega

end Lawful

section Weights

variable {ν : Type u} {map : BTreeMap κ ν} {weight other : ν → Nat}

/-- What the values of a map weigh together. -/
def weigh (weight : ν → Nat) (map : BTreeMap κ ν) : Nat :=
  ((values map).map weight).sum

/-- The values that fail a test weigh nothing when their weights are dropped. -/
theorem sum_filter_values (test : ν → Bool) :
    (((values map).filter test).map weight).sum =
      weigh (fun value => if test value then weight value else 0) map := by
  rw [weigh]
  induction values map with
  | nil => rfl
  | cons value rest ih =>
      rw [List.filter_cons, List.map_cons, List.sum_cons, ← ih]
      split
      · rfl
      · rw [Nat.zero_add]

theorem length_filter_values (test : ν → Bool) :
    ((values map).filter test).length = weigh (fun value => if test value then 1 else 0) map := by
  rw [← sum_filter_values]
  simp

/-- Values rewritten one by one weigh what their new forms weigh. -/
theorem weigh_map (change : κ → ν → ν) :
    weigh weight (map.map change) =
      (map.toList.map fun binding => weight (change binding.1 binding.2)).sum := by
  rw [weigh, values, Std.ExtTreeMap.toList_map, List.map_map, List.map_map]
  rfl

variable [Std.LawfulEqOrd κ]

theorem weigh_map_le {change : κ → ν → ν}
    (lighter : ∀ (key : κ) value, map[key]? = some value →
      weight (change key value) ≤ other value) :
    weigh weight (map.map change) ≤ weigh other map := by
  rw [weigh_map, weigh, values, List.map_map]
  apply List.sum_le_sum
  rintro ⟨key, value⟩ member
  exact lighter key value (Std.ExtTreeMap.mem_toList_iff_getElem?_eq_some.mp member)

theorem weigh_map_eq {change : κ → ν → ν}
    (same : ∀ (key : κ) value, map[key]? = some value →
      weight (change key value) = other value) :
    weigh weight (map.map change) = weigh other map := by
  rw [weigh_map, weigh, values, List.map_map]
  congr 1
  apply List.map_congr_left
  rintro ⟨key, value⟩ member
  exact same key value (Std.ExtTreeMap.mem_toList_iff_getElem?_eq_some.mp member)

/-- A new binding adds its weight. -/
theorem weigh_insert {key : κ} {value : ν} (absent : map[key]? = none) :
    weigh weight (map.insert key value) = weight value + weigh weight map := by
  have weights : ∀ map : BTreeMap κ ν, weigh weight map =
      total (map.map fun _ value => weight value) := by
    intro map
    rw [weigh, total, values, values, Std.ExtTreeMap.toList_map, List.map_map, List.map_map]
    rfl
  have inserted : ((map.insert key value).map fun _ value => weight value) =
      (map.map fun _ value => weight value).insert key (weight value) := by
    apply Std.ExtTreeMap.ext_getElem?
    intro found
    rw [Std.ExtTreeMap.getElem?_map, Std.ExtTreeMap.getElem?_insert,
      Std.ExtTreeMap.getElem?_insert, Std.ExtTreeMap.getElem?_map]
    split <;> rfl
  rw [weights, weights, inserted]
  apply total_insert
  rw [Std.ExtTreeMap.getElem?_map, absent]
  rfl

end Weights

end Llxprt.Rust
