import Mathlib.Data.List.Basic
import Mathlib.Data.List.Perm.Subperm
import Mathlib.Tactic.Common

/-!
# Ordered collections

Ordered maps and sets are extensional search trees: two of them are equal
exactly when they hold the same bindings, and iteration follows the key order.
A comparison given by a lexicographic list of projections is lawful as soon as
the projections determine the value.
-/

namespace Llxprt.Rust

universe u v

/-- An ordered map. -/
abbrev BTreeMap (κ : Type u) (ν : Type v) [Ord κ] :=
  Std.ExtTreeMap κ ν compare

/-- An ordered set. -/
abbrev BTreeSet (κ : Type u) [Ord κ] :=
  Std.ExtTreeSet κ compare

variable {κ : Type u} {ν : Type v} [Ord κ] [Std.TransOrd κ]

/-- The values of an ordered map, in key order. -/
def values (map : BTreeMap κ ν) : List ν :=
  map.toList.map Prod.snd

/-- The keys of an ordered map, as a set. -/
def keySet (map : BTreeMap κ ν) : BTreeSet κ :=
  .ofList map.keys

/-- Whether `small` is contained in `large`. -/
def isSubset (small large : BTreeSet κ) : Bool :=
  small.toList.all fun key => large.contains key

section Lookup

variable [Std.LawfulEqOrd κ]

theorem isSubset_iff {small large : BTreeSet κ} :
    isSubset small large = true ↔ ∀ key ∈ small, key ∈ large := by
  simp [isSubset]

theorem nodup_toList (set : BTreeSet κ) : set.toList.Nodup := by
  apply set.distinct_toList.imp
  intro left right distinct same
  exact distinct (Std.LawfulEqOrd.compare_eq_iff_eq.mpr same)

/-- A set whose members are listed is no larger than the list. -/
theorem size_le_length {set : BTreeSet κ} {keys : List κ} (h : ∀ key ∈ set, key ∈ keys) :
    set.size ≤ keys.length := by
  rw [← Std.ExtTreeSet.length_toList]
  apply List.Subperm.length_le
  apply (nodup_toList set).subperm
  intro key member
  exact h key (Std.ExtTreeSet.mem_toList.mp member)

/-- A set that has grown without getting larger has not changed. -/
theorem eq_of_subset_of_size_eq {small large : BTreeSet κ} (h : ∀ key ∈ small, key ∈ large)
    (same : large.size = small.size) : large = small := by
  have listed : small.toList ⊆ large.toList := by
    intro key member
    exact Std.ExtTreeSet.mem_toList.mpr (h key (Std.ExtTreeSet.mem_toList.mp member))
  have perm : small.toList.Perm large.toList := by
    apply ((nodup_toList small).subperm listed).perm_of_length_le
    apply Nat.le_of_eq
    rw [Std.ExtTreeSet.length_toList, Std.ExtTreeSet.length_toList, same]
  apply Std.ExtTreeSet.ext_mem
  intro key
  rw [← Std.ExtTreeSet.mem_toList, ← Std.ExtTreeSet.mem_toList, perm.mem_iff]

theorem erase_of_not_mem {map : BTreeMap κ ν} {key : κ} (h : key ∉ map) : map.erase key = map := by
  apply Std.ExtTreeMap.ext_getElem?
  intro other
  by_cases same : key = other
  · subst same
    simp [Std.ExtTreeMap.getElem?_eq_none h]
  · simp [Std.ExtTreeMap.getElem?_erase, same]

/-- Keys of the values that pass a test. -/
def passingKeys (test : ν → Bool) (map : BTreeMap κ ν) : List κ :=
  (map.toList.filter fun entry => test entry.2).map Prod.fst

omit [Std.LawfulEqOrd κ] in
theorem length_passingKeys (test : ν → Bool) (map : BTreeMap κ ν) :
    (passingKeys test map).length = ((values map).filter test).length := by
  rw [passingKeys, values, List.filter_map, List.length_map, List.length_map]
  rfl

theorem mem_passingKeys {test : ν → Bool} {map : BTreeMap κ ν} {key : κ} :
    key ∈ passingKeys test map ↔ ∃ value, map[key]? = some value ∧ test value = true := by
  simp only [passingKeys, List.mem_map, List.mem_filter, Prod.exists, exists_and_right,
    exists_eq_right, Std.ExtTreeMap.mem_toList_iff_getElem?_eq_some]

theorem nodup_passingKeys (test : ν → Bool) (map : BTreeMap κ ν) : (passingKeys test map).Nodup := by
  have distinct : (map.toList.map Prod.fst).Nodup := by
    rw [List.Nodup, List.pairwise_map]
    apply map.distinct_keys_toList.imp
    intro left right distinct same
    exact distinct (Std.LawfulEqOrd.compare_eq_iff_eq.mpr same)
  exact distinct.sublist (List.filter_sublist.map Prod.fst)

/-- Values that pass a test can only come from such values or sit under one of the
extra keys. -/
theorem length_filter_values_le {test : ν → Bool} {before after : BTreeMap κ ν} (extra : List κ)
    (origin : ∀ key value, after[key]? = some value → test value = true →
      key ∈ extra ∨ ∃ old, before[key]? = some old ∧ test old = true) :
    ((values after).filter test).length ≤ extra.length + ((values before).filter test).length := by
  rw [← length_passingKeys, ← length_passingKeys, ← List.length_append]
  apply List.Subperm.length_le
  apply (nodup_passingKeys test after).subperm
  intro key member
  rcases mem_passingKeys.mp member with ⟨value, found, passes⟩
  rcases origin key value found passes with listed | earlier
  · exact List.mem_append_left _ listed
  · exact List.mem_append_right _ (mem_passingKeys.mpr earlier)

end Lookup

section Vectors

variable {α : Type u}

/-- Apply `change` to the first element satisfying `found`, as an assignment
through `iter_mut().find(..)` does. -/
def updateFirst (found : α → Bool) (change : α → α) : List α → List α
  | [] => []
  | head :: tail =>
      if found head then change head :: tail else head :: updateFirst found change tail

/-- Under unique keys an assignment to the first match is an assignment to every
match. -/
theorem updateFirst_eq_map {κ : Type v} [DecidableEq κ] {key : α → κ} {items : List α}
    (nodup : (items.map key).Nodup) (target : κ) (change : α → α) :
    updateFirst (fun item => key item = target) change items =
      items.map fun item => if key item = target then change item else item := by
  induction items with
  | nil => rfl
  | cons head tail ih =>
      rw [List.map_cons, List.nodup_cons] at nodup
      rw [updateFirst, List.map_cons]
      by_cases isTarget : key head = target
      · have rest : ∀ item ∈ tail, key item ≠ target := by
          intro item member same
          exact nodup.1 (isTarget ▸ same ▸ List.mem_map_of_mem member)
        have kept : tail.map (fun item => if key item = target then change item else item) =
            tail := by
          rw [List.map_congr_left fun item member => if_neg (rest item member), List.map_id']
        rw [if_pos (decide_eq_true isTarget), if_pos isTarget, kept]
      · rw [if_neg (by simpa using isTarget), if_neg isTarget, ih nodup.2]

end Vectors

end Llxprt.Rust
