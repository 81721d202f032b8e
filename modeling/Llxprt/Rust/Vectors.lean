import Llxprt.Rust.Collections

/-!
# Scans over vectors

A record of a vector is found by its key and changed in place, and a loop that
inserts every key into a set stops at the first repetition.
-/

namespace Llxprt.Rust

universe u v

variable {α : Type u}

/-- Nothing before or after the first match changes. -/
theorem updateFirst_append {found : α → Bool} {change : α → α} {before after : List α} {item : α}
    (missed : ∀ other ∈ before, found other = false) (hit : found item = true) :
    updateFirst found change (before ++ item :: after) = before ++ change item :: after := by
  induction before with
  | nil => rw [List.nil_append, updateFirst, if_pos hit, List.nil_append]
  | cons head tail ih =>
      rw [List.cons_append, updateFirst, missed head List.mem_cons_self, if_neg Bool.false_ne_true,
        ih fun other member => missed other (List.mem_cons_of_mem _ member), List.cons_append]

theorem find?_append_hit {found : α → Bool} {before after : List α} {item : α}
    (missed : ∀ other ∈ before, found other = false) (hit : found item = true) :
    (before ++ item :: after).find? found = some item := by
  have nothing : before.find? found = none := by
    rw [List.find?_eq_none]
    intro other member
    rw [missed other member]
    exact Bool.false_ne_true
  rw [List.find?_append, nothing, List.find?_cons_of_pos hit, Option.none_or]

/-- The first match splits the vector, and a change of it takes its place. -/
theorem updateFirst_of_find? {found : α → Bool} {items : List α} {item : α}
    (present : items.find? found = some item) :
    ∃ before after, items = before ++ item :: after ∧ found item = true ∧
      (∀ other ∈ before, found other = false) ∧
      ∀ change : α → α, updateFirst found change items = before ++ change item :: after := by
  rcases List.find?_eq_some_iff_append.mp present with ⟨hit, before, after, split, missed⟩
  have apart : ∀ other ∈ before, found other = false := by simpa using missed
  refine ⟨before, after, split, hit, apart, ?_⟩
  intro change
  rw [split, updateFirst_append apart hit]

/-- A change of the first match relates the vectors element by element. -/
theorem forall₂_updateFirst {relation : α → α → Prop} {found : α → Bool} {change : α → α}
    {items : List α} (unchanged : ∀ item, relation item item)
    (changed : ∀ item, items.find? found = some item → relation item (change item)) :
    List.Forall₂ relation items (updateFirst found change items) := by
  induction items with
  | nil => exact .nil
  | cons head tail ih =>
      by_cases hit : found head = true
      · rw [updateFirst, if_pos hit]
        refine .cons (changed head (List.find?_cons_of_pos hit)) ?_
        exact List.forall₂_same.mpr fun item _ => unchanged item
      · rw [updateFirst, if_neg hit]
        refine .cons (unchanged head) (ih ?_)
        intro item present
        apply changed item
        rw [List.find?_cons_of_neg hit]
        exact present

/-- Elementwise related vectors have related elements at every index. -/
theorem forall₂_getElem? {relation : α → α → Prop} {items later : List α}
    (related : List.Forall₂ relation items later) {index : Nat} {item : α}
    (present : items[index]? = some item) :
    ∃ next, later[index]? = some next ∧ relation item next := by
  induction related generalizing index with
  | nil => simp at present
  | @cons head next tail rest first _ ih =>
      cases index with
      | zero =>
          rw [List.getElem?_cons_zero, Option.some.injEq] at present
          exact ⟨next, rfl, present ▸ first⟩
      | succ index =>
          rw [List.getElem?_cons_succ] at present ⊢
          exact ih present

/-- An order between elements survives an elementwise change that respects it. -/
theorem pairwise_of_forall₂ {order relation : α → α → Prop} {items later : List α}
    (related : List.Forall₂ relation items later) (ordered : items.Pairwise order)
    (respects : ∀ first second next following, relation first next → relation second following →
      order first second → order next following) : later.Pairwise order := by
  induction related with
  | nil => exact .nil
  | @cons head next tail rest first others ih =>
      rw [List.pairwise_cons] at ordered ⊢
      refine ⟨?_, ih ordered.2⟩
      intro following member
      rcases List.getElem?_of_mem member with ⟨index, found⟩
      have flipped : List.Forall₂ (fun left right => relation right left) rest tail :=
        List.Forall₂.flip others
      rcases forall₂_getElem? flipped found with ⟨second, present, moved⟩
      exact respects head second next following first moved
        (ordered.1 second (List.mem_of_getElem? present))

section Repetition

variable {κ : Type v} [Ord κ] [Std.TransOrd κ]

/-- A scan `any(|item| bad(item) || !seen.insert(key(item)))`. -/
def anyBadOrRepeated (bad : α → Bool) (key : α → κ) (seen : BTreeSet κ) : List α → Bool
  | [] => false
  | head :: tail =>
      bad head || seen.contains (key head) ||
        anyBadOrRepeated bad key (seen.insert (key head)) tail

variable [Std.LawfulEqOrd κ]

/-- A set that takes up the first key misses the others exactly when it missed
all of them and they differ from the first. -/
theorem forall_notMem_insert {key : α → κ} {seen : BTreeSet κ} {head : κ} {tail : List α} :
    (∀ item ∈ tail, key item ∉ seen.insert head) ↔
      head ∉ tail.map key ∧ ∀ item ∈ tail, key item ∉ seen := by
  constructor
  · intro missed
    constructor
    · intro listed
      rcases List.mem_map.mp listed with ⟨item, member, same⟩
      apply missed item member
      rw [same]
      exact Std.ExtTreeSet.mem_insert_self
    · intro item member seenBefore
      exact missed item member (Std.ExtTreeSet.mem_insert.mpr (.inr seenBefore))
  · rintro ⟨apart, missed⟩ item member inserted
    rcases Std.ExtTreeSet.mem_insert.mp inserted with same | seenBefore
    · rw [Std.LawfulEqOrd.compare_eq_iff_eq] at same
      exact apart (same ▸ List.mem_map_of_mem member)
    · exact missed item member seenBefore

theorem anyBadOrRepeated_eq_false {bad : α → Bool} {key : α → κ} {seen : BTreeSet κ}
    {items : List α} :
    anyBadOrRepeated bad key seen items = false ↔
      (∀ item ∈ items, bad item = false) ∧ (items.map key).Nodup ∧
        ∀ item ∈ items, key item ∉ seen := by
  induction items generalizing seen with
  | nil => simp [anyBadOrRepeated]
  | cons head tail ih =>
      have unseen : seen.contains (key head) = false ↔ key head ∉ seen := by
        rw [← Std.ExtTreeSet.contains_iff_mem, Bool.not_eq_true]
      rw [anyBadOrRepeated, Bool.or_eq_false_iff, Bool.or_eq_false_iff, ih, unseen,
        forall_notMem_insert, List.forall_mem_cons, List.forall_mem_cons, List.map_cons,
        List.nodup_cons]
      constructor
      · rintro ⟨⟨good, first⟩, rest, nodup, apart, others⟩
        exact ⟨⟨good, rest⟩, ⟨apart, nodup⟩, first, others⟩
      · rintro ⟨⟨good, rest⟩, ⟨apart, nodup⟩, first, others⟩
        exact ⟨⟨good, first⟩, rest, nodup, apart, others⟩

end Repetition

end Llxprt.Rust
