import Mathlib.Data.List.Forall2

/-!
# Lists that are related element by element

Relations between the elements of two lists, and of a list and a part of another
one, compose and go along with filters that respect them.
-/

namespace Llxprt.Rust

universe u

variable {α : Type u} {relation : α → α → Prop} {items others last : List α}

theorem forall₂_trans (trans : ∀ {first second third}, relation first second →
      relation second third → relation first third)
    (one : List.Forall₂ relation items others) (two : List.Forall₂ relation others last) :
    List.Forall₂ relation items last := by
  induction one generalizing last with
  | nil => exact two
  | cons first _ ih =>
      rcases List.forall₂_cons_left_iff.mp two with ⟨item, rest, second, more, rfl⟩
      exact .cons (trans first second) (ih more)

/-- A test that related elements pass together filters both lists alike. -/
theorem forall₂_filter {test : α → Bool}
    (respects : ∀ first second, relation first second → test first = test second)
    (related : List.Forall₂ relation items others) :
    List.Forall₂ relation (items.filter test) (others.filter test) := by
  induction related with
  | nil => exact .nil
  | @cons head next tail rest first _ ih =>
      have same := respects head next first
      by_cases kept : test head = true
      · rw [List.filter_cons_of_pos kept, List.filter_cons_of_pos (same ▸ kept)]
        exact .cons first ih
      · rw [List.filter_cons_of_neg kept, List.filter_cons_of_neg (same ▸ kept)]
        exact ih

/-- A test that only passes elements that are related by equality. -/
theorem filter_eq_of_forall₂ {test : α → Bool}
    (respects : ∀ first second, relation first second → test first = test second)
    (fixed : ∀ first second, relation first second → test first = true → second = first)
    (related : List.Forall₂ relation items others) : others.filter test = items.filter test := by
  induction related with
  | nil => rfl
  | @cons head next tail rest first _ ih =>
      have same := respects head next first
      by_cases kept : test head = true
      · rw [List.filter_cons_of_pos kept, List.filter_cons_of_pos (same ▸ kept), ih,
          fixed head next first kept]
      · rw [List.filter_cons_of_neg kept, List.filter_cons_of_neg (same ▸ kept), ih]

/-- What no element passes, no related element passes. -/
theorem forall₂_missed {test : α → Bool}
    (respects : ∀ first second, relation first second → test first = test second)
    (related : List.Forall₂ relation items others) (missed : ∀ item ∈ items, test item = false) :
    ∀ item ∈ others, test item = false := by
  induction related with
  | nil => exact fun item member => absurd member List.not_mem_nil
  | @cons head next tail rest first _ ih =>
      intro item member
      rcases List.mem_cons.mp member with rfl | old
      · rw [← respects head item first]
        exact missed head List.mem_cons_self
      · exact ih (fun other inside => missed other (List.mem_cons_of_mem _ inside)) item old

theorem sublistForall₂_trans (trans : ∀ {first second third}, relation first second →
      relation second third → relation first third)
    (one : List.SublistForall₂ relation items others)
    (two : List.SublistForall₂ relation others last) :
    List.SublistForall₂ relation items last := by
  have : IsTrans α relation := ⟨fun _ _ _ => trans⟩
  exact IsTrans.trans _ _ _ one two

theorem sublistForall₂_of_forall₂ (related : List.Forall₂ relation items others) :
    List.SublistForall₂ relation items others :=
  List.sublistForall₂_iff.mpr ⟨others, related, List.Sublist.refl others⟩

theorem sublistForall₂_filter {test : α → Bool}
    (respects : ∀ first second, relation first second → test first = test second)
    (within : List.SublistForall₂ relation items others) :
    List.SublistForall₂ relation (items.filter test) (others.filter test) := by
  rcases List.sublistForall₂_iff.mp within with ⟨part, related, sublist⟩
  exact List.sublistForall₂_iff.mpr
    ⟨part.filter test, forall₂_filter respects related, sublist.filter test⟩

/-- Whatever stands behind the first elements is related again. -/
theorem sublistForall₂_of_cons {head next : α}
    (within : List.SublistForall₂ relation (head :: items) (next :: others)) :
    List.SublistForall₂ relation items others := by
  rcases List.sublistForall₂_iff.mp within with ⟨part, related, sublist⟩
  rcases List.forall₂_cons_left_iff.mp related with ⟨item, rest, _, more, rfl⟩
  exact List.sublistForall₂_iff.mpr ⟨rest, more, sublist.tail⟩

end Llxprt.Rust
