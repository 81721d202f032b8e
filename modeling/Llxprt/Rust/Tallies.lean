import Mathlib.Algebra.BigOperators.Group.List.Basic
import Mathlib.Algebra.Ring.Nat
import Mathlib.Tactic.Common

/-!
# Tallies over lists

What the counted items of a list measure together, how a tally moves when an
item is appended or replaced, and which first items of a list a bound admits.
-/

namespace Llxprt.Rust

universe u

variable {α : Type u} {counted other : α → Bool} {measure : α → Nat} {items : List α} {item : α}

/-- The sum of a measure over the counted items. -/
def tally (counted : α → Bool) (measure : α → Nat) (items : List α) : Nat :=
  (items.map fun item => if counted item then measure item else 0).sum

@[simp]
theorem tally_nil : tally counted measure [] = 0 :=
  rfl

@[simp]
theorem tally_cons : tally counted measure (item :: items) =
    (if counted item then measure item else 0) + tally counted measure items := by
  simp [tally]

theorem tally_concat : tally counted measure (items ++ [item]) =
    tally counted measure items + if counted item then measure item else 0 := by
  simp [tally]

/-- A replaced item takes its measure along and brings that of the new one. -/
theorem tally_set {old new : α} {index : Nat} (listed : items[index]? = some old) :
    tally counted measure (items.set index new) + (if counted old then measure old else 0) =
      tally counted measure items + if counted new then measure new else 0 := by
  induction items generalizing index with
  | nil => cases listed
  | cons head items ih =>
      cases index with
      | zero =>
          cases listed
          rw [List.set_cons_zero, tally_cons, tally_cons]
          omega
      | succ index =>
          have rest := ih listed
          rw [List.set_cons_succ, tally_cons, tally_cons]
          omega

theorem tally_congr (same : ∀ item ∈ items, counted item = other item) :
    tally counted measure items = tally other measure items := by
  unfold tally
  rw [List.map_congr_left]
  intro item member
  rw [same item member]

/-- Nothing is tallied when every counted item measures nothing. -/
theorem tally_eq_zero (nothing : ∀ item ∈ items, counted item = true → measure item = 0) :
    tally counted measure items = 0 := by
  induction items with
  | nil => rfl
  | cons head items ih =>
      have rest := ih fun item member => nothing item (List.mem_cons_of_mem head member)
      rw [tally_cons, rest]
      split
      · rename_i isCounted
        exact nothing head List.mem_cons_self isCounted
      · rfl

/-- Counting more tallies more. -/
theorem tally_le_tally (more : ∀ item, counted item = true → other item = true) :
    tally counted measure items ≤ tally other measure items := by
  induction items with
  | nil => exact le_refl 0
  | cons head items ih =>
      rw [tally_cons, tally_cons]
      cases head_counted : counted head with
      | false => exact (Nat.zero_add _).le.trans (ih.trans (Nat.le_add_left _ _))
      | true =>
          rw [more head head_counted]
          exact Nat.add_le_add_left ih _

section Within

variable {bound total : Nat}

/-- The first items whose measures, added to a total, stay within the bound. -/
def within (bound : Nat) (measure : α → Nat) : Nat → List α → List α
  | _, [] => []
  | total, item :: items =>
      if total + measure item ≤ bound then
        item :: within bound measure (total + measure item) items
      else
        []

theorem within_prefix : within bound measure total items <+: items := by
  induction items generalizing total with
  | nil => exact List.prefix_rfl
  | cons head items ih =>
      rw [within]
      split
      · exact List.cons_prefix_cons.mpr ⟨rfl, ih⟩
      · exact List.nil_prefix

/-- An item joins when all the items before it are in and it still fits. -/
theorem within_concat [DecidableEq α] : within bound measure total (items ++ [item]) =
    if within bound measure total items = items ∧
        total + (items.map measure).sum + measure item ≤ bound then
      items ++ [item]
    else
      within bound measure total items := by
  induction items generalizing total with
  | nil => simp [within]
  | cons head items ih =>
      rw [List.cons_append, within, within, List.map_cons, List.sum_cons, ← Nat.add_assoc]
      by_cases fits : total + measure head ≤ bound
      · rw [if_pos fits, if_pos fits, ih]
        simp only [List.cons.injEq, true_and]
        split <;> rfl
      · rw [if_neg fits, if_neg fits, if_neg]
        rintro ⟨missing, _⟩
        cases missing

end Within

end Llxprt.Rust
