import Mathlib.Algebra.Ring.Nat
import Mathlib.Data.List.Basic
import Mathlib.Tactic.Common

/-!
# Occurrences of a word in a text

The first occurrence, the matches of a scan from left to right, and their
replacement.  A scan does not see an occurrence that overlaps the match before
it, so one match may stand for several occurrences.
-/

namespace Llxprt.Rust.Matching

variable {α : Type} {needle text : List α} {position : Nat}

/-- The word stands at the position. -/
def OccursAt (needle text : List α) (position : Nat) : Prop :=
  needle <+: text.drop position

section Scans

variable [DecidableEq α]

/-- `str::find`. -/
def find (needle : List α) : List α → Option Nat
  | [] => if needle = [] then some 0 else none
  | head :: rest =>
      if needle <+: head :: rest then some 0 else (find needle rest).map (· + 1)

/-- The text with the first matches replaced. -/
def replaceFirst (needle replacement : List α) : Nat → List α → List α
  | 0, text => text
  | remaining + 1, text =>
      match find needle text with
      | none => text
      | some start => text.take start ++ replacement ++
          replaceFirst needle replacement remaining (text.drop (start + needle.length))

end Scans

/-- The pieces of a text between the matches of a scan from left to right. -/
inductive Pieces (needle : List α) : List α → List (List α) → Prop where
  | last {text : List α} (clear : ∀ position, ¬ OccursAt needle text position) :
      Pieces needle text [text]
  | next {before rest : List α} {pieces : List (List α)}
      (leftmost : ∀ position < before.length,
        ¬ OccursAt needle (before ++ needle ++ rest) position)
      (others : Pieces needle rest pieces) :
      Pieces needle (before ++ needle ++ rest) (before :: pieces)

/-- No two occurrences overlap. -/
def Apart (needle text : List α) : Prop :=
  ∀ left right, OccursAt needle text left → OccursAt needle text right → left < right →
    left + needle.length ≤ right

section Finding

theorem OccursAt.le_length (occurs : OccursAt needle text position) (nonempty : needle ≠ []) :
    position + needle.length ≤ text.length := by
  have length := occurs.length_le
  have positive := List.length_pos_of_ne_nil nonempty
  rw [List.length_drop] at length
  omega

/-- A text is what stands before an occurrence, the word, and what stands behind it. -/
theorem OccursAt.split (occurs : OccursAt needle text position) :
    text.take position ++ needle ++ text.drop (position + needle.length) = text := by
  rcases occurs with ⟨rest, behind⟩
  have dropped : text.drop (position + needle.length) = rest := by
    rw [← List.drop_drop, ← behind, List.drop_left]
  rw [dropped, List.append_assoc, behind, List.take_append_drop]

variable [DecidableEq α]

theorem find_eq_some (nonempty : needle ≠ []) :
    find needle text = some position ↔
      OccursAt needle text position ∧ ∀ earlier < position, ¬ OccursAt needle text earlier := by
  induction text generalizing position with
  | nil =>
      rw [find, if_neg nonempty]
      simp only [reduceCtorEq, false_iff, not_and]
      intro occurs
      have length := occurs.le_length nonempty
      have positive := List.length_pos_of_ne_nil nonempty
      rw [List.length_nil] at length
      omega
  | cons head rest ih =>
      rw [find]
      by_cases here : needle <+: head :: rest
      · rw [if_pos here, Option.some.injEq]
        constructor
        · rintro rfl
          exact ⟨here, fun earlier below => absurd below (Nat.not_lt_zero _)⟩
        · rintro ⟨_, leftmost⟩
          by_contra later
          exact leftmost 0 (Nat.pos_of_ne_zero fun zero => later zero.symm) here
      · rw [if_neg here, Option.map_eq_some_iff]
        constructor
        · rintro ⟨inner, found, rfl⟩
          rcases ih.mp found with ⟨occurs, leftmost⟩
          refine ⟨occurs, ?_⟩
          intro earlier below
          cases earlier with
          | zero => exact here
          | succ earlier => exact leftmost earlier (Nat.lt_of_succ_lt_succ below)
        · rintro ⟨occurs, leftmost⟩
          cases position with
          | zero => exact absurd occurs here
          | succ inner =>
              refine ⟨inner, ih.mpr ⟨occurs, ?_⟩, rfl⟩
              exact fun earlier below => leftmost (earlier + 1) (Nat.succ_lt_succ below)

end Finding

section Scanning

variable {pieces : List (List α)} {replacement : List α}

theorem Pieces.ne_nil (scanned : Pieces needle text pieces) : pieces ≠ [] := by
  cases scanned <;> simp

/-- The text is its pieces with the word between them. -/
theorem Pieces.intercalate (scanned : Pieces needle text pieces) :
    needle.intercalate pieces = text := by
  induction scanned with
  | last clear => exact List.intercalate_singleton
  | next leftmost others ih =>
      rw [List.intercalate_cons_of_ne_nil others.ne_nil, ih]

variable [DecidableEq α]

/-- Replacing all matches puts the replacement between the pieces. -/
theorem Pieces.replaceFirst (scanned : Pieces needle text pieces) (nonempty : needle ≠ [])
    {count : Nat} (counted : pieces.length = count + 1) :
    replaceFirst needle replacement count text = replacement.intercalate pieces := by
  induction scanned generalizing count with
  | last clear =>
      have none : count = 0 := (Nat.succ.inj counted).symm
      subst none
      exact List.intercalate_singleton.symm
  | @next before rest pieces leftmost others ih =>
      cases count with
      | zero => exact absurd (Nat.succ.inj counted) (mt List.length_eq_zero_iff.mp others.ne_nil)
      | succ count =>
          have occurs : OccursAt needle (before ++ needle ++ rest) before.length := by
            rw [OccursAt, List.append_assoc, List.drop_left]
            exact List.prefix_append ..
          have found : find needle (before ++ needle ++ rest) = some before.length :=
            (find_eq_some nonempty).mpr ⟨occurs, leftmost⟩
          have behind : (before ++ needle ++ rest).drop (before.length + needle.length) = rest := by
            rw [← List.length_append, List.drop_left]
          have ahead : (before ++ needle ++ rest).take before.length = before := by
            rw [List.append_assoc, List.take_left]
          rw [Matching.replaceFirst, found, List.intercalate_cons_of_ne_nil others.ne_nil]
          simp only [behind, ahead]
          rw [ih (Nat.succ.inj counted)]

end Scanning

end Llxprt.Rust.Matching
