import Mathlib.Data.List.Nodup
import Mathlib.Tactic.Common

/-!
# Compare-and-commit registers

A version register is advanced by bumps and by commits that name the version
they were prepared against.  A commit is accepted when it names the version the
register holds, and it writes whatever target it carries.  The register is safe
against reuse of a stale parent exactly when no commit lowers the version and
every commit that keeps the version is followed by a bump before the next one.
-/

namespace Llxprt.Rust.CompareAndCommit

/-- One event seen by the register. -/
inductive Write where
  | keep
  | bump
  | commit (parent target : Nat)

/-- The version after a write. -/
def Write.apply (version : Nat) : Write → Nat
  | keep => version
  | bump => version + 1
  | commit _ target => target

/-- The version after a sequence of writes. -/
def after (version : Nat) (writes : List Write) : Nat :=
  writes.foldl Write.apply version

/-- Every commit names the version that the register holds. -/
def Accepted : Nat → List Write → Prop
  | _, [] => True
  | version, .commit parent target :: writes => parent = version ∧ Accepted target writes
  | version, write :: writes => Accepted (write.apply version) writes

/-- No write lowers the version. -/
def NeverDecreases : Nat → List Write → Prop
  | _, [] => True
  | version, write :: writes =>
      version ≤ write.apply version ∧ NeverDecreases (write.apply version) writes

/-- The parents that the commits name, in order. -/
def parents : List Write → List Nat
  | [] => []
  | .commit parent _ :: writes => parent :: parents writes
  | _ :: writes => parents writes

/-- Commits never go back, and a commit that keeps the version is followed by a
bump before the next commit.  The flag says that such a bump is due. -/
def Advances : Bool → List Write → Prop
  | _, [] => True
  | pending, .keep :: writes => Advances pending writes
  | _, .bump :: writes => Advances false writes
  | pending, .commit parent target :: writes =>
      pending = false ∧ parent ≤ target ∧ Advances (decide (target = parent)) writes

instance : (pending : Bool) → (writes : List Write) → Decidable (Advances pending writes)
  | _, [] => .isTrue trivial
  | pending, .keep :: writes => instDecidableAdvances pending writes
  | _, .bump :: writes => instDecidableAdvances false writes
  | _, .commit parent target :: writes =>
      have := instDecidableAdvances (decide (target = parent)) writes
      inferInstanceAs (Decidable (_ ∧ _ ∧ _))

variable {version : Nat} {writes : List Write}

theorem le_after (h : NeverDecreases version writes) (count : Nat) :
    version ≤ after version (writes.take count) := by
  induction writes generalizing version count with
  | nil => simp [after]
  | cons write writes ih =>
      cases count with
      | zero => simp [after]
      | succ count => exact Nat.le_trans h.1 (ih h.2 count)

theorem neverDecreases_iff :
    NeverDecreases version writes ↔
      ∀ earlier later, earlier ≤ later →
        after version (writes.take earlier) ≤ after version (writes.take later) := by
  induction writes generalizing version with
  | nil => simp [NeverDecreases]
  | cons write writes ih =>
      constructor
      · intro h earlier later ordered
        cases earlier with
        | zero => exact le_after h later
        | succ earlier =>
            cases later with
            | zero => exact absurd ordered (Nat.not_succ_le_zero earlier)
            | succ later => exact ih.mp h.2 earlier later (Nat.le_of_succ_le_succ ordered)
      · intro h
        constructor
        · exact h 0 1 (Nat.zero_le 1)
        · apply ih.mpr
          intro earlier later ordered
          exact h (earlier + 1) (later + 1) (Nat.succ_le_succ ordered)

/-- Later parents are not below the version. -/
theorem le_parents (accepted : Accepted version writes) (h : NeverDecreases version writes) :
    ∀ parent ∈ parents writes, version ≤ parent := by
  induction writes generalizing version with
  | nil => simp [parents]
  | cons write writes ih =>
      intro parent member
      cases write with
      | keep => exact ih accepted h.2 parent member
      | bump => exact Nat.le_of_succ_le (ih accepted h.2 parent member)
      | commit named target =>
          rcases List.mem_cons.mp member with rfl | member
          · exact Nat.le_of_eq accepted.1.symm
          · exact Nat.le_trans h.1 (ih accepted.2 h.2 parent member)

/-- Exact safety of the register. -/
theorem advances_iff (accepted : Accepted version writes) (pending : Bool) :
    Advances pending writes ↔
      NeverDecreases version writes ∧ (parents writes).Nodup ∧
        (pending = true → version ∉ parents writes) := by
  induction writes generalizing version pending with
  | nil => simp [Advances, NeverDecreases, parents]
  | cons write writes ih =>
      cases write with
      | keep => simpa [Advances, NeverDecreases, parents, Write.apply] using ih accepted pending
      | bump =>
          have bumped : Accepted (version + 1) writes := accepted
          have rest := ih bumped false
          simp only [Advances, NeverDecreases, parents, Write.apply, rest]
          constructor
          · rintro ⟨up, nodup, _⟩
            refine ⟨⟨Nat.le_succ version, up⟩, nodup, ?_⟩
            intro _ member
            have above : version + 1 ≤ version := le_parents bumped up version member
            exact absurd above (Nat.not_succ_le_self version)
          · rintro ⟨⟨_, up⟩, nodup, _⟩
            exact ⟨up, nodup, by simp⟩
      | commit parent target =>
          rcases accepted with ⟨rfl, accepted⟩
          have rest := ih accepted (decide (target = parent))
          simp only [Advances, NeverDecreases, parents, Write.apply, List.nodup_cons, rest,
            decide_eq_true_eq]
          constructor
          · rintro ⟨notPending, up, laterUp, nodup, separate⟩
            refine ⟨⟨up, laterUp⟩, ⟨?_, nodup⟩, by simp [notPending]⟩
            intro member
            have above := le_parents accepted laterUp parent member
            have same : target = parent := Nat.le_antisymm above up
            exact separate same (same ▸ member)
          · rintro ⟨⟨up, laterUp⟩, ⟨separate, nodup⟩, notPending⟩
            refine ⟨?_, up, laterUp, nodup, fun same => same ▸ separate⟩
            cases pending with
            | false => rfl
            | true => exact absurd (List.mem_cons_self) (notPending rfl)

end Llxprt.Rust.CompareAndCommit
