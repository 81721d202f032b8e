import Mathlib.Tactic.Common

/-!
# Early returns of fallible functions

A fallible function that never publishes a half-finished receiver is an
`Except`-valued function.  Its guards are chains of early returns, so the
inversion rules below are all that a caller needs: a chain succeeds exactly
when every guard was passed and the tail succeeded.
-/

namespace Llxprt.Rust

universe u v w

variable {ε : Type u} {α : Type v} {β : Type w}

/-- The guard `if refused { return Err(error) }`. -/
def reject (refused : Prop) [Decidable refused] (error : ε) : Except ε Unit :=
  if refused then .error error else .ok ()

/-- The conversion `option.ok_or(error)?`. -/
def okOr (value : Option α) (error : ε) : Except ε α :=
  match value with
  | some found => .ok found
  | none => .error error

@[simp]
theorem reject_eq_ok {refused : Prop} [Decidable refused] {error : ε} {result : Unit} :
    reject refused error = .ok result ↔ ¬ refused := by
  by_cases h : refused <;> simp [reject, h]

@[simp]
theorem okOr_eq_ok {value : Option α} {error : ε} {found : α} :
    okOr value error = .ok found ↔ value = some found := by
  cases value <;> simp [okOr]

@[simp]
theorem pure_eq_ok {value result : α} :
    (pure value : Except ε α) = .ok result ↔ value = result := by
  simp [pure, Except.pure]

@[simp]
theorem throw_ne_ok {error : ε} {result : α} :
    (throw error : Except ε α) = .ok result ↔ False := by
  simp [throw, throwThe, MonadExceptOf.throw]

@[simp]
theorem mapError_eq_ok {δ : Type u} {translate : ε → δ} {computation : Except ε α} {result : α} :
    computation.mapError translate = .ok result ↔ computation = .ok result := by
  cases computation <;> simp [Except.mapError]

/-- A sequenced computation succeeds exactly when both of its stages do. -/
@[simp]
theorem bind_eq_ok {ε α β : Type u} {first : Except ε α} {next : α → Except ε β} {result : β} :
    (first >>= next) = .ok result ↔ ∃ value, first = .ok value ∧ next value = .ok result := by
  cases first <;> simp [bind, Except.bind]

end Llxprt.Rust
