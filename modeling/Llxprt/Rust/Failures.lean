import Llxprt.Rust.Result

/-!
# Kinds of errors

All errors of a fallible function are of one kind when the errors of its stages
are.
-/

namespace Llxprt.Rust

variable {ε α β : Type} {kind : ε → Prop}

/-- Every error of the computation is of the kind. -/
def FailsWith (kind : ε → Prop) (computation : Except ε α) : Prop :=
  ∀ error, computation = .error error → kind error

theorem failsWith_ok {value : α} : FailsWith kind (.ok value : Except ε α) := by
  intro error failed
  cases failed

theorem failsWith_pure {value : α} : FailsWith kind (pure value : Except ε α) :=
  failsWith_ok

theorem failsWith_error {error : ε} (known : kind error) :
    FailsWith kind (.error error : Except ε α) := by
  intro other failed
  cases failed
  exact known

theorem failsWith_reject {refused : Prop} [Decidable refused] {error : ε} (known : kind error) :
    FailsWith kind (reject refused error) := by
  unfold reject
  split
  · exact failsWith_error known
  · exact failsWith_ok

theorem failsWith_okOr {value : Option α} {error : ε} (known : kind error) :
    FailsWith kind (okOr value error) := by
  cases value with
  | none => exact failsWith_error known
  | some found => exact failsWith_ok

theorem failsWith_mapError {δ : Type} {translate : δ → ε} {computation : Except δ α}
    (known : ∀ error, kind (translate error)) : FailsWith kind (computation.mapError translate) := by
  cases computation with
  | error error => exact failsWith_error (known error)
  | ok value => exact failsWith_ok

theorem failsWith_bind {first : Except ε α} {next : α → Except ε β} (early : FailsWith kind first)
    (late : ∀ value, FailsWith kind (next value)) : FailsWith kind (first >>= next) := by
  cases first with
  | error error => exact failsWith_error (early error rfl)
  | ok value => exact late value

theorem failsWith_foldlM {items : List β} {step : α → β → Except ε α} {start : α}
    (each : ∀ value item, FailsWith kind (step value item)) :
    FailsWith kind (items.foldlM step start) := by
  induction items generalizing start with
  | nil => exact failsWith_pure
  | cons item items ih =>
      rw [List.foldlM_cons]
      exact failsWith_bind (each start item) fun _ => ih

theorem failsWith_forM {items : List β}
    {step : β → Except ε Unit}
    (each : ∀ item, FailsWith kind (step item)) : FailsWith kind (items.forM step) := by
  induction items with
  | nil => exact failsWith_pure
  | cons item items ih => exact failsWith_bind (each item) fun _ => ih

end Llxprt.Rust
