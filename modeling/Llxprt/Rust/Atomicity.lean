import Llxprt.Rust.Method

/-!
# Atomic methods

A method is atomic on a part of its receiver when that part is unchanged unless
the method returns normally.  Checks may come first in any number; after the
first change only steps that cannot fail may follow.
-/

namespace Llxprt.Rust.Method

variable {σ τ ρ ε δ α β : Type} {view : σ → ρ} {self : σ}

/-- Unless the method returns normally, the viewed part is as it was. -/
def Atomic (view : σ → ρ) (method : Method σ ε α) (self : σ) : Prop :=
  (method self).1.isOk = false → view (method self).2 = view self

/-- The method returns normally. -/
def Total (method : Method σ ε α) (self : σ) : Prop :=
  (method self).1.isOk = true

theorem Atomic.err_eq {method : Method σ ε α} (atomic : Atomic view method self) {error : ε}
    {next : σ} (h : method self = (.err error, next)) : view next = view self := by
  have kept := atomic (by rw [h]; rfl)
  rwa [h] at kept

theorem atomic_of_kept {method : Method σ ε α} (kept : view (method self).2 = view self) :
    Atomic view method self :=
  fun _ => kept

theorem atomic_of_total {method : Method σ ε α} (total : Total method self) :
    Atomic view method self := by
  intro failed
  rw [total] at failed
  cases failed

section Checks

@[simp]
theorem ofExcept_kept (result : Except ε α) :
    ((ofExcept result : Method σ ε α) self).2 = self := by
  cases result <;> rfl

@[simp]
theorem refuse_kept (refused : Prop) [Decidable refused] (error : ε) :
    ((refuse refused error : Method σ ε Unit) self).2 = self := by
  rw [refuse_apply]
  split <;> rfl

@[simp]
theorem read_kept : ((read : Method σ ε σ) self).2 = self :=
  rfl

end Checks

theorem total_pure (value : α) : Total (pure value : Method σ ε α) self :=
  rfl

theorem total_update (change : σ → σ) : Total (update change : Method σ ε Unit) self :=
  rfl

theorem total_of_eq {method : Method σ ε α} {value : α} {next : σ}
    (h : method self = (.ok value, next)) : Total method self := by
  rw [Total, h]
  rfl

theorem total_bind {first : Method σ ε α} {next : α → Method σ ε β} {value : α} {middle : σ}
    (firstOk : first self = (.ok value, middle)) (rest : Total (next value) middle) :
    Total (first >>= next) self := by
  rw [Total, bind_of_ok firstOk]
  exact rest

theorem total_mapErr {translate : ε → δ} {inner : Method σ ε α} (total : Total inner self) :
    Total (mapErr translate inner) self := by
  change ((inner self).1.mapErr translate).isOk = true
  rcases Outcome.isOk_iff.mp total with ⟨value, returned⟩
  rw [returned]
  rfl

theorem focus_of_err {part : σ → τ} {put : σ → τ → σ} {inner : Method τ ε α} {error : ε}
    {next : τ} (h : inner (part self) = (.err error, next)) :
    focus part put inner self = (.err error, put self next) := by
  rw [focus, h]

/-- A step that keeps the view may come before anything atomic. -/
theorem atomic_bind_kept {first : Method σ ε α} {next : α → Method σ ε β}
    (kept : view (first self).2 = view self)
    (rest : ∀ value middle, first self = (.ok value, middle) → Atomic view (next value) middle) :
    Atomic view (first >>= next) self := by
  intro failed
  rw [bind_apply] at failed ⊢
  rcases firstOk : first self with ⟨value | error | _, middle⟩
  · rw [firstOk] at failed kept
    exact (rest value middle firstOk failed).trans kept
  · rw [firstOk] at kept
    exact kept
  · rw [firstOk] at kept
    exact kept

/-- A check of the whole receiver. -/
theorem atomic_bind_check {first : Method σ ε α} {next : α → Method σ ε β}
    (kept : (first self).2 = self)
    (rest : ∀ value, first self = (.ok value, self) → Atomic view (next value) self) :
    Atomic view (first >>= next) self := by
  apply atomic_bind_kept (congrArg view kept)
  intro value middle firstOk
  rw [firstOk] at kept
  subst kept
  exact rest value firstOk

/-- After an atomic step only steps that cannot fail may follow. -/
theorem atomic_bind_total {first : Method σ ε α} {next : α → Method σ ε β}
    (atomic : Atomic view first self)
    (rest : ∀ value middle, first self = (.ok value, middle) → Total (next value) middle) :
    Atomic view (first >>= next) self := by
  intro failed
  rw [bind_apply] at failed ⊢
  rcases firstOk : first self with ⟨value | error | _, middle⟩
  · rw [firstOk] at failed
    have total := rest value middle firstOk
    rw [total] at failed
    cases failed
  · have kept := atomic (by rw [firstOk]; rfl)
    rwa [firstOk] at kept
  · have kept := atomic (by rw [firstOk]; rfl)
    rwa [firstOk] at kept

theorem atomic_staged (next : σ → Except ε σ) : Atomic view (staged next) self := by
  intro failed
  unfold staged at failed ⊢
  cases staged : next self with
  | ok result =>
      rw [staged] at failed
      cases failed
  | error error => rfl

theorem atomic_mapErr {translate : ε → δ} {inner : Method σ ε α}
    (atomic : Atomic view inner self) : Atomic view (mapErr translate inner) self := by
  intro failed
  apply atomic
  change ((inner self).1.mapErr translate).isOk = false at failed
  cases outcome : (inner self).1 with
  | ok value =>
      rw [outcome] at failed
      cases failed
  | err error => rfl
  | panic => rfl

/-- A method of a field is atomic on the whole receiver when it is on the field. -/
theorem atomic_focus {part : σ → τ} {put : σ → τ → σ} {inner : Method τ ε α}
    (restores : put self (part self) = self) (atomic : Atomic (fun field => field) inner (part self)) :
    Atomic view (focus part put inner) self := by
  intro failed
  have kept : (inner (part self)).2 = part self := atomic failed
  change view (put self (inner (part self)).2) = view self
  rw [kept, restores]

end Llxprt.Rust.Method
