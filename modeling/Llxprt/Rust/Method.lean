import Llxprt.Rust.Result

/-!
# Methods that mutate their receiver

A method taking its receiver by mutable reference leaves the receiver in some
state whether it returns normally, returns an error or panics.  `Method` keeps
that state in all three cases, so a mutation made before a failing check stays
visible and atomicity is a property to be proved, not a convention of the
embedding.

The second half is a calculus of frame conditions.  A method ignores a part of
the receiver when overwriting that part commutes with the method.
-/

namespace Llxprt.Rust

universe u v w

/-- What a call hands back to its caller. -/
inductive Outcome (ε : Type u) (α : Type v) where
  | ok (value : α)
  | err (error : ε)
  | panic
  deriving DecidableEq

/-- Whether the call returned normally. -/
def Outcome.isOk {ε : Type u} {α : Type v} : Outcome ε α → Bool
  | .ok _ => true
  | _ => false

theorem Outcome.isOk_iff {ε : Type u} {α : Type v} {outcome : Outcome ε α} :
    outcome.isOk = true ↔ ∃ value, outcome = .ok value := by
  cases outcome <;> simp [isOk]

/-- Whether the call returned normally with a value that passes the test. -/
def Outcome.satisfies {ε : Type u} {α : Type v} (outcome : Outcome ε α) (test : α → Bool) : Bool :=
  match outcome with
  | .ok value => test value
  | _ => false

theorem Outcome.satisfies_iff {ε : Type u} {α : Type v} {outcome : Outcome ε α} {test : α → Bool} :
    outcome.satisfies test = true ↔ ∃ value, outcome = .ok value ∧ test value = true := by
  cases outcome <;> simp [satisfies]

/-- The value of an outcome that is known to be normal. -/
def Outcome.get {ε : Type u} {α : Type v} : (outcome : Outcome ε α) → outcome.isOk = true → α
  | .ok value, _ => value

/-- Translate the error and keep everything else. -/
def Outcome.mapErr {ε : Type u} {δ : Type w} {α : Type v} (translate : ε → δ) :
    Outcome ε α → Outcome δ α
  | .ok value => .ok value
  | .err error => .err (translate error)
  | .panic => .panic

/-- A method on a receiver of type `σ`. -/
def Method (σ ε α : Type) : Type :=
  σ → Outcome ε α × σ

namespace Method

variable {σ τ ε δ α β : Type}

instance : Monad (Method σ ε) where
  pure value := fun self => (.ok value, self)
  bind first next := fun self =>
    match first self with
    | (.ok value, self) => next value self
    | (.err error, self) => (.err error, self)
    | (.panic, self) => (.panic, self)

/-- Return an error, keeping whatever has been done to the receiver. -/
def fail (error : ε) : Method σ ε α :=
  fun self => (.err error, self)

/-- Panic, keeping whatever has been done to the receiver. -/
def abort : Method σ ε α :=
  fun self => (.panic, self)

/-- Read the receiver. -/
def read : Method σ ε σ :=
  fun self => (.ok self, self)

/-- Overwrite the receiver. -/
def update (change : σ → σ) : Method σ ε Unit :=
  fun self => (.ok (), change self)

/-- The guard `if refused { return Err(error) }`. -/
def refuse (refused : Prop) [Decidable refused] (error : ε) : Method σ ε Unit :=
  if refused then fail error else pure ()

/-- Propagate the result of a function that does not touch the receiver. -/
def ofExcept (result : Except ε α) : Method σ ε α :=
  match result with
  | .ok value => pure value
  | .error error => fail error

/-- `option.expect(..)`. -/
def expect (value : Option α) : Method σ ε α :=
  match value with
  | some found => pure found
  | none => abort

/-- Replace the receiver by the result of a computation on a clone of it; a
failing computation drops the clone. -/
def staged (next : σ → Except ε σ) : Method σ ε Unit :=
  fun self =>
    match next self with
    | .ok next => (.ok (), next)
    | .error error => (.err error, self)

/-- Call a method of a field of the receiver. -/
def focus (view : σ → τ) (put : σ → τ → σ) (inner : Method τ ε α) : Method σ ε α :=
  fun self => ((inner (view self)).1, put self (inner (view self)).2)

/-- `result.map_err(translate)`. -/
def mapErr (translate : ε → δ) (inner : Method σ ε α) : Method σ δ α :=
  fun self => ((inner self).1.mapErr translate, (inner self).2)

/-- Forget the value that a method returns. -/
def discard (inner : Method σ ε α) : Method σ ε Unit :=
  fun self =>
    (match (inner self).1 with
      | .ok _ => .ok ()
      | .err error => .err error
      | .panic => .panic, (inner self).2)

/-- Run `inner`; when it returned an error, clean the receiver up and return
the same error. -/
def orElse (inner : Method σ ε α) (cleanup : σ → σ) : Method σ ε α :=
  fun self =>
    match inner self with
    | (.err error, self) => (.err error, cleanup self)
    | result => result

/-- Run `inner` and clean the receiver up unless it panicked. -/
def andThen (inner : Method σ ε α) (cleanup : σ → σ) : Method σ ε α :=
  fun self =>
    match inner self with
    | (.panic, self) => (.panic, self)
    | (outcome, self) => (outcome, cleanup self)

section Evaluation

@[simp]
theorem pure_apply (value : α) (self : σ) :
    (pure value : Method σ ε α) self = (.ok value, self) :=
  rfl

theorem bind_apply (first : Method σ ε α) (next : α → Method σ ε β) (self : σ) :
    (first >>= next) self =
      match first self with
      | (.ok value, self) => next value self
      | (.err error, self) => (.err error, self)
      | (.panic, self) => (.panic, self) :=
  rfl

theorem bind_of_ok {first : Method σ ε α} {next : α → Method σ ε β} {self middle : σ}
    {value : α} (h : first self = (.ok value, middle)) :
    (first >>= next) self = next value middle := by
  rw [bind_apply, h]

theorem bind_of_err {first : Method σ ε α} {next : α → Method σ ε β} {self middle : σ}
    {error : ε} (h : first self = (.err error, middle)) :
    (first >>= next) self = (.err error, middle) := by
  rw [bind_apply, h]

/-- A sequenced method returns normally exactly when both of its stages do. -/
theorem bind_eq_ok_iff {first : Method σ ε α} {next : α → Method σ ε β}
    {self target : σ} {result : β} :
    (first >>= next) self = (.ok result, target) ↔
      ∃ value middle, first self = (.ok value, middle) ∧
        next value middle = (.ok result, target) := by
  rw [bind_apply]
  rcases first self with ⟨_ | _ | _, middle⟩ <;> simp

@[simp]
theorem fail_apply (error : ε) (self : σ) :
    (fail error : Method σ ε α) self = (.err error, self) :=
  rfl

@[simp]
theorem abort_apply (self : σ) : (abort : Method σ ε α) self = (.panic, self) :=
  rfl

@[simp]
theorem read_apply (self : σ) : (read : Method σ ε σ) self = (.ok self, self) :=
  rfl

@[simp]
theorem update_apply (change : σ → σ) (self : σ) :
    (update change : Method σ ε Unit) self = (.ok (), change self) :=
  rfl

@[simp]
theorem ofExcept_eq_ok {result : Except ε α} {self target : σ} {value : α} :
    (ofExcept result : Method σ ε α) self = (.ok value, target) ↔
      result = .ok value ∧ self = target := by
  cases result <;> simp [ofExcept]

@[simp]
theorem refuse_eq_ok {refused : Prop} [Decidable refused] {error : ε} {self target : σ}
    {value : Unit} :
    (refuse refused error : Method σ ε Unit) self = (.ok value, target) ↔
      ¬ refused ∧ self = target := by
  by_cases h : refused <;> simp [refuse, h]

@[simp]
theorem update_eq_ok {change : σ → σ} {self target : σ} {value : Unit} :
    (update change : Method σ ε Unit) self = (.ok value, target) ↔ change self = target := by
  simp [update]

@[simp]
theorem read_eq_ok {self target found : σ} :
    (read : Method σ ε σ) self = (.ok found, target) ↔ self = found ∧ self = target := by
  simp [read]

@[simp]
theorem fail_eq_ok {error : ε} {self target : σ} {value : α} :
    (fail error : Method σ ε α) self = (.ok value, target) ↔ False := by
  simp [fail]

@[simp]
theorem pure_eq_ok_iff {result value : α} {self target : σ} :
    (pure result : Method σ ε α) self = (.ok value, target) ↔ result = value ∧ self = target := by
  simp

theorem refuse_apply (refused : Prop) [Decidable refused] (error : ε) (self : σ) :
    (refuse refused error : Method σ ε Unit) self =
      if refused then (.err error, self) else (.ok (), self) := by
  by_cases h : refused <;> simp [refuse, h]

theorem refuse_of_not {refused : Prop} [Decidable refused] {error : ε} (h : ¬ refused) (self : σ) :
    (refuse refused error : Method σ ε Unit) self = (.ok (), self) := by
  rw [refuse_apply, if_neg h]

@[simp]
theorem staged_apply_eq_ok {next : σ → Except ε σ} {self target : σ} {result : Unit} :
    staged next self = (.ok result, target) ↔ next self = .ok target := by
  unfold staged
  cases next self <;> simp

@[simp]
theorem focus_eq_ok {view : σ → τ} {put : σ → τ → σ} {inner : Method τ ε α}
    {self target : σ} {result : α} :
    focus view put inner self = (.ok result, target) ↔
      ∃ next, inner (view self) = (.ok result, next) ∧ put self next = target := by
  unfold focus
  rcases inner (view self) with ⟨outcome, next⟩
  simp

@[simp]
theorem mapErr_eq_ok {translate : ε → δ} {inner : Method σ ε α} {self target : σ} {result : α} :
    mapErr translate inner self = (.ok result, target) ↔
      inner self = (.ok result, target) := by
  unfold mapErr
  rcases inner self with ⟨_ | _ | _, next⟩ <;> simp [Outcome.mapErr]

@[simp]
theorem expect_eq_ok {found : Option α} {self target : σ} {value : α} :
    (expect found : Method σ ε α) self = (.ok value, target) ↔
      found = some value ∧ self = target := by
  cases found <;> simp [expect]

section Stages

variable {self target : σ} {result : β}

/-- A method that reads first goes on from the same state. -/
theorem read_bind_eq_ok {next : σ → Method σ ε β} :
    (read >>= next) self = (.ok result, target) ↔ next self self = (.ok result, target) :=
  Iff.rfl

theorem refuse_bind_eq_ok {refused : Prop} [Decidable refused] {error : ε}
    {next : Unit → Method σ ε β} :
    (refuse refused error >>= next) self = (.ok result, target) ↔
      ¬ refused ∧ next () self = (.ok result, target) := by
  simp only [bind_eq_ok_iff, refuse_eq_ok]
  constructor
  · rintro ⟨_, _, ⟨passed, rfl⟩, rest⟩
    exact ⟨passed, rest⟩
  · exact fun ⟨passed, rest⟩ => ⟨(), self, ⟨passed, rfl⟩, rest⟩

theorem ofExcept_bind_eq_ok {outcome : Except ε α} {next : α → Method σ ε β} :
    (ofExcept outcome >>= next) self = (.ok result, target) ↔
      ∃ value, outcome = .ok value ∧ next value self = (.ok result, target) := by
  simp [bind_eq_ok_iff, and_assoc]

theorem expect_bind_eq_ok {found : Option α} {next : α → Method σ ε β} :
    (expect found >>= next) self = (.ok result, target) ↔
      ∃ value, found = some value ∧ next value self = (.ok result, target) := by
  simp [bind_eq_ok_iff, and_assoc]

end Stages

@[simp]
theorem orElse_eq_ok {inner : Method σ ε α} {cleanup : σ → σ} {self target : σ} {result : α} :
    inner.orElse cleanup self = (.ok result, target) ↔ inner self = (.ok result, target) := by
  unfold orElse
  rcases inner self with ⟨_ | _ | _, next⟩ <;> simp

@[simp]
theorem andThen_eq_ok {inner : Method σ ε α} {cleanup : σ → σ} {self target : σ} {result : α} :
    inner.andThen cleanup self = (.ok result, target) ↔
      ∃ next, inner self = (.ok result, next) ∧ cleanup next = target := by
  unfold andThen
  rcases inner self with ⟨_ | _ | _, next⟩ <;> simp

theorem mapErr_of_err {translate : ε → δ} {inner : Method σ ε α} {self target : σ} {error : ε}
    (h : inner self = (.err error, target)) :
    mapErr translate inner self = (.err (translate error), target) := by
  unfold mapErr
  rw [h]
  rfl

end Evaluation

/-- The method neither reads nor writes the part of the receiver that `mark`
overwrites. -/
def Ignores {μ : Type} (mark : μ → σ → σ) (method : Method σ ε α) : Prop :=
  ∀ value self, method (mark value self) = ((method self).1, mark value (method self).2)

section Framing

variable {μ : Type} {mark : μ → σ → σ}

theorem ignores_pure {value : α} : Ignores mark (pure value : Method σ ε α) :=
  fun _ _ => rfl

theorem ignores_fail {error : ε} : Ignores mark (fail error : Method σ ε α) :=
  fun _ _ => rfl

theorem ignores_refuse {refused : Prop} [Decidable refused] {error : ε} :
    Ignores mark (refuse refused error : Method σ ε Unit) := by
  unfold refuse
  split
  · exact ignores_fail
  · exact ignores_pure

theorem ignores_ofExcept {result : Except ε α} :
    Ignores mark (ofExcept result : Method σ ε α) := by
  cases result with
  | ok value => exact ignores_pure
  | error error => exact ignores_fail

theorem ignores_bind {first : Method σ ε α} {next : α → Method σ ε β}
    (firstIgnores : Ignores mark first) (nextIgnores : ∀ value, Ignores mark (next value)) :
    Ignores mark (first >>= next) := by
  intro value self
  rw [bind_apply, bind_apply, firstIgnores value self]
  rcases first self with ⟨result | error | _, middle⟩
  · exact nextIgnores result value middle
  · rfl
  · rfl

/-- Reading the receiver is harmless when the continuation cannot tell the
overwritten part. -/
theorem ignores_read {next : σ → Method σ ε β}
    (blind : ∀ value self, next (mark value self) = next self)
    (nextIgnores : ∀ self, Ignores mark (next self)) :
    Ignores mark (read >>= next) := by
  intro value self
  rw [bind_apply, bind_apply]
  change next (mark value self) (mark value self) = _
  rw [blind value self]
  exact nextIgnores self value self

theorem ignores_update {change : σ → σ}
    (commutes : ∀ value self, change (mark value self) = mark value (change self)) :
    Ignores mark (update change : Method σ ε Unit) := by
  intro value self
  rw [update_apply, update_apply, commutes value self]

theorem ignores_focus {view : σ → τ} {put : σ → τ → σ} {inner : Method τ ε α}
    (blind : ∀ value self, view (mark value self) = view self)
    (commutes : ∀ value self part, put (mark value self) part = mark value (put self part)) :
    Ignores mark (focus view put inner) := by
  intro value self
  unfold focus
  rw [blind value self, commutes value self]

theorem ignores_mapErr {translate : ε → δ} {inner : Method σ ε α}
    (innerIgnores : Ignores mark inner) : Ignores mark (mapErr translate inner) := by
  intro value self
  unfold mapErr
  rw [innerIgnores value self]

end Framing

end Method

end Llxprt.Rust
