import Llxprt.Rust.Method

/-!
# Publication through a single gate

A long-lived object has a published part that only one gate may move.  Every
other step keeps that part, whatever it returns, and the gate moves it only when
it returns normally.  Both properties compose, so a method with many failure
exits publishes all or nothing as soon as its last step does.
-/

namespace Llxprt.Rust.Method

variable {σ ρ ε δ α β : Type}

/-- The method leaves the viewed part as it was, whatever it returns. -/
def Keeps (view : σ → ρ) (method : Method σ ε α) : Prop :=
  ∀ self, view (method self).2 = view self

/-- The method leaves the viewed part as it was, unless it returns normally and
moves that part as `moves` allows. -/
def Publishes (view : σ → ρ) (moves : ρ → ρ → Prop) (method : Method σ ε α) : Prop :=
  ∀ self, view (method self).2 = view self ∨
    (method self).1.isOk = true ∧ moves (view self) (view (method self).2)

section Keeping

variable {view : σ → ρ}

theorem keeps_pure {value : α} : Keeps view (pure value : Method σ ε α) :=
  fun _ => rfl

theorem keeps_fail {error : ε} : Keeps view (fail error : Method σ ε α) :=
  fun _ => rfl

theorem keeps_abort : Keeps view (abort : Method σ ε α) :=
  fun _ => rfl

theorem keeps_read : Keeps view (read : Method σ ε σ) :=
  fun _ => rfl

theorem keeps_update {change : σ → σ} (kept : ∀ self, view (change self) = view self) :
    Keeps view (update change : Method σ ε Unit) :=
  kept

theorem keeps_refuse {refused : Prop} [Decidable refused] {error : ε} :
    Keeps view (refuse refused error : Method σ ε Unit) := by
  unfold refuse
  split
  · exact keeps_fail
  · exact keeps_pure

theorem keeps_ofExcept {result : Except ε α} : Keeps view (ofExcept result : Method σ ε α) := by
  cases result with
  | ok value => exact keeps_pure
  | error error => exact keeps_fail

theorem keeps_expect {value : Option α} : Keeps view (expect value : Method σ ε α) := by
  cases value with
  | some found => exact keeps_pure
  | none => exact keeps_abort

theorem keeps_bind {first : Method σ ε α} {next : α → Method σ ε β}
    (firstKeeps : Keeps view first) (nextKeeps : ∀ value, Keeps view (next value)) :
    Keeps view (first >>= next) := by
  intro self
  have kept := firstKeeps self
  rw [bind_apply]
  rcases firstRun : first self with ⟨value | error | _, middle⟩
  · rw [firstRun] at kept
    exact (nextKeeps value middle).trans kept
  · rw [firstRun] at kept
    exact kept
  · rw [firstRun] at kept
    exact kept

theorem keeps_read_bind {next : σ → Method σ ε β} (keeps : ∀ self, Keeps view (next self)) :
    Keeps view (read >>= next) :=
  keeps_bind keeps_read keeps

theorem keeps_refuse_bind {refused : Prop} [Decidable refused] {error : ε}
    {next : Unit → Method σ ε β} (keeps : Keeps view (next ())) :
    Keeps view (refuse refused error >>= next) :=
  keeps_bind keeps_refuse fun _ => keeps

theorem keeps_ofExcept_bind {result : Except ε α} {next : α → Method σ ε β}
    (keeps : ∀ value, Keeps view (next value)) : Keeps view (ofExcept result >>= next) :=
  keeps_bind keeps_ofExcept keeps

/-- The last statements of a method that records its result. -/
theorem keeps_update_pure {change : σ → σ} {value : α} (kept : ∀ self, view (change self) = view self) :
    Keeps view (update change >>= fun _ => pure value : Method σ ε α) :=
  keeps_bind (keeps_update kept) fun _ => keeps_pure

theorem keeps_mapErr {translate : ε → δ} {inner : Method σ ε α} (innerKeeps : Keeps view inner) :
    Keeps view (mapErr translate inner) :=
  innerKeeps

theorem keeps_orElse {inner : Method σ ε α} {cleanup : σ → σ} (innerKeeps : Keeps view inner)
    (cleanupKeeps : ∀ self, view (cleanup self) = view self) :
    Keeps view (inner.orElse cleanup) := by
  intro self
  have kept := innerKeeps self
  unfold orElse
  rcases innerRun : inner self with ⟨value | error | _, next⟩
  · rw [innerRun] at kept
    exact kept
  · rw [innerRun] at kept
    exact (cleanupKeeps next).trans kept
  · rw [innerRun] at kept
    exact kept

end Keeping

section Publishing

variable {view : σ → ρ} {moves : ρ → ρ → Prop}

theorem publishes_of_keeps {method : Method σ ε α} (keeps : Keeps view method) :
    Publishes view moves method :=
  fun self => .inl (keeps self)

/-- Steps that keep the published part may come before the gate. -/
theorem publishes_bind {first : Method σ ε α} {next : α → Method σ ε β}
    (firstKeeps : Keeps view first) (nextPublishes : ∀ value, Publishes view moves (next value)) :
    Publishes view moves (first >>= next) := by
  intro self
  have kept := firstKeeps self
  rw [bind_apply]
  rcases firstRun : first self with ⟨value | error | _, middle⟩
  · rw [firstRun] at kept
    rw [← kept]
    exact nextPublishes value middle
  · rw [firstRun] at kept
    exact .inl kept
  · rw [firstRun] at kept
    exact .inl kept

theorem publishes_mapErr {translate : ε → δ} {inner : Method σ ε α}
    (innerPublishes : Publishes view moves inner) :
    Publishes view moves (mapErr translate inner) := by
  intro self
  rcases innerPublishes self with kept | ⟨returned, moved⟩
  · exact .inl kept
  · right
    constructor
    · change ((inner self).1.mapErr translate).isOk = true
      rcases Outcome.isOk_iff.mp returned with ⟨value, isValue⟩
      rw [isValue]
      rfl
    · exact moved

theorem publishes_discard {inner : Method σ ε α} (innerPublishes : Publishes view moves inner) :
    Publishes view moves inner.discard := by
  intro self
  rcases innerPublishes self with kept | ⟨returned, moved⟩
  · exact .inl kept
  · right
    constructor
    · rcases Outcome.isOk_iff.mp returned with ⟨value, isValue⟩
      unfold discard
      rw [isValue]
      rfl
    · exact moved

/-- Cleaning up after an error keeps what a failed call has kept. -/
theorem publishes_orElse {inner : Method σ ε α} {cleanup : σ → σ}
    (innerPublishes : Publishes view moves inner)
    (cleanupKeeps : ∀ self, view (cleanup self) = view self) :
    Publishes view moves (inner.orElse cleanup) := by
  intro self
  have published := innerPublishes self
  unfold orElse
  rcases innerRun : inner self with ⟨value | error | _, next⟩
  · rwa [innerRun] at published
  · rw [innerRun] at published
    rcases published with kept | ⟨returned, _⟩
    · exact .inl ((cleanupKeeps next).trans kept)
    · cases returned
  · rwa [innerRun] at published

theorem publishes_andThen {inner : Method σ ε α} {cleanup : σ → σ}
    (innerPublishes : Publishes view moves inner)
    (cleanupKeeps : ∀ self, view (cleanup self) = view self) :
    Publishes view moves (inner.andThen cleanup) := by
  intro self
  have published := innerPublishes self
  unfold andThen
  rcases innerRun : inner self with ⟨value | error | _, next⟩
  · rw [innerRun] at published
    change view (cleanup next) = view self ∨ true = true ∧ moves (view self) (view (cleanup next))
    rwa [cleanupKeeps next]
  · rw [innerRun] at published
    rcases published with kept | ⟨returned, _⟩
    · exact .inl ((cleanupKeeps next).trans kept)
    · cases returned
  · rwa [innerRun] at published

/-- A publishing method that does not return normally keeps the viewed part. -/
theorem Publishes.kept_of_not_ok {method : Method σ ε α} (publishes : Publishes view moves method)
    {self : σ} (failed : (method self).1.isOk = false) : view (method self).2 = view self := by
  rcases publishes self with kept | ⟨returned, _⟩
  · exact kept
  · rw [failed] at returned
    cases returned

/-- An invariant of the published part survives a publishing method when it
survives the moves. -/
theorem Publishes.preserves {method : Method σ ε α} (publishes : Publishes view moves method)
    {invariant : ρ → Prop} (preserved : ∀ before after, invariant before → moves before after →
      invariant after) {self : σ} (holds : invariant (view self)) :
    invariant (view (method self).2) := by
  rcases publishes self with kept | ⟨_, moved⟩
  · rwa [kept]
  · exact preserved _ _ holds moved

end Publishing

end Llxprt.Rust.Method
