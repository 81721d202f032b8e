import Llxprt.Rust.Publication

/-!
# Lifecycles with a dead state

A method of an object with a lifecycle makes at most one move of it and may kill
the object when it fails.  Steps before and after the move keep the viewed state
or kill the object, so the rules below follow the statements of a method.  A
method that is blocked in a state never returns normally from it.
-/

namespace Llxprt.Rust.Method

variable {σ ρ ε δ α β : Type}

/-- The method keeps the viewed state, or fails and leaves the dead one. -/
def KeepsOrDies (view : σ → ρ) (dead : ρ) (method : Method σ ε α) : Prop :=
  ∀ self, view (method self).2 = view self ∨
    (method self).1.isOk = false ∧ view (method self).2 = dead

/-- The method makes at most one move, and may end in the dead state. -/
def MovesOrDies (view : σ → ρ) (moves : ρ → ρ → Prop) (dead : ρ) (method : Method σ ε α) : Prop :=
  ∀ self, view (method self).2 = view self ∨ view (method self).2 = dead ∨
    moves (view self) (view (method self).2)

/-- The method does not return normally from the given state. -/
def Blocked (view : σ → ρ) (state : ρ) (method : Method σ ε α) : Prop :=
  ∀ self, view self = state → (method self).1.isOk = false

/-- The method makes at most one move and is blocked in the given state. -/
structure Advances (view : σ → ρ) (moves : ρ → ρ → Prop) (dead state : ρ)
    (method : Method σ ε α) : Prop where
  moves : MovesOrDies view moves dead method
  blocked : Blocked view state method

section Rules

variable {view : σ → ρ} {moves : ρ → ρ → Prop} {dead state : ρ}

theorem keepsOrDies_of_keeps {method : Method σ ε α} (keeps : Keeps view method) :
    KeepsOrDies view dead method :=
  fun self => .inl (keeps self)

theorem keepsOrDies_bind {first : Method σ ε α} {next : α → Method σ ε β}
    (firstKeeps : KeepsOrDies view dead first)
    (nextKeeps : ∀ value, KeepsOrDies view dead (next value)) :
    KeepsOrDies view dead (first >>= next) := by
  intro self
  have kept := firstKeeps self
  rw [bind_apply]
  rcases firstRun : first self with ⟨value | error | _, middle⟩
  · rw [firstRun] at kept
    rcases kept with kept | ⟨failed, _⟩
    · rw [← kept]
      exact nextKeeps value middle
    · cases failed
  · rwa [firstRun] at kept
  · rwa [firstRun] at kept

/-- Cleaning up after an error kills the object. -/
theorem keepsOrDies_orElse {inner : Method σ ε α} {cleanup : σ → σ}
    (innerKeeps : KeepsOrDies view dead inner) (kills : ∀ self, view (cleanup self) = dead) :
    KeepsOrDies view dead (inner.orElse cleanup) := by
  intro self
  have kept := innerKeeps self
  unfold orElse
  rcases innerRun : inner self with ⟨value | error | _, next⟩
  · rwa [innerRun] at kept
  · exact .inr ⟨rfl, kills next⟩
  · rwa [innerRun] at kept

theorem movesOrDies_of_keepsOrDies {method : Method σ ε α}
    (keeps : KeepsOrDies view dead method) : MovesOrDies view moves dead method := by
  intro self
  rcases keeps self with kept | ⟨_, died⟩
  · exact .inl kept
  · exact .inr (.inl died)

/-- The move may come last. -/
theorem movesOrDies_bind {first : Method σ ε α} {next : α → Method σ ε β}
    (firstKeeps : KeepsOrDies view dead first)
    (nextMoves : ∀ value, MovesOrDies view moves dead (next value)) :
    MovesOrDies view moves dead (first >>= next) := by
  intro self
  have kept := firstKeeps self
  rw [bind_apply]
  rcases firstRun : first self with ⟨value | error | _, middle⟩
  · rw [firstRun] at kept
    rcases kept with kept | ⟨failed, _⟩
    · rw [← kept]
      exact nextMoves value middle
    · cases failed
  · rw [firstRun] at kept
    rcases kept with kept | ⟨_, died⟩
    · exact .inl kept
    · exact .inr (.inl died)
  · rw [firstRun] at kept
    rcases kept with kept | ⟨_, died⟩
    · exact .inl kept
    · exact .inr (.inl died)

/-- The move may come first. -/
theorem movesOrDies_then {first : Method σ ε α} {next : α → Method σ ε β}
    (firstMoves : MovesOrDies view moves dead first)
    (nextKeeps : ∀ value, KeepsOrDies view dead (next value)) :
    MovesOrDies view moves dead (first >>= next) := by
  intro self
  have moved := firstMoves self
  rw [bind_apply]
  rcases firstRun : first self with ⟨value | error | _, middle⟩
  · rw [firstRun] at moved
    rcases nextKeeps value middle with kept | ⟨_, died⟩
    · change view (next value middle).2 = view self ∨ _
      rwa [kept]
    · exact .inr (.inl died)
  · rwa [firstRun] at moved
  · rwa [firstRun] at moved

theorem movesOrDies_mapErr {translate : ε → δ} {inner : Method σ ε α}
    (innerMoves : MovesOrDies view moves dead inner) :
    MovesOrDies view moves dead (mapErr translate inner) :=
  innerMoves

theorem movesOrDies_discard {inner : Method σ ε α}
    (innerMoves : MovesOrDies view moves dead inner) :
    MovesOrDies view moves dead inner.discard :=
  innerMoves

theorem movesOrDies_orElse {inner : Method σ ε α} {cleanup : σ → σ}
    (innerMoves : MovesOrDies view moves dead inner) (kills : ∀ self, view (cleanup self) = dead) :
    MovesOrDies view moves dead (inner.orElse cleanup) := by
  intro self
  have moved := innerMoves self
  unfold orElse
  rcases innerRun : inner self with ⟨value | error | _, next⟩
  · rwa [innerRun] at moved
  · exact .inr (.inl (kills next))
  · rwa [innerRun] at moved

theorem movesOrDies_andThen {inner : Method σ ε α} {cleanup : σ → σ}
    (innerMoves : MovesOrDies view moves dead inner)
    (cleanupKeeps : ∀ self, view (cleanup self) = view self) :
    MovesOrDies view moves dead (inner.andThen cleanup) := by
  intro self
  have moved := innerMoves self
  unfold andThen
  rcases innerRun : inner self with ⟨value | error | _, next⟩
  · rw [innerRun] at moved
    change view (cleanup next) = view self ∨ view (cleanup next) = dead ∨
      moves (view self) (view (cleanup next))
    rwa [cleanupKeeps next]
  · rw [innerRun] at moved
    change view (cleanup next) = view self ∨ view (cleanup next) = dead ∨
      moves (view self) (view (cleanup next))
    rwa [cleanupKeeps next]
  · rwa [innerRun] at moved

/-- A blocked step blocks what follows it. -/
theorem blocked_then {first : Method σ ε α} {next : α → Method σ ε β}
    (firstBlocked : Blocked view state first) : Blocked view state (first >>= next) := by
  intro self isState
  have failed := firstBlocked self isState
  rw [bind_apply]
  rcases firstRun : first self with ⟨value | error | _, middle⟩
  · rw [firstRun] at failed
    cases failed
  · rfl
  · rfl

/-- Steps that keep the state may come before a blocked step. -/
theorem blocked_bind {first : Method σ ε α} {next : α → Method σ ε β}
    (firstKeeps : KeepsOrDies view dead first) (nextBlocked : ∀ value, Blocked view state (next value)) :
    Blocked view state (first >>= next) := by
  intro self isState
  have kept := firstKeeps self
  rw [bind_apply]
  rcases firstRun : first self with ⟨value | error | _, middle⟩
  · rw [firstRun] at kept
    rcases kept with kept | ⟨failed, _⟩
    · exact nextBlocked value middle (kept.trans isState)
    · cases failed
  · rfl
  · rfl

theorem blocked_mapErr {translate : ε → δ} {inner : Method σ ε α}
    (innerBlocked : Blocked view state inner) : Blocked view state (mapErr translate inner) := by
  intro self isState
  have failed := innerBlocked self isState
  change ((inner self).1.mapErr translate).isOk = false
  cases outcome : (inner self).1 with
  | ok value =>
      rw [outcome] at failed
      cases failed
  | err error => rfl
  | panic => rfl

theorem blocked_andThen {inner : Method σ ε α} {cleanup : σ → σ}
    (innerBlocked : Blocked view state inner) : Blocked view state (inner.andThen cleanup) := by
  intro self isState
  have failed := innerBlocked self isState
  unfold andThen
  rcases innerRun : inner self with ⟨value | error | _, next⟩
  · rw [innerRun] at failed
    cases failed
  · rfl
  · rfl

theorem advances_bind {first : Method σ ε α} {next : α → Method σ ε β}
    (firstKeeps : KeepsOrDies view dead first)
    (nextAdvances : ∀ value, Advances view moves dead state (next value)) :
    Advances view moves dead state (first >>= next) where
  moves := movesOrDies_bind firstKeeps fun value => (nextAdvances value).moves
  blocked := blocked_bind firstKeeps fun value => (nextAdvances value).blocked

theorem advances_then {first : Method σ ε α} {next : α → Method σ ε β}
    (firstAdvances : Advances view moves dead state first)
    (nextKeeps : ∀ value, KeepsOrDies view dead (next value)) :
    Advances view moves dead state (first >>= next) where
  moves := movesOrDies_then firstAdvances.moves nextKeeps
  blocked := blocked_then firstAdvances.blocked

theorem advances_mapErr {translate : ε → δ} {inner : Method σ ε α}
    (innerAdvances : Advances view moves dead state inner) :
    Advances view moves dead state (mapErr translate inner) where
  moves := movesOrDies_mapErr innerAdvances.moves
  blocked := blocked_mapErr innerAdvances.blocked

theorem advances_andThen {inner : Method σ ε α} {cleanup : σ → σ}
    (innerAdvances : Advances view moves dead state inner)
    (cleanupKeeps : ∀ self, view (cleanup self) = view self) :
    Advances view moves dead state (inner.andThen cleanup) where
  moves := movesOrDies_andThen innerAdvances.moves cleanupKeeps
  blocked := blocked_andThen innerAdvances.blocked

/-- A blocked method with a killing cleanup dies unless it panics. -/
theorem Blocked.dies {inner : Method σ ε α} {cleanup : σ → σ} (blocked : Blocked view state inner)
    (kills : ∀ self, view (cleanup self) = dead) {self : σ} (isState : view self = state)
    (returned : (inner.orElse cleanup self).1 ≠ .panic) :
    view (inner.orElse cleanup self).2 = dead := by
  have failed := blocked self isState
  unfold orElse at returned ⊢
  rcases innerRun : inner self with ⟨value | error | _, next⟩
  · rw [innerRun] at failed
    cases failed
  · exact kills next
  · rw [innerRun] at returned
    exact absurd rfl returned

end Rules

end Llxprt.Rust.Method
