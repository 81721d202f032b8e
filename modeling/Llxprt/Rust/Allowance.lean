import Llxprt.Rust.Method

/-!
# Methods that draw on an allowance

The receiver affords a number of units.  A method draws at most a cost when
every receiver that affords the cost and a rest still affords the rest after it,
however the method ends.  The costs of sequenced methods add up, and what a
method promises about its value may be used by the next one.
-/

namespace Llxprt.Rust

/-- Which receivers can pay how many units. -/
structure Allowance (σ : Type) where
  Affords : Nat → σ → Prop
  fewer : ∀ {few many : Nat} {self : σ}, few ≤ many → Affords many self → Affords few self

namespace Method

variable {σ ε α β : Type} {allowance : Allowance σ} {promise : α → Prop} {cost more : Nat}

/-- The method draws at most the cost and keeps the promise when it returns. -/
def Draws (allowance : Allowance σ) (cost : Nat) (promise : α → Prop) (method : Method σ ε α) :
    Prop :=
  ∀ rest self, allowance.Affords (rest + cost) self →
    allowance.Affords rest (method self).2 ∧
      ∀ value, (method self).1 = .ok value → promise value

theorem Draws.mono {method : Method σ ε α} (draws : Draws allowance cost promise method)
    (within : cost ≤ more) : Draws allowance more promise method := by
  intro rest self afforded
  exact draws rest self (allowance.fewer (Nat.add_le_add_left within rest) afforded)

theorem Draws.weaken {other : α → Prop} {method : Method σ ε α}
    (draws : Draws allowance cost promise method)
    (implied : ∀ value, promise value → other value) : Draws allowance cost other method := by
  intro rest self afforded
  rcases draws rest self afforded with ⟨kept, promised⟩
  exact ⟨kept, fun value returned => implied value (promised value returned)⟩

theorem draws_pure {value : α} (holds : promise value) :
    Draws allowance 0 promise (pure value : Method σ ε α) := by
  intro rest self afforded
  refine ⟨afforded, ?_⟩
  rintro _ ⟨⟩
  exact holds

theorem draws_fail {error : ε} : Draws allowance 0 promise (fail error : Method σ ε α) :=
  fun _ _ afforded => ⟨afforded, fun _ none => by cases none⟩

theorem draws_refuse {refused : Prop} [Decidable refused] {error : ε} :
    Draws allowance 0 (fun _ => ¬ refused) (refuse refused error : Method σ ε Unit) := by
  intro rest self afforded
  rw [refuse_apply]
  split
  · exact ⟨afforded, fun _ none => by cases none⟩
  · rename_i passed
    exact ⟨afforded, fun _ _ => passed⟩

theorem draws_ofExcept {result : Except ε α} :
    Draws allowance 0 (fun value => result = .ok value) (ofExcept result : Method σ ε α) := by
  cases result with
  | ok value => exact draws_pure rfl
  | error error => exact draws_fail

theorem draws_read : Draws allowance 0 (fun _ => True) (read : Method σ ε σ) :=
  fun _ _ afforded => ⟨afforded, fun _ _ => trivial⟩

/-- The second method may rely on the promise of the first one. -/
theorem Draws.bind {post : β → Prop} {first : Method σ ε α} {next : α → Method σ ε β}
    (draws : Draws allowance cost promise first)
    (nextDraws : ∀ value, promise value → Draws allowance more post (next value)) :
    Draws allowance (cost + more) post (first >>= next) := by
  intro rest self afforded
  rw [Nat.add_comm cost more, ← Nat.add_assoc] at afforded
  rcases draws (rest + more) self afforded with ⟨kept, promised⟩
  rw [bind_apply]
  generalize first self = outcome at kept promised ⊢
  rcases outcome with ⟨value | error | _, middle⟩
  · exact nextDraws value (promised value rfl) rest middle kept
  · exact ⟨allowance.fewer (Nat.le_add_right rest more) kept, fun _ none => by cases none⟩
  · exact ⟨allowance.fewer (Nat.le_add_right rest more) kept, fun _ none => by cases none⟩

end Method

end Llxprt.Rust
