import Mathlib.Data.List.Basic
import Mathlib.Tactic.Common

/-!
# Uniquely readable encodings

An encoding is readable when the encoded value and whatever follows it can be
told apart.  A code without end markers is readable only before certain rests,
and a code that merges values is readable only on some of them, so both are
parameters.
-/

namespace Llxprt.Rust

universe u v w

variable {α : Type u} {β : Type v} {γ : Type w}

/-- On `domain` and before a rest of `follow`, the encoding determines the value
and the rest. -/
def Readable (domain : α → Prop) (follow : List β → Prop) (encode : α → List β) : Prop :=
  ∀ ⦃left right : α⦄ ⦃leftRest rightRest : List β⦄, domain left → domain right →
    follow leftRest → follow rightRest →
    encode left ++ leftRest = encode right ++ rightRest → left = right ∧ leftRest = rightRest

/-- No restriction on the values or on the rests. -/
def Anything {δ : Type w} : δ → Prop :=
  fun _ => True

namespace Readable

variable {domain : α → Prop} {follow : List β → Prop} {encode : α → List β}

theorem injective (readable : Readable domain follow encode) (atEnd : follow [])
    {left right : α} (leftIn : domain left) (rightIn : domain right)
    (same : encode left = encode right) : left = right := by
  have appended : encode left ++ [] = encode right ++ [] := by rw [same]
  exact (readable leftIn rightIn atEnd atEnd appended).1

/-- A readable code read through an injective view of the values. -/
theorem comap (readable : Readable domain follow encode) {source : γ → Prop} {view : γ → α}
    (into : ∀ value, source value → domain (view value))
    (injective : ∀ left right, source left → source right → view left = view right →
      left = right) : Readable source follow fun value => encode (view value) := by
  intro left right leftRest rightRest leftIn rightIn leftFollows rightFollows same
  rcases readable (into left leftIn) (into right rightIn) leftFollows rightFollows same with
    ⟨viewed, rest⟩
  exact ⟨injective left right leftIn rightIn viewed, rest⟩

/-- Codes of one length are readable. -/
theorem of_length {length : Nat} (fixed : ∀ value, domain value → (encode value).length = length)
    (injective : ∀ left right, domain left → domain right → encode left = encode right →
      left = right) : Readable domain follow encode := by
  intro left right leftRest rightRest leftIn rightIn _ _ same
  have lengths : (encode left).length = (encode right).length := by
    rw [fixed left leftIn, fixed right rightIn]
  rcases List.append_inj same lengths with ⟨codes, rest⟩
  exact ⟨injective left right leftIn rightIn codes, rest⟩

/-- A run of symbols ends where a symbol of another class begins. -/
theorem of_span {symbol : β → Prop}
    (inside : ∀ value, domain value → ∀ item ∈ encode value, symbol item)
    (outside : ∀ rest, follow rest → ∀ item ∈ rest.head?, ¬ symbol item)
    (injective : ∀ left right, domain left → domain right → encode left = encode right →
      left = right) : Readable domain follow encode := by
  have split : ∀ {leftRun rightRun leftRest rightRest : List β},
      (∀ item ∈ leftRun, symbol item) → (∀ item ∈ rightRun, symbol item) →
      (∀ item ∈ leftRest.head?, ¬ symbol item) → (∀ item ∈ rightRest.head?, ¬ symbol item) →
      leftRun ++ leftRest = rightRun ++ rightRest → leftRun = rightRun := by
    intro leftRun
    induction leftRun with
    | nil =>
        intro rightRun leftRest rightRest _ rightIn leftOut _ same
        cases rightRun with
        | nil => rfl
        | cons item run =>
            subst same
            exact absurd (rightIn item List.mem_cons_self) (leftOut item rfl)
    | cons item run ih =>
        intro rightRun leftRest rightRest leftIn rightIn leftOut rightOut same
        cases rightRun with
        | nil =>
            have same : item :: run ++ leftRest = rightRest := same
            subst same
            exact absurd (leftIn item List.mem_cons_self) (rightOut item rfl)
        | cons other rightRun =>
            rw [List.cons_append, List.cons_append, List.cons.injEq] at same
            rw [same.1, ih (fun item member => leftIn item (List.mem_cons_of_mem _ member))
              (fun item member => rightIn item (List.mem_cons_of_mem _ member)) leftOut rightOut
              same.2]
  intro left right leftRest rightRest leftIn rightIn leftFollows rightFollows same
  have codes := split (inside left leftIn) (inside right rightIn) (outside _ leftFollows)
    (outside _ rightFollows) same
  rw [codes] at same
  exact ⟨injective left right leftIn rightIn codes, List.append_cancel_left same⟩

/-- A list is readable item by item when no rest can begin with an item. -/
theorem flatMap (readable : Readable domain follow encode) {stop : List β → Prop}
    (stops : ∀ rest, stop rest → follow rest)
    (goesOn : ∀ value rest, domain value → follow (encode value ++ rest))
    (apart : ∀ value rest after, domain value → stop rest → encode value ++ after ≠ rest) :
    Readable (fun values : List α => ∀ value ∈ values, domain value) stop
      (List.flatMap encode) := by
  intro left
  induction left with
  | nil =>
      intro right leftRest rightRest _ rightIn leftStops _ same
      cases right with
      | nil => exact ⟨rfl, same⟩
      | cons value right =>
          rw [List.flatMap_nil, List.nil_append, List.flatMap_cons, List.append_assoc] at same
          exact absurd same.symm (apart value _ _ (rightIn value List.mem_cons_self) leftStops)
  | cons value left ih =>
      intro right leftRest rightRest leftIn rightIn leftStops rightStops same
      have proceeds : ∀ (values : List α) rest, (∀ value ∈ values, domain value) → stop rest →
          follow (values.flatMap encode ++ rest) := by
        intro values rest valuesIn restStops
        cases values with
        | nil => exact stops rest restStops
        | cons value values =>
            rw [List.flatMap_cons, List.append_assoc]
            exact goesOn value _ (valuesIn value List.mem_cons_self)
      have leftTail : ∀ value ∈ left, domain value :=
        fun value member => leftIn value (List.mem_cons_of_mem _ member)
      rw [List.flatMap_cons, List.append_assoc] at same
      cases right with
      | nil =>
          exact absurd same (apart value _ _ (leftIn value List.mem_cons_self) rightStops)
      | cons other right =>
          have rightTail : ∀ value ∈ right, domain value :=
            fun value member => rightIn value (List.mem_cons_of_mem _ member)
          rw [List.flatMap_cons, List.append_assoc] at same
          rcases readable (leftIn value List.mem_cons_self) (rightIn other List.mem_cons_self)
            (proceeds left leftRest leftTail leftStops)
            (proceeds right rightRest rightTail rightStops) same with ⟨rfl, tails⟩
          rcases ih leftTail rightTail leftStops rightStops tails with ⟨rfl, rests⟩
          exact ⟨rfl, rests⟩

/-- A list of known length is readable item by item. -/
theorem flatMap_of_length (readable : Readable domain Anything encode) {length : Nat} :
    Readable (fun values : List α => (∀ value ∈ values, domain value) ∧ values.length = length)
      Anything (List.flatMap encode) := by
  induction length with
  | zero =>
      intro left right leftRest rightRest leftIn rightIn _ _ same
      rw [List.length_eq_zero_iff] at leftIn rightIn
      rw [leftIn.2, rightIn.2] at same ⊢
      exact ⟨rfl, same⟩
  | succ length ih =>
      intro left right leftRest rightRest leftIn rightIn _ _ same
      rcases List.exists_cons_of_length_eq_add_one leftIn.2 with ⟨value, values, rfl⟩
      rcases List.exists_cons_of_length_eq_add_one rightIn.2 with ⟨other, others, rfl⟩
      rw [List.flatMap_cons, List.flatMap_cons, List.append_assoc, List.append_assoc] at same
      rcases readable (leftIn.1 value List.mem_cons_self) (rightIn.1 other List.mem_cons_self)
        trivial trivial same with ⟨rfl, rest⟩
      have leftTail := fun value member => leftIn.1 value (List.mem_cons_of_mem _ member)
      have rightTail := fun value member => rightIn.1 value (List.mem_cons_of_mem _ member)
      rcases ih ⟨leftTail, Nat.succ.inj leftIn.2⟩ ⟨rightTail, Nat.succ.inj rightIn.2⟩ trivial
        trivial rest with ⟨rfl, rests⟩
      exact ⟨rfl, rests⟩

end Readable

end Llxprt.Rust
