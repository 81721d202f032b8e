import Llxprt.Rust.Files

/-!
# Programs on a host

A host answers the operations of a program one by one and may change its own
state on the way: it lets an operation fail, or lets others act before it.  An
assertion that all answers keep is passed through a program by the rules below.
-/

namespace Llxprt.Rust.Files

universe u

variable {α β ε : Type} {σ : Type u}

/-- How one operation comes out: it works, it fails, or it fails after the first
bytes of a write. -/
inductive Fate where
  | works
  | fails
  | tears (count : Nat)
  deriving DecidableEq

/-- The answer of an operation and the disk that it leaves. -/
def Op.meet (op : Op β) : Fate → Disk → Except Failure β × Disk
  | .works, disk => op.perform disk
  | .fails, disk => (.error .other, disk)
  | .tears count, disk => (.error .other, op.torn count disk)

/-- What answers the operations of a program, by their number. -/
structure Host (σ : Type u) where
  answer : {β : Type} → Op β → Nat → σ → Except Failure β × σ

/-- An action with its errors translated. -/
def translate {δ : Type} (change : ε → δ) (action : Action ε α) : Action δ α :=
  ExceptT.mk (action.run >>= fun
    | .ok value => .done (.ok value)
    | .error error => .done (.error (change error)))

/-- An action whose result, also an error, is a value. -/
def settled {δ : Type} (action : Action ε α) : Action δ (Except ε α) :=
  ExceptT.mk (action.run >>= fun result => .done (.ok result))

namespace Prog

variable (host : Host σ)

/-- A program on a host: its value, the number of operations and the state left. -/
def on : Prog α → Nat → σ → α × Nat × σ
  | done value, asked, state => (value, asked, state)
  | call op next, asked, state =>
      (next (host.answer op asked state).1).on (asked + 1) (host.answer op asked state).2

/-- Whether the operation with the number is still made by a program that stops
after some operations. -/
def reached (stop : Option Nat) (asked : Nat) : Bool :=
  match stop with
  | none => true
  | some steps => asked < steps

/-- The state that a program leaves that may stop after some operations. -/
def leaves (stop : Option Nat) : Prog α → Nat → σ → σ
  | done _, _, state => state
  | call op next, asked, state =>
      if reached stop asked then
        (next (host.answer op asked state).1).leaves stop (asked + 1)
          (host.answer op asked state).2
      else
        state

end Prog

section Stops

variable {host : Host σ} {stop : Option Nat} {asked : Nat} {state : σ}

theorem on_ask {op : Op β} {error : Failure → ε} {next : β → Action ε α} :
    (ask op error >>= next).run.on host asked state =
      match host.answer op asked state with
      | (.ok value, later) => (next value).run.on host (asked + 1) later
      | (.error failure, later) => (.error (error failure), asked + 1, later) := by
  change (Prog.call op fun answer => _).on host asked state = _
  rw [Prog.on]
  rcases host.answer op asked state with ⟨_ | value, later⟩ <;> rfl

theorem leaves_ask {op : Op β} {error : Failure → ε} {next : β → Action ε α} :
    (ask op error >>= next).run.leaves host stop asked state =
      if Prog.reached stop asked then
        match host.answer op asked state with
        | (.ok value, later) => (next value).run.leaves host stop (asked + 1) later
        | (.error _, later) => later
      else
        state := by
  change (Prog.call op fun answer => _).leaves host stop asked state = _
  rw [Prog.leaves]
  rcases host.answer op asked state with ⟨_ | value, later⟩ <;> rfl

end Stops

section Fates

variable {fates : Nat → Fate} {stop : Option Nat} {asked : Nat} {disk later : Disk}

/-- A disk that meets each operation with its fate. -/
def directory (fates : Nat → Fate) : Host Disk where
  answer op asked disk := op.meet (fates asked) disk

/-- The operation is made and works. -/
def Passes (fates : Nat → Fate) (stop : Option Nat) (operation : Nat) : Prop :=
  Prog.reached stop operation = true ∧ fates operation = .works

instance : DecidablePred (Passes fates stop) :=
  fun _ => inferInstanceAs (Decidable (_ ∧ _))

/-- Where everything works, a program runs as it would alone. -/
theorem on_works {prog : Prog α} :
    (prog.on (directory fun _ => .works) asked disk).1 = (prog.run disk).1 ∧
      (prog.on (directory fun _ => .works) asked disk).2.2 = (prog.run disk).2 := by
  induction prog generalizing asked disk with
  | done value => exact ⟨rfl, rfl⟩
  | call op rest ih => exact ih _

theorem leaves_of_passes {op : Op β} {error : Failure → ε} {next : β → Action ε α} {value : β}
    (passes : Passes fates stop asked) (performed : op.perform disk = (.ok value, later)) :
    (ask op error >>= next).run.leaves (directory fates) stop asked disk =
      (next value).run.leaves (directory fates) stop (asked + 1) later := by
  have answered : (directory fates).answer op asked disk = (.ok value, later) := by
    change op.meet (fates asked) disk = _
    rw [passes.2]
    exact performed
  rw [leaves_ask, if_pos passes.1, answered]

/-- An operation that fails although it is made leaves the disk of its failure. -/
theorem leaves_of_fails {op : Op β} {error : Failure → ε} {next : β → Action ε α}
    {failure : Failure} (performed : op.perform disk = (.error failure, disk))
    (whole : ∀ count, op.torn count disk = disk) :
    (ask op error >>= next).run.leaves (directory fates) stop asked disk = disk := by
  have answered : ∃ failure, (directory fates).answer op asked disk = (.error failure, disk) := by
    change ∃ failure, op.meet (fates asked) disk = _
    cases fates asked with
    | works => exact ⟨failure, performed⟩
    | fails => exact ⟨.other, rfl⟩
    | tears count => exact ⟨.other, congrArg (Prod.mk _) (whole count)⟩
  rcases answered with ⟨failure, answered⟩
  rw [leaves_ask, answered]
  split <;> rfl

/-- Where a program does not get past an operation, the disk is as before it or
holds the first bytes of its write. -/
theorem leaves_of_not_passes {op : Op β} {error : Failure → ε} {next : β → Action ε α}
    (halted : ¬ Passes fates stop asked) {holds : Disk → Prop} (before : holds disk)
    (torn : ∀ count, holds (op.torn count disk)) :
    holds ((ask op error >>= next).run.leaves (directory fates) stop asked disk) := by
  rw [leaves_ask]
  by_cases made : Prog.reached stop asked = true
  · rw [if_pos made]
    have answered : (directory fates).answer op asked disk = op.meet (fates asked) disk := rfl
    rw [answered]
    cases fate : fates asked with
    | works => exact absurd ⟨made, fate⟩ halted
    | fails => exact before
    | tears count => exact torn count
  · rw [if_neg made]
    exact before

/-- An operation without effect leaves the disk whatever becomes of it. -/
theorem leaves_of_quiet {op : Op Unit} {error : Failure → ε} {next : Unit → Action ε α}
    (performed : op.perform disk = (.ok (), disk)) (whole : ∀ count, op.torn count disk = disk)
    (rest : (next ()).run.leaves (directory fates) stop (asked + 1) disk = disk) :
    (ask op error >>= next).run.leaves (directory fates) stop asked disk = disk := by
  by_cases passes : Passes fates stop asked
  · rw [leaves_of_passes passes performed, rest]
  · exact @leaves_of_not_passes _ _ _ _ _ _ _ _ _ _ passes (fun left => left = disk) rfl whole

/-- A program that ends with an operation without effect. -/
theorem leaves_last {op : Op Unit} {error : Failure → ε}
    (performed : op.perform disk = (.ok (), disk)) (whole : ∀ count, op.torn count disk = disk) :
    (ask op error).run.leaves (directory fates) stop asked disk = disk := by
  have answered : ∃ answer, (directory fates).answer op asked disk = (answer, disk) := by
    change ∃ answer, op.meet (fates asked) disk = _
    cases fates asked with
    | works => exact ⟨.ok (), performed⟩
    | fails => exact ⟨.error .other, rfl⟩
    | tears count => exact ⟨.error .other, congrArg (Prod.mk _) (whole count)⟩
  rcases answered with ⟨answer, answered⟩
  change (Prog.call op fun answer => _).leaves (directory fates) stop asked disk = disk
  rw [Prog.leaves, answered]
  cases answer <;> split <;> rfl

end Fates

section Meets

variable {host : Host σ} {pre : σ → Prop} {prog : Prog α} {post : α → σ → Prop}

theorem Prog.on_bind {next : α → Prog β} {asked : Nat} {state : σ} :
    (prog >>= next).on host asked state =
      (next (prog.on host asked state).1).on host (prog.on host asked state).2.1
        (prog.on host asked state).2.2 := by
  induction prog generalizing asked state with
  | done value => rfl
  | call op rest ih => exact ih _

theorem on_andThen {action : Action ε α} {next : α → Action ε β} {asked : Nat} {state : σ} :
    (action >>= next).run.on host asked state =
      match action.run.on host asked state with
      | (.ok value, made, later) => (next value).run.on host made later
      | (.error error, made, later) => (.error error, made, later) := by
  change (action.run >>= ExceptT.bindCont next).on host asked state = _
  rw [Prog.on_bind]
  rcases action.run.on host asked state with ⟨_ | _, made, later⟩ <;> rfl

/-- All operations that a program makes on a host are allowed ones. -/
def Prog.Along (host : Host σ) (allowed : {β : Type} → Op β → Nat → σ → Prop) :
    Prog α → Nat → σ → Prop
  | .done _, _, _ => True
  | .call op next, asked, state =>
      allowed op asked state ∧
        (next (host.answer op asked state).1).Along host allowed (asked + 1)
          (host.answer op asked state).2

variable {allowed : {β : Type} → Op β → Nat → σ → Prop}

theorem Prog.along_bind {next : α → Prog β} {asked : Nat} {state : σ} :
    (prog >>= next).Along host allowed asked state ↔ prog.Along host allowed asked state ∧
      (next (prog.on host asked state).1).Along host allowed (prog.on host asked state).2.1
        (prog.on host asked state).2.2 := by
  induction prog generalizing asked state with
  | done value => exact ⟨fun along => ⟨trivial, along⟩, And.right⟩
  | call op rest ih => exact (and_congr_right fun _ => ih _).trans and_assoc.symm

theorem Prog.Along.weaken {weaker : {β : Type} → Op β → Nat → σ → Prop}
    (implies : ∀ {β : Type} (op : Op β) asked state, allowed op asked state →
      weaker op asked state) {prog : Prog α} {asked : Nat} {state : σ}
    (along : prog.Along host allowed asked state) : prog.Along host weaker asked state := by
  induction prog generalizing asked state with
  | done value => trivial
  | call op rest ih => exact ⟨implies op asked state along.1, ih _ along.2⟩

/-- A program that makes permitted operations only stays along allowed ones. -/
theorem Prog.Only.along {permitted : {β : Type} → Op β → Bool}
    (implies : ∀ {β : Type} (op : Op β) asked state, permitted op = true → allowed op asked state)
    {prog : Prog α} (only : prog.Only permitted) {asked : Nat} {state : σ} :
    prog.Along host allowed asked state := by
  induction prog generalizing asked state with
  | done value => trivial
  | call op next ih => exact ⟨implies op asked state only.1, ih _ (only.2 _)⟩

theorem along_andThen {action : Action ε α} {next : α → Action ε β} {asked : Nat} {state : σ} :
    (action >>= next).run.Along host allowed asked state ↔
      action.run.Along host allowed asked state ∧
        match action.run.on host asked state with
        | (.ok value, made, later) => (next value).run.Along host allowed made later
        | (.error _, _, _) => True := by
  change (action.run >>= ExceptT.bindCont next).Along host allowed asked state ↔ _
  rw [Prog.along_bind]
  rcases action.run.on host asked state with ⟨_ | _, made, later⟩ <;> exact Iff.rfl

theorem along_ask {op : Op β} {error : Failure → ε} {next : β → Action ε α} {asked : Nat}
    {state : σ} :
    (ask op error >>= next).run.Along host allowed asked state ↔ allowed op asked state ∧
      match host.answer op asked state with
      | (.ok value, later) => (next value).run.Along host allowed (asked + 1) later
      | (.error _, _) => True := by
  change (Prog.call op fun answer => _).Along host allowed asked state ↔ _
  rw [Prog.Along]
  rcases host.answer op asked state with ⟨_ | value, later⟩ <;> exact Iff.rfl

theorem along_assoc {γ : Type} {action : Action ε α} {next : α → Action ε β}
    {last : β → Action ε γ} {asked : Nat} {state : σ} :
    ((action >>= next) >>= last).run.Along host allowed asked state ↔
      (action >>= fun value => next value >>= last).run.Along host allowed asked state := by
  rw [along_andThen, along_andThen, along_andThen, and_assoc, on_andThen]
  rcases action.run.on host asked state with ⟨_ | value, made, later⟩
  · exact and_congr_right fun _ => and_self_iff
  · exact and_congr_right fun _ => along_andThen.symm

theorem along_settled {δ : Type} {action : Action ε α} {next : Except ε α → Action δ β}
    {asked : Nat} {state : σ} :
    (settled action >>= next).run.Along host allowed asked state ↔
      action.run.Along host allowed asked state ∧
        (next (action.run.on host asked state).1).run.Along host allowed
          (action.run.on host asked state).2.1 (action.run.on host asked state).2.2 := by
  rw [along_andThen]
  change (action.run >>= _).Along host allowed asked state ∧ _ ↔ _
  have run : (settled action : Action δ _).run.on host asked state =
      (.ok (action.run.on host asked state).1, (action.run.on host asked state).2) := by
    change (action.run >>= _).on host asked state = _
    rw [Prog.on_bind]
    rfl
  rw [Prog.along_bind, run]
  exact and_congr_left fun _ => and_iff_left trivial

/-- From a state with the first assertion the program, along allowed operations, ends
in one with the second. -/
def Meets (host : Host σ) (allowed : {β : Type} → Op β → Nat → σ → Prop) (pre : σ → Prop)
    (prog : Prog α) (post : α → σ → Prop) : Prop :=
  ∀ asked state, pre state → prog.Along host allowed asked state →
    post (prog.on host asked state).1 (prog.on host asked state).2.2

theorem Meets.done {value : α} (holds : ∀ state, pre state → post value state) :
    Meets host allowed pre (.done value) post :=
  fun _ state given _ => holds state given

theorem Meets.bind {next : α → Prog β} {between : α → σ → Prop} {final : β → σ → Prop}
    (first : Meets host allowed pre prog between)
    (rest : ∀ value, Meets host allowed (between value) (next value) final) :
    Meets host allowed pre (prog >>= next) final := by
  intro asked state given along
  rcases Prog.along_bind.mp along with ⟨inside, behind⟩
  rw [Prog.on_bind]
  exact rest _ _ _ (first asked state given inside) behind

theorem Meets.weaken {weaker : α → σ → Prop} (meets : Meets host allowed pre prog post)
    (implies : ∀ value state, post value state → weaker value state) :
    Meets host allowed pre prog weaker :=
  fun asked state given along => implies _ _ (meets asked state given along)

/-- What holds when an action returns, by its result. -/
def byResult (good : α → σ → Prop) (bad : ε → σ → Prop) : Except ε α → σ → Prop
  | .ok value, state => good value state
  | .error error, state => bad error state

/-- The action ends with a value and the one assertion or with an error and the other. -/
def Yields (host : Host σ) (allowed : {β : Type} → Op β → Nat → σ → Prop) (pre : σ → Prop)
    (action : Action ε α) (good : α → σ → Prop) (bad : ε → σ → Prop) : Prop :=
  Meets host allowed pre action.run (byResult good bad)

variable {action : Action ε α} {good : α → σ → Prop} {bad : ε → σ → Prop}

theorem Yields.pure {value : α} (holds : ∀ state, pre state → good value state) :
    Yields host allowed pre (Pure.pure value : Action ε α) good bad :=
  Meets.done holds

theorem Yields.lift {result : Except ε α}
    (holds : ∀ state, pre state → byResult good bad result state) :
    Yields host allowed pre (Files.lift result) good bad :=
  Meets.done holds

theorem Yields.andThen {next : α → Action ε β} {between : α → σ → Prop} {final : β → σ → Prop}
    (first : Yields host allowed pre action between bad)
    (rest : ∀ value, Yields host allowed (between value) (next value) final bad) :
    Yields host allowed pre (action >>= next) final bad := by
  change Meets host allowed pre (action.run >>= ExceptT.bindCont next) (byResult final bad)
  refine Meets.bind first ?_
  intro result
  cases result with
  | ok value => exact rest value
  | error error => exact Meets.done fun _ holds => holds

theorem Yields.ask {op : Op β} {error : Failure → ε} {good : β → σ → Prop}
    (answered : ∀ asked state, pre state → allowed op asked state →
      byResult good (fun failure => bad (error failure)) (host.answer op asked state).1
        (host.answer op asked state).2) :
    Yields host allowed pre (Files.ask op error) good bad := by
  intro asked state given along
  have holds := answered asked state given along.1
  unfold Files.ask
  simp only [ExceptT.run, ExceptT.mk, Prog.on]
  cases outcome : (host.answer op asked state).1 with
  | ok value =>
      rw [outcome] at holds
      exact holds
  | error failure =>
      rw [outcome] at holds
      exact holds

theorem Yields.translate {δ : Type} {change : ε → δ} {worse : δ → σ → Prop}
    (yields : Yields host allowed pre action good fun error => worse (change error)) :
    Yields host allowed pre (Files.translate change action) good worse := by
  refine Meets.bind yields ?_
  intro result
  cases result with
  | ok value => exact Meets.done fun _ holds => holds
  | error error => exact Meets.done fun _ holds => holds

theorem Yields.settled {δ : Type} {worse : δ → σ → Prop}
    (yields : Yields host allowed pre action good bad) :
    Yields host allowed pre (Files.settled action : Action δ _) (byResult good bad) worse := by
  refine Meets.bind yields ?_
  intro result
  exact Meets.done fun _ holds => holds

theorem Yields.attempt {op : Op β} {good : Except Failure β → σ → Prop}
    (answered : ∀ asked state, pre state → allowed op asked state →
      good (host.answer op asked state).1 (host.answer op asked state).2) :
    Yields host allowed pre (Files.attempt op : Action ε _) good bad := by
  intro asked state given along
  exact answered asked state given along.1

theorem Yields.weaken {better : α → σ → Prop} {worse : ε → σ → Prop}
    (yields : Yields host allowed pre action good bad)
    (onValue : ∀ value state, good value state → better value state)
    (onError : ∀ error state, bad error state → worse error state) :
    Yields host allowed pre action better worse := by
  refine Meets.weaken yields ?_
  intro result state holds
  cases result with
  | ok value => exact onValue value state holds
  | error error => exact onError error state holds

end Meets

section Strictness

variable {δ : Type} {action : Action ε α} {next : α → Action ε β} {op : Op β}
  {error : Failure → ε} {result : Except ε α}

theorem on_ask_eq_ok {host : Host σ} {asked made : Nat} {state later : σ} {value : β} :
    (ask op error : Action ε β).run.on host asked state = (.ok value, made, later) →
      (host.answer op asked state).1 = .ok value := by
  unfold ask
  simp only [ExceptT.run, ExceptT.mk, Prog.on]
  cases (host.answer op asked state).1 with
  | ok found =>
      intro outcome
      cases outcome
      rfl
  | error failure => exact nofun

theorem on_andThen_eq_ok {host : Host σ} {asked made : Nat} {state later : σ} {value : β}
    (outcome : (action >>= next).run.on host asked state = (.ok value, made, later)) :
    ∃ found count middle, action.run.on host asked state = (.ok found, count, middle) ∧
      (next found).run.on host count middle = (.ok value, made, later) := by
  rw [on_andThen] at outcome
  rcases first : action.run.on host asked state with ⟨_ | found, count, middle⟩
  · rw [first] at outcome
    cases outcome
  · rw [first] at outcome
    exact ⟨found, count, middle, rfl, outcome⟩

theorem on_assoc {γ : Type} {last : β → Action ε γ} {host : Host σ} {asked : Nat} {state : σ} :
    (action >>= fun value => next value >>= last).run.on host asked state =
      ((action >>= next) >>= last).run.on host asked state := by
  rw [on_andThen, on_andThen, on_andThen]
  rcases action.run.on host asked state with ⟨_ | value, made, later⟩
  · rfl
  · exact on_andThen

theorem only_translate {permitted : {β : Type} → Op β → Bool} {change : ε → δ}
    (only : Only permitted action) : Only permitted (translate change action) := by
  refine Prog.Only.bind only ?_
  intro result
  cases result <;> trivial

/-- Whatever becomes of operations that leave the directory alone, it stays. -/
theorem Prog.Only.directory {prog : Prog α} {fates : Nat → Fate} {asked : Nat} {disk : Disk}
    (only : prog.Only Op.still) : (prog.on (directory fates) asked disk).2.2 = disk := by
  induction prog generalizing asked with
  | done value => rfl
  | @call β op next ih =>
      have kept : (op.meet (fates asked) disk).2 = disk := by
        have still := only.1
        cases fates asked with
        | works => exact perform_of_still still
        | fails => rfl
        | tears count => cases op <;> first | rfl | cases still
      change ((next _).on _ (asked + 1) (op.meet (fates asked) disk).2).2.2 = disk
      rw [kept]
      exact ih _ (only.2 _)

end Strictness

end Llxprt.Rust.Files
