import Llxprt.Rust.Schedules

/-!
# A directory shared with other processes

Before every operation of a program other processes change the directory at will.
The world remembers which files they have written or bound to a name, and which
names they have removed.
-/

namespace Llxprt.Rust.Files

variable {α β ε δ : Type}

structure Shared where
  disk : Disk
  /-- Other processes have written the file or bound a name to it. -/
  foreign : Nat → Prop
  /-- Other processes have removed the name. -/
  removed : String → Prop

/-- What other processes do before an operation, and how it comes out. -/
structure Turn where
  others : Disk → Disk
  fate : Fate

/-- The file that an operation empties or leaves unfinished: no bytes of others are
left in it. -/
def Op.claims (op : Op β) (fate : Fate) : Option Nat :=
  match op, fate with
  | .truncate file _, .works => some file
  | .write file _ _, .tears _ => some file
  | _, _ => none

namespace Shared

/-- A directory that no other process has touched yet. -/
def untouched (disk : Disk) : Shared :=
  ⟨disk, fun _ => False, fun _ => False⟩

def interfere (others : Disk → Disk) (world : Shared) : Shared where
  disk := others world.disk
  foreign file := world.foreign file ∨
    (others world.disk).contents file ≠ world.disk.contents file ∨
    ∃ name, (others world.disk).entries name = some file ∧ world.disk.entries name ≠ some file
  removed name := world.removed name ∨
    (world.disk.entries name ≠ none ∧ (others world.disk).entries name = none)

/-- The world behind an operation. -/
def settle (op : Op β) (fate : Fate) (world : Shared) : Shared where
  disk := (op.meet fate world.disk).2
  foreign file := world.foreign file ∧ op.claims fate ≠ some file
  removed := world.removed

end Shared

/-- The directory with other processes in it. -/
def shared (turns : Nat → Turn) : Host Shared where
  answer op asked world :=
    let met := world.interfere (turns asked).others
    ((op.meet (turns asked).fate met.disk).1, met.settle op (turns asked).fate)

/-- A condition on the operations of a program and the world that they meet. -/
def meeting (turns : Nat → Turn) (spares : {β : Type} → Op β → Fate → Shared → Prop) {β : Type}
    (op : Op β) (asked : Nat) (world : Shared) : Prop :=
  spares op (turns asked).fate (world.interfere (turns asked).others)

section Stability

variable {turns : Nat → Turn} {spares : {β : Type} → Op β → Fate → Shared → Prop}
  {holds : Shared → Prop}

/-- The assertion survives whatever other processes do. -/
def Stable (holds : Shared → Prop) : Prop :=
  ∀ others world, holds world → holds (world.interfere others)

theorem Yields.askShared {op : Op β} {error : Failure → ε} {good : β → Shared → Prop}
    {bad : ε → Shared → Prop} (stable : Stable holds)
    (met : ∀ fate world, holds world → spares op fate world →
      byResult good (fun failure => bad (error failure)) (op.meet fate world.disk).1
        (world.settle op fate)) :
    Yields (shared turns) (meeting turns spares) holds (Files.ask op error) good bad :=
  Yields.ask fun asked world given heeded =>
    met (turns asked).fate _ (stable (turns asked).others world given) heeded

theorem Yields.attemptShared {op : Op β} {good : Except Failure β → Shared → Prop}
    {bad : ε → Shared → Prop} (stable : Stable holds)
    (met : ∀ fate world, holds world → spares op fate world →
      good (op.meet fate world.disk).1 (world.settle op fate)) :
    Yields (shared turns) (meeting turns spares) holds (Files.attempt op) good bad :=
  Yields.attempt fun asked world given heeded =>
    met (turns asked).fate _ (stable (turns asked).others world given) heeded

/-- An operation that leaves the directory alone marks nothing either. -/
theorem settle_of_still {op : Op β} (still : op.still = true) {fate : Fate} {world : Shared} :
    world.settle op fate = world := by
  have disk : (op.meet fate world.disk).2 = world.disk := by
    cases fate with
    | works => exact perform_of_still still
    | fails => rfl
    | tears count => cases op <;> first | rfl | cases still
  have claims : op.claims fate = none := by
    cases op <;> cases fate <;> first | rfl | cases still
  rcases world with ⟨inner, foreign, removed⟩
  simp only [Shared.settle, claims, Shared.mk.injEq]
  exact ⟨disk, by simp, trivial⟩

theorem Prog.Only.shared {prog : Prog α} {asked : Nat} {world : Shared} (only : prog.Only Op.still)
    (stable : Stable holds) (given : holds world) :
    holds (prog.on (shared turns) asked world).2.2 := by
  induction prog generalizing asked world with
  | done value => exact given
  | @call β op next ih =>
      apply ih _ (only.2 _)
      change holds (Shared.settle op (turns asked).fate (world.interfere (turns asked).others))
      rw [settle_of_still only.1]
      exact stable _ world given

/-- An action that leaves the directory alone keeps every stable assertion. -/
theorem Only.yields {action : Action ε α} (only : Only Op.still action) (stable : Stable holds) :
    Yields (shared turns) (meeting turns spares) holds action (fun _ => holds) fun _ => holds := by
  intro asked world given _
  have kept := @Prog.Only.shared _ turns holds _ asked world only stable given
  cases (action.run.on (shared turns) asked world).1 <;> exact kept

end Stability

section Checks

variable {turns : Nat → Turn} {asked made more size : Nat} {world : Shared} {holds : Nat → Prop}

/-- The world behind some operations that change nothing. -/
def drift (turns : Nat → Turn) (asked : Nat) (world : Shared) : Nat → Shared
  | 0 => world
  | made + 1 => (drift turns asked world made).interfere (turns (asked + made)).others

theorem drift_drift :
    drift turns (asked + made) (drift turns asked world made) more =
      drift turns asked world (made + more) := by
  induction more with
  | zero => rfl
  | succ more ih =>
      rw [drift, ih, Nat.add_assoc]
      rfl

theorem meet_eq_ok {op : Op β} {fate : Fate} {disk : Disk} {value : β} :
    (op.meet fate disk).1 = .ok value ↔ fate = .works ∧ (op.perform disk).1 = .ok value := by
  cases fate <;> simp [Op.meet]

/-- A check of as many operations, each of which must find something: the first one
that does not ends it with an error. -/
def Checks (turns : Nat → Turn) (asked : Nat) (world : Shared) (size : Nat) (holds : Nat → Prop) :
    Except ε α × Nat × Shared → Prop
  | (.ok _, made, later) => made = asked + size ∧ later = drift turns asked world size ∧
      ∀ number < size, holds number
  | (.error _, made, later) => ∃ failed < size, made = asked + (failed + 1) ∧
      later = drift turns asked world (failed + 1) ∧ (∀ number < failed, holds number) ∧
      ¬ holds failed

theorem checks_ask {op : Op β} {error : Failure → ε} (still : op.still = true)
    (decides : holds 0 ↔ ∃ value,
      (op.meet (turns asked).fate (drift turns asked world 1).disk).1 = .ok value) :
    Checks turns asked world 1 holds ((ask op error).run.on (shared turns) asked world) := by
  have later : ((shared turns).answer op asked world).2 = drift turns asked world 1 :=
    settle_of_still still
  change _ ↔ ∃ value, ((shared turns).answer op asked world).1 = .ok value at decides
  unfold ask
  simp only [ExceptT.run, ExceptT.mk, Prog.on]
  rw [later]
  cases answered : ((shared turns).answer op asked world).1 with
  | ok value =>
      refine ⟨rfl, rfl, ?_⟩
      intro number first
      rw [Nat.lt_one_iff.mp first]
      exact decides.mpr ⟨value, answered⟩
  | error failure =>
      refine ⟨0, Nat.one_pos, rfl, rfl, fun _ below => absurd below (Nat.not_lt_zero _), ?_⟩
      intro held
      rcases decides.mp held with ⟨value, found⟩
      rw [answered] at found
      cases found

theorem checks_andThen {first : Action ε α} {next : α → Action ε β}
    (head : Checks turns asked world made holds (first.run.on (shared turns) asked world))
    (rest : ∀ value, first.run.on (shared turns) asked world =
        (.ok value, asked + made, drift turns asked world made) →
      Checks turns (asked + made) (drift turns asked world made) more
        (fun number => holds (made + number))
        ((next value).run.on (shared turns) (asked + made) (drift turns asked world made))) :
    Checks turns asked world (made + more) holds
      ((first >>= next).run.on (shared turns) asked world) := by
  rw [on_andThen]
  rcases outcome : first.run.on (shared turns) asked world with ⟨error | value, count, later⟩
  · rw [outcome] at head
    rcases head with ⟨failed, within, rfl, rfl, before, broken⟩
    exact ⟨failed, Nat.lt_add_right more within, rfl, rfl, before, broken⟩
  · rw [outcome] at head
    rcases head with ⟨rfl, rfl, before⟩
    have behind := rest value outcome
    change Checks turns asked world (made + more) holds
      ((next value).run.on (shared turns) (asked + made) (drift turns asked world made))
    generalize (next value).run.on (shared turns) (asked + made)
      (drift turns asked world made) = final at behind ⊢
    rcases final with ⟨error | found, count, later⟩
    · rcases behind with ⟨failed, within, rfl, rfl, earlier, broken⟩
      refine ⟨made + failed, Nat.add_lt_add_left within made, by omega, ?_, ?_, broken⟩
      · rw [drift_drift]
        rfl
      · intro number small
        rcases Nat.lt_or_ge number made with inside | past
        · exact before number inside
        · have shifted : holds (made + (number - made)) := earlier (number - made) (by omega)
          rwa [Nat.add_sub_cancel' past] at shifted
    · rcases behind with ⟨rfl, rfl, earlier⟩
      refine ⟨Nat.add_assoc .., drift_drift, ?_⟩
      intro number small
      rcases Nat.lt_or_ge number made with inside | past
      · exact before number inside
      · have shifted : holds (made + (number - made)) := earlier (number - made) (by omega)
        rwa [Nat.add_sub_cancel' past] at shifted

/-- A verdict on what an operation has found belongs to the operation. -/
theorem checks_askLift {op : Op β} {error : Failure → ε} {test : β → Except ε α}
    (still : op.still = true)
    (decides : holds 0 ↔ ∃ value verdict,
      (op.meet (turns asked).fate (drift turns asked world 1).disk).1 = .ok value ∧
        test value = .ok verdict) :
    Checks turns asked world 1 holds
      ((ask op error >>= fun value => lift (test value)).run.on (shared turns) asked world) := by
  have later : ((shared turns).answer op asked world).2 = drift turns asked world 1 :=
    settle_of_still still
  change _ ↔ ∃ value verdict, ((shared turns).answer op asked world).1 = .ok value ∧ _ at decides
  rw [on_ask]
  generalize (shared turns).answer op asked world = outcome at later decides ⊢
  rcases outcome with ⟨failure | value, behind⟩
  · refine ⟨0, Nat.one_pos, rfl, later, fun _ below => absurd below (Nat.not_lt_zero _), ?_⟩
    intro held
    rcases decides.mp held with ⟨_, _, found, _⟩
    cases found
  · change Checks turns asked world 1 holds (test value, asked + 1, behind)
    cases verdict : test value with
    | error refusal =>
        refine ⟨0, Nat.one_pos, rfl, later, fun _ below => absurd below (Nat.not_lt_zero _), ?_⟩
        intro held
        rcases decides.mp held with ⟨_, _, found, accepted⟩
        cases found
        rw [verdict] at accepted
        cases accepted
    | ok accepted =>
        refine ⟨rfl, later, ?_⟩
        intro number first
        rw [Nat.lt_one_iff.mp first]
        exact decides.mpr ⟨value, accepted, rfl, verdict⟩

theorem Checks.translate {change : ε → δ} {action : Action ε α}
    (checks : Checks turns asked world size holds (action.run.on (shared turns) asked world)) :
    Checks turns asked world size holds
      ((Files.translate change action).run.on (shared turns) asked world) := by
  change Checks turns asked world size holds ((action.run >>= _).on (shared turns) asked world)
  rw [Prog.on_bind]
  rcases outcome : action.run.on (shared turns) asked world with ⟨error | value, count, later⟩
  · rw [outcome] at checks
    exact checks
  · rw [outcome] at checks
    exact checks

end Checks

/-- Where other processes keep still, nothing is marked. -/
theorem untouched_on {turns : Nat → Turn} (still : ∀ asked, (turns asked).others = id)
    {prog : Prog α} {asked : Nat} {world : Shared}
    (untouched : (∀ file, ¬ world.foreign file) ∧ ∀ name, ¬ world.removed name) :
    (∀ file, ¬ (prog.on (shared turns) asked world).2.2.foreign file) ∧
      ∀ name, ¬ (prog.on (shared turns) asked world).2.2.removed name := by
  induction prog generalizing asked world with
  | done value => exact untouched
  | call op rest ih =>
      apply ih
      simp only [shared, Shared.settle, Shared.interfere, still, id]
      constructor
      · rintro file ⟨foreign | changed | ⟨name, bound, unbound⟩, _⟩
        · exact untouched.1 file foreign
        · exact changed rfl
        · exact unbound bound
      · rintro name (gone | ⟨bound, unbound⟩)
        · exact untouched.2 name gone
        · exact bound unbound

end Llxprt.Rust.Files
