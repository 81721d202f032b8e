import Llxprt.Rust.Interference
import Llxprt.Rust.Sha256
import Mathlib.Algebra.Ring.Nat

/-!
# Publication of tool output

The bytes go to a staging file, which is renamed over the leaf and authenticated
three times.  When the call ends, the staging file is emptied unless the last
authentication succeeded.  Around every operation other processes may do what
they want with the directory.
-/

namespace Llxprt.Tools

open Llxprt.Rust Llxprt.Rust.Files

/-- The whole of a file: no file is longer. -/
def wholeFile : Nat :=
  2 ^ 63

/-- How messages show a system error and a quoted name. -/
structure Texts where
  error : Failure → String
  debug : String → String

section Calls

variable (texts : Texts)

/-- `open_regular_at`: the opened object is inspected. -/
def openRegularAt (name : String) : Files.Action String Nat := do
  let file ← ask (.openFile name) fun failure =>
    "open " ++ texts.debug name ++ ": " ++ texts.error failure
  let _ ← ask (.length file) fun failure =>
    "inspect " ++ texts.debug name ++ ": " ++ texts.error failure
  pure file

structure RetainedStage where
  file : Nat
  name : String
  identity : Nat
  len : Nat
  digest : String

/-- A failure behind the creation of the stage, with the flag that it leaves. -/
structure Refusal where
  message : String
  clearOnDrop : Bool

/-- An action on the stage that leaves the flag as given when it fails. -/
def leaving {α : Type} (clearOnDrop : Bool) (action : Files.Action String α) : Files.Action Refusal α :=
  translate (fun message => ⟨message, clearOnDrop⟩) action

/-- A refusal reported as one behind the installation. -/
def installedUnknown {α : Type} (leaf : String) (action : Files.Action Refusal α) :
    Files.Action Refusal α :=
  translate (fun refusal => { refusal with
    message := "installed " ++ leaf ++ ", but durability or integrity is unknown: " ++
      refusal.message }) action

namespace RetainedStage

def create (random : Except String String) (leaf : String) (content : List UInt8) :
    Files.Action String RetainedStage := do
  let name ← lift random
  let file ← ask (.createNew name) fun failure =>
    "create temp in " ++ leaf ++ ": " ++ texts.error failure
  ask (.write file 0 content) fun failure => "write " ++ leaf ++ ": " ++ texts.error failure
  ask (.sync file) fun failure => "sync temp in " ++ leaf ++ ": " ++ texts.error failure
  let identity ← ask (.identity file) texts.error
  pure ⟨file, name, identity, content.length, Sha256.digest content⟩

def destinationHasIdentity (stage : RetainedStage) (name : String) : Files.Action String Bool := do
  let file ← openRegularAt texts name
  let identity ← ask (.identity file) texts.error
  pure (identity == stage.identity)

def verifyName (stage : RetainedStage) : Files.Action String Unit := do
  let same ← stage.destinationHasIdentity texts stage.name
  lift (reject (same = false) "staging file identity changed before publication")

def verifyDestination (stage : RetainedStage) (name : String) : Files.Action String Unit := do
  let file ← openRegularAt texts name
  let length ← ask (.length file) texts.error
  lift (reject (length ≠ stage.len) "installed file type or length mismatch")
  let bytes ← ask (.read file 0 wholeFile) texts.error
  lift (reject (Sha256.digest bytes ≠ stage.digest) "installed file digest mismatch")

/-- Every failure sets the flag. -/
def authenticateDestination (stage : RetainedStage) (name : String) : Files.Action Refusal Unit :=
  leaving true do
    let same ← stage.destinationHasIdentity texts name
    lift (reject (same = false) "installed file identity mismatch")
    stage.verifyDestination texts name

/-- What becomes of the stage when the call ends. -/
def drop (stage : RetainedStage) (clearOnDrop : Bool) : Files.Action String Unit :=
  if clearOnDrop then do
    let _ ← attempt (.truncate stage.file 0)
    let _ ← attempt (.sync stage.file)
    pure ()
  else
    pure ()

end RetainedStage

def syncParent : Files.Action String Unit := do
  ask .openDirectory fun failure =>
    "open retained parent directory for sync: " ++ texts.error failure
  ask .syncDirectory fun failure => "sync retained parent directory: " ++ texts.error failure

/-- The steps between the creation of the stage and its end.  Up to the rename the
flag is set, behind a successful authentication it is not. -/
def installStage (stage : RetainedStage) (leaf : String) (beforeInstall : Except String Unit) :
    Files.Action Refusal Unit := do
  leaving true (lift beforeInstall)
  leaving true (stage.verifyName texts)
  leaving true
    (ask (.rename stage.name leaf) fun failure =>
      "rename over " ++ leaf ++ ": " ++ texts.error failure)
  installedUnknown leaf (stage.authenticateDestination texts leaf)
  installedUnknown leaf (stage.authenticateDestination texts leaf)
  installedUnknown leaf (leaving false (syncParent texts))
  installedUnknown leaf (stage.authenticateDestination texts leaf)

/-- The hook's verdict is given; what it does to the directory counts among what
others do before the next operation. -/
def atomicWriteIntoAfter (random : Except String String) (leaf : String) (content : List UInt8)
    (beforeInstall : Except String Unit) : Files.Action String Unit := do
  let stage ← RetainedStage.create texts random leaf content
  match ← settled (installStage texts stage leaf beforeInstall) with
  | .ok () => stage.drop false
  | .error refusal => do
      stage.drop refusal.clearOnDrop
      throw refusal.message

end Calls

section Keeping

variable (start : Disk) (leaf : String) (content : List UInt8)

/-- The leaf holds its previous bytes, the complete content, or bytes that another
process has put there. -/
def Kept (world : Shared) : Prop :=
  world.disk.file leaf = start.file leaf ∨ world.disk.file leaf = some content ∨
    (∃ file, world.disk.entries leaf = some file ∧ world.foreign file) ∨
    (world.disk.entries leaf = none ∧ world.removed leaf)

/-- The bytes are the complete content or the previous bytes of the leaf. -/
def Whole (bytes : List UInt8) : Prop :=
  bytes = content ∨ start.file leaf = some bytes

/-- Where the leaf names the stage, a write that breaks off and the emptying of the
stage leave whole bytes in it. -/
def Spares {β : Type} (op : Op β) (fate : Fate) (world : Shared) : Prop :=
  match op, fate with
  | .write file offset bytes, .tears count => world.disk.entries leaf = some file →
      Whole start leaf content (overwrite (world.disk.contents file) offset (bytes.take count))
  | .truncate file size, .works => world.disk.entries leaf = some file →
      Whole start leaf content (resize (world.disk.contents file) size)
  | _, _ => True

section Environment

variable (turns : Nat → Turn)

/-- What the operation with the number must find in a check of the name: the name
opens, it is that of the stage, it opens again, and the length and the bytes of what
was opened are those of the content. -/
def Finds (file : Nat) (name : String) (seen : Nat → Disk) : Nat → Prop
  | 0 => (seen 0).entries name ≠ none
  | 2 => (seen 0).entries name = some file
  | 3 => (seen 3).entries name ≠ none
  | 5 => ∃ found ∈ (seen 3).entries name, ((seen 5).contents found).length = content.length
  | 6 => ∃ found ∈ (seen 3).entries name,
      Sha256.digest (((seen 6).contents found).take wholeFile) = Sha256.digest content
  | _ => True

/-- The operation with the number works, and the other processes let it find what it
must. -/
def Holds (file : Nat) (name : String) (asked : Nat) (world : Shared) (number : Nat) : Prop :=
  (turns (asked + number)).fate = .works ∧
    Finds content file name (fun count => (drift turns asked world (count + 1)).disk) number

/-- Where the stage can be emptied at this point, the leaf does not name it. -/
def Clear (file asked : Nat) (world : Shared) : Prop :=
  (turns asked).fate = .works →
    (world.interfere (turns asked).others).disk.entries leaf = some file →
      Whole start leaf content []

/-- Right behind the operation that breaks a check, the stage can be emptied. -/
def ClearWhenBroken (file : Nat) (size : Nat) (holds : Nat → Prop) (asked : Nat) (world : Shared) :
    Prop :=
  ∀ failed < size, (∀ number < failed, holds number) → ¬ holds failed →
    Clear start leaf content turns file (asked + (failed + 1)) (drift turns asked world (failed + 1))

/-- Behind the rename: each of the three authentications sets the flag when it breaks
and clears it when it passes, so that a directory that cannot be synced behind two of
them needs nothing. -/
def ClearBehind (file asked : Nat) (world : Shared) : Prop :=
  let breaks (asked : Nat) (world : Shared) : Prop :=
    ClearWhenBroken start leaf content turns file 7 (Holds content turns file leaf asked world)
      asked world
  let passes (asked : Nat) (world : Shared) : Prop :=
    ∀ number < 7, Holds content turns file leaf asked world number
  breaks asked world ∧ (passes asked world →
    breaks (asked + 7) (drift turns asked world 7) ∧
      (passes (asked + 7) (drift turns asked world 7) →
        (∀ number < 2, (turns (asked + 14 + number)).fate = .works) →
          breaks (asked + 16) (drift turns asked world 16)))

/-- Up to the rename the flag is set. -/
def ClearThroughout (file : Nat) (name : String) (beforeInstall : Except String Unit) (asked : Nat)
    (world : Shared) : Prop :=
  match beforeInstall with
  | .error _ => Clear start leaf content turns file asked world
  | .ok () =>
      let holds := Holds content turns file name asked world
      ClearWhenBroken start leaf content turns file 3 holds asked world ∧
        ((∀ number < 3, holds number) →
          let met := drift turns asked world 4
          if (turns (asked + 3)).fate = .works ∧ met.disk.entries name ≠ none then
            ClearBehind start leaf content turns file (asked + 4) (met.settle (.rename name leaf) .works)
          else
            Clear start leaf content turns file (asked + 4) met)

/-- What system calls may fail and what other processes may do, so that the leaf is
kept: a write does not break off in the leaf, and whenever the call ends with its flag
set, the leaf does not name the stage. -/
def Favours (random : Except String String) (beforeInstall : Except String Unit) : Prop :=
  ∀ name, random = .ok name → (turns 0).fate = .works →
    let met := drift turns 0 (.untouched start) 1
    met.disk.entries name = none →
      let file := met.disk.unused
      let opened := drift turns 1 (met.settle (.createNew name) .works) 1
      match (turns 1).fate with
      | .fails => True
      | .tears count => opened.disk.entries leaf = some file →
          Whole start leaf content (overwrite (opened.disk.contents file) 0 (content.take count))
      | .works =>
          let written := opened.settle (.write file 0 content) .works
          (∀ number < 2, (turns (2 + number)).fate = .works) →
            ClearThroughout start leaf content turns file name beforeInstall 4
              (drift turns 2 written 2)

instance (bytes : List UInt8) : Decidable (Whole start leaf content bytes) :=
  inferInstanceAs (Decidable (_ ∨ _))

instance (file : Nat) (name : String) (seen : Nat → Disk) :
    DecidablePred (Finds content file name seen)
  | 0 => inferInstanceAs (Decidable ((seen 0).entries name ≠ none))
  | 1 => .isTrue trivial
  | 2 => inferInstanceAs (Decidable ((seen 0).entries name = some file))
  | 3 => inferInstanceAs (Decidable ((seen 3).entries name ≠ none))
  | 4 => .isTrue trivial
  | 5 => inferInstanceAs (Decidable (∃ found ∈ (seen 3).entries name, _))
  | 6 => inferInstanceAs (Decidable (∃ found ∈ (seen 3).entries name, _))
  | _ + 7 => .isTrue trivial

instance (file : Nat) (name : String) (asked : Nat) (world : Shared) :
    DecidablePred (Holds content turns file name asked world) :=
  fun _ => inferInstanceAs (Decidable (_ ∧ _))

instance (file asked : Nat) (world : Shared) :
    Decidable (Clear start leaf content turns file asked world) :=
  inferInstanceAs (Decidable (_ → _ → _))

instance (file size : Nat) (holds : Nat → Prop) [DecidablePred holds] (asked : Nat)
    (world : Shared) :
    Decidable (ClearWhenBroken start leaf content turns file size holds asked world) := by
  unfold ClearWhenBroken
  infer_instance

instance (file asked : Nat) (world : Shared) :
    Decidable (ClearBehind start leaf content turns file asked world) := by
  unfold ClearBehind
  infer_instance

instance (file : Nat) (name : String) (beforeInstall : Except String Unit) (asked : Nat)
    (world : Shared) :
    Decidable (ClearThroughout start leaf content turns file name beforeInstall asked world) := by
  unfold ClearThroughout
  cases beforeInstall <;> infer_instance

end Environment

/-- The stage is empty and apart from the leaf, unless others have touched it, and
only others bind the staging name to anything else. -/
structure Staged (name : String) (file : Nat) (world : Shared) : Prop where
  kept : Kept start leaf content world
  blank : world.foreign file ∨
    (world.disk.contents file = [] ∧ world.disk.entries leaf ≠ some file)
  named : ∀ other, world.disk.entries name = some other → other = file ∨ world.foreign other

/-- The stage holds the content, unless others have touched it. -/
structure Written (name : String) (file : Nat) (world : Shared) : Prop where
  kept : Kept start leaf content world
  full : world.foreign file ∨ world.disk.contents file = content
  named : ∀ other, world.disk.entries name = some other → other = file ∨ world.foreign other

variable {start leaf content} {world : Shared} {name : String} {file : Nat}

/-- A binding that others have not made was there before. -/
theorem bound_before {others : Disk → Disk} {number : Nat}
    (bound : (others world.disk).entries name = some number) :
    world.disk.entries name = some number ∨ (world.interfere others).foreign number := by
  by_cases old : world.disk.entries name = some number
  · exact .inl old
  · exact .inr (.inr (.inr ⟨name, bound, old⟩))

theorem contents_before (others : Disk → Disk) (number : Nat) :
    (others world.disk).contents number = world.disk.contents number ∨
      (world.interfere others).foreign number := by
  by_cases same : (others world.disk).contents number = world.disk.contents number
  · exact .inl same
  · exact .inr (.inr (.inl same))

theorem stable_kept : Stable (Kept start leaf content) := by
  intro others world kept
  cases bound : (others world.disk).entries leaf with
  | none =>
      by_cases absent : world.disk.entries leaf = none
      · have same : (others world.disk).file leaf = world.disk.file leaf := by
          rw [Disk.file, Disk.file, bound, absent]
          rfl
        rcases kept with previous | complete | ⟨number, held, _⟩ | ⟨_, removed⟩
        · exact .inl (same.trans previous)
        · exact .inr (.inl (same.trans complete))
        · rw [absent] at held
          cases held
        · exact .inr (.inr (.inr ⟨bound, .inl removed⟩))
      · exact .inr (.inr (.inr ⟨bound, .inr ⟨absent, bound⟩⟩))
  | some number =>
      rcases bound_before bound with old | foreign
      · rcases contents_before others number with same | foreign
        · have file : (others world.disk).file leaf = world.disk.file leaf := by
            rw [Disk.file, Disk.file, bound, old]
            exact congrArg some same
          rcases kept with previous | complete | ⟨other, held, foreign⟩ | ⟨absent, _⟩
          · exact .inl (file.trans previous)
          · exact .inr (.inl (file.trans complete))
          · rw [old] at held
            cases held
            exact .inr (.inr (.inl ⟨number, bound, .inl foreign⟩))
          · rw [old] at absent
            cases absent
        · exact .inr (.inr (.inl ⟨number, bound, foreign⟩))
      · exact .inr (.inr (.inl ⟨number, bound, foreign⟩))

theorem named_interfere {others : Disk → Disk}
    (named : ∀ other, world.disk.entries name = some other → other = file ∨ world.foreign other) :
    ∀ other, (others world.disk).entries name = some other →
      other = file ∨ (world.interfere others).foreign other := by
  intro other bound
  rcases bound_before bound with old | foreign
  · rcases named other old with own | foreign
    · exact .inl own
    · exact .inr (.inl foreign)
  · exact .inr foreign

theorem stable_staged : Stable (Staged start leaf content name file) := by
  intro others world staged
  refine ⟨stable_kept others world staged.kept, ?_, named_interfere staged.named⟩
  rcases staged.blank with foreign | ⟨blank, apart⟩
  · exact .inl (.inl foreign)
  · rcases contents_before others file with same | foreign
    · by_cases bound : (others world.disk).entries leaf = some file
      · rcases bound_before bound with old | foreign
        · exact absurd old apart
        · exact .inl foreign
      · exact .inr ⟨same.trans blank, bound⟩
    · exact .inl foreign

theorem stable_written : Stable (Written start leaf content name file) := by
  intro others world written
  refine ⟨stable_kept others world written.kept, ?_, named_interfere written.named⟩
  rcases written.full with foreign | full
  · exact .inl (.inl foreign)
  · rcases contents_before others file with same | foreign
    · exact .inr (same.trans full)
    · exact .inl foreign

/-- The view of the leaf decides whether it is kept, as long as no mark on its file
goes. -/
theorem Kept.of_same {after : Shared} (kept : Kept start leaf content world)
    (entries : after.disk.entries leaf = world.disk.entries leaf)
    (contents : ∀ number, world.disk.entries leaf = some number →
      after.disk.contents number = world.disk.contents number ∧
        (world.foreign number → after.foreign number))
    (removed : after.removed = world.removed) : Kept start leaf content after := by
  have file : after.disk.file leaf = world.disk.file leaf := by
    rw [Disk.file, Disk.file, entries]
    cases held : world.disk.entries leaf with
    | none => rfl
    | some number => exact congrArg some (contents number held).1
  rcases kept with previous | complete | ⟨number, held, foreign⟩ | ⟨absent, gone⟩
  · exact .inl (file.trans previous)
  · exact .inr (.inl (file.trans complete))
  · exact .inr (.inr (.inl ⟨number, entries.trans held, (contents number held).2 foreign⟩))
  · exact .inr (.inr (.inr ⟨entries.trans absent, removed ▸ gone⟩))

end Keeping

section Operations

variable {start : Disk} {leaf name : String} {content : List UInt8} {world : Shared} {file : Nat}
  {fate : Fate} {turns : Nat → Turn} {texts : Texts}

/-- An operation that leaves the disk and claims no file leaves the world. -/
theorem settle_still {β : Type} {op : Op β} (still : (op.meet fate world.disk).2 = world.disk)
    (claims : op.claims fate = none) : world.settle op fate = world := by
  rcases world with ⟨disk, foreign, removed⟩
  simp only [Shared.settle, claims, Shared.mk.injEq]
  exact ⟨still, by simp, trivial⟩

/-- A file other than the leaf's may get any bytes and lose its mark. -/
theorem Kept.store (kept : Kept start leaf content world) {foreign : Nat → Prop}
    {bytes : List UInt8} (apart : world.disk.entries leaf ≠ some file)
    (marks : ∀ number, number ≠ file → world.foreign number → foreign number) :
    Kept start leaf content ⟨world.disk.store file bytes, foreign, world.removed⟩ := by
  refine Kept.of_same kept ?_ ?_ ?_
  · rfl
  · intro number held
    have other : number ≠ file := by
      rintro rfl
      exact apart held
    exact ⟨Function.update_of_ne other .., marks number other⟩
  · rfl

/-- Whole bytes in the file of the leaf keep it. -/
theorem Kept.of_whole {bytes : List UInt8} {foreign : Nat → Prop} {removed : String → Prop}
    (whole : Whole start leaf content bytes) (bound : world.disk.entries leaf = some file) :
    Kept start leaf content ⟨world.disk.store file bytes, foreign, removed⟩ := by
  have held : (world.disk.store file bytes).file leaf = some bytes := Disk.file_store bound
  rcases whole with rfl | previous
  · exact .inr (.inl held)
  · exact .inl (held.trans previous.symm)

/-- The new file is the stage. -/
theorem Kept.createNew (kept : Kept start leaf content world) (apart : name ≠ leaf) :
    byResult (Staged start leaf content name) (fun _ => Kept start leaf content)
      ((Op.createNew name).meet fate world.disk).1 (world.settle (.createNew name) fate) := by
  cases fate with
  | fails => rwa [settle_still rfl rfl]
  | tears count => rwa [settle_still rfl rfl]
  | works =>
      cases taken : world.disk.entries name with
      | some held =>
          have performed : (Op.createNew name).meet .works world.disk =
              (.error .alreadyExists, world.disk) := by
            rw [Op.meet, Op.perform, taken]
          rwa [settle_still (by rw [performed]) rfl, performed]
      | none =>
          have performed : (Op.createNew name).meet .works world.disk =
              (.ok world.disk.unused, world.disk.create name) := by
            rw [Op.meet, Op.perform, taken]
          have settled : world.settle (.createNew name) .works =
              ⟨world.disk.create name, world.foreign, world.removed⟩ := by
            simp only [Shared.settle, performed, Op.claims]
            simp
          rw [performed, settled]
          have entries : (world.disk.create name).entries leaf = world.disk.entries leaf :=
            Function.update_of_ne apart.symm ..
          have fresh : ∀ number, world.disk.entries leaf = some number →
              number ≠ world.disk.unused :=
            fun number held => Nat.ne_of_lt (world.disk.bounded leaf number held)
          constructor
          case kept =>
            refine kept.of_same entries ?_ rfl
            intro number held
            exact ⟨Function.update_of_ne (fresh number held) .., id⟩
          case blank =>
            refine .inr ⟨Disk.contents_create, ?_⟩
            rw [entries]
            exact fun held => fresh _ held rfl
          case named =>
            intro other held
            rw [Disk.entries_create] at held
            exact .inl (Option.some.inj held).symm

/-- The write fills the stage. -/
theorem Staged.write (staged : Staged start leaf content name file world)
    (spares : Spares start leaf content (.write file 0 content) fate world) :
    byResult (fun _ => Written start leaf content name file) (fun _ => Kept start leaf content)
      ((Op.write file 0 content).meet fate world.disk).1
      (world.settle (.write file 0 content) fate) := by
  cases fate with
  | fails =>
      rw [settle_still rfl rfl]
      exact staged.kept
  | tears count =>
      by_cases bound : world.disk.entries leaf = some file
      · exact Kept.of_whole (spares bound) bound
      · exact staged.kept.store bound fun number other foreign =>
          ⟨foreign, fun same => other (Option.some.inj same).symm⟩
  | works =>
      have marks : ∀ number, world.foreign number →
          (world.settle (.write file 0 content) .works).foreign number :=
        fun number foreign => ⟨foreign, by simp [Op.claims]⟩
      constructor
      case kept =>
        by_cases bound : world.disk.entries leaf = some file
        · rcases staged.blank with foreign | ⟨_, apart⟩
          · exact .inr (.inr (.inl ⟨file, bound, marks file foreign⟩))
          · exact absurd bound apart
        · exact staged.kept.store bound fun number _ foreign => marks number foreign
      case full =>
        rcases staged.blank with foreign | ⟨blank, _⟩
        · exact .inl (marks file foreign)
        · right
          change Function.update world.disk.contents file _ file = content
          rw [Function.update_self, blank]
          simp [overwrite]
      case named =>
        intro other held
        rcases staged.named other held with own | foreign
        · exact .inl own
        · exact .inr (marks other foreign)

/-- What the rename installs is the content or comes from others. -/
theorem Written.rename (written : Written start leaf content name file world) :
    byResult (fun _ => Kept start leaf content) (fun _ => Kept start leaf content)
      ((Op.rename name leaf).meet fate world.disk).1
      (world.settle (.rename name leaf) fate) := by
  cases fate with
  | fails =>
      rw [settle_still rfl rfl]
      exact written.kept
  | tears count =>
      rw [settle_still rfl rfl]
      exact written.kept
  | works =>
      cases bound : world.disk.entries name with
      | none =>
          have performed : (Op.rename name leaf).meet .works world.disk =
              (.error .notFound, world.disk) := by
            rw [Op.meet, Op.perform, bound]
          rw [settle_still (by rw [performed]) rfl, performed]
          exact written.kept
      | some other =>
          have performed : (Op.rename name leaf).meet .works world.disk =
              (.ok (), world.disk.rename name leaf) := by
            rw [Op.meet, Op.perform, bound]
          have settled : world.settle (.rename name leaf) .works =
              ⟨world.disk.rename name leaf, world.foreign, world.removed⟩ := by
            simp only [Shared.settle, performed, Op.claims]
            simp
          rw [performed, settled]
          have entries : (world.disk.rename name leaf).entries leaf = some other := by
            rw [Disk.entries_rename, bound]
          have foreignOr : world.foreign other ∨ world.disk.contents other = content := by
            rcases written.named other bound with rfl | foreign
            · exact written.full
            · exact .inl foreign
          rcases foreignOr with foreign | full
          · exact .inr (.inr (.inl ⟨other, entries, foreign⟩))
          · refine .inr (.inl ?_)
            rw [Disk.file_eq_some]
            exact ⟨other, entries, full⟩

/-- The stage is emptied where the leaf does not name it. -/
theorem Kept.truncate (kept : Kept start leaf content world)
    (spares : Spares start leaf content (.truncate file 0) fate world) :
    Kept start leaf content (world.settle (.truncate file 0) fate) := by
  cases fate with
  | fails => rwa [settle_still rfl rfl]
  | tears count => rwa [settle_still rfl rfl]
  | works =>
      by_cases bound : world.disk.entries leaf = some file
      · exact Kept.of_whole (spares bound) bound
      · exact kept.store bound fun number other foreign =>
          ⟨foreign, fun same => other (Option.some.inj same).symm⟩

end Operations

section Inquiring

variable {stage : RetainedStage} {texts : Texts} {name : String}

theorem only_openRegularAt : Only Op.still (openRegularAt texts name) :=
  only_andThen (only_ask rfl) fun _ => only_andThen (only_ask rfl) fun _ => only_pure

theorem only_destinationHasIdentity : Only Op.still (stage.destinationHasIdentity texts name) :=
  only_andThen only_openRegularAt fun _ => only_andThen (only_ask rfl) fun _ => only_pure

theorem only_verifyName : Only Op.still (stage.verifyName texts) :=
  only_andThen only_destinationHasIdentity fun _ => only_lift

theorem only_authenticateDestination : Only Op.still (stage.authenticateDestination texts name) :=
  only_translate (only_andThen only_destinationHasIdentity fun _ =>
    only_andThen only_lift fun _ => only_andThen only_openRegularAt fun _ =>
      only_andThen (only_ask rfl) fun _ => only_andThen only_lift fun _ =>
        only_andThen (only_ask rfl) fun _ => only_lift)

theorem only_syncParent : Only Op.still (syncParent texts) :=
  only_andThen (only_ask rfl) fun _ => only_ask rfl

/-- Behind the creation of the stage no bytes are written. -/
theorem only_installStage {leaf : String} {beforeInstall : Except String Unit} :
    Only Op.keepsBytes (installStage texts stage leaf beforeInstall) := by
  have keeps : ∀ {ε α : Type} {action : Files.Action ε α}, Only Op.still action →
      Only Op.keepsBytes action := by
    intro ε α action only
    exact Prog.Only.weaken (fun _ still => keepsBytes_of_still still) only
  have authenticates : Only Op.keepsBytes
      (installedUnknown leaf (stage.authenticateDestination texts leaf)) :=
    only_translate (keeps only_authenticateDestination)
  apply only_andThen (only_translate only_lift)
  intro _
  apply only_andThen (only_translate (keeps only_verifyName))
  intro _
  apply only_andThen (only_translate (only_ask rfl))
  intro _
  apply only_andThen authenticates
  intro _
  apply only_andThen authenticates
  intro _
  apply only_andThen (only_translate (only_translate (keeps only_syncParent)))
  intro _
  exact authenticates

end Inquiring

section Checking

variable {turns : Nat → Turn} {texts : Texts} {stage : RetainedStage} {name : String}
  {asked : Nat} {world : Shared} {holds : Nat → Prop}

theorem checks_openRegularAt
    (opens : holds 0 ↔ (turns asked).fate = .works ∧
      (drift turns asked world 1).disk.entries name ≠ none)
    (inspects : holds 1 ↔ (turns (asked + 1)).fate = .works) :
    Checks turns asked world 2 holds
      ((openRegularAt texts name).run.on (shared turns) asked world) := by
  apply @checks_andThen _ _ _ _ _ 1 1
  · apply checks_ask rfl
    rw [opens]
    cases bound : (drift turns asked world 1).disk.entries name <;>
      simp [meet_eq_ok, Op.perform, okOr, bound]
  · intro file _
    change Checks _ _ _ _ _ ((ask (.length file) _ >>= fun _ => lift (.ok file)).run.on _ _ _)
    apply checks_askLift rfl
    simp [meet_eq_ok, Op.perform, inspects]

/-- The file that was opened is the one that the name had. -/
theorem openRegularAt_eq_ok {file made : Nat} {later : Shared}
    (outcome : (openRegularAt texts name).run.on (shared turns) asked world =
      (.ok file, made, later)) :
    (drift turns asked world 1).disk.entries name = some file := by
  rcases on_andThen_eq_ok outcome with ⟨opened, count, middle, opens, rest⟩
  rcases on_andThen_eq_ok rest with ⟨_, _, _, _, ends⟩
  cases ends
  rcases meet_eq_ok.mp (on_ask_eq_ok opens) with ⟨_, found⟩
  change okOr ((drift turns asked world 1).disk.entries name) Failure.notFound = .ok file at found
  cases bound : (drift turns asked world 1).disk.entries name with
  | none =>
      rw [bound] at found
      cases found
  | some other =>
      rw [bound] at found
      cases found
      rfl

/-- The name is that of the stage. -/
theorem checks_identity {message : String}
    (opens : holds 0 ↔ (turns asked).fate = .works ∧
      (drift turns asked world 1).disk.entries name ≠ none)
    (inspects : holds 1 ↔ (turns (asked + 1)).fate = .works)
    (identifies : holds 2 ↔ (turns (asked + 2)).fate = .works ∧
      (drift turns asked world 1).disk.entries name = some stage.identity) :
    Checks turns asked world 3 holds
      ((stage.destinationHasIdentity texts name >>= fun same =>
        lift (reject (same = false) message)).run.on (shared turns) asked world) := by
  unfold RetainedStage.destinationHasIdentity
  rw [← on_assoc]
  apply @checks_andThen _ _ _ _ _ 2 1
  · exact checks_openRegularAt opens inspects
  · intro file opened
    have bound := openRegularAt_eq_ok opened
    rw [← on_assoc]
    change Checks _ _ _ _ _ ((ask (.identity file) _ >>= fun identity =>
      lift (reject ((identity == stage.identity) = false) message)).run.on _ _ _)
    apply checks_askLift rfl
    simp only [meet_eq_ok, Op.perform, identifies, bound, Option.some.injEq]
    by_cases own : file = stage.identity <;> simp [own, reject]

/-- The name has a file of the length and the digest of the stage. -/
theorem checks_verifyDestination
    (opens : holds 0 ↔ (turns asked).fate = .works ∧
      (drift turns asked world 1).disk.entries name ≠ none)
    (inspects : holds 1 ↔ (turns (asked + 1)).fate = .works)
    (measures : holds 2 ↔ (turns (asked + 2)).fate = .works ∧
      ∃ found, (drift turns asked world 1).disk.entries name = some found ∧
        ((drift turns asked world 3).disk.contents found).length = stage.len)
    (reads : holds 3 ↔ (turns (asked + 3)).fate = .works ∧
      ∃ found, (drift turns asked world 1).disk.entries name = some found ∧
        Sha256.digest (((drift turns asked world 4).disk.contents found).take wholeFile) =
          stage.digest) :
    Checks turns asked world 4 holds
      ((stage.verifyDestination texts name).run.on (shared turns) asked world) := by
  apply @checks_andThen _ _ _ _ _ 2 2
  · exact checks_openRegularAt opens inspects
  · intro file opened
    have bound := openRegularAt_eq_ok opened
    simp only [bound, Option.some.injEq, exists_eq_left'] at measures reads
    rw [on_assoc]
    apply @checks_andThen _ _ _ _ _ 1 1
    · apply checks_askLift rfl
      simp only [meet_eq_ok, Op.perform, drift_drift, measures]
      by_cases same : ((drift turns asked world 3).disk.contents file).length = stage.len <;>
        simp [same, reject]
    · intro _ _
      apply checks_askLift rfl
      simp only [meet_eq_ok, Op.perform, drift_drift, List.drop_zero, Nat.add_assoc]
      change holds 3 ↔ _
      rw [reads]
      by_cases same : Sha256.digest (((drift turns asked world 4).disk.contents file).take
          wholeFile) = stage.digest <;> simp [same, reject]

end Checking

section Tracking

variable {turns : Nat → Turn} {start : Disk} {leaf name : String} {content : List UInt8}
  {texts : Texts} {file asked : Nat} {world : Shared}

/-- The flag of every refusal of the action. -/
def Flags (turns : Nat → Turn) (flag : Bool) (action : Files.Action Refusal Unit) : Prop :=
  ∀ asked world refusal made later,
    action.run.on (shared turns) asked world = (.error refusal, made, later) →
      refusal.clearOnDrop = flag

theorem flags_leaving {flag : Bool} {action : Files.Action String Unit} :
    Flags turns flag (leaving flag action) := by
  intro asked world refusal made later outcome
  change (action.run >>= _).on (shared turns) asked world = _ at outcome
  rw [Prog.on_bind] at outcome
  rcases inner : action.run.on (shared turns) asked world with ⟨error | value, count, middle⟩
  · rw [inner] at outcome
    cases outcome
    rfl
  · rw [inner] at outcome
    cases outcome

theorem Flags.installedUnknown {flag : Bool} {action : Files.Action Refusal Unit}
    (flags : Flags turns flag action) : Flags turns flag (installedUnknown leaf action) := by
  intro asked world refusal made later outcome
  change (action.run >>= _).on (shared turns) asked world = _ at outcome
  rw [Prog.on_bind] at outcome
  rcases inner : action.run.on (shared turns) asked world with ⟨error | value, count, middle⟩
  · rw [inner] at outcome
    cases outcome
    exact flags asked world error count middle inner
  · rw [inner] at outcome
    cases outcome

/-- A call that comes back with its flag set can empty the stage there. -/
def EndsClear (start : Disk) (leaf : String) (content : List UInt8) (turns : Nat → Turn)
    (file : Nat) : Except Refusal Unit × Nat × Shared → Prop
  | (.ok _, _, _) => True
  | (.error refusal, made, later) =>
      refusal.clearOnDrop = true → Clear start leaf content turns file made later

/-- A check that sets the flag needs a clear leaf where it breaks. -/
theorem endsClear_check {check : Files.Action Refusal Unit} {flag : Bool} {size : Nat}
    {holds : Nat → Prop} (flags : Flags turns flag check)
    (checks : Checks turns asked world size holds (check.run.on (shared turns) asked world)) :
    EndsClear start leaf content turns file (check.run.on (shared turns) asked world) ↔
      (flag = true → ClearWhenBroken start leaf content turns file size holds asked world) := by
  rcases outcome : check.run.on (shared turns) asked world with ⟨refusal | value, made, later⟩
  · rw [outcome] at checks
    rcases checks with ⟨failed, within, rfl, rfl, before, broken⟩
    have flagged := flags _ _ _ _ _ outcome
    constructor
    · intro clear set other inside earlier breaks
      have same : other = failed := by
        rcases Nat.lt_trichotomy other failed with less | same | more
        · exact absurd (before other less) breaks
        · exact same
        · exact absurd (earlier failed more) broken
      rw [same]
      exact clear (flagged.trans set)
    · intro clear set
      exact clear (flagged.symm.trans set) failed within before broken
  · rw [outcome] at checks
    rcases checks with ⟨rfl, rfl, all⟩
    exact ⟨fun _ _ failed within _ broken => absurd (all failed within) broken, fun _ => trivial⟩

/-- A check in front of the rest of the call. -/
theorem endsClear_andThen {check : Files.Action Refusal Unit}
    {next : Unit → Files.Action Refusal Unit} {flag : Bool} {size : Nat} {holds : Nat → Prop}
    (flags : Flags turns flag check)
    (checks : Checks turns asked world size holds (check.run.on (shared turns) asked world)) :
    EndsClear start leaf content turns file
        ((check >>= next).run.on (shared turns) asked world) ↔
      (flag = true → ClearWhenBroken start leaf content turns file size holds asked world) ∧
        ((∀ number < size, holds number) → EndsClear start leaf content turns file
          ((next ()).run.on (shared turns) (asked + size) (drift turns asked world size))) := by
  rw [← endsClear_check flags checks, on_andThen]
  rcases outcome : check.run.on (shared turns) asked world with ⟨refusal | value, made, later⟩
  · rw [outcome] at checks
    rcases checks with ⟨failed, within, _, _, _, broken⟩
    exact (and_iff_left fun all => absurd (all failed within) broken).symm
  · rw [outcome] at checks
    rcases checks with ⟨rfl, rfl, all⟩
    exact ⟨fun clear => ⟨trivial, fun _ => clear⟩, fun clear => clear.2 all⟩

theorem checks_verifyName :
    Checks turns asked world 3 (Holds content turns file name asked world)
      ((RetainedStage.verifyName texts ⟨file, name, file, content.length,
        Sha256.digest content⟩).run.on (shared turns) asked world) :=
  checks_identity Iff.rfl (and_iff_left trivial) Iff.rfl

theorem checks_authenticateDestination {own : String} :
    Checks turns asked world 7 (Holds content turns file name asked world)
      ((RetainedStage.authenticateDestination texts ⟨file, own, file, content.length,
        Sha256.digest content⟩ name).run.on (shared turns) asked world) := by
  apply Checks.translate
  rw [on_assoc]
  apply @checks_andThen _ _ _ _ _ 3 4
  · exact checks_identity Iff.rfl (and_iff_left trivial) Iff.rfl
  · intro _ _
    apply checks_verifyDestination
    · simp only [drift_drift]
      exact Iff.rfl
    · exact and_iff_left trivial
    · simp only [drift_drift]
      exact Iff.rfl
    · simp only [drift_drift]
      exact Iff.rfl

theorem checks_syncParent :
    Checks turns asked world 2 (fun number => (turns (asked + number)).fate = .works)
      ((syncParent texts).run.on (shared turns) asked world) := by
  apply @checks_andThen _ _ _ _ _ 1 1
  · apply checks_ask rfl
    simp [meet_eq_ok, Op.perform]
  · intro _ _
    apply checks_ask rfl
    simp [meet_eq_ok, Op.perform]

/-- Behind the rename the flag follows the authentications. -/
theorem endsClear_behind {stage : RetainedStage}
    (written : stage = ⟨file, name, file, content.length, Sha256.digest content⟩) :
    EndsClear start leaf content turns file (Prog.on (shared turns)
        ((do
          installedUnknown leaf (stage.authenticateDestination texts leaf)
          installedUnknown leaf (stage.authenticateDestination texts leaf)
          installedUnknown leaf (leaving false (syncParent texts))
          installedUnknown leaf (stage.authenticateDestination texts leaf) :
            Files.Action Refusal Unit).run) asked world) ↔
      ClearBehind start leaf content turns file asked world := by
  have flags : Flags turns true
      (installedUnknown leaf (stage.authenticateDestination texts leaf)) :=
    flags_leaving.installedUnknown
  have checks : ∀ {asked : Nat} {world : Shared}, Checks turns asked world 7
      (Holds content turns file leaf asked world)
      ((installedUnknown leaf (stage.authenticateDestination texts leaf)).run.on (shared turns)
        asked world) := by
    rw [written]
    exact checks_authenticateDestination.translate
  rw [endsClear_andThen flags checks, endsClear_andThen flags checks,
    endsClear_andThen flags_leaving.installedUnknown checks_syncParent.translate.translate,
    endsClear_check flags checks]
  simp only [ClearBehind, drift_drift, Nat.add_assoc, Nat.reduceAdd, Bool.false_eq_true,
    false_implies, true_and, forall_true_left]

theorem on_leaving_ask {flag : Bool} {op : Op Unit} {error : Failure → String} :
    (leaving flag (ask op error)).run.on (shared turns) asked world =
      match (shared turns).answer op asked world with
      | (.ok value, later) => (.ok value, asked + 1, later)
      | (.error failure, later) => (.error ⟨error failure, flag⟩, asked + 1, later) := by
  change ((ask op error).run >>= _).on (shared turns) asked world = _
  rw [Prog.on_bind]
  unfold ask
  simp only [ExceptT.run, ExceptT.mk, Prog.on]
  rcases (shared turns).answer op asked world with ⟨_ | value, later⟩ <;> rfl

/-- The rename installs the stage, or leaves the directory. -/
theorem endsClear_rename {next : Unit → Files.Action Refusal Unit} {error : Failure → String} :
    EndsClear start leaf content turns file ((leaving true (ask (.rename name leaf) error) >>=
        next).run.on (shared turns) asked world) ↔
      if (turns asked).fate = .works ∧ (drift turns asked world 1).disk.entries name ≠ none then
        EndsClear start leaf content turns file ((next ()).run.on (shared turns) (asked + 1)
          ((drift turns asked world 1).settle (.rename name leaf) .works))
      else
        Clear start leaf content turns file (asked + 1) (drift turns asked world 1) := by
  obtain ⟨met, known⟩ : ∃ met, drift turns asked world 1 = met := ⟨_, rfl⟩
  have answered : (shared turns).answer (.rename name leaf) asked world =
      (((Op.rename name leaf).meet (turns asked).fate met.disk).1,
        met.settle (.rename name leaf) (turns asked).fate) := by
    rw [← known]
    rfl
  rw [on_andThen, on_leaving_ask, answered, known]
  cases fate : (turns asked).fate with
  | works =>
      cases bound : met.disk.entries name with
      | none =>
          have performed : (Op.rename name leaf).meet .works met.disk =
              (.error .notFound, met.disk) := by
            rw [Op.meet, Op.perform, bound]
          rw [settle_still (by rw [performed]) rfl, performed, if_neg (by simp)]
          exact forall_prop_of_true rfl
      | some other =>
          have performed : (Op.rename name leaf).meet .works met.disk =
              (.ok (), met.disk.rename name leaf) := by
            rw [Op.meet, Op.perform, bound]
          rw [performed, if_pos (by simp)]
  | fails =>
      rw [settle_still rfl rfl, if_neg (by simp)]
      exact forall_prop_of_true rfl
  | tears count =>
      rw [settle_still rfl rfl, if_neg (by simp)]
      exact forall_prop_of_true rfl

/-- Up to the rename every refusal leaves the flag set. -/
theorem endsClear_installStage {beforeInstall : Except String Unit} :
    EndsClear start leaf content turns file
        ((installStage texts ⟨file, name, file, content.length, Sha256.digest content⟩ leaf
          beforeInstall).run.on (shared turns) asked world) ↔
      ClearThroughout start leaf content turns file name beforeInstall asked world := by
  cases beforeInstall with
  | error message => exact ⟨fun clear => clear rfl, fun clear _ => clear⟩
  | ok _ =>
      change EndsClear start leaf content turns file (((leaving true
        (RetainedStage.verifyName texts _) >>= fun _ => _) : Files.Action Refusal Unit).run.on
          (shared turns) asked world) ↔ _
      rw [endsClear_andThen flags_leaving checks_verifyName.translate, endsClear_rename,
        endsClear_behind rfl]
      simp only [ClearThroughout, forall_true_left, drift_drift, Nat.add_assoc, Nat.reduceAdd]

/-- The stage is emptied when the call ends with the flag set. -/
theorem along_drop {stage : RetainedStage} {flag : Bool} :
    (stage.drop flag).run.Along (shared turns) (meeting turns (Spares start leaf content)) asked
        world ↔
      (flag = true → Clear start leaf content turns stage.file asked world) := by
  cases flag with
  | false => exact ⟨fun _ => by rintro ⟨⟩, fun _ => trivial⟩
  | true =>
      have operations : (stage.drop true).run.Along (shared turns)
          (meeting turns (Spares start leaf content)) asked world ↔
          meeting turns (Spares start leaf content) (.truncate stage.file 0) asked world ∧
            meeting turns (Spares start leaf content) (.sync stage.file) (asked + 1)
              ((shared turns).answer (.truncate stage.file 0) asked world).2 ∧ True := Iff.rfl
      have syncs : ∀ {asked world}, meeting turns (Spares start leaf content) (.sync stage.file)
          asked world := by
        intro asked world
        rw [meeting]
        cases (turns asked).fate <;> trivial
      rw [operations, and_iff_left ⟨syncs, trivial⟩, meeting, Clear]
      cases fate : (turns asked).fate with
      | works => simp [Spares, resize]
      | fails => simp [Spares]
      | tears count => simp [Spares]

/-- Only what writes or empties a file can fail to spare the leaf. -/
theorem spares_of_keepsBytes {β : Type} {op : Op β} (keeps : op.keepsBytes = true) :
    meeting turns (Spares start leaf content) op asked world := by
  unfold meeting
  cases op <;> cases (turns asked).fate <;> trivial

theorem along_of_keepsBytes {α : Type} {prog : Prog α} (only : prog.Only Op.keepsBytes) :
    prog.Along (shared turns) (meeting turns (Spares start leaf content)) asked world := by
  apply Prog.Only.along _ only
  intro β op asked world keeps
  exact spares_of_keepsBytes keeps

/-- An operation that cannot find anything wrong only needs to work. -/
theorem along_ask_of_still {ε α β : Type} {op : Op β} {error : Failure → ε}
    {next : β → Files.Action ε α} {value : β} (still : op.still = true)
    (performs : ∀ disk, (op.perform disk).1 = .ok value) :
    (ask op error >>= next).run.Along (shared turns) (meeting turns (Spares start leaf content))
        asked world ↔
      ((turns asked).fate = .works → (next value).run.Along (shared turns)
        (meeting turns (Spares start leaf content)) (asked + 1) (drift turns asked world 1)) := by
  have later : ((shared turns).answer op asked world).2 = drift turns asked world 1 :=
    settle_of_still still
  have answered : ((shared turns).answer op asked world).1 =
      (op.meet (turns asked).fate (drift turns asked world 1).disk).1 := rfl
  rw [along_ask, and_iff_right (spares_of_keepsBytes (keepsBytes_of_still still))]
  generalize (shared turns).answer op asked world = outcome at later answered ⊢
  rcases outcome with ⟨answer, behind⟩
  cases fate : (turns asked).fate with
  | works =>
      rw [fate, Op.meet, performs] at answered
      subst later answered
      exact ⟨fun along _ => along, fun along => along rfl⟩
  | fails =>
      rw [fate] at answered
      subst answered
      exact ⟨fun _ => by rintro ⟨⟩, fun _ => trivial⟩
  | tears count =>
      rw [fate] at answered
      subst answered
      exact ⟨fun _ => by rintro ⟨⟩, fun _ => trivial⟩

/-- From the stage to the end of the call. -/
theorem along_finish {stage : RetainedStage} {beforeInstall : Except String Unit}
    (written : stage = ⟨file, name, file, content.length, Sha256.digest content⟩) :
    (settled (installStage texts stage leaf beforeInstall) >>= fun
        | .ok () => stage.drop false
        | .error refusal => do
            stage.drop refusal.clearOnDrop
            throw refusal.message : Files.Action String Unit).run.Along (shared turns)
        (meeting turns (Spares start leaf content)) asked world ↔
      ClearThroughout start leaf content turns file name beforeInstall asked world := by
  subst written
  rw [along_settled, and_iff_right (along_of_keepsBytes only_installStage), ← endsClear_installStage]
  rcases (installStage texts _ leaf beforeInstall).run.on (shared turns) asked world with
    ⟨refusal | _, made, later⟩
  · change (RetainedStage.drop _ _ >>= fun _ => _ : Files.Action String Unit).run.Along _ _ _ _ ↔ _
    rw [along_andThen, along_drop]
    apply and_iff_left_of_imp
    intro _
    rcases (RetainedStage.drop _ refusal.clearOnDrop).run.on (shared turns) made later with
      ⟨_ | _, _, _⟩ <;> trivial
  · exact along_drop.trans ⟨fun _ => trivial, fun _ => by rintro ⟨⟩⟩

/-- From the new file to the end of the call. -/
theorem along_created {unwritten unsynced : Failure → String}
    {finish : RetainedStage → Files.Action String Unit} {beforeInstall : Except String Unit}
    (finishes : ∀ {asked world}, (finish ⟨file, name, file, content.length,
        Sha256.digest content⟩).run.Along (shared turns) (meeting turns (Spares start leaf content))
          asked world ↔
      ClearThroughout start leaf content turns file name beforeInstall asked world) :
    ((do
        ask (.write file 0 content) unwritten
        ask (.sync file) unsynced
        let identity ← ask (.identity file) texts.error
        pure ⟨file, name, identity, content.length, Sha256.digest content⟩ :
          Files.Action String RetainedStage) >>= finish).run.Along (shared turns)
        (meeting turns (Spares start leaf content)) 1 world ↔
      match (turns 1).fate with
      | .fails => True
      | .tears count => (drift turns 1 world 1).disk.entries leaf = some file →
          Whole start leaf content
            (overwrite ((drift turns 1 world 1).disk.contents file) 0 (content.take count))
      | .works => (∀ number < 2, (turns (2 + number)).fate = .works) →
          ClearThroughout start leaf content turns file name beforeInstall 4
            (drift turns 2 ((drift turns 1 world 1).settle (.write file 0 content) .works) 2) := by
  have answered : (shared turns).answer (.write file 0 content) 1 world =
      (((Op.write file 0 content).meet (turns 1).fate (drift turns 1 world 1).disk).1,
        (drift turns 1 world 1).settle (.write file 0 content) (turns 1).fate) := rfl
  have met : meeting turns (Spares start leaf content) (.write file 0 content) 1 world ↔
      Spares start leaf content (.write file 0 content) (turns 1).fate (drift turns 1 world 1) :=
    Iff.rfl
  rw [along_assoc, along_ask, answered, met]
  cases (turns 1).fate with
  | fails => exact and_self_iff
  | tears count => exact and_iff_left trivial
  | works =>
      refine (and_iff_right trivial).trans ?_
      change Prog.Along _ _ (ExceptT.run ((ask (.sync file) _ >>= fun _ => _) >>= finish)) 2 _ ↔ _
      rw [along_assoc, along_ask_of_still rfl fun _ => rfl]
      change (_ → Prog.Along _ _ (ExceptT.run ((ask (.identity file) _ >>= fun _ => _) >>= finish))
        3 _) ↔ _
      rw [along_assoc, along_ask_of_still rfl fun _ => rfl]
      change (_ → _ → Prog.Along _ _ (ExceptT.run (finish _)) 4 _) ↔ _
      rw [finishes]
      constructor
      · intro along all
        exact along (all 0 (by decide)) (all 1 (by decide))
      · intro clear first second
        apply clear
        intro number small
        rcases Nat.le_one_iff_eq_zero_or_eq_one.mp (Nat.lt_succ_iff.mp small) with rfl | rfl
        · exact first
        · exact second

/-- The operations of the call spare the leaf exactly when the environment favours it:
the flag, as the checks set and clear it, says which of its ends empty the stage. -/
theorem along_iff_favours {random : Except String String} {beforeInstall : Except String Unit} :
    (atomicWriteIntoAfter texts random leaf content beforeInstall).run.Along (shared turns)
        (meeting turns (Spares start leaf content)) 0 (.untouched start) ↔
      Favours start leaf content turns random beforeInstall := by
  unfold atomicWriteIntoAfter RetainedStage.create
  rw [along_assoc]
  cases random with
  | error message => exact ⟨fun _ => by rintro _ ⟨⟩, fun _ => trivial⟩
  | ok name =>
      have answered : (shared turns).answer (.createNew name) 0 (.untouched start) =
          (((Op.createNew name).meet (turns 0).fate (drift turns 0 (.untouched start) 1).disk).1,
            (drift turns 0 (.untouched start) 1).settle (.createNew name) (turns 0).fate) := rfl
      change Prog.Along _ _ (ExceptT.run ((ask (.createNew name) _ >>= fun _ => _) >>= fun _ => _))
        0 _ ↔ _
      rw [along_assoc, along_ask, answered, and_iff_right (spares_of_keepsBytes rfl)]
      simp only [Favours, Except.ok.injEq, forall_eq']
      cases (turns 0).fate with
      | fails => exact ⟨fun _ => by rintro ⟨⟩, fun _ => trivial⟩
      | tears count => exact ⟨fun _ => by rintro ⟨⟩, fun _ => trivial⟩
      | works =>
          rw [forall_prop_of_true rfl]
          cases taken : (drift turns 0 (.untouched start) 1).disk.entries name with
          | some held =>
              have refused : ((Op.createNew name).meet .works
                  (drift turns 0 (.untouched start) 1).disk).1 = .error .alreadyExists := by
                rw [Op.meet, Op.perform, taken]
              rw [refused]
              exact ⟨fun _ => by rintro ⟨⟩, fun _ => trivial⟩
          | none =>
              have opened : ((Op.createNew name).meet .works
                  (drift turns 0 (.untouched start) 1).disk).1 =
                    .ok (drift turns 0 (.untouched start) 1).disk.unused := by
                rw [Op.meet, Op.perform, taken]
              rw [opened, forall_prop_of_true rfl]
              dsimp only
              apply along_created
              intro asked world
              exact along_finish rfl

end Tracking

section Publishing

variable {start : Disk} {leaf name : String} {content : List UInt8} {turns : Nat → Turn}
  {texts : Texts} {stage : RetainedStage}

theorem yields_create {random : Except String String} (apart : random ≠ .ok leaf) :
    Yields (shared turns) (meeting turns (Spares start leaf content)) (Kept start leaf content)
      (RetainedStage.create texts random leaf content)
      (fun stage => Written start leaf content stage.name stage.file)
      (fun _ => Kept start leaf content) := by
  apply @Yields.andThen _ _ _ _ _ _ _ _ _ _ fun name world =>
    Kept start leaf content world ∧ name ≠ leaf
  · apply Yields.lift
    intro world kept
    cases random with
    | error message => exact kept
    | ok name => exact ⟨kept, fun same => apart (congrArg _ same)⟩
  intro name
  apply Yields.andThen
  · apply Yields.askShared
    · exact fun others world given => ⟨stable_kept others world given.1, given.2⟩
    · exact fun fate world given _ => given.1.createNew given.2
  intro file
  apply Yields.andThen
  · exact Yields.askShared stable_staged fun fate world staged spares => staged.write spares
  intro _
  have keeps : ∀ {α : Type} {action : Files.Action String α}, Only Op.still action →
      Yields (shared turns) (meeting turns (Spares start leaf content))
        (Written start leaf content name file) action
        (fun _ => Written start leaf content name file) fun _ => Kept start leaf content :=
    fun only => (only.yields stable_written).weaken (fun _ _ written => written)
      fun _ _ written => written.kept
  apply Yields.andThen (keeps (only_ask rfl))
  intro _
  apply Yields.andThen (keeps (only_ask rfl))
  intro identity
  exact Yields.pure fun _ written => written

theorem yields_installStage {beforeInstall : Except String Unit} :
    Yields (shared turns) (meeting turns (Spares start leaf content))
      (Written start leaf content stage.name stage.file)
      (installStage texts stage leaf beforeInstall)
      (fun _ => Kept start leaf content) (fun _ => Kept start leaf content) := by
  have before : ∀ {action : Files.Action Refusal Unit}, Only Op.still action →
      Yields (shared turns) (meeting turns (Spares start leaf content))
        (Written start leaf content stage.name stage.file) action
        (fun _ => Written start leaf content stage.name stage.file)
        fun _ => Kept start leaf content :=
    fun only => (only.yields stable_written).weaken (fun _ _ written => written)
      fun _ _ written => written.kept
  have behind : ∀ {action : Files.Action Refusal Unit}, Only Op.still action →
      Yields (shared turns) (meeting turns (Spares start leaf content)) (Kept start leaf content) action
        (fun _ => Kept start leaf content) fun _ => Kept start leaf content :=
    fun only => only.yields stable_kept
  have authenticates := @only_authenticateDestination stage texts leaf
  apply Yields.andThen (before (only_translate only_lift))
  intro _
  apply Yields.andThen (before (only_translate only_verifyName))
  intro _
  apply Yields.andThen
  · apply Yields.translate
    exact Yields.askShared stable_written fun fate world written _ => written.rename
  intro _
  apply Yields.andThen (behind (only_translate authenticates))
  intro _
  apply Yields.andThen (behind (only_translate authenticates))
  intro _
  apply Yields.andThen (behind (only_translate (only_translate only_syncParent)))
  intro _
  exact behind (only_translate authenticates)

theorem yields_drop {clearOnDrop : Bool} :
    Yields (shared turns) (meeting turns (Spares start leaf content)) (Kept start leaf content)
      (stage.drop clearOnDrop) (fun _ => Kept start leaf content)
      (fun _ => Kept start leaf content) := by
  cases clearOnDrop with
  | false => exact Yields.pure fun _ kept => kept
  | true =>
      apply @Yields.andThen _ _ _ _ _ _ _ _ _ _ (fun _ => Kept start leaf content)
      · exact Yields.attemptShared stable_kept fun fate world kept spares => kept.truncate spares
      intro _
      apply @Yields.andThen _ _ _ _ _ _ _ _ _ _ (fun _ => Kept start leaf content)
      · apply Yields.attemptShared stable_kept
        intro fate world kept _
        rwa [settle_of_still rfl]
      intro _
      exact Yields.pure fun _ kept => kept

theorem yields_atomicWriteIntoAfter {random : Except String String}
    {beforeInstall : Except String Unit} (apart : random ≠ .ok leaf) :
    Yields (shared turns) (meeting turns (Spares start leaf content)) (Kept start leaf content)
      (atomicWriteIntoAfter texts random leaf content beforeInstall)
      (fun _ => Kept start leaf content) (fun _ => Kept start leaf content) := by
  apply Yields.andThen (yields_create apart)
  intro stage
  apply @Yields.andThen _ _ _ _ _ _ _ _ _ _ (fun _ => Kept start leaf content)
  · refine Yields.weaken (Yields.settled yields_installStage) ?_ fun _ _ kept => kept
    intro result world kept
    cases result <;> exact kept
  intro result
  cases result with
  | ok _ => exact yields_drop
  | error refusal =>
      apply Yields.andThen yields_drop
      intro _
      exact Yields.lift fun _ kept => kept

/-- An operation that empties the stage or breaks off its write while the leaf names
it, and leaves no whole bytes, destroys the leaf. -/
theorem spares_of_kept {β : Type} {op : Op β} {fate : Fate} {world : Shared}
    (kept : Kept start leaf content (world.settle op fate)) :
    Spares start leaf content op fate world := by
  have spoiled : ∀ {file bytes foreign}, world.disk.entries leaf = some file → ¬ foreign file →
      Kept start leaf content ⟨world.disk.store file bytes, foreign, world.removed⟩ →
        Whole start leaf content bytes := by
    rintro file bytes foreign bound cleared (previous | complete | ⟨other, held, marked⟩ |
      ⟨absent, _⟩)
    · exact .inr (previous.symm.trans (Disk.file_store bound))
    · exact .inl (Option.some.inj ((Disk.file_store bound).symm.trans complete))
    · have same : other = file := Option.some.inj (held.symm.trans bound)
      exact absurd (same ▸ marked) cleared
    · exact absurd (bound.symm.trans absent) (Option.some_ne_none file)
  cases op <;> cases fate <;> try trivial
  case write.tears => exact fun bound => spoiled bound (fun marked => marked.2 rfl) kept
  case truncate.works => exact fun bound => spoiled bound (fun marked => marked.2 rfl) kept

/-- Where the system calls that fail and the turns of the other processes favour it, the
leaf holds its previous bytes, the complete content or bytes of another process at the
end.  Where they do not, some operation of the call destroys it. -/
theorem kept_of_favours (texts : Texts) (random : Except String String) (leaf : String)
    (content : List UInt8) (beforeInstall : Except String Unit) (turns : Nat → Turn)
    (start : Disk) (apart : random ≠ .ok leaf) :
    let prog := (atomicWriteIntoAfter texts random leaf content beforeInstall).run
    (Favours start leaf content turns random beforeInstall →
      Kept start leaf content (prog.on (shared turns) 0 (Shared.untouched start)).2.2) ∧
    (¬ Favours start leaf content turns random beforeInstall →
      ¬ prog.Along (shared turns) (fun op asked world =>
        Kept start leaf content ((shared turns).answer op asked world).2) 0
          (Shared.untouched start)) := by
  constructor
  · intro favours
    have along : (atomicWriteIntoAfter texts random leaf content beforeInstall).run.Along
        (shared turns) (meeting turns (Spares start leaf content)) 0 (Shared.untouched start) :=
      along_iff_favours.mpr favours
    have kept := yields_atomicWriteIntoAfter apart 0 (Shared.untouched start) (.inl rfl) along
    generalize (atomicWriteIntoAfter texts random leaf content beforeInstall).run.on
      (shared turns) 0 (Shared.untouched start) = outcome at kept ⊢
    rcases outcome with ⟨_ | _, _, world⟩ <;> exact kept
  · intro hostile along
    apply hostile
    apply along_iff_favours.mp
    exact along.weaken fun op asked world kept => spares_of_kept kept

/-- A directory with one file. -/
def sampleDirectory : Disk :=
  (Disk.empty.create "leaf").store 0 [1]

/-- Right behind the rename another process puts its own file under the leaf. -/
def replacedLeaf (asked : Nat) : Turn :=
  ⟨if asked = 8 then fun disk => (disk.create "other").rename "other" "leaf" else id, .works⟩

/-- The authentication fails and the stage is emptied, but the leaf is another file. -/
theorem kept_on_replacedLeaf :
    Kept sampleDirectory "leaf" [2]
      ((atomicWriteIntoAfter ⟨fun _ => "", id⟩ (.ok "stage") "leaf" [2] (.ok ())).run.on
        (shared replacedLeaf) 0 (Shared.untouched sampleDirectory)).2.2 := by
  have apart : (.ok "stage" : Except String String) ≠ .ok "leaf" := by decide
  apply (kept_of_favours _ _ _ _ _ replacedLeaf sampleDirectory apart).1
  intro name same
  cases same
  dsimp only
  intro works unbound worked
  decide +kernel

/-- Nobody interferes, and the first check behind the rename cannot open the leaf. -/
def failedOpen (asked : Nat) : Turn :=
  ⟨id, if asked = 8 then .fails else .works⟩

/-- The check fails, and the leaf is emptied with the stage. -/
theorem emptied_on_failedOpen :
    ¬∀ (texts : Texts) (random : Except String String) (leaf : String) (content : List UInt8)
      (beforeInstall : Except String Unit) (turns : Nat → Turn) (start : Disk),
      Kept start leaf content
        ((atomicWriteIntoAfter texts random leaf content beforeInstall).run.on (shared turns) 0
          (Shared.untouched start)).2.2 := by
  intro keeps
  have kept := keeps ⟨fun _ => "", id⟩ (.ok "stage") "leaf" [2] (.ok ()) failedOpen sampleDirectory
  have unmarked := @untouched_on _ failedOpen (fun _ => rfl)
    (atomicWriteIntoAfter ⟨fun _ => "", id⟩ (.ok "stage") "leaf" [2] (.ok ())).run 0
    (.untouched sampleDirectory) ⟨fun _ => id, fun _ => id⟩
  have emptied : ((atomicWriteIntoAfter ⟨fun _ => "", id⟩ (.ok "stage") "leaf" [2] (.ok ())).run.on
      (shared failedOpen) 0 (Shared.untouched sampleDirectory)).2.2.disk.file "leaf" = some [] :=
    rfl
  have previous : sampleDirectory.file "leaf" = some [1] := rfl
  rcases kept with same | complete | ⟨file, _, foreign⟩ | ⟨_, removed⟩
  · rw [emptied, previous] at same
    cases same
  · rw [emptied] at complete
    cases complete
  · exact unmarked.1 file foreign
  · exact unmarked.2 "leaf" removed

end Publishing

end Llxprt.Tools
