import Llxprt.Rust.Result
import Mathlib.Logic.Function.Basic

/-!
# Files of one directory

A program is a tree of single file operations.  It can be run to its end, be cut
after any of its operations or in the middle of a write, or meet inquiries that
fail.  A cut leaves the disk as the completed operations made it.
-/

namespace Llxprt.Rust.Files

universe u

/-- A directory: names stand for files, and no file has two names. -/
structure Disk where
  entries : String → Option Nat
  contents : Nat → List UInt8
  unused : Nat
  bounded : ∀ name file, entries name = some file → file < unused
  distinct : ∀ left right file, entries left = some file → entries right = some file →
    left = right

namespace Disk

def empty : Disk where
  entries _ := none
  contents _ := []
  unused := 0
  bounded _ _ found := by cases found
  distinct _ _ _ found := by cases found

/-- The bytes of the file with the name. -/
def file (disk : Disk) (name : String) : Option (List UInt8) :=
  (disk.entries name).map disk.contents

/-- A new empty file under a free name. -/
def create (disk : Disk) (name : String) : Disk where
  entries := Function.update disk.entries name (some disk.unused)
  contents := Function.update disk.contents disk.unused []
  unused := disk.unused + 1
  bounded other file found := by
    rw [Function.update_apply] at found
    split at found
    · cases found
      exact Nat.lt_succ_self _
    · exact Nat.lt_succ_of_lt (disk.bounded other file found)
  distinct left right file first second := by
    rw [Function.update_apply] at first second
    split at first <;> split at second
    · rename_i same other
      exact same.trans other.symm
    · cases first
      exact absurd (disk.bounded right _ second) (Nat.lt_irrefl _)
    · cases second
      exact absurd (disk.bounded left _ first) (Nat.lt_irrefl _)
    · exact disk.distinct left right file first second

def remove (disk : Disk) (name : String) : Disk where
  entries := Function.update disk.entries name none
  contents := disk.contents
  unused := disk.unused
  bounded other file found := by
    rw [Function.update_apply] at found
    split at found
    · cases found
    · exact disk.bounded other file found
  distinct left right file first second := by
    rw [Function.update_apply] at first second
    split at first
    · cases first
    · split at second
      · cases second
      · exact disk.distinct left right file first second

/-- The file moves to the new name, over the file that had it. -/
def rename (disk : Disk) (old new : String) : Disk where
  entries := Function.update (Function.update disk.entries old none) new (disk.entries old)
  contents := disk.contents
  unused := disk.unused
  bounded other file found := by
    rw [Function.update_apply, Function.update_apply] at found
    split at found
    · exact disk.bounded old file found
    · split at found
      · cases found
      · exact disk.bounded other file found
  distinct left right file first second := by
    rw [Function.update_apply, Function.update_apply] at first second
    split at first <;> split at second
    · rename_i same other
      exact same.trans other.symm
    · split at second
      · cases second
      · rename_i apart
        exact absurd (disk.distinct old right file first second).symm apart
    · split at first
      · cases first
      · rename_i apart
        exact absurd (disk.distinct left old file first second) apart
    · split at first
      · cases first
      · split at second
        · cases second
        · exact disk.distinct left right file first second

def store (disk : Disk) (file : Nat) (bytes : List UInt8) : Disk :=
  { disk with contents := Function.update disk.contents file bytes }

end Disk

/-- The bytes of a file after a write at an offset; a gap is filled with zeros. -/
def overwrite (old : List UInt8) (offset : Nat) (bytes : List UInt8) : List UInt8 :=
  old.take offset ++ List.replicate (offset - old.length) 0 ++ bytes ++
    old.drop (offset + bytes.length)

/-- The bytes of a file after a change of its length. -/
def resize (old : List UInt8) (size : Nat) : List UInt8 :=
  old.take size ++ List.replicate (size - old.length) 0

/-- Why an operation failed. -/
inductive Failure where
  | notFound
  | alreadyExists
  | other

/-- One file operation and the type of its answer. -/
inductive Op : Type → Type where
  | openFile (name : String) : Op Nat
  | createNew (name : String) : Op Nat
  | length (file : Nat) : Op Nat
  | identity (file : Nat) : Op Nat
  | read (file offset limit : Nat) : Op (List UInt8)
  | write (file offset : Nat) (bytes : List UInt8) : Op Unit
  | truncate (file size : Nat) : Op Unit
  | chmod (file : Nat) : Op Unit
  | sync (file : Nat) : Op Unit
  | openDirectory : Op Unit
  | syncDirectory : Op Unit
  | rename (old new : String) : Op Unit
  | remove (name : String) : Op Unit

namespace Op

/-- The operation leaves the directory as it is. -/
def still {β : Type} : Op β → Bool
  | createNew _ | write .. | truncate .. | rename .. | remove _ => false
  | _ => true

/-- The operation leaves the bytes of every file as they are. -/
def keepsBytes {β : Type} : Op β → Bool
  | write .. | truncate .. => false
  | _ => true

def perform {β : Type} : Op β → Disk → Except Failure β × Disk
  | openFile name, disk => (okOr (disk.entries name) .notFound, disk)
  | createNew name, disk =>
      match disk.entries name with
      | some _ => (.error .alreadyExists, disk)
      | none => (.ok disk.unused, disk.create name)
  | length file, disk => (.ok (disk.contents file).length, disk)
  | identity file, disk => (.ok file, disk)
  | read file offset limit, disk => (.ok (((disk.contents file).drop offset).take limit), disk)
  | write file offset bytes, disk =>
      (.ok (), disk.store file (overwrite (disk.contents file) offset bytes))
  | truncate file size, disk => (.ok (), disk.store file (resize (disk.contents file) size))
  | chmod _, disk | sync _, disk | openDirectory, disk | syncDirectory, disk => (.ok (), disk)
  | rename old new, disk =>
      match disk.entries old with
      | some _ => (.ok (), disk.rename old new)
      | none => (.error .notFound, disk)
  | remove name, disk =>
      match disk.entries name with
      | some _ => (.ok (), disk.remove name)
      | none => (.error .notFound, disk)

/-- What an operation leaves that was cut short: the first bytes of a write. -/
def torn {β : Type} (count : Nat) : Op β → Disk → Disk
  | write file offset bytes, disk =>
      disk.store file (overwrite (disk.contents file) offset (bytes.take count))
  | _, disk => disk

end Op

/-- A program over the files. -/
inductive Prog (α : Type) : Type 1 where
  | done (value : α)
  | call {β : Type} (op : Op β) (next : Except Failure β → Prog α)

namespace Prog

variable {α β : Type}

def bind : Prog α → (α → Prog β) → Prog β
  | done value, next => next value
  | call op rest, next => call op fun answer => (rest answer).bind next

instance : Monad Prog where
  pure := done
  bind := bind

/-- The value of a program and the disk it leaves. -/
def run : Prog α → Disk → α × Disk
  | done value, disk => (value, disk)
  | call op next, disk => (next (op.perform disk).1).run (op.perform disk).2

/-- The disk that a program leaves when it stops after some operations and some
bytes of a write. -/
def cut : Prog α → Nat → Nat → Disk → Disk
  | done _, _, _, disk => disk
  | call op _, 0, count, disk => op.torn count disk
  | call op next, steps + 1, count, disk =>
      (next (op.perform disk).1).cut steps count (op.perform disk).2

/-- Whatever it is answered, the program makes permitted operations only. -/
def Only (permitted : {β : Type} → Op β → Bool) : Prog α → Prop
  | done _ => True
  | call op next => permitted op = true ∧ ∀ answer, (next answer).Only permitted

end Prog

/-- A program that may stop with an error. -/
abbrev Action (ε α : Type) := ExceptT ε Prog α

section Actions

variable {ε α β : Type}

/-- One operation, with the error of its failure. -/
def ask (op : Op β) (error : Failure → ε) : Action ε β :=
  ExceptT.mk (.call op fun
    | .ok value => .done (.ok value)
    | .error failure => .done (.error (error failure)))

/-- One operation, whose failure is an answer. -/
def attempt (op : Op β) : Action ε (Except Failure β) :=
  ExceptT.mk (.call op fun answer => .done (.ok answer))

/-- A step without file operations. -/
def lift (result : Except ε α) : Action ε α :=
  ExceptT.mk (.done result)

end Actions

section Changes

variable {disk before middle after : Disk} {name other : String} {file : Nat}
  {bytes : List UInt8} {names more : List String}

/-- The two disks differ in the named files alone. -/
def Disk.Same (names : List String) (before after : Disk) : Prop :=
  ∀ name, name ∉ names →
    after.entries name = before.entries name ∧ after.file name = before.file name

theorem Disk.Same.refl (names : List String) (disk : Disk) : Disk.Same names disk disk :=
  fun _ _ => ⟨rfl, rfl⟩

theorem Disk.Same.trans (first : Disk.Same names before middle)
    (second : Disk.Same names middle after) : Disk.Same names before after := by
  intro name outside
  constructor
  · exact (second name outside).1.trans (first name outside).1
  · exact (second name outside).2.trans (first name outside).2

theorem Disk.Same.weaken (same : Disk.Same names before after)
    (included : ∀ name ∈ names, name ∈ more) : Disk.Same more before after :=
  fun name outside => same name fun member => outside (included name member)

theorem Disk.Same.file_eq (same : Disk.Same names before after) (outside : name ∉ names) :
    after.file name = before.file name :=
  (same name outside).2

theorem Disk.file_eq_some : disk.file name = some bytes ↔
    ∃ file, disk.entries name = some file ∧ disk.contents file = bytes := by
  simp [Disk.file, Option.map_eq_some_iff]

theorem Disk.entries_create : (disk.create name).entries name = some disk.unused :=
  Function.update_self ..

theorem Disk.contents_create : (disk.create name).contents disk.unused = [] :=
  Function.update_self ..

theorem Disk.same_create : Disk.Same [name] disk (disk.create name) := by
  intro other outside
  rw [List.mem_singleton] at outside
  have entries : (disk.create name).entries other = disk.entries other :=
    Function.update_of_ne outside ..
  refine ⟨entries, ?_⟩
  rw [Disk.file, Disk.file, entries]
  cases found : disk.entries other with
  | none => rfl
  | some file =>
      have old : file ≠ disk.unused := Nat.ne_of_lt (disk.bounded other file found)
      exact congrArg some (Function.update_of_ne old ..)

theorem Disk.entries_remove : (disk.remove name).entries name = none :=
  Function.update_self ..

theorem Disk.same_remove : Disk.Same [name] disk (disk.remove name) := by
  intro other outside
  rw [List.mem_singleton] at outside
  have entries : (disk.remove name).entries other = disk.entries other :=
    Function.update_of_ne outside ..
  exact ⟨entries, by rw [Disk.file, Disk.file, entries]; rfl⟩

theorem Disk.entries_rename : (disk.rename name other).entries other = disk.entries name :=
  Function.update_self ..

theorem Disk.file_rename : (disk.rename name other).file other = disk.file name := by
  rw [Disk.file, Disk.file, Disk.entries_rename]
  rfl

theorem Disk.same_rename : Disk.Same [name, other] disk (disk.rename name other) := by
  intro third outside
  simp only [List.mem_cons, List.not_mem_nil, or_false, not_or] at outside
  have entries : (disk.rename name other).entries third = disk.entries third := by
    change Function.update _ other _ third = _
    rw [Function.update_of_ne outside.2, Function.update_of_ne outside.1]
  exact ⟨entries, by rw [Disk.file, Disk.file, entries]; rfl⟩

theorem Disk.file_store (found : disk.entries name = some file) :
    (disk.store file bytes).file name = some bytes := by
  have entries : (disk.store file bytes).entries name = some file := found
  rw [Disk.file, entries]
  exact congrArg some (Function.update_self ..)

theorem Disk.same_store (found : disk.entries name = some file) :
    Disk.Same [name] disk (disk.store file bytes) := by
  intro other outside
  rw [List.mem_singleton] at outside
  refine ⟨rfl, ?_⟩
  have entries : (disk.store file bytes).entries other = disk.entries other := rfl
  rw [Disk.file, Disk.file, entries]
  cases held : disk.entries other with
  | none => rfl
  | some number =>
      have apart : number ≠ file := by
        rintro rfl
        exact outside (disk.distinct other name number held found)
      exact congrArg some (Function.update_of_ne apart ..)

end Changes

section Runs

variable {α β ε : Type} {disk : Disk}

theorem Prog.run_bind {prog : Prog α} {next : α → Prog β} :
    (prog >>= next).run disk = (next (prog.run disk).1).run (prog.run disk).2 := by
  induction prog generalizing disk with
  | done value => rfl
  | call op rest ih => exact ih (op.perform disk).1

/-- An action runs behind another when that one succeeds. -/
theorem run_andThen {action : Action ε α} {next : α → Action ε β} :
    (action >>= next).run.run disk =
      match action.run.run disk with
      | (.ok value, later) => (next value).run.run later
      | (.error error, later) => (.error error, later) := by
  change (action.run >>= ExceptT.bindCont next).run disk = _
  rw [Prog.run_bind]
  rcases action.run.run disk with ⟨_ | _, later⟩ <;> rfl

theorem run_ask {op : Op β} {error : Failure → ε} :
    (ask op error).run.run disk =
      ((op.perform disk).1.mapError error, (op.perform disk).2) := by
  unfold ask
  simp only [ExceptT.run, ExceptT.mk, Prog.run]
  cases (op.perform disk).1 <;> rfl

theorem run_lift {result : Except ε α} : (lift result).run.run disk = (result, disk) :=
  rfl

/-- The action makes permitted operations only. -/
def Only (permitted : {β : Type} → Op β → Bool) (action : Action ε α) : Prop :=
  action.run.Only permitted

variable {permitted wider : {β : Type} → Op β → Bool}

theorem only_pure {value : α} : Only permitted (pure value : Action ε α) :=
  True.intro

theorem only_lift {result : Except ε α} : Only permitted (lift result) :=
  True.intro

theorem only_ask {op : Op β} {error : Failure → ε} (permits : permitted op = true) :
    Only permitted (ask op error) := by
  refine ⟨permits, ?_⟩
  intro answer
  cases answer <;> trivial

theorem Prog.Only.bind {prog : Prog α} {next : α → Prog β} (only : prog.Only permitted)
    (rest : ∀ value, (next value).Only permitted) : (prog >>= next).Only permitted := by
  induction prog with
  | done value => exact rest value
  | call op next ih => exact ⟨only.1, fun answer => ih answer (only.2 answer)⟩

theorem only_andThen {action : Action ε α} {next : α → Action ε β} (only : Only permitted action)
    (rest : ∀ value, Only permitted (next value)) : Only permitted (action >>= next) := by
  refine Prog.Only.bind only ?_
  intro result
  cases result with
  | error error => trivial
  | ok value => exact rest value

theorem Prog.Only.weaken (implies : ∀ {β : Type} (op : Op β), permitted op = true → wider op = true)
    {prog : Prog α} (only : prog.Only permitted) : prog.Only wider := by
  induction prog with
  | done value => trivial
  | call op next ih => exact ⟨implies op only.1, fun answer => ih answer (only.2 answer)⟩

theorem perform_of_still {op : Op β} (still : op.still = true) : (op.perform disk).2 = disk := by
  cases op <;> first | rfl | cases still

theorem keepsBytes_of_still {op : Op β} (still : op.still = true) : op.keepsBytes = true := by
  cases op <;> first | rfl | cases still

/-- Operations that leave the directory alone make an action that does. -/
theorem Prog.Only.leaves {prog : Prog α} (only : prog.Only Op.still) : (prog.run disk).2 = disk := by
  induction prog with
  | done value => rfl
  | call op next ih =>
      rw [Prog.run, perform_of_still only.1]
      exact ih _ (only.2 _)

end Runs

section Logic

variable {α β ε : Type} {crash : Disk → Prop} {before middle after : Disk}

/-- The program runs from one disk to the other with the value, and every disk that
a cut of it can leave is one that can be recovered from. -/
structure Goes (crash : Disk → Prop) (prog : Prog α) (before : Disk) (value : α) (after : Disk) :
    Prop where
  runs : prog.run before = (value, after)
  survives : ∀ steps count, crash (prog.cut steps count before)

theorem Goes.done {value : α} (recoverable : crash before) :
    Goes crash (.done value) before value before where
  runs := rfl
  survives _ _ := recoverable

theorem Goes.call {op : Op β} {next : Except Failure β → Prog α} {value : α}
    (recoverable : ∀ count, crash (op.torn count before))
    (rest : Goes crash (next (op.perform before).1) (op.perform before).2 value after) :
    Goes crash (.call op next) before value after where
  runs := rest.runs
  survives steps count := by
    cases steps with
    | zero => exact recoverable count
    | succ steps => exact rest.survives steps count

theorem Goes.bind {prog : Prog α} {next : α → Prog β} {value : α} {result : β}
    (first : Goes crash prog before value middle) (second : Goes crash (next value) middle result after) :
    Goes crash (prog >>= next) before result after := by
  induction prog generalizing before with
  | done found =>
      have same := first.runs
      cases same
      exact second
  | call op rest ih =>
      apply Goes.call
      · exact fun count => first.survives 0 count
      · apply ih
        constructor
        · exact first.runs
        · exact fun steps count => first.survives (steps + 1) count

/-- The last cut is behind the program. -/
theorem Goes.finishes {prog : Prog α} {value : α} (goes : Goes crash prog before value after) :
    crash after := by
  induction prog generalizing before with
  | done found =>
      have same := goes.runs
      cases same
      exact goes.survives 0 0
  | call op rest ih =>
      apply ih
      constructor
      · exact goes.runs
      · exact fun steps count => goes.survives (steps + 1) count

/-- An action that succeeds passes its value on. -/
theorem Goes.andThen {action : Action ε α} {next : α → Action ε β} {value : α} {result : Except ε β}
    (first : Goes crash action.run before (.ok value) middle)
    (second : Goes crash (next value).run middle result after) :
    Goes crash (action >>= next).run before result after :=
  Goes.bind first second

/-- An action that succeeds is not handled. -/
theorem Goes.tryCatch {action : Action ε α} {handler : ε → Action ε α} {value : α}
    (first : Goes crash action.run before (.ok value) after) (recoverable : crash after) :
    Goes crash (tryCatch action handler).run before (.ok value) after :=
  Goes.bind first (Goes.done recoverable)

theorem Goes.pure {value : α} (recoverable : crash before) :
    Goes crash (pure value : Action ε α).run before (.ok value) before :=
  Goes.done recoverable

theorem Goes.lift {result : Except ε α} (recoverable : crash before) :
    Goes crash (lift result).run before result before :=
  Goes.done recoverable

theorem Goes.liftOk {result : Except ε α} {value : α} (succeeds : result = .ok value)
    (recoverable : crash before) : Goes crash (Files.lift result).run before (.ok value) before := by
  rw [succeeds]
  exact Goes.lift recoverable

theorem Goes.ask {op : Op β} {error : Failure → ε} {value : β}
    (performed : op.perform before = (.ok value, after))
    (recoverable : ∀ count, crash (op.torn count before)) (finished : crash after) :
    Goes crash (ask op error).run before (.ok value) after := by
  apply Goes.call recoverable
  rw [performed]
  exact Goes.done finished

theorem Goes.attempt {op : Op β} {answer : Except Failure β}
    (performed : op.perform before = (answer, after))
    (recoverable : ∀ count, crash (op.torn count before)) (finished : crash after) :
    Goes crash (attempt op : Action ε _).run before (.ok answer) after := by
  apply Goes.call recoverable
  rw [performed]
  exact Goes.done finished

end Logic

end Llxprt.Rust.Files
