import Llxprt.Log.Store
import Llxprt.Kernel.Weights

/-!
# The artifacts of a session store

The names of snapshots and segments tell their generations apart from each other
and from the manifest.  The documents stay below their caps.  Every file routine of
the store has one rule, which also says what a cut of it leaves.
-/

namespace Llxprt.Log

open Llxprt.Kernel Llxprt.Kernel.Recorded Llxprt.Rust Llxprt.Rust.Files

section Names

variable {generation other seq later : UInt64} {left right : String}

theorem toList_snapshotName :
    (snapshotName generation seq).toList = "snapshot-".toList ++
      (Nat.toDigits 10 generation.toNat ++ '-' :: (Nat.toDigits 10 seq.toNat ++ ".json".toList)) := by
  simp [snapshotName]

theorem toList_segmentName :
    (segmentName generation seq).toList = "segment-".toList ++
      (Nat.toDigits 10 generation.toNat ++ '-' :: (Nat.toDigits 10 seq.toNat ++ ".log".toList)) := by
  simp [segmentName]

/-- Numbers with the same digits are the same. -/
theorem toDigits_injective {value number : Nat}
    (same : Nat.toDigits 10 value = Nat.toDigits 10 number) : value = number := by
  rw [← Nat.ofDigitChars_ten_toDigits (n := value), same, Nat.ofDigitChars_ten_toDigits]

/-- The digits before a hyphen. -/
theorem toDigits_of_hyphen {value number : Nat} {rest others : List Char}
    (same : Nat.toDigits 10 value ++ '-' :: rest = Nat.toDigits 10 number ++ '-' :: others) :
    value = number ∧ rest = others := by
  have read : ∀ (value : Nat) (rest : List Char),
      (Nat.toDigits 10 value ++ '-' :: rest).takeWhile Char.isDigit = Nat.toDigits 10 value := by
    intro value rest
    have hyphen : Char.isDigit '-' = false := by decide
    rw [List.takeWhile_append_of_pos fun char member => Text.isDigit_of_mem_toDigits member,
      List.takeWhile_cons_of_neg (by simp [hyphen]), List.append_nil]
  have digits := congrArg (List.takeWhile Char.isDigit) same
  rw [read, read] at digits
  have equal := toDigits_injective digits
  rw [equal] at same
  exact ⟨equal, (List.cons.inj (List.append_cancel_left same)).2⟩

/-- A segment is known from its name. -/
theorem segmentName_injective (same : segmentName generation seq = segmentName other later) :
    generation = other ∧ seq = later := by
  have lists := congrArg String.toList same
  rw [toList_segmentName, toList_segmentName] at lists
  rcases toDigits_of_hyphen (List.append_cancel_left lists) with ⟨first, rest⟩
  have second := toDigits_injective (List.append_cancel_right rest)
  exact ⟨UInt64.toNat_inj.mp first, UInt64.toNat_inj.mp second⟩

/-- A snapshot names its generation. -/
theorem generation_of_snapshotName (same : snapshotName generation seq = snapshotName other later) :
    generation = other := by
  have lists := congrArg String.toList same
  rw [toList_snapshotName, toList_snapshotName] at lists
  exact UInt64.toNat_inj.mp (toDigits_of_hyphen (List.append_cancel_left lists)).1

/-- The first characters of a name, which tell the kinds of artifacts apart. -/
def initials (name : String) : List Char :=
  name.toList.take 3

/-- Names that begin differently differ. -/
theorem ne_of_initials (apart : initials left ≠ initials right) : left ≠ right := by
  rintro rfl
  exact apart rfl

theorem notMem_of_initials {names : List String} (apart : initials left ∉ names.map initials) :
    left ∉ names :=
  fun member => apart (List.mem_map_of_mem member)

@[simp]
theorem initials_snapshotName : initials (snapshotName generation seq) = ['s', 'n', 'a'] := by
  rw [initials, toList_snapshotName]
  rfl

@[simp]
theorem initials_segmentName : initials (segmentName generation seq) = ['s', 'e', 'g'] := by
  rw [initials, toList_segmentName]
  rfl

@[simp]
theorem initials_manifestName : initials manifestName = ['s', 'e', 's'] := by
  decide

@[simp]
theorem initials_manifestTemp : initials manifestTemp = ['.', 's', 'e'] := by
  decide

@[simp]
theorem initials_tempName :
    initials (tempName (snapshotName generation seq)) = ['.', 's', 'n'] := by
  rw [initials, tempName, String.toList_append, String.toList_append, toList_snapshotName]
  rfl

/-- A number of 64 bits has twenty digits at most. -/
theorem length_toDigits (value : UInt64) : (Nat.toDigits 10 value.toNat).length ≤ 20 :=
  Nat.toDigits_length 10 _ 20 (by decide) (Nat.lt_trans value.toNat_lt (by decide))

/-- The name of a snapshot is short. -/
theorem length_snapshotName : (snapshotName generation seq).length ≤ 64 := by
  have first := length_toDigits generation
  have second := length_toDigits seq
  have front : "snapshot-".toList.length = 9 := rfl
  have back : ".json".toList.length = 5 := rfl
  rw [← String.length_toList, toList_snapshotName, List.length_append, List.length_append,
    List.length_cons, List.length_append, front, back]
  omega

theorem length_segmentName : (segmentName generation seq).length ≤ 64 := by
  have first := length_toDigits generation
  have second := length_toDigits seq
  have front : "segment-".toList.length = 8 := rfl
  have back : ".log".toList.length = 4 := rfl
  rw [← String.length_toList, toList_segmentName, List.length_append, List.length_append,
    List.length_cons, List.length_append, front, back]
  omega

/-- A character that no path contains as a separator or an end. -/
def Plain (char : Char) : Prop :=
  char ≠ '/' ∧ char ≠ '\\' ∧ char ≠ '\x00'

instance (char : Char) : Decidable (Plain char) :=
  inferInstanceAs (Decidable (_ ∧ _ ∧ _))

/-- Digits are plain. -/
theorem plain_of_isDigit {char : Char} (digit : char.isDigit = true) : Plain char := by
  refine ⟨?_, ?_, ?_⟩ <;> rintro rfl <;> exact absurd digit (by decide)

theorem plain_of_all {chars : List Char} (all : (chars.all fun char => decide (Plain char)) = true) :
    ∀ char ∈ chars, Plain char := by
  simpa using all

/-- A plain name that is not empty and no dots is accepted. -/
theorem badName_eq_false {name : String} (begins : initials name ≠ []) (first : initials name ≠ ['.'])
    (second : initials name ≠ ['.', '.']) (plain : ∀ char ∈ name.toList, Plain char) :
    badName name = false := by
  have some : name ≠ "" := by
    rintro rfl
    exact begins rfl
  have notDot : name ≠ "." := by
    rintro rfl
    exact first (by decide)
  have notDots : name ≠ ".." := by
    rintro rfl
    exact second (by decide)
  simp only [badName, Bool.or_eq_false_iff, decide_eq_false_iff_not, List.any_eq_false,
    Bool.or_eq_true, decide_eq_true_eq, not_or]
  refine ⟨⟨⟨?_, notDot⟩, notDots⟩, fun char member => ⟨⟨(plain char member).1,
    (plain char member).2.1⟩, (plain char member).2.2⟩⟩
  simpa using some

/-- A name of digits between plain texts. -/
theorem plain_named {front back : List Char} {value number : Nat} (opens : ∀ char ∈ front, Plain char)
    (closes : ∀ char ∈ back, Plain char) :
    ∀ char ∈ front ++ (Nat.toDigits 10 value ++ '-' :: (Nat.toDigits 10 number ++ back)),
      Plain char := by
  intro char member
  rw [List.mem_append, List.mem_append, List.mem_cons, List.mem_append] at member
  rcases member with inFront | digit | rfl | digit | inBack
  · exact opens char inFront
  · exact plain_of_isDigit (Text.isDigit_of_mem_toDigits digit)
  · decide
  · exact plain_of_isDigit (Text.isDigit_of_mem_toDigits digit)
  · exact closes char inBack

/-- The names that the store makes are accepted. -/
theorem badName_snapshotName : badName (snapshotName generation seq) = false := by
  apply badName_eq_false (by simp) (by simp) (by simp)
  rw [toList_snapshotName]
  exact plain_named (plain_of_all (by decide)) (plain_of_all (by decide))

theorem badName_segmentName : badName (segmentName generation seq) = false := by
  apply badName_eq_false (by simp) (by simp) (by simp)
  rw [toList_segmentName]
  exact plain_named (plain_of_all (by decide)) (plain_of_all (by decide))

end Names

section Sizes

variable {τ κ : Type} [Recorded τ] [Recorded κ]

/-- A byte takes three digits and a comma. -/
theorem itemsWeight_bytes_le (bytes : Bytes) : itemsWeight (bytes.map json) ≤ 4 * bytes.length := by
  induction bytes with
  | nil => exact Nat.le_refl 0
  | cons byte bytes ih =>
      have small := weight_uint8_le byte
      rw [List.map_cons, itemsWeight_cons, List.length_cons]
      omega

/-- A snapshot is little more than its state. -/
theorem length_snapshot_le (state : SessionState τ κ) (seq : UInt64)
    {digest : Bytes} (digested : digest.length = digestLen) :
    (serialize (snapshotOf state seq digest)).length ≤ (serialize state).length + 4096 := by
  have version := weight_uint32_le formatVersion
  have number := weight_uint64_le seq
  have bytes : weight (json digest) ≤ itemsWeight (digest.map json) + 2 := weight_array_le _
  have few := itemsWeight_bytes_le digest
  have names : width (Json.printString "format_version") = 16 ∧
      width (Json.printString "base_seq") = 10 ∧ width (Json.printString "last_seq") = 10 ∧
      width (Json.printString "last_frame_digest") = 19 ∧
      width (Json.printString "state") = 7 := by
    decide
  have whole : weight (json (snapshotOf state seq digest)) = fieldsWeight
      [("format_version", json formatVersion), ("base_seq", json seq), ("last_seq", json seq),
        ("last_frame_digest", json digest), ("state", json state)] + 1 := weight_object_cons
  rw [digested, digestLen] at few
  rw [length_serialize, length_serialize, whole]
  simp only [fieldsWeight_cons, fieldsWeight_nil, names]
  omega

/-- A recovery set whose texts are as short as those that the store writes. -/
structure RecoverySet.Short (set : RecoverySet) : Prop where
  snapshot : set.snapshot.length ≤ 64
  snapshotDigest : set.snapshotDigest.length ≤ 64
  segment : set.segment.length ≤ 64
  sealedDigest : ∀ digest, set.sealedDigest = some digest → digest.length ≤ 64

/-- A digest has 64 digits. -/
theorem length_fullDigest (bytes : Bytes) : (fullDigest bytes).length = 64 := by
  rw [← String.length_toList]
  exact Sha256.length_digest bytes

theorem weight_optional_uint64_le (value : Option UInt64) : weight (optional value) ≤ 20 := by
  cases value with
  | none => decide
  | some value => exact weight_uint64_le value

/-- A recovery set is small, so the manifest is. -/
theorem weight_recoverySet_le {set : RecoverySet} (short : set.Short) :
    weight (json set) ≤ 2048 := by
  have snapshot := weight_string_le set.snapshot
  have snapshotDigest := weight_string_le set.snapshotDigest
  have segment := weight_string_le set.segment
  have sealedDigest : weight (optional set.sealedDigest) ≤ 400 := by
    cases found : set.sealedDigest with
    | none => decide
    | some digest =>
        have long := weight_string_le digest
        have bounded := short.sealedDigest digest found
        rw [weight_optional_some]
        omega
  have sealedLen := weight_optional_uint64_le set.sealedLen
  have base := weight_uint64_le set.baseSeq
  have last := weight_uint64_le set.lastSeq
  have first := weight_uint64_le set.firstSeq
  have names : width (Json.printString "snapshot") = 10 ∧
      width (Json.printString "snapshot_digest") = 17 ∧
      width (Json.printString "base_seq") = 10 ∧ width (Json.printString "last_seq") = 10 ∧
      width (Json.printString "segment") = 9 ∧ width (Json.printString "first_seq") = 11 ∧
      width (Json.printString "sealed_len") = 12 ∧
      width (Json.printString "sealed_digest") = 15 := by
    decide
  have whole : weight (json set) = fieldsWeight
      [("snapshot", json set.snapshot), ("snapshot_digest", json set.snapshotDigest),
        ("base_seq", json set.baseSeq), ("last_seq", json set.lastSeq),
        ("segment", json set.segment), ("first_seq", json set.firstSeq),
        ("sealed_len", optional set.sealedLen), ("sealed_digest", optional set.sealedDigest)] + 1 :=
    weight_object_cons
  have bounds := short.snapshot
  have others := short.snapshotDigest
  have further := short.segment
  rw [whole]
  simp only [fieldsWeight_cons, fieldsWeight_nil, names]
  omega

/-- A manifest of short sets stays below its cap. -/
theorem length_manifest_le {manifest : Manifest} (current : manifest.current.Short)
    (previous : ∀ set, manifest.previous = some set → set.Short) :
    (serialize manifest).length ≤ manifestCap := by
  have version := weight_uint32_le manifest.formatVersion
  have generation := weight_uint64_le manifest.generation
  have first := weight_recoverySet_le current
  have second : weight (optional manifest.previous) ≤ 2048 := by
    cases found : manifest.previous with
    | none => decide
    | some set => exact weight_recoverySet_le (previous set found)
  have names : width (Json.printString "format_version") = 16 ∧
      width (Json.printString "generation") = 12 ∧ width (Json.printString "current") = 9 ∧
      width (Json.printString "previous") = 10 := by
    decide
  have whole : weight (json manifest) = fieldsWeight
      [("format_version", json manifest.formatVersion), ("generation", json manifest.generation),
        ("current", json manifest.current), ("previous", optional manifest.previous)] + 1 :=
    weight_object_cons
  rw [length_serialize, whole, manifestCap]
  simp only [fieldsWeight_cons, fieldsWeight_nil, names]
  omega

/-- The set of a new store is short. -/
theorem short_openedSet (generation seq : UInt64) (bytes : Bytes) :
    (openedSet generation seq (fullDigest bytes)).Short where
  snapshot := length_snapshotName
  snapshotDigest := Nat.le_of_eq (length_fullDigest bytes)
  segment := length_segmentName
  sealedDigest _ found := by cases found

end Sizes

section Rules

variable {crash : Disk → Prop} {disk : Disk} {name temp : String} {bytes : Bytes} {file cap : Nat}

/-- A file that is read has an entry. -/
theorem entries_of_file (found : disk.file name = some bytes) :
    ∃ file, disk.entries name = some file ∧ disk.contents file = bytes :=
  Disk.file_eq_some.mp found

theorem openFile_performs (found : disk.entries name = some file) :
    (Op.openFile name).perform disk = (.ok file, disk) := by
  change (okOr (disk.entries name) Failure.notFound, disk) = _
  rw [found]
  rfl

/-- A file within the cap is read. -/
theorem readOptional_goes (found : disk.file name = some bytes) (short : bytes.length ≤ cap)
    (recoverable : crash disk) :
    Goes crash (readOptional name cap).run disk (.ok (some bytes)) disk := by
  rcases entries_of_file found with ⟨file, entry, contents⟩
  have fits : reject (cap < bytes.length) (StoreError.corrupt "session artifact exceeds its byte cap") =
      .ok () := reject_eq_ok.mpr (Nat.not_lt.mpr short)
  have performed : (Op.read file 0 (cap + 1)).perform disk = (.ok bytes, disk) := by
    change (Except.ok _, disk) = _
    rw [contents, List.drop_zero, List.take_of_length_le (Nat.le_succ_of_le short)]
  apply Goes.andThen (Goes.attempt (openFile_performs entry) (fun _ => recoverable) recoverable)
  apply Goes.andThen (Goes.ask performed (fun _ => recoverable) recoverable)
  exact Goes.andThen (Goes.liftOk fits recoverable) (Goes.pure recoverable)

/-- A missing file is no error. -/
theorem readOptional_missing (missing : disk.entries name = none) (recoverable : crash disk) :
    Goes crash (readOptional name cap).run disk (.ok none) disk := by
  have performed : (Op.openFile name).perform disk = (.error .notFound, disk) := by
    change (okOr (disk.entries name) Failure.notFound, disk) = _
    rw [missing]
    rfl
  exact Goes.andThen (Goes.attempt performed (fun _ => recoverable) recoverable)
    (Goes.pure recoverable)

/-- An artifact within the cap is read. -/
theorem readArtifact_goes (found : disk.file name = some bytes) (short : bytes.length ≤ cap)
    (recoverable : crash disk) : Goes crash (readArtifact name cap).run disk (.ok bytes) disk :=
  Goes.andThen (readOptional_goes found short recoverable) (Goes.liftOk rfl recoverable)

/-- Syncing changes nothing that is seen. -/
theorem syncDir_goes (recoverable : crash disk) : Goes crash syncDir.run disk (.ok ()) disk :=
  Goes.andThen (Goes.ask rfl (fun _ => recoverable) recoverable)
    (Goes.ask rfl (fun _ => recoverable) recoverable)

theorem fchmod_goes (recoverable : crash disk) : Goes crash (fchmod file).run disk (.ok ()) disk :=
  Goes.ask rfl (fun _ => recoverable) recoverable

/-- A removal frees the name, whether it finds a file or not. -/
theorem remove_performs : ∃ answer after, (Op.remove name).perform disk = (answer, after) ∧
    Disk.Same [name] disk after ∧ after.entries name = none ∧
    ∀ failure, answer = .error failure → failure = .notFound := by
  cases found : disk.entries name with
  | none =>
      have same : (Op.remove name).perform disk = (.error .notFound, disk) := by
        simp only [Op.perform, found]
      exact ⟨_, _, same, Disk.Same.refl _ _, found, fun _ failed => (Except.error.inj failed).symm⟩
  | some file =>
      have same : (Op.remove name).perform disk = (.ok (), disk.remove name) := by
        simp only [Op.perform, found]
      exact ⟨_, _, same, Disk.same_remove, Disk.entries_remove, fun _ failed => by cases failed⟩

/-- A free name is created. -/
theorem createNew_performs (free : disk.entries name = none) :
    (Op.createNew name).perform disk = (.ok disk.unused, disk.create name) := by
  simp only [Op.perform, free]

/-- A rename takes the entry along. -/
theorem rename_performs (found : disk.entries temp = some file) :
    (Op.rename temp name).perform disk = (.ok (), disk.rename temp name) := by
  simp only [Op.perform, found]

theorem sameFileIdentity_goes (recoverable : crash disk) :
    Goes crash (sameFileIdentity file file).run disk (.ok true) disk := by
  apply Goes.andThen (Goes.ask rfl (fun _ => recoverable) recoverable)
  apply Goes.andThen (Goes.ask rfl (fun _ => recoverable) recoverable)
  rw [show (decide (file = file)) = true from decide_eq_true rfl]
  exact Goes.pure recoverable

theorem overwrite_nil : overwrite [] 0 bytes = bytes := by
  simp [overwrite]

/-- Whatever is cut off, the file has its old bytes or its new ones. -/
theorem writeTempRename_goes (before : ∀ reached, Disk.Same [temp] disk reached → crash reached)
    (behind : ∀ reached, Disk.Same [temp, name] disk reached → reached.file name = some bytes →
      crash reached) :
    ∃ after, Goes crash (writeTempRename temp name bytes).run disk (.ok ()) after ∧
      Disk.Same [temp, name] disk after ∧ after.file name = some bytes := by
  rcases @remove_performs disk temp with ⟨answer, empty, unlinked, first, free, _⟩
  have created : Disk.Same [temp] disk (empty.create temp) := first.trans Disk.same_create
  have entry : (empty.create temp).entries temp = some empty.unused := Disk.entries_create
  have blank : (empty.create temp).contents empty.unused = [] := Disk.contents_create
  have stored : ∀ text, Disk.Same [temp] disk ((empty.create temp).store empty.unused text) :=
    fun text => created.trans (Disk.same_store entry)
  have written : ((empty.create temp).store empty.unused bytes).file temp = some bytes :=
    Disk.file_store entry
  have moved : Disk.Same [temp, name] disk
      (((empty.create temp).store empty.unused bytes).rename temp name) :=
    ((stored bytes).weaken (by simp)).trans Disk.same_rename
  have installed : (((empty.create temp).store empty.unused bytes).rename temp name).file name =
      some bytes := Disk.file_rename.trans written
  have named : (((empty.create temp).store empty.unused bytes).rename temp name).entries name =
      some empty.unused := Disk.entries_rename.trans entry
  have torn : ∀ count, crash ((Op.write empty.unused 0 bytes).torn count (empty.create temp)) := by
    intro count
    change crash ((empty.create temp).store empty.unused _)
    exact before _ (stored _)
  have performed : (Op.write empty.unused 0 bytes).perform (empty.create temp) =
      (.ok (), (empty.create temp).store empty.unused bytes) := by
    change (Except.ok (), (empty.create temp).store empty.unused _) = _
    rw [blank, overwrite_nil]
  have present : ((empty.create temp).store empty.unused bytes).entries temp = some empty.unused :=
    entry
  have prepared := before _ (stored bytes)
  have finished := behind _ moved installed
  refine ⟨_, ?_, moved, installed⟩
  apply Goes.andThen (Goes.attempt unlinked (fun _ => before _ (Disk.Same.refl _ _)) (before _ first))
  apply Goes.andThen (Goes.ask (createNew_performs free) (fun _ => before _ first)
    (before _ created))
  apply Goes.andThen (fchmod_goes (before _ created))
  apply Goes.andThen (Goes.ask performed torn prepared)
  apply Goes.andThen (Goes.ask rfl (fun _ => prepared) prepared)
  apply Goes.andThen (Goes.ask (rename_performs present) (fun _ => prepared) finished)
  apply Goes.andThen (syncDir_goes finished)
  apply Goes.andThen (Goes.ask (openFile_performs named) (fun _ => finished) finished)
  apply Goes.andThen (sameFileIdentity_goes finished)
  exact Goes.liftOk rfl finished

/-- A new empty file under a free name. -/
theorem createEmpty_goes (free : disk.entries name = none) (before : crash disk)
    (behind : crash (disk.create name)) :
    Goes crash (createEmpty name).run disk (.ok ()) (disk.create name) := by
  apply Goes.andThen (Goes.ask (createNew_performs free) (fun _ => before) behind)
  apply Goes.andThen (fchmod_goes behind)
  apply Goes.andThen (Goes.ask rfl (fun _ => behind) behind)
  exact syncDir_goes behind

/-- A name is removed unless it is retained. -/
theorem removeUnless_goes {retained : List String}
    (recoverable : ∀ reached, Disk.Same [name] disk reached → crash reached) :
    ∃ changed after, Goes crash (removeUnless retained name).run disk (.ok changed) after ∧
      Disk.Same [name] disk after := by
  have start := recoverable _ (Disk.Same.refl _ _)
  unfold removeUnless
  split
  · exact ⟨_, _, Goes.pure start, Disk.Same.refl _ _⟩
  · rcases @remove_performs disk name with ⟨answer, after, unlinked, same, _, known⟩
    have finished := recoverable _ same
    rcases answer with failure | _
    · cases known failure rfl
      exact ⟨_, _, Goes.andThen (Goes.attempt unlinked (fun _ => start) finished)
        (Goes.pure finished), same⟩
    · exact ⟨_, _, Goes.andThen (Goes.attempt unlinked (fun _ => start) finished)
        (Goes.pure finished), same⟩

/-- A superseded set is removed but for what is retained. -/
theorem removeSet_goes {set : RecoverySet} {retained : Manifest}
    (recoverable : ∀ reached, Disk.Same [set.snapshot, set.segment] disk reached → crash reached) :
    ∃ after, Goes crash (removeSet set retained).run disk (.ok ()) after ∧
      Disk.Same [set.snapshot, set.segment] disk after := by
  have first : ∀ reached, Disk.Same [set.snapshot] disk reached →
      Disk.Same [set.snapshot, set.segment] disk reached :=
    fun _ same => same.weaken (by simp)
  rcases removeUnless_goes fun reached same => recoverable reached (first reached same) with
    ⟨_, middle, removes, same⟩
  have second : ∀ reached, Disk.Same [set.segment] middle reached →
      Disk.Same [set.snapshot, set.segment] disk reached :=
    fun _ later => (first _ same).trans (later.weaken (by simp))
  rcases removeUnless_goes fun reached later => recoverable reached (second reached later) with
    ⟨_, after, further, later⟩
  refine ⟨after, ?_, second after later⟩
  apply Goes.andThen removes
  apply Goes.andThen further
  have finished := recoverable after (second after later)
  split
  · exact syncDir_goes finished
  · exact Goes.pure finished

end Rules

end Llxprt.Log
