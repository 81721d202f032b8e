import Llxprt.Tools.Search
import Mathlib.Algebra.Order.BigOperators.Group.List
import Mathlib.Data.List.Induction
import Mathlib.Data.List.Nodup
import Mathlib.Data.List.Perm.Subperm

/-!
# What a search reports

A walk that stays within its caps reports every matching line the tree has in
reach, up to the first directory that lies too deep.  A walk that misses a line
leaves a reason, so its text ends in a note.
-/

namespace Llxprt.Tools

open Llxprt.Rust
open Llxprt.Kernel (utf8)

section Trees

/-- The entry is what the listing says, and opening its shown name yields it. -/
structure Entry.Readable (entry : Entry) : Prop where
  listed : entry.simpleType = some entry.kind ∨
    entry.simpleType = none ∧ entry.metadata = some entry.kind
  file : entry.kind = .file → ∃ content, entry.content = some content ∧
    content.failure = none ∧ content.len = content.data.length
  dir : entry.kind = .dir → entry.opens = true ∧ entry.lists = true
  other : entry.kind = .other → entry.content = none

def Listing.Readable : Listing → Prop
  | .done => True
  | .failed _ => False
  | .entry found children rest => found.Readable ∧ children.Readable ∧ rest.Readable

/-- What an entry is to the walk; it passes over some names. -/
def Entry.seen (entry : Entry) : Option SimpleType :=
  if ignored entry.name then none else some entry.kind

def Entry.data (entry : Entry) : List UInt8 :=
  (entry.content.map Content.data).getD []

variable (isMatch : List UInt8 → Bool)

/-- The reports of the matching lines. -/
def matchingLines (name : String) : Nat → List (List UInt8) → List (List UInt8)
  | _, [] => []
  | index, line :: rest =>
      if isMatch line then
        reportedLine name index line :: matchingLines name (index + 1) rest
      else
        matchingLines name (index + 1) rest

def fileLines (relative : String) (data : List UInt8) : List (List UInt8) :=
  matchingLines isMatch relative 0 (Utf8.lines (Text.fromUtf8Lossy data))

/-- What a part of the tree holds within the reach of the walk. -/
@[ext]
structure Part where
  lines : List (List UInt8)
  entries : Nat
  sourceBytes : Nat
  oversized : Bool

instance : Zero Part where
  zero := ⟨[], 0, 0, false⟩

instance : Add Part where
  add left right :=
    ⟨left.lines ++ right.lines, left.entries + right.entries,
      left.sourceBytes + right.sourceBytes, left.oversized || right.oversized⟩

def Part.entry : Part :=
  ⟨[], 1, 0, false⟩

def Part.file (relative : String) (data : List UInt8) : Part :=
  ⟨fileLines isMatch relative data, 0, data.length, maxFileBytes < data.length⟩

/-- What an entry adds to the part in reach: nothing under a name the walk passes over, behind a
symbolic link, or in a directory that lies too deep. -/
def Entry.part (found : Entry) (relative : String) (depth : Nat) (children : Part) : Part :=
  match found.seen with
  | some .file => Part.file isMatch relative found.data
  | some .dir => if maxSearchDepth ≤ depth + 1 then 0 else children
  | _ => 0

/-- The part of the tree in reach. -/
def Listing.reach : Listing → Nat → String → Part
  | .done, _, _ => 0
  | .failed rest, depth, pathPrefix => rest.reach depth pathPrefix
  | .entry found children rest, depth, pathPrefix =>
      let relative := relativeName pathPrefix found.name
      Part.entry + found.part isMatch relative depth (children.reach (depth + 1) relative) +
        rest.reach depth pathPrefix

/-- The lines of one part and then of the next, unless the walk ends in the first. -/
def thenReported (first next : List (List UInt8) × Bool) : List (List UInt8) × Bool :=
  if first.2 then first else (first.1 ++ next.1, next.2)

def Entry.reported (found : Entry) (relative : String) (depth : Nat)
    (children : List (List UInt8) × Bool) : List (List UInt8) × Bool :=
  match found.seen with
  | some .file => (fileLines isMatch relative found.data, false)
  | some .dir => if maxSearchDepth ≤ depth + 1 then ([], true) else children
  | _ => ([], false)

/-- The matching lines up to the first directory that lies too deep, and whether there is
one. -/
def Listing.walked : Listing → Nat → String → List (List UInt8) × Bool
  | .done, _, _ => ([], false)
  | .failed rest, depth, pathPrefix => rest.walked depth pathPrefix
  | .entry found children rest, depth, pathPrefix =>
      let relative := relativeName pathPrefix found.name
      thenReported (found.reported isMatch relative depth (children.walked (depth + 1) relative))
        (rest.walked depth pathPrefix)

end Trees

section Parts

@[simp]
theorem Part.zero_def : (0 : Part) = ⟨[], 0, 0, false⟩ :=
  rfl

@[simp]
theorem Part.add_def (left right : Part) : left + right =
    ⟨left.lines ++ right.lines, left.entries + right.entries,
      left.sourceBytes + right.sourceBytes, left.oversized || right.oversized⟩ :=
  rfl

theorem Part.add_assoc (first second third : Part) :
    first + second + third = first + (second + third) := by
  simp [Nat.add_assoc, Bool.or_assoc]

theorem Part.lines_cons (line : List UInt8) (lines : List (List UInt8)) :
    (⟨line :: lines, 0, 0, false⟩ : Part) = ⟨[line], 0, 0, false⟩ + ⟨lines, 0, 0, false⟩ :=
  rfl

theorem Part.zero_add (part : Part) : 0 + part = part := by
  simp

/-- The part is below every cap. -/
structure Fits (spec : SearchSpec) (part : Part) : Prop where
  entries : part.entries < maxSearchEntries
  sourceBytes : part.sourceBytes < maxSearchSourceBytes
  files : part.oversized = false
  results : part.lines.length < spec.maxResults
  dataBytes : (Utf8.joinLines part.lines).length < maxSearchDataBytes
  limit : (Utf8.joinLines part.lines).length ≤ spec.resultDataLimit

theorem length_joinLines_snoc (lines : List (List UInt8)) (last : List UInt8) :
    (Utf8.joinLines (lines ++ [last])).length =
      (Utf8.joinLines lines).length + (if lines = [] then 0 else 1) + last.length :=
  Utf8.length_intercalate_snoc

theorem length_joinLines_le (lines more : List (List UInt8)) :
    (Utf8.joinLines lines).length ≤ (Utf8.joinLines (lines ++ more)).length := by
  induction more using List.reverseRecOn with
  | nil => rw [List.append_nil]
  | append_singleton more last ih =>
      rw [← List.append_assoc]
      have longer := length_joinLines_snoc (lines ++ more) last
      omega

theorem Fits.of_add {spec : SearchSpec} {left right : Part} (fits : Fits spec (left + right)) :
    Fits spec left := by
  have joined := length_joinLines_le left.lines right.lines
  rcases fits with ⟨entries, sourceBytes, files, results, dataBytes, limit⟩
  simp only [Part.add_def, List.length_append, Bool.or_eq_false_iff] at *
  exact ⟨by omega, by omega, files.1, by omega, by omega, by omega⟩

end Parts

section Counters

/-- No reason stands twice, and nothing failed. -/
structure SearchCounters.Tidy (counters : SearchCounters) : Prop where
  nodup : counters.reasons.Nodup
  error : counters.error = none

/-- Some reason is left for the note. -/
structure SearchCounters.Noted (counters : SearchCounters) : Prop extends
    counters.Tidy where
  reasons : counters.reasons ≠ []

namespace SearchCounters

variable {counters : SearchCounters} {reason : Reason}

theorem Tidy.addReason (tidy : counters.Tidy) (reason : Reason) :
    (counters.addReason reason).Noted := by
  unfold SearchCounters.addReason
  split
  · rename_i present
    exact ⟨tidy, List.ne_nil_of_mem present⟩
  · rename_i absent
    constructor
    · constructor
      · rw [List.nodup_append]
        constructor
        · exact tidy.nodup
        · constructor
          · exact List.nodup_singleton _
          · rintro left member right last same
            rw [List.mem_singleton.mp last] at same
            exact absurd (same ▸ member) absent
      · exact tidy.error
    · simp

theorem Tidy.congr (next : SearchCounters) (tidy : counters.Tidy)
    (reasons : next.reasons = counters.reasons) (error : next.error = counters.error) :
    next.Tidy := by
  rcases tidy with ⟨nodup, clean⟩
  rw [← reasons] at nodup
  rw [← error] at clean
  exact ⟨nodup, clean⟩

theorem Noted.congr (next : SearchCounters) (noted : counters.Noted)
    (reasons : next.reasons = counters.reasons) (error : next.error = counters.error) :
    next.Noted := by
  have nonempty := noted.reasons
  rw [← reasons] at nonempty
  exact ⟨noted.toTidy.congr next reasons error, nonempty⟩

theorem Noted.addReason (noted : counters.Noted) (reason : Reason) :
    (counters.addReason reason).Noted :=
  noted.toTidy.addReason reason

theorem Noted.visit (noted : counters.Noted) : counters.visit.Noted := by
  have counted := noted.congr { counters with entries := saturatingAdd counters.entries 1 }
    rfl rfl
  unfold SearchCounters.visit
  dsimp only
  split
  · exact counted.addReason _
  · exact counted

theorem Noted.addSource (noted : counters.Noted) (n : Nat) : (counters.addSource n).Noted := by
  have counted := noted.congr
    { counters with sourceBytes := saturatingAdd counters.sourceBytes n } rfl rfl
  unfold SearchCounters.addSource
  dsimp only
  split
  · exact counted.addReason _
  · exact counted

theorem Noted.addResult (noted : counters.Noted) (n : Nat) : (counters.addResult n).Noted := by
  have counted := noted.congr
    { counters with resultBytes := saturatingAdd counters.resultBytes n } rfl rfl
  unfold SearchCounters.addResult
  dsimp only
  split
  · exact counted.addReason _
  · exact counted

end SearchCounters

end Counters

section Lines

/-- The part of the tree that stands in the reports so far. -/
def Search.taken (search : Search) : Part :=
  ⟨search.results, search.counters.entries, search.counters.sourceBytes, false⟩

variable {spec : SearchSpec} {search after : Search}

/-- Nothing was missed so far, and no cap is reached. -/
structure Running (spec : SearchSpec) (search : Search) : Prop where
  reasons : search.counters.reasons = []
  error : search.counters.error = none
  depth : search.counters.depth < maxSearchDepth
  resultBytes : search.counters.resultBytes = (Utf8.joinLines search.results).length
  results : search.counters.results = search.results.length
  fits : Fits spec search.taken

theorem Running.tidy (running : Running spec search) : search.counters.Tidy := by
  constructor
  · rw [running.reasons]
    exact List.nodup_nil
  · exact running.error

theorem Running.not_stopped (running : Running spec search) :
    search.counters.stopped = false := by
  have entries := running.fits.entries
  have source := running.fits.sourceBytes
  have data := running.fits.dataBytes
  rw [Search.taken] at entries source data
  rw [← running.resultBytes] at data
  simp [SearchCounters.stopped, running.error, running.reasons, running.depth, entries, source,
    data]

/-- A part of the walk that knows nothing of depth. -/
inductive Passed (spec : SearchSpec) (search : Search) (part : Part) (out : Bool × Search) :
    Prop where
  | complete (goesOn : out.1 = false) (running : Running spec out.2)
      (taken : out.2.taken = search.taken + part)
  | cut (noted : out.2.counters.Noted) (exceeds : ¬ Fits spec (search.taken + part))

theorem Passed.step {next : Search} {first rest : Part} {out : Bool × Search}
    (taken : next.taken = search.taken + first) (passed : Passed spec next rest out) :
    Passed spec search (first + rest) out := by
  rcases passed with ⟨goesOn, running, reached⟩ | ⟨noted, exceeds⟩
  · apply Passed.complete goesOn running
    rw [reached, taken, Part.add_assoc]
  · apply Passed.cut noted
    rwa [taken, Part.add_assoc] at exceeds

/-- A report is pushed whole below both byte caps; otherwise a reason is left. -/
theorem pushSearchResult_cases (running : Running spec search) (result : List UInt8) :
    let size := (Utf8.joinLines (search.results ++ [result])).length
    (size < maxSearchDataBytes ∧ size ≤ spec.resultDataLimit ∧
      pushSearchResult search result spec.resultDataLimit =
        (true, ⟨{ search.counters with resultBytes := size }, search.results ++ [result]⟩)) ∨
    (¬ (size < maxSearchDataBytes ∧ size ≤ spec.resultDataLimit) ∧
      (pushSearchResult search result spec.resultDataLimit).2.counters.Noted) := by
  intro size
  have grown : size = search.counters.resultBytes + (if search.results = [] then 0 else 1) +
      result.length := by
    rw [running.resultBytes]
    exact length_joinLines_snoc _ _
  have within : search.counters.resultBytes ≤ spec.resultDataLimit := by
    rw [running.resultBytes]
    exact running.fits.limit
  have wide : spec.resultDataLimit < u64Max :=
    Nat.lt_of_le_of_lt spec.limit_le (by decide)
  unfold pushSearchResult
  dsimp only
  generalize (if search.results = [] then 0 else 1) = separator at grown ⊢
  split
  · rename_i room
    have unsaturated : saturatingAdd separator result.length = separator + result.length := by
      rw [saturatingAdd] at room ⊢
      omega
    rw [unsaturated] at room ⊢
    have total : saturatingAdd search.counters.resultBytes (separator + result.length) = size := by
      rw [saturatingAdd]
      omega
    by_cases data : size < maxSearchDataBytes
    · left
      rw [SearchCounters.addResult]
      dsimp only
      rw [total, if_neg (by omega)]
      exact ⟨data, by omega, rfl⟩
    · right
      rw [SearchCounters.addResult]
      dsimp only
      rw [total, if_pos (by omega)]
      constructor
      · rintro ⟨below, -⟩
        exact data below
      · exact (running.tidy.congr { search.counters with resultBytes := size } rfl rfl).addReason _
  · rename_i full
    right
    have noted := running.tidy.addReason .resultBytes
    constructor
    · rintro ⟨-, fits⟩
      rw [saturatingAdd] at full
      omega
    · split
      · exact noted.addResult _
      · exact noted

theorem Noted.pushSearchResult (noted : search.counters.Noted) (result : List UInt8)
    (limit : Nat) : (pushSearchResult search result limit).2.counters.Noted := by
  unfold Tools.pushSearchResult
  dsimp only
  generalize (if search.results = [] then 0 else 1) = separator
  split
  · exact noted.addResult _
  · split
    · exact (noted.addReason _).addResult _
    · exact noted.addReason _

theorem Noted.searchLines {name : String} {lines : List (List UInt8)} {index : Nat}
    (noted : search.counters.Noted) :
    (searchLines spec name index lines search).2.counters.Noted := by
  induction lines generalizing index search with
  | nil => exact noted
  | cons line lines ih =>
      rw [Tools.searchLines]
      split
      · exact noted.addReason _
      · split
        · have pushed := Noted.pushSearchResult noted (reportedLine name index line)
            spec.resultDataLimit
          split
          · rename_i after same
            rw [same] at pushed
            exact pushed
          · rename_i after same
            rw [same] at pushed
            have counted := pushed.congr { after.counters with
              results := saturatingAdd after.counters.results 1 } rfl rfl
            dsimp only
            split
            · exact counted.addReason _
            · exact ih counted
        · exact ih noted

/-- Lines that fit leave room for the first of them. -/
theorem Fits.first {result : List UInt8} {more : List (List UInt8)}
    (fits : Fits spec (search.taken + ⟨result :: more, 0, 0, false⟩)) :
    (Utf8.joinLines (search.results ++ [result])).length < maxSearchDataBytes ∧
      (Utf8.joinLines (search.results ++ [result])).length ≤ spec.resultDataLimit ∧
      search.results.length + 1 < spec.maxResults := by
  have lines : (search.taken + ⟨result :: more, 0, 0, false⟩ : Part).lines =
      search.results ++ [result] ++ more := by
    simp [Search.taken]
  have joined := length_joinLines_le (search.results ++ [result]) more
  have data := fits.dataBytes
  have limit := fits.limit
  have results := fits.results
  rw [lines] at data limit results
  simp only [List.length_append, List.length_singleton] at results
  exact ⟨by omega, by omega, by omega⟩

/-- The lines of a file are reported while they fit. -/
theorem searchLines_passed (name : String) (index : Nat) (lines : List (List UInt8))
    (running : Running spec search) :
    Passed spec search ⟨matchingLines spec.isMatch name index lines, 0, 0, false⟩
      (searchLines spec name index lines search) := by
  induction lines generalizing index search with
  | nil =>
      apply Passed.complete
      · exact running.not_stopped
      · exact running
      · simp [searchLines, matchingLines, Search.taken]
  | cons line lines ih =>
      have below : ¬ spec.maxResults ≤ search.counters.results := by
        rw [running.results]
        exact Nat.not_le_of_lt running.fits.results
      rw [searchLines, if_neg below, matchingLines]
      by_cases found : spec.isMatch line = true
      · rw [if_pos found, if_pos found]
        rcases pushSearchResult_cases running (reportedLine name index line) with
          ⟨data, limit, pushed⟩ | ⟨big, noted⟩
        · rw [pushed]
          dsimp only
          have counted : saturatingAdd search.counters.results 1 = search.results.length + 1 := by
            have small := running.fits.results
            have ceiling := spec.maxResults_le
            rw [running.results]
            apply saturatingAdd_of_le
            change search.results.length < spec.maxResults at small
            simp only [maxSearchResults] at ceiling
            simp only [u64Max]
            omega
          rw [counted]
          split
          · rename_i last
            apply Passed.cut
            · exact (running.tidy.congr { search.counters with
                resultBytes := (Utf8.joinLines (search.results ++
                  [reportedLine name index line])).length
                results := search.results.length + 1 } rfl rfl).addReason _
            · intro fits
              exact absurd fits.first.2.2 (Nat.not_lt_of_le last)
          · rename_i more
            have reported : Running spec ⟨{ search.counters with
                resultBytes := (Utf8.joinLines (search.results ++
                  [reportedLine name index line])).length
                results := search.results.length + 1 },
                search.results ++ [reportedLine name index line]⟩ := by
              constructor
              · exact running.reasons
              · exact running.error
              · exact running.depth
              · rfl
              · simp
              · constructor
                · exact running.fits.entries
                · exact running.fits.sourceBytes
                · rfl
                · simp only [Search.taken, List.length_append, List.length_singleton]
                  exact Nat.lt_of_not_le more
                · exact data
                · exact limit
            rw [Part.lines_cons]
            exact Passed.step rfl (ih (index + 1) reported)
        · apply Passed.cut
          · split
            · rename_i after same
              rw [same] at noted
              exact noted
            · rename_i after same
              rw [same] at noted
              have counted := noted.congr { after.counters with
                results := saturatingAdd after.counters.results 1 } rfl rfl
              dsimp only
              split
              · exact counted.addReason _
              · exact Noted.searchLines counted
          · intro fits
            exact big ⟨fits.first.1, fits.first.2.1⟩
      · rw [if_neg found, if_neg found]
        exact ih (index + 1) running

end Lines

section Files

variable {spec : SearchSpec} {search : Search} {content : Content} {relative : String}

theorem SearchCounters.addSource_eq (counters : SearchCounters) {n : Nat}
    (below : counters.sourceBytes + n < maxSearchSourceBytes) :
    counters.addSource n = { counters with sourceBytes := counters.sourceBytes + n } := by
  have wide : maxSearchSourceBytes ≤ u64Max := by decide
  rw [SearchCounters.addSource]
  dsimp only
  rw [saturatingAdd_of_le (by omega), if_neg (by omega)]

theorem Running.addSource (running : Running spec search) {n : Nat}
    (below : search.counters.sourceBytes + n < maxSearchSourceBytes) :
    Running spec { search with counters := search.counters.addSource n } := by
  rw [search.counters.addSource_eq below]
  constructor
  · exact running.reasons
  · exact running.error
  · exact running.depth
  · exact running.resultBytes
  · exact running.results
  · rcases running.fits with ⟨entries, -, files, results, data, limit⟩
    exact ⟨entries, below, files, results, data, limit⟩

theorem drainBytes_eq_ok (readable : content.failure = none) (cap : Nat) :
    drainBytes content cap = .ok (content.data.take cap) := by
  rw [drainBytes, readable]

theorem Noted.searchRegularFile {content : Option Content} (noted : search.counters.Noted)
    (readable : ∀ opened, content = some opened → opened.failure = none) :
    (searchRegularFile spec content relative search).2.counters.Noted := by
  unfold Tools.searchRegularFile
  split
  · exact noted.addReason _
  · cases content with
    | none => exact noted
    | some content =>
        have after : (if maxFileBytes < content.len then search.note .fileBytes
            else search).counters.Noted := by
          split
          · exact noted.addReason _
          · exact noted
        dsimp only
        rw [drainBytes_eq_ok (readable content rfl)]
        exact Noted.searchLines (after.addSource _)

/-- A file is reported whole, or its missing rest is noted. -/
theorem searchRegularFile_passed (running : Running spec search)
    (readable : content.failure = none) (length : content.len = content.data.length) :
    Passed spec search (Part.file spec.isMatch relative content.data)
      (searchRegularFile spec (some content) relative search) := by
  have room : search.counters.sourceBytes < maxSearchSourceBytes := running.fits.sourceBytes
  rw [searchRegularFile, if_neg (Nat.not_le_of_lt room)]
  dsimp only
  rw [drainBytes_eq_ok readable, length]
  dsimp only
  by_cases oversized : maxFileBytes < content.data.length
  · rw [if_pos oversized]
    apply Passed.cut
    · exact Noted.searchLines ((running.tidy.addReason _).addSource _)
    · intro fits
      have files := fits.files
      simp [Part.file, oversized] at files
  · rw [if_neg oversized]
    by_cases source : search.counters.sourceBytes + content.data.length < maxSearchSourceBytes
    · have whole : content.data.take (min maxFileBytes
          (maxSearchSourceBytes - search.counters.sourceBytes)) = content.data := by
        apply List.take_of_length_le
        omega
      rw [whole]
      have read := running.addSource source
      have taken : Search.taken { search with
          counters := search.counters.addSource content.data.length } =
          search.taken + ⟨[], 0, content.data.length, false⟩ := by
        rw [Search.taken, search.counters.addSource_eq (by omega)]
        simp [Search.taken]
      have passed := Passed.step taken (searchLines_passed relative 0
        (Utf8.lines (Text.fromUtf8Lossy content.data)) read)
      have parts : Part.file spec.isMatch relative content.data =
          ⟨[], 0, content.data.length, false⟩ + ⟨matchingLines spec.isMatch relative 0
            (Utf8.lines (Text.fromUtf8Lossy content.data)), 0, 0, false⟩ := by
        simp [Part.file, fileLines, oversized]
      rw [parts]
      rcases passed with ⟨goesOn, running, reached⟩ | ⟨noted, exceeds⟩
      · have goes := Bool.or_eq_false_iff.mpr ⟨goesOn, running.not_stopped⟩
        exact Passed.complete goes running reached
      · exact Passed.cut noted exceeds
    · have full : (content.data.take (min maxFileBytes
          (maxSearchSourceBytes - search.counters.sourceBytes))).length =
          maxSearchSourceBytes - search.counters.sourceBytes := by
        rw [List.length_take]
        omega
      apply Passed.cut
      · apply Noted.searchLines
        rw [full, SearchCounters.addSource]
        dsimp only
        have wide : maxSearchSourceBytes ≤ u64Max := by decide
        rw [saturatingAdd_of_le (by omega), if_pos (by omega)]
        exact (running.tidy.congr { search.counters with sourceBytes :=
          search.counters.sourceBytes + (maxSearchSourceBytes - search.counters.sourceBytes) }
          rfl rfl).addReason _
      · intro fits
        exact source fits.sourceBytes

end Files

section Walks

variable {spec : SearchSpec} {search : Search}

theorem searchEntryType_eq {entry : Entry} (readable : entry.Readable) :
    searchEntryType entry = some entry.kind ∨
      searchEntryType entry = none ∧ (entry.kind = .symlink ∨ entry.kind = .other) := by
  unfold searchEntryType
  rcases readable.listed with listed | ⟨listed, found⟩
  · rw [listed]
    exact Or.inl rfl
  · rw [listed, found]
    cases entry.kind <;> simp

theorem Entry.Readable.content {entry : Entry} (readable : entry.Readable)
    (regular : entry.kind = .file ∨ entry.kind = .other) {opened : Content}
    (found : entry.content = some opened) : opened.failure = none := by
  rcases regular with file | other
  · rcases readable.file file with ⟨content, same, clean, -⟩
    rw [found] at same
    rw [Option.some.inj same]
    exact clean
  · rw [readable.other other] at found
    cases found

theorem Noted.searchWalk {lists : Bool} {entries : Search → Search} {depth : Nat}
    (noted : search.counters.Noted)
    (stays : ∀ search : Search, search.counters.Noted → (entries search).counters.Noted) :
    (searchWalk lists entries depth search).counters.Noted := by
  have entered := noted.congr { search.counters with depth } rfl rfl
  unfold Tools.searchWalk
  split
  · exact noted
  · dsimp only
    split
    · exact entered.addReason _
    · split
      · exact stays _ entered
      · exact entered

theorem Noted.searchEntry {entry : Entry} {kind : SimpleType}
    {children : Nat → String → Search → Search} {depth : Nat} {pathPrefix : String}
    (noted : search.counters.Noted) (readable : entry.Readable)
    (known : searchEntryType entry = some kind)
    (stays : ∀ depth pathPrefix (search : Search), search.counters.Noted →
      (children depth pathPrefix search).counters.Noted) :
    (searchEntry spec entry kind children depth pathPrefix search).2.counters.Noted := by
  have same : entry.kind = kind := by
    rcases searchEntryType_eq readable with listed | ⟨listed, -⟩
    · exact Option.some.inj (listed.symm.trans known)
    · rw [listed] at known
      cases known
  cases kind with
  | symlink => exact noted
  | dir =>
      rw [Tools.searchEntry]
      dsimp only
      split
      · exact Noted.searchWalk noted (stays _ _)
      · exact noted
  | file =>
      exact Noted.searchRegularFile noted fun opened found => readable.content (.inl same) found
  | other =>
      exact Noted.searchRegularFile noted fun opened found => readable.content (.inr same) found

theorem Noted.searchEntries {listing : Listing} {depth : Nat} {pathPrefix : String}
    (noted : search.counters.Noted) (readable : listing.Readable) :
    (searchEntries spec listing depth pathPrefix search).counters.Noted := by
  induction listing generalizing depth pathPrefix search with
  | done => exact noted
  | failed rest => exact readable.elim
  | entry entry children rest underneath following =>
      rcases readable with ⟨readable, inner, later⟩
      rw [Tools.searchEntries]
      split
      · exact noted.addReason _
      · dsimp only
        have visited := noted.visit
        split
        · exact visited
        · split
          · exact following visited later
          · split
            · exact following visited later
            · rename_i kind known
              have stays : ∀ depth pathPrefix (search : Search), search.counters.Noted →
                  (Tools.searchEntries spec children depth pathPrefix search).counters.Noted :=
                fun _ _ _ noted => underneath noted inner
              have through : (Tools.searchEntry spec entry kind (Tools.searchEntries spec children) depth
                  pathPrefix { search with counters := search.counters.visit }).2.counters.Noted :=
                Noted.searchEntry visited readable known stays
              split
              · exact through
              · exact following through later

/-- How the walk leaves a part: with all of it reported, at a directory that lies too deep, or
with a reason for the lines it misses. -/
inductive Walked (spec : SearchSpec) (search : Search) (part : Part)
    (reported : List (List UInt8) × Bool) (out : Bool × Search) : Prop where
  | complete (whole : reported = (part.lines, false)) (goesOn : out.1 = false)
      (running : Running spec out.2) (taken : out.2.taken = search.taken + part)
  | deep (deep : reported.2 = true) (ends : out.1 = true)
      (results : out.2.results = search.results ++ reported.1)
      (reasons : out.2.counters.reasons = [.depth]) (error : out.2.counters.error = none)
      (stopped : out.2.counters.stopped = true)
  | cut (noted : out.2.counters.Noted) (exceeds : ¬ Fits spec (search.taken + part))

theorem Passed.walked {part : Part} {out : Bool × Search} (passed : Passed spec search part out) :
    Walked spec search part (part.lines, false) out := by
  rcases passed with ⟨goesOn, running, taken⟩ | ⟨noted, exceeds⟩
  · exact Walked.complete rfl goesOn running taken
  · exact Walked.cut noted exceeds

theorem Search.results_of_taken {middle : Search} {part : Part}
    (taken : middle.taken = search.taken + part) :
    middle.results = search.results ++ part.lines :=
  congrArg Part.lines taken

/-- The rest is walked unless the first part ends the walk. -/
theorem Walked.andThen {first rest : Part} {reported next : List (List UInt8) × Bool}
    {out : Bool × Search} {after final : Search} (walked : Walked spec search first reported out)
    (goes : final = if out.1 then out.2 else after)
    (follows : Running spec out.2 →
      Walked spec out.2 rest next (after.counters.stopped, after))
    (stays : out.2.counters.Noted → after.counters.Noted) :
    Walked spec search (first + rest) (thenReported reported next)
      (final.counters.stopped, final) := by
  rcases walked with ⟨whole, goesOn, running, taken⟩ |
    ⟨deep, ends, results, reasons, error, stopped⟩ | ⟨noted, exceeds⟩
  · rw [goesOn] at goes
    have joined : thenReported reported next = (first.lines ++ next.1, next.2) := by
      rw [whole]
      rfl
    rw [joined, show final = after from goes]
    have earlier := Search.results_of_taken taken
    rcases follows running with ⟨whole, goesOn, running, further⟩ |
      ⟨deep, ends, results, reasons, error, stopped⟩ | ⟨noted, exceeds⟩
    · apply Walked.complete
      · rw [whole]
        rfl
      · exact goesOn
      · exact running
      · rw [← Part.add_assoc, ← taken]
        exact further
    · apply Walked.deep
      · exact deep
      · exact ends
      · rw [← List.append_assoc, ← earlier]
        exact results
      · exact reasons
      · exact error
      · exact stopped
    · apply Walked.cut
      · exact noted
      · rwa [← Part.add_assoc, ← taken]
  · rw [ends] at goes
    rw [goes, thenReported, if_pos deep]
    apply Walked.deep
    · exact deep
    · exact stopped
    · exact results
    · exact reasons
    · exact error
    · exact stopped
  · apply Walked.cut
    · rw [goes]
      split
      · exact noted
      · exact stays noted
    · intro fits
      rw [← Part.add_assoc] at fits
      exact exceeds fits.of_add

/-- A step that reports nothing comes before what is walked. -/
theorem Walked.step {middle : Search} {first rest : Part} {reported : List (List UInt8) × Bool}
    {out : Bool × Search} (taken : middle.taken = search.taken + first) (silent : first.lines = [])
    (walked : Walked spec middle rest reported out) :
    Walked spec search (first + rest) reported out := by
  have same : middle.results = search.results := by
    rw [Search.results_of_taken taken, silent, List.append_nil]
  have lines : (first + rest).lines = rest.lines := by
    rw [Part.add_def, silent, List.nil_append]
  rcases walked with ⟨whole, goesOn, running, further⟩ |
    ⟨deep, ends, results, reasons, error, stopped⟩ | ⟨noted, exceeds⟩
  · apply Walked.complete
    · rw [lines]
      exact whole
    · exact goesOn
    · exact running
    · rw [further, taken, Part.add_assoc]
  · apply Walked.deep deep ends _ reasons error stopped
    rw [results, same]
  · apply Walked.cut noted
    rwa [taken, Part.add_assoc] at exceeds

theorem Running.visit (running : Running spec search)
    (below : search.counters.entries + 1 < maxSearchEntries) :
    Running spec { search with counters := search.counters.visit } ∧
      Search.taken { search with counters := search.counters.visit } =
        search.taken + Part.entry := by
  have counted : search.counters.visit =
      { search.counters with entries := search.counters.entries + 1 } := by
    have wide : maxSearchEntries ≤ u64Max := by decide
    rw [SearchCounters.visit]
    dsimp only
    rw [saturatingAdd_of_le (by omega), if_neg (by omega)]
  rw [counted]
  constructor
  · constructor
    · exact running.reasons
    · exact running.error
    · exact running.depth
    · exact running.resultBytes
    · exact running.results
    · rcases running.fits with ⟨-, source, files, results, data, limit⟩
      exact ⟨below, source, files, results, data, limit⟩
  · simp [Search.taken, Part.entry]

/-- The last entry below the cap is not looked at. -/
theorem Running.visit_last (running : Running spec search)
    (last : ¬ search.counters.entries + 1 < maxSearchEntries) :
    search.counters.visit.Noted ∧ search.counters.visit.stopped = true := by
  have below : search.counters.entries < maxSearchEntries := running.fits.entries
  have counted : search.counters.visit =
      { search.counters with entries := search.counters.entries + 1 }.addReason .entries := by
    have wide : maxSearchEntries ≤ u64Max := by decide
    rw [SearchCounters.visit]
    dsimp only
    rw [saturatingAdd_of_le (by omega), if_pos (by omega)]
  rw [counted]
  constructor
  · exact (running.tidy.congr { search.counters with entries := search.counters.entries + 1 }
      rfl rfl).addReason _
  · have reached : maxSearchEntries ≤ search.counters.entries + 1 := Nat.le_of_not_lt last
    simp [SearchCounters.stopped, SearchCounters.addReason, running.reasons, reached]

/-- A directory in reach is walked, and one that lies too deep ends the walk. -/
theorem searchWalk_walked {entries : Search → Search} {part : Part} (depth : Nat)
    {reported : List (List UInt8) × Bool} (running : Running spec search)
    (inside : ∀ search : Search, Running spec search →
      Walked spec search part reported ((entries search).counters.stopped, entries search)) :
    Walked spec search (if maxSearchDepth ≤ depth then 0 else part)
      (if maxSearchDepth ≤ depth then ([], true) else reported)
      ((searchWalk true entries depth search).counters.stopped,
        searchWalk true entries depth search) := by
  unfold searchWalk
  rw [running.not_stopped]
  by_cases deep : maxSearchDepth ≤ depth
  · simp only [Bool.false_eq_true, if_false, if_pos deep]
    have reasons : ({ search.counters with depth }.addReason .depth).reasons = [.depth] := by
      simp [SearchCounters.addReason, running.reasons]
    have stopped : ({ search.counters with depth }.addReason .depth).stopped = true := by
      simp [SearchCounters.stopped, SearchCounters.addReason, running.reasons, deep]
    have error : ({ search.counters with depth }.addReason .depth).error = none := by
      simp [SearchCounters.addReason, running.reasons, running.error]
    apply Walked.deep
    · rfl
    · exact stopped
    · exact (List.append_nil _).symm
    · exact reasons
    · exact error
    · exact stopped
  · simp only [Bool.false_eq_true, if_false, if_neg deep, if_true]
    have entered : Running spec { search with counters := { search.counters with depth } } := by
      rcases running with ⟨reasons, error, -, resultBytes, results, fits⟩
      exact ⟨reasons, error, Nat.lt_of_not_le deep, resultBytes, results, fits⟩
    rw [← Part.zero_add part]
    apply Walked.step _ rfl (inside _ entered)
    simp [Search.taken]

theorem Entry.part_eq_zero {isMatch : List UInt8 → Bool} {entry : Entry} {relative : String}
    {depth : Nat} {children : Part}
    (nothing : entry.seen ≠ some .file ∧ entry.seen ≠ some .dir) :
    entry.part isMatch relative depth children = 0 := by
  unfold Entry.part
  split
  · rename_i file
    exact absurd file nothing.1
  · rename_i dir
    exact absurd dir nothing.2
  · rfl

theorem Entry.reported_eq_nil {isMatch : List UInt8 → Bool} {entry : Entry} {relative : String}
    {depth : Nat} {children : List (List UInt8) × Bool}
    (nothing : entry.seen ≠ some .file ∧ entry.seen ≠ some .dir) :
    entry.reported isMatch relative depth children = ([], false) := by
  unfold Entry.reported
  split
  · rename_i file
    exact absurd file nothing.1
  · rename_i dir
    exact absurd dir nothing.2
  · rfl

theorem searchEntry_walked {entry : Entry} {kind : SimpleType}
    {children : Nat → String → Search → Search} {part : Part}
    {reported : List (List UInt8) × Bool} {depth : Nat} {pathPrefix : String}
    (running : Running spec search) (readable : entry.Readable)
    (visible : ignored entry.name = false) (known : searchEntryType entry = some kind)
    (inside : ∀ search : Search, Running spec search →
      Walked spec search part reported
        ((children (depth + 1) (relativeName pathPrefix entry.name) search).counters.stopped,
          children (depth + 1) (relativeName pathPrefix entry.name) search)) :
    Walked spec search (entry.part spec.isMatch (relativeName pathPrefix entry.name) depth part)
      (entry.reported spec.isMatch (relativeName pathPrefix entry.name) depth reported)
      (searchEntry spec entry kind children depth pathPrefix search) := by
  have same : entry.kind = kind := by
    rcases searchEntryType_eq readable with listed | ⟨listed, -⟩
    · exact Option.some.inj (listed.symm.trans known)
    · rw [listed] at known
      cases known
  have seen : entry.seen = some kind := by
    rw [Entry.seen, visible, same]
    rfl
  rw [Entry.part, Entry.reported, seen]
  have nothing : Walked spec search 0 ([], false) (false, search) := by
    apply Walked.complete rfl rfl running
    simp [Search.taken]
  cases kind with
  | symlink => exact nothing
  | dir =>
      rcases readable.dir same with ⟨opens, lists⟩
      simp only [searchEntry, opens, lists, if_true]
      exact searchWalk_walked _ running inside
  | file =>
      rcases readable.file same with ⟨content, found, clean, length⟩
      have data : entry.data = content.data := by
        rw [Entry.data, found]
        rfl
      rw [data]
      simp only [searchEntry, found]
      exact (searchRegularFile_passed running clean length).walked
  | other =>
      have room : search.counters.sourceBytes < maxSearchSourceBytes := running.fits.sourceBytes
      simp only [searchEntry, searchRegularFile, readable.other same,
        if_neg (Nat.not_le_of_lt room)]
      exact nothing

/-- The walk through a listing. -/
theorem searchEntries_walked {listing : Listing} {depth : Nat} {pathPrefix : String}
    (running : Running spec search) (readable : listing.Readable) :
    Walked spec search (listing.reach spec.isMatch depth pathPrefix)
      (listing.walked spec.isMatch depth pathPrefix)
      ((searchEntries spec listing depth pathPrefix search).counters.stopped,
        searchEntries spec listing depth pathPrefix search) := by
  induction listing generalizing depth pathPrefix search with
  | done =>
      apply Walked.complete rfl running.not_stopped running
      simp [Search.taken, searchEntries, Listing.reach]
  | failed rest => exact readable.elim
  | entry entry children rest underneath following =>
      rcases readable with ⟨readable, inner, later⟩
      have below : ¬ maxSearchEntries ≤ search.counters.entries :=
        Nat.not_le_of_lt running.fits.entries
      rw [searchEntries, if_neg below, Listing.reach, Listing.walked, Part.add_assoc]
      dsimp only
      by_cases more : search.counters.entries + 1 < maxSearchEntries
      · rcases running.visit more with ⟨visited, taken⟩
        apply Walked.step taken rfl
        rw [visited.not_stopped]
        simp only [Bool.false_eq_true, if_false]
        -- An entry that holds nothing leaves the rest of the listing to be walked.
        have skipped (nothing : entry.seen ≠ some .file ∧ entry.seen ≠ some .dir) :
            Walked spec { search with counters := search.counters.visit }
              (entry.part spec.isMatch (relativeName pathPrefix entry.name) depth
                  (children.reach spec.isMatch (depth + 1) (relativeName pathPrefix entry.name)) +
                rest.reach spec.isMatch depth pathPrefix)
              (thenReported
                (entry.reported spec.isMatch (relativeName pathPrefix entry.name) depth
                  (children.walked spec.isMatch (depth + 1) (relativeName pathPrefix entry.name)))
                (rest.walked spec.isMatch depth pathPrefix))
              ((searchEntries spec rest depth pathPrefix
                  { search with counters := search.counters.visit }).counters.stopped,
                searchEntries spec rest depth pathPrefix
                  { search with counters := search.counters.visit }) := by
          rw [Entry.part_eq_zero nothing, Entry.reported_eq_nil nothing, Part.zero_add]
          exact following visited later
        by_cases visible : ignored entry.name = true
        · rw [if_pos visible]
          apply skipped
          simp [Entry.seen, visible]
        · rw [if_neg visible]
          rw [Bool.not_eq_true] at visible
          cases known : searchEntryType entry with
          | none =>
              apply skipped
              rcases searchEntryType_eq readable with listed | ⟨-, kind | kind⟩
              · rw [listed] at known
                cases known
              · simp [Entry.seen, visible, kind]
              · simp [Entry.seen, visible, kind]
          | some kind =>
              dsimp only
              apply Walked.andThen (searchEntry_walked visited readable visible known
                fun _ running => underneath running inner) rfl
              · exact fun running => following running later
              · exact fun noted => Noted.searchEntries noted later
      · rcases running.visit_last more with ⟨noted, stopped⟩
        rw [if_pos stopped]
        apply Walked.cut noted
        intro fits
        have entries := fits.entries
        simp only [Part.add_def, Search.taken, Part.entry] at entries
        omega

end Walks

section Output

/-- How many bytes a note may take. -/
def maxNoteLength : Nat :=
  85

theorem length_intercalate_comma (texts : List (List UInt8)) (nonempty : texts ≠ []) :
    ([0x2c].intercalate texts : List UInt8).length + 1 =
      (texts.map fun text => text.length + 1).sum := by
  induction texts with
  | nil => exact absurd rfl nonempty
  | cons text texts ih =>
      cases texts with
      | nil => simp [List.intercalate]
      | cons next texts =>
          have rest := ih (List.cons_ne_nil _ _)
          simp [List.intercalate] at rest ⊢
          omega

/-- Every reason stands in a note at most once. -/
theorem length_truncNote {reasons : List Reason} (nodup : reasons.Nodup) :
    (truncNote reasons).length ≤ maxNoteLength := by
  let all : List Reason :=
    [.depth, .entries, .sourceBytes, .resultBytes, .resultCount, .fileBytes]
  let size (reason : Reason) : Nat := (utf8 reason.text).length + 1
  have within : reasons ⊆ all := by
    rintro reason -
    cases reason <;> decide
  rcases nodup.subperm within with ⟨same, perm, sub⟩
  have total : (reasons.map size).sum ≤ (all.map size).sum := by
    rw [← (perm.map size).sum_eq]
    exact (sub.map size).sum_le_sum fun _ _ => Nat.zero_le _
  have known : (all.map size).sum = 64 := by decide +kernel
  unfold truncNote
  split
  · exact Nat.zero_le _
  · rename_i nonempty
    have joined := length_intercalate_comma (reasons.map fun reason => utf8 reason.text)
      (by simpa using nonempty)
    have opening : (utf8 " [truncated reasons: ").length = 21 := by decide +kernel
    have closing : (utf8 "]").length = 1 := by decide +kernel
    simp only [List.map_map] at joined
    simp only [List.length_append, opening, closing, maxNoteLength]
    have counted : (reasons.map size).sum = (reasons.map ((fun text : List UInt8 =>
        text.length + 1) ∘ fun reason => utf8 reason.text)).sum := rfl
    omega

theorem length_report {text note : List UInt8} {limit : Nat}
    (fits : text.length + note.length ≤ limit) : truncate (text ++ note) limit = text ++ note := by
  apply truncate_eq_self
  rwa [List.length_append]

/-- What the tool prints for some lines and a note. -/
def report (lines : List (List UInt8)) (note : List UInt8) : List UInt8 :=
  if lines = [] then utf8 "no matches" ++ note else Utf8.joinLines lines ++ note

/-- A text with room for everything is printed in full. -/
theorem searchOutput_eq_report {search : Search} {limit : Nat}
    (nodup : search.counters.reasons.Nodup)
    (room : 10 + maxNoteLength ≤ limit)
    (fits : (Utf8.joinLines search.results).length +
      (truncNote search.counters.reasons).length ≤ limit) :
    searchOutput search limit = report search.results (truncNote search.counters.reasons) := by
  have short := length_truncNote nodup
  have small : (truncNote search.counters.reasons).length ≤ min maxSearchNoteBytes limit := by
    simp only [maxNoteLength, maxSearchNoteBytes] at *
    omega
  unfold searchOutput report
  dsimp only
  split
  · apply length_report
    have words : (utf8 "no matches").length = 10 := by decide +kernel
    omega
  · rw [truncate_eq_self small, renderSearchResults]
    dsimp only
    split
    · rename_i none
      rw [none, List.append_nil, Utf8.utf8Prefix_eq_self (by omega)]
      exact truncate_eq_self (by omega)
    · rw [if_pos (by omega), Utf8.utf8Prefix_eq_self (by omega)]
      exact length_report (by omega)

/-- A text that leaves out lines ends in the note. -/
theorem note_suffix_searchOutput {search : Search} {limit : Nat}
    (noted : search.counters.Noted) (room : 10 + maxNoteLength ≤ limit) :
    truncNote search.counters.reasons <:+ searchOutput search limit := by
  have short := length_truncNote noted.nodup
  have small : (truncNote search.counters.reasons).length ≤ min maxSearchNoteBytes limit := by
    simp only [maxNoteLength, maxSearchNoteBytes] at *
    omega
  unfold searchOutput
  dsimp only
  split
  · have words : (utf8 "no matches").length = 10 := by decide +kernel
    rw [length_report (by omega)]
    exact List.suffix_append _ _
  · rw [truncate_eq_self small, renderSearchResults]
    dsimp only
    have nonempty : truncNote search.counters.reasons ≠ [] := by
      have bracket : utf8 "]" ≠ [] := by decide +kernel
      rw [truncNote, if_neg noted.reasons]
      exact List.append_ne_nil_of_right_ne_nil _ bracket
    rw [if_neg nonempty, if_pos (by omega), length_report]
    · exact List.suffix_append _ _
    · have cut := Utf8.length_utf8Prefix_le (Utf8.joinLines search.results)
        (limit - (truncNote search.counters.reasons).length)
      omega

end Output

section Completeness

/-- The walk reports the lines in reach in their order, all of them when no directory lies too
deep. -/
theorem Listing.walked_reach (isMatch : List UInt8 → Bool) (listing : Listing) (depth : Nat)
    (pathPrefix : String) :
    (listing.walked isMatch depth pathPrefix).1 <+: (listing.reach isMatch depth pathPrefix).lines ∧
      ((listing.walked isMatch depth pathPrefix).2 = false →
        (listing.walked isMatch depth pathPrefix).1 =
          (listing.reach isMatch depth pathPrefix).lines) := by
  induction listing generalizing depth pathPrefix with
  | done => exact ⟨List.nil_prefix, fun _ => rfl⟩
  | failed rest ih => exact ih depth pathPrefix
  | entry entry children rest underneath following =>
      rw [Listing.walked, Listing.reach]
      have inner := underneath (depth + 1) (relativeName pathPrefix entry.name)
      have later := following depth pathPrefix
      generalize children.walked isMatch (depth + 1) (relativeName pathPrefix entry.name) = below
        at inner ⊢
      generalize children.reach isMatch (depth + 1) (relativeName pathPrefix entry.name) = held
        at inner ⊢
      generalize rest.walked isMatch depth pathPrefix = next at later ⊢
      generalize rest.reach isMatch depth pathPrefix = beyond at later ⊢
      have here : (entry.reported isMatch (relativeName pathPrefix entry.name) depth below).1 <+:
          (entry.part isMatch (relativeName pathPrefix entry.name) depth held).lines ∧
          ((entry.reported isMatch (relativeName pathPrefix entry.name) depth below).2 = false →
            (entry.reported isMatch (relativeName pathPrefix entry.name) depth below).1 =
              (entry.part isMatch (relativeName pathPrefix entry.name) depth held).lines) := by
        unfold Entry.reported Entry.part
        split
        · exact ⟨List.prefix_rfl, fun _ => rfl⟩
        · split
          · simp
          · exact inner
        · exact ⟨List.prefix_rfl, fun _ => rfl⟩
      generalize entry.reported isMatch (relativeName pathPrefix entry.name) depth below = first
        at here ⊢
      generalize entry.part isMatch (relativeName pathPrefix entry.name) depth held = whole
        at here ⊢
      have lines : (Part.entry + whole + beyond).lines = whole.lines ++ beyond.lines := by
        simp [Part.entry]
      rw [lines, thenReported]
      split
      · rename_i ended
        constructor
        · exact here.1.trans (List.prefix_append _ _)
        · intro goesOn
          rw [ended] at goesOn
          cases goesOn
      · rename_i goesOn
        rw [here.2 (Bool.not_eq_true _ ▸ goesOn)]
        constructor
        · exact (List.prefix_append_right_inj _).mpr later.1
        · intro ended
          rw [later.2 ended]

/-- Every entry of the directory can be looked at. -/
structure Directory.Readable (directory : Directory) : Prop where
  lists : directory.lists = true
  entries : directory.entries.Readable

/-- No truncation note stands at the end of the text. -/
def Unnoted (output : List UInt8) : Prop :=
  ∀ reasons : List Reason, reasons ≠ [] → ¬ truncNote reasons <:+ output

variable {host : SearchHost} {args : Arguments} {maxOutputBytes : Nat} {request : SearchRequest}
  {start : SearchStart}

theorem running_new {spec : SearchSpec} (positive : spec.maxResults ≠ 0) :
    Running spec ⟨.new, []⟩ := by
  constructor
  · rfl
  · rfl
  · decide
  · rfl
  · rfl
  · constructor
    · decide
    · decide
    · rfl
    · exact Nat.pos_of_ne_zero positive
    · decide
    · exact Nat.zero_le _

theorem walk_walked {spec : SearchSpec} (positive : spec.maxResults ≠ 0)
    (same : spec.isMatch = start.isMatch) (readable : start.directory.Readable) :
    Walked spec ⟨.new, []⟩ (start.directory.entries.reach start.isMatch 0 start.pathPrefix)
      (start.directory.entries.walked start.isMatch 0 start.pathPrefix)
      ((start.walk spec).counters.stopped, start.walk spec) := by
  have running := running_new positive
  rw [SearchStart.walk, readable.lists]
  rw [← same]
  exact searchWalk_walked 0 running fun _ running => searchEntries_walked running readable.entries

/-- A search that begins gives the text of its walk. -/
theorem searchFileContentTool_accepted {host : SearchHost} {args : Arguments}
    {request : SearchRequest} {start : SearchStart} (maxOutputBytes : Nat)
    (accepted : searchRequest args = .ok request) (positive : request.max ≠ 0)
    (begun : searchStart host args request.pattern = .ok start) :
    searchFileContentTool host args maxOutputBytes =
      match (start.walk (start.spec request maxOutputBytes)).counters.error with
      | some error => .error error
      | none => .ok (searchOutput (start.walk (start.spec request maxOutputBytes))
          (start.spec request maxOutputBytes).resultDataLimit) := by
  rw [searchFileContentTool, accepted]
  simp only [bind, Except.bind, if_neg positive, begun]
  rfl

/-- Within the caps a search reports the matching lines up to the first directory that lies too
deep, and a text without a note reports all of them. -/
theorem searchFileContentTool_reports (host : SearchHost) (args : Arguments)
    (maxOutputBytes : Nat) (request : SearchRequest) (start : SearchStart)
    (accepted : searchRequest args = .ok request) (positive : request.max ≠ 0)
    (begun : searchStart host args request.pattern = .ok start)
    (readable : start.directory.Readable) :
    let spec := start.spec request maxOutputBytes
    let reach := start.directory.entries.reach start.isMatch 0 start.pathPrefix
    let walked := start.directory.entries.walked start.isMatch 0 start.pathPrefix
    (Fits spec reach →
      (Utf8.joinLines reach.lines).length + maxSearchNoteBytes ≤ spec.resultDataLimit →
      searchFileContentTool host args maxOutputBytes =
        .ok (report walked.1 (if walked.2 then truncNote [.depth] else []))) ∧
    walked.1 <+: reach.lines ∧ (walked.2 = false → walked.1 = reach.lines) ∧
    (10 + maxNoteLength ≤ maxOutputBytes → ∀ output,
      searchFileContentTool host args maxOutputBytes = .ok output → Unnoted output →
      output = report reach.lines []) := by
  intro spec reach walked
  have called := searchFileContentTool_accepted maxOutputBytes accepted positive begun
  have same : start.spec request maxOutputBytes = spec := rfl
  rw [same] at called
  have outcome : Walked spec ⟨.new, []⟩ reach walked
      ((start.walk spec).counters.stopped, start.walk spec) :=
    walk_walked positive rfl readable
  have order := start.directory.entries.walked_reach start.isMatch 0 start.pathPrefix
  have fresh : Search.taken ⟨.new, []⟩ + reach = reach := Part.zero_add reach
  rw [called]
  constructor
  · intro fits room
    have tight := room
    simp only [maxSearchNoteBytes] at tight
    rcases outcome with ⟨whole, -, running, taken⟩ | ⟨deep, -, results, reasons, error, -⟩ |
      ⟨-, exceeds⟩
    · have results : (start.walk spec).results = walked.1 := by
        rw [Search.results_of_taken taken, whole]
        rfl
      rw [running.error, whole, if_neg Bool.false_ne_true]
      dsimp only
      rw [searchOutput_eq_report running.tidy.nodup (by simp only [maxNoteLength]; omega),
        running.reasons, results, whole]
      · rfl
      · rw [running.reasons, results, whole]
        simp only [truncNote, if_true, List.length_nil]
        omega
    · have nodup : (start.walk spec).counters.reasons.Nodup := by
        rw [reasons]
        exact List.nodup_singleton _
      have short := length_truncNote nodup
      have joined : (Utf8.joinLines walked.1).length ≤ (Utf8.joinLines reach.lines).length := by
        rcases order.1 with ⟨more, split⟩
        change walked.1 ++ more = reach.lines at split
        rw [← split]
        exact length_joinLines_le walked.1 more
      simp only [maxNoteLength] at short
      rw [error, if_pos deep]
      dsimp only
      rw [searchOutput_eq_report nodup (by simp only [maxNoteLength]; omega), reasons, results]
      · rfl
      · rw [results, List.nil_append]
        omega
    · rw [fresh] at exceeds
      exact absurd fits exceeds
  · constructor
    · exact order.1
    · constructor
      · exact order.2
      · intro wide output printed unnoted
        have room : 10 + maxNoteLength ≤ spec.resultDataLimit := by
          apply Nat.le_min_of_le_of_le _ wide
          decide
        have refused (noted : (start.walk spec).counters.Noted) : False := by
          rw [noted.error] at printed
          apply unnoted (start.walk spec).counters.reasons noted.reasons
          rw [← Except.ok.inj printed]
          exact note_suffix_searchOutput noted room
        rcases outcome with ⟨whole, -, running, taken⟩ | ⟨-, -, -, reasons, error, -⟩ |
          ⟨noted, -⟩
        · have results : (start.walk spec).results = reach.lines :=
            Search.results_of_taken taken
          rw [running.error] at printed
          have limit := running.fits.limit
          rw [← Except.ok.inj printed, searchOutput_eq_report running.tidy.nodup room,
            running.reasons, results]
          · rfl
          · rw [running.reasons]
            exact limit
        · have nodup : (start.walk spec).counters.reasons.Nodup := by
            rw [reasons]
            exact List.nodup_singleton _
          have some : (start.walk spec).counters.reasons ≠ [] := by
            rw [reasons]
            exact List.cons_ne_nil _ _
          exact (refused ⟨⟨nodup, error⟩, some⟩).elim
        · exact (refused noted).elim

/-- A directory named `d` that holds only such a directory, and so on. -/
def chain : Nat → Listing → Listing
  | 0, _ => .done
  | depth + 1, rest => .entry ⟨"d", .dir, some .dir, none, none, true, true⟩ (chain depth .done) rest

theorem readable_chain {rest : Listing} (readable : rest.Readable) (depth : Nat) :
    (chain depth rest).Readable := by
  induction depth generalizing rest with
  | zero => exact trivial
  | succ depth ih =>
      constructor
      · exact ⟨Or.inl rfl, nofun, fun _ => ⟨rfl, rfl⟩, nofun⟩
      · exact ⟨ih trivial, readable⟩

/-- A file named `f` of one line. -/
def oneLine : Listing :=
  .entry ⟨"f", .file, some .file, none, some ⟨1, [0x78], none⟩, false, false⟩ .done .done

theorem readable_oneLine : oneLine.Readable := by
  constructor
  · exact ⟨Or.inl rfl, fun _ => ⟨_, rfl, rfl, rfl⟩, nofun, nofun⟩
  · exact ⟨trivial, trivial⟩

/-- A workspace whose patterns match every line. -/
def anyLine (listing : Listing) : SearchHost where
  debug := id
  compile _ := .ok fun _ => true
  resolveComps path := .ok [path]
  openDirectoryPath _ := .ok ⟨true, listing⟩

def anyRequest : SearchRequest :=
  ⟨"x", 200, by decide⟩

def anyStart (listing : Listing) : SearchStart :=
  ⟨fun _ => true, ⟨true, listing⟩, ""⟩

theorem searchFileContentTool_reports_oneLine :
    (anyStart oneLine).directory.Readable ∧
      searchFileContentTool (anyLine oneLine) [("pattern", .string "x")] 1000 =
        .ok (utf8 "f:1: x") := by
  have reports := searchFileContentTool_reports (anyLine oneLine) [("pattern", .string "x")] 1000
    anyRequest (anyStart oneLine) (by rfl) (by decide) (by rfl) ⟨rfl, readable_oneLine⟩
  constructor
  · exact ⟨rfl, readable_oneLine⟩
  · rw [reports.1]
    · decide +kernel
    · constructor <;> decide +kernel
    · decide +kernel

/-- A chain of directories that lies too deep hides a line of the first directory. -/
theorem chain_hides_oneLine :
    (anyStart (chain 32 oneLine)).directory.Readable ∧
      Fits ((anyStart (chain 32 oneLine)).spec anyRequest 1000)
        ((chain 32 oneLine).reach (fun _ => true) 0 "") ∧
      ((chain 32 oneLine).reach (fun _ => true) 0 "").lines = [utf8 "f:1: x"] ∧
      searchFileContentTool (anyLine (chain 32 oneLine)) [("pattern", .string "x")] 1000 =
        .ok (utf8 "no matches [truncated reasons: depth]") := by
  constructor
  · exact ⟨rfl, readable_chain readable_oneLine 32⟩
  · constructor
    · constructor <;> decide +kernel
    · decide +kernel

end Completeness

end Llxprt.Tools
