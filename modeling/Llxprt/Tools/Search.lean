import Llxprt.Rust.Utf8
import Llxprt.Tools.Arguments
import Llxprt.Tools.Truncation

/-!
# The search through a directory tree

One record of counters is shared by the whole walk.  A cap that is reached
anywhere stops everything that comes later in the walk, and leaves its reason
for the note.  The depth is such a cap: the walk ends at the first directory
that lies too deep.
-/

namespace Llxprt.Tools

open Llxprt.Rust
open Llxprt.Kernel (utf8)

section Caps

def maxSearchResults : Nat :=
  2000

def defaultSearchResults : Nat :=
  200

def maxLineBytes : Nat :=
  64 * 1024

def maxSearchDepth : Nat :=
  32

def maxSearchEntries : Nat :=
  200000

def maxSearchSourceBytes : Nat :=
  64 * 1024 * 1024

def maxSearchResultBytes : Nat :=
  maxSearchResults * maxLineBytes

def maxSearchNoteBytes : Nat :=
  128

def maxSearchDataBytes : Nat :=
  maxSearchResultBytes - maxSearchNoteBytes

end Caps

section Trees

/-- `openat::SimpleType`. -/
inductive SimpleType where
  | symlink
  | dir
  | file
  | other

/-- An opened regular file: the length of its metadata, the bytes a reader gets, and the
failure of the read after them. -/
structure Content where
  len : Nat
  data : List UInt8
  failure : Option String

/-- An entry of a directory: its name as it is shown, what it is, what the listing and what
the metadata say it is, and what opening the shown name yields. -/
structure Entry where
  name : String
  kind : SimpleType
  simpleType : Option SimpleType
  metadata : Option SimpleType
  content : Option Content
  opens : Bool
  lists : Bool

/-- What a directory lists, in the order of the listing, with what lies under its
entries. -/
inductive Listing where
  | done
  | failed (rest : Listing)
  | entry (entry : Entry) (children rest : Listing)

/-- An opened directory. -/
structure Directory where
  lists : Bool
  entries : Listing

end Trees

section Counters

/-- What a truncation note names. -/
inductive Reason where
  | depth
  | entries
  | sourceBytes
  | resultBytes
  | resultCount
  | fileBytes
  deriving DecidableEq

def Reason.text : Reason → String
  | depth => "depth"
  | entries => "entries"
  | sourceBytes => "source_bytes"
  | resultBytes => "result_bytes"
  | resultCount => "result_count"
  | fileBytes => "file_bytes"

structure SearchCounters where
  depth : Nat
  entries : Nat
  sourceBytes : Nat
  resultBytes : Nat
  results : Nat
  reasons : List Reason
  error : Option String

namespace SearchCounters

def new : SearchCounters :=
  ⟨0, 0, 0, 0, 0, [], none⟩

def stopped (counters : SearchCounters) : Bool :=
  counters.error.isSome || maxSearchDepth ≤ counters.depth ||
    maxSearchEntries ≤ counters.entries || maxSearchSourceBytes ≤ counters.sourceBytes ||
    maxSearchDataBytes ≤ counters.resultBytes || Reason.resultCount ∈ counters.reasons

def addReason (counters : SearchCounters) (reason : Reason) : SearchCounters :=
  if reason ∈ counters.reasons then
    counters
  else
    { counters with reasons := counters.reasons ++ [reason] }

def visit (counters : SearchCounters) : SearchCounters :=
  let counters := { counters with entries := saturatingAdd counters.entries 1 }
  if maxSearchEntries ≤ counters.entries then counters.addReason .entries else counters

def addSource (counters : SearchCounters) (n : Nat) : SearchCounters :=
  let counters := { counters with sourceBytes := saturatingAdd counters.sourceBytes n }
  if maxSearchSourceBytes ≤ counters.sourceBytes then
    counters.addReason .sourceBytes
  else
    counters

def addResult (counters : SearchCounters) (n : Nat) : SearchCounters :=
  let counters := { counters with resultBytes := saturatingAdd counters.resultBytes n }
  if maxSearchDataBytes ≤ counters.resultBytes then
    counters.addReason .resultBytes
  else
    counters

end SearchCounters

def truncNote (reasons : List Reason) : List UInt8 :=
  if reasons = [] then
    []
  else
    utf8 " [truncated reasons: " ++
      [0x2c].intercalate (reasons.map fun reason => utf8 reason.text) ++ utf8 "]"

/-- What the walk carries along. -/
structure Search where
  counters : SearchCounters
  results : List (List UInt8)

def Search.note (search : Search) (reason : Reason) : Search :=
  { search with counters := search.counters.addReason reason }

/-- The bounds of a search; the tool clamps both. -/
structure SearchSpec where
  isMatch : List UInt8 → Bool
  maxResults : Nat
  resultDataLimit : Nat
  maxResults_le : maxResults ≤ maxSearchResults
  limit_le : resultDataLimit ≤ maxSearchResultBytes

end Counters

section Walks

def pushSearchResult (search : Search) (result : List UInt8) (limit : Nat) : Bool × Search :=
  let separator := if search.results = [] then 0 else 1
  let remaining := limit - search.counters.resultBytes
  let needed := saturatingAdd separator result.length
  if needed ≤ remaining then
    (true, { counters := search.counters.addResult needed, results := search.results ++ [result] })
  else
    let counters := search.counters.addReason .resultBytes
    let clipped := Utf8.utf8Prefix result (remaining - separator)
    if separator < remaining ∧ clipped ≠ [] then
      (false,
        { counters := counters.addResult (separator + clipped.length)
          results := search.results ++ [clipped] })
    else
      (false, { search with counters })

/-- How a matching line is reported; lines are counted from one. -/
def reportedLine (name : String) (index : Nat) (line : List UInt8) : List UInt8 :=
  utf8 (name ++ ":" ++ toString (index + 1) ++ ": ") ++ truncate line maxLineBytes

variable (spec : SearchSpec)

def searchLines (name : String) : Nat → List (List UInt8) → Search → Bool × Search
  | _, [], search => (search.counters.stopped, search)
  | index, line :: rest, search =>
      if spec.maxResults ≤ search.counters.results then
        (true, search.note .resultCount)
      else if spec.isMatch line then
        match pushSearchResult search (reportedLine name index line) spec.resultDataLimit with
        | (false, search) => (true, search)
        | (true, search) =>
            let search := { search with counters :=
              { search.counters with results := saturatingAdd search.counters.results 1 } }
            if spec.maxResults ≤ search.counters.results then
              (true, search.note .resultCount)
            else
              searchLines name (index + 1) rest search
      else
        searchLines name (index + 1) rest search

def drainBytes (content : Content) (cap : Nat) : Except String (List UInt8) :=
  match content.failure with
  | some error => if content.data.length < cap then .error error else .ok (content.data.take cap)
  | none => .ok (content.data.take cap)

def searchRegularFile (content : Option Content) (relative : String) (search : Search) :
    Bool × Search :=
  if maxSearchSourceBytes ≤ search.counters.sourceBytes then
    (true, search.note .sourceBytes)
  else
    match content with
    | none => (false, search)
    | some content =>
        let search := if maxFileBytes < content.len then search.note .fileBytes else search
        let readCap := min maxFileBytes (maxSearchSourceBytes - search.counters.sourceBytes)
        match drainBytes content readCap with
        | .error error =>
            (true, { search with counters :=
              { search.counters with error := some ("read " ++ relative ++ ": " ++ error) } })
        | .ok data =>
            let search := { search with counters := search.counters.addSource data.length }
            let out := searchLines spec relative 0 (Utf8.lines (Text.fromUtf8Lossy data)) search
            (out.1 || out.2.counters.stopped, out.2)

def searchEntryType (entry : Entry) : Option SimpleType :=
  match entry.simpleType with
  | some kind => some kind
  | none =>
      match entry.metadata with
      | some .dir => some .dir
      | some .file => some .file
      | _ => none

/-- The names the walk passes over. -/
def ignored (name : String) : Bool :=
  name = "target" || name = "node_modules" || name = ".git"

def relativeName (pathPrefix name : String) : String :=
  if pathPrefix = "" then name else pathPrefix ++ "/" ++ name

/-- `search_walk`, given the loop over the entries. -/
def searchWalk (lists : Bool) (entries : Search → Search) (depth : Nat) (search : Search) :
    Search :=
  if search.counters.stopped then
    search
  else
    let search := { search with counters := { search.counters with depth } }
    if maxSearchDepth ≤ depth then
      search.note .depth
    else if lists then
      entries search
    else
      search

/-- `search_entry`, given the loop over what lies under the entry. -/
def searchEntry (entry : Entry) (kind : SimpleType)
    (children : Nat → String → Search → Search) (depth : Nat) (pathPrefix : String)
    (search : Search) : Bool × Search :=
  let relative := relativeName pathPrefix entry.name
  match kind with
  | .symlink => (false, search)
  | .dir =>
      let search :=
        if entry.opens then
          searchWalk entry.lists (children (depth + 1) relative) (depth + 1) search
        else
          search
      (search.counters.stopped, search)
  | .file | .other => searchRegularFile spec entry.content relative search

/-- The loop of `search_walk`. -/
def searchEntries : Listing → Nat → String → Search → Search
  | .done, _, _, search => search
  | .failed rest, depth, pathPrefix, search =>
      if maxSearchEntries ≤ search.counters.entries then
        search.note .entries
      else
        searchEntries rest depth pathPrefix search
  | .entry entry children rest, depth, pathPrefix, search =>
      if maxSearchEntries ≤ search.counters.entries then
        search.note .entries
      else
        let search := { search with counters := search.counters.visit }
        if search.counters.stopped then
          search
        else if ignored entry.name then
          searchEntries rest depth pathPrefix search
        else
          match searchEntryType entry with
          | none => searchEntries rest depth pathPrefix search
          | some kind =>
              let out :=
                searchEntry spec entry kind (searchEntries children) depth pathPrefix search
              if out.1 then out.2 else searchEntries rest depth pathPrefix out.2

end Walks

section Tool

def renderSearchResults (results : List (List UInt8)) (note : List UInt8) (limit : Nat) :
    List UInt8 :=
  let joined := Utf8.joinLines results
  if note = [] then
    Utf8.utf8Prefix joined limit
  else
    let renderedNote := if note.length ≤ limit then note else Utf8.utf8Prefix (utf8 "...") limit
    Utf8.utf8Prefix joined (limit - renderedNote.length) ++ renderedNote

/-- What the search needs from outside: quoting, the regular expressions, and the workspace. -/
structure SearchHost where
  debug : String → String
  compile : String → Except String (List UInt8 → Bool)
  resolveComps : String → Except String (List String)
  openDirectoryPath : String → Except String Directory

variable (host : SearchHost)

def searchPrefix (rel : Option String) : Except String String :=
  match rel with
  | none => .ok ""
  | some relative =>
      if relative = "" ∨ relative = "." then
        .ok ""
      else do
        pure ("/".intercalate (← host.resolveComps relative))

def bounded (value : Option Nat) (standard ceiling : Nat) : Nat :=
  match value with
  | some value => min value ceiling
  | none => standard

theorem bounded_le {value : Option Nat} {standard ceiling : Nat} (usual : standard ≤ ceiling) :
    bounded value standard ceiling ≤ ceiling := by
  unfold bounded
  split
  · exact Nat.min_le_right _ _
  · exact usual

/-- What the arguments ask for, with the number of results within its ceiling. -/
structure SearchRequest where
  pattern : String
  max : Nat
  max_le : max ≤ maxSearchResults

/-- The first arguments of `search_file_content_tool`. -/
def searchRequest (args : Arguments) : Except String SearchRequest := do
  rejectUnknown args ["pattern", "max_results", "path", "max_output_bytes"]
  let pattern ← requiredStr args "pattern"
  let asked ← argU64 args "max_results"
  pure
    { pattern
      max := bounded asked defaultSearchResults maxSearchResults
      max_le := bounded_le (by decide) }

/-- Where a search begins, and with what. -/
structure SearchStart where
  isMatch : List UInt8 → Bool
  directory : Directory
  pathPrefix : String

/-- The pattern is compiled before the path is read. -/
def searchStart (args : Arguments) (pattern : String) : Except String SearchStart := do
  let isMatch ← (host.compile pattern).mapError fun error =>
    "invalid pattern " ++ host.debug pattern ++ ": " ++ error
  let rel ← argStr args "path" false
  let directory ← host.openDirectoryPath (rel.getD ".")
  let pathPrefix ← searchPrefix host rel
  pure { isMatch, directory, pathPrefix }

def SearchStart.spec (start : SearchStart) (request : SearchRequest) (maxOutputBytes : Nat) :
    SearchSpec where
  isMatch := start.isMatch
  maxResults := request.max
  resultDataLimit := min maxSearchResultBytes maxOutputBytes
  maxResults_le := request.max_le
  limit_le := Nat.min_le_left _ _

/-- The walk of a call from its first directory. -/
def SearchStart.walk (start : SearchStart) (spec : SearchSpec) : Search :=
  searchWalk start.directory.lists
    (searchEntries spec start.directory.entries 0 start.pathPrefix) 0 ⟨.new, []⟩

/-- The text of a finished walk. -/
def searchOutput (search : Search) (resultLimit : Nat) : List UInt8 :=
  let note := truncNote search.counters.reasons
  let finalOut :=
    if search.results = [] then
      utf8 "no matches" ++ note
    else
      renderSearchResults search.results (truncate note (min maxSearchNoteBytes resultLimit))
        resultLimit
  truncate finalOut resultLimit

def searchFileContentTool (args : Arguments) (maxOutputBytes : Nat) :
    Except String (List UInt8) := do
  let request ← searchRequest args
  if request.max = 0 then
    pure (utf8 "no matches")
  else
    let start ← searchStart host args request.pattern
    let spec := start.spec request maxOutputBytes
    let search := start.walk spec
    match search.counters.error with
    | some error => .error error
    | none => pure (searchOutput search spec.resultDataLimit)

end Tool

end Llxprt.Tools
