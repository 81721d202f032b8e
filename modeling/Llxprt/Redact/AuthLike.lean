import Llxprt.Redact.UrlParts

/-!
# Credentials at a header boundary

The values behind the names of credentials are replaced to the end of their line, and
the tokens behind `bearer`, in one pass over the bytes.  Source code that declares the
type of a field is told from an assignment.
-/

namespace Llxprt.Redact

open Llxprt.Kernel (Bytes utf8)

section Bytes

/-- The byte is one of the characters of the text. -/
def oneOf (chars : String) (byte : UInt8) : Bool :=
  (utf8 chars).contains byte

def isAsciiUppercase (byte : UInt8) : Bool :=
  0x41 ≤ byte && byte ≤ 0x5a

def toAsciiLowercase (byte : UInt8) : UInt8 :=
  if isAsciiUppercase byte then byte + 0x20 else byte

def isIdentifierContinue (byte : UInt8) : Bool :=
  (0x30 ≤ byte && byte ≤ 0x39) || (0x41 ≤ byte && byte ≤ 0x5a) || (0x61 ≤ byte && byte ≤ 0x7a) ||
    byte = 0x5f

def isBlank (byte : UInt8) : Bool :=
  oneOf " \t" byte

/-- `u8::is_ascii_whitespace`. -/
def isAsciiWhitespace (byte : UInt8) : Bool :=
  oneOf " \t\n\x0c\r" byte

/-- `bytes.get(start..start + word.len()) == Some(word)`. -/
def wordAt (bytes : Bytes) (start : Nat) (word : String) : Bool :=
  (utf8 word).isPrefixOf (bytes.drop start)

/-- Nothing that continues an identifier stands before the place. -/
def atEdge (bytes : Bytes) (place : Nat) : Bool :=
  place = 0 || !(bytes[place - 1]?).any isIdentifierContinue

def skipWhile (skips : UInt8 → Bool) (bytes : Bytes) (start : Nat) : Nat :=
  start + ((bytes.drop start).takeWhile skips).length

def trimAscii (bytes : Bytes) : Bytes :=
  bytes.dropWhile isBlank

end Bytes

section Names

inductive CredentialName where
  | authorization
  | xApiKey
  | apiKey
  deriving DecidableEq

def credentialNames : List (String × CredentialName) :=
  [("authorization", .authorization), ("x-api-key", .xApiKey), ("api-key", .xApiKey),
    ("api_key", .apiKey)]

def credentialNameAt (bytes : Bytes) (place : Nat) : Option (CredentialName × Nat) :=
  if atEdge bytes place then
    credentialNames.findSome? fun (spelling, name) =>
      let stop := place + (utf8 spelling).length
      if wordAt bytes place spelling && !(bytes[stop]?).any isIdentifierContinue then
        some (name, stop)
      else
        none
  else
    none

/-- The separator of an assignment, and where its value starts. -/
def credentialSeparator (bytes : Bytes) (nameEnd : Nat) : Option (UInt8 × Nat) :=
  let separator := skipWhile isBlank bytes nameEnd
  match bytes[separator]? with
  | none => none
  | some byte =>
      if oneOf ":" byte then
        some (byte, separator + 1)
      else if oneOf "=" byte && !(bytes[separator + 1]?).any (oneOf "=>") then
        some (byte, separator + 1)
      else
        none

def lineEnd (bytes : Bytes) (start : Nat) : Nat :=
  skipWhile (fun byte => !oneOf "\n\r" byte) bytes start

def rustSourceMarkerAt (bytes : Bytes) (place : Nat) : Bool :=
  ["//", "pub ", "fn ", "impl "].any fun marker => wordAt bytes place marker && atEdge bytes place

def maxRustTypeAnnotationBytes : Nat :=
  256

def knownRustTypeRoots : List String :=
  ["str", "string", "bool", "char", "u8", "u16", "u32", "u64", "u128", "usize", "i8", "i16", "i32",
    "i64", "i128", "isize", "f32", "f64", "option", "vec", "result", "box", "arc", "cow", "hashmap",
    "btreemap", "pathbuf", "duration", "self"]

def isKnownRustTypeRoot (root : Bytes) : Bool :=
  knownRustTypeRoots.any fun known => utf8 known = root

/-- A value and its original spelling without the reference and its lifetime. -/
def withoutReference (value original : Bytes) : Bytes × Bytes :=
  if value.head?.any (oneOf "&") then
    let value := value.drop 1
    let original := original.drop 1
    if value.head?.any (oneOf "'") then
      let lifetime := (value.takeWhile fun byte => !isBlank byte).length
      (trimAscii (value.drop lifetime), trimAscii (original.drop lifetime))
    else
      (value, original)
  else
    (value, original)

def looksLikeRustTypeAnnotation (bytes original : Bytes) (start : Nat) : Bool :=
  let length := (((bytes.drop start).take maxRustTypeAnnotationBytes).takeWhile fun byte =>
    !oneOf ",;)\x7b=\n\r" byte).length
  let (value, original) := withoutReference (trimAscii ((bytes.drop start).take length))
    (trimAscii ((original.drop start).take length))
  let root := value.takeWhile isIdentifierContinue
  (isKnownRustTypeRoot root || (original.take root.length).head?.any isAsciiUppercase) &&
    (value[root.length]?).all (oneOf "<[:,;)\x7b=\n\r")

def looksLikeDocTypePhrase (bytes : Bytes) (start : Nat) : Bool :=
  let value := trimAscii (bytes.drop start)
  let value := if value.head?.any (oneOf "&") then value.drop 1 else value
  let root := value.takeWhile isIdentifierContinue
  isKnownRustTypeRoot root && wordAt value root.length " is "

end Names

section Scans

/-- The source state of a line. -/
structure SourceState where
  rustSource : Bool
  docComment : Bool

def advanceSourceState (bytes : Bytes) (place : Nat) (state : SourceState) : SourceState :=
  if (bytes[place]?).any (oneOf "\n\r") then
    ⟨false, false⟩
  else if wordAt bytes place "///" then
    ⟨true, true⟩
  else if rustSourceMarkerAt bytes place then
    { state with rustSource := true }
  else
    state

def credentialReplacementEnd (bytes original : Bytes) (place : Nat) (state : SourceState) :
    Option Nat :=
  match credentialNameAt bytes place with
  | none => none
  | some (name, nameEnd) =>
      match credentialSeparator bytes nameEnd with
      | none => none
      | some (separator, valueStart) =>
          let rustType := name = .apiKey && oneOf ":" separator && state.rustSource &&
            ( looksLikeRustTypeAnnotation bytes original valueStart ||
              (state.docComment && looksLikeDocTypePhrase bytes valueStart))
          if rustType then none else some (lineEnd bytes valueStart)

def bearerAt (bytes : Bytes) (place : Nat) : Bool :=
  wordAt bytes place "bearer" && atEdge bytes place &&
    (bytes[place + 6]?).any isBlank

def bearerReplacementRange (bytes : Bytes) (place : Nat) : Option (Nat × Nat) :=
  if bearerAt bytes place then
    let start := skipWhile isBlank bytes (place + 6)
    let stop := skipWhile (fun byte => !isAsciiWhitespace byte && !oneOf "," byte) bytes start
    if place + 6 < start ∧ start < stop then some (start, stop) else none
  else
    none

/-- What was written so far, and how much of the text it stands for. -/
structure AuthScanState where
  out : List (Traced UInt8)
  copied : Nat
  source : SourceState

def redactedBytes : List (Traced UInt8) :=
  (utf8 "[redacted]").map (⟨·, none⟩)

def AuthScanState.replace (state : AuthScanState) (text : List (Traced UInt8))
    (start stop : Nat) : AuthScanState :=
  { state with
    out := state.out ++ (text.drop state.copied).take (start - state.copied) ++ redactedBytes
    copied := stop }

/-- One round at a byte: the state and the next place. -/
def authStep (text : List (Traced UInt8)) (place : Nat) (state : AuthScanState) :
    AuthScanState × Nat :=
  let low := (values text).map toAsciiLowercase
  let state := { state with source := advanceSourceState low place state.source }
  match credentialReplacementEnd low (values text) place state.source with
  | some stop => (state.replace text place stop, stop)
  | none =>
      match bearerReplacementRange low place with
      | some (start, stop) => (state.replace text start stop, stop)
      | none => (state, place + 1)

def authLoop (text : List (Traced UInt8)) : Nat → Nat → AuthScanState → AuthScanState
  | 0, _, state => state
  | rounds + 1, place, state =>
      if text.length ≤ place then
        state
      else
        let (state, next) := authStep text place state
        authLoop text rounds next state

/-- Every round moves on. -/
def scrubAuthLike (text : List (Traced UInt8)) : List (Traced UInt8) :=
  let state := authLoop text text.length 0 ⟨[], 0, ⟨false, false⟩⟩
  state.out ++ text.drop state.copied

end Scans

section Sources

variable {text : List (Traced UInt8)}

theorem from_append {α β : Type} {front rest : List (Traced α)} {input : List (Traced β)}
    (first : From front input) (second : From rest input) : From (front ++ rest) input := by
  intro glyph member place source
  rcases List.mem_append.mp member with listed | listed
  · exact first glyph listed place source
  · exact second glyph listed place source

theorem from_subset {α : Type} {part input : List (Traced α)} (within : part ⊆ input) :
    From part input :=
  fun glyph member _ source => ⟨glyph, within member, source⟩

theorem from_redactedBytes : From redactedBytes text := by
  intro glyph member place source
  rcases List.mem_map.mp member with ⟨_, -, rfl⟩
  cases source

theorem from_replace {state : AuthScanState} (known : From state.out text) (start stop : Nat) :
    From (state.replace text start stop).out text :=
  from_append (from_append known (from_subset fun _ member =>
    List.mem_of_mem_drop (List.mem_of_mem_take member))) from_redactedBytes

theorem from_authStep {state : AuthScanState} (known : From state.out text) (place : Nat) :
    From (authStep text place state).1.out text := by
  have advanced (source : SourceState) : From { state with source := source }.out text := known
  unfold authStep
  dsimp only
  split
  · rename_i stop _
    exact from_replace (advanced _) place stop
  · split
    · rename_i start stop _
      exact from_replace (advanced _) start stop
    · exact known

theorem from_authLoop (rounds place : Nat) {state : AuthScanState} (known : From state.out text) :
    From (authLoop text rounds place state).out text := by
  induction rounds generalizing place state with
  | zero => exact known
  | succ rounds ih =>
      rw [authLoop]
      split
      · exact known
      · exact ih _ (from_authStep known place)

/-- The scan of the headers only takes bytes away. -/
theorem from_scrubAuthLike (text : List (Traced UInt8)) : From (scrubAuthLike text) text := by
  apply from_append
  · apply from_authLoop
    exact nofun
  · exact from_subset fun _ member => List.mem_of_mem_drop member

end Sources

end Llxprt.Redact
