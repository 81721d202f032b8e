import Llxprt.Kernel.Canonical

/-!
# Redaction

The detectors of the ingress transaction, their scan under a work budget, and
the replacement of every detected span by bytes of the same length.  A detector
that runs out of budget sends the whole payload to the vault.
-/

namespace Llxprt.Ingress

open Llxprt.Kernel

inductive DetectorClass where
  | corpusMarker
  | credentialToken
  | urlCredential
  | bearerToken
  | assignSecret
  deriving DecidableEq

/-- Positions in a payload, the end excluded. -/
structure Span where
  start : Nat
  stop : Nat
  deriving DecidableEq

structure Detection where
  cls : DetectorClass
  span : Span
  deriving DecidableEq

inductive ScanVerdict where
  | clean
  | detected (detections : List Detection)
  | budgetExhausted
  | failed

structure Detector where
  cls : DetectorClass
  markers : List String
  budget : Nat
  fail : Bool

namespace Detector

def new (cls : DetectorClass) (markers : List String) (budget : Nat) : Detector :=
  ⟨cls, markers, budget, false⟩

def isDelimiter (byte : UInt8) : Bool :=
  byte ∈ utf8 " \n\r\t\"'),;><"

/-- The marker that the remaining bytes begin with. -/
def matchingMarker (detector : Detector) (rest : Bytes) : Option String :=
  detector.markers.find? fun marker => (utf8 marker).isPrefixOf rest

/-- The length of a token that begins with the marker. -/
def tokenLength (marker : String) (rest : Bytes) : Nat :=
  (utf8 marker).length +
    ((rest.drop (utf8 marker).length).takeWhile fun byte => !isDelimiter byte).length

/-- One round of the scan for every unit of the budget. -/
def scanLoop (detector : Detector) : Nat → Bytes → Nat → List Detection → ScanVerdict
  | _, [], _, found => if found = [] then .clean else .detected found
  | 0, _ :: _, _, _ => .budgetExhausted
  | budget + 1, byte :: tail, index, found =>
      match detector.matchingMarker (byte :: tail) with
      | some marker =>
          let length := tokenLength marker (byte :: tail)
          scanLoop detector budget ((byte :: tail).drop length) (index + length)
            (found ++ [⟨detector.cls, ⟨index, index + length⟩⟩])
      | none => scanLoop detector budget tail (index + 1) found

def scan (detector : Detector) (bytes : Bytes) : ScanVerdict :=
  if detector.fail then .failed else scanLoop detector detector.budget bytes 0 []

end Detector

inductive VaultReason where
  | budgetExhausted (cls : DetectorClass)
  | detectorFailed (cls : DetectorClass)
  deriving DecidableEq

def VaultReason.name : VaultReason → String
  | budgetExhausted _ => "detector-budget-exhausted"
  | detectorFailed _ => "detector-failed"

inductive RedactionOutcome where
  | sanitized (bytes : Bytes) (redactions : List Detection)
  | vaulted (reason : VaultReason) (byteLen : Nat)
  deriving DecidableEq

/-- The default detectors, all under one budget. -/
def detectors (workBudget : Nat) : List Detector :=
  [.new .corpusMarker ["CTXEVAL-SECRET-", "CTXEVAL-TOKEN-"] workBudget,
    .new .credentialToken ["sk-ctxeval", "auth-key-"] workBudget,
    .new .urlCredential ["ctxeval-creds@", "://secret:"] workBudget,
    .new .bearerToken ["Bearer CTXEVAL-"] workBudget,
    .new .assignSecret ["password=CTXEVAL-", "api_key=CTXEVAL-"] workBudget]

/-- Replace a span by the same number of `X` bytes. -/
def overwrite (bytes : Bytes) (span : Span) : Bytes :=
  let tail := bytes.drop span.start
  bytes.take span.start ++
    ((tail.take (span.stop - span.start)).map (fun _ => 88) ++ tail.drop (span.stop - span.start))

/-- Every detector scans the raw payload; the first that fails decides. -/
def redactWith (raw : Bytes) : List Detector → Bytes → List Detection → RedactionOutcome
  | [], bytes, redactions => .sanitized bytes redactions
  | detector :: rest, bytes, redactions =>
      match detector.scan raw with
      | .clean => redactWith raw rest bytes redactions
      | .detected detections =>
          redactWith raw rest (detections.foldl (fun bytes found => overwrite bytes found.span) bytes)
            (redactions ++ detections)
      | .budgetExhausted => .vaulted (.budgetExhausted detector.cls) raw.length
      | .failed => .vaulted (.detectorFailed detector.cls) raw.length

def redact (workBudget : Nat) (raw : Bytes) : RedactionOutcome :=
  redactWith raw (detectors workBudget) raw []

/-- What the spine records for a payload in the vault, as long as the payload. -/
def vaultPlaceholder (reason : VaultReason) (byteLen : Nat) : Bytes :=
  let label := utf8 ("[vaulted:" ++ reason.name ++ ":" ++ toString byteLen ++ "bytes]")
  let length := max byteLen 1
  (label ++ List.replicate (length - label.length) 45).take length

section Lengths

theorem length_overwrite (bytes : Bytes) (span : Span) :
    (overwrite bytes span).length = bytes.length := by
  simp only [overwrite, List.length_append, List.length_map, List.length_take, List.length_drop]
  omega

theorem length_foldl_overwrite (detections : List Detection) (bytes : Bytes) :
    (detections.foldl (fun bytes found => overwrite bytes found.span) bytes).length =
      bytes.length := by
  induction detections generalizing bytes with
  | nil => rfl
  | cons found detections ih => rw [List.foldl_cons, ih, length_overwrite]

theorem length_of_redactWith {raw bytes sanitized : Bytes} {listed : List Detector}
    {before redactions : List Detection}
    (outcome : redactWith raw listed bytes before = .sanitized sanitized redactions) :
    sanitized.length = bytes.length := by
  induction listed generalizing bytes before with
  | nil =>
      cases outcome
      rfl
  | cons detector listed ih =>
      unfold redactWith at outcome
      split at outcome
      · exact ih outcome
      · exact (ih outcome).trans (length_foldl_overwrite _ bytes)
      · cases outcome
      · cases outcome

/-- Redaction keeps the length of a payload. -/
theorem length_of_redact {workBudget : Nat} {raw sanitized : Bytes} {redactions : List Detection}
    (outcome : redact workBudget raw = .sanitized sanitized redactions) :
    sanitized.length = raw.length :=
  length_of_redactWith outcome

theorem byteLen_of_redactWith {raw bytes : Bytes} {listed : List Detector}
    {before : List Detection} {reason : VaultReason} {byteLen : Nat}
    (outcome : redactWith raw listed bytes before = .vaulted reason byteLen) :
    byteLen = raw.length := by
  induction listed generalizing bytes before with
  | nil => cases outcome
  | cons detector listed ih =>
      unfold redactWith at outcome
      split at outcome
      · exact ih outcome
      · exact ih outcome
      · cases outcome
        rfl
      · cases outcome
        rfl

theorem length_vaultPlaceholder (reason : VaultReason) (byteLen : Nat) :
    (vaultPlaceholder reason byteLen).length = max byteLen 1 := by
  simp only [vaultPlaceholder, List.length_take, List.length_append, List.length_replicate]
  omega

end Lengths

end Llxprt.Ingress
