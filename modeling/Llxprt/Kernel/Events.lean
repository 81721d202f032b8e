import Llxprt.Kernel.Ir
import Llxprt.Kernel.Wire

/-!
# Append-only event log

A log is a list of recorded events whose sequence numbers are consecutive from
its resume point and whose checksums chain from there.  The private fields of
the log make this an invariant of the type, so the structure carries it.
-/

namespace Llxprt.Kernel

open Llxprt.Rust

def eventSchemaVersion : UInt64 := 3

def firstSequence : Nat := 1

def genesisChecksum : Digest := 0

/-- Store version of the pre-migration store. -/
def v2 : UInt64 := 2

/-- Store version of the migrated store. -/
def v3 : UInt64 := 3

/-- Source of a sanitized append. -/
inductive AppendSource where
  | user
  | assistant
  | toolResult (callId tool : String)
  deriving DecidableEq

namespace AppendSource

def encode : AppendSource → Bytes
  | user => Sink.tag "user"
  | assistant => Sink.tag "assistant"
  | toolResult callId tool =>
      Sink.tag "tool-result" ++ Sink.blob (utf8 callId) ++ Sink.blob (utf8 tool)

def isToolResult : AppendSource → Bool
  | toolResult .. => true
  | user | assistant => false

end AppendSource

/-- Structural lane fallback of an append without recorded classes. -/
def structuralLane : AppendSource → Lane
  | .user => .constitutional
  | .assistant => .decisional
  | .toolResult .. => .evidential

/-- Classes of operation commits the reducer understands. -/
inductive OperationClass where
  | scopeOpen
  | scopeCloseByEvent
  | scopeCloseByDeclaration
  | resegment
  | place
  | unplace
  | pin
  | unpin
  | lanePolicyUpdate
  | migrationSelect
  | admitIngress
  | sanitize
  | redact
  | importBytes
  | ruleUpdate
  | vocabularyUpdate
  | indexRebuild
  | storeMode
  | quiesceUnwritable
  deriving DecidableEq

def OperationClass.name : OperationClass → String
  | scopeOpen => "scope-open"
  | scopeCloseByEvent => "scope-close-by-event"
  | scopeCloseByDeclaration => "scope-close-by-declaration"
  | resegment => "resegment"
  | place => "place"
  | unplace => "unplace"
  | pin => "pin"
  | unpin => "unpin"
  | lanePolicyUpdate => "lane-policy-update"
  | migrationSelect => "migration-select"
  | admitIngress => "admit-ingress"
  | sanitize => "sanitize"
  | redact => "redact"
  | importBytes => "import"
  | ruleUpdate => "rule-update"
  | vocabularyUpdate => "vocabulary-update"
  | indexRebuild => "index-rebuild"
  | storeMode => "store-mode"
  | quiesceUnwritable => "quiesce-unwritable"

inductive ProviderTurnKind where
  | conversation
  | management
  deriving DecidableEq

def ProviderTurnKind.code : ProviderTurnKind → UInt64
  | conversation => 1
  | management => 2

/-- One event in the total order. -/
inductive EventKind where
  | append (source : AppendSource) (sanitized : Bytes) (scope : ScopeId)
      (claims : List SegmentClaim)
  | semantic (event : SemanticEvent)
  | branch (event : BranchEvent)
  | security (event : SecurityEvent)
  | ledger (command : Command)
  | operationCommit (operationClass : OperationClass) (subject argument : UInt64)
  | providerTurn (kind : ProviderTurnKind) (requestUnits : UInt64)
  deriving DecidableEq

/-- Canonical bytes of one claim. -/
def SegmentClaim.encode (claim : SegmentClaim) : Bytes :=
  Sink.int claim.span.offset ++ Sink.int claim.span.length ++
    match claim.structural with
    | some structural => structural.encode
    | none => Sink.tag "unclassified"

def EventKind.encode [Wire] : EventKind → Bytes
  | append source sanitized scope claims =>
      Sink.tag "append" ++ source.encode ++ Sink.blob sanitized ++ Sink.int scope ++
        Sink.count claims.length ++ claims.flatMap SegmentClaim.encode
  | semantic event => Sink.tag "semantic" ++ Sink.blob (Wire.semanticEvent event)
  | branch event => Sink.tag "branch" ++ Sink.blob (Wire.branchEvent event)
  | security event => Sink.tag "security" ++ Sink.blob (Wire.securityEvent event)
  | ledger command => Sink.tag "ledger" ++ Sink.blob (Wire.ledgerCommand command)
  | operationCommit operationClass subject argument =>
      Sink.tag "operation" ++ Sink.tag operationClass.name ++ Sink.int subject ++
        Sink.int argument
  | providerTurn kind requestUnits =>
      Sink.tag "provider-turn" ++ Sink.int kind.code ++ Sink.int requestUnits

/-- One recorded event with its checksum and recorded wall-clock attribute. -/
structure RecordedEvent where
  sequence : Nat
  epoch : Nat
  recordedUnixMs : Nat
  schemaVersion : UInt64
  storeVersion : UInt64
  kind : EventKind
  bodyDigest : Digest
  checksum : Digest

namespace RecordedEvent

/-- Identity on which replays are deduplicated. -/
def identity (event : RecordedEvent) : Nat × Digest :=
  (event.sequence, event.bodyDigest)

variable [Wire]

/-- Canonical body bytes: everything except the chain checksum. -/
def encodeBody (event : RecordedEvent) : Bytes :=
  Sink.count event.sequence ++ Sink.byteOrderMark ++ Sink.count event.epoch ++
    Sink.count event.recordedUnixMs ++ Sink.int event.schemaVersion ++
    Sink.int event.storeVersion ++ event.kind.encode

/-- Builds a fully checked event for the `previous` chain value. -/
def sealed (sequence epoch recordedUnixMs : Nat) (storeVersion : UInt64) (kind : EventKind)
    (previous : Digest) : RecordedEvent :=
  let event : RecordedEvent := {
    sequence := sequence
    epoch := epoch
    recordedUnixMs := recordedUnixMs
    schemaVersion := eventSchemaVersion
    storeVersion := storeVersion
    kind := kind
    bodyDigest := 0
    checksum := 0 }
  { event with
    bodyDigest := HashScope.eventChain.digest event.encodeBody
    checksum := HashScope.eventChain.chain previous event.encodeBody }

/-- Whether the event's chain checksum matches `previous`. -/
def verify (event : RecordedEvent) (previous : Digest) : Bool :=
  event.bodyDigest = HashScope.eventChain.digest event.encodeBody &&
    event.checksum = HashScope.eventChain.chain previous event.encodeBody

end RecordedEvent

/-- Errors raised by log appends. -/
inductive LogError where
  | sequenceGap (expected actual : Nat)
  | checksumMismatch (sequence : Nat)
  | schemaVersion (sequence : Nat) (found : UInt64)
  | storeVersionOlder (sequence : Nat) (log event : UInt64)
  | storeVersionNewer (sequence : Nat) (log event : UInt64)
  | storeVersionUnknown (sequence : Nat) (log event : UInt64)
  deriving DecidableEq

/-- Classifies a store-version disagreement between a log and an event. -/
def LogError.storeVersion (sequence : Nat) (log event : UInt64) : LogError :=
  let known := fun version => version = v2 ∨ version = v3
  if known log ∧ known event ∧ event < log then .storeVersionOlder sequence log event
  else if known log ∧ known event then .storeVersionNewer sequence log event
  else .storeVersionUnknown sequence log event

section Logs

variable [Wire]

/-- A list of events that continues the total order and the checksum chain. -/
inductive Chained (storeVersion : UInt64) : Nat → Digest → List RecordedEvent → Prop
  | nil {next : Nat} {previous : Digest} : Chained storeVersion next previous []
  | cons {next : Nat} {previous : Digest} {event : RecordedEvent} {rest : List RecordedEvent}
      (schema : event.schemaVersion = eventSchemaVersion)
      (store : event.storeVersion = storeVersion) (sequence : event.sequence = next)
      (verified : event.verify previous = true)
      (tail : Chained storeVersion (next + 1) event.checksum rest) :
      Chained storeVersion next previous (event :: rest)

namespace Chained

variable {storeVersion : UInt64} {next count : Nat} {previous : Digest}
  {events : List RecordedEvent}

/-- The chain value that a further event must commit to. -/
def head (previous : Digest) (events : List RecordedEvent) : Digest :=
  events.getLast?.elim previous RecordedEvent.checksum

omit [Wire] in
theorem head_cons {event : RecordedEvent} :
    head previous (event :: events) = head event.checksum events := by
  cases events with
  | nil => rfl
  | cons second rest =>
      simp only [head, List.getLast?_cons_cons]
      cases last : (second :: rest).getLast? with
      | none => simp at last
      | some _ => rfl

theorem concat {event : RecordedEvent} (h : Chained storeVersion next previous events)
    (schema : event.schemaVersion = eventSchemaVersion)
    (store : event.storeVersion = storeVersion)
    (sequence : event.sequence = next + events.length)
    (verified : event.verify (head previous events) = true) :
    Chained storeVersion next previous (events ++ [event]) := by
  induction h with
  | nil => exact .cons schema store (by simpa using sequence) verified .nil
  | cons headSchema headStore headSequence headVerified _ ih =>
      refine .cons headSchema headStore headSequence headVerified (ih ?_ ?_)
      · rw [sequence, List.length_cons]
        omega
      · rwa [head_cons] at verified

theorem take (h : Chained storeVersion next previous events) (count : Nat) :
    Chained storeVersion next previous (events.take count) := by
  induction h generalizing count with
  | nil => simpa using .nil
  | cons schema store sequence verified _ ih =>
      cases count with
      | zero => exact .nil
      | succ count => exact .cons schema store sequence verified (ih count)

end Chained

/-- Append-only log of recorded events. -/
structure EventLog where
  events : List RecordedEvent
  storeVersion : UInt64
  resume : Option (Nat × Digest)
  chained : Chained storeVersion (resume.elim firstSequence Prod.fst)
    (resume.elim genesisChecksum Prod.snd) events

namespace EventLog

/-- An empty log at genesis. -/
def new (storeVersion : UInt64) : EventLog :=
  ⟨[], storeVersion, none, .nil⟩

/-- An empty log that resumes a durable prefix. -/
def resuming (storeVersion : UInt64) (nextSequence : Nat) (lastChecksum : Digest) : EventLog :=
  ⟨[], storeVersion, some (nextSequence, lastChecksum), .nil⟩

/-- Next sequence the log assigns. -/
def nextSequence (log : EventLog) : Nat :=
  match log.resume with
  | some (next, _) => next + log.events.length
  | none => log.events.length + firstSequence

/-- Chain value of the recorded prefix. -/
def headChecksum (log : EventLog) : Digest :=
  match log.events.getLast? with
  | some event => event.checksum
  | none => log.resume.elim genesisChecksum Prod.snd

theorem nextSequence_eq (log : EventLog) :
    log.nextSequence = log.resume.elim firstSequence Prod.fst + log.events.length := by
  unfold nextSequence
  cases log.resume with
  | none => exact Nat.add_comm _ _
  | some point => rfl

theorem headChecksum_eq (log : EventLog) :
    log.headChecksum = Chained.head (log.resume.elim genesisChecksum Prod.snd) log.events := by
  unfold headChecksum Chained.head
  cases log.events.getLast? <;> rfl

/-- Appends an event after validating continuity, checksum chain and versions. -/
def append (log : EventLog) (event : RecordedEvent) : Except LogError EventLog :=
  if schema : event.schemaVersion = eventSchemaVersion then
    if store : event.storeVersion = log.storeVersion then
      if sequence : event.sequence = log.nextSequence then
        if verified : event.verify log.headChecksum = true then
          .ok {
            log with
            events := log.events ++ [event]
            chained := log.chained.concat schema store (log.nextSequence_eq ▸ sequence)
              (log.headChecksum_eq ▸ verified) }
        else
          .error (.checksumMismatch event.sequence)
      else
        .error (.sequenceGap log.nextSequence event.sequence)
    else
      .error (.storeVersion event.sequence log.storeVersion event.storeVersion)
  else
    .error (.schemaVersion event.sequence event.schemaVersion)

/-- The chain invariant of a log is a proposition. -/
theorem ext_of_events {left right : EventLog} (events : left.events = right.events)
    (storeVersion : left.storeVersion = right.storeVersion) (resume : left.resume = right.resume) :
    left = right := by
  cases left
  cases right
  cases events
  cases storeVersion
  cases resume
  rfl

/-- An accepted event goes to the end of the log. -/
theorem append_spec {log next : EventLog} {event : RecordedEvent}
    (h : log.append event = .ok next) :
    next.events = log.events ++ [event] ∧ next.storeVersion = log.storeVersion ∧
      next.resume = log.resume := by
  unfold append at h
  split at h
  · split at h
    · split at h
      · split at h
        · cases h
          exact ⟨rfl, rfl, rfl⟩
        · cases h
      · cases h
    · cases h
  · cases h

/-- A sealed event matches the chain value it was sealed for. -/
theorem verify_sealed {sequence epoch recordedUnixMs : Nat} {storeVersion : UInt64}
    {kind : EventKind} {previous : Digest} :
    (RecordedEvent.sealed sequence epoch recordedUnixMs storeVersion kind previous).verify
      previous = true := by
  simp [RecordedEvent.verify, RecordedEvent.sealed, RecordedEvent.encodeBody]

/-- The event that a sequencer continuing the log seals next. -/
def nextEvent (log : EventLog) (epoch recordedUnixMs : Nat) (kind : EventKind) : RecordedEvent :=
  .sealed log.nextSequence epoch recordedUnixMs log.storeVersion kind log.headChecksum

/-- The log continued by one sealed event. -/
def record (log : EventLog) (epoch recordedUnixMs : Nat) (kind : EventKind) : EventLog :=
  { log with
    events := log.events ++ [log.nextEvent epoch recordedUnixMs kind]
    chained := log.chained.concat rfl rfl log.nextSequence_eq
      (log.headChecksum_eq ▸ verify_sealed) }

/-- The first `count` events as an independent log. -/
def prefixLog (log : EventLog) (count : Nat) : EventLog :=
  { log with
    events := log.events.take count
    chained := log.chained.take count }

theorem prefixLog_prefixLog (log : EventLog) {earlier count : Nat} (h : earlier ≤ count) :
    (log.prefixLog count).prefixLog earlier = log.prefixLog earlier := by
  simp only [prefixLog, List.take_take, Nat.min_eq_left h]

end EventLog

end Logs

end Llxprt.Kernel
