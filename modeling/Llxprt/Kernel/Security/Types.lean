import Llxprt.Kernel.Ledger.Types

/-!
# Vocabulary of the security lifecycle

Pins, escalations, erasures and the authority receipts that protected
projections carry.
-/

namespace Llxprt.Kernel

structure Pin where
  item : Nat
  owner : Source
  expires : Nat
  deriving DecidableEq

structure Escalation where
  id : String
  operator : Source
  before : Nat
  after : Nat
  envelopeCeiling : Nat
  complete : Bool
  deriving DecidableEq

structure Erasure where
  leaf : String
  vaultHandle : String
  postCheckpoint : String
  preHashesUnverifiable : Bool
  deriving DecidableEq

inductive SecurityEvent where
  | pin (pin : Pin)
  | unpin (item : Nat) (owner : Source)
  | expire (sequence : Nat)
  | escalatePending (request : Escalation)
  | escalateComplete (id : String) (operator : Source)
  | erase (erasure : Erasure)
  deriving DecidableEq

/-- Registered operation name of a security event. -/
def SecurityEvent.operation : SecurityEvent → String
  | pin _ => "pin"
  | unpin .. => "unpin"
  | expire _ => "expire-pin"
  | escalatePending _ => "escalate-pending"
  | escalateComplete .. => "escalate-complete"
  | erase _ => "redact"

inductive SecurityError where
  | quoting
  | authority
  | delegation
  | pin
  | escalation
  | erasure
  deriving DecidableEq

/-- A principal's adoption of one exact candidate. -/
structure Adoption where
  principal : Source
  candidateDigest : String
  lane : UInt8
  scope : ScopeId
  deriving DecidableEq

structure LaneAuthority where
  source : Source
  adoption : Option Adoption
  deriving DecidableEq

namespace LaneAuthority

/-- Weakest authority that may publish into a protected lane. -/
def minimum (lane : UInt8) : Authority :=
  if lane = 1 then .user else .agent

/-- Replay-time check of the recorded authority receipt. -/
def replayValid (authority : LaneAuthority) (lane : UInt8) (scope : ScopeId)
    (digest : String) : Bool :=
  let source := match authority.adoption with
    | some adoption => adoption.principal
    | none => authority.source
  source.origin = .ingress && minimum lane ≤ source.authority && source.scope = scope &&
    !source.leaf.isEmpty &&
    match authority.adoption with
    | some adoption =>
        adoption.lane = lane && adoption.scope = scope && adoption.candidateDigest = digest
    | none => true

end LaneAuthority

/-- A lower-case hexadecimal SHA-256 digest. -/
def validHash (value : String) : Bool :=
  value.utf8ByteSize = 64 &&
    (utf8 value).all fun byte => (48 ≤ byte && byte ≤ 57) || (97 ≤ byte && byte ≤ 102)

end Llxprt.Kernel
