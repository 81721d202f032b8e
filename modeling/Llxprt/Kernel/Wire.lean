import Llxprt.Kernel.Branch.Types
import Llxprt.Kernel.Validation.Types

/-!
# Serialization supplied from outside

The kernel serializes its typed records through a JSON library and hashes
candidates with SHA-256.  Both are deterministic functions of their argument,
and nothing else about them is relied on.
-/

namespace Llxprt.Kernel

open Llxprt.Rust

/-- JSON encoders of the recorded types, and the hexadecimal SHA-256 digest. -/
class Wire where
  ledgerCommand : Command → Bytes
  semanticEvent : SemanticEvent → Bytes
  branchEvent : BranchEvent → Bytes
  securityEvent : SecurityEvent → Bytes
  ledgerParams : LedgerParams → Bytes
  ledgerEntry : Entry → Bytes
  ledgerConflicts : BTreeSet Conflict → Bytes
  domainVersions : BTreeMap String UInt64 → Bytes
  toolResults : BTreeSet String → Bytes
  securityState : BTreeMap Nat Pin → BTreeMap String Escalation → BTreeMap String Erasure → Bytes
  artifacts : BTreeMap String SemanticArtifact → Bytes
  branches : BTreeMap String Branch → Bytes
  candidate : Candidate → Bytes
  sha256 : Bytes → String

/-- The encoders of a session without recorded facts, pins, artifacts or
branches: default-shaped parameters and empty collections. -/
@[reducible]
def Wire.emptySession : Wire where
  ledgerCommand _ := []
  semanticEvent _ := []
  branchEvent _ := []
  securityEvent _ := []
  ledgerParams params := utf8 ("\x7b\"version\":" ++ toString params.version ++
    ",\"threshold\":" ++ toString params.threshold.value ++
    ",\"capacity\":" ++ toString params.capacity ++
    ",\"unconfirmed_capacity\":" ++ toString params.unconfirmedCapacity ++
    ",\"protection_bytes\":" ++ toString params.protectionBytes ++
    ",\"decay_interval\":" ++ toString params.decayInterval ++
    ",\"access_weight\":" ++ toString params.accessWeight ++
    ",\"reuse_weight\":" ++ toString params.reuseWeight ++
    ",\"decay_weight\":" ++ toString params.decayWeight ++
    ",\"consolidation_attempts\":" ++ toString params.consolidationAttempts ++ "\x7d")
  ledgerEntry _ := []
  ledgerConflicts _ := utf8 "[]"
  domainVersions _ := utf8 "\x7b\x7d"
  toolResults _ := utf8 "[]"
  securityState _ _ _ := utf8 "[\x7b\x7d,\x7b\x7d,\x7b\x7d]"
  artifacts _ := utf8 "\x7b\x7d"
  branches _ := utf8 "\x7b\x7d"
  candidate _ := []
  sha256 _ := ""

/-- Digest that binds a validation record to its candidate. -/
def candidateDigest [Wire] (candidate : Candidate) : String :=
  Wire.sha256 (Wire.candidate candidate)

end Llxprt.Kernel
