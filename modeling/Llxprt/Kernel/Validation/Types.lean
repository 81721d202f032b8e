import Llxprt.Kernel.Security.Types

/-!
# Vocabulary of the validation gate and the semantic projection
-/

namespace Llxprt.Kernel

open Llxprt.Rust

/-- Entailment threshold of the gate. -/
def theta : Nat := 9500

def maxGraphNodes : Nat := 4096

def maxAssertions : Nat := 64

def maxArtifactBytes : Nat := 65536

def maxEnvelopeBytes : Nat := maxArtifactBytes * 8

/-- Worst-case spend of one gate run. -/
def gateSpendFloor : Nat :=
  (2 + maxAssertions * maxGraphNodes) * (maxEnvelopeBytes + maxArtifactBytes)

/-- Exact tuple: qualifiers travel with the statement. -/
structure BoundFact where
  statement : String
  subject : String
  predicate : String
  scope : ScopeId
  command : String
  negated : Bool
  temporal : String
  deriving DecidableEq

namespace BoundFact

/-- The field-by-field comparison of two facts. -/
def order : BoundFact → BoundFact → Ordering :=
  compareLex (compareOn statement) (compareLex (compareOn subject)
    (compareLex (compareOn predicate) (compareLex (compareOn scope)
      (compareLex (compareOn command) (compareLex (compareOn negated) (compareOn temporal))))))

instance : Ord BoundFact :=
  ⟨order⟩

instance : Std.TransOrd BoundFact :=
  inferInstanceAs (Std.TransCmp
    (compareLex (compareOn statement) (compareLex (compareOn subject)
      (compareLex (compareOn predicate) (compareLex (compareOn scope)
        (compareLex (compareOn command) (compareLex (compareOn negated) (compareOn temporal))))))))

instance : Std.LawfulEqOrd BoundFact where
  eq_of_compare {left right} h := by
    change order left right = .eq at h
    simp only [order, compareLex, compareOn, Ordering.then_eq_eq,
      Std.LawfulEqOrd.compare_eq_iff_eq] at h
    cases left
    cases right
    simpa using h

end BoundFact

/-- An authenticated leaf of the store. -/
structure Leaf where
  id : String
  source : Source
  sanitized : String

def Leaf.isIngress (leaf : Leaf) : Bool :=
  leaf.source.origin = .ingress && leaf.source.leaf = leaf.id

inductive Pointer where
  | ingress (id : String)
  | generated (id : String)
  deriving DecidableEq

structure Candidate where
  artifact : String
  renderedText : String
  rendered : List BoundFact
  roots : List Pointer
  graph : BTreeMap String (List Pointer)
  pendingNotes : BTreeSet String
  scope : ScopeId
  deriving DecidableEq

inductive ProvenanceFailure where
  | cycle
  | ungroundedRoot
  deriving DecidableEq

/-- Closed semantic result. -/
inductive Verdict where
  | pass
  | failCompleteness (missing : List BoundFact)
  | failPrecision (unsupported : List String)
  | failProvenance (reason : ProvenanceFailure)
  deriving DecidableEq

structure ValidationRecord where
  candidateDigest : String
  verdict : Verdict
  support : BTreeMap String (BTreeSet String)
  capPressure : Bool
  refreshed : Nat
  requiredRefinementUnavailable : Bool
  deriving DecidableEq

inductive GateError where
  | consumer (name : String)
  | bounds
  | independence
  deriving DecidableEq

inductive SemanticOperation where
  | note
  | readBack
  | reopen
  | fold
  | compact
  | condense
  | regenerate
  deriving DecidableEq

namespace SemanticOperation

def name : SemanticOperation → String
  | note => "note"
  | readBack => "read-back"
  | reopen => "reopen"
  | fold => "fold"
  | compact => "compact"
  | condense => "condense"
  | regenerate => "regenerate"

def lossy : SemanticOperation → Bool
  | fold | compact | condense | regenerate => true
  | note | readBack | reopen => false

end SemanticOperation

structure SemanticCommand where
  operation : SemanticOperation
  key : String
  sources : List String
  lane : UInt8
  candidate : Candidate
  storeHandle : String
  authority : Option LaneAuthority
  deriving DecidableEq

structure SemanticArtifact where
  command : SemanticCommand
  validation : ValidationRecord
  rendered : Bool
  depth : Nat
  deriving DecidableEq

inductive SemanticEvent where
  | put (command : SemanticCommand) (validation : ValidationRecord)
  | flushNotes
  | reclassify (key : String) (lane : UInt8)
  | resegment (key : String) (parts : List String)
  deriving DecidableEq

/-- Registered operation name of a semantic event. -/
def SemanticEvent.operation : SemanticEvent → String
  | put command _ => command.operation.name
  | flushNotes => "flush-notes"
  | reclassify .. => "reclassify"
  | resegment .. => "resegment"

end Llxprt.Kernel
