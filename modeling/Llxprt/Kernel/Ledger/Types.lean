import Llxprt.Kernel.Scopes

/-!
# Vocabulary of the fact ledger

Facts, their sources and the commands that the reducer may apply.  Commands
carry authenticated source and gate receipts; they do not carry authority of
their own.
-/

namespace Llxprt.Kernel

open Llxprt.Rust

/-- Identity of a fact: semantic and scoped. -/
structure FactId where
  subject : String
  predicate : String
  scope : ScopeId
  deriving DecidableEq

namespace FactId

/-- The field-by-field comparison of two identities. -/
def order : FactId → FactId → Ordering :=
  compareLex (compareOn subject) (compareLex (compareOn predicate) (compareOn scope))

instance : Ord FactId :=
  ⟨order⟩

instance : Std.TransOrd FactId :=
  inferInstanceAs (Std.TransCmp
    (compareLex (compareOn subject) (compareLex (compareOn predicate) (compareOn scope))))

instance : Std.LawfulEqOrd FactId where
  eq_of_compare {left right} h := by
    change order left right = .eq at h
    simp only [order, compareLex, compareOn, Ordering.then_eq_eq,
      Std.LawfulEqOrd.compare_eq_iff_eq] at h
    cases left
    cases right
    simpa using h

end FactId

/-- Authority of a principal, from the weakest to the strongest. -/
inductive Authority where
  | environment
  | agent
  | user
  | operator
  deriving DecidableEq

namespace Authority

/-- Declaration order, which is the derived comparison. -/
def rank : Authority → Nat
  | environment => 0
  | agent => 1
  | user => 2
  | operator => 3

instance : LE Authority :=
  ⟨fun left right => left.rank ≤ right.rank⟩

instance : LT Authority :=
  ⟨fun left right => left.rank < right.rank⟩

instance : DecidableLE Authority :=
  fun left right => inferInstanceAs (Decidable (left.rank ≤ right.rank))

instance : DecidableLT Authority :=
  fun left right => inferInstanceAs (Decidable (left.rank < right.rank))

instance : Max Authority :=
  ⟨fun left right => if left.rank ≤ right.rank then right else left⟩

theorem le_def {left right : Authority} : left ≤ right ↔ left.rank ≤ right.rank :=
  Iff.rfl

theorem le_trans {first second third : Authority} (h : first ≤ second) (k : second ≤ third) :
    first ≤ third :=
  Nat.le_trans h k

theorem not_lt {left right : Authority} : ¬ left < right ↔ right ≤ left :=
  Nat.not_lt

theorem right_le_max {left right : Authority} : right ≤ max left right := by
  simp only [max, le_def]
  split <;> omega

end Authority

/-- Where a source record was produced. -/
inductive Origin where
  | ingress
  | generated
  deriving DecidableEq

/-- Receipt obtained from authenticated ingress. -/
structure Source where
  leaf : String
  authority : Authority
  origin : Origin
  scope : ScopeId
  deriving DecidableEq

inductive FactClass where
  | obligation
  | convenience
  deriving DecidableEq

inductive FactKind where
  | normative
  | empirical
  deriving DecidableEq

inductive Freshness where
  | current
  | stale
  | unknown
  deriving DecidableEq

inductive EvidenceStatus where
  | verified
  | unverified
  deriving DecidableEq

inductive Grammar where
  | obligation
  | ambiguous
  | evidence
  deriving DecidableEq

/-- A normalized fixed-point score. -/
structure Utility where
  value : Nat
  deriving DecidableEq

namespace Utility

def one : Nat := 10000

def valid (utility : Utility) : Bool :=
  utility.value ≤ one

end Utility

/-- Logged utility inputs. -/
structure Usage where
  accesses : Nat
  reuses : Nat
  ageWindows : Nat
  deriving DecidableEq

structure LedgerParams where
  version : UInt64
  threshold : Utility
  capacity : Nat
  unconfirmedCapacity : Nat
  protectionBytes : Nat
  decayInterval : Nat
  accessWeight : Nat
  reuseWeight : Nat
  decayWeight : Nat
  consolidationAttempts : Nat
  deriving DecidableEq

/-- The declared defaults. -/
def LedgerParams.default : LedgerParams where
  version := 1
  threshold := ⟨5000⟩
  capacity := 256
  unconfirmedCapacity := 8
  protectionBytes := 65536
  decayInterval := 32
  accessWeight := 1000
  reuseWeight := 2000
  decayWeight := 500
  consolidationAttempts := 3

structure CarryingFold where
  text : String
  depth : Nat
  deriving DecidableEq

/-- One fact of the ledger. -/
structure Entry where
  id : FactId
  factClass : FactClass
  kind : FactKind
  source : Source
  freshness : Freshness
  evidence : EvidenceStatus
  unconfirmed : Bool
  utility : Utility
  usage : Usage
  readSet : BTreeMap String UInt64
  premises : BTreeSet FactId
  bindings : BTreeSet String
  fold : CarryingFold
  rendered : Bool
  retired : Bool
  lastDecay : Nat
  supersededBy : Option FactId
  deriving DecidableEq

/-- Gate receipt bound to the exact fact and claim. -/
structure GateSupport where
  fact : FactId
  claim : String
  ingressLeaves : BTreeSet String
  deriving DecidableEq

inductive DischargeEvidence where
  | insufficient
  | resolved (support : GateSupport)
  | supersededBy (successor : FactId)
  | scopeClosed
  deriving DecidableEq

structure Observation where
  source : Source
  readSet : BTreeMap String UInt64
  supports : BTreeSet FactId
  deriving DecidableEq

/-- Sanitized tool result committed together with its declared write set. -/
structure ToolWrite where
  callId : String
  tool : String
  scope : ScopeId
  sanitized : Bytes
  deriving DecidableEq

/-- Flagged disagreement between two facts. -/
inductive Conflict where
  | normative (left right : FactId)
  | empirical (left right : FactId)
  | premiseInvalidated (normative empirical : FactId)
  deriving DecidableEq

namespace Conflict

/-- Declaration order of the variants. -/
def variant : Conflict → Nat
  | normative .. => 0
  | empirical .. => 1
  | premiseInvalidated .. => 2

def first : Conflict → FactId
  | normative left _ | empirical left _ | premiseInvalidated left _ => left

def second : Conflict → FactId
  | normative _ right | empirical _ right | premiseInvalidated _ right => right

/-- Whether `fact` takes part in the conflict. -/
def mentions (conflict : Conflict) (fact : FactId) : Bool :=
  conflict.first = fact || conflict.second = fact

/-- The derived comparison: variant first, then the fields. -/
def order : Conflict → Conflict → Ordering :=
  compareLex (compareOn variant) (compareLex (compareOn first) (compareOn second))

instance : Ord Conflict :=
  ⟨order⟩

instance : Std.TransOrd Conflict :=
  inferInstanceAs (Std.TransCmp
    (compareLex (compareOn variant) (compareLex (compareOn first) (compareOn second))))

instance : Std.LawfulEqOrd Conflict where
  eq_of_compare {left right} h := by
    change order left right = .eq at h
    simp only [order, compareLex, compareOn, Ordering.then_eq_eq,
      Std.LawfulEqOrd.compare_eq_iff_eq] at h
    cases left <;> cases right <;> simp_all [variant, first, second]

end Conflict

/-- The closed command set of the ledger. -/
inductive Command where
  | admitObligation (entry : Entry) (grammar : Grammar)
  | admitConvenience (entry : Entry)
  | demote (fact : FactId) (reclaim : Nat)
  | discharge (fact : FactId) (evidence : DischargeEvidence)
  | consolidate (facts : BTreeSet FactId) (composite : Entry) (support : GateSupport)
      (reclaim : Nat)
  | amend (fact : FactId) (replacement : Entry) (principal : Source)
  | retract (fact : FactId) (principal : Source)
  | promote (fact : FactId) (source : Source) (adoption : Option Source) (support : GateSupport)
  | factInvalidate (result : ToolWrite) (writes : BTreeMap String UInt64)
  | revalidate (observation : Observation)
  | staleDemote (domains : BTreeSet String)
  | decay (fact : FactId) (usage : Usage)
  | redact (leaf : String)
  deriving DecidableEq

/-- Registered operation name of a command. -/
def Command.operation : Command → String
  | admitObligation .. => "admit-obligation"
  | admitConvenience .. => "admit-convenience"
  | demote .. => "demote"
  | discharge .. => "discharge"
  | consolidate .. => "consolidate-obligations"
  | amend .. => "amend"
  | retract .. => "retract"
  | promote .. => "promote"
  | factInvalidate .. => "fact-invalidate"
  | revalidate .. => "revalidate"
  | staleDemote .. => "stale-demote"
  | decay .. => "decay"
  | redact .. => "redact"

inductive LedgerError where
  | missing
  | identity
  | authority
  | quarantined
  | overflow
  | parameters
  | precondition
  | unsupported
  | insufficient
  | obligationProtected
  deriving DecidableEq

end Llxprt.Kernel
