import Llxprt.Kernel.Wire
import Llxprt.Rust.Integers

/-!
# The fact ledger

The transition functions of the ledger, one for each command.  They run on a
clone of the ledger that is dropped when they fail, so each of them is a
function from a ledger to a fallible ledger, and `Ledger.apply` publishes the
result.
-/

namespace Llxprt.Kernel

open Llxprt.Rust

structure Ledger where
  entries : BTreeMap FactId Entry
  conflicts : BTreeSet Conflict
  versions : BTreeMap String UInt64
  toolResults : BTreeSet String
  params : LedgerParams
  attempts : Nat
  deriving DecidableEq

/-- Text left behind by an erasure. -/
def erasedTombstone : String := "[erased: unverified tombstone]"

/-- Whether the gate receipt names exactly this fact and claim. -/
def supported (support : GateSupport) (fact : FactId) (claim : String) : Bool :=
  support.fact = fact && !claim.isEmpty && support.claim = claim &&
    !support.ingressLeaves.isEmpty && support.ingressLeaves.toList.all fun leaf => !leaf.isEmpty

/-- Whether the principal may replace or retract the entry. -/
def authorized (principal : Source) (entry : Entry) : Bool :=
  principal.origin = .ingress && !principal.leaf.isEmpty && principal.scope = entry.id.scope &&
    entry.source.authority ≤ principal.authority

namespace Entry

/-- Whether the entry still binds. -/
def isLive (entry : Entry) : Bool :=
  !entry.retired

/-- Whether the entry is an obligation that still binds. -/
def isLiveObligation (entry : Entry) : Bool :=
  !entry.retired && entry.factClass = .obligation

/-- Bytes of the carried text. -/
def textBytes (entry : Entry) : Nat :=
  entry.fold.text.utf8ByteSize

end Entry

namespace Ledger

def new (params : LedgerParams) : Except LedgerError Ledger := do
  reject (¬ params.threshold.valid ∨ params.decayInterval = 0 ∨ params.version ≠ 1) .parameters
  return {
    entries := ∅
    conflicts := ∅
    versions := ∅
    toolResults := ∅
    params := params
    attempts := 0 }

/-- The ledger of a fresh session, at the declared defaults. -/
def initial : Ledger where
  entries := ∅
  conflicts := ∅
  versions := ∅
  toolResults := ∅
  params := .default
  attempts := 0

def entry (ledger : Ledger) (fact : FactId) : Option Entry :=
  ledger.entries[fact]?

/-- Single ledger-active definition, shared by all read-side consumers. -/
def active (ledger : Ledger) (entry : Entry) : Bool :=
  !entry.retired && entry.freshness ≠ .unknown &&
    (entry.factClass = .obligation || ledger.params.threshold.value < entry.utility.value)

/-- Age-independent access and reuse normalization, saturating in `[0, 1]`. -/
def utility (ledger : Ledger) (usage : Usage) : Utility :=
  let score := usage.accesses * ledger.params.accessWeight +
    usage.reuses * ledger.params.reuseWeight
  let decay := usage.ageWindows * ledger.params.decayWeight
  ⟨min (score - decay) Utility.one⟩

/-- The entry of a fact that has not been retired. -/
def live (ledger : Ledger) (fact : FactId) : Except LedgerError Entry := do
  let entry ← okOr (ledger.entry fact) .missing
  reject entry.retired .identity
  return entry

/-- Entries that have not been retired. -/
def liveCount (ledger : Ledger) : Nat :=
  ((values ledger.entries).filter Entry.isLive).length

/-- Bytes carried by obligations that have not been retired. -/
def obligationBytes (ledger : Ledger) : Nat :=
  (((values ledger.entries).filter Entry.isLiveObligation).map Entry.textBytes).sum

section Admission

def checkEntry (ledger : Ledger) (entry : Entry) (scopes : ScopeRegistry) :
    Except LedgerError Unit := do
  reject (ledger.entries.contains entry.id ∨ entry.retired ∨ entry.supersededBy.isSome) .identity
  reject (¬ entry.utility.valid ∨ entry.utility ≠ ledger.utility entry.usage) .parameters
  reject (entry.source.scope ≠ entry.id.scope ∨ entry.source.leaf.isEmpty) .authority
  reject (¬ scopes.isOpen entry.id.scope) .precondition
  reject (entry.freshness = .current ∧ entry.evidence ≠ .verified) .unsupported
  reject (ledger.params.capacity ≤ ledger.liveCount) .overflow

def checkObligationBound (ledger : Ledger) (entry : Entry) : Except LedgerError Unit := do
  reject (ledger.params.protectionBytes < saturatingAdd ledger.obligationBytes entry.textBytes)
    .overflow
  reject (entry.unconfirmed ∧ ledger.params.unconfirmedCapacity ≤
    ((values ledger.entries).filter fun entry =>
      entry.isLiveObligation && entry.unconfirmed).length) .overflow

/-- The conflict an incoming entry raises against a live one, if any. -/
def conflictOf (entry incoming : Entry) : Option Conflict :=
  if entry.id.subject ≠ incoming.id.subject ∨ entry.id.scope ≠ incoming.id.scope ∨
      entry.fold.text = incoming.fold.text then
    none
  else
    let (left, right) :=
      if compare entry.id incoming.id = .lt then (entry.id, incoming.id)
      else (incoming.id, entry.id)
    match entry.kind, incoming.kind with
    | .normative, .normative => some (.normative left right)
    | .empirical, .empirical => some (.empirical left right)
    | .normative, .empirical => some (.premiseInvalidated entry.id incoming.id)
    | .empirical, .normative => some (.premiseInvalidated incoming.id entry.id)

/-- Flag every live entry that the incoming entry contradicts. -/
def recordConflicts (ledger : Ledger) (incoming : Entry) : Ledger :=
  { ledger with
    conflicts := ((values ledger.entries).filter Entry.isLive).foldl
      (fun conflicts entry =>
        match conflictOf entry incoming with
        | some conflict => conflicts.insert conflict
        | none => conflicts)
      ledger.conflicts }

def removeConflicts (ledger : Ledger) (fact : FactId) : Ledger :=
  { ledger with conflicts := ledger.conflicts.filter fun conflict => !conflict.mentions fact }

/-- Store an entry under its own identity. -/
def insert (ledger : Ledger) (entry : Entry) : Ledger :=
  { ledger with entries := ledger.entries.insert entry.id entry }

/-- Assign through `entries.get_mut(fact)`. -/
def modify (ledger : Ledger) (fact : FactId) (change : Entry → Entry) : Ledger :=
  { ledger with entries := ledger.entries.modify fact change }

/-- Assign through `entries.values_mut()`. -/
def modifyAll (ledger : Ledger) (change : Entry → Entry) : Ledger :=
  { ledger with entries := ledger.entries.map fun _ entry => change entry }

def admitObligation (ledger : Ledger) (entry : Entry) (grammar : Grammar)
    (scopes : ScopeRegistry) : Except LedgerError Ledger := do
  reject (entry.source.authority = .environment ∨ grammar = .evidence) .quarantined
  reject (entry.source.origin ≠ .ingress ∨ entry.factClass ≠ .obligation ∨
    entry.kind ≠ .normative) .authority
  reject (grammar = .ambiguous ∧ entry.source.authority < .user) .authority
  reject (entry.unconfirmed ≠ decide (grammar = .ambiguous)) .precondition
  ledger.checkEntry entry scopes
  ledger.checkObligationBound entry
  return (ledger.recordConflicts entry).insert entry

def admitConvenience (ledger : Ledger) (entry : Entry) (scopes : ScopeRegistry) :
    Except LedgerError Ledger := do
  ledger.checkEntry entry scopes
  reject (entry.factClass ≠ .convenience ∨ entry.utility.value ≤ ledger.params.threshold.value ∨
    entry.unconfirmed) .precondition
  reject (entry.kind = .normative ∧
    (entry.source.authority < .agent ∨ entry.source.origin ≠ .ingress)) .authority
  return (ledger.recordConflicts entry).insert entry

end Admission

section Freshness

/-- Whether the entry read one of the written domains. -/
def readsAny (entry : Entry) (domains : String → Bool) : Bool :=
  entry.readSet.keys.any domains

/-- Effect of a tool write on one entry. -/
def invalidateEntry (writes : BTreeMap String UInt64) (entry : Entry) : Entry :=
  if !entry.retired && readsAny entry writes.contains && entry.freshness = .current then
    { entry with freshness := .stale }
  else
    entry

/-- Empirical entries that a tool write turns stale. -/
def invalidatedBy (ledger : Ledger) (writes : BTreeMap String UInt64) : BTreeSet FactId :=
  .ofList (((values ledger.entries).filter fun entry =>
    !entry.retired && readsAny entry writes.contains && entry.freshness = .current &&
      entry.kind = .empirical).map Entry.id)

/-- Conflicts of one normative entry with its invalidated premises. -/
def premiseConflicts (invalidated : BTreeSet FactId) (normative : Entry) : List Conflict :=
  (normative.premises.toList.filter fun premise => invalidated.contains premise).map
    fun empirical => .premiseInvalidated normative.id empirical

def invalidate (ledger : Ledger) (result : ToolWrite) (writes : BTreeMap String UInt64) :
    Except LedgerError Ledger := do
  reject (result.callId.isEmpty ∨ result.tool.isEmpty ∨
    ledger.toolResults.contains result.callId) .identity
  reject (writes.toList.any fun (domain, version) =>
    match ledger.versions[domain]? with
    | some old => version ≤ old
    | none => false) .precondition
  let invalidated := ledger.invalidatedBy writes
  let entries := ledger.entries.map fun _ entry => invalidateEntry writes entry
  return {
    ledger with
    entries := entries
    versions := ledger.versions ∪ writes
    toolResults := ledger.toolResults.insert result.callId
    conflicts := (((values entries).filter fun entry =>
      entry.kind = .normative && !entry.retired).flatMap (premiseConflicts invalidated)).foldl
      (fun conflicts conflict => conflicts.insert conflict) ledger.conflicts }

/-- Whether the observation covers the complete dependency set of the entry at
the versions the ledger records. -/
def observationMatches (versions : BTreeMap String UInt64) (observation : Observation)
    (entry : Entry) : Bool :=
  entry.readSet.keys.all fun domain =>
    observation.readSet[domain]?.isSome &&
      observation.readSet[domain]? = versions[domain]?.or entry.readSet[domain]?

/-- Effect of an observation on one entry. -/
def revalidateEntry (versions : BTreeMap String UInt64) (observation : Observation)
    (entry : Entry) : Entry :=
  if !entry.retired && readsAny entry observation.readSet.contains &&
      observation.supports.contains entry.id && observation.source.scope = entry.id.scope &&
      entry.freshness = .stale && observationMatches versions observation entry then
    { entry with
      readSet := entry.readSet.map fun domain version =>
        (observation.readSet[domain]?).getD version
      freshness := .current
      evidence := .verified
      source := if entry.kind = .empirical then observation.source else entry.source }
  else
    entry

def revalidate (ledger : Ledger) (observation : Observation) : Except LedgerError Ledger := do
  reject (observation.source.origin ≠ .ingress ∨ observation.source.leaf.isEmpty) .unsupported
  return ledger.modifyAll (revalidateEntry ledger.versions observation)

def staleDemote (ledger : Ledger) (domains : BTreeSet String) : Ledger :=
  ledger.modifyAll fun entry =>
    if entry.freshness = .stale && readsAny entry domains.contains then
      { entry with evidence := .unverified }
    else
      entry

/-- One pass of the dependency loop over the entries, in key order. -/
def dependentPass (ledger : Ledger) (dependent : BTreeSet FactId) : BTreeSet FactId :=
  (values ledger.entries).foldl (fun dependent entry =>
    if entry.premises.toList.any fun premise => dependent.contains premise then
      dependent.insert entry.id
    else
      dependent) dependent

/-- The dependency loop; it stops at the first pass that adds nothing. -/
def dependentLoop (ledger : Ledger) : Nat → BTreeSet FactId → BTreeSet FactId
  | 0, dependent => dependent
  | fuel + 1, dependent =>
      let next := ledger.dependentPass dependent
      if next.size = dependent.size then next else ledger.dependentLoop fuel next

/-- Facts that rest on an erased leaf.  Every pass but the last adds an
identity of an entry, so one pass more than there are entries suffices. -/
def dependents (ledger : Ledger) (leaf : String) : BTreeSet FactId :=
  ledger.dependentLoop (ledger.entries.size + 1)
    (.ofList (((values ledger.entries).filter fun entry =>
      entry.source.leaf = leaf || entry.bindings.contains leaf).map Entry.id))

def redact (ledger : Ledger) (leaf : String) : Ledger :=
  let dependent := ledger.dependents leaf
  ledger.modifyAll fun entry =>
    if dependent.contains entry.id then
      { entry with
        evidence := .unverified
        freshness := .unknown
        fold := { entry.fold with text := erasedTombstone } }
    else
      entry

end Freshness

section Lifecycle

def demote (ledger : Ledger) (fact : FactId) (reclaim : Nat) : Except LedgerError Ledger := do
  let entry ← ledger.live fact
  reject (entry.factClass = .obligation) .obligationProtected
  reject (¬ entry.rendered ∨ reclaim < 8 ∨ entry.textBytes < reclaim) .precondition
  return ledger.modify fact fun entry => { entry with rendered := false }

def decay (ledger : Ledger) (fact : FactId) (usage : Usage) (sequence : Nat) :
    Except LedgerError Ledger := do
  let entry ← ledger.live fact
  reject (entry.factClass = .obligation) .obligationProtected
  reject (sequence - entry.lastDecay < ledger.params.decayInterval ∨
    usage.ageWindows ≤ entry.usage.ageWindows) .precondition
  reject (usage.accesses ≠ entry.usage.accesses ∨ usage.reuses ≠ entry.usage.reuses) .precondition
  return ledger.modify fact fun entry =>
    { entry with utility := ledger.utility usage, usage := usage, lastDecay := sequence }

/-- Whether `next` may take the place of the obligation `entry` about `fact`. -/
def supersedes (next : Entry) (fact : FactId) (entry : Entry) : Bool :=
  next.factClass = .obligation && next.id.subject = fact.subject &&
    next.id.scope = fact.scope && entry.source.authority ≤ next.source.authority &&
    isSubset entry.bindings next.bindings

def discharge (ledger : Ledger) (fact : FactId) (evidence : DischargeEvidence)
    (scopes : ScopeRegistry) : Except LedgerError Ledger := do
  let entry ← ledger.live fact
  reject (entry.factClass ≠ .obligation) .precondition
  match evidence with
  | .insufficient => throw .insufficient
  | .resolved support =>
      reject (¬ supported support fact support.claim) .unsupported
      return (ledger.modify fact fun entry => { entry with retired := true }).removeConflicts fact
  | .supersededBy successor =>
      reject (successor = fact) .unsupported
      match ledger.live successor with
      | .error _ => throw .unsupported
      | .ok next =>
          reject (¬ supersedes next fact entry) .unsupported
          return (ledger.modify fact fun entry =>
            { entry with
              supersededBy := some successor
              fold := { entry.fold with text := next.fold.text }
              retired := true }).removeConflicts fact
  | .scopeClosed =>
      reject (¬ scopes.isClosed fact.scope) .unsupported
      return (ledger.modify fact fun entry => { entry with retired := true }).removeConflicts fact

def amend (ledger : Ledger) (fact : FactId) (replacement : Entry) (principal : Source)
    (scopes : ScopeRegistry) : Except LedgerError Ledger := do
  let old ← ledger.live fact
  reject (old.factClass = .obligation) .obligationProtected
  reject (¬ authorized principal old ∨ principal.authority < replacement.source.authority)
    .authority
  reject (replacement.factClass ≠ old.factClass ∨ replacement.kind ≠ old.kind ∨
    replacement.id.scope ≠ fact.scope ∨ replacement.fold.depth ≠ old.fold.depth) .precondition
  reject (replacement.kind = .normative ∧ (replacement.source.origin ≠ .ingress ∨
    replacement.source.authority < .agent)) .authority
  ledger.checkEntry replacement scopes
  let carried := ledger.modify fact fun carrying =>
    { carrying with
      fold := { carrying.fold with text := replacement.fold.text }
      supersededBy := some replacement.id
      retired := true }
  return ((carried.insert replacement).removeConflicts fact).recordConflicts replacement

def retract (ledger : Ledger) (fact : FactId) (principal : Source) :
    Except LedgerError Ledger := do
  let entry ← ledger.live fact
  reject (entry.factClass = .obligation) .obligationProtected
  reject (¬ authorized principal entry) .authority
  return (ledger.modify fact fun entry =>
    { entry with
      fold := { entry.fold with text := "" }
      rendered := false
      retired := true }).removeConflicts fact

/-- Whether the promotion is backed by the entry's own authenticated source. -/
def sameSource (entry : Entry) (fact : FactId) (source : Source) : Bool :=
  source.origin = .ingress && max entry.source.authority .agent ≤ source.authority &&
    source.scope = fact.scope && source.leaf = entry.source.leaf

/-- Whether the promotion is backed by an authenticated adoption. -/
def adopted (entry : Entry) (fact : FactId) : Option Source → Bool
  | some principal =>
      principal.origin = .ingress && max entry.source.authority .agent ≤ principal.authority &&
        principal.scope = fact.scope && !principal.leaf.isEmpty
  | none => false

def promote (ledger : Ledger) (fact : FactId) (source : Source) (adoption : Option Source)
    (support : GateSupport) : Except LedgerError Ledger := do
  let entry ← ledger.live fact
  reject (entry.factClass = .obligation) .obligationProtected
  reject (¬ sameSource entry fact source ∧ ¬ adopted entry fact adoption) .authority
  reject (¬ supported support fact entry.fold.text) .unsupported
  return ledger.modify fact fun entry =>
    { entry with kind := .normative, source := adoption.getD source }

/-- One step of the constituent loop: the bindings and bytes collected so far,
extended by the next constituent. -/
def collectConstituent (ledger : Ledger) (composite : Entry)
    (collected : BTreeSet String × Nat) (fact : FactId) :
    Except LedgerError (BTreeSet String × Nat) := do
  let entry ← ledger.live fact
  reject (entry.factClass ≠ .obligation ∨ entry.id.scope ≠ composite.id.scope ∨
    composite.source.authority < entry.source.authority) .authority
  return (collected.1 ∪ entry.bindings, collected.2 + entry.textBytes)

/-- Retire one constituent in favour of the composite. -/
def retireConstituent (composite : Entry) (ledger : Ledger) (fact : FactId) : Ledger :=
  (ledger.modify fact fun entry =>
    { entry with
      retired := true
      supersededBy := some composite.id
      fold := { entry.fold with text := composite.fold.text } }).removeConflicts fact

def consolidate (ledger : Ledger) (facts : BTreeSet FactId) (composite : Entry)
    (support : GateSupport) (reclaim : Nat) (scopes : ScopeRegistry) :
    Except LedgerError Ledger := do
  reject (ledger.params.consolidationAttempts ≤ ledger.attempts ∨ facts.size < 2) .overflow
  let collected ← facts.toList.foldlM (ledger.collectConstituent composite) (∅, 0)
  reject (collected.1 ≠ composite.bindings ∨ reclaim < 8 ∨
    collected.2 - composite.textBytes < reclaim) .precondition
  reject (¬ supported support composite.id composite.fold.text) .unsupported
  reject (ledger.obligationBytes < ledger.params.protectionBytes ∧
    ledger.liveCount < ledger.params.capacity) .precondition
  let retired := facts.toList.foldl (retireConstituent composite)
    { ledger with attempts := ledger.attempts + 1 }
  retired.admitObligation composite .obligation scopes

end Lifecycle

def transition (command : Command) (sequence : Nat) (scopes : ScopeRegistry) (ledger : Ledger) :
    Except LedgerError Ledger :=
  match command with
  | .admitObligation entry grammar => ledger.admitObligation entry grammar scopes
  | .admitConvenience entry => ledger.admitConvenience entry scopes
  | .factInvalidate result writes => ledger.invalidate result writes
  | .revalidate observation => ledger.revalidate observation
  | .staleDemote domains => .ok (ledger.staleDemote domains)
  | .redact leaf => .ok (ledger.redact leaf)
  | .decay fact usage => ledger.decay fact usage sequence
  | .demote fact reclaim => ledger.demote fact reclaim
  | .discharge fact evidence => ledger.discharge fact evidence scopes
  | .consolidate facts composite support reclaim =>
      ledger.consolidate facts composite support reclaim scopes
  | .amend fact replacement principal => ledger.amend fact replacement principal scopes
  | .retract fact principal => ledger.retract fact principal
  | .promote fact source adoption support => ledger.promote fact source adoption support

/-- Apply a command to the ledger: the transition runs on a clone. -/
def apply (command : Command) (sequence : Nat) (scopes : ScopeRegistry) :
    Method Ledger LedgerError Unit :=
  Method.staged (transition command sequence scopes)

def encode [Wire] (ledger : Ledger) : Bytes :=
  Sink.tag "fact-ledger" ++ Sink.blob (Wire.ledgerParams ledger.params) ++
    Sink.count ledger.attempts ++
    ((values ledger.entries).flatMap fun entry => Sink.blob (Wire.ledgerEntry entry)) ++
    Sink.blob (Wire.ledgerConflicts ledger.conflicts) ++
    Sink.blob (Wire.domainVersions ledger.versions) ++
    Sink.blob (Wire.toolResults ledger.toolResults)

end Ledger

end Llxprt.Kernel
