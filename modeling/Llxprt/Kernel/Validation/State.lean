import Llxprt.Kernel.Ledger.State

/-!
# Semantic projection

Gate-validated artifacts, published and replaced by recorded events only.
-/

namespace Llxprt.Kernel

open Llxprt.Rust

structure SemanticState where
  artifacts : BTreeMap String SemanticArtifact
  deriving DecidableEq

/-- Authority check of a protected lane at replay. -/
def replayAuthority (command : SemanticCommand) (validation : ValidationRecord) :
    Except GateError Unit :=
  reject (command.lane ≤ 2 ∧ ¬ command.authority.any fun authority =>
    authority.replayValid command.lane command.candidate.scope validation.candidateDigest) .bounds

namespace SemanticState

def initial : SemanticState :=
  ⟨∅⟩

/-- Bytes of the rendered artifacts. -/
def renderedBytes (state : SemanticState) : Nat :=
  (((values state.artifacts).filter fun artifact => artifact.rendered).map
    fun artifact => artifact.command.candidate.artifact.utf8ByteSize).sum

/-- One step of the source loop: the source must be rendered and of the same
lane and scope; the loop collects the deepest source. -/
def sourceDepth (state : SemanticState) (command : SemanticCommand) (depth : Nat) (key : String) :
    Except GateError Nat := do
  let source ← okOr state.artifacts[key]? .bounds
  reject (¬ source.rendered ∨ source.command.lane ≠ command.lane ∨
    source.command.candidate.scope ≠ command.candidate.scope) .bounds
  return max depth source.depth

/-- Depth of the artifact a command publishes. -/
def depthOf (state : SemanticState) (command : SemanticCommand) (scopes : ScopeRegistry) :
    Except GateError Nat :=
  if command.operation.lossy then do
    reject (command.sources = [] ∨ command.lane = 1) .bounds
    let depth ← command.sources.foldlM (state.sourceDepth command) 0
    reject (command.operation = .fold ∧ ¬ scopes.isClosed command.candidate.scope) .bounds
    if command.operation = .regenerate then
      return 0
    else do
      reject (2 ^ 32 ≤ depth + 1) .bounds
      return depth + 1
  else do
    reject (command.sources ≠ []) .bounds
    return 0

variable [Wire]

def put (state : SemanticState) (command : SemanticCommand) (validation : ValidationRecord)
    (scopes : ScopeRegistry) : Except GateError SemanticState := do
  reject (state.artifacts.contains command.key ∨ command.key.isEmpty ∨
    256 < command.key.utf8ByteSize ∨ command.storeHandle.isEmpty ∨ validation.verdict ≠ .pass ∨
    validation.candidateDigest ≠ candidateDigest command.candidate ∨
    ¬ (1 ≤ command.lane ∧ command.lane ≤ 4) ∨ maxGraphNodes ≤ state.artifacts.size) .bounds
  replayAuthority command validation
  let depth ← state.depthOf command scopes
  reject ((Std.ExtTreeSet.ofList command.sources compare).size ≠ command.sources.length) .bounds
  return {
    artifacts := (command.sources.foldl (fun artifacts key => artifacts.erase key)
      state.artifacts).insert command.key {
        command := command
        validation := validation
        rendered := decide (command.operation ≠ .note)
        depth := depth } }

/-- The artifact of one part of a split. -/
def childArtifact (original : SemanticArtifact) (id text : String) : SemanticArtifact :=
  let candidate := { original.command.candidate with artifact := text }
  { original with
    command := { original.command with key := id, candidate := candidate }
    validation := { original.validation with candidateDigest := candidateDigest candidate } }

/-- One step of the child loop. -/
def insertChild (original : SemanticArtifact) (key : String)
    (artifacts : BTreeMap String SemanticArtifact) (part : String × Nat) :
    Except GateError (BTreeMap String SemanticArtifact) := do
  let id := key ++ "/" ++ toString part.2
  reject (artifacts.contains id) .bounds
  return artifacts.insert id (childArtifact original id part.1)

def split (state : SemanticState) (key : String) (parts : List String) :
    Except GateError SemanticState := do
  let original ← okOr state.artifacts[key]? .bounds
  reject (parts.length < 2 ∨ maxAssertions < parts.length ∨ parts.any String.isEmpty ∨
    String.join parts ≠ original.command.candidate.artifact ∨
    maxGraphNodes < state.artifacts.size + parts.length) .bounds
  let artifacts ← parts.zipIdx.foldlM (insertChild original key) (state.artifacts.erase key)
  return ⟨artifacts⟩

def transition (event : SemanticEvent) (scopes : ScopeRegistry) (state : SemanticState) :
    Except GateError SemanticState :=
  match event with
  | .put command validation => state.put command validation scopes
  | .flushNotes =>
      .ok ⟨state.artifacts.map fun _ artifact => { artifact with rendered := true }⟩
  | .reclassify key lane => do
      let artifact ← okOr state.artifacts[key]? .bounds
      reject (lane < artifact.command.lane ∨ 4 < lane) .bounds
      return ⟨state.artifacts.modify key fun artifact =>
        { artifact with command := { artifact.command with lane := lane } }⟩
  | .resegment key parts => state.split key parts

def apply (event : SemanticEvent) (scopes : ScopeRegistry) :
    Method SemanticState GateError Unit :=
  Method.staged (transition event scopes)

/-- The tombstone of an artifact whose support was erased. -/
def eraseArtifact (leaf : String) (artifact : SemanticArtifact) : SemanticArtifact :=
  if (values artifact.validation.support).any fun leaves => leaves.contains leaf then
    let candidate := {
      artifact.command.candidate with
      artifact := erasedTombstone
      renderedText := erasedTombstone
      rendered := [] }
    { artifact with
      command := { artifact.command with candidate := candidate }
      validation := {
        artifact.validation with
        support := ∅
        candidateDigest := candidateDigest candidate
        verdict := .failProvenance .ungroundedRoot } }
  else
    artifact

/-- Erasure overlay: every dependent derivative becomes a tombstone. -/
def erase (state : SemanticState) (leaf : String) : SemanticState :=
  ⟨state.artifacts.map fun _ artifact => eraseArtifact leaf artifact⟩

def encode (state : SemanticState) : Bytes :=
  Sink.tag "semantic-projection" ++ Sink.blob (Wire.artifacts state.artifacts)

end SemanticState

end Llxprt.Kernel
