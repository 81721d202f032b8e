import Llxprt.Kernel.Wire
import Llxprt.Rust.Json
import Llxprt.Rust.Sha256

/-!
# Records as JSON

The derived serializers of the recorded types: a structure is an object with its
fields in declaration order, a variant is tagged by its name from outside, and
an ordered map is an object in key order.  Different values have different
documents.
-/

namespace Llxprt.Kernel

open Llxprt.Rust

namespace Recorded

/-- A variant with content, tagged from outside. -/
def tagged (variant : String) (content : Json) : Json :=
  .object [(variant, content)]

end Recorded

/-- A type with a derived serializer.  No document of the type is `null`, so that
optional fields can use it. -/
class Recorded (α : Type) where
  json : α → Json
  json_injective : ∀ left right, json left = json right → left = right := by
    -- a serializer writes every field and names every variant
    intro left right same
    cases left <;> cases right <;> simp_all [Recorded.tagged]
  json_ne_null : ∀ value, json value ≠ .null := by
    intro value
    cases value <;> simp [Recorded.tagged]

namespace Recorded

@[simp]
theorem json_inj {α : Type} [Recorded α] {left right : α} :
    json left = json right ↔ left = right := by
  constructor
  · exact json_injective left right
  · rintro rfl
    rfl

section Basic

instance : Recorded String where
  json := .string

instance : Recorded Bool where
  json := .bool

instance : Recorded Nat where
  json := .number

instance : Recorded UInt64 where
  json value := .number value.toNat
  json_injective _ _ same := UInt64.toNat_inj.mp (Json.number.inj same)

instance : Recorded UInt32 where
  json value := .number value.toNat
  json_injective _ _ same := UInt32.toNat_inj.mp (Json.number.inj same)

instance : Recorded UInt8 where
  json value := .number value.toNat
  json_injective _ _ same := UInt8.toNat_inj.mp (Json.number.inj same)

variable {α : Type} [Recorded α]

instance : Recorded (List α) where
  json values := .array (values.map json)
  json_injective left right same := by
    rw [Json.array.injEq] at same
    exact List.map_injective_iff.mpr json_injective same

/-- A pair is an array of two. -/
instance {β : Type} [Recorded β] : Recorded (α × β) where
  json value := .array [json value.1, json value.2]

/-- An ordered set is the array of its elements in order. -/
instance [Ord α] [Std.TransOrd α] [Std.LawfulEqOrd α] : Recorded (BTreeSet α) where
  json values := json values.toList
  json_injective left right same := by
    apply Std.ExtTreeSet.ext_mem
    intro value
    rw [← Std.ExtTreeSet.mem_toList, ← Std.ExtTreeSet.mem_toList, json_inj.mp same]
  json_ne_null values := json_ne_null values.toList

/-- An ordered map whose keys are written as text. -/
def jsonMap {κ : Type} [Ord κ] [Std.TransOrd κ] (text : κ → String) (map : BTreeMap κ α) : Json :=
  .object (map.toList.map fun entry => (text entry.1, json entry.2))

/-- A map is known from its entries in order. -/
theorem jsonMap_injective {κ : Type} [Ord κ] [Std.TransOrd κ] [Std.LawfulEqOrd κ]
    {text : κ → String} (texts : ∀ left right, text left = text right → left = right)
    {left right : BTreeMap κ α} (same : jsonMap text left = jsonMap text right) : left = right := by
  have entries : left.toList = right.toList := by
    rw [jsonMap, jsonMap, Json.object.injEq] at same
    apply List.map_injective_iff.mpr _ same
    rintro ⟨key, value⟩ ⟨otherKey, other⟩ samePair
    rcases Prod.mk.inj samePair with ⟨sameKey, sameValue⟩
    cases texts key otherKey sameKey
    cases json_inj.mp sameValue
    rfl
  apply Std.ExtTreeMap.ext_getElem?
  intro key
  apply Option.ext
  intro value
  rw [← Std.ExtTreeMap.mem_toList_iff_getElem?_eq_some, entries,
    Std.ExtTreeMap.mem_toList_iff_getElem?_eq_some]

instance : Recorded (BTreeMap String α) where
  json := jsonMap id
  json_injective _ _ := jsonMap_injective fun _ _ => id
  json_ne_null := by simp [jsonMap]

/-- Numbers are keys by their decimal digits. -/
instance : Recorded (BTreeMap Nat α) where
  json := jsonMap toString
  json_injective _ _ := by
    apply jsonMap_injective
    intro left right same
    have digits := congrArg String.toList same
    rw [Nat.toString_eq_ofList_toDigits, Nat.toString_eq_ofList_toDigits, String.toList_ofList,
      String.toList_ofList] at digits
    rw [← Nat.ofDigitChars_ten_toDigits (n := left), digits, Nat.ofDigitChars_ten_toDigits]
  json_ne_null := by simp [jsonMap]

/-- An optional field. -/
def optional : Option α → Json
  | none => .null
  | some value => json value

/-- An absent field differs from every present one. -/
@[simp]
theorem optional_inj {left right : Option α} : optional left = optional right ↔ left = right := by
  constructor
  · intro same
    cases left with
    | none =>
        cases right with
        | none => rfl
        | some value => exact absurd same.symm (json_ne_null value)
    | some value =>
        cases right with
        | none => exact absurd same (json_ne_null value)
        | some other => rw [json_inj.mp same]
  · rintro rfl
    rfl

end Basic

section Ledger

/-- A fact is named by subject, predicate and scope. -/
instance : Recorded FactId where
  json value := .object
    [("subject", json value.subject), ("predicate", json value.predicate),
      ("scope", json value.scope)]

/-- Variants without content are written as their names. -/
instance : Recorded Authority where
  json
    | .environment => .string "Environment"
    | .agent => .string "Agent"
    | .user => .string "User"
    | .operator => .string "Operator"

instance : Recorded Origin where
  json
    | .ingress => .string "Ingress"
    | .generated => .string "Generated"

instance : Recorded Source where
  json value := .object
    [("leaf", json value.leaf), ("authority", json value.authority),
      ("origin", json value.origin), ("scope", json value.scope)]

instance : Recorded FactClass where
  json
    | .obligation => .string "Obligation"
    | .convenience => .string "Convenience"

instance : Recorded FactKind where
  json
    | .normative => .string "Normative"
    | .empirical => .string "Empirical"

/-- Whether the evidence of a fact still holds. -/
instance : Recorded Freshness where
  json
    | .current => .string "Current"
    | .stale => .string "Stale"
    | .unknown => .string "Unknown"

instance : Recorded EvidenceStatus where
  json
    | .verified => .string "Verified"
    | .unverified => .string "Unverified"

instance : Recorded Grammar where
  json
    | .obligation => .string "Obligation"
    | .ambiguous => .string "Ambiguous"
    | .evidence => .string "Evidence"

/-- A newtype is written as its content. -/
instance : Recorded Utility where
  json utility := json utility.value
  json_ne_null utility := json_ne_null utility.value

/-- The counters behind the utility of an entry. -/
instance : Recorded Usage where
  json value := .object
    [("accesses", json value.accesses), ("reuses", json value.reuses),
      ("age_windows", json value.ageWindows)]

/-- The parameters that a ledger was opened with. -/
instance : Recorded LedgerParams where
  json value := .object
    [("version", json value.version), ("threshold", json value.threshold),
      ("capacity", json value.capacity),
      ("unconfirmed_capacity", json value.unconfirmedCapacity),
      ("protection_bytes", json value.protectionBytes),
      ("decay_interval", json value.decayInterval), ("access_weight", json value.accessWeight),
      ("reuse_weight", json value.reuseWeight), ("decay_weight", json value.decayWeight),
      ("consolidation_attempts", json value.consolidationAttempts)]

/-- The text of an entry and how often it was folded. -/
instance : Recorded CarryingFold where
  json value := .object
    [("text", json value.text), ("depth", json value.depth)]

instance : Recorded Entry where
  json value := .object
    [("id", json value.id), ("class", json value.factClass), ("kind", json value.kind),
      ("source", json value.source), ("freshness", json value.freshness),
      ("evidence", json value.evidence), ("unconfirmed", json value.unconfirmed),
      ("utility", json value.utility), ("usage", json value.usage),
      ("read_set", json value.readSet), ("premises", json value.premises),
      ("bindings", json value.bindings), ("fold", json value.fold),
      ("rendered", json value.rendered), ("retired", json value.retired),
      ("last_decay", json value.lastDecay), ("superseded_by", optional value.supersededBy)]

instance : Recorded GateSupport where
  json value := .object
    [("fact", json value.fact), ("claim", json value.claim),
      ("ingress_leaves", json value.ingressLeaves)]

instance : Recorded DischargeEvidence where
  json
    | .insufficient => .string "Insufficient"
    | .resolved support => tagged "Resolved" (json support)
    | .supersededBy successor => tagged "SupersededBy" (json successor)
    | .scopeClosed => .string "ScopeClosed"

/-- A read that refreshes what it supports. -/
instance : Recorded Observation where
  json value := .object
    [("source", json value.source), ("read_set", json value.readSet),
      ("supports", json value.supports)]

/-- A write that makes what it touches stale. -/
instance : Recorded ToolWrite where
  json value := .object
    [("call_id", json value.callId), ("tool", json value.tool), ("scope", json value.scope),
      ("sanitized", json value.sanitized)]

/-- Two entries that contradict each other. -/
instance : Recorded Conflict where
  json
    | .normative left right =>
        tagged "Normative" (.object [("left", json left), ("right", json right)])
    | .empirical left right =>
        tagged "Empirical" (.object [("left", json left), ("right", json right)])
    | .premiseInvalidated normative empirical =>
        tagged "PremiseInvalidated"
          (.object [("normative", json normative), ("empirical", json empirical)])

instance : Recorded Command where
  json
    | .admitObligation entry grammar =>
        tagged "AdmitObligation" (.object [("entry", json entry), ("grammar", json grammar)])
    | .admitConvenience entry => tagged "AdmitConvenience" (.object [("entry", json entry)])
    | .demote fact reclaim =>
        tagged "Demote" (.object [("fact", json fact), ("reclaim", json reclaim)])
    | .discharge fact evidence =>
        tagged "Discharge" (.object [("fact", json fact), ("evidence", json evidence)])
    | .consolidate facts composite support reclaim =>
        tagged "Consolidate"
          (.object [("facts", json facts), ("composite", json composite),
            ("support", json support), ("reclaim", json reclaim)])
    | .amend fact replacement principal =>
        tagged "Amend"
          (.object [("fact", json fact), ("replacement", json replacement),
            ("principal", json principal)])
    | .retract fact principal =>
        tagged "Retract" (.object [("fact", json fact), ("principal", json principal)])
    | .promote fact source adoption support =>
        tagged "Promote"
          (.object [("fact", json fact), ("source", json source), ("adoption", optional adoption),
            ("support", json support)])
    | .factInvalidate result writes =>
        tagged "FactInvalidate" (.object [("result", json result), ("writes", json writes)])
    | .revalidate observation => tagged "Revalidate" (.object [("observation", json observation)])
    | .staleDemote domains => tagged "StaleDemote" (.object [("domains", json domains)])
    | .decay fact usage => tagged "Decay" (.object [("fact", json fact), ("usage", json usage)])
    | .redact leaf => tagged "Redact" (.object [("leaf", json leaf)])

end Ledger

section Security

/-- A pin on an item, until it expires. -/
instance : Recorded Pin where
  json value := .object
    [("item", json value.item), ("owner", json value.owner), ("expires", json value.expires)]

instance : Recorded Escalation where
  json value := .object
    [("id", json value.id), ("operator", json value.operator), ("before", json value.before),
      ("after", json value.after), ("envelope_ceiling", json value.envelopeCeiling),
      ("complete", json value.complete)]

instance : Recorded Erasure where
  json value := .object
    [("leaf", json value.leaf), ("vault_handle", json value.vaultHandle),
      ("post_checkpoint", json value.postCheckpoint),
      ("pre_hashes_unverifiable", json value.preHashesUnverifiable)]

instance : Recorded SecurityEvent where
  json
    | .pin pin => tagged "Pin" (json pin)
    | .unpin item owner => tagged "Unpin" (.object [("item", json item), ("owner", json owner)])
    | .expire sequence => tagged "Expire" (.object [("sequence", json sequence)])
    | .escalatePending request => tagged "EscalatePending" (json request)
    | .escalateComplete id operator =>
        tagged "EscalateComplete" (.object [("id", json id), ("operator", json operator)])
    | .erase erasure => tagged "Erase" (json erasure)

instance : Recorded Adoption where
  json value := .object
    [("principal", json value.principal), ("candidate_digest", json value.candidateDigest),
      ("lane", json value.lane), ("scope", json value.scope)]

instance : Recorded LaneAuthority where
  json value := .object
    [("source", json value.source), ("adoption", optional value.adoption)]

end Security

section Validation

/-- A fact of a candidate with what it rests on. -/
instance : Recorded BoundFact where
  json value := .object
    [("statement", json value.statement), ("subject", json value.subject),
      ("predicate", json value.predicate), ("scope", json value.scope),
      ("command", json value.command), ("negated", json value.negated),
      ("temporal", json value.temporal)]

/-- A pointer of a candidate to an item. -/
instance : Recorded Pointer where
  json
    | .ingress id => tagged "Ingress" (json id)
    | .generated id => tagged "Generated" (json id)

/-- A folded text with its facts and pointers. -/
instance : Recorded Candidate where
  json value := .object
    [("artifact", json value.artifact), ("rendered_text", json value.renderedText),
      ("rendered", json value.rendered), ("roots", json value.roots),
      ("graph", json value.graph), ("pending_notes", json value.pendingNotes),
      ("scope", json value.scope)]

/-- Why the provenance of a candidate was refused. -/
instance : Recorded ProvenanceFailure where
  json
    | .cycle => .string "Cycle"
    | .ungroundedRoot => .string "UngroundedRoot"

/-- The variants of a verdict are renamed. -/
instance : Recorded Verdict where
  json
    | .pass => .string "pass"
    | .failCompleteness missing =>
        tagged "fail_completeness" (.object [("missing", json missing)])
    | .failPrecision unsupported =>
        tagged "fail_precision" (.object [("unsupported", json unsupported)])
    | .failProvenance reason => tagged "fail_provenance" (json reason)

instance : Recorded ValidationRecord where
  json value := .object
    [("candidate_digest", json value.candidateDigest), ("verdict", json value.verdict),
      ("support", json value.support), ("cap_pressure", json value.capPressure),
      ("refreshed", json value.refreshed),
      ("required_refinement_unavailable", json value.requiredRefinementUnavailable)]

instance : Recorded SemanticOperation where
  json
    | .note => .string "Note"
    | .readBack => .string "ReadBack"
    | .reopen => .string "Reopen"
    | .fold => .string "Fold"
    | .compact => .string "Compact"
    | .condense => .string "Condense"
    | .regenerate => .string "Regenerate"

instance : Recorded SemanticCommand where
  json value := .object
    [("operation", json value.operation), ("key", json value.key),
      ("sources", json value.sources), ("lane", json value.lane),
      ("candidate", json value.candidate), ("store_handle", json value.storeHandle),
      ("authority", optional value.authority)]

/-- A candidate with the record of its validation. -/
instance : Recorded SemanticArtifact where
  json value := .object
    [("command", json value.command), ("validation", json value.validation),
      ("rendered", json value.rendered), ("depth", json value.depth)]

/-- An artifact that is installed or falls back. -/
instance : Recorded SemanticEvent where
  json
    | .put command validation =>
        tagged "Put" (.object [("command", json command), ("validation", json validation)])
    | .flushNotes => .string "FlushNotes"
    | .reclassify key lane =>
        tagged "Reclassify" (.object [("key", json key), ("lane", json lane)])
    | .resegment key parts =>
        tagged "Resegment" (.object [("key", json key), ("parts", json parts)])

end Validation

section Branches

instance : Recorded ToolContract where
  json value := .object
    [("name", json value.name), ("read_only", json value.readOnly),
      ("reads", json value.reads), ("writes", json value.writes)]

instance : Recorded Limits where
  json value := .object
    [("depth", json value.depth), ("concurrency", json value.concurrency),
      ("context", json value.context), ("management", json value.management)]

instance : Recorded Spawn where
  json value := .object
    [("namespace", json value.nameSpace), ("parent", optional value.parent),
      ("parent_version", json value.parentVersion), ("scope", json value.scope),
      ("constitutional", json value.constitutional), ("notes", json value.notes),
      ("limits", json value.limits), ("tools", json value.tools)]

instance : Recorded Round where
  json value := .object
    [("call", json value.call), ("tool", json value.tool), ("reads", json value.reads),
      ("store_handle", json value.storeHandle), ("context_spend", json value.contextSpend),
      ("management_spend", json value.managementSpend), ("complete", json value.complete)]

instance : Recorded ReturnStatus where
  json
    | .currentEvidence => .string "CurrentEvidence"
    | .suggestionNeedsRevalidation => .string "SuggestionNeedsRevalidation"

instance : Recorded Returned where
  json value := .object
    [("handle", json value.handle), ("digest", json value.digest),
      ("status", json value.status), ("revalidate", json value.revalidate)]

instance : Recorded Branch where
  json value := .object
    [("spawn", json value.spawn), ("depth", json value.depth), ("rounds", json value.rounds),
      ("reads", json value.reads), ("context_spend", json value.contextSpend),
      ("management_spend", json value.managementSpend), ("returned", optional value.returned),
      ("aborted", json value.aborted)]

instance : Recorded BranchEvent where
  json
    | .openBranch spawn => tagged "Open" (json spawn)
    | .roundBranch nameSpace round =>
        tagged "Round" (.object [("namespace", json nameSpace), ("round", json round)])
    | .returnBranch nameSpace returned =>
        tagged "Return" (.object [("namespace", json nameSpace), ("returned", json returned)])
    | .abortBranch nameSpace => tagged "Abort" (.object [("namespace", json nameSpace)])

end Branches

/-- The bytes of a document. -/
def documentBytes (json : Json) : Bytes :=
  utf8 (String.ofList json.print)

/-- The serialized bytes of a value. -/
def serialize {α : Type} [Recorded α] (value : α) : Bytes :=
  documentBytes (json value)

theorem fromUTF8?_utf8 (text : String) : String.fromUTF8? ⟨(utf8 text).toArray⟩ = some text := by
  simp only [String.fromUTF8?, utf8, String.fromUTF8, Array.toArray_toList]
  exact dif_pos text.isValidUTF8

/-- Texts with the same bytes are the same. -/
theorem utf8_injective {left right : String} (same : utf8 left = utf8 right) : left = right := by
  have leftRead := fromUTF8?_utf8 left
  rw [same, fromUTF8?_utf8 right] at leftRead
  exact (Option.some.inj leftRead).symm

/-- Documents with the same bytes are the same. -/
theorem documentBytes_injective {left right : Json} (same : documentBytes left = documentBytes right) :
    left = right :=
  Json.print_injective (String.ofList_injective (utf8_injective same))

/-- Different values have different bytes. -/
theorem serialize_injective {α : Type} [Recorded α] {left right : α}
    (same : serialize left = serialize right) : left = right :=
  json_injective _ _ (documentBytes_injective same)

end Recorded

open Recorded in
/-- The JSON library and the digest that the kernel uses. -/
@[reducible]
def Wire.serde : Wire where
  ledgerCommand := serialize
  semanticEvent := serialize
  branchEvent := serialize
  securityEvent := serialize
  ledgerParams := serialize
  ledgerEntry := serialize
  ledgerConflicts := serialize
  domainVersions := serialize
  toolResults := serialize
  securityState pins escalations erased :=
    documentBytes (.array [json pins, json escalations, json erased])
  artifacts := serialize
  branches := serialize
  candidate := serialize
  sha256 := Sha256.digest

end Llxprt.Kernel
