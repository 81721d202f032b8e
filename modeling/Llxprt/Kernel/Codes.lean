import Llxprt.Kernel.Events
import Llxprt.Kernel.Serde
import Llxprt.Rust.Readable

/-!
# Canonical bodies

Every part of a body announces its own end: an integer by its eight bytes, a
byte string by its length, a variant by its tag, a list by its count.  So a body
is read in only one way, and equal digests of different bodies are collisions of
the hash.
-/

namespace Llxprt.Kernel

open Llxprt.Rust

section Parts

/-- A number that its machine integer can hold. -/
def Machine (value : Nat) : Prop :=
  value < 2 ^ 64

instance : DecidablePred Machine :=
  fun _ => Nat.decLt _ _

theorem int_readable : Readable Anything Anything Sink.int := by
  apply Readable.of_length fun value _ => length_leBytes value
  intro left right _ _ same
  have numbers := congrArg Rust.ofLittleEndian same
  simp only [ofLittleEndian_leBytes] at numbers
  exact UInt64.toNat_inj.mp numbers

theorem count_readable : Readable Machine Anything Sink.count := by
  apply int_readable.comap fun _ _ => trivial
  intro left right leftFits rightFits same
  have numbers := congrArg UInt64.toNat same
  rwa [UInt64.toNat_ofNat_of_lt' leftFits, UInt64.toNat_ofNat_of_lt' rightFits] at numbers

theorem blob_readable : Readable (fun value => Machine value.length) Anything Sink.blob := by
  intro left right leftRest rightRest leftFits rightFits _ _ same
  rw [Sink.blob, Sink.blob, List.append_assoc, List.append_assoc] at same
  rcases count_readable leftFits rightFits trivial trivial same with ⟨lengths, rest⟩
  exact List.append_inj rest lengths

theorem text_readable :
    Readable (fun text => Machine (utf8 text).length) Anything fun text => Sink.blob (utf8 text) :=
  blob_readable.comap (fun _ fits => fits) fun _ _ _ _ => Recorded.utf8_injective

theorem tag_readable : Readable (fun text => Machine (utf8 text).length) Anything Sink.tag :=
  text_readable

end Parts

section Names

/-- The name that a claim's class is encoded by. -/
def claimName (structural : Option StructuralClass) : String :=
  structural.elim "unclassified" StructuralClass.name

theorem SegmentClaim.encode_eq (claim : SegmentClaim) : claim.encode =
    Sink.int claim.span.offset ++ (Sink.int claim.span.length ++
      Sink.tag (claimName claim.structural)) := by
  rw [SegmentClaim.encode, List.append_assoc]
  cases claim.structural <;> rfl

theorem machine_claimName (structural : Option StructuralClass) :
    Machine (utf8 (claimName structural)).length := by
  rcases structural with _ | structural
  · unfold Machine
    decide +kernel
  · cases structural <;> unfold Machine <;> decide +kernel

theorem claimName_injective {left right : Option StructuralClass}
    (same : claimName left = claimName right) : left = right := by
  rcases left with _ | left <;> rcases right with _ | right
  · rfl
  · cases right <;> simp [claimName, StructuralClass.name] at same
  · cases left <;> simp [claimName, StructuralClass.name] at same
  · cases left <;> cases right <;> simp [claimName, StructuralClass.name] at same ⊢

theorem claim_readable : Readable Anything Anything SegmentClaim.encode := by
  intro left right leftRest rightRest _ _ _ _ same
  rw [SegmentClaim.encode_eq, SegmentClaim.encode_eq] at same
  simp only [List.append_assoc] at same
  rcases int_readable trivial trivial trivial trivial same with ⟨offset, same⟩
  rcases int_readable trivial trivial trivial trivial same with ⟨length, same⟩
  rcases tag_readable (machine_claimName _) (machine_claimName _) trivial trivial same with
    ⟨name, rest⟩
  rcases left with ⟨⟨leftOffset, leftLength⟩, leftClass⟩
  rcases right with ⟨⟨rightOffset, rightLength⟩, rightClass⟩
  cases offset
  cases length
  cases claimName_injective name
  exact ⟨rfl, rest⟩

theorem OperationClass.machine_name (operationClass : OperationClass) :
    Machine (utf8 operationClass.name).length := by
  cases operationClass <;> unfold Machine <;> decide +kernel

theorem OperationClass.name_injective {left right : OperationClass}
    (same : left.name = right.name) : left = right := by
  cases left <;> cases right <;> simp [OperationClass.name] at same ⊢

theorem ProviderTurnKind.code_injective {left right : ProviderTurnKind}
    (same : left.code = right.code) : left = right := by
  cases left <;> cases right <;> simp [ProviderTurnKind.code] at same ⊢

/-- The texts of a source fit their lengths. -/
def AppendSource.Representable : AppendSource → Prop
  | user | assistant => True
  | toolResult callId tool => Machine (utf8 callId).length ∧ Machine (utf8 tool).length

/-- The tag of a source. -/
def AppendSource.label : AppendSource → String
  | user => "user"
  | assistant => "assistant"
  | toolResult .. => "tool-result"

theorem AppendSource.machine_label (source : AppendSource) :
    Machine (utf8 source.label).length := by
  cases source <;> simp only [label] <;> unfold Machine <;> decide +kernel

/-- What follows the tag of a source. -/
def AppendSource.payload : AppendSource → Bytes
  | user | assistant => []
  | toolResult callId tool => Sink.blob (utf8 callId) ++ Sink.blob (utf8 tool)

theorem AppendSource.encode_eq (source : AppendSource) :
    source.encode = Sink.tag source.label ++ source.payload := by
  cases source with
  | user => exact (List.append_nil _).symm
  | assistant => exact (List.append_nil _).symm
  | toolResult callId tool => exact List.append_assoc _ _ _

theorem source_readable :
    Readable AppendSource.Representable Anything AppendSource.encode := by
  intro left right leftRest rightRest leftFits rightFits _ _ same
  rw [AppendSource.encode_eq, AppendSource.encode_eq, List.append_assoc, List.append_assoc] at same
  rcases tag_readable left.machine_label right.machine_label trivial trivial same with
    ⟨labels, same⟩
  cases left <;> cases right <;> simp [AppendSource.label] at labels
  · exact ⟨rfl, same⟩
  · exact ⟨rfl, same⟩
  · simp only [AppendSource.payload, List.append_assoc] at same
    rcases text_readable leftFits.1 rightFits.1 trivial trivial same with ⟨callId, more⟩
    rcases text_readable leftFits.2 rightFits.2 trivial trivial more with ⟨tool, rest⟩
    rw [callId, tool]
    exact ⟨rfl, rest⟩

end Names

section Bodies

variable [Wire]

/-- The encoders of the boxed events tell different events apart. -/
structure Wire.Injective : Prop where
  semanticEvent : ∀ left right : SemanticEvent,
    Wire.semanticEvent left = Wire.semanticEvent right → left = right
  branchEvent : ∀ left right : BranchEvent,
    Wire.branchEvent left = Wire.branchEvent right → left = right
  securityEvent : ∀ left right : SecurityEvent,
    Wire.securityEvent left = Wire.securityEvent right → left = right
  ledgerCommand : ∀ left right : Command,
    Wire.ledgerCommand left = Wire.ledgerCommand right → left = right

namespace EventKind

/-- Every length of the event is a machine integer. -/
def Representable : EventKind → Prop
  | append source sanitized _ claims =>
      source.Representable ∧ Machine sanitized.length ∧ Machine claims.length
  | semantic event => Machine (Wire.semanticEvent event).length
  | branch event => Machine (Wire.branchEvent event).length
  | security event => Machine (Wire.securityEvent event).length
  | ledger command => Machine (Wire.ledgerCommand command).length
  | operationCommit .. | providerTurn .. => True

omit [Wire] in
/-- The tag of an event. -/
def label : EventKind → String
  | append .. => "append"
  | semantic _ => "semantic"
  | branch _ => "branch"
  | security _ => "security"
  | ledger _ => "ledger"
  | operationCommit .. => "operation"
  | providerTurn .. => "provider-turn"

omit [Wire] in
theorem machine_label (kind : EventKind) : Machine (utf8 kind.label).length := by
  cases kind <;> simp only [label] <;> unfold Machine <;> decide +kernel

/-- What follows the tag of an event. -/
def payload : EventKind → Bytes
  | append source sanitized scope claims =>
      source.encode ++ (Sink.blob sanitized ++ (Sink.int scope ++
        (Sink.count claims.length ++ claims.flatMap SegmentClaim.encode)))
  | semantic event => Sink.blob (Wire.semanticEvent event)
  | branch event => Sink.blob (Wire.branchEvent event)
  | security event => Sink.blob (Wire.securityEvent event)
  | ledger command => Sink.blob (Wire.ledgerCommand command)
  | operationCommit operationClass subject argument =>
      Sink.tag operationClass.name ++ (Sink.int subject ++ Sink.int argument)
  | providerTurn kind requestUnits => Sink.int kind.code ++ Sink.int requestUnits

theorem encode_eq (kind : EventKind) : kind.encode = Sink.tag kind.label ++ kind.payload := by
  cases kind <;> simp only [encode, label, payload, List.append_assoc]

end EventKind

/-- The seven kinds of event are told apart by their tags, and each is read in one way. -/
theorem kind_readable (injective : Wire.Injective) :
    Readable EventKind.Representable Anything EventKind.encode := by
  intro left right leftRest rightRest leftFits rightFits _ _ same
  rw [EventKind.encode_eq, EventKind.encode_eq, List.append_assoc, List.append_assoc] at same
  rcases tag_readable left.machine_label right.machine_label trivial trivial same with
    ⟨labels, same⟩
  cases left <;> cases right <;> simp [EventKind.label] at labels <;>
    simp only [EventKind.payload, List.append_assoc] at same
  case append.append =>
      rcases source_readable leftFits.1 rightFits.1 trivial trivial same with ⟨source, text⟩
      rcases blob_readable leftFits.2.1 rightFits.2.1 trivial trivial text with ⟨sanitized, scope⟩
      rcases int_readable trivial trivial trivial trivial scope with ⟨scope, counted⟩
      rcases count_readable leftFits.2.2 rightFits.2.2 trivial trivial counted with
        ⟨counts, listed⟩
      rcases claim_readable.flatMap_of_length ⟨fun _ _ => trivial, counts⟩
        ⟨fun _ _ => trivial, rfl⟩ trivial trivial listed with ⟨claims, rest⟩
      rw [source, sanitized, scope, claims]
      exact ⟨rfl, rest⟩
  case semantic.semantic =>
      rcases blob_readable leftFits rightFits trivial trivial same with ⟨bytes, rest⟩
      rw [injective.semanticEvent _ _ bytes]
      exact ⟨rfl, rest⟩
  case branch.branch =>
      rcases blob_readable leftFits rightFits trivial trivial same with ⟨bytes, rest⟩
      rw [injective.branchEvent _ _ bytes]
      exact ⟨rfl, rest⟩
  case security.security =>
      rcases blob_readable leftFits rightFits trivial trivial same with ⟨bytes, rest⟩
      rw [injective.securityEvent _ _ bytes]
      exact ⟨rfl, rest⟩
  case ledger.ledger =>
      rcases blob_readable leftFits rightFits trivial trivial same with ⟨bytes, rest⟩
      rw [injective.ledgerCommand _ _ bytes]
      exact ⟨rfl, rest⟩
  case operationCommit.operationCommit =>
      rcases tag_readable (OperationClass.machine_name _) (OperationClass.machine_name _) trivial
        trivial same with ⟨names, numbers⟩
      rcases int_readable trivial trivial trivial trivial numbers with ⟨subject, number⟩
      rcases int_readable trivial trivial trivial trivial number with ⟨argument, rest⟩
      rw [OperationClass.name_injective names, subject, argument]
      exact ⟨rfl, rest⟩
  case providerTurn.providerTurn =>
      rcases int_readable trivial trivial trivial trivial same with ⟨codes, number⟩
      rcases int_readable trivial trivial trivial trivial number with ⟨units, rest⟩
      rw [ProviderTurnKind.code_injective codes, units]
      exact ⟨rfl, rest⟩

namespace RecordedEvent

/-- Every number of the event is a machine integer. -/
structure Representable (event : RecordedEvent) : Prop where
  sequence : Machine event.sequence
  epoch : Machine event.epoch
  recordedUnixMs : Machine event.recordedUnixMs
  kind : event.kind.Representable

omit [Wire] in
/-- Everything the body of an event stands for. -/
structure SameBody (left right : RecordedEvent) : Prop where
  sequence : left.sequence = right.sequence
  epoch : left.epoch = right.epoch
  recordedUnixMs : left.recordedUnixMs = right.recordedUnixMs
  schemaVersion : left.schemaVersion = right.schemaVersion
  storeVersion : left.storeVersion = right.storeVersion
  kind : left.kind = right.kind

/-- Two different byte strings with one digest. -/
def Collide (first second : Bytes) : Prop :=
  first ≠ second ∧ digest first = digest second

end RecordedEvent

variable {left right : RecordedEvent}

theorem sameBody_of_encodeBody (injective : Wire.Injective) (leftFits : left.Representable)
    (rightFits : right.Representable) (same : left.encodeBody = right.encodeBody) :
    left.SameBody right := by
  unfold RecordedEvent.encodeBody at same
  simp only [List.append_assoc] at same
  rcases count_readable leftFits.sequence rightFits.sequence trivial trivial same with
    ⟨sequence, marked⟩
  rcases List.append_inj marked rfl with ⟨-, header⟩
  rcases count_readable leftFits.epoch rightFits.epoch trivial trivial header with ⟨epoch, header⟩
  rcases count_readable leftFits.recordedUnixMs rightFits.recordedUnixMs trivial trivial header
    with ⟨recordedUnixMs, header⟩
  rcases int_readable trivial trivial trivial trivial header with ⟨schemaVersion, header⟩
  rcases int_readable trivial trivial trivial trivial header with ⟨storeVersion, body⟩
  have kind := (kind_readable injective).injective trivial leftFits.kind rightFits.kind body
  exact ⟨sequence, epoch, recordedUnixMs, schemaVersion, storeVersion, kind⟩

/-- Equal bodies are bodies of one event.  When two events share a body digest or a chain
checksum, they are the same event or the very bytes that were hashed for them collide. -/
theorem encodeBody_canonical (injective : Wire.Injective) (leftFits : left.Representable)
    (rightFits : right.Representable) :
    (left.encodeBody = right.encodeBody → left.SameBody right) ∧
    (HashScope.eventChain.digest left.encodeBody = HashScope.eventChain.digest right.encodeBody →
      left.SameBody right ∨
        RecordedEvent.Collide (HashScope.eventChain.salt ++ left.encodeBody)
          (HashScope.eventChain.salt ++ right.encodeBody)) ∧
    ∀ leftPrevious rightPrevious : Digest,
      HashScope.eventChain.chain leftPrevious left.encodeBody =
          HashScope.eventChain.chain rightPrevious right.encodeBody →
      (leftPrevious = rightPrevious ∧ left.SameBody right) ∨
        RecordedEvent.Collide (HashScope.eventChain.salt ++ leBytes leftPrevious ++ left.encodeBody)
          (HashScope.eventChain.salt ++ leBytes rightPrevious ++ right.encodeBody) := by
  constructor
  · exact sameBody_of_encodeBody injective leftFits rightFits
  · constructor
    · intro digests
      by_cases bytes : HashScope.eventChain.salt ++ left.encodeBody =
          HashScope.eventChain.salt ++ right.encodeBody
      · left
        exact sameBody_of_encodeBody injective leftFits rightFits (List.append_cancel_left bytes)
      · exact Or.inr ⟨bytes, digests⟩
    · intro leftPrevious rightPrevious checksums
      by_cases bytes : HashScope.eventChain.salt ++ leBytes leftPrevious ++ left.encodeBody =
          HashScope.eventChain.salt ++ leBytes rightPrevious ++ right.encodeBody
      · left
        rw [List.append_assoc, List.append_assoc] at bytes
        rcases int_readable trivial trivial trivial trivial (List.append_cancel_left bytes) with
          ⟨previous, bodies⟩
        exact ⟨previous, sameBody_of_encodeBody injective leftFits rightFits bodies⟩
      · exact Or.inr ⟨bytes, checksums⟩

end Bodies

section Serialized

/-- The JSON library tells different events apart. -/
theorem injective_serde : @Wire.Injective .serde :=
  @Wire.Injective.mk .serde (fun _ _ => Recorded.serialize_injective)
    (fun _ _ => Recorded.serialize_injective) (fun _ _ => Recorded.serialize_injective)
    fun _ _ => Recorded.serialize_injective

/-- An append with one claim that has no class. -/
def claimedAppend : RecordedEvent :=
  ⟨1, 1, 1000, 3, 3, .append (.toolResult "call" "read_file") [1, 2] 0 [⟨⟨0, 2⟩, none⟩], 0, 0⟩

/-- The same bytes as two claims. -/
def splitAppend : RecordedEvent :=
  ⟨1, 1, 1000, 3, 3,
    .append (.toolResult "call" "read_file") [1, 2] 0 [⟨⟨0, 1⟩, none⟩, ⟨⟨1, 1⟩, none⟩], 0, 0⟩

/-- The two splits have different bodies. -/
theorem encodeBody_canonical_appends :
    @RecordedEvent.encodeBody .serde claimedAppend ≠ @RecordedEvent.encodeBody .serde splitAppend := by
  intro same
  have source : (AppendSource.toolResult "call" "read_file").Representable := by
    constructor <;> unfold Machine <;> decide +kernel
  have claimed : @RecordedEvent.Representable .serde claimedAppend :=
    @RecordedEvent.Representable.mk .serde _ (by decide) (by decide) (by decide)
      ⟨source, by decide, by decide⟩
  have split : @RecordedEvent.Representable .serde splitAppend :=
    @RecordedEvent.Representable.mk .serde _ (by decide) (by decide) (by decide)
      ⟨source, by decide, by decide⟩
  have body := (@encodeBody_canonical .serde _ _ injective_serde claimed split).1 same
  exact absurd body.kind (by decide)

end Serialized

end Llxprt.Kernel
