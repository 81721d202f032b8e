import Llxprt.Kernel.Erasure
import Llxprt.Kernel.Validation.Artifacts

/-!
# Artifacts of erased leaves

An erasure leaves a tombstone wherever the projection rested on the leaf.  The
tombstone may still be reclassified, flushed or divided, and it stays without
support until it is consumed.
-/

namespace Llxprt.Kernel.Reducer

open Llxprt.Rust SemanticState

/-- No artifact of the projection rests on an erased leaf. -/
def Unsupported (governed : Governed) : Prop :=
  ∀ leaf ∈ governed.security.erased, ∀ (key : String) artifact,
    governed.semantic.artifacts[key]? = some artifact → ¬ artifact.RestsOn leaf

section Moves

variable [Wire] {sequence : Nat} {kind : EventKind} {before after : Governed} {key : String}
  {artifact current : SemanticArtifact}

/-- A key that is taken before and after an event names the same content or its
tombstone. -/
theorem Governs.artifact_kept (governs : Governs sequence kind before after)
    (present : before.semantic.artifacts[key]? = some artifact)
    (remains : after.semantic.artifacts[key]? = some current) :
    SameContent artifact current ∨ Tombstone current := by
  have unchanged (same : after.semantic.artifacts[key]? = before.semantic.artifacts[key]?) :
      SameContent artifact current ∨ Tombstone current := by
    rw [same, present] at remains
    cases remains
    exact .inl .refl
  cases governs with
  | kept | revoked | commanded | branched | secured => exact unchanged rfl
  | projected supported moved =>
      cases transition_origin moved remains with
      | kept found same =>
          cases present.symm.trans found
          exact .inl same
      | published absent => cases present.symm.trans absent
      | divided absent => cases present.symm.trans absent
  | @erased erasure _ _ _ moved =>
      rw [Governed.erase, erase_artifacts, present, Option.map_some, Option.some.injEq] at remains
      by_cases rests : artifact.RestsOn erasure.leaf
      · rw [← remains]
        exact .inr (eraseArtifact_of_restsOn rests)
      · rw [← remains, eraseArtifact_of_not_restsOn rests]
        exact .inl .refl

/-- What a division creates are parts of the divided artifact. -/
theorem Governs.artifact_divided {part : String} {parts : List String}
    (governs : Governs sequence (.semantic (.resegment key parts)) before after)
    (present : before.semantic.artifacts[key]? = some artifact)
    (absent : before.semantic.artifacts[part]? = none)
    (created : after.semantic.artifacts[part]? = some current) :
    ∃ text, text.toList <:+: artifact.command.candidate.artifact.toList ∧
      current = childArtifact artifact part text ∧ key.toList.length < part.toList.length := by
  cases governs with
  | kept isUngoverned => cases isUngoverned
  | projected supported moved =>
      cases transition_origin moved created with
      | kept found => cases absent.symm.trans found
      | published _ isPut => cases isPut
      | divided _ isDivision found whole listed isChild same =>
          cases isDivision
          cases present.symm.trans found
          have piece := part_infix (List.mem_of_getElem? listed)
          rw [whole] at piece
          exact ⟨_, piece, same, isChild ▸ length_childKey key _⟩

/-- An erased leaf supports nothing after the event either: a publication is
checked against the erased leaves, and nothing else brings support in. -/
theorem Governs.unsupported (governs : Governs sequence kind before after)
    (unsupported : Unsupported before) : Unsupported after := by
  intro leaf member key current found
  cases governs with
  | kept | revoked | commanded | branched => exact unsupported leaf member key current found
  | secured noErasure moved =>
      rw [transition_erased noErasure moved] at member
      exact unsupported leaf member key current found
  | projected supported moved =>
      cases transition_origin moved found with
      | kept present same =>
          rw [same.restsOn]
          exact unsupported leaf member key _ present
      | published _ isPut =>
          rintro ⟨leaves, listed, mentions⟩
          rw [isPut] at supported
          exact supported leaves listed leaf mentions member
      | divided _ _ present _ _ _ same =>
          subst same
          have free := unsupported leaf member _ _ present
          exact free
  | @erased erasure _ _ _ moved =>
      rw [Governed.erase, erase_artifacts, Option.map_eq_some_iff] at found
      rcases found with ⟨artifact, present, rfl⟩
      by_cases rests : artifact.RestsOn erasure.leaf
      · exact not_restsOn_of_empty (eraseArtifact_of_restsOn rests).support
      · rw [eraseArtifact_of_not_restsOn rests]
        rw [Governed.erase, erase_erased moved, Std.ExtTreeMap.mem_insert,
          Std.LawfulEqOrd.compare_eq_iff_eq] at member
        rcases member with rfl | earlier
        · exact rests
        · exact unsupported leaf earlier key artifact present

end Moves

section Lineage

variable [Wire] {window : Nat} {log : EventLog} {first count : Nat} {key heir leaf : String}
  {artifact current : SemanticArtifact} {state final : TypedState}

/-- The keys under which the artifact of `key` lives on at the later stages of a
fold: its own as long as it stays, and those of the parts it is divided into. -/
inductive Heir (window : Nat) (log : EventLog) (first : Nat) (key : String) : Nat → String → Prop
  | itself : Heir window log first key first key
  | kept {count : Nat} {heir : String} {after : TypedState}
      (inherits : Heir window log first key count heir) (isEvent : count < log.events.length)
      (afterOk : fold window (log.prefixLog (count + 1)) = .ok after)
      (remains : heir ∈ after.semantic.artifacts) : Heir window log first key (count + 1) heir
  | part {count : Nat} {parent part : String} {parts : List String} {before after : TypedState}
      (inherits : Heir window log first key count parent)
      (isDivision : log.kindAt count = some (.semantic (.resegment parent parts)))
      (beforeOk : fold window (log.prefixLog count) = .ok before)
      (afterOk : fold window (log.prefixLog (count + 1)) = .ok after)
      (absent : part ∉ before.semantic.artifacts) (created : part ∈ after.semantic.artifacts) :
      Heir window log first key (count + 1) part

/-- What an heir holds: the support of the artifact, or a piece of a tombstone.
Under the artifact's own key it is the whole tombstone. -/
structure Inherited (key : String) (artifact : SemanticArtifact) (heir : String)
    (current : SemanticArtifact) : Prop where
  longer : key.toList.length ≤ heir.toList.length
  content : current.validation.support = artifact.validation.support ∨ Fragment current
  own : heir = key → current.validation.support = artifact.validation.support ∨ Tombstone current

omit [Wire] in
theorem Inherited.kept {next : SemanticArtifact} (inherited : Inherited key artifact heir current)
    (moved : SameContent current next ∨ Tombstone next) : Inherited key artifact heir next := by
  refine ⟨inherited.longer, ?_, fun isOwn => ?_⟩
  · rcases moved with same | tombstone
    · rcases inherited.content with support | fragment
      · exact .inl (by rw [same.validation, support])
      · exact .inr (same.fragment fragment)
    · exact .inr tombstone.fragment
  · rcases moved with same | tombstone
    · rcases inherited.own isOwn with support | tombstone
      · exact .inl (by rw [same.validation, support])
      · exact .inr (same.tombstone tombstone)
    · exact .inr tombstone

theorem Inherited.part {part text : String} (inherited : Inherited key artifact heir current)
    (piece : text.toList <:+: current.command.candidate.artifact.toList)
    (longer : heir.toList.length < part.toList.length) :
    Inherited key artifact part (childArtifact current part text) := by
  have strictly := Nat.lt_of_le_of_lt inherited.longer longer
  refine ⟨Nat.le_of_lt strictly, ?_, fun isOwn => ?_⟩
  · rcases inherited.content with support | fragment
    · exact .inl support
    · exact .inr ⟨piece.trans fragment.text, fragment.renderedText, fragment.rendered,
        fragment.support, fragment.verdict⟩
  · rw [isOwn] at strictly
    exact absurd strictly (Nat.lt_irrefl _)

/-- Along a lineage the support is kept until it is erased. -/
theorem Heir.inherited {origin : TypedState} (folds : fold window log = .ok final)
    (originOk : fold window (log.prefixLog first) = .ok origin)
    (present : origin.semantic.artifacts[key]? = some artifact)
    (inherits : Heir window log first key count heir) :
    ∀ state, fold window (log.prefixLog count) = .ok state →
      ∃ current, state.semantic.artifacts[heir]? = some current ∧
        Inherited key artifact heir current := by
  induction inherits with
  | itself =>
      intro state stateOk
      cases originOk.symm.trans stateOk
      exact ⟨artifact, present, Nat.le_refl _, .inl rfl, fun _ => .inl rfl⟩
  | @kept count heir after _ isEvent afterOk remains ih =>
      intro state stateOk
      cases afterOk.symm.trans stateOk
      rcases exists_fold_prefixLog folds count with ⟨before, beforeOk⟩
      rcases ih before beforeOk with ⟨current, currentPresent, inherited⟩
      have governs := stage_governs (List.getElem?_eq_getElem isEvent) beforeOk afterOk
      have found := Std.ExtTreeMap.getElem?_eq_some_getElem remains
      have moved := governs.artifact_kept currentPresent found
      exact ⟨_, found, inherited.kept moved⟩
  | part _ isDivision beforeOk afterOk absent created ih =>
      intro state stateOk
      cases afterOk.symm.trans stateOk
      rcases ih _ beforeOk with ⟨current, currentPresent, inherited⟩
      rcases Option.map_eq_some_iff.mp isDivision with ⟨event, found, kind⟩
      have governs := stage_governs found beforeOk afterOk
      rw [kind] at governs
      have createdArtifact := Std.ExtTreeMap.getElem?_eq_some_getElem created
      rcases governs.artifact_divided currentPresent (Std.ExtTreeMap.getElem?_eq_none absent)
        createdArtifact with ⟨text, piece, same, longer⟩
      rw [same] at createdArtifact
      exact ⟨_, createdArtifact, inherited.part piece longer⟩

theorem stage_unsupported (folds : fold window log = .ok final) :
    ∀ count state, count ≤ log.events.length → fold window (log.prefixLog count) = .ok state →
      Unsupported state.governed := by
  apply stage_induction (fun _ state => Unsupported state.governed) folds
  · intro leaf member
    exact absurd member Std.ExtTreeMap.not_mem_empty
  · intro count event before after found beforeOk afterOk _ unsupported
    exact (stage_governs found beforeOk afterOk).unsupported unsupported

/-- Erased leaves support no artifact at the end of a fold, whatever once rested
on one of them is a tombstone or a piece of one, and no event after an erasure
restores the support. -/
theorem semantic_erasure (window : Nat) (log : EventLog) (state : TypedState)
    (folds : fold window log = .ok state) :
    (∀ leaf ∈ state.security.erased, ∀ (key : String) artifact,
      state.semantic.artifacts[key]? = some artifact → ¬ artifact.RestsOn leaf) ∧
    (∀ first origin key artifact leaf heir, fold window (log.prefixLog first) = .ok origin →
      origin.semantic.artifacts[key]? = some artifact → artifact.RestsOn leaf →
      leaf ∈ state.security.erased → Heir window log first key log.events.length heir →
      ∃ current, state.semantic.artifacts[heir]? = some current ∧ Fragment current ∧
        (heir = key → Tombstone current)) ∧
    ∀ index erasure, log.kindAt index = some (.security (.erase erasure)) →
      ∀ count later, index < count → fold window (log.prefixLog count) = .ok later →
        ∀ (key : String) artifact, later.semantic.artifacts[key]? = some artifact →
          ¬ artifact.RestsOn erasure.leaf := by
  have finalOk : fold window (log.prefixLog log.events.length) = .ok state := by
    rw [EventLog.prefixLog_length]
    exact folds
  have finalUnsupported := stage_unsupported folds _ state (Nat.le_refl _) finalOk
  refine ⟨finalUnsupported, ?_, ?_⟩
  · intro first origin key artifact leaf heir originOk present rests member inherits
    rcases inherits.inherited folds originOk present state finalOk with
      ⟨current, found, inherited⟩
    have free := finalUnsupported leaf member heir current found
    have lost : current.validation.support ≠ artifact.validation.support := by
      intro same
      apply free
      rw [SemanticArtifact.RestsOn, same]
      exact rests
    refine ⟨current, found, inherited.content.resolve_left lost, fun isOwn => ?_⟩
    exact (inherited.own isOwn).resolve_left lost
  · intro index erasure isErasure count later earlier laterOk
    rw [← EventLog.prefixLog_min] at laterOk
    rcases Option.map_eq_some_iff.mp isErasure with ⟨event, found, _⟩
    have short : index < log.events.length := (List.getElem?_eq_some_iff.mp found).choose
    have inRange := Nat.min_le_right count log.events.length
    apply stage_unsupported folds _ later inRange laterOk
    apply (stage_erased folds _ later inRange laterOk _).mpr
    exact ⟨index, Nat.lt_min.mpr ⟨earlier, short⟩, erasure, isErasure, rfl⟩

end Lineage

section Summary

local instance summaryWire : Wire := .serde

def summaryCandidate : Candidate where
  artifact := "summary"
  renderedText := "summary"
  rendered := []
  roots := [.ingress "leaf"]
  graph := ∅
  pendingNotes := ∅
  scope := 1

def summaryCommand : SemanticCommand where
  operation := .note
  key := "summary"
  sources := []
  lane := 3
  candidate := summaryCandidate
  storeHandle := "store"
  authority := none

def summaryValidation : ValidationRecord where
  candidateDigest := "8795589790a622bc926bea8a7fce3bcfaaff9918132000d023d7d4c51e33a732"
  verdict := .pass
  support := (∅ : BTreeMap String (BTreeSet String)).insert "claim" (.ofList ["leaf"])
  capPressure := false
  refreshed := 0
  requiredRefinementUnavailable := false

/-- A note on a message and the erasure of the message. -/
def summaryLog : EventLog :=
  ((EventLog.new v2).record 1 1000 (.semantic (.put summaryCommand summaryValidation))).record 1
    1001 (.security (.erase messageErasure))

/-- What is left of the note after its message was erased. -/
theorem semantic_erasure_summary :
    ∃ state current, fold idlenessWindow summaryLog = .ok state ∧
      state.semantic.artifacts["summary"]? = some current ∧ Tombstone current := by
  have noted : (fold idlenessWindow (summaryLog.prefixLog 1)).satisfies (fun state =>
      state.semantic.artifacts["summary"]? =
        some ⟨summaryCommand, summaryValidation, false, 0⟩) = true := by
    decide +kernel
  have erased : (fold idlenessWindow summaryLog).satisfies (fun state =>
      state.security.erased.contains "leaf" && state.semantic.artifacts.contains "summary") =
        true := by
    decide +kernel
  rcases Outcome.satisfies_iff.mp noted with ⟨origin, originOk, present⟩
  rcases Outcome.satisfies_iff.mp erased with ⟨state, folds, isErased⟩
  have present := of_decide_eq_true present
  rw [Bool.and_eq_true] at isErased
  have rests : (⟨summaryCommand, summaryValidation, false, 0⟩ : SemanticArtifact).RestsOn "leaf" :=
    restsOn_iff_any.mpr (by decide +kernel)
  have inherits : Heir idlenessWindow summaryLog 1 "summary" 2 "summary" := by
    have whole : summaryLog.prefixLog 2 = summaryLog := EventLog.prefixLog_length summaryLog
    have finalOk : fold idlenessWindow (summaryLog.prefixLog 2) = .ok state := by rw [whole, folds]
    exact .kept .itself (by decide) finalOk isErased.2
  rcases (semantic_erasure idlenessWindow summaryLog state folds).2.1 1 origin "summary" _ "leaf"
    "summary" originOk present rests isErased.1 inherits with ⟨current, found, _, tombstone⟩
  exact ⟨state, current, folds, found, tombstone rfl⟩

end Summary

end Llxprt.Kernel.Reducer
