import Llxprt.Kernel.Validation.State

/-!
# What happens to an artifact

An artifact lives under its key from its publication until it is consumed or
divided.  In between only its lane, its rendering and, by an erasure, its
content change.
-/

namespace Llxprt.Kernel

open Llxprt.Rust

/-- The recorded support of the artifact mentions the leaf. -/
def SemanticArtifact.RestsOn (artifact : SemanticArtifact) (leaf : String) : Prop :=
  ∃ leaves ∈ values artifact.validation.support, leaf ∈ leaves

/-- The artifact of an erased leaf: only the tombstone text, no support and a
failing verdict. -/
structure Tombstone (artifact : SemanticArtifact) : Prop where
  text : artifact.command.candidate.artifact = erasedTombstone
  renderedText : artifact.command.candidate.renderedText = erasedTombstone
  rendered : artifact.command.candidate.rendered = []
  support : artifact.validation.support = ∅
  verdict : artifact.validation.verdict = .failProvenance .ungroundedRoot

/-- A part of a divided tombstone: its text is a piece of the tombstone. -/
structure Fragment (artifact : SemanticArtifact) : Prop where
  text : artifact.command.candidate.artifact.toList <:+: erasedTombstone.toList
  renderedText : artifact.command.candidate.renderedText = erasedTombstone
  rendered : artifact.command.candidate.rendered = []
  support : artifact.validation.support = ∅
  verdict : artifact.validation.verdict = .failProvenance .ungroundedRoot

theorem Tombstone.fragment {artifact : SemanticArtifact} (tombstone : Tombstone artifact) :
    Fragment artifact where
  text := by
    have same := congrArg String.toList tombstone.text
    exact same ▸ List.infix_refl _
  renderedText := tombstone.renderedText
  rendered := tombstone.rendered
  support := tombstone.support
  verdict := tombstone.verdict

/-- The same content under a possibly different lane and rendering. -/
structure SameContent (before after : SemanticArtifact) : Prop where
  candidate : after.command.candidate = before.command.candidate
  validation : after.validation = before.validation

theorem SameContent.refl {artifact : SemanticArtifact} : SameContent artifact artifact :=
  ⟨rfl, rfl⟩

section Content

variable {before after : SemanticArtifact} {leaf : String}

theorem SameContent.restsOn (same : SameContent before after) :
    after.RestsOn leaf ↔ before.RestsOn leaf := by
  rw [SemanticArtifact.RestsOn, SemanticArtifact.RestsOn, same.validation]

theorem SameContent.tombstone (same : SameContent before after) (tombstone : Tombstone before) :
    Tombstone after := by
  rcases tombstone with ⟨text, renderedText, rendered, support, verdict⟩
  rw [← same.candidate] at text renderedText rendered
  rw [← same.validation] at support verdict
  exact ⟨text, renderedText, rendered, support, verdict⟩

theorem SameContent.fragment (same : SameContent before after) (fragment : Fragment before) :
    Fragment after := by
  rcases fragment with ⟨text, renderedText, rendered, support, verdict⟩
  rw [← same.candidate] at text renderedText rendered
  rw [← same.validation] at support verdict
  exact ⟨text, renderedText, rendered, support, verdict⟩

theorem not_restsOn_of_empty (empty : after.validation.support = ∅) : ¬ after.RestsOn leaf := by
  rintro ⟨leaves, member, _⟩
  simp [empty, values] at member

end Content

namespace SemanticState

variable [Wire] {state next : SemanticState} {scopes : ScopeRegistry} {key other leaf : String}
  {artifact : SemanticArtifact}

section Erasure

omit [Wire] in
theorem restsOn_iff_any : artifact.RestsOn leaf ↔
    ((values artifact.validation.support).any fun leaves => leaves.contains leaf) = true := by
  rw [List.any_eq_true]
  rfl

theorem eraseArtifact_of_restsOn (rests : artifact.RestsOn leaf) :
    Tombstone (eraseArtifact leaf artifact) := by
  rw [eraseArtifact, if_pos (restsOn_iff_any.mp rests)]
  exact ⟨rfl, rfl, rfl, rfl, rfl⟩

theorem eraseArtifact_of_not_restsOn (free : ¬ artifact.RestsOn leaf) :
    eraseArtifact leaf artifact = artifact := by
  rw [eraseArtifact, if_neg (fun rests => free (restsOn_iff_any.mpr rests))]

theorem erase_artifacts :
    (state.erase leaf).artifacts[key]? = state.artifacts[key]?.map (eraseArtifact leaf) := by
  simp [erase]

end Erasure

section Publication

/-- A publication adds one artifact under a new key and consumes its sources. -/
theorem put_spec {command : SemanticCommand} {validation : ValidationRecord}
    (h : state.put command validation scopes = .ok next) :
    command.key ∉ state.artifacts ∧
      ∃ published : SemanticArtifact, published.validation = validation ∧
        ∀ key : String, next.artifacts[key]? =
          if command.key = key then some published
          else if key ∈ command.sources then none
          else state.artifacts[key]? := by
  have consumed : ∀ (sources : List String) (artifacts : BTreeMap String SemanticArtifact)
      (key : String), (sources.foldl (fun artifacts key => artifacts.erase key) artifacts)[key]? =
        if key ∈ sources then none else artifacts[key]? := by
    intro sources
    induction sources with
    | nil => simp
    | cons source sources ih =>
        intro artifacts key
        rw [List.foldl_cons, ih, Std.ExtTreeMap.getElem?_erase]
        by_cases same : source = key
        · simp [same]
        · by_cases member : key ∈ sources <;> simp [member, same, Ne.symm same]
  simp only [put, bind_eq_ok, reject_eq_ok, pure_eq_ok, not_or] at h
  rcases h with ⟨_, ⟨absent, _⟩, _, _, depth, _, _, _, rfl⟩
  refine ⟨by simpa using absent,
    ⟨command, validation, decide (command.operation ≠ .note), depth⟩, rfl, ?_⟩
  intro key
  simp only [Std.ExtTreeMap.getElem?_insert, Std.LawfulEqOrd.compare_eq_iff_eq, consumed]

end Publication

section Division

/-- Key of a part of a divided artifact. -/
def childKey (key : String) (index : Nat) : String :=
  key ++ "/" ++ toString index

omit [Wire] in
theorem length_childKey (key : String) (index : Nat) :
    key.toList.length < (childKey key index).toList.length := by
  simp only [childKey, String.toList_append, List.length_append]
  have slash : ("/" : String).toList.length = 1 := rfl
  omega

omit [Wire] in
theorem childKey_ne (key : String) (index : Nat) : childKey key index ≠ key := by
  intro same
  have longer := length_childKey key index
  rw [same] at longer
  exact Nat.lt_irrefl _ longer

/-- The child loop keeps what is there and adds one artifact for each part, under
a key that was free. -/
theorem insertChildren_spec {original : SemanticArtifact} {pieces : List (String × Nat)}
    {artifacts result : BTreeMap String SemanticArtifact}
    (h : pieces.foldlM (insertChild original key) artifacts = .ok result) :
    (∀ (other : String) found, artifacts[other]? = some found → result[other]? = some found) ∧
      ∀ (other : String) found, result[other]? = some found → artifacts[other]? = some found ∨
        artifacts[other]? = none ∧ ∃ piece ∈ pieces, other = childKey key piece.2 ∧
          found = childArtifact original other piece.1 := by
  induction pieces generalizing artifacts with
  | nil =>
      simp only [List.foldlM_nil, pure_eq_ok] at h
      subst h
      exact ⟨fun _ _ => id, fun _ _ => .inl⟩
  | cons piece pieces ih =>
      simp only [List.foldlM_cons, bind_eq_ok] at h
      rcases h with ⟨middle, inserted, rest⟩
      simp only [insertChild, bind_eq_ok, reject_eq_ok, pure_eq_ok] at inserted
      rcases inserted with ⟨_, free, rfl⟩
      have absent : artifacts[childKey key piece.2]? = none :=
        Std.ExtTreeMap.getElem?_eq_none_of_contains_eq_false (Bool.eq_false_iff.mpr free)
      rcases ih rest with ⟨keeps, origin⟩
      constructor
      · intro other found present
        apply keeps
        rw [Std.ExtTreeMap.getElem?_insert]
        split
        · rename_i same
          have isChild : childKey key piece.2 = other := Std.LawfulEqOrd.compare_eq_iff_eq.mp same
          rw [← isChild, absent] at present
          cases present
        · exact present
      · intro other found present
        rcases origin other found present with inserted | ⟨fresh, later, member, isChild, same⟩
        · rw [Std.ExtTreeMap.getElem?_insert] at inserted
          split at inserted
          · rename_i isChild
            have isChild := Std.LawfulEqOrd.compare_eq_iff_eq.mp isChild
            subst isChild
            cases inserted
            exact .inr ⟨absent, piece, List.mem_cons_self, rfl, rfl⟩
          · exact .inl inserted
        · rw [Std.ExtTreeMap.getElem?_insert] at fresh
          split at fresh
          · cases fresh
          · exact .inr ⟨fresh, later, List.mem_cons_of_mem _ member, isChild, same⟩

omit [Wire] in
/-- The part is a piece of the divided text. -/
theorem part_infix {parts : List String} {text : String} (member : text ∈ parts) :
    text.toList <:+: (String.join parts).toList := by
  rw [String.toList_join]
  rcases List.append_of_mem member with ⟨before, after, rfl⟩
  simp only [List.flatMap_append, List.flatMap_cons]
  exact ⟨_, _, List.append_assoc _ _ _⟩

end Division

section Origin

/-- Where an artifact of the next projection comes from. -/
inductive Origin (event : SemanticEvent) (state : SemanticState) (key : String)
    (artifact : SemanticArtifact) : Prop
  | kept {before : SemanticArtifact} (present : state.artifacts[key]? = some before)
      (same : SameContent before artifact)
  | published {command : SemanticCommand} (absent : state.artifacts[key]? = none)
      (isPut : event = .put command artifact.validation)
  | divided {parent text : String} {parts : List String} {original : SemanticArtifact}
      {index : Nat} (absent : state.artifacts[key]? = none)
      (isDivision : event = .resegment parent parts)
      (present : state.artifacts[parent]? = some original)
      (whole : String.join parts = original.command.candidate.artifact)
      (part : parts[index]? = some text) (isChild : key = childKey parent index)
      (same : artifact = childArtifact original key text)

theorem split_origin {parent : String} {parts : List String}
    (h : state.split parent parts = .ok next) (found : next.artifacts[key]? = some artifact) :
    Origin (.resegment parent parts) state key artifact := by
  simp only [split, bind_eq_ok, okOr_eq_ok, reject_eq_ok, pure_eq_ok, not_or] at h
  rcases h with ⟨original, present, _, ⟨_, _, _, whole, _⟩, artifacts, inserted, rfl⟩
  rcases (insertChildren_spec inserted).2 key artifact found with
    remains | ⟨absent, ⟨text, index⟩, member, isChild, same⟩
  · rw [Std.ExtTreeMap.getElem?_erase] at remains
    split at remains
    · cases remains
    · exact .kept remains .refl
  · have absent : state.artifacts[key]? = none := by
      rw [Std.ExtTreeMap.getElem?_erase, if_neg] at absent
      · exact absent
      · rw [Std.LawfulEqOrd.compare_eq_iff_eq, isChild]
        exact (childKey_ne parent index).symm
    have part := List.mem_zipIdx_iff_getElem?.mp member
    exact .divided absent rfl present (not_not.mp whole) part isChild same

/-- Every artifact after a projection event was there before, is the published
one or is a part of the divided one. -/
theorem transition_origin {event : SemanticEvent} (h : transition event scopes state = .ok next)
    (found : next.artifacts[key]? = some artifact) : Origin event state key artifact := by
  cases event with
  | put command validation =>
      rcases put_spec h with ⟨absent, published, rfl, content⟩
      rw [content key] at found
      split at found
      · rename_i same
        subst same
        cases found
        exact .published (Std.ExtTreeMap.getElem?_eq_none absent) rfl
      · split at found
        · cases found
        · exact .kept found .refl
  | flushNotes =>
      cases h
      simp only [Std.ExtTreeMap.getElem?_map, Option.map_eq_some_iff] at found
      rcases found with ⟨before, present, rfl⟩
      exact .kept present ⟨rfl, rfl⟩
  | reclassify target lane =>
      simp only [transition, bind_eq_ok, reject_eq_ok, pure_eq_ok] at h
      rcases h with ⟨_, _, _, _, rfl⟩
      rw [Std.ExtTreeMap.getElem?_modify] at found
      split at found
      · rename_i same
        rw [Std.LawfulEqOrd.compare_eq_iff_eq.mp same] at found
        rcases Option.map_eq_some_iff.mp found with ⟨before, present, rfl⟩
        exact .kept present ⟨rfl, rfl⟩
      · exact .kept found .refl
  | resegment parent parts => exact split_origin h found

end Origin

end SemanticState

end Llxprt.Kernel
