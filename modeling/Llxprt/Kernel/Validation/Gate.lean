import Llxprt.Kernel.Validation.Provenance
import Llxprt.Kernel.Serde
import Llxprt.Rust.Method
import Llxprt.Rust.Text
import Mathlib.Data.List.Infix

/-!
# The validation gate

A candidate passes when its provenance ends in authenticated ingress, every
required fact is rendered and every assertion is supported by leaves.  The
refiner, the extractor and the scorer are consumers that may answer anything;
the state of the consumers is the receiver of the methods.
-/

namespace Llxprt.Kernel

open Llxprt.Rust

structure Score where
  entailment : Nat
  contradiction : Bool

structure Independence where
  compactor : String
  scorer : String
  deriving DecidableEq

/-- The gate owns the prompts; what answers them lives outside. -/
structure GateConsumers (σ : Type) where
  independence : σ → Independence
  requiredFacts : List BoundFact → Method σ GateError (List BoundFact)
  assertions : String → Method σ GateError (List String)
  score : String → List Leaf → List BoundFact → Method σ GateError Score

/-- A gate with the page size and the configuration that `new` accepts. -/
structure Gate where
  leafCap : Nat
  independence : Independence
  positive : 0 < leafCap
  capped : leafCap ≤ maxGraphNodes

/-- `slice::chunks`. -/
def chunks {α : Type} (size : Nat) (positive : 0 < size) (items : List α) : List (List α) :=
  match items with
  | [] => []
  | item :: rest => (item :: rest).take size :: chunks size positive ((item :: rest).drop size)
termination_by items.length
decreasing_by
  rw [List.length_drop, List.length_cons]
  omega

namespace Gate

def inputBounds (candidate : Candidate) (required alwaysChecked : List BoundFact) :
    Except GateError Unit :=
  if candidate.artifact = "" ∨ maxArtifactBytes < candidate.artifact.utf8ByteSize ∨
      maxGraphNodes < required.length ∨ maxGraphNodes < candidate.rendered.length ∨
      maxEnvelopeBytes < candidate.renderedText.utf8ByteSize ∨
      maxGraphNodes < alwaysChecked.length then
    .error .bounds
  else
    .ok ()

/-- The lines of the artifact that are not blank. -/
def assertedLines (artifact : String) : List String :=
  ((Text.lines artifact.toList).filter fun line => !Text.isBlank line).map String.ofList

/-- The statement occurs in the text. -/
def contains (text statement : String) : Bool :=
  decide (statement.toList <:+: text.toList)

/-- The leaf of the store, read again for every page. -/
def refresh (store : String → Option Leaf) (id : String) : Except GateError Leaf :=
  match store id with
  | some leaf => if leaf.isIngress then .ok leaf else .error (.consumer "leaf-store")
  | none => .error (.consumer "leaf-store")

section Run

variable {σ : Type} (consumers : GateConsumers σ)

/-- The required facts, with those of the refiner unless it failed or answered
too many. -/
def requiredUnion (required : List BoundFact) :
    Method σ GateError (BTreeSet BoundFact × Bool) :=
  fun self =>
    match consumers.requiredFacts required self with
    | (.ok refined, self) =>
        if refined.length ≤ maxGraphNodes then
          (.ok (.ofList (required ++ refined) compare, false), self)
        else
          (.ok (.ofList required compare, true), self)
    | (.err _, self) => (.ok (.ofList required compare, true), self)
    | (.panic, self) => (.panic, self)

/-- The assertions of the extractor and the lines of the artifact. -/
def extractAssertions (artifact : String) : Method σ GateError (BTreeSet String) := do
  let extracted ← consumers.assertions artifact
  Method.refuse (extracted = [] ∨ maxAssertions < extracted.length ∨
    extracted.any fun assertion =>
      Text.isBlank assertion.toList || maxArtifactBytes < assertion.utf8ByteSize) .bounds
  let assertions : BTreeSet String := .ofList (extracted ++ assertedLines artifact) compare
  Method.refuse (maxAssertions < assertions.size) .bounds
  return assertions

/-- Score one assertion page by page; a contradiction ends the pages and leaves
it without support. -/
def supportPages (store : String → Option Leaf) (assertion : String)
    (contradictions : List BoundFact) :
    Nat → List (List String) → BTreeSet String → Nat →
      Method σ GateError (BTreeSet String × Nat)
  | _, [], support, refreshed => pure (support, refreshed)
  | page, chunk :: chunks, support, refreshed => do
      let leaves ← Method.ofExcept (chunk.mapM (refresh store))
      Method.refuse (leaves.any fun leaf => maxArtifactBytes < leaf.sanitized.utf8ByteSize) .bounds
      let refreshed := if 0 < page then refreshed + leaves.length else refreshed
      let score ← consumers.score assertion leaves contradictions
      Method.refuse (10000 < score.entailment) .bounds
      if score.contradiction then
        return (∅, refreshed)
      else if theta ≤ score.entailment then
        supportPages store assertion contradictions (page + 1) chunks
          (leaves.foldl (fun support leaf => support.insert leaf.id) support) refreshed
      else
        supportPages store assertion contradictions (page + 1) chunks support refreshed

/-- What the loop over the assertions has collected. -/
structure Judged where
  support : BTreeMap String (BTreeSet String)
  unsupported : List String
  refreshed : Nat

def judge (gate : Gate) (store : String → Option Leaf) (contradictions : List BoundFact)
    (ids : BTreeSet String) : List String → Judged → Method σ GateError Judged
  | [], judged => pure judged
  | assertion :: assertions, judged => do
      let (support, refreshed) ← supportPages consumers store assertion contradictions 0
        (chunks gate.leafCap gate.positive ids.toList) ∅ judged.refreshed
      judge gate store contradictions ids assertions
        (if support.isEmpty then
          { judged with unsupported := judged.unsupported ++ [assertion], refreshed := refreshed }
        else
          { judged with
            support := judged.support.insert assertion support
            refreshed := refreshed })

variable [Wire]

/-- The record before anything was found. -/
def startRecord (candidate : Candidate) : ValidationRecord where
  candidateDigest := candidateDigest candidate
  verdict := .pass
  support := ∅
  capPressure := false
  refreshed := 0
  requiredRefinementUnavailable := false

/-- The facts that the rendered state lacks. -/
def missingFacts (candidate : Candidate) (facts : BTreeSet BoundFact) : List BoundFact :=
  facts.toList.filter fun fact =>
    !(candidate.rendered.contains fact && contains candidate.renderedText fact.statement)

/-- The gate once the provenance is known. -/
def validateFacts (gate : Gate) (candidate : Candidate) (required alwaysChecked : List BoundFact)
    (store : String → Option Leaf) (ids : BTreeSet String) :
    Method σ GateError ValidationRecord := do
  let (facts, unavailable) ← requiredUnion consumers required
  let record := { startRecord candidate with requiredRefinementUnavailable := unavailable }
  if missingFacts candidate facts ≠ [] ∨ candidate.pendingNotes.isEmpty = false then
    return { record with verdict := .failCompleteness (missingFacts candidate facts) }
  else
    let assertions ← extractAssertions consumers candidate.artifact
    let contradictions := (facts.toList.filter fun fact => fact.scope = candidate.scope) ++
      alwaysChecked
    let judged ← judge consumers gate store contradictions ids assertions.toList ⟨∅, [], 0⟩
    return { record with
      support := judged.support
      capPressure := gate.leafCap < ids.size
      refreshed := judged.refreshed
      verdict := if judged.unsupported = [] then .pass else .failPrecision judged.unsupported }

def validate (gate : Gate) (candidate : Candidate) (required alwaysChecked : List BoundFact)
    (store : String → Option Leaf) : Method σ GateError ValidationRecord := do
  let self ← Method.read
  Method.refuse (consumers.independence self ≠ gate.independence) .independence
  Method.ofExcept (inputBounds candidate required alwaysChecked)
  match Provenance.roots candidate with
  | .error reason => return { startRecord candidate with verdict := .failProvenance reason }
  | .ok ids =>
      if ids.toList.any fun id => !(store id).any Leaf.isIngress then
        return { startRecord candidate with verdict := .failProvenance .ungroundedRoot }
      else
        validateFacts consumers gate candidate required alwaysChecked store ids

end Run

section Specification

variable {σ : Type} (consumers : GateConsumers σ) (store : String → Option Leaf)

/-- The scorer answered the pages of an assertion one after another. -/
inductive Scored (assertion : String) (contradictions : List BoundFact) :
    σ → List (List String) → List Score → σ → Prop
  | done {self : σ} : Scored assertion contradictions self [] [] self
  | page {self middle last : σ} {page : List String} {pages : List (List String)}
      {leaves : List Leaf} {score : Score} {scores : List Score}
      (read : page.mapM (refresh store) = .ok leaves)
      (answered : consumers.score assertion leaves contradictions self = (.ok score, middle))
      (rest : Scored assertion contradictions middle pages scores last) :
      Scored assertion contradictions self (page :: pages) (score :: scores) last

/-- No page was scored as a contradiction, and the support is what the pages
scored at the threshold contain. -/
def Supports (pages : List (List String)) (scores : List Score) (support : BTreeSet String) : Prop :=
  (∀ score ∈ scores, score.contradiction = false ∧ score.entailment ≤ 10000) ∧
    ∀ id, id ∈ support ↔ ∃ scored ∈ pages.zip scores, id ∈ scored.1 ∧ theta ≤ scored.2.entailment

/-- The assertions were judged one after another, and each one is supported by
the leaves of its own pages. -/
inductive Upheld (gate : Gate) (contradictions : List BoundFact) (ids : BTreeSet String)
    (support : BTreeMap String (BTreeSet String)) : σ → List String → σ → Prop
  | done {self : σ} : Upheld gate contradictions ids support self [] self
  | assertion {self middle last : σ} {assertion : String} {assertions : List String}
      {leaves : BTreeSet String} {scores : List Score}
      (scored : Scored consumers store assertion contradictions self
        (chunks gate.leafCap gate.positive ids.toList) scores middle)
      (supports : Supports (chunks gate.leafCap gate.positive ids.toList) scores leaves)
      (nonempty : leaves.isEmpty = false) (within : ∀ id ∈ leaves, id ∈ ids)
      (recorded : support[assertion]? = some leaves)
      (rest : Upheld gate contradictions ids support middle assertions last) :
      Upheld gate contradictions ids support self (assertion :: assertions) last

/-- The fact is rendered and its statement can be read. -/
def Rendered (candidate : Candidate) (fact : BoundFact) : Prop :=
  fact ∈ candidate.rendered ∧ fact.statement.toList <:+: candidate.renderedText.toList

/-- What a pass guarantees, whatever the consumers answered. -/
structure Passed (gate : Gate) (candidate : Candidate) (required alwaysChecked : List BoundFact)
    (record : ValidationRecord) (before after : σ) : Prop where
  grounded : ∃ ids, Provenance.RestsOn candidate ids ∧
    (∀ id ∈ ids, ∃ leaf, store id = some leaf ∧ leaf.isIngress = true) ∧
    ∃ (facts : List BoundFact) (refined : Outcome GateError (List BoundFact))
      (extracted : List String) (last answered : σ),
      consumers.requiredFacts required before = (refined, last) ∧
      (∀ fact ∈ required, fact ∈ facts) ∧
      (∀ list, refined = .ok list → list.length ≤ maxGraphNodes → ∀ fact ∈ list, fact ∈ facts) ∧
      (∀ fact ∈ facts, Rendered candidate fact) ∧
      consumers.assertions candidate.artifact last = (.ok extracted, answered) ∧
      ∃ assertions : List String, (∀ assertion, assertion ∈ assertions ↔
        assertion ∈ extracted ∨ assertion ∈ assertedLines candidate.artifact) ∧
        Upheld consumers store gate ((facts.filter fun fact => fact.scope = candidate.scope) ++
          alwaysChecked) ids record.support answered assertions after
  flushed : candidate.pendingNotes.isEmpty = true

end Specification

section Soundness

variable {σ : Type} {consumers : GateConsumers σ} {store : String → Option Leaf} {gate : Gate}
  {candidate : Candidate} {required alwaysChecked contradictions : List BoundFact}
  {assertion : String} {ids : BTreeSet String} {self middle before after : σ}

theorem flatten_chunks {α : Type} (size : Nat) (positive : 0 < size) (items : List α) :
    (chunks size positive items).flatten = items := by
  induction items using chunks.induct size positive with
  | case1 =>
      rw [chunks]
      rfl
  | case2 item rest ih => rw [chunks, List.flatten_cons, ih, List.take_append_drop]

theorem mem_insertIds {leaves : List Leaf} {support : BTreeSet String} {id : String} :
    id ∈ leaves.foldl (fun support leaf => support.insert leaf.id) support ↔
      id ∈ support ∨ id ∈ leaves.map Leaf.id := by
  induction leaves generalizing support with
  | nil => simp
  | cons leaf leaves ih =>
      rw [List.foldl_cons, ih, Std.ExtTreeSet.mem_insert, Std.LawfulEqOrd.compare_eq_iff_eq,
        List.map_cons, List.mem_cons]
      tauto

/-- The leaves that were read again carry the identifiers of the page. -/
theorem ids_of_refresh {page : List String} {leaves : List Leaf}
    (carries : ∀ id leaf, store id = some leaf → leaf.id = id)
    (read : page.mapM (refresh store) = .ok leaves) : leaves.map Leaf.id = page := by
  induction page generalizing leaves with
  | nil =>
      simp only [List.mapM_nil, pure_eq_ok] at read
      rw [← read]
      rfl
  | cons id page ih =>
      simp only [List.mapM_cons, bind_eq_ok, pure_eq_ok] at read
      rcases read with ⟨leaf, found, others, rest, rfl⟩
      rw [List.map_cons, ih rest]
      congr 1
      rw [refresh] at found
      split at found
      · rename_i held stored
        split at found
        · cases found
          exact carries id leaf stored
        · cases found
      · cases found

/-- Either a page was scored as a contradiction, or every page was scored and
the collected leaves are those of the pages at the threshold. -/
theorem supportPages_eq_ok {pages : List (List String)} {page refreshed total : Nat}
    {support collected : BTreeSet String}
    (carries : ∀ id leaf, store id = some leaf → leaf.id = id)
    (run : supportPages consumers store assertion contradictions page pages support refreshed self =
      (.ok (collected, total), after)) :
    collected = ∅ ∨
    ∃ scores, Scored consumers store assertion contradictions self pages scores after ∧
      (∀ score ∈ scores, score.contradiction = false ∧ score.entailment ≤ 10000) ∧
      ∀ id, id ∈ collected ↔ id ∈ support ∨
        ∃ scored ∈ pages.zip scores, id ∈ scored.1 ∧ theta ≤ scored.2.entailment := by
  induction pages generalizing page support refreshed self with
  | nil =>
      simp only [supportPages, Method.pure_apply, Prod.mk.injEq, Outcome.ok.injEq] at run
      rcases run with ⟨⟨rfl, rfl⟩, rfl⟩
      exact .inr ⟨[], .done, by simp⟩
  | cons chunk pages ih =>
      simp only [supportPages, Method.bind_eq_ok_iff, Method.ofExcept_eq_ok,
        Method.refuse_eq_ok] at run
      rcases run with ⟨leaves, _, ⟨read, rfl⟩, _, _, ⟨small, rfl⟩, score, middle, answered, _, _,
        ⟨bounded, rfl⟩, run⟩
      have named : leaves.map Leaf.id = chunk := ids_of_refresh carries read
      split at run
      · simp only [Method.pure_apply, Prod.mk.injEq, Outcome.ok.injEq] at run
        exact .inl run.1.1.symm
      · rename_i consistent
        rw [Bool.not_eq_true] at consistent
        split at run
        · rename_i enough
          rcases ih run with none | ⟨scores, scored, fine, exact⟩
          · exact .inl none
          · refine .inr ⟨score :: scores, .page read answered scored, ?_, ?_⟩
            · exact List.forall_mem_cons.mpr ⟨⟨consistent, Nat.le_of_not_lt bounded⟩, fine⟩
            · intro id
              rw [exact, mem_insertIds, named, List.zip_cons_cons]
              simp only [List.mem_cons, exists_eq_or_imp]
              tauto
        · rename_i short
          rcases ih run with none | ⟨scores, scored, fine, exact⟩
          · exact .inl none
          · refine .inr ⟨score :: scores, .page read answered scored, ?_, ?_⟩
            · exact List.forall_mem_cons.mpr ⟨⟨consistent, Nat.le_of_not_lt bounded⟩, fine⟩
            · intro id
              rw [exact, List.zip_cons_cons]
              simp only [List.mem_cons, exists_eq_or_imp]
              tauto

/-- The support of an assertion consists of leaves of its pages. -/
theorem Supports.within {pages : List (List String)} {scores : List Score}
    {support : BTreeSet String} {id : String} (supports : Supports pages scores support)
    (member : id ∈ support) : id ∈ pages.flatten := by
  rcases (supports.2 id).mp member with ⟨⟨page, score⟩, paired, inside, _⟩
  exact List.mem_flatten.mpr ⟨page, (List.of_mem_zip paired).1, inside⟩

theorem judge_unsupported {assertions : List String} {judged result : Judged}
    (run : judge consumers gate store contradictions ids assertions judged self =
      (.ok result, after)) (accepted : result.unsupported = []) : judged.unsupported = [] := by
  induction assertions generalizing judged self with
  | nil =>
      simp only [judge, Method.pure_apply, Prod.mk.injEq, Outcome.ok.injEq] at run
      rw [run.1]
      exact accepted
  | cons assertion assertions ih =>
      simp only [judge, Method.bind_eq_ok_iff] at run
      rcases run with ⟨⟨collected, total⟩, middle, _, run⟩
      have rest := ih run
      split at rest
      · exact absurd rest (List.append_ne_nil_of_right_ne_nil _ (List.cons_ne_nil _ _))
      · exact rest

/-- Judging other assertions leaves the support of an assertion alone. -/
theorem judge_support {assertions : List String} {judged result : Judged}
    (run : judge consumers gate store contradictions ids assertions judged self =
      (.ok result, after)) (fresh : assertion ∉ assertions) :
    result.support[assertion]? = judged.support[assertion]? := by
  induction assertions generalizing judged self with
  | nil =>
      simp only [judge, Method.pure_apply, Prod.mk.injEq, Outcome.ok.injEq] at run
      rw [run.1]
  | cons other assertions ih =>
      simp only [judge, Method.bind_eq_ok_iff] at run
      rcases run with ⟨⟨collected, total⟩, middle, _, run⟩
      rw [List.mem_cons, not_or] at fresh
      rw [ih run fresh.2]
      split
      · rfl
      · rw [Std.ExtTreeMap.getElem?_insert, if_neg]
        rw [Std.LawfulEqOrd.compare_eq_iff_eq]
        exact Ne.symm fresh.1

/-- A judgement without an unsupported assertion upholds every assertion. -/
theorem judge_upheld {assertions : List String} {judged result : Judged}
    (carries : ∀ id leaf, store id = some leaf → leaf.id = id)
    (run : judge consumers gate store contradictions ids assertions judged self =
      (.ok result, after)) (accepted : result.unsupported = []) (distinct : assertions.Nodup) :
    Upheld consumers store gate contradictions ids result.support self assertions after := by
  induction assertions generalizing judged self with
  | nil =>
      simp only [judge, Method.pure_apply, Prod.mk.injEq, Outcome.ok.injEq] at run
      rw [run.2]
      exact .done
  | cons assertion assertions ih =>
      rw [List.nodup_cons] at distinct
      simp only [judge, Method.bind_eq_ok_iff] at run
      rcases run with ⟨⟨collected, total⟩, middle, paged, run⟩
      have clean := judge_unsupported run accepted
      have recorded := judge_support run distinct.1
      have rest := ih run distinct.2
      split at clean
      · exact absurd clean (List.append_ne_nil_of_right_ne_nil _ (List.cons_ne_nil _ _))
      · rename_i some
        rw [Bool.not_eq_true] at some
        rcases supportPages_eq_ok carries paged with rfl | ⟨scores, scored, fine, exact⟩
        · cases some
        · have supports : Supports (chunks gate.leafCap gate.positive ids.toList) scores
              collected := by
            refine ⟨fine, fun id => (exact id).trans ?_⟩
            simp only [Std.ExtTreeSet.not_mem_empty, false_or]
          refine .assertion scored supports some ?_ ?_ rest
          · intro id member
            have inside := supports.within member
            rw [flatten_chunks] at inside
            exact Std.ExtTreeSet.mem_toList.mp inside
          · rw [recorded, if_neg (by simp [some]), Std.ExtTreeMap.getElem?_insert_self]

/-- The extractor cannot take away a line of the artifact. -/
theorem extractAssertions_eq_ok {artifact : String} {assertions : BTreeSet String}
    (run : extractAssertions consumers artifact self = (.ok assertions, after)) :
    ∃ extracted, consumers.assertions artifact self = (.ok extracted, after) ∧
      ∀ assertion, assertion ∈ assertions ↔
        assertion ∈ extracted ∨ assertion ∈ assertedLines artifact := by
  simp only [extractAssertions, Method.bind_eq_ok_iff, Method.refuse_eq_ok,
    Method.pure_apply, Prod.mk.injEq, Outcome.ok.injEq] at run
  rcases run with ⟨extracted, _, answered, _, _, ⟨_, rfl⟩, _, _, ⟨_, rfl⟩, rfl, rfl⟩
  refine ⟨extracted, answered, fun assertion => ?_⟩
  rw [Std.ExtTreeSet.mem_ofList, List.contains_iff_mem, List.mem_append]

/-- The refiner cannot take away a required fact. -/
theorem requiredUnion_eq_ok {facts : BTreeSet BoundFact} {unavailable : Bool}
    (run : requiredUnion consumers required self = (.ok (facts, unavailable), after)) :
    ∃ refined, consumers.requiredFacts required self = (refined, after) ∧
      (∀ fact ∈ required, fact ∈ facts) ∧
      ∀ list, refined = .ok list → list.length ≤ maxGraphNodes → ∀ fact ∈ list, fact ∈ facts := by
  rw [requiredUnion] at run
  have kept : ∀ more : List BoundFact, ∀ fact ∈ required ++ more,
      fact ∈ Std.ExtTreeSet.ofList (required ++ more) compare := by
    intro more fact member
    rw [Std.ExtTreeSet.mem_ofList, List.contains_iff_mem]
    exact member
  rcases answered : consumers.requiredFacts required self with ⟨refined, last⟩
  rw [answered] at run
  have floor : ∀ fact ∈ required, fact ∈ Std.ExtTreeSet.ofList required compare := by
    intro fact member
    have whole := kept [] fact (by simpa using member)
    rwa [List.append_nil] at whole
  cases refined with
  | ok list =>
      simp only at run
      split at run
      · cases run
        refine ⟨_, rfl, fun fact member => kept list fact (List.mem_append_left _ member), ?_⟩
        rintro _ ⟨⟩ _ fact member
        exact kept list fact (List.mem_append_right _ member)
      · rename_i many
        cases run
        refine ⟨_, rfl, floor, ?_⟩
        rintro _ ⟨⟩ few
        exact absurd few many
  | err error =>
      cases run
      exact ⟨_, rfl, floor, fun _ none => by cases none⟩
  | panic => cases run

/-- A candidate that lacks no fact renders every fact. -/
theorem rendered_of_missingFacts {facts : BTreeSet BoundFact}
    (complete : missingFacts candidate facts = []) : ∀ fact ∈ facts, Rendered candidate fact := by
  intro fact member
  have shown := List.filter_eq_nil_iff.mp complete fact (Std.ExtTreeSet.mem_toList.mpr member)
  simp only [contains, Bool.not_eq_true, Bool.not_eq_false', Bool.and_eq_true,
    List.contains_iff_mem, decide_eq_true_eq] at shown
  exact shown

/-- No identifier lacks an ingress leaf. -/
theorem authenticated_of_any
    (none : ¬ (ids.toList.any fun id => !(store id).any Leaf.isIngress) = true) :
    ∀ id ∈ ids, ∃ leaf, store id = some leaf ∧ leaf.isIngress = true := by
  intro id member
  by_contra absent
  apply none
  rw [List.any_eq_true]
  refine ⟨id, Std.ExtTreeSet.mem_toList.mpr member, ?_⟩
  rw [Bool.not_eq_true', Bool.eq_false_iff]
  intro held
  exact absent ((Option.any_eq_true _ _).mp held)

/-- A candidate passes only when its roots rest on authenticated ingress, every
required or refined fact is rendered and every assertion is upheld, whatever the
consumers answer. -/
theorem validate_passed [Wire] {record : ValidationRecord}
    (carries : ∀ id leaf, store id = some leaf → leaf.id = id)
    (run : validate consumers gate candidate required alwaysChecked store before =
      (.ok record, after))
    (pass : record.verdict = .pass) :
    Passed consumers store gate candidate required alwaysChecked record before after := by
  simp only [validate, Method.bind_eq_ok_iff, Method.read_eq_ok, Method.refuse_eq_ok,
    Method.ofExcept_eq_ok] at run
  rcases run with ⟨_, _, ⟨rfl, rfl⟩, _, _, ⟨_, rfl⟩, _, _, ⟨_, rfl⟩, run⟩
  cases searched : Provenance.roots candidate with
  | error reason =>
      rw [searched] at run
      simp only [Method.pure_apply, Prod.mk.injEq, Outcome.ok.injEq] at run
      rw [← run.1] at pass
      cases pass
  | ok ids =>
      rw [searched] at run
      simp only at run
      split at run
      · simp only [Method.pure_apply, Prod.mk.injEq, Outcome.ok.injEq] at run
        rw [← run.1] at pass
        cases pass
      · rename_i authenticated
        simp only [validateFacts, Method.bind_eq_ok_iff] at run
        rcases run with ⟨⟨facts, unavailable⟩, last, union, run⟩
        rcases requiredUnion_eq_ok union with ⟨refined, asked, floor, more⟩
        split at run
        · simp only [Method.pure_apply, Prod.mk.injEq, Outcome.ok.injEq] at run
          rw [← run.1] at pass
          cases pass
        · rename_i complete
          rw [not_or, not_not, Bool.not_eq_false] at complete
          simp only [Method.bind_eq_ok_iff] at run
          rcases run with ⟨assertions, answered, extracting, judged, _, judging, run⟩
          simp only [Method.pure_apply, Prod.mk.injEq, Outcome.ok.injEq] at run
          rcases run with ⟨rfl, rfl⟩
          rcases extractAssertions_eq_ok extracting with ⟨extracted, said, exact⟩
          have accepted : judged.unsupported = [] := by
            by_contra some
            rw [if_neg some] at pass
            cases pass
          have upheld := judge_upheld carries judging accepted (nodup_toList assertions)
          refine ⟨⟨ids, (Provenance.restsOn_of_roots searched).1, ?_, facts.toList, refined,
            extracted, last, answered, asked, ?_, ?_, ?_, said, assertions.toList, ?_, upheld⟩,
            complete.2⟩
          · exact authenticated_of_any authenticated
          · intro fact member
            exact Std.ExtTreeSet.mem_toList.mpr (floor fact member)
          · intro list same few fact member
            exact Std.ExtTreeSet.mem_toList.mpr (more list same few fact member)
          · intro fact member
            exact rendered_of_missingFacts complete.1 fact (Std.ExtTreeSet.mem_toList.mp member)
          · intro assertion
            rw [Std.ExtTreeSet.mem_toList]
            exact exact assertion

end Soundness

section Quoted

local instance quotedWire : Wire := .serde

/-- A candidate whose only line is the text of its only leaf. -/
def quotedCandidate : Candidate where
  artifact := "done"
  renderedText := ""
  rendered := []
  roots := [.ingress "call"]
  graph := ∅
  pendingNotes := ∅
  scope := 1

def quotedStore (id : String) : Option Leaf :=
  if id = "call" then some ⟨id, ⟨id, .environment, .ingress, 1⟩, "done"⟩ else none

def quotedFact : BoundFact :=
  ⟨"done", "call", "is", 1, "", false, ""⟩

/-- Consumers that refine every request to the same facts and support everything. -/
def agreeable (refined : List BoundFact) : GateConsumers Unit where
  independence _ := ⟨"compactor", "scorer"⟩
  requiredFacts _ := pure refined
  assertions artifact := pure [artifact]
  score _ _ _ := pure ⟨10000, false⟩

def pairedGate : Gate :=
  ⟨1, ⟨"compactor", "scorer"⟩, by decide, by decide⟩

theorem quoted_carries : ∀ id leaf, quotedStore id = some leaf → leaf.id = id := by
  intro id leaf held
  rw [quotedStore] at held
  split at held
  · cases held
    rfl
  · cases held

abbrev quotedIds : BTreeSet String :=
  (∅ : BTreeSet String).insert "call"

def quotedJudged : Judged :=
  ⟨(∅ : BTreeMap String (BTreeSet String)).insert "done" quotedIds, [], 0⟩

theorem roots_quoted : Provenance.roots quotedCandidate = .ok quotedIds := by
  have searched : Provenance.loop quotedCandidate.graph ⟨[(.ingress "call", false)], ∅, ∅, ∅⟩ =
      .ok quotedIds := by
    rw [Provenance.loop_of_ok rfl rfl, Provenance.loop_of_empty rfl]
  rw [Provenance.roots, if_neg (by decide)]
  change (match Provenance.loop quotedCandidate.graph ⟨[(.ingress "call", false)], ∅, ∅, ∅⟩ with
    | .error reason => Except.error reason
    | .ok leaves => if leaves.isEmpty then .error .ungroundedRoot else .ok leaves) = _
  rw [searched]
  rfl

theorem requiredUnion_agreeable {refined : List BoundFact}
    (unused : refined = [] ∨ maxGraphNodes < refined.length) :
    ∃ unavailable, requiredUnion (agreeable refined) [] () = (.ok (∅, unavailable), ()) := by
  rcases unused with rfl | large
  · exact ⟨false, rfl⟩
  · refine ⟨true, ?_⟩
    simp only [requiredUnion, agreeable, Method.pure_apply, if_neg (Nat.not_le.mpr large)]
    rfl

theorem judge_agreeable (refined : List BoundFact) :
    judge (agreeable refined) pairedGate quotedStore [] quotedIds ["done"] ⟨∅, [], 0⟩ () =
      (.ok quotedJudged, ()) := by
  have paged : chunks 1 Nat.one_pos quotedIds.toList = [["call"]] := by
    change chunks 1 Nat.one_pos ["call"] = _
    simp [chunks]
  have supported : supportPages (agreeable refined) quotedStore "done" [] 0
      (chunks 1 Nat.one_pos quotedIds.toList) ∅ 0 () = (.ok (quotedIds, 0), ()) := by
    rw [paged]
    rfl
  rw [judge]
  exact (Method.bind_of_ok supported).trans rfl

/-- The candidate passes with a refinement that is empty or too large. -/
theorem quoted_passes (refined : List BoundFact)
    (unused : refined = [] ∨ maxGraphNodes < refined.length) :
    ∃ record, validate (agreeable refined) pairedGate quotedCandidate [] [] quotedStore () =
      (.ok record, ()) ∧ record.verdict = .pass := by
  rcases requiredUnion_agreeable unused with ⟨unavailable, union⟩
  have extracting : extractAssertions (agreeable refined) quotedCandidate.artifact () =
      (.ok ((∅ : BTreeSet String).insert "done"), ()) := by
    rfl
  have complete : ¬ (missingFacts quotedCandidate ∅ ≠ [] ∨
      quotedCandidate.pendingNotes.isEmpty = false) := by
    decide
  refine ⟨{ startRecord quotedCandidate with
    requiredRefinementUnavailable := unavailable
    support := quotedJudged.support }, ?_, rfl⟩
  have facts : validateFacts (agreeable refined) pairedGate quotedCandidate [] [] quotedStore
      quotedIds () = (.ok { startRecord quotedCandidate with
        requiredRefinementUnavailable := unavailable
        support := quotedJudged.support }, ()) := by
    rw [validateFacts, Method.bind_of_ok union]
    simp only [if_neg complete]
    rw [Method.bind_of_ok extracting]
    exact (Method.bind_of_ok (judge_agreeable refined)).trans rfl
  have entered : validate (agreeable refined) pairedGate quotedCandidate [] [] quotedStore () =
      (match Provenance.roots quotedCandidate with
        | .error reason =>
            return { startRecord quotedCandidate with verdict := .failProvenance reason }
        | .ok ids =>
            if ids.toList.any fun id => !(quotedStore id).any Leaf.isIngress then
              return { startRecord quotedCandidate with verdict := .failProvenance .ungroundedRoot }
            else
              validateFacts (agreeable refined) pairedGate quotedCandidate [] [] quotedStore ids :
        Method Unit GateError ValidationRecord) () := by
    rfl
  rw [entered, roots_quoted]
  exact facts

/-- The facts of a refinement that is too large need not be rendered. -/
theorem oversized_refinement_passes :
    ¬ ∀ (consumers : GateConsumers Unit) (gate : Gate) (candidate : Candidate)
        (required alwaysChecked : List BoundFact) (store : String → Option Leaf)
        (record : ValidationRecord), (∀ id leaf, store id = some leaf → leaf.id = id) →
      validate consumers gate candidate required alwaysChecked store () = (.ok record, ()) →
      record.verdict = .pass →
      ∀ refined, consumers.requiredFacts required () = (.ok refined, ()) →
        ∀ fact ∈ refined, fact ∈ candidate.rendered := by
  intro claim
  have large : maxGraphNodes < (List.replicate (maxGraphNodes + 1) quotedFact).length := by
    rw [List.length_replicate]
    exact Nat.lt_succ_self _
  rcases quoted_passes _ (.inr large) with ⟨record, run, pass⟩
  have rendered := claim _ _ _ _ _ _ record quoted_carries run pass _ rfl quotedFact
    (List.mem_replicate.mpr ⟨Nat.succ_ne_zero _, rfl⟩)
  exact List.not_mem_nil rendered

/-- The leaf upholds the candidate. -/
theorem quoted_passed :
    ∃ record, Passed (agreeable []) quotedStore pairedGate quotedCandidate [] [] record () () := by
  rcases quoted_passes [] (.inl rfl) with ⟨record, run, pass⟩
  exact ⟨record, validate_passed quoted_carries run pass⟩

end Quoted

end Gate

end Llxprt.Kernel
