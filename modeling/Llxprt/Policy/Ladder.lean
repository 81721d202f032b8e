import Llxprt.Policy.Controller
import Llxprt.Transaction.Operation
import Mathlib.Data.List.Infix
import Mathlib.Order.Defs.LinearOrder

/-!
# The reclamation ladder

A selection walks the rungs in a fixed order and takes the first one that has a
candidate and is admitted.  An escalation starts at the rung of its class and goes
on from there.
-/

namespace Llxprt.Policy

open Llxprt.Transaction

namespace Rung

def all : List Rung :=
  [foldAwayEphemeral, collapsePlaceholders, dropWithHandle, fold, compact, condense]

/-- The place in the fixed order. -/
def index : Rung → Nat
  | foldAwayEphemeral => 0
  | collapsePlaceholders => 1
  | dropWithHandle => 2
  | fold => 3
  | compact => 4
  | condense => 5

/-- Whether the row of the rung may be used in an emergency. -/
def emergency (rung : Rung) : Bool :=
  (Operation.find rung.operation).any Operation.emergency

end Rung

namespace Ladder

structure Capabilities where
  collapsePlaceholders : Bool
  dropWithHandle : Bool

/-- A candidate with its estimate: benefits are compared in a total order,
confidences only with the floor. -/
structure Candidate (β γ : Type) where
  rung : Rung
  benefit : β
  confidence : γ

inductive LadderChoice where
  | rung (rung : Rung)
  | emergency (rung : Rung)
  | wrapUp
  | quiesce

structure Selection where
  choice : LadderChoice
  candidateIndex : Option Nat

def capable (caps : Capabilities) : Rung → Bool
  | .collapsePlaceholders => caps.collapsePlaceholders
  | .dropWithHandle => caps.dropWithHandle
  | _ => true

section Selecting

variable {β γ : Type} [LinearOrder β] [LT γ] [DecidableLT γ]

/-- The candidates of a rung with their places. -/
def matching (candidates : List (Candidate β γ)) (rung : Rung) : List (Candidate β γ × Nat) :=
  candidates.zipIdx.filter fun entry => entry.1.rung = rung

/-- `max_by`: the last of the largest. -/
def lastBest (first : Candidate β γ × Nat) (rest : List (Candidate β γ × Nat)) :
    Candidate β γ × Nat :=
  rest.foldl (fun best next => if next.1.benefit < best.1.benefit then best else next) first

/-- One round of the loop over the rungs; no selection goes on to the next one. -/
def selectRung (candidates : List (Candidate β γ)) (caps : Capabilities) (scorerAvailable : Bool)
    (confidenceFloor : γ) (rung : Rung) : Option Selection :=
  if !capable caps rung then none
  else
    match matching candidates rung with
    | [] => none
    | first :: rest =>
        let lowConfidence := (first :: rest).all fun entry => entry.1.confidence < confidenceFloor
        let emergencyChoice := !scorerAvailable || lowConfidence
        if emergencyChoice && !rung.emergency then none
        else if emergencyChoice then some ⟨.emergency rung, some first.2⟩
        else some ⟨.rung rung, some (lastBest first rest).2⟩

def selectCandidate (candidates : List (Candidate β γ)) (caps : Capabilities)
    (scorerAvailable : Bool) (confidenceFloor : γ) : Selection :=
  match Rung.all.findSome? (selectRung candidates caps scorerAvailable confidenceFloor) with
  | some selection => selection
  | none =>
      let collapseBlocked := (candidates.any fun candidate =>
        candidate.rung = .collapsePlaceholders) && !caps.collapsePlaceholders
      if collapseBlocked && caps.dropWithHandle then ⟨.emergency .dropWithHandle, none⟩
      else ⟨.quiesce, none⟩

end Selecting

/-- One step of an escalation; the place on the ladder is a machine sum. -/
def escalate (step bound : Nat) (degradation : DegradationClass) : LadderChoice :=
  if bound = 0 then .quiesce
  else if bound ≤ step then .wrapUp
  else if step = 0 then .emergency degradation.emergencyRung
  else .rung (Rung.all.get
    ⟨(degradation.emergencyRung.index + step) % 2 ^ 64 % Rung.all.length,
      Nat.mod_lt _ (by decide)⟩)

section Exact

variable {β γ : Type} [LinearOrder β] [LT γ] [DecidableLT γ] {candidates : List (Candidate β γ)}
  {caps : Capabilities} {scorerAvailable : Bool} {confidenceFloor : γ} {rung : Rung}

/-- The estimates of a rung decide: there is a scorer, and one of its candidates
reaches the floor. -/
def Scored (candidates : List (Candidate β γ)) (scorerAvailable : Bool) (confidenceFloor : γ)
    (rung : Rung) : Prop :=
  scorerAvailable = true ∧ ∃ candidate ∈ candidates, candidate.rung = rung ∧
    ¬ candidate.confidence < confidenceFloor

/-- The rung is within the capabilities and has a candidate, and it is scored or
flagged for an emergency. -/
structure Offered (candidates : List (Candidate β γ)) (caps : Capabilities)
    (scorerAvailable : Bool) (confidenceFloor : γ) (rung : Rung) : Prop where
  capable : Ladder.capable caps rung = true
  present : ∃ candidate ∈ candidates, candidate.rung = rung
  admitted : Scored candidates scorerAvailable confidenceFloor rung ∨ rung.emergency = true

/-- A selection of one candidate of the rung: by its estimate the last of the best
ones, in an emergency the first one. -/
def Chosen (candidates : List (Candidate β γ)) (scorerAvailable : Bool) (confidenceFloor : γ)
    (rung : Rung) (selection : Selection) : Prop :=
  ∃ index candidate, selection.candidateIndex = some index ∧ candidates[index]? = some candidate ∧
    candidate.rung = rung ∧
    ((selection.choice = .rung rung ∧ Scored candidates scorerAvailable confidenceFloor rung ∧
        ∀ place other, candidates[place]? = some other → other.rung = rung →
          other.benefit ≤ candidate.benefit ∧
            (other.benefit = candidate.benefit → place ≤ index)) ∨
      (selection.choice = .emergency rung ∧
        ¬ Scored candidates scorerAvailable confidenceFloor rung ∧ rung.emergency = true ∧
        ∀ place other, candidates[place]? = some other → other.rung = rung → index ≤ place))

omit [LinearOrder β] [LT γ] [DecidableLT γ] in
theorem mem_matching {candidate : Candidate β γ} {place : Nat} :
    (candidate, place) ∈ matching candidates rung ↔
      candidates[place]? = some candidate ∧ candidate.rung = rung := by
  rw [matching, List.mem_filter, List.mem_zipIdx_iff_getElem?, decide_eq_true_eq]

omit [LinearOrder β] [LT γ] [DecidableLT γ] in
/-- The places of the candidates of a rung ascend. -/
theorem matching_ascends : (matching candidates rung).Pairwise fun left right =>
    left.2 < right.2 := by
  apply List.Pairwise.filter
  have ascends : (candidates.zipIdx.map Prod.snd).Pairwise (· < ·) := by
    rw [List.zipIdx_map_snd]
    exact List.pairwise_lt_range'
  exact List.pairwise_map.mp ascends

omit [LT γ] [DecidableLT γ] in
/-- The best of a list is in it, and of the equals it is the last. -/
theorem lastBest_spec (first : Candidate β γ × Nat) (rest : List (Candidate β γ × Nat))
    (ascends : (first :: rest).Pairwise fun left right => left.2 < right.2) :
    lastBest first rest ∈ first :: rest ∧ ∀ entry ∈ first :: rest,
      entry.1.benefit ≤ (lastBest first rest).1.benefit ∧
        (entry.1.benefit = (lastBest first rest).1.benefit → entry.2 ≤ (lastBest first rest).2) := by
  induction rest using List.reverseRecOn with
  | nil =>
      simp [lastBest]
  | append_singleton before next ih =>
      rw [← List.cons_append, List.pairwise_append] at ascends
      rcases ascends with ⟨earlier, _, apart⟩
      rcases ih earlier with ⟨member, best⟩
      have last : lastBest first (before ++ [next]) =
          if next.1.benefit < (lastBest first before).1.benefit then lastBest first before
          else next := by
        unfold lastBest
        rw [List.foldl_append]
        rfl
      rw [last, ← List.cons_append]
      by_cases less : next.1.benefit < (lastBest first before).1.benefit
      · rw [if_pos less]
        constructor
        · exact List.mem_append_left _ member
        · intro entry inside
          rcases List.mem_append.mp inside with old | new
          · exact best entry old
          · rw [List.mem_singleton.mp new]
            exact ⟨less.le, fun same => absurd same less.ne⟩
      · rw [if_neg less]
        constructor
        · exact List.mem_append_right _ List.mem_cons_self
        · intro entry inside
          rcases List.mem_append.mp inside with old | new
          · constructor
            · exact (best entry old).1.trans (not_lt.mp less)
            · intro _
              exact (apart entry old next List.mem_cons_self).le
          · rw [List.mem_singleton.mp new]
            exact ⟨le_rfl, fun _ => le_rfl⟩

omit [LinearOrder β] [LT γ] [DecidableLT γ] in
theorem matching_eq_nil_iff :
    matching candidates rung = [] ↔ ¬ ∃ candidate ∈ candidates, candidate.rung = rung := by
  constructor
  · rintro none ⟨candidate, member, same⟩
    rcases List.getElem?_of_mem member with ⟨place, present⟩
    have inside := mem_matching.mpr ⟨present, same⟩
    rw [none] at inside
    exact List.not_mem_nil inside
  · intro none
    rw [List.eq_nil_iff_forall_not_mem]
    rintro ⟨candidate, place⟩ inside
    rcases mem_matching.mp inside with ⟨present, same⟩
    exact none ⟨candidate, List.mem_of_getElem? present, same⟩

theorem selectRung_cases :
    (selectRung candidates caps scorerAvailable confidenceFloor rung = none ∧
      ¬ Offered candidates caps scorerAvailable confidenceFloor rung) ∨
    (Offered candidates caps scorerAvailable confidenceFloor rung ∧
      ∃ selection, selectRung candidates caps scorerAvailable confidenceFloor rung =
          some selection ∧ Chosen candidates scorerAvailable confidenceFloor rung selection) := by
  unfold selectRung
  by_cases able : capable caps rung = true
  · rw [able, Bool.not_true, if_neg Bool.false_ne_true]
    cases found : matching candidates rung with
    | nil =>
        left
        exact ⟨rfl, fun offered => matching_eq_nil_iff.mp found offered.present⟩
    | cons first rest =>
        have present : ∃ candidate ∈ candidates, candidate.rung = rung := by
          by_contra none
          rw [matching_eq_nil_iff.mpr none] at found
          cases found
        have member : first ∈ matching candidates rung := found ▸ List.mem_cons_self
        have ascends := @matching_ascends β γ candidates rung
        rw [found] at ascends
        have scored : ((!scorerAvailable || (first :: rest).all fun entry =>
            entry.1.confidence < confidenceFloor) = false) ↔
              Scored candidates scorerAvailable confidenceFloor rung := by
          rw [Bool.or_eq_false_iff, Bool.not_eq_false', List.all_eq_false]
          simp only [decide_eq_true_eq]
          rw [Scored, ← found]
          constructor
          · rintro ⟨scorer, ⟨candidate, place⟩, inside, confident⟩
            rcases mem_matching.mp inside with ⟨listed, same⟩
            exact ⟨scorer, candidate, List.mem_of_getElem? listed, same, confident⟩
          · rintro ⟨scorer, candidate, listed, same, confident⟩
            rcases List.getElem?_of_mem listed with ⟨place, there⟩
            exact ⟨scorer, (candidate, place), mem_matching.mpr ⟨there, same⟩, confident⟩
        simp only
        cases urgent : (!scorerAvailable || (first :: rest).all fun entry =>
            entry.1.confidence < confidenceFloor) with
        | false =>
            right
            have decided := scored.mp urgent
            rcases lastBest_spec first rest ascends with ⟨inside, best⟩
            rw [← found] at inside best
            rcases mem_matching.mp (show (_, _) ∈ _ from inside) with ⟨there, same⟩
            refine ⟨⟨able, present, .inl decided⟩, _, rfl, _, _, rfl, there, same,
              .inl ⟨rfl, decided, ?_⟩⟩
            intro place other listed alike
            exact best (other, place) (mem_matching.mpr ⟨listed, alike⟩)
        | true =>
            have undecided : ¬ Scored candidates scorerAvailable confidenceFloor rung := by
              rw [← scored, urgent]
              exact Bool.noConfusion
            by_cases flagged : rung.emergency = true
            · right
              rcases mem_matching.mp (show (_, _) ∈ _ from member) with ⟨there, same⟩
              rw [flagged]
              refine ⟨⟨able, present, .inr flagged⟩, _, rfl, _, _, rfl, there, same,
                .inr ⟨rfl, undecided, flagged, ?_⟩⟩
              intro place other listed alike
              have inside := mem_matching.mpr ⟨listed, alike⟩
              rw [found] at inside
              rcases List.mem_cons.mp inside with own | later
              · rw [← own]
              · exact ((List.pairwise_cons.mp ascends).1 _ later).le
            · left
              rw [Bool.not_eq_true] at flagged
              rw [flagged]
              constructor
              · rfl
              · rintro ⟨_, _, decided | emergency⟩
                · exact undecided decided
                · rw [flagged] at emergency
                  cases emergency
  · left
    rw [Bool.not_eq_true] at able
    rw [able]
    constructor
    · rfl
    · intro offered
      rw [offered.capable] at able
      cases able

/-- A selection takes the first rung of the fixed order that is offered.  When none
is, a region whose placeholders cannot be collapsed drops to handles, and any other
one quiesces; no candidate is named then. -/
theorem selectCandidate_exact (candidates : List (Candidate β γ)) (caps : Capabilities)
    (scorerAvailable : Bool) (confidenceFloor : γ) :
    let selection := selectCandidate candidates caps scorerAvailable confidenceFloor
    (∃ before rung after, Rung.all = before ++ rung :: after ∧
      (∀ earlier ∈ before, ¬ Offered candidates caps scorerAvailable confidenceFloor earlier) ∧
      Offered candidates caps scorerAvailable confidenceFloor rung ∧
      Chosen candidates scorerAvailable confidenceFloor rung selection) ∨
    ((∀ rung, ¬ Offered candidates caps scorerAvailable confidenceFloor rung) ∧
      selection.candidateIndex = none ∧
      (((∃ candidate ∈ candidates, candidate.rung = .collapsePlaceholders) ∧
          caps.collapsePlaceholders = false ∧ caps.dropWithHandle = true ∧
          selection.choice = .emergency .dropWithHandle) ∨
        (¬ ((∃ candidate ∈ candidates, candidate.rung = .collapsePlaceholders) ∧
          caps.collapsePlaceholders = false ∧ caps.dropWithHandle = true) ∧
          selection.choice = .quiesce))) := by
  intro selection
  have listed : ∀ rung, rung ∈ Rung.all := by
    intro rung
    cases rung <;> decide
  cases found : Rung.all.findSome? (selectRung candidates caps scorerAvailable confidenceFloor) with
  | some chosen =>
      left
      have same : selection = chosen := by
        change selectCandidate candidates caps scorerAvailable confidenceFloor = chosen
        rw [selectCandidate, found]
      rcases List.findSome?_eq_some_iff.mp found with ⟨before, rung, after, split, taken, missed⟩
      rcases @selectRung_cases β γ _ _ _ candidates caps scorerAvailable confidenceFloor rung with
        ⟨none, _⟩ | ⟨offered, other, taken', selected⟩
      · rw [taken] at none
        cases none
      · rw [taken, Option.some.injEq] at taken'
        refine ⟨before, rung, after, split, ?_, offered, ?_⟩
        · intro earlier member offered
          rcases @selectRung_cases β γ _ _ _ candidates caps scorerAvailable confidenceFloor earlier
            with ⟨_, unoffered⟩ | ⟨_, other, taken, _⟩
          · exact unoffered offered
          · rw [missed earlier member] at taken
            cases taken
        · rw [same, taken']
          exact selected
  | none =>
      right
      rw [List.findSome?_eq_none_iff] at found
      constructor
      · intro rung offered
        rcases @selectRung_cases β γ _ _ _ candidates caps scorerAvailable confidenceFloor rung with
          ⟨_, unoffered⟩ | ⟨_, other, taken, _⟩
        · exact unoffered offered
        · rw [found rung (listed rung)] at taken
          cases taken
      · have same : selection =
            if ((candidates.any fun candidate => candidate.rung = .collapsePlaceholders) &&
                !caps.collapsePlaceholders) && caps.dropWithHandle then
              ⟨.emergency .dropWithHandle, none⟩
            else ⟨.quiesce, none⟩ := by
          change selectCandidate candidates caps scorerAvailable confidenceFloor = _
          rw [selectCandidate, List.findSome?_eq_none_iff.mpr found]
        have blocked : (((candidates.any fun candidate => candidate.rung = .collapsePlaceholders) &&
            !caps.collapsePlaceholders) && caps.dropWithHandle) = true ↔
            (∃ candidate ∈ candidates, candidate.rung = .collapsePlaceholders) ∧
              caps.collapsePlaceholders = false ∧ caps.dropWithHandle = true := by
          simp [and_assoc]
        by_cases drops : (∃ candidate ∈ candidates, candidate.rung = .collapsePlaceholders) ∧
            caps.collapsePlaceholders = false ∧ caps.dropWithHandle = true
        · rw [same, if_pos (blocked.mpr drops)]
          exact ⟨rfl, .inl ⟨drops.1, drops.2.1, drops.2.2, rfl⟩⟩
        · rw [same, if_neg (fun urgent => drops (blocked.mp urgent))]
          exact ⟨rfl, .inr ⟨drops, rfl⟩⟩

end Exact

section Escalations

variable {degradation : DegradationClass} {step bound : Nat} {rung : Rung}

theorem escalate_zero (positive : 0 < bound) :
    escalate 0 bound degradation = .emergency degradation.emergencyRung := by
  rw [escalate, if_neg (Nat.ne_of_gt positive), if_neg (Nat.not_le.mpr positive), if_pos rfl]

/-- The rung of a step that is still on the ladder. -/
theorem escalate_of_lt (below : step < bound)
    (machine : degradation.emergencyRung.index + step < 2 ^ 64) :
    ∃ rung, (escalate step bound degradation = .rung rung ∨
        (step = 0 ∧ escalate step bound degradation = .emergency rung)) ∧
      rung.index = (degradation.emergencyRung.index + step) % 6 := by
  by_cases first : step = 0
  · subst first
    refine ⟨degradation.emergencyRung, .inr ⟨rfl, escalate_zero below⟩, ?_⟩
    cases degradation <;> rfl
  · unfold escalate
    rw [if_neg (Nat.ne_of_gt (Nat.zero_lt_of_lt below)), if_neg (Nat.not_le.mpr below),
      if_neg first]
    have indexed : ∀ place : Fin Rung.all.length, (Rung.all.get place).index = place.val := by
      decide
    refine ⟨_, .inl rfl, (indexed _).trans ?_⟩
    simp only [Nat.mod_eq_of_lt machine]
    rfl

/-- A step that visits a rung tells its place. -/
theorem index_of_visits (below : step < bound)
    (machine : degradation.emergencyRung.index + step < 2 ^ 64)
    (visits : escalate step bound degradation = .rung rung ∨
      escalate step bound degradation = .emergency rung) :
    rung.index = (degradation.emergencyRung.index + step) % 6 := by
  rcases escalate_of_lt below machine with ⟨own, taken | ⟨_, taken⟩, indexed⟩
  · rcases visits with same | same
    · rw [taken, LadderChoice.rung.injEq] at same
      rw [← same, indexed]
    · rw [taken] at same
      cases same
  · rcases visits with same | same
    · rw [taken] at same
      cases same
    · rw [taken, LadderChoice.emergency.injEq] at same
      rw [← same, indexed]

/-- Below its bound an escalation starts at the emergency rung of its class, and any
six steps in a row visit every rung, each one once, unless the sum that places them
overflows. -/
theorem escalate_covers (degradation : DegradationClass) (bound : Nat) :
    (0 < bound → escalate 0 bound degradation = .emergency degradation.emergencyRung) ∧
    ∀ first, first + 6 ≤ bound → degradation.emergencyRung.index + first + 6 ≤ 2 ^ 64 →
      ∀ rung, ∃ step, (first ≤ step ∧ step < first + 6) ∧
        (escalate step bound degradation = .rung rung ∨
          (step = 0 ∧ escalate step bound degradation = .emergency rung)) ∧
        ∀ other, first ≤ other → other < first + 6 →
          (escalate other bound degradation = .rung rung ∨
            escalate other bound degradation = .emergency rung) → other = step := by
  refine ⟨escalate_zero, ?_⟩
  intro first room machine rung
  have small : rung.index < 6 := by
    cases rung <;> decide
  have start : degradation.emergencyRung.index < 6 := by
    cases degradation <;> decide
  have indexes : ∀ own : Rung, own.index = rung.index → own = rung := by
    intro own same
    cases own <;> cases rung <;> first | rfl | cases same
  have placed : ∀ other, other < first + 6 →
      other < bound ∧ degradation.emergencyRung.index + other < 2 ^ 64 := by
    intro other high
    omega
  obtain ⟨step, low, high, reaches⟩ : ∃ step, first ≤ step ∧ step < first + 6 ∧
      (degradation.emergencyRung.index + step) % 6 = rung.index := by
    generalize degradation.emergencyRung.index = origin at start
    exact ⟨first + (rung.index + 6 - (origin + first) % 6) % 6, by omega, by omega, by omega⟩
  refine ⟨step, ⟨low, high⟩, ?_, ?_⟩
  · rcases placed step high with ⟨below, fits⟩
    rcases escalate_of_lt below fits with ⟨own, taken, indexed⟩
    rw [← indexes own (indexed.trans reaches)]
    exact taken
  · intro other from_ high' visits
    rcases placed other high' with ⟨below, fits⟩
    have indexed := index_of_visits below fits visits
    omega

/-- The steps of a bound of six, from the emergency on. -/
theorem escalate_covers_six :
    escalate 0 6 .generalDegradation = .emergency .condense ∧
      ∃ step, (0 ≤ step ∧ step < 0 + 6) ∧
        (escalate step 6 .generalDegradation = .rung .foldAwayEphemeral ∨
          (step = 0 ∧ escalate step 6 .generalDegradation = .emergency .foldAwayEphemeral)) ∧
        ∀ other, 0 ≤ other → other < 0 + 6 →
          (escalate other 6 .generalDegradation = .rung .foldAwayEphemeral ∨
            escalate other 6 .generalDegradation = .emergency .foldAwayEphemeral) →
          other = step :=
  ⟨(escalate_covers .generalDegradation 6).1 (by decide),
    (escalate_covers .generalDegradation 6).2 0 (Nat.le_refl 6) (by decide) .foldAwayEphemeral⟩

end Escalations

end Ladder

end Llxprt.Policy
