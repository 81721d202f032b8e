import Llxprt.Ingress.Restoration
import Llxprt.Ingress.Transaction

/-!
# The verdict of the filter

The rules route a payload by its size and by the structural classes of its
segments.  A relaxed rule table never routes a payload to a less preserving
verdict, except for bulk between the two size floors: it was digested only for
its size, and the higher floor drops it.
-/

namespace Llxprt.Ingress

open Llxprt.Kernel Llxprt.Rust

section Classes

/-- The segments of sanitized bytes with their classes. -/
def classify (bytes : Bytes) : List Segment :=
  (segment bytes).map fun span =>
    ⟨span, .ofLine ((bytes.drop span.start).take (span.stop - span.start))⟩

end Classes

inductive RuleVerdict where
  | passVerbatim
  | digest
  | dropBulk
  deriving DecidableEq

/-- How much of the payload a verdict preserves. -/
def RuleVerdict.preserved : RuleVerdict → Nat
  | .passVerbatim => 2
  | .digest => 1
  | .dropBulk => 0

theorem RuleVerdict.preserved_injective : Function.Injective preserved := by
  intro first second same
  cases first <;> cases second <;> first | rfl | cases same

/-- Verdicts in the order of what they preserve. -/
instance : LinearOrder RuleVerdict :=
  .lift' RuleVerdict.preserved RuleVerdict.preserved_injective

/-- The segments hold a span that is kept exactly. -/
def hasExact (segments : List Segment) : Bool :=
  segments.any fun segment =>
    segment.structural = .exactSpan || segment.structural = .identifier

/-- The segments hold compressible content. -/
def hasRanked (segments : List Segment) : Bool :=
  segments.any fun segment => segment.structural = .code || segment.structural = .testLog

def hasNoise (segments : List Segment) : Bool :=
  segments.any fun segment => segment.structural = .noise

/-- The verdict of one rule table on a payload of one tool. -/
def FilterRules.verdict (rules : FilterRules) (tool : String) (segments : List Segment)
    (total : Nat) : RuleVerdict :=
  if rules.verbatimTools.contains tool then
    .passVerbatim
  else if rules.sizeFloor ≤ total then
    .digest
  else if hasExact segments then
    .digest
  else if hasRanked segments then
    .digest
  else if hasNoise segments then
    .dropBulk
  else if total < rules.unknownBound then
    .passVerbatim
  else
    .dropBulk

/-- The verdict of the current rules. -/
def FilterRegistry.verdict (registry : FilterRegistry) (tool : String) (segments : List Segment)
    (total : Nat) : RuleVerdict :=
  registry.currentRules.verdict tool segments total

section Relaxation

variable {rules update : FilterRules} {tool : String} {segments : List Segment} {total : Nat}

/-- The payload was digested for its size alone, and the update drops it. -/
structure Demoted (rules update : FilterRules) (tool : String) (segments : List Segment)
    (total : Nat) : Prop where
  filtered : update.verbatimTools.contains tool = false
  atFloor : rules.sizeFloor ≤ total
  belowFloor : total < update.sizeFloor
  notExact : hasExact segments = false
  notRanked : hasRanked segments = false
  dropped : hasNoise segments = true ∨ update.unknownBound ≤ total

theorem RuleVerdict.le_passVerbatim (verdict : RuleVerdict) : verdict ≤ .passVerbatim := by
  cases verdict <;> decide

theorem verdict_of_verbatim (verbatim : rules.verbatimTools.contains tool = true) :
    rules.verdict tool segments total = .passVerbatim := by
  rw [FilterRules.verdict, if_pos verbatim]

/-- The payload is digested whatever the tail of the rules says. -/
def Digestible (rules : FilterRules) (segments : List Segment) (total : Nat) : Prop :=
  rules.sizeFloor ≤ total ∨ hasExact segments = true ∨ hasRanked segments = true

theorem verdict_of_digestible (filtered : rules.verbatimTools.contains tool = false)
    (digestible : Digestible rules segments total) :
    rules.verdict tool segments total = .digest := by
  rw [FilterRules.verdict, if_neg (by rw [filtered]; exact Bool.false_ne_true)]
  split
  · rfl
  · split
    · rfl
    · rename_i small notExact
      rcases digestible with large | exact_ | ranked
      · exact absurd large small
      · exact absurd exact_ notExact
      · rw [if_pos ranked]

/-- Below the floor a payload of a filtered tool without content to keep is
passed or dropped. -/
theorem verdict_of_bulk (filtered : rules.verbatimTools.contains tool = false)
    (small : total < rules.sizeFloor) (notExact : hasExact segments = false)
    (notRanked : hasRanked segments = false) :
    rules.verdict tool segments total =
      if hasNoise segments = true ∨ rules.unknownBound ≤ total then .dropBulk
      else .passVerbatim := by
  have under : ¬ rules.sizeFloor ≤ total := Nat.not_le_of_lt small
  rw [FilterRules.verdict, filtered, notExact, notRanked]
  simp only [Bool.false_eq_true, if_false, under]
  by_cases noise : hasNoise segments = true
  · rw [if_pos noise, if_pos (.inl noise)]
  · by_cases known : rules.unknownBound ≤ total
    · rw [if_neg noise, if_neg (Nat.not_lt_of_le known), if_pos (.inr known)]
    · rw [if_neg noise, if_pos (Nat.lt_of_not_le known), if_neg]
      rintro (isNoise | isKnown)
      · exact noise isNoise
      · exact known isKnown

theorem isRelaxationOf_iff : rules.isRelaxationOf update = true ↔
    rules.sizeFloor ≤ update.sizeFloor ∧ rules.unknownBound ≤ update.unknownBound ∧
      ∀ tool, rules.verbatimTools.contains tool = true →
        update.verbatimTools.contains tool = true := by
  simp [FilterRules.isRelaxationOf, and_assoc]

/-- A relaxation keeps the order of the verdicts except on demoted payloads. -/
theorem verdict_le_iff_of_isRelaxationOf (relaxation : rules.isRelaxationOf update = true) :
    rules.verdict tool segments total ≤ update.verdict tool segments total ↔
      ¬ Demoted rules update tool segments total := by
  rcases isRelaxationOf_iff.mp relaxation with ⟨floors, bounds, tools⟩
  cases filtered : update.verbatimTools.contains tool with
  | true =>
      rw [verdict_of_verbatim filtered]
      constructor
      · rintro _ ⟨notVerbatim, _⟩
        rw [filtered] at notVerbatim
        cases notVerbatim
      · exact fun _ => RuleVerdict.le_passVerbatim _
  | false =>
      have filteredBefore : rules.verbatimTools.contains tool = false := by
        rw [← Bool.not_eq_true]
        intro verbatim
        rw [tools tool verbatim] at filtered
        cases filtered
      by_cases digestible : Digestible update segments total
      · have digestibleBefore : Digestible rules segments total :=
          digestible.imp_left floors.trans
        rw [verdict_of_digestible filtered digestible,
          verdict_of_digestible filteredBefore digestibleBefore]
        constructor
        · rintro _ ⟨_, _, belowFloor, notExact, notRanked, _⟩
          rcases digestible with large | exact_ | ranked
          · exact absurd large (Nat.not_le_of_lt belowFloor)
          · rw [notExact] at exact_
            cases exact_
          · rw [notRanked] at ranked
            cases ranked
        · exact fun _ => le_refl _
      · rw [Digestible, not_or, not_or, Nat.not_le, Bool.not_eq_true, Bool.not_eq_true]
          at digestible
        rcases digestible with ⟨belowFloor, notExact, notRanked⟩
        rw [verdict_of_bulk filtered belowFloor notExact notRanked]
        by_cases dropped : hasNoise segments = true ∨ update.unknownBound ≤ total
        · rw [if_pos dropped]
          constructor
          · rintro ordered ⟨_, atFloor, _⟩
            rw [verdict_of_digestible filteredBefore (.inl atFloor)] at ordered
            exact absurd ordered (by decide)
          · intro kept
            have small : total < rules.sizeFloor := Nat.lt_of_not_le fun atFloor =>
              kept ⟨filtered, atFloor, belowFloor, notExact, notRanked, dropped⟩
            have droppedBefore : hasNoise segments = true ∨ rules.unknownBound ≤ total :=
              dropped.imp_right bounds.trans
            rw [verdict_of_bulk filteredBefore small notExact notRanked, if_pos droppedBefore]
        · rw [if_neg dropped]
          constructor
          · rintro _ ⟨_, _, _, _, _, isDropped⟩
            exact dropped isDropped
          · exact fun _ => RuleVerdict.le_passVerbatim _

/-- An update leads to a less preserving verdict exactly when it is accepted and
demotes the payload. -/
theorem verdict_updateRules_le_iff {registry : FilterRegistry} :
    registry.verdict tool segments total ≤
        (registry.updateRules update).2.verdict tool segments total ↔
      ¬ (FilterRegistry.Relaxes registry.currentRules update ∧
        Demoted registry.currentRules update tool segments total) := by
  by_cases accepted : FilterRegistry.Relaxes registry.currentRules update
  · have current : (registry.updateRules update).2.currentRules = update := by
      rw [FilterRegistry.updateRules_of_relaxes accepted]
      simp [FilterRegistry.currentRules]
    rw [FilterRegistry.verdict, FilterRegistry.verdict, current,
      verdict_le_iff_of_isRelaxationOf accepted.2]
    simp [accepted]
  · rcases registry.updateRules_cases update with kept | ⟨relaxes, _⟩
    · rw [kept]
      simp [accepted]
    · exact absurd relaxes accepted

end Relaxation

section Demotion

/-- Two thousand and forty-eight bytes of no known shape. -/
def filler : Bytes :=
  List.replicate 2048 120

/-- Raising the floor over a payload without a known shape drops what the
baseline rules digest. -/
theorem dropBulk_of_raised_floor :
    ¬ ∀ (registry : FilterRegistry) (update : FilterRules) (tool : String) (bytes : Bytes),
      (registry.updateRules update).1 = .ok update.version →
        registry.verdict tool (classify bytes) bytes.length ≤
          (registry.updateRules update).2.verdict tool (classify bytes) bytes.length := by
  intro always
  have ordered := always .new ⟨2, 4096, 64, []⟩ "read_file" filler rfl
  have before : FilterRegistry.new.verdict "read_file" (classify filler) filler.length =
      .digest := by
    decide +kernel
  have after : (FilterRegistry.new.updateRules ⟨2, 4096, 64, []⟩).2.verdict "read_file"
      (classify filler) filler.length = .dropBulk := by
    decide +kernel
  rw [before, after] at ordered
  exact absurd ordered (by decide)

end Demotion

end Llxprt.Ingress
