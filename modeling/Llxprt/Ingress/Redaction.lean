import Llxprt.Ingress.Redactor
import Mathlib.Data.List.Basic
import Mathlib.Data.List.TakeWhile
import Mathlib.Logic.Relation

/-!
# Completeness of redaction

A scan jumps to the end of every token it finds.  A marker that begins inside a
token is covered by it up to the next delimiter, so what the redactor can miss
is the rest of a marker that has a delimiter in it.
-/

namespace Llxprt.Ingress

open Llxprt.Kernel

/-- The marker occurs at the position. -/
def Occurs (raw : Bytes) (marker : String) (position : Nat) : Prop :=
  utf8 marker <+: raw.drop position

/-- The end of the token that begins with the marker at the position: the first
delimiter at or after the end of the marker, or the end of the payload. -/
def tokenEnd (raw : Bytes) (marker : String) (position : Nat) : Nat :=
  position + Detector.tokenLength marker (raw.drop position)

namespace Detector

/-- One round of a scan, from one position to the next. -/
inductive Step (detector : Detector) (raw : Bytes) : Nat → Nat → Prop
  | pass {position : Nat} (inside : position < raw.length)
      (unmarked : detector.matchingMarker (raw.drop position) = none) :
      Step detector raw position (position + 1)
  | jump {position : Nat} {marker : String} (inside : position < raw.length)
      (marked : detector.matchingMarker (raw.drop position) = some marker) :
      Step detector raw position (tokenEnd raw marker position)

/-- The scan, from one position on, stops at the marker. -/
structure Stops (detector : Detector) (raw : Bytes) (first : Nat) (marker : String)
    (position : Nat) : Prop where
  reached : Relation.ReflTransGen (Step detector raw) first position
  inside : position < raw.length
  marked : detector.matchingMarker (raw.drop position) = some marker

end Detector

section Tokens

variable {raw : Bytes} {marker : String} {position byte : Nat} {detector : Detector}

theorem tokenEnd_eq : tokenEnd raw marker position = position + (utf8 marker).length +
    ((raw.drop (position + (utf8 marker).length)).takeWhile fun value =>
      !Detector.isDelimiter value).length := by
  rw [tokenEnd, Detector.tokenLength, List.drop_drop, Nat.add_assoc]

/-- The element behind the longest run of good ones is bad. -/
theorem bad_of_takeWhile {α : Type} {good : α → Bool} {items : List α}
    (more : (items.takeWhile good).length < items.length) :
    ∃ item, items[(items.takeWhile good).length]? = some item ∧ good item = false := by
  induction items with
  | nil => simp at more
  | cons item items ih =>
      cases test : good item with
      | false => exact ⟨item, by rw [List.takeWhile_cons_of_neg (by simp [test])]; rfl, test⟩
      | true =>
          rw [List.takeWhile_cons_of_pos test] at more ⊢
          exact ih (by simpa using more)

/-- Behind its marker a token has no delimiter. -/
theorem not_delimiter_of_token (behind : position + (utf8 marker).length ≤ byte)
    (before : byte < tokenEnd raw marker position) :
    ∃ value, raw[byte]? = some value ∧ Detector.isDelimiter value = false := by
  rw [tokenEnd_eq] at before
  rcases Nat.exists_eq_add_of_le behind with ⟨further, rfl⟩
  have short : further < ((raw.drop (position + (utf8 marker).length)).takeWhile fun value =>
      !Detector.isDelimiter value).length := by
    omega
  have plain := List.mem_takeWhile_imp (List.getElem_mem short)
  refine ⟨_, ?_, by simpa using plain⟩
  rw [← List.getElem?_drop, (List.takeWhile_prefix _).getElem short]
  exact List.getElem?_eq_getElem _

/-- A token ends with the payload or at a delimiter. -/
theorem delimiter_of_tokenEnd (inside : tokenEnd raw marker position < raw.length) :
    ∃ value, raw[tokenEnd raw marker position]? = some value ∧
      Detector.isDelimiter value = true := by
  rw [tokenEnd_eq] at inside ⊢
  have more : ((raw.drop (position + (utf8 marker).length)).takeWhile fun value =>
      !Detector.isDelimiter value).length <
        (raw.drop (position + (utf8 marker).length)).length := by
    rw [List.length_drop]
    omega
  rcases bad_of_takeWhile more with ⟨value, here, delimiter⟩
  rw [List.getElem?_drop] at here
  exact ⟨value, here, by simpa using delimiter⟩

end Tokens

section Scans

variable {raw : Bytes} {marker : String} {first next position byte : Nat} {detector : Detector}

/-- What a scan that came to its end has found. -/
def ScanVerdict.detections : ScanVerdict → Option (List Detection)
  | clean => some []
  | detected detections => some detections
  | budgetExhausted | failed => none

theorem Detector.Step.unique {other : Nat} (step : Step detector raw first next)
    (same : Step detector raw first other) : next = other := by
  cases step with
  | pass _ unmarked =>
      cases same with
      | pass => rfl
      | jump _ marked =>
          rw [unmarked] at marked
          cases marked
  | jump _ marked =>
      cases same with
      | pass _ unmarked =>
          rw [marked] at unmarked
          cases unmarked
      | jump _ marked' =>
          rw [marked] at marked'
          cases marked'
          rfl

/-- The stops of a scan are the one at its first position, if that is marked, and
those behind it. -/
theorem stops_iff (step : Detector.Step detector raw first next) :
    detector.Stops raw first marker position ↔
      (position = first ∧ detector.matchingMarker (raw.drop first) = some marker) ∨
        detector.Stops raw next marker position := by
  constructor
  · rintro ⟨reached, inside, marked⟩
    rcases Relation.ReflTransGen.cases_head reached with rfl | ⟨other, leads, reached⟩
    · exact .inl ⟨rfl, marked⟩
    · rw [← step.unique leads] at reached
      exact .inr ⟨reached, inside, marked⟩
  · rintro (⟨rfl, marked⟩ | ⟨reached, inside, marked⟩)
    · refine ⟨.refl, ?_, marked⟩
      cases step <;> assumption
    · exact ⟨.head step reached, inside, marked⟩

theorem not_stops_at_end (ended : raw.length ≤ first) :
    ¬ detector.Stops raw first marker position := by
  rintro ⟨reached, inside, _⟩
  rcases Relation.ReflTransGen.cases_head reached with rfl | ⟨other, leads, _⟩
  · omega
  · cases leads <;> omega

/-- What the scan from a position on finds: the tokens it stops at, and with them
every position that is marked. -/
structure Found (detector : Detector) (raw : Bytes) (first : Nat) (before after : List Detection) :
    Prop where
  spans : ∀ span, (∃ found ∈ after, found.span = span) ↔ (∃ found ∈ before, found.span = span) ∨
    ∃ marker position, detector.Stops raw first marker position ∧
      span = ⟨position, tokenEnd raw marker position⟩
  marked : ∀ byte, first ≤ byte → byte < raw.length →
    (detector.matchingMarker (raw.drop byte)).isSome = true →
    ∃ marker position, detector.Stops raw first marker position ∧ position ≤ byte ∧
      byte < tokenEnd raw marker position

theorem found_at_end {before : List Detection} (ended : raw.length ≤ first) :
    Found detector raw first before before := by
  constructor
  · intro span
    constructor
    · exact .inl
    · rintro (known | ⟨marker, position, stops, _⟩)
      · exact known
      · exact absurd stops (not_stops_at_end ended)
  · intro byte from_first inside
    omega

/-- A round that passes a position finds what the rest finds. -/
theorem Found.pass {before after : List Detection} (inside : first < raw.length)
    (unmarked : detector.matchingMarker (raw.drop first) = none)
    (found : Found detector raw (first + 1) before after) :
    Found detector raw first before after := by
  have step := Detector.Step.pass inside unmarked
  have behind : ∀ {marker : String} {position : Nat}, detector.Stops raw first marker position ↔
      detector.Stops raw (first + 1) marker position := by
    intro marker position
    rw [stops_iff step, unmarked]
    simp
  constructor
  · intro span
    simp only [behind]
    exact found.spans span
  · intro byte from_first within marked
    simp only [behind]
    rcases Nat.lt_or_eq_of_le from_first with later | rfl
    · exact found.marked byte later within marked
    · rw [unmarked] at marked
      cases marked

/-- A round that stops at a marker finds its token and what the rest finds. -/
theorem Found.jump {before after : List Detection} (inside : first < raw.length)
    (marked : detector.matchingMarker (raw.drop first) = some marker)
    (found : Found detector raw (tokenEnd raw marker first)
      (before ++ [⟨detector.cls, ⟨first, tokenEnd raw marker first⟩⟩]) after) :
    Found detector raw first before after := by
  have step := Detector.Step.jump inside marked
  have here : detector.Stops raw first marker first := ⟨.refl, inside, marked⟩
  constructor
  · intro span
    rw [found.spans span]
    constructor
    · rintro (⟨known, member, rfl⟩ | ⟨other, position, stops, same⟩)
      · rcases List.mem_append.mp member with member | single
        · exact .inl ⟨known, member, rfl⟩
        · rw [List.mem_singleton.mp single]
          exact .inr ⟨marker, first, here, rfl⟩
      · exact .inr ⟨other, position, (stops_iff step).mpr (.inr stops), same⟩
    · rintro (⟨known, member, same⟩ | ⟨other, position, stops, same⟩)
      · exact .inl ⟨known, List.mem_append_left _ member, same⟩
      · rcases (stops_iff step).mp stops with ⟨rfl, also⟩ | stops
        · rw [marked, Option.some.injEq] at also
          subst also
          exact .inl ⟨_, List.mem_append_right _ (List.mem_singleton.mpr rfl), same.symm⟩
        · exact .inr ⟨other, position, stops, same⟩
  · intro byte from_first within isMarked
    by_cases covered : byte < tokenEnd raw marker first
    · exact ⟨marker, first, here, from_first, covered⟩
    · rcases found.marked byte (Nat.not_lt.mp covered) within isMarked with
        ⟨other, position, stops, rest⟩
      exact ⟨other, position, (stops_iff step).mpr (.inr stops), rest⟩

theorem scanLoop_found {budget : Nat} :
    ∀ {first : Nat} {before after : List Detection},
      (detector.scanLoop budget (raw.drop first) first before).detections = some after →
      Found detector raw first before after := by
  have ended : ∀ {budget first : Nat} {before after : List Detection}, raw.drop first = [] →
      (detector.scanLoop budget (raw.drop first) first before).detections = some after →
      Found detector raw first before after := by
    intro budget first before after empty outcome
    have kept : before = after := by
      rw [empty, Detector.scanLoop] at outcome
      split at outcome
      · rename_i none
        rw [none]
        exact Option.some.inj outcome
      · exact Option.some.inj outcome
    rw [← kept]
    exact found_at_end (List.drop_eq_nil_iff.mp empty)
  induction budget with
  | zero =>
      intro first before after outcome
      cases shape : raw.drop first with
      | nil => exact ended shape outcome
      | cons byte tail =>
          rw [shape, Detector.scanLoop] at outcome
          cases outcome
  | succ budget ih =>
      intro first before after outcome
      cases shape : raw.drop first with
      | nil => exact ended shape outcome
      | cons byte tail =>
          have inside : first < raw.length := by
            by_contra beyond
            rw [List.drop_eq_nil_of_le (Nat.not_lt.mp beyond)] at shape
            cases shape
          rw [shape, Detector.scanLoop] at outcome
          split at outcome
          · rename_i marker marked
            rw [← shape] at marked
            apply Found.jump inside marked
            apply ih
            rw [tokenEnd, ← List.drop_drop, shape]
            exact outcome
          · rename_i unmarked
            rw [← shape] at unmarked
            apply Found.pass inside unmarked
            apply ih
            rw [← List.drop_drop, shape]
            exact outcome

end Scans

section Overwriting

variable {raw bytes sanitized : Bytes} {byte : Nat} {listed : List Detector}
  {before redactions : List Detection}

/-- The position lies in the span. -/
def Span.Holds (span : Span) (byte : Nat) : Prop :=
  span.start ≤ byte ∧ byte < span.stop

theorem getElem?_overwrite {span : Span} :
    (span.Holds byte → (overwrite bytes span)[byte]? = bytes[byte]?.map fun _ => 88) ∧
      (¬ span.Holds byte → (overwrite bytes span)[byte]? = bytes[byte]?) := by
  simp only [overwrite, Span.Holds, List.getElem?_append, List.length_take, List.getElem?_take,
    List.getElem?_map, List.length_map, List.getElem?_drop]
  grind

theorem getElem?_foldl_overwrite (detections : List Detection) :
    ((∃ found ∈ detections, found.span.Holds byte) →
        (detections.foldl (fun bytes found => overwrite bytes found.span) bytes)[byte]? =
          bytes[byte]?.map fun _ => 88) ∧
      ((∀ found ∈ detections, ¬ found.span.Holds byte) →
        (detections.foldl (fun bytes found => overwrite bytes found.span) bytes)[byte]? =
          bytes[byte]?) := by
  induction detections generalizing bytes with
  | nil => simp
  | cons found detections ih =>
      rw [List.foldl_cons]
      have first := @getElem?_overwrite bytes byte found.span
      have rest := @ih (overwrite bytes found.span)
      by_cases later : ∃ other ∈ detections, other.span.Holds byte
      · have twice := rest.1 later
        constructor
        · intro _
          rw [twice]
          by_cases here : found.span.Holds byte
          · rw [first.1 here, Option.map_map]
            rfl
          · rw [first.2 here]
        · intro none
          rcases later with ⟨other, member, holds⟩
          exact absurd holds (none other (List.mem_cons_of_mem _ member))
      · have kept := rest.2 fun other member holds => later ⟨other, member, holds⟩
        constructor
        · rintro ⟨other, member, holds⟩
          rcases List.mem_cons.mp member with rfl | member
          · rw [kept, first.1 holds]
          · exact absurd ⟨other, member, holds⟩ later
        · intro none
          rw [kept, first.2 (none found List.mem_cons_self)]

/-- A scan of one of the detectors stops at a marker whose token holds the
position. -/
def Covered (listed : List Detector) (raw : Bytes) (byte : Nat) : Prop :=
  ∃ detector ∈ listed, ∃ marker position, detector.Stops raw 0 marker position ∧
    position ≤ byte ∧ byte < tokenEnd raw marker position

theorem scan_found {detector : Detector} {found : List Detection}
    (outcome : (detector.scan raw).detections = some found) : Found detector raw 0 [] found := by
  rw [Detector.scan] at outcome
  split at outcome
  · cases outcome
  · exact scanLoop_found outcome

theorem covered_cons {detector : Detector} {found : List Detection}
    (scanned : Found detector raw 0 [] found) :
    Covered (detector :: listed) raw byte ↔
      (∃ one ∈ found, one.span.Holds byte) ∨ Covered listed raw byte := by
  have tokens : (∃ one ∈ found, one.span.Holds byte) ↔
      ∃ marker position, detector.Stops raw 0 marker position ∧ position ≤ byte ∧
        byte < tokenEnd raw marker position := by
    constructor
    · rintro ⟨one, member, holds⟩
      rcases (scanned.spans one.span).mp ⟨one, member, rfl⟩ with
        ⟨_, absent, _⟩ | ⟨marker, position, stops, same⟩
      · cases absent
      · rw [same] at holds
        exact ⟨marker, position, stops, holds⟩
    · rintro ⟨marker, position, stops, holds⟩
      rcases (scanned.spans ⟨position, tokenEnd raw marker position⟩).mpr
        (.inr ⟨marker, position, stops, rfl⟩) with ⟨one, member, same⟩
      exact ⟨one, member, same ▸ holds⟩
  rw [tokens, Covered, List.exists_mem_cons_iff]
  rfl

/-- What the redactor makes of a byte when it sanitizes the payload. -/
structure Rewritten (listed : List Detector) (raw bytes sanitized : Bytes) (byte : Nat) : Prop where
  covered : Covered listed raw byte → sanitized[byte]? = bytes[byte]?.map fun _ => 88
  kept : ¬ Covered listed raw byte → sanitized[byte]? = bytes[byte]?
  marked : ∀ detector ∈ listed, byte < raw.length →
    (detector.matchingMarker (raw.drop byte)).isSome = true → Covered listed raw byte

/-- One detector more. -/
theorem Rewritten.cons {detector : Detector} {found : List Detection}
    (scanned : Found detector raw 0 [] found)
    (rest : Rewritten listed raw
      (found.foldl (fun bytes found => overwrite bytes found.span) bytes) sanitized byte) :
    Rewritten (detector :: listed) raw bytes sanitized byte := by
  have once := @getElem?_foldl_overwrite bytes byte found
  have cases := @covered_cons raw byte listed _ _ scanned
  constructor
  · rw [cases]
    intro covered
    by_cases later : Covered listed raw byte
    · rw [rest.covered later]
      by_cases here : ∃ one ∈ found, one.span.Holds byte
      · rw [once.1 here, Option.map_map]
        rfl
      · rw [once.2 fun one member holds => here ⟨one, member, holds⟩]
    · rw [rest.kept later, once.1 (covered.resolve_right later)]
  · rw [cases, not_or]
    rintro ⟨free, later⟩
    rw [rest.kept later, once.2 fun one member holds => free ⟨one, member, holds⟩]
  · intro other member inside marked
    rw [cases]
    rcases List.mem_cons.mp member with rfl | member
    · rcases scanned.marked byte (Nat.zero_le _) inside marked with
        ⟨marker, position, stops, holds⟩
      rcases (scanned.spans ⟨position, tokenEnd raw marker position⟩).mpr
        (.inr ⟨marker, position, stops, rfl⟩) with ⟨one, among, same⟩
      exact .inl ⟨one, among, same ▸ holds⟩
    · exact .inr (rest.marked other member inside marked)

theorem rewritten_of_redactWith
    (outcome : redactWith raw listed bytes before = .sanitized sanitized redactions) (byte : Nat) :
    Rewritten listed raw bytes sanitized byte := by
  induction listed generalizing bytes before with
  | nil =>
      cases outcome
      have bare : ¬ Covered [] raw byte := by
        rintro ⟨_, member, _⟩
        cases member
      refine ⟨fun covered => absurd covered bare, fun _ => rfl, ?_⟩
      rintro _ ⟨⟩
  | cons detector listed ih =>
      unfold redactWith at outcome
      split at outcome
      · rename_i clean
        have scanned : Found detector raw 0 [] [] := scan_found (by rw [clean]; rfl)
        exact .cons scanned (ih outcome)
      · rename_i detections detected
        have scanned : Found detector raw 0 [] detections := scan_found (by rw [detected]; rfl)
        exact .cons scanned (ih outcome)
      · cases outcome
      · cases outcome

end Overwriting

section Completeness

variable {raw sanitized : Bytes} {listed : List Detector} {redactions : List Detection}

/-- A detector of the list has the marker, and it occurs at the position. -/
def MarkedAt (listed : List Detector) (raw : Bytes) (marker : String) (position : Nat) : Prop :=
  position < raw.length ∧ ∃ detector ∈ listed, marker ∈ detector.markers ∧
    Occurs raw marker position

/-- A redaction hides every token of every marker and nothing else. -/
structure Redacted (listed : List Detector) (raw sanitized : Bytes) : Prop where
  length : sanitized.length = raw.length
  hidden : ∀ marker position, MarkedAt listed raw marker position →
    ∀ byte, position ≤ byte → byte < tokenEnd raw marker position → sanitized[byte]? = some 88
  kept : ∀ byte, (∀ marker position, MarkedAt listed raw marker position → position ≤ byte →
    tokenEnd raw marker position ≤ byte) → sanitized[byte]? = raw[byte]?

/-- Every delimiter within an occurrence of a marker is within a marker that a
scan stops at. -/
def DelimitersStopped (listed : List Detector) (raw : Bytes) : Prop :=
  ∀ marker position, MarkedAt listed raw marker position →
    ∀ byte value, position ≤ byte → byte < position + (utf8 marker).length →
      raw[byte]? = some value → Detector.isDelimiter value = true →
      ∃ detector ∈ listed, ∃ stop start, detector.Stops raw 0 stop start ∧ start ≤ byte ∧
        byte < start + (utf8 stop).length

theorem matchingMarker_of_occurs {detector : Detector} {marker : String} {position : Nat}
    (member : marker ∈ detector.markers) (occurs : Occurs raw marker position) :
    (detector.matchingMarker (raw.drop position)).isSome = true := by
  rw [Detector.matchingMarker, List.find?_isSome]
  exact ⟨marker, member, List.isPrefixOf_iff_prefix.mpr occurs⟩

theorem markedAt_of_stops {detector : Detector} {marker : String} {position : Nat}
    (member : detector ∈ listed) (stops : detector.Stops raw 0 marker position) :
    MarkedAt listed raw marker position := by
  have found := stops.marked
  rw [Detector.matchingMarker] at found
  refine ⟨stops.inside, detector, member, List.mem_of_find?_eq_some found, ?_⟩
  exact List.isPrefixOf_iff_prefix.mp (by simpa using List.find?_some found)

theorem le_tokenEnd {marker : String} {position : Nat} :
    position + (utf8 marker).length ≤ tokenEnd raw marker position := by
  rw [tokenEnd_eq]
  exact Nat.le_add_right _ _

theorem lt_length_of_token {marker : String} {position byte : Nat}
    (occurs : Occurs raw marker position) (from_position : position ≤ byte)
    (before : byte < tokenEnd raw marker position) : byte < raw.length := by
  by_cases behind : position + (utf8 marker).length ≤ byte
  · rcases not_delimiter_of_token behind before with ⟨value, present, _⟩
    exact (List.getElem?_eq_some_iff.mp present).1
  · have fits := occurs.length_le
    rw [List.length_drop] at fits
    omega

/-- A scan that stops at the delimiters within the markers covers every token. -/
theorem DelimitersStopped.covered (stopped : DelimitersStopped listed raw)
    (rewritten : ∀ byte, Rewritten listed raw raw sanitized byte) {marker : String}
    {position byte : Nat} (marked : MarkedAt listed raw marker position)
    (from_position : position ≤ byte) (before : byte < tokenEnd raw marker position) :
    Covered listed raw byte := by
  have ⟨inside, detector, member, known, occurs⟩ := marked
  induction byte, from_position using Nat.le_induction with
  | base =>
      exact (rewritten position).marked detector member inside
        (matchingMarker_of_occurs known occurs)
  | succ byte from_position ih =>
      rcases ih (by omega) with ⟨other, among, stop, start, stops, first, last⟩
      by_cases on : byte + 1 < tokenEnd raw stop start
      · exact ⟨other, among, stop, start, stops, by omega, on⟩
      · have ends : tokenEnd raw stop start = byte + 1 := by omega
        have within := lt_length_of_token occurs (by omega) before
        -- the token ends here, so a delimiter stands here, and it is one within the marker
        rcases delimiter_of_tokenEnd (by rw [ends]; exact within) with ⟨value, present, delimiter⟩
        rw [ends] at present
        by_cases behind : position + (utf8 marker).length ≤ byte + 1
        · rcases not_delimiter_of_token behind before with ⟨same, here, plain⟩
          rw [present, Option.some.injEq] at here
          rw [here, plain] at delimiter
          cases delimiter
        · rcases stopped marker position marked (byte + 1) value (by omega) (by omega) present
            delimiter with ⟨next, listedNext, marker', start', stops', first', last'⟩
          exact ⟨next, listedNext, marker', start', stops', first',
            Nat.lt_of_lt_of_le last' le_tokenEnd⟩

theorem Redacted.stopped
    (outcome : redactWith raw listed raw [] = .sanitized sanitized redactions)
    (redacted : Redacted listed raw sanitized) : DelimitersStopped listed raw := by
  intro marker position marked byte value from_position within present delimiter
  have hidden := redacted.hidden marker position marked byte from_position
    (Nat.lt_of_lt_of_le within le_tokenEnd)
  have covered : Covered listed raw byte := by
    by_contra free
    rw [(rewritten_of_redactWith outcome byte).kept free, present, Option.some.injEq] at hidden
    rw [hidden] at delimiter
    exact absurd delimiter (by decide)
  rcases covered with ⟨detector, member, stop, start, stops, first, last⟩
  refine ⟨detector, member, stop, start, stops, first, ?_⟩
  by_contra behind
  rcases not_delimiter_of_token (Nat.not_lt.mp behind) last with ⟨same, here, plain⟩
  rw [present, Option.some.injEq] at here
  rw [here, plain] at delimiter
  cases delimiter

theorem DelimitersStopped.redacted
    (outcome : redactWith raw listed raw [] = .sanitized sanitized redactions)
    (stopped : DelimitersStopped listed raw) : Redacted listed raw sanitized := by
  have rewritten := rewritten_of_redactWith outcome
  refine ⟨length_of_redactWith outcome, ?_, ?_⟩
  · intro marker position marked byte from_position before
    have inside : byte < raw.length := by
      rcases marked with ⟨_, _, _, _, occurs⟩
      exact lt_length_of_token occurs from_position before
    rw [(rewritten byte).covered (stopped.covered rewritten marked from_position before),
      List.getElem?_eq_getElem inside, Option.map_some]
  · intro byte free
    apply (rewritten byte).kept
    rintro ⟨detector, member, marker, position, stops, first, last⟩
    have past := free marker position (markedAt_of_stops member stops) first
    omega

/-- Of a sanitized payload every token is hidden exactly when the scans stop at
every delimiter within a marker. -/
theorem redacted_iff (outcome : redactWith raw listed raw [] = .sanitized sanitized redactions) :
    Redacted listed raw sanitized ↔ DelimitersStopped listed raw :=
  ⟨Redacted.stopped outcome, DelimitersStopped.redacted outcome⟩

/-- Markers without delimiters leave nothing to stop at. -/
theorem delimitersStopped_of_plain
    (plain : ∀ detector ∈ listed, ∀ marker ∈ detector.markers, ∀ value ∈ utf8 marker,
      Detector.isDelimiter value = false) : DelimitersStopped listed raw := by
  intro marker position marked byte value from_position within present delimiter
  rcases marked with ⟨_, detector, member, known, occurs⟩
  rcases Nat.exists_eq_add_of_le from_position with ⟨offset, rfl⟩
  have short : offset < (utf8 marker).length := by omega
  rw [← List.getElem?_drop] at present
  have same := List.getElem?_eq_getElem short
  rw [occurs.getElem short, ← List.getElem?_eq_getElem, present] at same
  rw [plain detector member marker known value (List.mem_of_getElem? same)] at delimiter
  cases delimiter

end Completeness

section Leaks

def RedactionOutcome.shown : RedactionOutcome → Bytes
  | sanitized bytes _ => bytes
  | vaulted _ _ => []

/-- A bearer token right behind another one that has no value. -/
def nestedBearer : Bytes :=
  utf8 "Bearer CTXEVAL-Bearer CTXEVAL-key"

theorem nested_bearer_leaks :
    ¬ ∀ (raw sanitized : Bytes) (listed : List Detector) (redactions : List Detection),
      redactWith raw listed raw [] = .sanitized sanitized redactions →
      Redacted listed raw sanitized := by
  intro claim
  have leaked : (redact 64 nestedBearer).shown[30]? = some 107 := by decide +kernel
  cases outcome : redact 64 nestedBearer with
  | vaulted reason byteLen =>
      rw [outcome] at leaked
      cases leaked
  | sanitized bytes redactions =>
      rw [outcome] at leaked
      have redacted := claim nestedBearer bytes (detectors 64) redactions outcome
      have occurs : Occurs nestedBearer "Bearer CTXEVAL-" 15 :=
        List.isPrefixOf_iff_prefix.mp (by decide +kernel)
      have hidden := redacted.hidden "Bearer CTXEVAL-" 15
        ⟨by decide +kernel, .new .bearerToken ["Bearer CTXEVAL-"] 64, by simp [detectors],
          by simp [Detector.new], occurs⟩ 30 (by decide) (by decide +kernel)
      change bytes[30]? = some 107 at leaked
      rw [leaked] at hidden
      cases hidden

/-- A note with one credential in it. -/
def credentialNote : Bytes :=
  utf8 "use sk-ctxeval12, then stop"

theorem credential_note_redacted :
    Redacted [.new .credentialToken ["sk-ctxeval", "auth-key-"] 64] credentialNote
      (utf8 "use XXXXXXXXXXXX, then stop") := by
  have outcome : redactWith credentialNote
      [.new .credentialToken ["sk-ctxeval", "auth-key-"] 64] credentialNote [] =
        .sanitized (utf8 "use XXXXXXXXXXXX, then stop") [⟨.credentialToken, ⟨4, 16⟩⟩] := by
    decide +kernel
  exact (redacted_iff outcome).mpr (delimitersStopped_of_plain (by decide +kernel))

end Leaks

end Llxprt.Ingress
