import Llxprt.Kernel.Weights
import Mathlib.Data.List.Infix
import Mathlib.Data.List.Perm.Subperm

/-!
# Exact secrets

The secrets are replaced one after another, each in the text that the ones before
it left.  Every character carries the place it comes from, so that the characters
of a marker are told from those of the text.
-/

namespace Llxprt.Redact

/-- A value and its place in the text; a marker has none. -/
structure Traced (α : Type) where
  value : α
  source : Option Nat
  deriving DecidableEq

section Definitions

/-- The characters of a text from a place on. -/
def traceFrom : Nat → List Char → List (Traced Char)
  | _, [] => []
  | place, char :: text => ⟨char, some place⟩ :: traceFrom (place + 1) text

def trace (text : List Char) : List (Traced Char) :=
  traceFrom 0 text

def values {α : Type} (glyphs : List (Traced α)) : List α :=
  glyphs.map Traced.value

def redactedMarker : List (Traced Char) :=
  "[redacted]".toList.map (⟨·, none⟩)

/-- `str::replace`, in the characters behind those of a match. -/
def replaceFrom (secret : List Char) : Nat → List (Traced Char) → List (Traced Char)
  | _, [] => []
  | skip + 1, _ :: rest => replaceFrom secret skip rest
  | 0, glyph :: rest =>
      if secret.isPrefixOf (values (glyph :: rest)) then
        redactedMarker ++ replaceFrom secret (secret.length - 1) rest
      else
        glyph :: replaceFrom secret 0 rest

def maxSecretBytes : Nat :=
  4096

/-- The first loop of `scrub_secrets`. -/
def scrubExact (secrets : List (List Char)) (text : List (Traced Char)) : List (Traced Char) :=
  secrets.foldl
    (fun out secret =>
      if secret ≠ [] ∧ Kernel.width secret ≤ maxSecretBytes then replaceFrom secret 0 out else out)
    text

end Definitions

section Hiding

variable {secrets others : List (List Char)} {secret : List Char} {glyphs rest : List (Traced Char)}
  {text : List Char}

/-- All secrets are hidden at once, in the characters behind those of a match. -/
def hideFrom (secrets : List (List Char)) : Nat → List (Traced Char) → List (Traced Char)
  | _, [] => []
  | skip + 1, _ :: rest => hideFrom secrets skip rest
  | 0, glyph :: rest =>
      match secrets.find? fun secret => secret.isPrefixOf (values (glyph :: rest)) with
      | some secret => redactedMarker ++ hideFrom secrets (secret.length - 1) rest
      | none => glyph :: hideFrom secrets 0 rest

def hide (secrets : List (List Char)) (glyphs : List (Traced Char)) : List (Traced Char) :=
  hideFrom secrets 0 glyphs

theorem replaceFrom_eq_hideFrom (secret : List Char) (skip : Nat) (glyphs : List (Traced Char)) :
    replaceFrom secret skip glyphs = hideFrom [secret] skip glyphs := by
  induction glyphs generalizing skip with
  | nil => cases skip <;> rfl
  | cons glyph rest ih =>
      cases skip with
      | succ skip =>
          rw [replaceFrom, hideFrom]
          exact ih skip
      | zero =>
          rw [replaceFrom, hideFrom, List.find?_cons, List.find?_nil]
          by_cases found : secret.isPrefixOf (values (glyph :: rest)) = true
          · rw [if_pos found, found]
            dsimp only
            rw [ih]
          · rw [if_neg found, Bool.eq_false_iff.mpr found]
            dsimp only
            rw [ih]

theorem hideFrom_drop (secrets : List (List Char)) (skip : Nat) (glyphs : List (Traced Char)) :
    hideFrom secrets skip glyphs = hide secrets (glyphs.drop skip) := by
  induction glyphs generalizing skip with
  | nil => cases skip <;> rfl
  | cons glyph rest ih =>
      cases skip with
      | zero => rfl
      | succ skip =>
          rw [hideFrom, List.drop_succ_cons]
          exact ih skip

/-- Where a secret begins it is hidden whole. -/
theorem hide_of_find (nonempty : secret ≠ [])
    (found : secrets.find? (fun secret => secret.isPrefixOf (values glyphs)) = some secret) :
    hide secrets glyphs = redactedMarker ++ hide secrets (glyphs.drop secret.length) := by
  cases glyphs with
  | nil =>
      have occurs := List.find?_some found
      rw [List.isPrefixOf_iff_prefix] at occurs
      exact absurd (List.prefix_nil.mp occurs) nonempty
  | cons glyph rest =>
      rw [hide, hideFrom, found]
      dsimp only
      rw [hideFrom_drop]
      cases secret with
      | nil => exact absurd rfl nonempty
      | cons char more => rfl

/-- Where no secret begins the character stays. -/
theorem hide_of_find_none {glyph : Traced Char}
    (found : secrets.find? (fun secret => secret.isPrefixOf (values (glyph :: rest))) = none) :
    hide secrets (glyph :: rest) = glyph :: hide secrets rest := by
  rw [hide, hideFrom, found]
  rfl

theorem hide_none (glyphs : List (Traced Char)) : hide [] glyphs = glyphs := by
  induction glyphs with
  | nil => rfl
  | cons glyph rest ih => rw [hide_of_find_none rfl, ih]

/-- The secret begins at the place. -/
def OccursAt (text secret : List Char) (place : Nat) : Prop :=
  secret <+: text.drop place

/-- No two occurrences of secrets overlap. -/
structure Separate (secrets : List (List Char)) (text : List Char) : Prop where
  same : ∀ first ∈ secrets, ∀ second ∈ secrets, ∀ place, OccursAt text first place →
    OccursAt text second place → first = second
  apart : ∀ first ∈ secrets, ∀ second ∈ secrets, ∀ place later, OccursAt text first place →
    OccursAt text second later → place < later → place + first.length ≤ later

theorem Separate.drop (separate : Separate secrets text) (count : Nat) :
    Separate secrets (text.drop count) := by
  constructor
  · intro first listed second also place occurs other
    rw [OccursAt, List.drop_drop] at occurs other
    exact separate.same first listed second also _ occurs other
  · intro first listed second also place later occurs other before
    rw [OccursAt, List.drop_drop] at occurs other
    have beyond := separate.apart first listed second also _ _ occurs other (by omega)
    omega

theorem Separate.subset (separate : Separate secrets text) (within : others ⊆ secrets) :
    Separate others text :=
  ⟨fun first listed second also => separate.same first (within listed) second (within also),
    fun first listed second also => separate.apart first (within listed) second (within also)⟩

/-- Every occurrence of the secret is made of characters of the text. -/
def Untouched (secret : List Char) (glyphs : List (Traced Char)) : Prop :=
  ∀ front back, glyphs = front ++ back → secret <+: values back →
    ∀ glyph ∈ back.take secret.length, glyph.source.isSome = true

theorem Untouched.append {front : List (Traced Char)} (untouched : Untouched secret (front ++ rest)) :
    Untouched secret rest := by
  intro before back split
  exact untouched (front ++ before) back (by rw [split, List.append_assoc])

/-- A secret that touches no marker leaves markers as they are. -/
theorem hide_marker {marker : List (Traced Char)} (some : secret ≠ [])
    (marks : ∀ glyph ∈ marker, glyph.source = none)
    (untouched : Untouched secret (marker ++ rest)) :
    hide [secret] (marker ++ rest) = marker ++ hide [secret] rest := by
  induction marker with
  | nil => rfl
  | cons glyph marker ih =>
      have absent : [secret].find? (fun secret =>
          secret.isPrefixOf (values (glyph :: (marker ++ rest)))) = none := by
        rw [List.find?_eq_none]
        intro listed member found
        rw [List.mem_singleton.mp member, List.isPrefixOf_iff_prefix] at found
        have touched := untouched [] _ rfl found glyph (by
          cases secret with
          | nil => exact absurd rfl some
          | cons char more => exact List.mem_cons_self)
        rw [marks glyph List.mem_cons_self] at touched
        cases touched
      rw [List.cons_append, hide_of_find_none absent,
        ih (fun other member => marks other (List.mem_cons_of_mem _ member))
          (@Untouched.append _ _ [glyph] untouched)]
      rfl

theorem redactedMarker_source : ∀ glyph ∈ redactedMarker, glyph.source = none := by
  decide

/-- Before the next secret everything stays. -/
theorem hide_take {count : Nat}
    (clear : ∀ place < count, ∀ secret ∈ secrets, ¬ secret <+: values (glyphs.drop place)) :
    hide secrets glyphs = glyphs.take count ++ hide secrets (glyphs.drop count) := by
  induction count generalizing glyphs with
  | zero => rfl
  | succ count ih =>
      cases glyphs with
      | nil => rfl
      | cons glyph rest =>
          have absent : secrets.find? (fun secret =>
              secret.isPrefixOf (values (glyph :: rest))) = none := by
            rw [List.find?_eq_none]
            intro secret listed found
            rw [List.isPrefixOf_iff_prefix] at found
            exact clear 0 (Nat.zero_lt_succ _) secret listed found
          rw [hide_of_find_none absent, List.take_succ_cons, List.drop_succ_cons, List.cons_append,
            ih fun place within => clear (place + 1) (Nat.succ_lt_succ within)]

/-- Characters of the text at the front of what is left are those that were there. -/
theorem take_hide {count : Nat} (nonempty : ∀ secret ∈ secrets, secret ≠ [])
    (traced : ∀ glyph ∈ (hide secrets glyphs).take count, glyph.source.isSome = true) :
    (hide secrets glyphs).take count = glyphs.take count ∨
      (hide secrets glyphs).length < count := by
  induction count generalizing glyphs with
  | zero => exact Or.inl rfl
  | succ count ih =>
      cases glyphs with
      | nil => exact Or.inl rfl
      | cons glyph rest =>
          cases found : secrets.find? (fun secret => secret.isPrefixOf (values (glyph :: rest))) with
          | some secret =>
              rw [hide_of_find (nonempty secret (List.mem_of_find?_eq_some found)) found] at traced
              have marked := traced ⟨'[', none⟩ List.mem_cons_self
              cases marked
          | none =>
              rw [hide_of_find_none found] at traced ⊢
              rw [List.take_succ_cons] at traced
              rcases ih fun other member => traced other (List.mem_cons_of_mem _ member) with
                same | short
              · rw [List.take_succ_cons, List.take_succ_cons, same]
                exact Or.inl rfl
              · exact Or.inr (Nat.succ_lt_succ short)

end Hiding

section Orders

variable {secrets : List (List Char)} {secret : List Char} {glyphs rest : List (Traced Char)}

theorem values_drop (glyphs : List (Traced Char)) (count : Nat) :
    values (glyphs.drop count) = (values glyphs).drop count :=
  List.map_drop

theorem values_append (front rest : List (Traced Char)) :
    values (front ++ rest) = values front ++ values rest :=
  List.map_append

theorem prefix_of_find {found : List Char}
    (find : secrets.find? (fun secret => secret.isPrefixOf (values glyphs)) = some found) :
    found <+: values glyphs := by
  have occurs := List.find?_some find
  rwa [List.isPrefixOf_iff_prefix] at occurs

theorem not_prefix_of_find
    (find : secrets.find? (fun secret => secret.isPrefixOf (values glyphs)) = none) :
    ∀ secret ∈ secrets, ¬ secret <+: values glyphs := by
  intro secret listed occurs
  rw [List.find?_eq_none] at find
  exact find secret listed (List.isPrefixOf_iff_prefix.mpr occurs)

/-- Among separate secrets at most one begins at a place. -/
theorem find_of_begins (separate : Separate secrets (values glyphs)) (listed : secret ∈ secrets)
    (occurs : secret <+: values glyphs) :
    secrets.find? (fun secret => secret.isPrefixOf (values glyphs)) = some secret := by
  cases find : secrets.find? fun secret => secret.isPrefixOf (values glyphs) with
  | none => exact absurd occurs (not_prefix_of_find find secret listed)
  | some found =>
      rw [separate.same found (List.mem_of_find?_eq_some find) secret listed 0
        (prefix_of_find find) occurs]

/-- Where a secret begins and no other one does, no other one begins within it. -/
theorem alone_of_begins (separate : Separate (secret :: secrets) (values glyphs))
    (occurs : secret <+: values glyphs) (clear : ∀ other ∈ secrets, ¬ other <+: values glyphs) :
    ∀ place < secret.length, ∀ other ∈ secrets, ¬ other <+: values (glyphs.drop place) := by
  intro place inside other listed begins
  rcases Nat.eq_zero_or_pos place with first | later
  · rw [first, List.drop_zero] at begins
    exact clear other listed begins
  · rw [values_drop] at begins
    have beyond := separate.apart secret List.mem_cons_self other
      (List.mem_cons_of_mem _ listed) 0 place occurs begins later
    omega

/-- No secret begins where the others are hidden that did not begin there before. -/
theorem not_begins_hide (nonempty : ∀ listed ∈ secrets, listed ≠ [])
    (untouched : Untouched secret (hide secrets glyphs)) (absent : ¬ secret <+: values glyphs) :
    ¬ secret <+: values (hide secrets glyphs) := by
  intro begins
  apply absent
  rcases take_hide nonempty (untouched [] (hide secrets glyphs) rfl begins) with same | short
  · have front := List.prefix_take_iff.mpr ⟨begins, Nat.le_refl _⟩
    rw [values, ← List.map_take, same, List.map_take] at front
    exact front.trans (List.take_prefix _ _)
  · have length := begins.length_le
    rw [values, List.length_map] at length
    omega

/-- One secret more, hidden in the text in which the others are: all of them, where no
two overlap and the secret touches no marker. -/
theorem hide_hide (nonempty : ∀ listed ∈ secret :: secrets, listed ≠ [])
    (separate : Separate (secret :: secrets) (values glyphs))
    (untouched : Untouched secret (hide secrets glyphs)) :
    hide [secret] (hide secrets glyphs) = hide (secret :: secrets) glyphs := by
  have others : Separate secrets (values glyphs) :=
    separate.subset (List.subset_cons_self _ _)
  have full := nonempty secret List.mem_cons_self
  induction size : glyphs.length using Nat.strong_induction_on generalizing glyphs with
  | _ size ih =>
      subst size
      have behind : ∀ count, 0 < count → count ≤ glyphs.length →
          Untouched secret (hide secrets (glyphs.drop count)) →
          hide [secret] (hide secrets (glyphs.drop count)) =
            hide (secret :: secrets) (glyphs.drop count) := by
        intro count positive within free
        have later := separate.drop count
        rw [← values_drop] at later
        exact ih _ (by rw [List.length_drop]; omega) later free
          (later.subset (List.subset_cons_self _ _)) rfl
      cases glyphs with
      | nil => rfl
      | cons glyph rest =>
          cases find : secrets.find? fun listed => listed.isPrefixOf (values (glyph :: rest)) with
          | some other =>
              -- another secret begins here
              have listed := List.mem_of_find?_eq_some find
              have otherFull := nonempty other (List.mem_cons_of_mem _ listed)
              have positive := List.length_pos_iff.mpr otherFull
              have within := (prefix_of_find find).length_le
              rw [values, List.length_map] at within
              rw [hide_of_find otherFull find] at untouched ⊢
              rw [hide_marker full redactedMarker_source untouched,
                behind _ positive within untouched.append,
                hide_of_find otherFull (find_of_begins separate (List.mem_cons_of_mem _ listed)
                  (prefix_of_find find))]
          | none =>
              have clear := not_prefix_of_find find
              by_cases occurs : secret <+: values (glyph :: rest)
              · -- the secret begins here, and no other one begins within it
                have positive := List.length_pos_iff.mpr full
                have within := occurs.length_le
                rw [values, List.length_map] at within
                have split := hide_take (alone_of_begins separate occurs clear)
                have front : secret <+: values (hide secrets (glyph :: rest)) := by
                  rw [split, values_append]
                  apply List.IsPrefix.trans _ (List.prefix_append _ _)
                  rw [values, List.map_take, ← values]
                  exact List.prefix_take_iff.mpr ⟨occurs, Nat.le_refl _⟩
                have single : [secret].find? (fun listed =>
                    listed.isPrefixOf (values (hide secrets (glyph :: rest)))) = some secret := by
                  rw [List.find?_cons, List.isPrefixOf_iff_prefix.mpr front]
                have rests : (hide secrets (glyph :: rest)).drop secret.length =
                    hide secrets ((glyph :: rest).drop secret.length) := by
                  rw [split]
                  exact List.drop_left' (List.length_take_of_le within)
                rw [hide_of_find full single, rests,
                  hide_of_find full (find_of_begins separate List.mem_cons_self occurs)]
                congr 1
                apply behind _ positive within
                rw [split] at untouched
                exact untouched.append
              · -- no secret begins here, and none does when the others are hidden
                have absent := not_begins_hide (List.forall_mem_cons.mp nonempty).2 untouched occurs
                rw [hide_of_find_none find] at absent untouched ⊢
                have single : [secret].find? (fun listed =>
                    listed.isPrefixOf (values (glyph :: hide secrets rest))) = none := by
                  rw [List.find?_eq_none]
                  intro listed member found
                  rw [List.mem_singleton.mp member, List.isPrefixOf_iff_prefix] at found
                  exact absent found
                have both : (secret :: secrets).find? (fun listed =>
                    listed.isPrefixOf (values (glyph :: rest))) = none := by
                  rw [List.find?_eq_none]
                  intro listed member found
                  rw [List.isPrefixOf_iff_prefix] at found
                  rcases List.mem_cons.mp member with rfl | also
                  · exact occurs found
                  · exact clear listed also found
                rw [hide_of_find_none single, hide_of_find_none both]
                congr 1
                exact behind 1 Nat.one_pos (by simp) (@Untouched.append _ _ [glyph] untouched)

/-- What is hidden depends on which secrets there are, not on their order. -/
theorem hide_congr {others : List (List Char)} (nonempty : ∀ listed ∈ secrets, listed ≠ [])
    (same : ∀ listed, listed ∈ secrets ↔ listed ∈ others)
    (separate : Separate secrets (values glyphs)) : hide secrets glyphs = hide others glyphs := by
  have alike : Separate others (values glyphs) :=
    separate.subset fun listed member => (same listed).mpr member
  induction size : glyphs.length using Nat.strong_induction_on generalizing glyphs with
  | _ size ih =>
      subst size
      cases glyphs with
      | nil => rfl
      | cons glyph rest =>
          cases find : secrets.find? fun listed => listed.isPrefixOf (values (glyph :: rest)) with
          | some secret =>
              have listed := List.mem_of_find?_eq_some find
              have full := nonempty secret listed
              have positive := List.length_pos_iff.mpr full
              have within := (prefix_of_find find).length_le
              rw [values, List.length_map] at within
              have later := separate.drop secret.length
              have laterAlike := alike.drop secret.length
              rw [← values_drop] at later laterAlike
              rw [hide_of_find full find, hide_of_find full
                (find_of_begins alike ((same secret).mp listed) (prefix_of_find find)),
                ih _ (by rw [List.length_drop]; omega) later laterAlike rfl]
          | none =>
              have absent : others.find? (fun listed =>
                  listed.isPrefixOf (values (glyph :: rest))) = none := by
                rw [List.find?_eq_none]
                intro listed member found
                rw [List.isPrefixOf_iff_prefix] at found
                exact not_prefix_of_find find listed ((same listed).mpr member) found
              rw [hide_of_find_none find, hide_of_find_none absent,
                ih rest.length (by simp) (separate.drop 1) (alike.drop 1) rfl]

end Orders

section Completeness

variable {secrets : List (List Char)} {text : List Char}

theorem values_traceFrom (place : Nat) (text : List Char) : values (traceFrom place text) = text := by
  induction text generalizing place with
  | nil => rfl
  | cons char text ih => exact congrArg (char :: ·) (ih (place + 1))

theorem drop_traceFrom (place count : Nat) (text : List Char) :
    (traceFrom place text).drop count = traceFrom (place + count) (text.drop count) := by
  induction count generalizing place text with
  | zero => rfl
  | succ count ih =>
      cases text with
      | nil => rfl
      | cons char text =>
          rw [traceFrom, List.drop_succ_cons, List.drop_succ_cons, ih, Nat.add_right_comm,
            Nat.add_assoc]

/-- An occurrence of a secret covers the place. -/
def CoveredAt (secrets : List (List Char)) (text : List Char) (place : Nat) : Prop :=
  ∃ secret ∈ secrets, ∃ start, OccursAt text secret start ∧ start ≤ place ∧
    place < start + secret.length

/-- What is left where the secrets are hidden is covered by none of them. -/
theorem not_covered_of_mem_hide {first : Nat} {glyph : Traced Char} {place : Nat}
    (nonempty : ∀ listed ∈ secrets, listed ≠ []) (separate : Separate secrets text)
    (member : glyph ∈ hide secrets (traceFrom first text)) (source : glyph.source = some place) :
    ∃ offset, place = first + offset ∧ ¬ CoveredAt secrets text offset := by
  induction size : text.length using Nat.strong_induction_on generalizing first text with
  | _ size ih =>
      subst size
      cases text with
      | nil => cases member
      | cons char rest =>
          cases find : secrets.find? fun listed =>
              listed.isPrefixOf (values (traceFrom first (char :: rest))) with
          | some secret =>
              have listed := List.mem_of_find?_eq_some find
              have full := nonempty secret listed
              have positive := List.length_pos_iff.mpr full
              have begins := prefix_of_find find
              rw [values_traceFrom] at begins
              have within := begins.length_le
              rw [hide_of_find full find, drop_traceFrom, List.mem_append] at member
              rcases member with marker | behind
              · rw [redactedMarker_source glyph marker] at source
                cases source
              · rcases ih _ (by rw [List.length_drop]; omega) (separate.drop secret.length) behind
                  rfl with ⟨offset, same, free⟩
                refine ⟨secret.length + offset, by omega, ?_⟩
                rintro ⟨other, also, start, occurs, before, inside⟩
                rcases Nat.lt_or_ge start secret.length with early | late
                · rcases Nat.eq_zero_or_pos start with zero | later
                  · rw [zero] at occurs
                    rw [separate.same other also secret listed 0 occurs begins] at inside
                    omega
                  · have beyond := separate.apart secret listed other also 0 start begins occurs later
                    omega
                · apply free
                  refine ⟨other, also, start - secret.length, ?_, by omega, by omega⟩
                  rw [OccursAt, List.drop_drop, Nat.add_sub_cancel' late]
                  exact occurs
          | none =>
              have clear := not_prefix_of_find find
              rw [values_traceFrom] at clear
              rw [traceFrom] at find member
              rw [hide_of_find_none find, List.mem_cons] at member
              rcases member with rfl | behind
              · cases source
                refine ⟨0, rfl, ?_⟩
                rintro ⟨other, also, start, occurs, before, -⟩
                rw [Nat.le_zero.mp before] at occurs
                exact clear other also occurs
              · rcases ih rest.length (by simp) (separate.drop 1) behind rfl with ⟨offset, same, free⟩
                refine ⟨offset + 1, by omega, ?_⟩
                rintro ⟨other, also, start, occurs, before, inside⟩
                cases start with
                | zero => exact clear other also occurs
                | succ start =>
                    apply free
                    exact ⟨other, also, start, occurs, by omega, by omega⟩

end Completeness

end Llxprt.Redact
