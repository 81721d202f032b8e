import Llxprt.Kernel.Encoding
import Llxprt.Rust.Utf8

/-!
# Truncated texts

A text over its budget is cut at the start of a character and marked.  A cut
inside a digest backs off to the start of the digest.
-/

namespace Llxprt.Tools

open Llxprt.Rust
open Llxprt.Kernel (utf8 utf8_append utf8_eq_flatten utf8_ofList)

def sha256HexLen : Nat :=
  64

def isAsciiDigit (byte : UInt8) : Bool :=
  0x30 ≤ byte && byte ≤ 0x39

def isLowercaseHex (byte : UInt8) : Bool :=
  isAsciiDigit byte || (0x61 ≤ byte && byte ≤ 0x66)

def avoidPartialHexRun (text : List UInt8) (cut : Nat) : Nat :=
  if cut = 0 ∨ text.length ≤ cut ∨ ¬ (text[cut]?.any isLowercaseHex) then
    cut
  else
    let start := cut - ((text.take cut).reverse.takeWhile isLowercaseHex).length
    let stop := cut + ((text.drop cut).takeWhile isLowercaseHex).length
    if stop - start ≠ sha256HexLen then cut else start

def truncate (text : List UInt8) (max : Nat) : List UInt8 :=
  if text.length ≤ max then
    text
  else
    let marker := utf8 ("...  [truncated " ++ toString text.length ++ " bytes]  ")
    if max ≤ marker.length then
      marker.take max
    else
      let cut := Utf8.floorBoundary text (max - marker.length)
      text.take (avoidPartialHexRun text cut) ++ marker

def truncationMarker : String :=
  "[truncated]"

def truncateUtf8 (text : List UInt8) (maxBytes : Nat) : List UInt8 :=
  if text.length ≤ maxBytes then
    text
  else
    let marker := utf8 truncationMarker
    if marker.length ≤ maxBytes then
      let cut := Utf8.floorBoundary text (maxBytes - marker.length)
      text.take (avoidPartialHexRun text cut) ++ marker
    else
      marker.take maxBytes

theorem truncate_eq_self {text : List UInt8} {max : Nat} (fits : text.length ≤ max) :
    truncate text max = text :=
  if_pos fits

section Digests

variable {text : List UInt8} {cut start : Nat}

/-- A maximal run of exactly as many lowercase hexadecimal digits as a digest has. -/
structure DigestRun (text : List UInt8) (start : Nat) : Prop where
  digits : ∀ index, start ≤ index → index < start + sha256HexLen →
    text[index]?.any isLowercaseHex = true
  before : ∀ index, index + 1 = start → text[index]?.any isLowercaseHex = false
  after : text[start + sha256HexLen]?.any isLowercaseHex = false

/-- The cut leaves a part of a digest. -/
def SplitsDigest (text : List UInt8) (cut : Nat) : Prop :=
  ∃ start, DigestRun text start ∧ start < cut ∧ cut < start + sha256HexLen

/-- A run goes as far as its predicate holds. -/
theorem takeWhile_run {α : Type} (holds : α → Bool) (items : List α) :
    (∀ index < (items.takeWhile holds).length, items[index]?.any holds = true) ∧
      items[(items.takeWhile holds).length]?.any holds = false := by
  induction items with
  | nil => exact ⟨nofun, rfl⟩
  | cons item items ih =>
      by_cases first : holds item = true
      · rw [List.takeWhile_cons_of_pos first, List.length_cons]
        constructor
        · intro index within
          cases index with
          | zero => simpa using first
          | succ index => exact ih.1 index (Nat.lt_of_succ_lt_succ within)
        · exact ih.2
      · rw [List.takeWhile_cons_of_neg first]
        constructor
        · exact nofun
        · simpa using first

/-- The digits behind a cut. -/
theorem run_behind (within : cut ≤ text.length) :
    ∃ start ≤ cut, cut - ((text.take cut).reverse.takeWhile isLowercaseHex).length = start ∧
      (∀ index, start ≤ index → index < cut → text[index]?.any isLowercaseHex = true) ∧
      ∀ index, index + 1 = start → text[index]?.any isLowercaseHex = false := by
  rcases takeWhile_run isLowercaseHex (text.take cut).reverse with ⟨digits, stopped⟩
  have size : (text.take cut).length = cut := List.length_take_of_le within
  have shorter := (List.takeWhile_sublist isLowercaseHex (l := (text.take cut).reverse)).length_le
  rw [List.length_reverse, size] at shorter
  have mirrored : ∀ index < cut, (text.take cut).reverse[cut - 1 - index]? = text[index]? := by
    intro index before
    rw [List.getElem?_reverse (by omega), size, List.getElem?_take_of_lt (by omega)]
    congr 1
    omega
  refine ⟨_, Nat.sub_le _ _, rfl, ?_, ?_⟩
  · intro index reached before
    rw [← mirrored index before]
    exact digits _ (by omega)
  · intro index preceding
    have last : cut - 1 - index =
        ((text.take cut).reverse.takeWhile isLowercaseHex).length := by omega
    rw [← mirrored index (by omega), last]
    exact stopped

/-- The digits from a cut on. -/
theorem run_ahead (text : List UInt8) (cut : Nat) :
    ∃ stop, cut ≤ stop ∧ cut + ((text.drop cut).takeWhile isLowercaseHex).length = stop ∧
      (∀ index, cut ≤ index → index < stop → text[index]?.any isLowercaseHex = true) ∧
      text[stop]?.any isLowercaseHex = false := by
  rcases takeWhile_run isLowercaseHex (text.drop cut) with ⟨digits, stopped⟩
  refine ⟨_, Nat.le_add_right _ _, rfl, ?_, ?_⟩
  · intro index reached before
    have ahead := digits (index - cut) (by omega)
    rw [List.getElem?_drop] at ahead
    rwa [Nat.add_sub_cancel' reached] at ahead
  · rw [List.getElem?_drop] at stopped
    exact stopped

/-- The run around a cut inside a digest is the digest. -/
theorem DigestRun.unique {first last : Nat} (run : DigestRun text start)
    (inside : start < cut) (within : cut < start + sha256HexLen)
    (behind : first ≤ cut) (ahead : cut ≤ last)
    (digits : ∀ index, first ≤ index → index < last → text[index]?.any isLowercaseHex = true)
    (before : ∀ index, index + 1 = first → text[index]?.any isLowercaseHex = false)
    (after : text[last]?.any isLowercaseHex = false) :
    last - first = sha256HexLen := by
  have begins : first = start := by
    rcases Nat.lt_trichotomy first start with earlier | same | later
    · have digit := digits (start - 1) (by omega) (by omega)
      rw [run.before (start - 1) (by omega)] at digit
      cases digit
    · exact same
    · have digit := run.digits (first - 1) (by omega) (by omega)
      rw [before (first - 1) (by omega)] at digit
      cases digit
  have ends : last = start + sha256HexLen := by
    rcases Nat.lt_trichotomy last (start + sha256HexLen) with earlier | same | later
    · have digit := run.digits last (by omega) earlier
      rw [after] at digit
      cases digit
    · exact same
    · have digit := digits (start + sha256HexLen) (by omega) later
      rw [run.after] at digit
      cases digit
  omega

/-- The cut moves back to the start of a digest or stays. -/
theorem avoidPartialHexRun_cases (text : List UInt8) (cut : Nat) :
    (avoidPartialHexRun text cut = cut ∧ ¬ SplitsDigest text cut) ∨
    ∃ start ≤ cut, avoidPartialHexRun text cut = start ∧
      text[start]?.any isLowercaseHex = true ∧
      ∀ index, index + 1 = start → text[index]?.any isLowercaseHex = false := by
  rw [avoidPartialHexRun]
  split
  · rename_i outside
    refine Or.inl ⟨rfl, ?_⟩
    rintro ⟨start, run, inside, within⟩
    have digit := run.digits cut (by omega) within
    rcases outside with none | beyond | other
    · omega
    · rw [List.getElem?_eq_none beyond] at digit
      cases digit
    · exact other digit
  · rename_i inside
    simp only [not_or, not_not, not_le] at inside
    rcases inside with ⟨-, short, digit⟩
    rcases run_behind (Nat.le_of_lt short) with ⟨first, back, start_eq, behind, before⟩
    rcases run_ahead text cut with ⟨last, forth, stop_eq, ahead, after⟩
    have digits : ∀ index, first ≤ index → index < last →
        text[index]?.any isLowercaseHex = true := by
      intro index reached earlier
      rcases Nat.lt_or_ge index cut with left | right
      · exact behind index reached left
      · exact ahead index right earlier
    dsimp only
    rw [start_eq, stop_eq]
    split
    · rename_i other
      refine Or.inl ⟨rfl, ?_⟩
      rintro ⟨start, run, inside, within⟩
      exact other (run.unique inside within back forth digits before after)
    · refine Or.inr ⟨first, back, rfl, ?_, before⟩
      rcases Nat.lt_or_eq_of_le back with earlier | same
      · exact behind first (Nat.le_refl _) earlier
      · rwa [same]

theorem avoidPartialHexRun_le (text : List UInt8) (cut : Nat) :
    avoidPartialHexRun text cut ≤ cut := by
  rcases avoidPartialHexRun_cases text cut with ⟨same, -⟩ | ⟨start, back, moved, -⟩
  · exact Nat.le_of_eq same
  · rwa [moved]

theorem not_splitsDigest (text : List UInt8) (cut : Nat) :
    ¬ SplitsDigest text (avoidPartialHexRun text cut) := by
  rcases avoidPartialHexRun_cases text cut with ⟨same, whole⟩ | ⟨start, -, moved, -, before⟩
  · rwa [same]
  · rw [moved]
    rintro ⟨first, run, inside, within⟩
    have digit := run.digits (start - 1) (by omega) (by omega)
    rw [before (start - 1) (by omega)] at digit
    cases digit

/-- Digits are characters of their own. -/
theorem begins_of_isLowercaseHex {byte : UInt8} (digit : isLowercaseHex byte = true) :
    Text.continues byte = false := by
  rw [Utf8.continues_eq, decide_eq_false_iff_not]
  simp only [isLowercaseHex, isAsciiDigit, Bool.or_eq_true, Bool.and_eq_true,
    decide_eq_true_eq, UInt8.le_iff_toNat_le] at digit
  have small : (0x39 : UInt8).toNat = 0x39 ∧ (0x66 : UInt8).toNat = 0x66 := ⟨rfl, rfl⟩
  omega

theorem isCharBoundary_avoidPartialHexRun (stands : Utf8.isCharBoundary text cut = true) :
    Utf8.isCharBoundary text (avoidPartialHexRun text cut) = true := by
  rcases avoidPartialHexRun_cases text cut with ⟨same, -⟩ | ⟨start, -, moved, digit, -⟩
  · rwa [same]
  · rw [moved]
    rcases (Option.any_eq_true _ _).mp digit with ⟨byte, found, isHex⟩
    exact Utf8.isCharBoundary_iff.mpr
      (Or.inr (Or.inr ⟨byte, found, begins_of_isLowercaseHex isHex⟩))

end Digests

section Texts

/-- A text cut at a boundary is a text. -/
theorem take_boundary {text : String} {cut : Nat}
    (stands : Utf8.isCharBoundary (utf8 text) cut = true) :
    ∃ front : String, (utf8 text).take cut = utf8 front := by
  rw [utf8_eq_flatten] at stands ⊢
  rcases (Utf8.boundary_flatten (Utf8.characters_encode text.toList)).mp stands with
    ⟨count, -, rfl⟩
  refine ⟨String.ofList (text.toList.take count), ?_⟩
  rw [utf8_ofList, List.map_take]
  exact Utf8.take_length_flatten

/-- A text of one-byte characters has a boundary everywhere. -/
theorem isCharBoundary_ascii {text : String} {index : Nat}
    (ascii : ∀ char ∈ text.toList, char.utf8Size = 1) (within : index ≤ (utf8 text).length) :
    Utf8.isCharBoundary (utf8 text) index = true := by
  have sizes : ∀ chars : List Char, (∀ char ∈ chars, char.utf8Size = 1) →
      (chars.map String.utf8EncodeChar).flatten.length = chars.length := by
    intro chars single
    induction chars with
    | nil => rfl
    | cons char chars ih =>
        rw [List.map_cons, List.flatten_cons, List.length_append, String.length_utf8EncodeChar,
          single char List.mem_cons_self, ih fun other member =>
            single other (List.mem_cons_of_mem _ member), List.length_cons, Nat.add_comm]
  rw [utf8_eq_flatten] at within ⊢
  rw [sizes _ ascii] at within
  apply (Utf8.boundary_flatten (Utf8.characters_encode text.toList)).mpr
  refine ⟨index, by rwa [List.length_map], ?_⟩
  rw [← List.map_take, sizes _ fun char member => ascii char (List.mem_of_mem_take member),
    List.length_take_of_le within]

/-- A text within its budget: itself, or what is kept of it and as much of the marker as
fits, where the cuts are at the starts of characters and leave no part of a digest. -/
structure Truncated (text marker : String) (max : Nat) (result : List UInt8) : Prop where
  within : result.length ≤ max
  wellFormed : ∃ output : String, result = utf8 output
  whole : (utf8 text).length ≤ max → result = utf8 text
  shortened : max < (utf8 text).length → ∃ cut,
    result = (utf8 text).take cut ++ (utf8 marker).take max ∧
    cut ≤ (utf8 text).length ∧
    Utf8.isCharBoundary (utf8 text) cut = true ∧
    Utf8.isCharBoundary (utf8 marker) (min max (utf8 marker).length) = true ∧
    ¬ SplitsDigest (utf8 text) cut

section Cuts

variable {text marker : String} {max : Nat}

/-- As much of the marker as fits is all that is left. -/
theorem truncated_marker (long : max < (utf8 text).length) (small : max ≤ (utf8 marker).length)
    (ascii : ∀ char ∈ marker.toList, char.utf8Size = 1) :
    Truncated text marker max ((utf8 marker).take max) := by
  constructor
  · exact List.length_take_le _ _
  · exact take_boundary (isCharBoundary_ascii ascii small)
  · intro fits
    exact absurd fits (Nat.not_le.mpr long)
  · intro _
    refine ⟨0, rfl, Nat.zero_le _, Utf8.isCharBoundary_zero _, ?_, ?_⟩
    · exact isCharBoundary_ascii ascii (Nat.min_le_right _ _)
    · rintro ⟨start, -, impossible, -⟩
      exact Nat.not_lt_zero _ impossible

/-- The marker follows what is kept. -/
theorem truncated_kept (long : max < (utf8 text).length) (room : (utf8 marker).length ≤ max) :
    Truncated text marker max ((utf8 text).take (avoidPartialHexRun (utf8 text)
      (Utf8.floorBoundary (utf8 text) (max - (utf8 marker).length))) ++ utf8 marker) := by
  have stands := isCharBoundary_avoidPartialHexRun
    (Utf8.isCharBoundary_floorBoundary (utf8 text) (max - (utf8 marker).length))
  have back := avoidPartialHexRun_le (utf8 text)
    (Utf8.floorBoundary (utf8 text) (max - (utf8 marker).length))
  have budget := @Utf8.floorBoundary_le (utf8 text) (max - (utf8 marker).length)
  have whole := not_splitsDigest (utf8 text)
    (Utf8.floorBoundary (utf8 text) (max - (utf8 marker).length))
  generalize avoidPartialHexRun (utf8 text) _ = cut at stands back whole
  constructor
  · rw [List.length_append, List.length_take_of_le (by omega)]
    omega
  · rcases take_boundary stands with ⟨front, kept⟩
    exact ⟨front ++ marker, by rw [kept, utf8_append]⟩
  · intro fits
    exact absurd fits (Nat.not_le.mpr long)
  · intro _
    refine ⟨cut, ?_, by omega, stands, ?_, whole⟩
    · rw [List.take_of_length_le room]
    · rw [Nat.min_eq_right room]
      exact Utf8.isCharBoundary_length _

theorem truncated_whole (fits : (utf8 text).length ≤ max) :
    Truncated text marker max (utf8 text) := by
  constructor
  · exact fits
  · exact ⟨text, rfl⟩
  · exact fun _ => rfl
  · intro long
    exact absurd fits (Nat.not_le.mpr long)

end Cuts

theorem ascii_byteMarker (length : Nat) :
    ∀ char ∈ ("...  [truncated " ++ toString length ++ " bytes]  ").toList,
      char.utf8Size = 1 := by
  intro char member
  rw [String.toList_append, String.toList_append, List.mem_append, List.mem_append] at member
  have words : ("...  [truncated ".toList ++ " bytes]  ".toList).all
      (fun char => char.utf8Size == 1) = true := by
    decide
  rcases member with (front | digit) | rest
  · exact of_decide_eq_true (List.all_eq_true.mp words char (List.mem_append_left _ front))
  · rw [Nat.toString_eq_ofList_toDigits, String.toList_ofList] at digit
    exact Kernel.utf8Size_of_isDigit (Text.isDigit_of_mem_toDigits digit)
  · exact of_decide_eq_true (List.all_eq_true.mp words char (List.mem_append_right _ rest))

theorem ascii_truncationMarker : ∀ char ∈ truncationMarker.toList, char.utf8Size = 1 := by
  have words : (truncationMarker.toList.all fun char => char.utf8Size == 1) = true := by
    decide
  exact fun char member => of_decide_eq_true (List.all_eq_true.mp words char member)

/-- Both truncations keep within the cap and leave no part of a digest. -/
theorem truncations_keep_digests (text : String) (max : Nat) :
    Truncated text truncationMarker max (truncateUtf8 (utf8 text) max) ∧
    Truncated text ("...  [truncated " ++ toString (utf8 text).length ++ " bytes]  ") max
      (truncate (utf8 text) max) := by
  constructor
  · rw [truncateUtf8]
    split
    · rename_i fits
      exact truncated_whole fits
    · rename_i long
      dsimp only
      split
      · rename_i room
        exact truncated_kept (Nat.lt_of_not_le long) room
      · rename_i small
        exact truncated_marker (Nat.lt_of_not_le long) (Nat.le_of_not_le small)
          ascii_truncationMarker
  · rw [truncate]
    split
    · rename_i fits
      exact truncated_whole fits
    · rename_i long
      dsimp only
      split
      · rename_i small
        exact truncated_marker (Nat.lt_of_not_le long) small (ascii_byteMarker _)
      · rename_i room
        exact truncated_kept (Nat.lt_of_not_le long) (Nat.le_of_not_le room)

end Texts

end Llxprt.Tools
