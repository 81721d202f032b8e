import Llxprt.Kernel.Serde
import Llxprt.Rust.Text
import Mathlib.Algebra.BigOperators.Group.List.Basic
import Mathlib.Data.Nat.Digits.Defs

/-!
# Sizes of JSON documents

The number of bytes of a serialized value, by the shape of its document.  Sizes
add up over the fields of an object and the items of an array, so a part is never
larger than the whole.
-/

namespace Llxprt.Kernel

open Llxprt.Rust Llxprt.Kernel.Recorded

/-- The number of bytes of a text. -/
def width (chars : List Char) : Nat :=
  (chars.map Char.utf8Size).sum

@[simp]
theorem width_nil : width [] = 0 :=
  rfl

@[simp]
theorem width_cons (char : Char) (chars : List Char) :
    width (char :: chars) = char.utf8Size + width chars := by
  simp [width]

@[simp]
theorem width_append (left right : List Char) : width (left ++ right) = width left + width right := by
  simp [width]

/-- The width is the number of bytes of the encoding. -/
theorem length_utf8_ofList (chars : List Char) :
    (utf8 (String.ofList chars)).length = width chars := by
  induction chars with
  | nil => rfl
  | cons char chars ih =>
      simp only [utf8, width, String.toUTF8] at ih ⊢
      simp [List.utf8Encode] at ih ⊢

/-- The number of bytes of a document. -/
def weight (json : Json) : Nat :=
  width json.print

theorem length_documentBytes (json : Json) : (documentBytes json).length = weight json :=
  length_utf8_ofList json.print

/-- The size of a written value is the weight of its document. -/
theorem length_serialize {α : Type} [Recorded α] (value : α) :
    (serialize value).length = weight (json value) :=
  length_documentBytes (json value)

theorem weight_pos (json : Json) : 0 < weight json := by
  rcases Json.print_announced json with ⟨char, text, printed, _⟩
  rw [weight, printed, width_cons]
  exact Nat.add_pos_left char.utf8Size_pos _

section Documents

variable {key : String} {value item : Json} {items : List Json} {fields : List (String × Json)}

/-- The items of an array, each with its comma. -/
def itemsWeight (items : List Json) : Nat :=
  (items.map fun item => weight item + 1).sum

/-- The fields of an object, each with its colon and its comma. -/
def fieldsWeight (fields : List (String × Json)) : Nat :=
  (fields.map fun field => width (Json.printString field.1) + weight field.2 + 2).sum

@[simp]
theorem itemsWeight_nil : itemsWeight [] = 0 :=
  rfl

@[simp]
theorem itemsWeight_cons : itemsWeight (item :: items) = weight item + 1 + itemsWeight items := by
  simp [itemsWeight]

@[simp]
theorem fieldsWeight_nil : fieldsWeight [] = 0 :=
  rfl

@[simp]
theorem fieldsWeight_cons :
    fieldsWeight ((key, value) :: fields) =
      width (Json.printString key) + weight value + 2 + fieldsWeight fields := by
  simp [fieldsWeight]

/-- The items after the first, and the bracket. -/
theorem width_printItems (items : List Json) : width (Json.printItems items) = itemsWeight items + 1 := by
  induction items with
  | nil => rfl
  | cons item items ih =>
      have comma : ','.utf8Size = 1 := rfl
      rw [Json.printItems, List.cons_append, width_cons, width_append, ih, itemsWeight_cons, comma,
        weight]
      omega

/-- The fields after the first, and the brace. -/
theorem width_printFields (fields : List (String × Json)) :
    width (Json.printFields fields) = fieldsWeight fields + 1 := by
  induction fields with
  | nil => rfl
  | cons field fields ih =>
      rcases field with ⟨key, value⟩
      have comma : ','.utf8Size = 1 := rfl
      have colon : ':'.utf8Size = 1 := rfl
      simp only [Json.printFields, List.cons_append, width_cons, width_append, ih,
        fieldsWeight_cons, comma, colon, weight]
      omega

/-- The size of an array adds up over its items. -/
theorem weight_array_cons :
    weight (.array (item :: items)) = itemsWeight (item :: items) + 1 := by
  have bracket : '['.utf8Size = 1 := rfl
  rw [weight, Json.print, List.cons_append, width_cons, width_append, width_printItems, bracket,
    itemsWeight_cons, weight]
  omega

/-- The bound holds of the empty array too. -/
theorem weight_array_le (items : List Json) : weight (.array items) ≤ itemsWeight items + 2 := by
  cases items with
  | nil => decide
  | cons item items =>
      rw [weight_array_cons]
      omega

/-- The size of an object adds up over its fields. -/
@[simp]
theorem weight_object_cons {field : String × Json} :
    weight (.object (field :: fields)) = fieldsWeight (field :: fields) + 1 := by
  rcases field with ⟨key, value⟩
  have brace : '\x7b'.utf8Size = 1 := rfl
  have colon : ':'.utf8Size = 1 := rfl
  simp only [weight, Json.print, List.cons_append, width_cons, width_append, width_printFields,
    fieldsWeight_cons, brace, colon]
  omega

end Documents

section Scalars

/-- Of ASCII characters every one is a byte. -/
theorem width_of_ascii {chars : List Char} (ascii : ∀ char ∈ chars, char.utf8Size = 1) :
    width chars = chars.length := by
  induction chars with
  | nil => rfl
  | cons char chars ih =>
      rw [width_cons, ascii char List.mem_cons_self, List.length_cons,
        ih fun other member => ascii other (List.mem_cons_of_mem _ member)]
      omega

theorem utf8Size_of_isDigit {char : Char} (digit : char.isDigit = true) : char.utf8Size = 1 := by
  rw [Char.utf8Size_eq_one_iff]
  simp only [Char.isDigit, Bool.and_eq_true, decide_eq_true_eq] at digit
  exact UInt32.le_trans digit.2 (by decide)

/-- A number takes no more bytes than places. -/
theorem weight_number_le {value places : Nat} (small : value < 10 ^ places) (some : 0 < places) :
    weight (.number value) ≤ places := by
  rw [weight, Json.print, width_of_ascii]
  · exact Nat.toDigits_length 10 value places some small
  · intro char member
    exact utf8Size_of_isDigit (Text.isDigit_of_mem_toDigits member)

/-- The greatest number of 64 bits has twenty digits. -/
@[simp]
theorem weight_uint64_le (value : UInt64) : weight (json value) ≤ 20 :=
  weight_number_le (Nat.lt_trans value.toNat_lt (by decide)) (by decide)

@[simp]
theorem weight_uint32_le (value : UInt32) : weight (json value) ≤ 10 :=
  weight_number_le (Nat.lt_trans value.toNat_lt (by decide)) (by decide)

@[simp]
theorem weight_uint8_le (value : UInt8) : weight (json value) ≤ 3 :=
  weight_number_le (Nat.lt_trans value.toNat_lt (by decide)) (by decide)

/-- The longest escape is that of a control character. -/
theorem width_escapeChar_le (char : Char) : width (Json.escapeChar char) ≤ 6 := by
  unfold Json.escapeChar
  split
  · rename_i letter found
    rcases List.lookup_eq_some_iff.mp found with ⟨before, after, listed, _⟩
    have member : (char, letter) ∈ Json.shortEscapes :=
      listed ▸ List.mem_append_right before List.mem_cons_self
    have letters : ∀ escape ∈ Json.shortEscapes, escape.2.utf8Size = 1 := by decide
    have backslash : '\\'.utf8Size = 1 := rfl
    rw [width_cons, width_cons, letters _ member, width_nil, backslash]
    decide
  · split
    · rename_i low
      have digits : ∀ digit < 16, (Nat.digitChar digit).utf8Size = 1 := by decide
      simp only [width_cons, width_nil]
      rw [digits _ (by omega), digits _ (by omega)]
      decide
    · rw [width_cons, width_nil]
      have size := char.utf8Size_le_four
      omega

/-- A text takes at most six bytes for every character, and its quotes. -/
theorem width_printString_le (text : String) : width (Json.printString text) ≤ 6 * text.length + 2 := by
  have quote : '"'.utf8Size = 1 := rfl
  have chars : ∀ chars : List Char, width (chars.flatMap Json.escapeChar) ≤ 6 * chars.length := by
    intro chars
    induction chars with
    | nil => decide
    | cons char chars ih =>
        have first := width_escapeChar_le char
        rw [List.flatMap_cons, width_append, List.length_cons]
        omega
  have inside := chars text.toList
  rw [String.length_toList] at inside
  rw [Json.printString, List.cons_append, width_cons, width_append, width_cons, width_nil, quote]
  omega

/-- The bound for a recorded text. -/
theorem weight_string_le (text : String) : weight (json text) ≤ 6 * text.length + 2 :=
  width_printString_le text

variable {α : Type} [Recorded α]

theorem weight_optional_some (value : α) : weight (optional (some value)) = weight (json value) :=
  rfl

end Scalars

section Ceilings

mutual

/-- A bound of the size of a document that is quick to compute. -/
def ceiling : Json → Nat
  | .null => 4
  | .bool _ => 5
  | .number value => value.log2 + 1
  | .string value => 6 * value.utf8ByteSize + 2
  | .array items => itemsCeiling items + 2
  | .object fields => fieldsCeiling fields + 2

/-- The ceiling of the items of an array. -/
def itemsCeiling : List Json → Nat
  | [] => 0
  | item :: items => ceiling item + 1 + itemsCeiling items

/-- The ceiling of the fields of an object. -/
def fieldsCeiling : List (String × Json) → Nat
  | [] => 0
  | (key, value) :: fields => 6 * key.utf8ByteSize + ceiling value + 4 + fieldsCeiling fields

end

/-- A text has at least as many bytes as characters. -/
theorem width_printString_le_bytes (text : String) :
    width (Json.printString text) ≤ 6 * text.utf8ByteSize + 2 := by
  have chars : ∀ chars : List Char, chars.length ≤ width chars := by
    intro chars
    induction chars with
    | nil => exact Nat.le_refl 0
    | cons char chars ih =>
        have size := char.utf8Size_pos
        rw [width_cons, List.length_cons]
        omega
  have bytes := length_utf8_ofList text.toList
  rw [String.ofList_toList] at bytes
  have size : text.utf8ByteSize = width text.toList := bytes
  have bound := width_printString_le text
  have length := chars text.toList
  rw [String.length_toList] at length
  omega

mutual

/-- No document is larger than its ceiling. -/
theorem weight_le_ceiling : ∀ json : Json, weight json ≤ ceiling json
  | .null => by decide
  | .bool value => by cases value <;> decide
  | .number value => by
      apply weight_number_le _ (Nat.succ_pos _)
      exact Nat.lt_of_lt_of_le Nat.lt_log2_self (Nat.pow_le_pow_left (by decide) _)
  | .string value => width_printString_le_bytes value
  | .array items => by
      have bound := itemsWeight_le_ceiling items
      have whole := weight_array_le items
      rw [ceiling]
      omega
  | .object [] => by decide
  | .object (field :: fields) => by
      have bound := fieldsWeight_le_ceiling (field :: fields)
      rw [weight_object_cons, ceiling]
      omega

theorem itemsWeight_le_ceiling : ∀ items : List Json, itemsWeight items ≤ itemsCeiling items
  | [] => Nat.le_refl 0
  | item :: items => by
      have first := weight_le_ceiling item
      have rest := itemsWeight_le_ceiling items
      rw [itemsWeight_cons, itemsCeiling]
      omega

theorem fieldsWeight_le_ceiling :
    ∀ fields : List (String × Json), fieldsWeight fields ≤ fieldsCeiling fields
  | [] => Nat.le_refl 0
  | (key, value) :: fields => by
      have keys := width_printString_le_bytes key
      have first := weight_le_ceiling value
      have rest := fieldsWeight_le_ceiling fields
      rw [fieldsWeight_cons, fieldsCeiling]
      omega

end

end Ceilings

end Llxprt.Kernel
