import Llxprt.Rust.Integers
import Llxprt.Rust.Readable

/-!
# JSON documents

The compact printer of the JSON library: no blanks, fields in the order given,
the short escapes for the common control characters and a four-digit escape for
the others.  Every document can be read back from its text.
-/

namespace Llxprt.Rust

inductive Json where
  | null
  | bool (value : Bool)
  | number (value : Nat)
  | string (value : String)
  | array (items : List Json)
  | object (fields : List (String × Json))

namespace Json

/-- The characters with a two-character escape. -/
def shortEscapes : List (Char × Char) :=
  [('"', '"'), ('\\', '\\'), ('\x08', 'b'), ('\x09', 't'), ('\x0a', 'n'), ('\x0c', 'f'),
    ('\x0d', 'r')]

def escapeChar (char : Char) : List Char :=
  match shortEscapes.lookup char with
  | some letter => ['\\', letter]
  | none =>
      if char.toNat < 32 then
        ['\\', 'u', '0', '0', Nat.digitChar (char.toNat / 16), Nat.digitChar (char.toNat % 16)]
      else
        [char]

def printString (value : String) : List Char :=
  '"' :: value.toList.flatMap escapeChar ++ ['"']

mutual

def print : Json → List Char
  | null => "null".toList
  | bool true => "true".toList
  | bool false => "false".toList
  | number value => Nat.toDigits 10 value
  | string value => printString value
  | array [] => ['[', ']']
  | array (item :: items) => '[' :: print item ++ printItems items
  | object [] => ['\x7b', '\x7d']
  | object ((key, value) :: fields) =>
      '\x7b' :: printString key ++ ':' :: print value ++ printFields fields

/-- The items after the first, each behind a comma. -/
def printItems : List Json → List Char
  | [] => [']']
  | item :: items => ',' :: print item ++ printItems items

/-- The fields after the first, each behind a comma. -/
def printFields : List (String × Json) → List Char
  | [] => ['\x7d']
  | (key, value) :: fields =>
      ',' :: printString key ++ ':' :: print value ++ printFields fields

end

section Access

/-- `Value::get` with a field name. -/
def get : Json → String → Option Json
  | object fields, name => fields.lookup name
  | _, _ => none

def asU64 : Json → Option Nat
  | number value => if value ≤ u64Max then some value else none
  | _ => none

def asStr : Json → Option String
  | string value => some value
  | _ => none

def asBool : Json → Option Bool
  | bool value => some value
  | _ => none

/-- A value without parts. -/
def IsScalar : Json → Prop
  | number value => value ≤ u64Max
  | string _ => True
  | bool _ => True
  | _ => False

end Access

section Numbers

mutual

/-- Every number in the document is within a machine integer. -/
def machine : Json → Bool
  | null | bool _ | string _ => true
  | number value => value ≤ u64Max
  | array items => machineItems items
  | object fields => machineFields fields

def machineItems : List Json → Bool
  | [] => true
  | item :: items => machine item && machineItems items

def machineFields : List (String × Json) → Bool
  | [] => true
  | (_, value) :: fields => machine value && machineFields fields

end

end Numbers

section Strings

/-- The three ways in which a character is printed. -/
inductive Escaped (char : Char) : List Char → Prop
  | short {letter : Char} (listed : (char, letter) ∈ shortEscapes) : Escaped char ['\\', letter]
  | control (low : char.toNat < 32) :
      Escaped char
        ['\\', 'u', '0', '0', Nat.digitChar (char.toNat / 16), Nat.digitChar (char.toNat % 16)]
  | plain (noQuote : char ≠ '"') (noBackslash : char ≠ '\\') : Escaped char [char]

theorem escapeChar_escaped (char : Char) : Escaped char (escapeChar char) := by
  unfold escapeChar
  split
  · rename_i letter found
    rcases List.lookup_eq_some_iff.mp found with ⟨before, after, listed, _⟩
    exact .short (listed ▸ List.mem_append_right before List.mem_cons_self)
  · rename_i missing
    have unlisted := List.lookup_eq_none_iff.mp missing
    split
    · rename_i low
      exact .control low
    · apply Escaped.plain
      · rintro rfl
        exact absurd (unlisted ('"', '"') (by decide)) (by decide)
      · rintro rfl
        exact absurd (unlisted ('\\', '\\') (by decide)) (by decide)

theorem digitChar_injective {left right : Nat} (leftDigit : left < 16) (rightDigit : right < 16)
    (same : Nat.digitChar left = Nat.digitChar right) : left = right := by
  have table : ∀ left < 16, ∀ right < 16, Nat.digitChar left = Nat.digitChar right →
      left = right := by decide
  exact table left leftDigit right rightDigit same

theorem escapeChar_readable : Readable Anything Anything escapeChar := by
  intro left right leftRest rightRest _ _ _ _ same
  have letters : ∀ first ∈ shortEscapes, ∀ second ∈ shortEscapes, first.2 = second.2 →
      first.1 = second.1 := by decide
  have notControl : ∀ escape ∈ shortEscapes, escape.2 ≠ 'u' := by decide
  have leftEscaped := escapeChar_escaped left
  have rightEscaped := escapeChar_escaped right
  generalize escapeChar left = leftText at same leftEscaped
  generalize escapeChar right = rightText at same rightEscaped
  cases leftEscaped with
  | short leftListed =>
      cases rightEscaped with
      | short rightListed =>
          simp only [List.cons_append, List.nil_append, List.cons.injEq, true_and] at same
          exact ⟨letters _ leftListed _ rightListed same.1, same.2⟩
      | control low =>
          simp only [List.cons_append, List.nil_append, List.cons.injEq, true_and] at same
          exact absurd same.1 (notControl _ leftListed)
      | plain _ noBackslash =>
          simp only [List.cons_append, List.nil_append, List.cons.injEq] at same
          exact absurd same.1.symm noBackslash
  | control leftLow =>
      cases rightEscaped with
      | short rightListed =>
          simp only [List.cons_append, List.nil_append, List.cons.injEq, true_and] at same
          exact absurd same.1.symm (notControl _ rightListed)
      | control rightLow =>
          simp only [List.cons_append, List.nil_append, List.cons.injEq, true_and] at same
          rcases same with ⟨high, low, rest⟩
          have high := digitChar_injective (by omega) (by omega) high
          have low := digitChar_injective (by omega) (by omega) low
          have codes : left.toNat = right.toNat := by omega
          exact ⟨Char.toNat_inj.mp codes, rest⟩
      | plain _ noBackslash =>
          simp only [List.cons_append, List.nil_append, List.cons.injEq] at same
          exact absurd same.1.symm noBackslash
  | plain _ noBackslash =>
      cases rightEscaped with
      | short | control =>
          simp only [List.cons_append, List.nil_append, List.cons.injEq] at same
          exact absurd same.1 noBackslash
      | plain =>
          simp only [List.cons_append, List.nil_append, List.cons.injEq] at same
          exact same

/-- A string ends at the first quote that no backslash precedes. -/
theorem printString_readable : Readable Anything Anything printString := by
  have texts : Readable (fun text : List Char => ∀ char ∈ text, Anything char)
      (fun rest => ∃ tail, rest = '"' :: tail) (List.flatMap escapeChar) := by
    apply escapeChar_readable.flatMap (fun _ _ => trivial) (fun _ _ _ => trivial)
    rintro char _ after _ ⟨tail, rfl⟩ same
    have escaped := escapeChar_escaped char
    generalize escapeChar char = text at same escaped
    cases escaped with
    | short | control => simp at same
    | plain noQuote _ =>
        simp only [List.cons_append, List.cons.injEq] at same
        exact noQuote same.1
  intro left right leftRest rightRest _ _ _ _ same
  simp only [printString, List.cons_append, List.append_assoc, List.nil_append, List.cons.injEq,
    true_and] at same
  rcases texts (fun _ _ => trivial) (fun _ _ => trivial) ⟨_, rfl⟩ ⟨_, rfl⟩ same with ⟨text, rest⟩
  rw [List.cons.injEq] at rest
  exact ⟨String.toList_inj.mp text, rest.2⟩

end Strings

section Documents

/-- A document ends before a comma, before a closing bracket and at the end. -/
def Closed (rest : List Char) : Prop :=
  ∀ char ∈ rest.head?, char = ',' ∨ char = ']' ∨ char = '\x7d'

theorem number_readable : Readable Anything Closed (Nat.toDigits 10) := by
  apply Readable.of_span (β := Char)
  · intro value _ char member
    exact Nat.isDigit_of_mem_toDigits (by decide) (by decide) member
  · intro rest closed char leads
    rcases closed char leads with rfl | rfl | rfl <;> decide
  · intro left right _ _ same
    rw [← Nat.ofDigitChars_ten_toDigits (n := left), same, Nat.ofDigitChars_ten_toDigits]

/-- What the first character of a document announces. -/
def announced (char : Char) : Nat :=
  if char.isDigit then 3
  else if char = 'n' then 0
  else if char = 't' then 1
  else if char = 'f' then 2
  else if char = '"' then 4
  else if char = '[' then 5
  else if char = '\x7b' then 6
  else 7

def shape : Json → Nat
  | null => 0
  | bool true => 1
  | bool false => 2
  | number _ => 3
  | string _ => 4
  | array _ => 5
  | object _ => 6

theorem print_announced (json : Json) :
    ∃ char text, print json = char :: text ∧ announced char = shape json := by
  match json with
  | null => exact ⟨_, _, rfl, rfl⟩
  | bool true => exact ⟨_, _, rfl, rfl⟩
  | bool false => exact ⟨_, _, rfl, rfl⟩
  | number value =>
      rcases List.exists_cons_of_ne_nil (Nat.toDigits_ne_nil (n := value) (b := 10)) with
        ⟨digit, digits, printed⟩
      have isDigit : digit.isDigit :=
        Nat.isDigit_of_mem_toDigits (by decide) (by decide) (printed ▸ List.mem_cons_self)
      exact ⟨digit, digits, by rw [print, printed], by rw [announced, if_pos isDigit, shape]⟩
  | string _ => exact ⟨_, _, by rw [print, printString, List.cons_append], rfl⟩
  | array [] => exact ⟨_, _, by rw [print], rfl⟩
  | array (_ :: _) => exact ⟨_, _, by rw [print, List.cons_append], rfl⟩
  | object [] => exact ⟨_, _, by rw [print], rfl⟩
  | object ((_, _) :: _) => exact ⟨_, _, by rw [print, List.cons_append, List.cons_append], rfl⟩

/-- No document begins like the rest of an empty array. -/
theorem print_ne_bracket (json : Json) (text rest : List Char) :
    print json ++ text ≠ ']' :: rest := by
  intro same
  rcases print_announced json with ⟨char, _, printed, isAnnounced⟩
  rw [printed, List.cons_append, List.cons.injEq] at same
  rw [same.1] at isAnnounced
  rcases json with _ | (_ | _) | _ | _ | _ | _ <;> cases isAnnounced

theorem shape_eq {left right : Json} {leftRest rightRest : List Char}
    (same : print left ++ leftRest = print right ++ rightRest) : shape left = shape right := by
  rcases print_announced left with ⟨leftChar, _, leftPrinted, leftAnnounced⟩
  rcases print_announced right with ⟨rightChar, _, rightPrinted, rightAnnounced⟩
  rw [leftPrinted, rightPrinted, List.cons_append, List.cons_append, List.cons.injEq] at same
  rw [← leftAnnounced, ← rightAnnounced, same.1]

theorem closed_printItems (items : List Json) (rest : List Char) :
    Closed (printItems items ++ rest) := by
  cases items <;> simp [printItems, Closed]

theorem closed_printFields (fields : List (String × Json)) (rest : List Char) :
    Closed (printFields fields ++ rest) := by
  rcases fields with _ | ⟨⟨key, value⟩, fields⟩ <;> simp [printFields, Closed]

mutual

/-- A document before a closing symbol is read back, by recursion along the
document on the left. -/
theorem print_reads (left right : Json) (leftRest rightRest : List Char)
    (leftClosed : Closed leftRest) (rightClosed : Closed rightRest)
    (same : print left ++ leftRest = print right ++ rightRest) :
    left = right ∧ leftRest = rightRest := by
  have shapes := shape_eq same
  match left, right with
  | null, null | bool true, bool true | bool false, bool false =>
      exact ⟨rfl, List.append_cancel_left same⟩
  | number left, number right =>
      simp only [print] at same
      rcases number_readable trivial trivial leftClosed rightClosed same with ⟨rfl, rest⟩
      exact ⟨rfl, rest⟩
  | string left, string right =>
      simp only [print] at same
      rcases printString_readable trivial trivial trivial trivial same with ⟨rfl, rest⟩
      exact ⟨rfl, rest⟩
  | array [], array [] => exact ⟨rfl, List.append_cancel_left same⟩
  | array [], array (item :: _) =>
      simp only [print, List.cons_append, List.append_assoc, List.cons.injEq, true_and] at same
      exact absurd same.symm (print_ne_bracket item _ _)
  | array (item :: _), array [] =>
      simp only [print, List.cons_append, List.append_assoc, List.cons.injEq, true_and] at same
      exact absurd same (print_ne_bracket item _ _)
  | array (item :: items), array (other :: others) =>
      simp only [print, List.cons_append, List.append_assoc, List.cons.injEq, true_and] at same
      rcases print_reads item other _ _ (closed_printItems _ _) (closed_printItems _ _) same with
        ⟨rfl, tails⟩
      rcases printItems_reads items others _ _ tails with ⟨rfl, rest⟩
      exact ⟨rfl, rest⟩
  | object [], object [] => exact ⟨rfl, List.append_cancel_left same⟩
  | object [], object ((_, _) :: _) | object ((_, _) :: _), object [] =>
      simp [print, printString] at same
  | object ((key, value) :: fields), object ((otherKey, other) :: others) =>
      simp only [print, List.cons_append, List.append_assoc, List.cons.injEq, true_and] at same
      rcases printString_readable trivial trivial trivial trivial same with ⟨rfl, entries⟩
      rw [List.cons.injEq] at entries
      rcases print_reads value other _ _ (closed_printFields _ _) (closed_printFields _ _) entries.2
        with ⟨rfl, tails⟩
      rcases printFields_reads fields others _ _ tails with ⟨rfl, rest⟩
      exact ⟨rfl, rest⟩

theorem printItems_reads (left right : List Json) (leftRest rightRest : List Char)
    (same : printItems left ++ leftRest = printItems right ++ rightRest) :
    left = right ∧ leftRest = rightRest := by
  match left, right with
  | [], [] => exact ⟨rfl, List.append_cancel_left same⟩
  | [], _ :: _ | _ :: _, [] => simp [printItems] at same
  | item :: items, other :: others =>
      simp only [printItems, List.cons_append, List.append_assoc, List.cons.injEq, true_and] at same
      rcases print_reads item other _ _ (closed_printItems _ _) (closed_printItems _ _) same with
        ⟨rfl, tails⟩
      rcases printItems_reads items others _ _ tails with ⟨rfl, rest⟩
      exact ⟨rfl, rest⟩

theorem printFields_reads (left right : List (String × Json)) (leftRest rightRest : List Char)
    (same : printFields left ++ leftRest = printFields right ++ rightRest) :
    left = right ∧ leftRest = rightRest := by
  match left, right with
  | [], [] => exact ⟨rfl, List.append_cancel_left same⟩
  | [], (_, _) :: _ | (_, _) :: _, [] => simp [printFields] at same
  | (key, value) :: fields, (otherKey, other) :: others =>
      simp only [printFields, List.cons_append, List.append_assoc, List.cons.injEq, true_and] at same
      rcases printString_readable trivial trivial trivial trivial same with ⟨rfl, entries⟩
      rw [List.cons.injEq] at entries
      rcases print_reads value other _ _ (closed_printFields _ _) (closed_printFields _ _) entries.2
        with ⟨rfl, tails⟩
      rcases printFields_reads fields others _ _ tails with ⟨rfl, rest⟩
      exact ⟨rfl, rest⟩

end

/-- Documents with the same text are the same. -/
theorem print_injective {left right : Json} (same : print left = print right) : left = right := by
  have atEnd : Closed [] := by simp [Closed]
  have appended : print left ++ [] = print right ++ [] := by rw [same]
  exact (print_reads left right [] [] atEnd atEnd appended).1

end Documents

section Visible

/-- A character that breaks no line. -/
def Visible (char : Char) : Prop :=
  32 ≤ char.toNat

instance : DecidablePred Visible :=
  fun char => Nat.decLe 32 char.toNat

theorem visible_digitChar {digit : Nat} (small : digit < 16) : Visible (Nat.digitChar digit) := by
  have table : ∀ digit < 16, Visible (Nat.digitChar digit) := by decide
  exact table digit small

theorem escapeChar_visible {char printed : Char} (member : printed ∈ escapeChar char) :
    Visible printed := by
  unfold escapeChar at member
  split at member
  · rename_i letter found
    have letters : ∀ escape ∈ shortEscapes, Visible escape.2 := by decide
    rcases List.lookup_eq_some_iff.mp found with ⟨before, after, listed, _⟩
    have listed : (char, letter) ∈ shortEscapes :=
      listed ▸ List.mem_append_right before List.mem_cons_self
    rcases List.mem_cons.mp member with rfl | member
    · decide
    · rw [List.mem_singleton.mp member]
      exact letters _ listed
  · split at member
    · rename_i low
      simp only [List.mem_cons, List.not_mem_nil, or_false] at member
      rcases member with rfl | rfl | rfl | rfl | rfl | rfl
      · decide
      · decide
      · decide
      · decide
      · exact visible_digitChar (by omega)
      · exact visible_digitChar (by omega)
    · rename_i high
      rw [List.mem_singleton.mp member]
      exact Nat.le_of_not_lt high

theorem printString_visible {text : String} {printed : Char} (member : printed ∈ printString text) :
    Visible printed := by
  unfold printString at member
  rw [List.cons_append, List.mem_cons, List.mem_append, List.mem_flatMap] at member
  rcases member with rfl | ⟨char, _, inside⟩ | closing
  · decide
  · exact escapeChar_visible inside
  · rw [List.mem_singleton.mp closing]
    decide

theorem visible_of_all {chars : List Char}
    (all : (chars.all fun char => decide (Visible char)) = true) :
    ∀ char ∈ chars, Visible char := by
  intro char member
  exact of_decide_eq_true (List.all_eq_true.mp all char member)

mutual

/-- A printed document is one line. -/
theorem print_visible (json : Json) : ∀ printed ∈ print json, Visible printed := by
  match json with
  | null => exact visible_of_all (by decide)
  | bool true => exact visible_of_all (by decide)
  | bool false => exact visible_of_all (by decide)
  | number value =>
      intro printed member
      have digit := Nat.isDigit_of_mem_toDigits (by decide) (by decide) member
      have low : '0' ≤ printed := by
        simp only [Char.isDigit, Bool.and_eq_true, decide_eq_true_eq] at digit
        exact digit.1
      have : '0'.toNat ≤ printed.toNat := low
      exact Nat.le_trans (by decide) this
  | string value => exact fun printed member => printString_visible member
  | array [] => exact visible_of_all (by decide)
  | array (item :: items) =>
      intro printed member
      rw [print, List.cons_append, List.mem_cons, List.mem_append] at member
      rcases member with rfl | inside | rest
      · decide
      · exact print_visible item printed inside
      · exact printItems_visible items printed rest
  | object [] => exact visible_of_all (by decide)
  | object ((key, value) :: fields) =>
      intro printed member
      simp only [print, List.cons_append, List.append_assoc, List.mem_cons,
        List.mem_append] at member
      rcases member with rfl | inKey | rfl | inside | rest
      · decide
      · exact printString_visible inKey
      · decide
      · exact print_visible value printed inside
      · exact printFields_visible fields printed rest

theorem printItems_visible (items : List Json) : ∀ printed ∈ printItems items, Visible printed := by
  match items with
  | [] => exact visible_of_all (by decide)
  | item :: items =>
      intro printed member
      rw [printItems, List.cons_append, List.mem_cons, List.mem_append] at member
      rcases member with rfl | inside | rest
      · decide
      · exact print_visible item printed inside
      · exact printItems_visible items printed rest

theorem printFields_visible (fields : List (String × Json)) :
    ∀ printed ∈ printFields fields, Visible printed := by
  match fields with
  | [] => exact visible_of_all (by decide)
  | (key, value) :: fields =>
      intro printed member
      simp only [printFields, List.cons_append, List.append_assoc, List.mem_cons,
        List.mem_append] at member
      rcases member with rfl | inKey | rfl | inside | rest
      · decide
      · exact printString_visible inKey
      · decide
      · exact print_visible value printed inside
      · exact printFields_visible fields printed rest

end

end Visible

end Json

end Llxprt.Rust
