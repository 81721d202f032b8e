import Llxprt.Rust.Integers
import Mathlib.Data.List.Basic
import Mathlib.Tactic.IntervalCases

/-!
# Numbers and lines in text

Hexadecimal and decimal numbers as they are printed and parsed, lines of a
text, and the lossy reading of bytes as UTF-8.  Printed numbers and joined lines
are read back.
-/

namespace Llxprt.Rust.Text

section Hexadecimal

/-- The last hexadecimal digits of a number, most significant first. -/
def hexDigits (count value : Nat) : List Char :=
  (List.range count).reverse.map fun place => Nat.digitChar (value / 16 ^ place % 16)

/-- Two digits for every byte. -/
def hex (bytes : List UInt8) : List Char :=
  bytes.flatMap fun byte => [Nat.digitChar (byte.toNat / 16), Nat.digitChar (byte.toNat % 16)]

/-- `char::to_digit(16)`. -/
def hexValue (char : Char) : Option Nat :=
  if '0' ≤ char ∧ char ≤ '9' then
    some (char.toNat - '0'.toNat)
  else if 'a' ≤ char ∧ char ≤ 'f' then
    some (char.toNat - 'a'.toNat + 10)
  else if 'A' ≤ char ∧ char ≤ 'F' then
    some (char.toNat - 'A'.toNat + 10)
  else
    none

/-- The bytes written by pairs of digits. -/
def unhex : List Char → Option (List UInt8)
  | [] => some []
  | [_] => none
  | high :: low :: rest =>
      match hexValue high, hexValue low, unhex rest with
      | some high, some low, some bytes => some (UInt8.ofNat (16 * high + low) :: bytes)
      | _, _, _ => none

theorem hexValue_digitChar {value : Nat} (digit : value < 16) :
    hexValue (Nat.digitChar value) = some value := by
  interval_cases value <;> rfl

theorem unhex_hex (bytes : List UInt8) : unhex (hex bytes) = some bytes := by
  induction bytes with
  | nil => rfl
  | cons byte bytes ih =>
      have bound := byte.toNat_lt
      have high := hexValue_digitChar (show byte.toNat / 16 < 16 by omega)
      have low := hexValue_digitChar (show byte.toNat % 16 < 16 by omega)
      have whole : 16 * (byte.toNat / 16) + byte.toNat % 16 = byte.toNat := by omega
      have printed : hex (byte :: bytes) = Nat.digitChar (byte.toNat / 16) ::
          Nat.digitChar (byte.toNat % 16) :: hex bytes := rfl
      rw [printed, unhex, high, low, ih]
      simp only [whole, UInt8.ofNat_toNat]

end Hexadecimal

section Decimal

/-- `str::parse::<u64>`: an optional plus sign, then digits of a number that
fits. -/
def parseU64 (text : List Char) : Option Nat :=
  let digits := if text.head? = some '+' then text.tail else text
  let value := Nat.ofDigitChars 10 digits 0
  if digits ≠ [] ∧ digits.all Char.isDigit ∧ value ≤ u64Max then
    some value
  else
    none

theorem isDigit_of_mem_toDigits {value : Nat} {char : Char}
    (member : char ∈ Nat.toDigits 10 value) : char.isDigit = true :=
  Nat.isDigit_of_mem_toDigits (by decide) (by decide) member

theorem parseU64_toDigits {value : Nat} (fits : value ≤ u64Max) :
    parseU64 (Nat.toDigits 10 value) = some value := by
  have unsigned : (Nat.toDigits 10 value).head? ≠ some '+' := by
    intro plus
    have digit := isDigit_of_mem_toDigits (List.mem_of_mem_head? plus)
    exact absurd digit (by decide)
  have digits : (Nat.toDigits 10 value).all Char.isDigit = true := by
    rw [List.all_eq_true]
    exact fun char member => isDigit_of_mem_toDigits member
  have read : Nat.ofDigitChars 10 (Nat.toDigits 10 value) 0 = value :=
    Nat.ofDigitChars_toDigits (by decide) (by decide)
  simp only [parseU64, if_neg unsigned, read]
  rw [if_pos ⟨Nat.toDigits_ne_nil, digits, fits⟩]

end Decimal

section Lines

/-- Drop the carriage return of a line ending. -/
def dropReturn : List Char → List Char
  | '\r' :: rest => rest
  | line => line

/-- `str::lines`, with the current line reversed. -/
def linesFrom : List Char → List Char → List (List Char)
  | current, [] => if current = [] then [] else [current.reverse]
  | current, char :: rest =>
      if char = '\n' then
        (dropReturn current).reverse :: linesFrom [] rest
      else
        linesFrom (char :: current) rest

def lines (text : List Char) : List (List Char) :=
  linesFrom [] text

/-- `char::is_whitespace`. -/
def isWhitespace (char : Char) : Bool :=
  let code := char.toNat
  (9 ≤ code && code ≤ 13) || code == 0x20 || code == 0x85 || code == 0xa0 || code == 0x1680 ||
    (0x2000 ≤ code && code ≤ 0x200a) || code == 0x2028 || code == 0x2029 || code == 0x202f ||
    code == 0x205f || code == 0x3000

/-- `line.trim().is_empty()`. -/
def isBlank (line : List Char) : Bool :=
  line.all isWhitespace

/-- `lines.join("\n")`. -/
def joinLines (lines : List (List Char)) : List Char :=
  ['\n'].intercalate lines

/-- A line that ends only where the text says so. -/
def Unbroken (line : List Char) : Prop :=
  line ≠ [] ∧ ∀ char ∈ line, char ≠ '\n' ∧ char ≠ '\r'

theorem linesFrom_line {line : List Char} (current rest : List Char)
    (unbroken : ∀ char ∈ line, char ≠ '\n') :
    linesFrom current (line ++ rest) = linesFrom (line.reverse ++ current) rest := by
  induction line generalizing current with
  | nil => rfl
  | cons char line ih =>
      have inside : char ≠ '\n' := unbroken char List.mem_cons_self
      rw [List.cons_append, linesFrom, if_neg inside,
        ih _ fun char member => unbroken char (List.mem_cons_of_mem _ member)]
      simp

theorem dropReturn_reverse {line : List Char} (unbroken : Unbroken line) :
    dropReturn line.reverse = line.reverse := by
  unfold dropReturn
  split
  · rename_i rest reversed
    have member : '\r' ∈ line := by
      rw [← List.mem_reverse, reversed]
      exact List.mem_cons_self
    exact absurd rfl (unbroken.2 _ member).2
  · rfl

/-- Joined lines are read back. -/
theorem lines_joinLines {texts : List (List Char)} (unbroken : ∀ text ∈ texts, Unbroken text) :
    lines (joinLines texts) = texts := by
  induction texts with
  | nil => rfl
  | cons text texts ih =>
      have first := unbroken text List.mem_cons_self
      have newline : ∀ char ∈ text, char ≠ '\n' := fun char member => (first.2 char member).1
      cases texts with
      | nil =>
          have read : lines text = linesFrom (text.reverse ++ []) [] := by
            have appended := linesFrom_line [] [] newline
            rwa [List.append_nil] at appended
          have written : text.reverse ++ [] ≠ [] := by
            simpa using first.1
          have joined : joinLines [text] = text := by
            simp [joinLines, List.intercalate]
          rw [joined, read, linesFrom, if_neg written]
          simp
      | cons next texts =>
          have joined : joinLines (text :: next :: texts) =
              text ++ '\n' :: joinLines (next :: texts) := by
            simp [joinLines, List.intercalate]
          have rest := ih fun text member => unbroken text (List.mem_cons_of_mem _ member)
          rw [joined, lines, linesFrom_line _ _ newline, linesFrom, if_pos rfl, List.append_nil,
            dropReturn_reverse first, List.reverse_reverse]
          exact congrArg (text :: ·) rest

end Lines

section Lossy

/-- The bytes that may follow the first byte of a longer character. -/
def secondByte (first second : UInt8) : Bool :=
  if first = 0xe0 then 0xa0 ≤ second && second ≤ 0xbf
  else if first = 0xed then 0x80 ≤ second && second ≤ 0x9f
  else if first = 0xf0 then 0x90 ≤ second && second ≤ 0xbf
  else if first = 0xf4 then 0x80 ≤ second && second ≤ 0x8f
  else 0x80 ≤ second && second ≤ 0xbf

def continues (byte : UInt8) : Bool :=
  0x80 ≤ byte && byte ≤ 0xbf

/-- How many bytes the first character takes, or how many bytes are skipped when
they begin no character. -/
def leadingBytes : List UInt8 → Bool × Nat
  | [] => (true, 0)
  | first :: rest =>
      if first < 0x80 then
        (true, 1)
      else if 0xc2 ≤ first && first ≤ 0xdf then
        match rest with
        | second :: _ => if secondByte first second then (true, 2) else (false, 1)
        | [] => (false, 1)
      else if 0xe0 ≤ first && first ≤ 0xef then
        match rest with
        | second :: rest =>
            if secondByte first second then
              match rest with
              | third :: _ => if continues third then (true, 3) else (false, 2)
              | [] => (false, 2)
            else
              (false, 1)
        | [] => (false, 1)
      else if 0xf0 ≤ first && first ≤ 0xf4 then
        match rest with
        | second :: rest =>
            if secondByte first second then
              match rest with
              | third :: rest =>
                  if continues third then
                    match rest with
                    | fourth :: _ => if continues fourth then (true, 4) else (false, 3)
                    | [] => (false, 3)
                  else
                    (false, 2)
              | [] => (false, 2)
            else
              (false, 1)
        | [] => (false, 1)
      else
        (false, 1)

/-- `String::from_utf8_lossy`, as bytes: bytes that begin no character become
the replacement character. -/
def fromUtf8Lossy (bytes : List UInt8) : List UInt8 :=
  read bytes.length bytes
where
  read : Nat → List UInt8 → List UInt8
    | 0, _ => []
    | _, [] => []
    | rounds + 1, bytes =>
        match leadingBytes bytes with
        | (true, count) => bytes.take count ++ read rounds (bytes.drop count)
        | (false, count) => [0xef, 0xbf, 0xbd] ++ read rounds (bytes.drop count)

end Lossy

end Llxprt.Rust.Text
