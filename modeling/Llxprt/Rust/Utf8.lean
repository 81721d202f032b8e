import Llxprt.Rust.Text
import Mathlib.Data.List.TakeWhile

/-!
# Cuts of a text

A text is the list of its bytes.  A cut backs off to the start of a character,
so a prefix within a budget is never longer than the budget.
-/

namespace Llxprt.Rust.Utf8

/-- `str::is_char_boundary`. -/
def isCharBoundary (text : List UInt8) (index : Nat) : Bool :=
  index == 0 || index == text.length ||
    match text[index]? with
    | some byte => !Text.continues byte
    | none => false

/-- The last boundary up to an index. -/
def floorBoundary (text : List UInt8) : Nat → Nat
  | 0 => 0
  | index + 1 =>
      if isCharBoundary text (index + 1) then index + 1 else floorBoundary text index

def utf8Prefix (value : List UInt8) (maxBytes : Nat) : List UInt8 :=
  if value.length ≤ maxBytes then value else value.take (floorBoundary value maxBytes)

/-- `str::lines` on bytes, with the current line reversed. -/
def linesFrom : List UInt8 → List UInt8 → List (List UInt8)
  | current, [] => if current = [] then [] else [current.reverse]
  | current, byte :: rest =>
      if byte = 0x0a then
        (if current.head? = some 0x0d then current.tail else current).reverse :: linesFrom [] rest
      else
        linesFrom (byte :: current) rest

def lines (text : List UInt8) : List (List UInt8) :=
  linesFrom [] text

/-- `lines.join("\n")`. -/
def joinLines (lines : List (List UInt8)) : List UInt8 :=
  [0x0a].intercalate lines

variable {text value : List UInt8} {index maxBytes : Nat}

theorem floorBoundary_le : floorBoundary text index ≤ index := by
  induction index with
  | zero => exact Nat.le_refl 0
  | succ index ih =>
      rw [floorBoundary]
      split
      · exact Nat.le_refl _
      · exact Nat.le_succ_of_le ih

theorem utf8Prefix_eq_self (fits : value.length ≤ maxBytes) :
    utf8Prefix value maxBytes = value :=
  if_pos fits

theorem length_utf8Prefix_le (value : List UInt8) (maxBytes : Nat) :
    (utf8Prefix value maxBytes).length ≤ maxBytes := by
  unfold utf8Prefix
  split
  · assumption
  · rw [List.length_take]
    exact (Nat.min_le_left _ _).trans floorBoundary_le

/-- The length of a joined list counts one separator before every further item. -/
theorem length_intercalate_snoc {separator last : List UInt8} {items : List (List UInt8)} :
    (separator.intercalate (items ++ [last])).length = (separator.intercalate items).length +
      (if items = [] then 0 else separator.length) + last.length := by
  induction items with
  | nil => simp [List.intercalate]
  | cons first items ih =>
      cases items with
      | nil => simp [List.intercalate]; omega
      | cons second items =>
          simp [List.intercalate] at ih ⊢
          omega

section Characters

open Text

/-- How many bytes a character takes that begins with the byte; none begins with some bytes. -/
def width (first : UInt8) : Nat :=
  if first < 0x80 then 1
  else if 0xc2 ≤ first && first ≤ 0xdf then 2
  else if 0xe0 ≤ first && first ≤ 0xef then 3
  else if 0xf0 ≤ first && first ≤ 0xf4 then 4
  else 0

/-- How many of the next bytes belong to the character. -/
def followers (first : UInt8) (rest : List UInt8) : Nat :=
  if width first < 2 then
    0
  else
    match rest with
    | [] => 0
    | second :: rest =>
        if secondByte first second then
          1 + ((rest.take (width first - 2)).takeWhile continues).length
        else
          0

theorem leadingBytes_cons (first : UInt8) (rest : List UInt8) :
    leadingBytes (first :: rest) =
      (decide (followers first rest + 1 = width first), followers first rest + 1) := by
  simp only [leadingBytes]
  split_ifs with one two three four
  · simp [followers, width, one]
  · have wide : width first = 2 := by rw [width, if_neg one, if_pos two]
    rcases rest with _ | ⟨second, rest⟩ <;> simp only [followers, wide] <;> split_ifs <;> simp_all
  · have wide : width first = 3 := by rw [width, if_neg one, if_neg two, if_pos three]
    rcases rest with _ | ⟨second, _ | ⟨third, rest⟩⟩ <;> simp only [followers, wide] <;>
      split_ifs <;> simp_all [List.takeWhile]
  · have wide : width first = 4 := by
      rw [width, if_neg one, if_neg two, if_neg three, if_pos four]
    rcases rest with _ | ⟨second, _ | ⟨third, _ | ⟨fourth, rest⟩⟩⟩ <;>
      simp only [followers, wide] <;> split_ifs <;> simp_all [List.takeWhile]
  · have wide : width first = 0 := by
      rw [width, if_neg one, if_neg two, if_neg three, if_neg four]
    simp [followers, wide]

variable {first : UInt8} {rest : List UInt8}

theorem followers_le_length : followers first rest ≤ rest.length := by
  unfold followers
  split
  · exact Nat.zero_le _
  · split
    · exact Nat.le_refl 0
    · rename_i second rest
      split
      · have taken := (List.takeWhile_prefix (l := rest.take (width first - 2)) continues).length_le
        rw [List.length_take] at taken
        rw [List.length_cons]
        omega
      · exact Nat.zero_le _

theorem continues_of_secondByte {second : UInt8} (follows : secondByte first second = true) :
    continues second = true := by
  unfold secondByte at follows
  unfold continues
  split_ifs at follows
  all_goals
    simp only [Bool.and_eq_true, decide_eq_true_eq, UInt8.le_iff_toNat_le] at follows ⊢
    rcases follows with ⟨low, high⟩
    constructor
    · exact Nat.le_trans (by decide) low
    · exact Nat.le_trans high (by decide)

/-- The run of continuing bytes, as the bytes up to its length. -/
theorem take_run (limit : Nat) (rest : List UInt8) :
    rest.take ((rest.take limit).takeWhile continues).length =
      (rest.take limit).takeWhile continues := by
  have run := (List.takeWhile_prefix (l := rest.take limit) continues).trans (List.take_prefix _ rest)
  exact (List.prefix_iff_eq_take.mp run).symm

/-- The bytes that belong to a character after its first one continue it. -/
theorem continues_of_mem_take {byte : UInt8} (member : byte ∈ rest.take (followers first rest)) :
    continues byte = true := by
  unfold followers at member
  split at member
  · cases member
  · split at member
    · cases member
    · rename_i second rest
      split at member
      · rename_i follows
        rw [Nat.add_comm, List.take_succ_cons, List.mem_cons] at member
        rcases member with same | later
        · rw [same]
          exact continues_of_secondByte follows
        · rw [take_run] at later
          exact List.all_eq_true.mp List.all_takeWhile byte later
      · cases member

/-- What follows a complete character does not belong to it. -/
theorem followers_append (complete : followers first rest + 1 = width first)
    (more : List UInt8) : followers first (rest ++ more) = followers first rest := by
  unfold followers at complete ⊢
  split
  · rfl
  · rename_i long
    rw [if_neg long] at complete
    cases rest with
    | nil =>
        dsimp only at complete
        omega
    | cons second rest =>
        dsimp only [List.cons_append] at complete ⊢
        split
        · rename_i follows
          rw [if_pos follows] at complete
          have enough := (List.takeWhile_prefix (l := rest.take (width first - 2)) continues).length_le
          rw [List.length_take] at enough
          rw [List.take_append_of_le_length (by omega)]
        · rfl

theorem followers_take :
    followers first (rest.take (followers first rest)) = followers first rest := by
  by_cases short : width first < 2
  · simp only [followers, if_pos short]
  · cases rest with
    | nil => simp [followers]
    | cons second rest =>
        by_cases follows : secondByte first second = true
        · simp only [followers, if_neg short, if_pos follows]
          rw [Nat.add_comm 1, List.take_succ_cons]
          simp only [if_pos follows, take_run]
          have fits := (List.takeWhile_prefix (l := rest.take (width first - 2)) continues).length_le
          rw [List.length_take] at fits
          rw [List.take_of_length_le (by omega), List.takeWhile_eq_self_iff.mpr, Nat.add_comm]
          exact fun byte member => List.all_eq_true.mp List.all_takeWhile byte member
        · simp [followers, if_neg follows]

/-- The bytes of one character, and nothing after it. -/
def Character (bytes : List UInt8) : Prop :=
  bytes ≠ [] ∧ leadingBytes bytes = (true, bytes.length)

theorem character_cons : Character (first :: rest) ↔
    followers first rest + 1 = width first ∧ followers first rest = rest.length := by
  rw [Character, leadingBytes_cons, Prod.mk.injEq, decide_eq_true_eq, List.length_cons]
  simp

/-- A character is read before any rest. -/
theorem leadingBytes_append {character : List UInt8} (whole : Character character)
    (more : List UInt8) : leadingBytes (character ++ more) = (true, character.length) := by
  cases character with
  | nil => exact absurd rfl whole.1
  | cons first rest =>
      have complete := character_cons.mp whole
      rw [List.cons_append, leadingBytes_cons, followers_append complete.1, complete.2,
        List.length_cons, ← complete.2, complete.1]
      simp

theorem leadingBytes_pos {bytes : List UInt8} (nonempty : bytes ≠ []) :
    1 ≤ (leadingBytes bytes).2 ∧ (leadingBytes bytes).2 ≤ bytes.length := by
  cases bytes with
  | nil => exact absurd rfl nonempty
  | cons first rest =>
      have bounded := @followers_le_length first rest
      rw [leadingBytes_cons, List.length_cons]
      dsimp only
      omega

/-- The bytes that are read as one character are one. -/
theorem character_take {bytes : List UInt8} (nonempty : bytes ≠ [])
    (begins : (leadingBytes bytes).1 = true) :
    Character (bytes.take (leadingBytes bytes).2) := by
  cases bytes with
  | nil => exact absurd rfl nonempty
  | cons first rest =>
      rw [leadingBytes_cons, decide_eq_true_eq] at begins
      have bounded := @followers_le_length first rest
      rw [leadingBytes_cons, List.take_succ_cons, character_cons, followers_take]
      constructor
      · exact begins
      · rw [List.length_take]
        exact (Nat.min_eq_left bounded).symm

/-- Only the first byte of a character does not continue one. -/
theorem continues_of_character (whole : Character (first :: rest)) :
    continues first = false ∧ ∀ byte ∈ rest, continues byte = true := by
  have complete := character_cons.mp whole
  constructor
  · have starts : width first ≠ 0 := by omega
    unfold width at starts
    unfold continues
    simp only [Bool.and_eq_false_iff, decide_eq_false_iff_not, UInt8.le_iff_toNat_le,
      UInt8.lt_iff_toNat_lt, Bool.and_eq_true, decide_eq_true_eq] at starts ⊢
    have low : (0x80 : UInt8).toNat = 128 := rfl
    have high : (0xbf : UInt8).toNat = 191 := rfl
    have two : (0xc2 : UInt8).toNat = 194 := rfl
    have three : (0xe0 : UInt8).toNat = 224 := rfl
    have four : (0xf0 : UInt8).toNat = 240 := rfl
    split_ifs at starts <;> omega
  · intro byte member
    apply @continues_of_mem_take first rest byte
    rwa [complete.2, List.take_length]

end Characters

section Boundaries

open Text

variable {characters : List (List UInt8)} {index : Nat}

/-- A text is well formed when characters make it up. -/
def Characters (characters : List (List UInt8)) : Prop :=
  ∀ character ∈ characters, Character character

theorem isCharBoundary_iff {text : List UInt8} {index : Nat} :
    isCharBoundary text index = true ↔
      index = 0 ∨ index = text.length ∨ ∃ byte, text[index]? = some byte ∧ continues byte = false := by
  unfold isCharBoundary
  cases text[index]? <;> simp [or_assoc]

/-- Inside a character there is no boundary. -/
theorem not_boundary {character rest : List UInt8} (whole : Character character)
    (inside : 0 < index) (before : index < character.length) :
    isCharBoundary (character ++ rest) index = false := by
  rw [Bool.eq_false_iff, ne_eq, isCharBoundary_iff]
  rintro (start | stop | ⟨byte, found, begins⟩)
  · omega
  · rw [List.length_append] at stop
    omega
  · rw [List.getElem?_append_left before] at found
    cases character with
    | nil => exact absurd before (Nat.not_lt_zero _)
    | cons first more =>
        cases index with
        | zero => exact absurd inside (Nat.lt_irrefl 0)
        | succ index =>
            rw [List.getElem?_cons_succ] at found
            have goesOn := (continues_of_character whole).2 byte (List.mem_of_getElem? found)
            rw [goesOn] at begins
            cases begins

theorem isCharBoundary_zero (text : List UInt8) : isCharBoundary text 0 = true :=
  isCharBoundary_iff.mpr (Or.inl rfl)

theorem isCharBoundary_length (text : List UInt8) : isCharBoundary text text.length = true :=
  isCharBoundary_iff.mpr (Or.inr (Or.inl rfl))

/-- Beyond a character the boundaries are those of the rest. -/
theorem boundary_append {character rest : List UInt8} (index : Nat)
    (begins : ∀ first ∈ rest.head?, continues first = false) :
    isCharBoundary (character ++ rest) (character.length + index) = isCharBoundary rest index := by
  have same : (character ++ rest)[character.length + index]? = rest[index]? := by
    rw [List.getElem?_append_right (Nat.le_add_right _ _), Nat.add_sub_cancel_left]
  rw [Bool.eq_iff_iff, isCharBoundary_iff, isCharBoundary_iff, same, List.length_append]
  constructor
  · rintro (start | stop | found)
    · exact Or.inl (by omega)
    · exact Or.inr (Or.inl (by omega))
    · exact Or.inr (Or.inr found)
  · rintro (start | stop | found)
    · rw [start]
      cases rest with
      | nil => exact Or.inr (Or.inl rfl)
      | cons first more => exact Or.inr (Or.inr ⟨first, rfl, begins first rfl⟩)
    · exact Or.inr (Or.inl (by omega))
    · exact Or.inr (Or.inr found)

theorem begins_flatten (wellFormed : Characters characters) :
    ∀ first ∈ characters.flatten.head?, continues first = false := by
  cases characters with
  | nil => simp
  | cons character rest =>
      have whole := wellFormed character List.mem_cons_self
      cases character with
      | nil => exact absurd rfl whole.1
      | cons first more =>
          rintro other ⟨⟩
          exact (continues_of_character whole).1

/-- A text is cut between two of its characters. -/
theorem take_length_flatten {count : Nat} :
    characters.flatten.take (characters.take count).flatten.length =
      (characters.take count).flatten := by
  conv_lhs => rw [← List.take_append_drop count characters, List.flatten_append]
  rw [List.take_append_drop]
  exact List.take_left' rfl

/-- The boundaries of a text lie between its characters. -/
theorem boundary_flatten (wellFormed : Characters characters) :
    isCharBoundary characters.flatten index = true ↔
      ∃ count ≤ characters.length, index = (characters.take count).flatten.length := by
  induction characters generalizing index with
  | nil =>
      rw [isCharBoundary_iff]
      constructor
      · rintro (start | stop | ⟨byte, found, -⟩)
        · exact ⟨0, Nat.le_refl 0, start⟩
        · exact ⟨0, Nat.le_refl 0, stop⟩
        · cases found
      · rintro ⟨count, -, at_⟩
        rw [List.take_nil] at at_
        exact Or.inl at_
  | cons character characters ih =>
      have whole := wellFormed character List.mem_cons_self
      have others : Characters characters := fun other member =>
        wellFormed other (List.mem_cons_of_mem _ member)
      rw [List.flatten_cons]
      rcases Nat.eq_zero_or_pos index with start | positive
      · rw [start, isCharBoundary_zero]
        exact ⟨fun _ => ⟨0, Nat.zero_le _, rfl⟩, fun _ => rfl⟩
      · rcases Nat.lt_or_ge index character.length with before | beyond
        · rw [not_boundary whole positive before]
          constructor
          · intro impossible
            cases impossible
          · rintro ⟨count, -, stands⟩
            cases count with
            | zero =>
                rw [List.take_zero] at stands
                exact absurd stands (Nat.ne_of_gt positive)
            | succ count =>
                rw [List.take_succ_cons, List.flatten_cons, List.length_append] at stands
                omega
        · rcases Nat.exists_eq_add_of_le beyond with ⟨more, rfl⟩
          rw [boundary_append more (begins_flatten others), ih others]
          constructor
          · rintro ⟨count, within, rfl⟩
            refine ⟨count + 1, Nat.succ_le_succ within, ?_⟩
            rw [List.take_succ_cons, List.flatten_cons, List.length_append]
          · rintro ⟨count, within, stands⟩
            cases count with
            | zero =>
                rw [List.take_zero] at stands
                exact absurd stands (Nat.ne_of_gt positive)
            | succ count =>
                rw [List.take_succ_cons, List.flatten_cons, List.length_append,
                  Nat.add_left_cancel_iff] at stands
                exact ⟨count, Nat.le_of_succ_le_succ within, stands⟩

theorem isCharBoundary_floorBoundary (text : List UInt8) (index : Nat) :
    isCharBoundary text (floorBoundary text index) = true := by
  induction index with
  | zero => exact isCharBoundary_zero text
  | succ index ih =>
      rw [floorBoundary]
      split
      · assumption
      · exact ih

theorem le_floorBoundary {text : List UInt8} {boundary index : Nat}
    (stands : isCharBoundary text boundary = true) (before : boundary ≤ index) :
    boundary ≤ floorBoundary text index := by
  induction index with
  | zero => exact before
  | succ index ih =>
      rw [floorBoundary]
      split
      · exact before
      · rename_i between
        apply ih
        rcases Nat.lt_or_ge index boundary with reached | earlier
        · have same : boundary = index + 1 := by omega
          rw [same] at stands
          exact absurd stands between
        · exact earlier

/-- A prefix within a budget is made of the characters that fit. -/
theorem utf8Prefix_flatten (wellFormed : Characters characters) (maxBytes : Nat) :
    ∃ count ≤ characters.length,
      utf8Prefix characters.flatten maxBytes = (characters.take count).flatten ∧
      (characters.take count).flatten.length ≤ maxBytes ∧
      ∀ next ∈ characters[count]?, maxBytes < (characters.take count).flatten.length + next.length := by
  by_cases fits : characters.flatten.length ≤ maxBytes
  · refine ⟨characters.length, Nat.le_refl _, ?_, ?_, ?_⟩
    · rw [utf8Prefix_eq_self fits, List.take_length]
    · rwa [List.take_length]
    · intro next found
      rw [List.getElem?_eq_none (Nat.le_refl _)] at found
      cases found
  · rcases (boundary_flatten wellFormed).mp
      (isCharBoundary_floorBoundary characters.flatten maxBytes) with ⟨count, within, stands⟩
    refine ⟨count, within, ?_, ?_, ?_⟩
    · rw [utf8Prefix, if_neg fits, stands, take_length_flatten]
    · rw [← stands]
      exact floorBoundary_le
    · intro next found
      by_contra more
      have further : isCharBoundary characters.flatten
          (characters.take (count + 1)).flatten.length = true :=
        (boundary_flatten wellFormed).mpr ⟨count + 1, by
          have bound := List.getElem?_eq_some_iff.mp found
          exact bound.1, rfl⟩
      have longer : (characters.take (count + 1)).flatten.length =
          (characters.take count).flatten.length + next.length := by
        rw [List.take_add_one, found]
        simp
      have reached : (characters.take (count + 1)).flatten.length ≤
          floorBoundary characters.flatten maxBytes := le_floorBoundary further (by omega)
      have positive : next ≠ [] :=
        (wellFormed next (List.mem_of_getElem? found)).1
      have some := List.length_pos_iff.mpr positive
      omega

end Boundaries

section Encoding

open Text

theorem width_eq (first : UInt8) : width first =
    if first.toNat < 128 then 1
    else if 194 ≤ first.toNat ∧ first.toNat ≤ 223 then 2
    else if 224 ≤ first.toNat ∧ first.toNat ≤ 239 then 3
    else if 240 ≤ first.toNat ∧ first.toNat ≤ 244 then 4
    else 0 := by
  simp only [width, UInt8.lt_iff_toNat_lt, UInt8.le_iff_toNat_le, Bool.and_eq_true,
    decide_eq_true_eq]
  rfl

theorem secondByte_eq (first second : UInt8) : secondByte first second =
    decide (if first.toNat = 224 then 160 ≤ second.toNat ∧ second.toNat ≤ 191
    else if first.toNat = 237 then 128 ≤ second.toNat ∧ second.toNat ≤ 159
    else if first.toNat = 240 then 144 ≤ second.toNat ∧ second.toNat ≤ 191
    else if first.toNat = 244 then 128 ≤ second.toNat ∧ second.toNat ≤ 143
    else 128 ≤ second.toNat ∧ second.toNat ≤ 191) := by
  simp only [secondByte, ← UInt8.toNat_inj, UInt8.le_iff_toNat_le]
  have marks : (0xe0 : UInt8).toNat = 224 ∧ (0xed : UInt8).toNat = 237 ∧
      (0xf0 : UInt8).toNat = 240 ∧ (0xf4 : UInt8).toNat = 244 := by decide
  rw [marks.1, marks.2.1, marks.2.2.1, marks.2.2.2]
  split_ifs <;> simp

theorem continues_eq (byte : UInt8) :
    continues byte = decide (128 ≤ byte.toNat ∧ byte.toNat ≤ 191) := by
  simp [continues, UInt8.le_iff_toNat_le]

theorem character_one {first : UInt8} (starts : width first = 1) : Character [first] := by
  rw [character_cons, followers, if_pos (by omega), starts]
  exact ⟨rfl, rfl⟩

theorem character_two {first second : UInt8} (starts : width first = 2)
    (follows : secondByte first second = true) : Character [first, second] := by
  rw [character_cons, followers, if_neg (by omega), starts]
  simp [follows]

theorem character_three {first second third : UInt8} (starts : width first = 3)
    (follows : secondByte first second = true) (goesOn : continues third = true) :
    Character [first, second, third] := by
  rw [character_cons, followers, if_neg (by omega), starts]
  simp [follows, goesOn]

theorem character_four {first second third fourth : UInt8} (starts : width first = 4)
    (follows : secondByte first second = true) (goesOn : continues third = true)
    (further : continues fourth = true) : Character [first, second, third, fourth] := by
  rw [character_cons, followers, if_neg (by omega), starts]
  simp [follows, goesOn, further]

/-- The encoding of a character is one. -/
theorem character_encode (char : Char) : Character (String.utf8EncodeChar char) := by
  have small (value : Nat) (fits : value < 256) : (UInt8.ofNat value).toNat = value :=
    UInt8.toNat_ofNat_of_lt' fits
  have range : char.val.toNat < 0xd800 ∨ 0xdfff < char.val.toNat ∧ char.val.toNat < 0x110000 :=
    char.valid
  unfold String.utf8EncodeChar
  dsimp only
  generalize char.val.toNat = value at range ⊢
  split_ifs with one two three
  · apply character_one
    rw [width_eq, small _ (by omega), if_pos (by omega)]
  · apply character_two
    · rw [width_eq, small _ (by omega), if_neg (by omega), if_pos (by omega)]
    · rw [secondByte_eq, small _ (by omega), small _ (by omega), decide_eq_true_eq]
      split_ifs <;> omega
  · apply character_three
    · rw [width_eq, small _ (by omega), if_neg (by omega), if_neg (by omega), if_pos (by omega)]
    · rw [secondByte_eq, small _ (by omega), small _ (by omega), decide_eq_true_eq]
      split_ifs <;> omega
    · rw [continues_eq, small _ (by omega), decide_eq_true_eq]
      omega
  · apply character_four
    · rw [width_eq, small _ (by omega), if_neg (by omega), if_neg (by omega), if_neg (by omega),
        if_pos (by omega)]
    · rw [secondByte_eq, small _ (by omega), small _ (by omega), decide_eq_true_eq]
      split_ifs <;> omega
    · rw [continues_eq, small _ (by omega), decide_eq_true_eq]
      omega
    · rw [continues_eq, small _ (by omega), decide_eq_true_eq]
      omega

theorem characters_encode (chars : List Char) :
    Characters (chars.map String.utf8EncodeChar) := by
  intro character member
  rcases List.mem_map.mp member with ⟨char, -, rfl⟩
  exact character_encode char

end Encoding

section Pieces

open Text

/-- A character of a byte string, or a longest run of bytes that begin none. -/
structure Piece where
  valid : Bool
  bytes : List UInt8

/-- A run that begins no character is shown as the replacement character. -/
def Piece.shown (piece : Piece) : List UInt8 :=
  if piece.valid then piece.bytes else [0xef, 0xbf, 0xbd]

def piecesWithin : Nat → List UInt8 → List Piece
  | 0, _ => []
  | _, [] => []
  | rounds + 1, bytes =>
      let leading := leadingBytes bytes
      ⟨leading.1, bytes.take leading.2⟩ :: piecesWithin rounds (bytes.drop leading.2)

def pieces (bytes : List UInt8) : List Piece :=
  piecesWithin bytes.length bytes

/-- The bytes that the pieces stand for. -/
def covered (listed : List Piece) : List UInt8 :=
  (listed.map Piece.bytes).flatten

/-- The text that the pieces are shown as. -/
def rendered (listed : List Piece) : List UInt8 :=
  (listed.map Piece.shown).flatten

/-- `Utf8Error`. -/
structure Utf8Error where
  validUpTo : Nat
  errorLen : Option Nat

/-- The bytes break off before the character they begin is complete. -/
def truncated (bytes : List UInt8) : Bool :=
  match bytes with
  | [] => false
  | first :: _ => bytes.length < width first

/-- `std::str::from_utf8`. -/
def fromUtf8 (bytes : List UInt8) : Option Utf8Error :=
  let run := (pieces bytes).takeWhile Piece.valid
  match (pieces bytes).drop run.length with
  | [] => none
  | invalid :: rest =>
      some ⟨(covered run).length,
        if rest.isEmpty && truncated invalid.bytes then none else some invalid.bytes.length⟩

variable {bytes rest : List UInt8}

/-- Every round takes a byte, so further rounds change nothing. -/
theorem piecesWithin_congr {rounds others : Nat} (enough : bytes.length ≤ rounds)
    (alsoEnough : bytes.length ≤ others) : piecesWithin rounds bytes = piecesWithin others bytes := by
  induction rounds generalizing bytes others with
  | zero =>
      rw [List.eq_nil_of_length_eq_zero (Nat.le_zero.mp enough)]
      cases others <;> rfl
  | succ rounds ih =>
      cases bytes with
      | nil => cases others <;> rfl
      | cons first rest =>
          have bounds := leadingBytes_pos (List.cons_ne_nil first rest)
          cases others with
          | zero => exact absurd alsoEnough (Nat.not_succ_le_zero _)
          | succ others =>
              have shorter : ((first :: rest).drop (leadingBytes (first :: rest)).2).length ≤
                  rest.length := by
                rw [List.length_drop, List.length_cons]
                omega
              rw [List.length_cons] at enough alsoEnough
              have later : piecesWithin rounds
                  ((first :: rest).drop (leadingBytes (first :: rest)).2) =
                  piecesWithin others ((first :: rest).drop (leadingBytes (first :: rest)).2) :=
                ih (by omega) (by omega)
              rw [piecesWithin, piecesWithin, later]
              · exact List.cons_ne_nil _ _
              · exact List.cons_ne_nil _ _

@[simp]
theorem pieces_nil : pieces [] = [] :=
  rfl

theorem pieces_eq_cons (nonempty : bytes ≠ []) :
    pieces bytes = ⟨(leadingBytes bytes).1, bytes.take (leadingBytes bytes).2⟩ ::
      pieces (bytes.drop (leadingBytes bytes).2) := by
  cases bytes with
  | nil => exact absurd rfl nonempty
  | cons first rest =>
      have bounds := leadingBytes_pos nonempty
      have shorter : ((first :: rest).drop (leadingBytes (first :: rest)).2).length ≤
          rest.length := by
        rw [List.length_drop, List.length_cons]
        omega
      rw [pieces, List.length_cons, piecesWithin, piecesWithin_congr shorter (Nat.le_refl _)]
      · rfl
      · exact nonempty

/-- Bytes are empty, or a piece comes before shorter bytes. -/
theorem pieces_induction {motive : List UInt8 → Prop} (empty : motive [])
    (piece : ∀ bytes, bytes ≠ [] → motive (bytes.drop (leadingBytes bytes).2) → motive bytes)
    (bytes : List UInt8) : motive bytes := by
  generalize size : bytes.length = length
  induction length using Nat.strong_induction_on generalizing bytes with
  | _ length ih =>
      by_cases nonempty : bytes = []
      · rw [nonempty]
        exact empty
      · apply piece bytes nonempty
        have bounds := leadingBytes_pos nonempty
        apply ih _ _ _ rfl
        rw [List.length_drop]
        omega

/-- The pieces cover the bytes. -/
theorem covered_pieces (bytes : List UInt8) : covered (pieces bytes) = bytes := by
  induction bytes using pieces_induction with
  | empty => rfl
  | piece bytes nonempty ih =>
      rw [pieces_eq_cons nonempty, covered, List.map_cons, List.flatten_cons, ← covered, ih,
        List.take_append_drop]

theorem fromUtf8Lossy_read {rounds : Nat} (enough : bytes.length ≤ rounds) :
    fromUtf8Lossy.read rounds bytes = rendered (pieces bytes) := by
  induction rounds generalizing bytes with
  | zero =>
      rw [List.eq_nil_of_length_eq_zero (Nat.le_zero.mp enough)]
      rfl
  | succ rounds ih =>
      cases bytes with
      | nil => rfl
      | cons first rest =>
          have bounds := leadingBytes_pos (List.cons_ne_nil first rest)
          have later := @ih ((first :: rest).drop (leadingBytes (first :: rest)).2) (by
            rw [List.length_drop]
            rw [List.length_cons] at enough ⊢
            omega)
          rw [pieces_eq_cons (List.cons_ne_nil _ _), rendered, List.map_cons, List.flatten_cons,
            ← rendered, ← later]
          generalize leading : leadingBytes (first :: rest) = taken
          rcases taken with ⟨valid, count⟩
          cases valid <;> rw [fromUtf8Lossy.read, leading] <;> simp [Piece.shown]

/-- The lossy decoding shows the pieces. -/
theorem fromUtf8Lossy_eq (bytes : List UInt8) :
    fromUtf8Lossy bytes = rendered (pieces bytes) :=
  fromUtf8Lossy_read (Nat.le_refl _)

/-- Characters are pieces, whatever follows them. -/
theorem pieces_append {characters : List (List UInt8)} (wellFormed : Characters characters)
    (rest : List UInt8) : pieces (characters.flatten ++ rest) =
      characters.map (fun character => ⟨true, character⟩) ++ pieces rest := by
  induction characters with
  | nil => rfl
  | cons character characters ih =>
      have whole := wellFormed character List.mem_cons_self
      have others : Characters characters := fun other member =>
        wellFormed other (List.mem_cons_of_mem _ member)
      have nonempty : character ++ (characters.flatten ++ rest) ≠ [] :=
        List.append_ne_nil_of_left_ne_nil whole.1 _
      rw [List.flatten_cons, List.append_assoc, pieces_eq_cons nonempty,
        leadingBytes_append whole]
      simp only [List.take_left', List.drop_left', ih others, List.map_cons, List.cons_append]

/-- A well-formed text is decoded to itself. -/
theorem fromUtf8Lossy_flatten {characters : List (List UInt8)}
    (wellFormed : Characters characters) :
    fromUtf8Lossy characters.flatten = characters.flatten := by
  have listed := pieces_append wellFormed []
  rw [List.append_nil, pieces_nil, List.append_nil] at listed
  rw [fromUtf8Lossy_eq, listed, rendered, List.map_map]
  congr 1
  exact List.map_id _

/-- The bytes are those of a text. -/
def Valid (bytes : List UInt8) : Prop :=
  ∃ characters, Characters characters ∧ characters.flatten = bytes

theorem fromUtf8Lossy_of_valid (valid : Valid bytes) : fromUtf8Lossy bytes = bytes := by
  rcases valid with ⟨characters, wellFormed, rfl⟩
  exact fromUtf8Lossy_flatten wellFormed

theorem valid_nil : Valid [] :=
  ⟨[], nofun, rfl⟩

theorem Valid.append {front rest : List UInt8} (first : Valid front) (second : Valid rest) :
    Valid (front ++ rest) := by
  rcases first with ⟨characters, wellFormed, rfl⟩
  rcases second with ⟨others, alsoWellFormed, rfl⟩
  refine ⟨characters ++ others, ?_, List.flatten_append⟩
  intro character member
  rcases List.mem_append.mp member with listed | listed
  · exact wellFormed character listed
  · exact alsoWellFormed character listed

theorem valid_of_character (whole : Character bytes) : Valid bytes := by
  refine ⟨[bytes], ?_, ?_⟩
  · intro character member
    rwa [List.mem_singleton.mp member]
  · rw [List.flatten_cons, List.flatten_nil, List.append_nil]

/-- One-byte characters make up a text. -/
theorem valid_of_ascii (ascii : ∀ byte ∈ bytes, byte.toNat < 128) : Valid bytes := by
  induction bytes with
  | nil => exact valid_nil
  | cons byte bytes ih =>
      have single : Character [byte] := by
        apply character_one
        rw [width_eq, if_pos (ascii byte List.mem_cons_self)]
      exact (valid_of_character single).append
        (ih fun other member => ascii other (List.mem_cons_of_mem _ member))

/-- A text stays one when some of its characters are overwritten, byte by byte. -/
theorem valid_of_overwritten {characters : List (List UInt8)} {written : List UInt8}
    {filler : UInt8} {hidden : Nat → Prop} (plain : filler.toNat < 128)
    (wellFormed : Characters characters) (size : written.length = characters.flatten.length)
    (overwritten : ∀ index, hidden index →
      written[index]? = characters.flatten[index]?.map fun _ => filler)
    (kept : ∀ index, ¬ hidden index → written[index]? = characters.flatten[index]?)
    (aligned : ∀ index byte, characters.flatten[index + 1]? = some byte → continues byte = true →
      (hidden index ↔ hidden (index + 1))) : Valid written := by
  induction characters generalizing written hidden with
  | nil =>
      rw [List.eq_nil_of_length_eq_zero size]
      exact valid_nil
  | cons character characters ih =>
      have whole := wellFormed character List.mem_cons_self
      rw [List.flatten_cons] at size overwritten kept aligned
      have together : ∀ index < character.length, (hidden index ↔ hidden 0) := by
        intro index inside
        induction index with
        | zero => exact Iff.rfl
        | succ index previous =>
            have found : (character ++ characters.flatten)[index + 1]? =
                some character[index + 1] := by
              rw [List.getElem?_append_left inside, List.getElem?_eq_getElem inside]
            have goesOn : continues character[index + 1] = true := by
              cases character with
              | nil => exact absurd inside (Nat.not_lt_zero _)
              | cons first rest =>
                  exact (continues_of_character whole).2 _ (List.getElem_mem _)
            rw [← aligned index _ found goesOn]
            exact previous (Nat.lt_of_succ_lt inside)
      have later : Valid (written.drop character.length) := by
        apply @ih (written.drop character.length)
          (fun index => hidden (character.length + index))
          (fun other member => wellFormed other (List.mem_cons_of_mem _ member))
        · rw [List.length_drop, size, List.length_append, Nat.add_sub_cancel_left]
        · intro index covered
          rw [List.getElem?_drop, overwritten _ covered,
            List.getElem?_append_right (Nat.le_add_right _ _), Nat.add_sub_cancel_left]
        · intro index free
          rw [List.getElem?_drop, kept _ free,
            List.getElem?_append_right (Nat.le_add_right _ _), Nat.add_sub_cancel_left]
        · intro index byte found goesOn
          apply aligned (character.length + index) byte _ goesOn
          rwa [Nat.add_assoc, List.getElem?_append_right (Nat.le_add_right _ _),
            Nat.add_sub_cancel_left]
      have first : Valid (written.take character.length) := by
        by_cases covered : hidden 0
        · apply valid_of_ascii
          intro byte member
          rcases List.mem_iff_getElem?.mp member with ⟨index, found⟩
          have inside : index < character.length := by
            have bound := (List.getElem?_eq_some_iff.mp found).1
            rw [List.length_take] at bound
            omega
          rw [List.getElem?_take_of_lt inside,
            overwritten _ ((together index inside).mpr covered), Option.map_eq_some_iff] at found
          rcases found with ⟨_, -, rfl⟩
          exact plain
        · have same : written.take character.length = character := by
            apply List.ext_getElem?
            intro index
            by_cases inside : index < character.length
            · rw [List.getElem?_take_of_lt inside,
                kept _ fun wrong => covered ((together index inside).mp wrong),
                List.getElem?_append_left inside]
            · rw [List.getElem?_eq_none (by rw [List.length_take]; omega),
                List.getElem?_eq_none (Nat.not_lt.mp inside)]
          rw [same]
          exact valid_of_character whole
      rw [← List.take_append_drop character.length written]
      exact first.append later

theorem character_of_piece {piece : Piece} (member : piece ∈ pieces bytes)
    (valid : piece.valid = true) : Character piece.bytes := by
  induction bytes using pieces_induction with
  | empty => cases member
  | piece bytes nonempty ih =>
      rw [pieces_eq_cons nonempty, List.mem_cons] at member
      rcases member with rfl | later
      · exact character_take nonempty valid
      · exact ih later

theorem piece_ne_nil {piece : Piece} (member : piece ∈ pieces bytes) : piece.bytes ≠ [] := by
  induction bytes using pieces_induction with
  | empty => cases member
  | piece bytes nonempty ih =>
      rw [pieces_eq_cons nonempty, List.mem_cons] at member
      rcases member with rfl | later
      · have bounds := leadingBytes_pos nonempty
        rw [← List.length_pos_iff, List.length_take]
        omega
      · exact ih later

end Pieces

end Llxprt.Rust.Utf8
