import Llxprt.Kernel.Weights
import Llxprt.Log.Validation
import Mathlib.Data.List.TakeWhile

/-!
# Malformed tool calls

A reply is searched for tags that name a wrapper or a tool.  Positions are byte
offsets: slicing fails unless the offset is at the start of a character.
-/

namespace Llxprt.Agent.Malformed

open Llxprt.Kernel (width)
open Llxprt.Log (knownTool)
open Llxprt.Rust.Text (isWhitespace)

section Slices

/-- `&text[start..]`, `none` unless the offset is at a character. -/
def sliceFrom : List Char → Nat → Option (List Char)
  | text, 0 => some text
  | [], _ + 1 => none
  | char :: text, start =>
      if char.utf8Size ≤ start then sliceFrom text (start - char.utf8Size) else none

/-- `&text[..stop]`, `none` unless the offset is at a character. -/
def sliceTo : List Char → Nat → Option (List Char)
  | _, 0 => some []
  | [], _ + 1 => none
  | char :: text, stop =>
      if char.utf8Size ≤ stop then (char :: ·) <$> sliceTo text (stop - char.utf8Size) else none

/-- The offset of the first character that satisfies the pattern. -/
def find (pattern : Char → Bool) (text : List Char) : Option Nat :=
  if text.any pattern then some (width (text.takeWhile fun char => !pattern char)) else none

variable {pattern : Char → Bool}

theorem sliceFrom_append (front ahead : List Char) :
    sliceFrom (front ++ ahead) (width front) = some ahead := by
  induction front with
  | nil => cases ahead <;> rfl
  | cons char front ih =>
      have positive := char.utf8Size_pos
      rw [List.cons_append, Kernel.width_cons, sliceFrom.eq_3 _ _ _ (by omega),
        if_pos (Nat.le_add_right _ _), Nat.add_sub_cancel_left, ih]

theorem sliceTo_append (front ahead : List Char) :
    sliceTo (front ++ ahead) (width front) = some front := by
  induction front with
  | nil => cases ahead <;> rfl
  | cons char front ih =>
      have positive := char.utf8Size_pos
      rw [List.cons_append, Kernel.width_cons, sliceTo.eq_3 _ _ _ (by omega),
        if_pos (Nat.le_add_right _ _), Nat.add_sub_cancel_left, ih]
      rfl

/-- A search finds nothing or the first character that satisfies the pattern. -/
theorem find_cases (pattern : Char → Bool) (text : List Char) :
    (find pattern text = none ∧ ∀ char ∈ text, pattern char = false) ∨
    ∃ clear char rest, text = clear ++ char :: rest ∧ pattern char = true ∧
      (∀ other ∈ clear, pattern other = false) ∧ find pattern text = some (width clear) ∧
      text.takeWhile (fun char => !pattern char) = clear := by
  have clear : ∀ other ∈ text.takeWhile (fun char => !pattern char), pattern other = false := by
    intro other member
    have passed := List.all_eq_true.mp List.all_takeWhile other member
    rwa [Bool.not_eq_true'] at passed
  have split := List.takeWhile_append_dropWhile (p := fun char => !pattern char) (l := text)
  rw [find]
  cases rest : text.dropWhile fun char => !pattern char with
  | nil =>
      rw [rest, List.append_nil] at split
      rw [split] at clear
      apply Or.inl
      constructor
      · rw [if_neg]
        rw [List.any_eq_true]
        rintro ⟨char, member, found⟩
        rw [clear char member] at found
        cases found
      · exact clear
  | cons char rest' =>
      rw [rest] at split
      have stopped := List.head?_dropWhile_not (fun char => !pattern char) text
      rw [rest] at stopped
      simp only [List.head?_cons, Bool.not_eq_false'] at stopped
      apply Or.inr
      refine ⟨_, char, rest', split.symm, stopped, clear, if_pos ?_, rfl⟩
      rw [List.any_eq_true]
      refine ⟨char, ?_, stopped⟩
      rw [← split]
      exact List.mem_append_right _ List.mem_cons_self

end Slices

section Tags

def wrapperTags : List String :=
  ["tool_call", "tool_calls", "tool_called_placeholder", "function_call", "function_calls",
    "invoke", "parameter"]

/-- `str::trim`. -/
def trim (text : List Char) : List Char :=
  ((text.dropWhile isWhitespace).reverse.dropWhile isWhitespace).reverse

def stripSlash : List Char → List Char
  | '/' :: name => name
  | name => name

def tagIsToolShaped (raw : List Char) (allowShell : Bool) : Bool :=
  let name := String.ofList
    ((stripSlash (trim raw)).takeWhile fun char => char.isAlphanum || char == '_')
  !name.isEmpty && (wrapperTags.contains name || knownTool name allowShell)

def isBracket (char : Char) : Bool :=
  char == '>' || char == '<'

/-- The loop of `has_tag_block`; `none` when a slice fails or the rounds run out. -/
def scanTags (allowShell : Bool) (text : List Char) : Nat → Nat → Option Bool
  | 0, _ => none
  | rounds + 1, searchedFrom => do
      let ahead ← sliceFrom text searchedFrom
      match find (· == '<') ahead with
      | none => some false
      | some opening =>
          let start := searchedFrom + opening
          let rest ← sliceFrom text (start + 1)
          let stop := (find isBracket rest).getD (width rest)
          let raw ← sliceTo rest stop
          if tagIsToolShaped raw allowShell then
            some true
          else
            scanTags allowShell text rounds (min (start + 1 + max stop 1) (width text))

/-- Every round but the last passes an opening. -/
def hasTagBlock (text : List Char) (allowShell : Bool) : Option Bool :=
  scanTags allowShell text (width text + 1) 0

end Tags

section Openings

variable {allowShell : Bool}

/-- The text of a tag: up to the next bracket or the end. -/
def tagBody (rest : List Char) : List Char :=
  rest.takeWhile fun char => !isBracket char

/-- Some opening is followed by a tool-shaped tag. -/
def ToolShaped (text : List Char) (allowShell : Bool) : Prop :=
  ∃ front rest, text = front ++ '<' :: rest ∧ tagIsToolShaped (tagBody rest) allowShell = true

/-- The openings directly before a position. -/
def openingsBefore (front : List Char) : Nat :=
  (front.reverse.takeWhile (· == '<')).length

/-- A tool-shaped tag whose opening has an even number of openings directly before it. -/
def ReachedTag (front ahead : List Char) (allowShell : Bool) : Prop :=
  ∃ before after, ahead = before ++ '<' :: after ∧
    tagIsToolShaped (tagBody after) allowShell = true ∧
    Even (openingsBefore (front ++ before))

theorem openingsBefore_opening (front : List Char) :
    openingsBefore (front ++ ['<']) = openingsBefore front + 1 := by
  rw [openingsBefore, List.reverse_append, List.reverse_singleton, List.singleton_append,
    List.takeWhile_cons_of_pos rfl, List.length_cons, openingsBefore]

theorem openingsBefore_other {char : Char} (other : char ≠ '<') (front : List Char) :
    openingsBefore (front ++ [char]) = 0 := by
  rw [openingsBefore, List.reverse_append, List.reverse_singleton, List.singleton_append,
    List.takeWhile_cons_of_neg (by simpa using other), List.length_nil]

theorem openingsBefore_append {clear : List Char} (some : clear ≠ []) (plain : '<' ∉ clear)
    (front : List Char) : openingsBefore (front ++ clear) = 0 := by
  rcases List.eq_nil_or_concat clear with none | ⟨shorter, char, rfl⟩
  · exact absurd none some
  · rw [List.concat_eq_append] at plain ⊢
    have other : char ≠ '<' := by
      rintro rfl
      exact plain (List.mem_append_right _ List.mem_cons_self)
    rw [← List.append_assoc, openingsBefore_other other]

/-- Text without openings keeps the count even. -/
theorem even_openingsBefore_append {front clear : List Char}
    (even : Even (openingsBefore front)) (plain : '<' ∉ clear) :
    Even (openingsBefore (front ++ clear)) := by
  by_cases some : clear = []
  · rwa [some, List.append_nil]
  · rw [openingsBefore_append some plain]
    exact Even.zero

/-- A body ends at a bracket or at the end of the text. -/
theorem tagBody_cases (rest : List Char) :
    (tagBody rest = rest ∧ find isBracket rest = none) ∨
    ∃ bracket tail, rest = tagBody rest ++ bracket :: tail ∧ isBracket bracket = true ∧
      find isBracket rest = some (width (tagBody rest)) := by
  rcases find_cases isBracket rest with ⟨absent, plain⟩ |
    ⟨clear, bracket, tail, split, found, plain, first, body⟩
  · apply Or.inl
    constructor
    · rw [tagBody]
      apply List.takeWhile_eq_self_iff.mpr
      intro char member
      rw [plain char member]
      rfl
    · exact absent
  · apply Or.inr
    rw [tagBody, body]
    exact ⟨bracket, tail, split, found, first⟩

theorem opening_notMem_tagBody (rest : List Char) : '<' ∉ tagBody rest := by
  intro member
  have passed := List.all_eq_true.mp List.all_takeWhile '<' member
  cases passed

/-- What the cursor passes behind an opening. -/
def skipped (rest : List Char) : List Char :=
  if tagBody rest = [] then rest.take 1 else tagBody rest

theorem skipped_append (rest : List Char) :
    ∃ leftover, rest = skipped rest ++ leftover := by
  rw [skipped]
  split
  · exact ⟨rest.drop 1, (List.take_append_drop 1 rest).symm⟩
  · exact ⟨rest.dropWhile fun char => !isBracket char, List.takeWhile_append_dropWhile.symm⟩

/-- The cursor passes a second opening when it directly follows the first. -/
theorem skipped_cases (rest : List Char) : '<' ∉ skipped rest ∨ skipped rest = ['<'] := by
  rw [skipped]
  split
  · cases rest with
    | nil => exact Or.inl List.not_mem_nil
    | cons char tail =>
        by_cases opens : char = '<'
        · exact Or.inr (congrArg (· :: []) opens)
        · apply Or.inl
          rw [List.take_succ_cons, List.take_zero, List.mem_singleton]
          exact fun same => opens same.symm
  · exact Or.inl (opening_notMem_tagBody rest)

/-- The cursor steps past the body, and past one character when there is no body. -/
theorem cursor_step (position : Nat) (rest : List Char) :
    min (position + 1 + max ((find isBracket rest).getD (width rest)) 1)
      (position + 1 + width rest) = position + 1 + width (skipped rest) := by
  rcases tagBody_cases rest with ⟨whole, absent⟩ | ⟨bracket, tail, split, found, first⟩
  · rw [absent, Option.getD_none, skipped, whole]
    cases rest with
    | nil => exact Nat.min_eq_right (Nat.le_succ _)
    | cons char tail =>
        rw [if_neg nofun, Kernel.width_cons]
        have positive := char.utf8Size_pos
        omega
  · have bracketSize : bracket.utf8Size = 1 := by
      rw [isBracket, Bool.or_eq_true, beq_iff_eq, beq_iff_eq] at found
      rcases found with rfl | rfl <;> rfl
    rw [first, Option.getD_some, skipped]
    have size := congrArg width split
    rw [Kernel.width_append, Kernel.width_cons, bracketSize] at size
    split
    · rename_i empty
      rw [empty] at size ⊢
      rw [empty, List.nil_append] at split
      have passed : width (rest.take 1) = 1 := by
        rw [split, List.take_succ_cons, List.take_zero, Kernel.width_cons, bracketSize]
        rfl
      have none : width [] = 0 := rfl
      omega
    · rename_i some
      have positive : 0 < width (tagBody rest) := by
        cases body : tagBody rest with
        | nil => exact absurd body some
        | cons char more =>
            rw [Kernel.width_cons]
            exact Nat.add_pos_left char.utf8Size_pos _
      omega

/-- Unless the text is over, the cursor has an even number of openings before it. -/
theorem even_skipped {front clear rest leftover : List Char} (plain : '<' ∉ clear)
    (even : Even (openingsBefore front)) (split : rest = skipped rest ++ leftover) :
    Even (openingsBefore (front ++ clear ++ '<' :: skipped rest)) ∨ leftover = [] := by
  have behind : front ++ clear ++ '<' :: skipped rest =
      front ++ clear ++ ['<'] ++ skipped rest := by
    rw [List.append_assoc (front ++ clear), List.singleton_append]
  rw [behind]
  rcases skipped_cases rest with none | one
  · by_cases nothing : skipped rest = []
    · apply Or.inr
      have empty : rest = [] := by
        rw [skipped] at nothing
        split at nothing
        · cases rest with
          | nil => rfl
          | cons char tail => cases nothing
        · contradiction
      rw [empty] at split
      exact (List.append_eq_nil_iff.mp split.symm).2
    · rw [openingsBefore_append nothing none]
      exact Or.inl Even.zero
  · rw [one, openingsBefore_opening, openingsBefore_opening]
    have here := even_openingsBefore_append even plain
    exact Or.inl (here.add (by decide : Even 2))

/-- A round examines the next opening. -/
theorem scanTags_opening {rounds : Nat} {front clear rest : List Char} (plain : '<' ∉ clear) :
    scanTags allowShell (front ++ (clear ++ '<' :: rest)) (rounds + 1) (width front) =
      if tagIsToolShaped (tagBody rest) allowShell then some true
      else scanTags allowShell (front ++ (clear ++ '<' :: rest)) rounds
        (width (front ++ clear ++ '<' :: skipped rest)) := by
  have opening : find (· == '<') (clear ++ '<' :: rest) = some (width clear) := by
    have clears : (clear ++ '<' :: rest).takeWhile (fun char => !(char == '<')) = clear := by
      rw [List.takeWhile_append_of_pos, List.takeWhile_cons_of_neg (by decide), List.append_nil]
      intro char member
      rw [Bool.not_eq_true', beq_eq_false_iff_ne]
      rintro rfl
      exact plain member
    rw [find, clears, if_pos]
    rw [List.any_append, List.any_cons]
    simp
  have next : width front + width clear + 1 = width (front ++ clear ++ ['<']) := by
    rw [Kernel.width_append, Kernel.width_append]
    rfl
  have behind : front ++ (clear ++ '<' :: rest) = front ++ clear ++ ['<'] ++ rest := by
    simp
  have stop : (find isBracket rest).getD (width rest) = width (tagBody rest) := by
    rcases tagBody_cases rest with ⟨whole, absent⟩ | ⟨bracket, tail, split, found, first⟩
    · rw [absent, whole, Option.getD_none]
    · rw [first, Option.getD_some]
  have raw : sliceTo rest (width (tagBody rest)) = some (tagBody rest) := by
    have split := sliceTo_append (tagBody rest) (rest.dropWhile fun char => !isBracket char)
    rwa [tagBody, List.takeWhile_append_dropWhile] at split
  rw [scanTags, sliceFrom_append]
  simp only [Option.bind_eq_bind, Option.bind_some]
  rw [opening]
  dsimp only
  rw [next]
  have ahead : sliceFrom (front ++ (clear ++ '<' :: rest)) (width (front ++ clear ++ ['<'])) =
      some rest := by
    rw [behind]
    exact sliceFrom_append _ _
  have whole : width (front ++ (clear ++ '<' :: rest)) =
      width front + width clear + 1 + width rest := by
    rw [next, behind, Kernel.width_append]
  have cursor := cursor_step (width front + width clear) rest
  rw [← whole, stop] at cursor
  have passed : width (front ++ clear ++ '<' :: skipped rest) =
      width front + width clear + 1 + width (skipped rest) := by
    rw [next, ← Kernel.width_append, List.append_assoc (front ++ clear), List.singleton_append]
  rw [ahead, Option.bind_some, stop, raw, Option.bind_some, passed, ← cursor, ← next]

/-- The tags ahead of the cursor: the next one, and those ahead of where it goes then. -/
theorem reachedTag_opening {front clear rest leftover : List Char} (plain : '<' ∉ clear)
    (even : Even (openingsBefore front)) (split : rest = skipped rest ++ leftover) :
    ReachedTag front (clear ++ '<' :: rest) allowShell ↔
      tagIsToolShaped (tagBody rest) allowShell = true ∨
      ReachedTag (front ++ clear ++ '<' :: skipped rest) leftover allowShell := by
  have here := even_openingsBefore_append even plain
  constructor
  · rintro ⟨before, after, found, shaped, reached⟩
    rw [List.append_eq_append_iff] at found
    rcases found with ⟨inner, rfl, behind⟩ | ⟨inner, rfl, behind⟩
    · cases inner with
      | nil =>
          rw [List.nil_append, List.cons.injEq] at behind
          exact Or.inl (behind.2 ▸ shaped)
      | cons opening inner =>
          rw [List.cons_append, List.cons.injEq] at behind
          rcases behind with ⟨rfl, behind⟩
          apply Or.inr
          rw [split, List.append_eq_append_iff] at behind
          rcases behind with ⟨more, rfl, tail⟩ | ⟨more, passes, tail⟩
          · refine ⟨more, after, tail, shaped, ?_⟩
            simpa using reached
          · -- the tag would be one that the cursor passes
            cases more with
            | nil =>
                refine ⟨[], after, by simpa using tail.symm, shaped, ?_⟩
                rw [List.append_nil] at passes
                rw [passes]
                simpa using reached
            | cons char more =>
                rw [List.cons_append, List.cons.injEq] at tail
                rcases tail with ⟨rfl, tail⟩
                rcases skipped_cases rest with none | one
                · rw [passes] at none
                  exact absurd (List.mem_append_right _ List.mem_cons_self) none
                · rw [one] at passes
                  have alone : inner = [] ∧ more = [] := by
                    cases inner <;> simp_all
                  rw [alone.1, ← List.append_assoc, openingsBefore_opening] at reached
                  exact absurd here (by simpa [Nat.even_add_one] using reached)
    · cases inner with
      | nil =>
          rw [List.nil_append, List.cons.injEq] at behind
          exact Or.inl (behind.2 ▸ shaped)
      | cons opening inner =>
          rw [List.cons_append, List.cons.injEq] at behind
          rcases behind with ⟨rfl, -⟩
          exact absurd (List.mem_append_right _ List.mem_cons_self) plain
  · rintro (shaped | ⟨before, after, found, shaped, reached⟩)
    · exact ⟨clear, rest, rfl, shaped, here⟩
    · refine ⟨clear ++ '<' :: skipped rest ++ before, after, ?_, shaped, ?_⟩
      · conv_lhs => rw [split, found]
        simp
      · simpa using reached

/-- The scan finds the tags that are reached. -/
theorem scanTags_exact {rounds : Nat} {front ahead : List Char}
    (enough : width ahead < rounds) (even : Even (openingsBefore front) ∨ ahead = []) :
    ∃ found, scanTags allowShell (front ++ ahead) rounds (width front) = some found ∧
      (found = true ↔ ReachedTag front ahead allowShell) := by
  induction rounds generalizing front ahead with
  | zero => exact absurd enough (Nat.not_lt_zero _)
  | succ rounds ih =>
      rcases find_cases (· == '<') ahead with ⟨absent, plain⟩ |
        ⟨clear, opening, rest, rfl, opens, plain, -, -⟩
      · refine ⟨false, ?_, ?_⟩
        · rw [scanTags, sliceFrom_append]
          simp only [Option.bind_eq_bind, Option.bind_some]
          rw [absent]
        · constructor
          · exact nofun
          · rintro ⟨before, after, rfl, -⟩
            have impossible := plain '<' (List.mem_append_right _ List.mem_cons_self)
            cases impossible
      · obtain rfl : opening = '<' := by simpa using opens
        have clears : '<' ∉ clear := by
          intro member
          have impossible := plain '<' member
          cases impossible
        have evenHere : Even (openingsBefore front) := by
          rcases even with even | empty
          · exact even
          · exact absurd empty (by simp)
        rcases skipped_append rest with ⟨leftover, split⟩
        rw [scanTags_opening clears]
        have iff := @reachedTag_opening allowShell _ _ _ _ clears evenHere split
        by_cases shaped : tagIsToolShaped (tagBody rest) allowShell = true
        · rw [if_pos shaped]
          exact ⟨true, rfl, fun _ => iff.mpr (Or.inl shaped), fun _ => rfl⟩
        · rw [if_neg shaped]
          have behind : front ++ (clear ++ '<' :: rest) =
              front ++ clear ++ '<' :: skipped rest ++ leftover := by
            conv_lhs => rw [split]
            simp
          have shorter : width leftover < rounds := by
            have size := congrArg width behind
            simp only [Kernel.width_append, Kernel.width_cons] at size enough
            have one : '<'.utf8Size = 1 := rfl
            omega
          have evenNext : Even (openingsBefore (front ++ clear ++ '<' :: skipped rest)) ∨
              leftover = [] :=
            even_skipped clears evenHere split
          rcases ih shorter evenNext with ⟨found, result, exact_⟩
          refine ⟨found, ?_, ?_⟩
          · rw [behind, result]
          · rw [exact_, iff]
            simp [shaped]

/-- The detection of the reply is exact. -/
def Exact (text : List Char) (allowShell : Bool) : Prop :=
  ∃ found, hasTagBlock text allowShell = some found ∧
    (found = true ↔ ToolShaped text allowShell)

/-- The scan ends, every slice is at a character, and the detection is exact just when a
tool-shaped tag, if there is one, has an even number of openings directly before it. -/
theorem hasTagBlock_exact_iff (text : String) (allowShell : Bool) :
    (∃ found, hasTagBlock text.toList allowShell = some found) ∧
    (Exact text.toList allowShell ↔
      (ToolShaped text.toList allowShell → ∃ front rest, text.toList = front ++ '<' :: rest ∧
        tagIsToolShaped (tagBody rest) allowShell = true ∧ Even (openingsBefore front))) := by
  have scan := @scanTags_exact allowShell (width text.toList + 1) [] text.toList
    (Nat.lt_succ_self _) (Or.inl Even.zero)
  rcases scan with ⟨found, result, reached⟩
  have answer : hasTagBlock text.toList allowShell = some found := result
  have weaker : ReachedTag [] text.toList allowShell → ToolShaped text.toList allowShell := by
    rintro ⟨front, rest, split, shaped, -⟩
    exact ⟨front, rest, split, shaped⟩
  refine ⟨⟨found, answer⟩, ?_⟩
  constructor
  · rintro ⟨other, same, exact_⟩ tag
    rw [answer, Option.some.injEq] at same
    rcases reached.mp (same ▸ exact_.mpr tag) with ⟨front, rest, split, shaped, even⟩
    exact ⟨front, rest, split, shaped, even⟩
  · intro even
    refine ⟨found, answer, ?_⟩
    rw [reached]
    constructor
    · exact weaker
    · intro tag
      rcases even tag with ⟨front, rest, split, shaped, some⟩
      exact ⟨front, rest, split, shaped, some⟩

/-- The second of two adjacent openings is passed with the empty body of the first. -/
theorem hasTagBlock_adjacent_openings :
    ¬ ∀ (text : String) (allowShell : Bool), Exact text.toList allowShell := by
  intro always
  rcases always "<<invoke>" false with ⟨found, result, exact_⟩
  have missed : hasTagBlock "<<invoke>".toList false = some false := by decide
  have tag : ToolShaped "<<invoke>".toList false :=
    ⟨['<'], "invoke>".toList, by decide, by decide⟩
  rw [missed, Option.some.injEq] at result
  rw [← result] at exact_
  cases exact_.mpr tag

end Openings

end Llxprt.Agent.Malformed
