import Llxprt.Kernel.Encoding
import Llxprt.Session.Projections
import Llxprt.Tools.Arguments
import Llxprt.Tools.LossyPrefix

/-!
# Framed read windows

A read shows a window of a file under a header, within the output bound of the call.
A frame that does not reach the end of the file carries a recipe for the next read.
Following the recipes reads the file, as long as no window ends within a character and
the body has room for a character.
-/

namespace Llxprt.Tools

open Llxprt.Rust Llxprt.Rust.Utf8
open Llxprt.Kernel (Bytes utf8)
open Llxprt.Session (refetchVerbatimMax safeWindow)

section Frames

/-- The bounds of one call. -/
structure ReadLimits where
  maxOutput : Nat
  digestSizeFloor : Nat
  configOutput : Nat
  requestedWindow : Option Nat

def recipeWindow (floor configOutput : Nat) : Nat :=
  max 1 (min (min (safeWindow floor) configOutput) refetchVerbatimMax)

/-- The arguments of the next read. -/
structure Recipe where
  path : String
  offset : Nat
  window : Nat
  deriving DecidableEq

def reFetchRecipe (path : String) (offset : Nat) (limits : ReadLimits) : Recipe :=
  ⟨path, offset, recipeWindow limits.digestSizeFloor limits.configOutput⟩

def Recipe.text (recipe : Recipe) : String :=
  "re-fetch: \x7b\"path\":" ++ String.ofList (Json.printString recipe.path) ++ ",\"offset\":" ++
    toString recipe.offset ++ ",\"max_output_bytes\":" ++ toString recipe.window ++ "\x7d"

def cutMarker : String :=
  "..."

/-- A frame before it is put together. -/
structure Frame where
  header : String
  body : Bytes
  cut : Bool
  recipe : Option Recipe
  deriving DecidableEq

def Frame.text (frame : Frame) : Bytes :=
  utf8 frame.header ++ utf8 "\n" ++ frame.body ++ (if frame.cut then utf8 cutMarker else []) ++
    (match frame.recipe with
    | some recipe => utf8 "\n" ++ utf8 recipe.text
    | none => [])

/-- The range of a window. -/
def windowRange (offset stop fdLen : Nat) : String :=
  "[" ++ toString offset ++ ".." ++ toString stop ++ " of " ++ toString fdLen ++ " bytes"

def windowHeader (offset fdLen shown : Nat) (limit : Option Nat) (limits : ReadLimits)
    (atEofComplete bodyCut : Bool) : String :=
  let range := windowRange offset (offset + shown) fdLen
  if atEofComplete then
    range ++ "]"
  else if limit.any fun bound => bound = shown then
    range ++ "; window " ++ toString shown ++ " bytes at requested limit **truncated**]"
  else if limits.requestedWindow.any fun bound => bound = shown then
    range ++ "; window " ++ toString shown ++ " bytes at requested max_output_bytes **truncated**]"
  else if bodyCut then
    range ++ "; window clamped to " ++ toString shown ++ " bytes by output budget **truncated**]"
  else
    range ++ " **truncated**]"

def shortHeader (offset fdLen shown : Nat) (complete : Bool) : String :=
  windowRange offset (offset + shown) fdLen ++ (if complete then "]" else " **truncated**]")

/-- The longest header for a window. -/
def probeHeader (offset fdLen shown : Nat) : String :=
  windowRange offset (offset + shown) fdLen ++ "; window " ++ toString shown ++
    " bytes at requested max_output_bytes **truncated**]"

/-- The room of a body beside a header, the cut marker and a recipe. -/
def recipeRoom (maxOutput probeLen : Nat) (recipe : Recipe) : Nat :=
  maxOutput - (probeLen + 1 + (utf8 cutMarker).length + (utf8 recipe.text).length + 1)

/-- The body of a window, how many bytes it covers, and a recipe when it is needed. -/
def renderBody (data : Bytes) (maxOutput probeLen : Nat) (atEof : Bool) (recipe : Recipe) :
    Option (Bytes × Nat × Option Recipe) :=
  if atEof then do
    let (body, rawCovered) ← utf8LossyPrefix (maxOutput - (probeLen + 1)) data
    if data.length ≤ rawCovered then
      some (body, rawCovered, none)
    else
      let (body, rawCovered) ← utf8LossyPrefix (recipeRoom maxOutput probeLen recipe) data
      some (body, rawCovered, some recipe)
  else do
    let (body, rawCovered) ← utf8LossyPrefix (recipeRoom maxOutput probeLen recipe) data
    some (body, rawCovered, some recipe)

def tooSmall (maxOutput : Nat) : String :=
  "output budget " ++ toString maxOutput ++
    " bytes is too small to render a read window and its re-fetch recipe"

def frameRead (path : String) (offset fdLen : Nat) (limit : Option Nat) (limits : ReadLimits)
    (data : Bytes) : Outcome String Frame :=
  let shown := data.length
  let stop := offset + shown
  let atEof := decide (fdLen ≤ stop)
  match renderBody data limits.maxOutput (utf8 (probeHeader offset fdLen shown)).length atEof
      (reFetchRecipe path stop limits) with
  | none => .panic
  | some (body, rawCovered, recipe) =>
      let bodyCut := decide (rawCovered < shown)
      let resume := offset + rawCovered
      let recipe := recipe.map fun recipe =>
        if resume = stop then recipe else reFetchRecipe path resume limits
      let header := windowHeader offset fdLen shown limit limits (atEof && recipe.isNone) bodyCut
      let verbose : Frame := ⟨header, body, bodyCut, recipe⟩
      if verbose.text.length ≤ limits.maxOutput then
        .ok verbose
      else
        let short : Frame :=
          ⟨shortHeader offset fdLen shown (atEof && recipe.isNone), body, bodyCut, recipe⟩
        if short.text.length ≤ limits.maxOutput ∨ recipe = none then
          .ok short
        else
          .err (tooSmall limits.maxOutput)

/-- The bytes of a file that a call shows. -/
def windowBytes (file : Bytes) (offset : Nat) (limit : Option Nat) (limits : ReadLimits) : Bytes :=
  let maxWindow := min (min file.length maxFileBytes) limits.maxOutput
  let cap :=
    match limit with
    | some bound => min (saturatingAdd bound 1) maxWindow
    | none => maxWindow
  let data := (file.drop offset).take cap
  data.take
    (match limit with
    | some bound => min bound data.length
    | none => data.length)

/-- `read_file_tool` on an open file. -/
def readFile (file : Bytes) (path : String) (offset : Nat) (limit : Option Nat)
    (limits : ReadLimits) : Outcome String Frame :=
  if file.length < offset then
    .err ("offset " ++ toString offset ++ " is beyond the " ++ toString file.length ++ " byte file")
  else
    frameRead path offset file.length limit limits (windowBytes file offset limit limits)

end Frames

section Runs

/-- The calls of a reader that follows recipes, each with bounds of its own: the offset and the
limit of a call, and the bytes that were read before it. -/
inductive Follows (allowed : Nat → Option Nat → ReadLimits → Prop) (file : Bytes) (path : String)
    (first : Option Nat) : Nat → Option Nat → Bytes → Prop
  | start : Follows allowed file path first 0 first []
  | next {offset : Nat} {limit : Option Nat} {read : Bytes} {limits : ReadLimits} {frame : Frame}
      {recipe : Recipe} : Follows allowed file path first offset limit read →
      allowed offset limit limits → readFile file path offset limit limits = .ok frame →
      frame.recipe = some recipe → Follows allowed file path first recipe.offset none (read ++ frame.body)

/-- A call reads on: with a recipe it goes forward within the bound, and without one all of
the file has been read. -/
def ReadsOn (file : Bytes) (path : String) (offset : Nat) (limit : Option Nat) (read : Bytes)
    (limits : ReadLimits) : Prop :=
  match readFile file path offset limit limits with
  | .panic => False
  | .err _ => True
  | .ok frame =>
      match frame.recipe with
      | some recipe => offset < recipe.offset ∧ frame.text.length ≤ limits.maxOutput
      | none => read ++ frame.body = file

/-- A call cannot show all that is left. -/
def NeedsRecipe (file : Bytes) (offset shown : Nat) (limits : ReadLimits) : Prop :=
  offset + shown < file.length ∨
    limits.maxOutput - ((utf8 (probeHeader offset file.length shown)).length + 1) < shown

/-- Not even a frame without a body is within the bound. -/
def Refused (file : Bytes) (path : String) (offset shown : Nat) (limits : ReadLimits) : Prop :=
  let frame : Frame := ⟨shortHeader offset file.length shown false, [], decide (0 < shown),
    some (reFetchRecipe path offset limits)⟩
  limits.maxOutput < frame.text.length

/-- The body has room for a character of the window, and it does not get to a character that
the end of the window breaks. -/
def HasRoom (file : Bytes) (path : String) (offset shown : Nat) (limits : ReadLimits) : Prop :=
  let room := recipeRoom limits.maxOutput (utf8 (probeHeader offset file.length shown)).length
    (reFetchRecipe path (offset + shown) limits)
  let whole := floorBoundary file (offset + shown) - offset
  0 < whole ∧ (Text.leadingBytes (file.drop offset)).2 ≤ room ∧
    (whole = shown ∨ room < whole + replacement.length)

/-- The calls that read on. -/
def Fitting (file : Bytes) (path : String) (offset : Nat) (limit : Option Nat)
    (limits : ReadLimits) : Prop :=
  let shown := (windowBytes file offset limit limits).length
  NeedsRecipe file offset shown limits →
    Refused file path offset shown limits ∨ HasRoom file path offset shown limits

end Runs

section Boundaries

variable {file : Bytes} {offset place : Nat}

/-- A text splits at its boundaries. -/
theorem valid_split (valid : Valid file) (stands : isCharBoundary file offset = true) :
    Valid (file.take offset) ∧ Valid (file.drop offset) := by
  rcases valid with ⟨characters, wellFormed, rfl⟩
  rcases (boundary_flatten wellFormed).mp stands with ⟨count, within, rfl⟩
  have split : characters.flatten =
      (characters.take count).flatten ++ (characters.drop count).flatten := by
    rw [← List.flatten_append, List.take_append_drop]
  constructor
  · exact ⟨characters.take count, fun character member =>
      wellFormed character (List.mem_of_mem_take member), take_length_flatten.symm⟩
  · refine ⟨characters.drop count, fun character member =>
      wellFormed character (List.mem_of_mem_drop member), ?_⟩
    conv_rhs => rw [split]
    exact (List.drop_left' rfl).symm

/-- The boundaries of what follows a boundary. -/
theorem boundary_drop (stands : isCharBoundary file offset = true) (within : offset ≤ file.length) :
    isCharBoundary (file.drop offset) place = true ↔
      isCharBoundary file (offset + place) = true := by
  rw [isCharBoundary_iff, isCharBoundary_iff, List.getElem?_drop, List.length_drop]
  constructor
  · rintro (start | stop | found)
    · rw [start, Nat.add_zero]
      exact isCharBoundary_iff.mp stands
    · exact Or.inr (Or.inl (by omega))
    · exact Or.inr (Or.inr found)
  · rintro (start | stop | found)
    · exact Or.inl (by omega)
    · exact Or.inr (Or.inl (by omega))
    · exact Or.inr (Or.inr found)

/-- The boundaries of what precedes a boundary. -/
theorem boundary_take (stands : isCharBoundary file offset = true) (within : offset ≤ file.length)
    (before : place ≤ offset) :
    isCharBoundary (file.take offset) place = true ↔ isCharBoundary file place = true := by
  rcases Nat.lt_or_eq_of_le before with inside | last
  · rw [isCharBoundary_iff, isCharBoundary_iff, List.getElem?_take_of_lt inside,
      List.length_take_of_le within]
    constructor
    · rintro (start | stop | found)
      · exact Or.inl start
      · exact absurd stop (Nat.ne_of_lt inside)
      · exact Or.inr (Or.inr found)
    · rintro (start | stop | found)
      · exact Or.inl start
      · omega
      · exact Or.inr (Or.inr found)
  · rw [last]
    have size : (file.take offset).length = offset := List.length_take_of_le within
    have whole := isCharBoundary_length (file.take offset)
    rw [size] at whole
    rw [stands, whole]

/-- The first character of a text ends at a boundary. -/
theorem boundary_leading (valid : Valid file) (nonempty : file ≠ []) :
    isCharBoundary file (Text.leadingBytes file).2 = true := by
  rcases valid with ⟨characters, wellFormed, rfl⟩
  cases characters with
  | nil => exact absurd rfl nonempty
  | cons character characters =>
      have whole := wellFormed character List.mem_cons_self
      rw [boundary_flatten wellFormed]
      refine ⟨1, Nat.succ_le_succ (Nat.zero_le _), ?_⟩
      rw [List.flatten_cons, leadingBytes_append whole, List.take_succ_cons, List.take_zero,
        List.flatten_cons, List.flatten_nil, List.append_nil]

/-- A broken character begins no character. -/
theorem leadingBytes_broken {character : Bytes} {count : Nat} (whole : Character character)
    (nonzero : 0 < count) (part : count < character.length) :
    (Text.leadingBytes (character.take count)).1 = false := by
  by_contra begins
  rw [Bool.not_eq_false] at begins
  have size : (character.take count).length = count := List.length_take_of_le (Nat.le_of_lt part)
  have nonempty : character.take count ≠ [] := by
    intro nothing
    rw [nothing] at size
    exact absurd size (Nat.ne_of_lt nonzero)
  have first := character_take nonempty begins
  have bounds := leadingBytes_pos nonempty
  generalize (Text.leadingBytes (character.take count)).2 = width at first bounds
  rw [List.take_take, Nat.min_eq_left (by omega)] at first
  have read := leadingBytes_append first (character.drop width)
  rw [List.take_append_drop, whole.2, Prod.mk.injEq, List.length_take] at read
  omega

/-- What the end of a window leaves of the character that it breaks. -/
theorem broken_tail {stop : Nat} (valid : Valid file) (within : stop ≤ file.length)
    (between : floorBoundary file stop < stop) :
    (Text.leadingBytes ((file.drop (floorBoundary file stop)).take
      (stop - floorBoundary file stop))).1 = false := by
  have stands := isCharBoundary_floorBoundary file stop
  have most : ∀ place, isCharBoundary file place = true → place ≤ stop →
      place ≤ floorBoundary file stop := fun place => le_floorBoundary
  generalize floorBoundary file stop = floor at stands most between
  rcases (valid_split valid stands).2 with ⟨characters, wellFormed, joined⟩
  have size := congrArg List.length joined
  rw [List.length_drop] at size
  cases characters with
  | nil =>
      rw [List.flatten_nil, List.length_nil] at size
      omega
  | cons character characters =>
      have whole := wellFormed character List.mem_cons_self
      have ends : isCharBoundary (file.drop floor) character.length = true := by
        rw [← joined, boundary_flatten wellFormed]
        refine ⟨1, Nat.succ_le_succ (Nat.zero_le _), ?_⟩
        rw [List.take_succ_cons, List.take_zero, List.flatten_cons, List.flatten_nil,
          List.append_nil]
      have positive := List.length_pos_iff.mpr whole.1
      rw [boundary_drop stands (by omega)] at ends
      have beyond : stop < floor + character.length := by
        by_contra reached
        have bound := most _ ends (Nat.le_of_not_lt reached)
        omega
      rw [← joined, List.flatten_cons, List.take_append_of_le_length (by omega)]
      exact leadingBytes_broken whole (by omega) (by omega)

end Boundaries

section Prefixes

variable {front tail : Bytes} {room : Nat}

theorem length_flatten_take_le {items : List Bytes} {fewer more : Nat} (le : fewer ≤ more) :
    (items.take fewer).flatten.length ≤ (items.take more).flatten.length := by
  have split : items.take more = items.take fewer ++ (items.take more).drop fewer := by
    conv_lhs => rw [← List.take_append_drop fewer (items.take more)]
    rw [List.take_take, Nat.min_eq_left le]
  rw [split, List.flatten_append, List.length_append]
  exact Nat.le_add_right _ _

/-- Of a text the characters that fit are shown, and a broken character after it is not when
there is no room for its replacement. -/
theorem utf8LossyPrefix_whole (valid : Valid front)
    (broken : tail ≠ [] →
      (Text.leadingBytes tail).1 = false ∧ room < front.length + replacement.length) :
    ∃ raw ≤ front.length, utf8LossyPrefix room (front ++ tail) = some (front.take raw, raw) ∧
      isCharBoundary front raw = true ∧ raw ≤ room ∧
      ∀ place ≤ front.length, isCharBoundary front place = true → place ≤ room → place ≤ raw := by
  rcases valid with ⟨characters, wellFormed, rfl⟩
  have listed := pieces_append wellFormed tail
  have loop := @lossyLoop_exact room (characters.flatten ++ tail).length 0
    (characters.flatten ++ tail) [] (Nat.le_refl _) (Nat.zero_le _)
  rcases loop with ⟨count, fill, result⟩
  rw [listed, ← asPieces] at result fill
  have within : count ≤ characters.length := by
    by_contra more
    have bound := fill.within
    rw [List.length_append, length_asPieces] at bound
    cases tail with
    | nil =>
        rw [pieces_nil, List.length_nil] at bound
        omega
    | cons byte tail =>
        have known := broken (List.cons_ne_nil _ _)
        have fits := fill.fits
        rw [pieces_eq_cons (List.cons_ne_nil _ _), known.1] at fits
        have taken : ∃ rest, (asPieces characters ++
            ⟨false, (byte :: tail).take (Text.leadingBytes (byte :: tail)).2⟩ ::
              pieces ((byte :: tail).drop (Text.leadingBytes (byte :: tail)).2)).take count =
            asPieces characters ++
              ⟨false, (byte :: tail).take (Text.leadingBytes (byte :: tail)).2⟩ :: rest := by
          rcases Nat.exists_eq_add_of_lt (Nat.lt_of_not_le more) with ⟨further, counted⟩
          have size := length_asPieces characters
          refine ⟨(pieces ((byte :: tail).drop (Text.leadingBytes (byte :: tail)).2)).take further,
            ?_⟩
          rw [counted, ← size, Nat.add_assoc, List.take_length_add_append, List.take_succ_cons]
        rcases taken with ⟨rest, taken⟩
        rw [taken, rendered_append, rendered_asPieces, rendered, List.map_cons, List.flatten_cons,
          List.length_append, List.length_append] at fits
        have shown : (Piece.shown
            ⟨false, (byte :: tail).take (Text.leadingBytes (byte :: tail)).2⟩).length =
              replacement.length := rfl
        rw [shown, List.length_nil, Nat.sub_zero] at fits
        omega
  rw [List.take_append_of_le_length (by rwa [length_asPieces]), take_asPieces, rendered_asPieces,
    covered_asPieces, List.nil_append, Nat.zero_add] at result
  have fits := fill.fits
  have full := fill.full
  rw [List.take_append_of_le_length (by rwa [length_asPieces]), take_asPieces,
    rendered_asPieces, List.length_nil, Nat.sub_zero] at fits full
  have front := @take_length_flatten characters count
  refine ⟨(characters.take count).flatten.length, ?_, ?_, ?_, fits, ?_⟩
  · have bound := @length_flatten_take_le characters count characters.length within
    rwa [List.take_length] at bound
  · rw [front]
    exact result
  · exact (boundary_flatten wellFormed).mpr ⟨count, within, rfl⟩
  · intro place _ stands reached
    rcases (boundary_flatten wellFormed).mp stands with ⟨other, known, rfl⟩
    rcases Nat.lt_or_ge count other with more | fewer
    · have present : characters[count]? = some (characters.get ⟨count, by omega⟩) :=
        List.getElem?_eq_getElem (by omega)
      have next : (asPieces characters ++ pieces tail)[count]? =
          some ⟨true, characters.get ⟨count, by omega⟩⟩ := by
        rw [List.getElem?_append_left (by rw [length_asPieces]; omega), asPieces,
          List.getElem?_map, present]
        rfl
      have beyond := full _ next
      have further := @length_flatten_take_le characters (count + 1) other more
      rw [List.take_add_one, present, List.flatten_append, List.length_append, Option.toList_some,
        List.flatten_cons, List.flatten_nil, List.append_nil] at further
      exact absurd (Nat.le_trans further reached) (Nat.not_le.mpr beyond)
    · exact length_flatten_take_le fewer

/-- Without room nothing is shown. -/
theorem utf8LossyPrefix_zero (data : Bytes) : utf8LossyPrefix 0 data = some ([], 0) := by
  unfold utf8LossyPrefix
  cases data with
  | nil => rfl
  | cons byte data => simp [lossyLoop, checkedSub]

end Prefixes

section Lengths

theorem length_number (number : Nat) :
    (utf8 (toString number)).length = (Nat.toDigits 10 number).length := by
  have digits : ∀ chars : List Char, (∀ char ∈ chars, char.isDigit = true) →
      ((chars.map String.utf8EncodeChar).flatten).length = chars.length := by
    intro chars all
    induction chars with
    | nil => rfl
    | cons char chars ih =>
        rw [List.map_cons, List.flatten_cons, List.length_append, List.length_cons,
          String.length_utf8EncodeChar, Kernel.utf8Size_of_isDigit (all char List.mem_cons_self),
          ih fun other member => all other (List.mem_cons_of_mem _ member), Nat.add_comm]
  rw [Nat.toString_eq_ofList_toDigits, Kernel.utf8_ofList]
  exact digits _ fun char member => Text.isDigit_of_mem_toDigits member

theorem length_number_mono {first second : Nat} (le : first ≤ second) :
    (utf8 (toString first)).length ≤ (utf8 (toString second)).length := by
  rw [length_number, length_number,
    Nat.length_toDigits_le_iff (Nat.lt_add_left 8 Nat.one_lt_two) Nat.length_toDigits_pos]
  refine Nat.lt_of_le_of_lt le ?_
  rw [← Nat.length_toDigits_le_iff (Nat.lt_add_left 8 Nat.one_lt_two) Nat.length_toDigits_pos]

theorem length_append_utf8 (front rest : String) :
    (utf8 (front ++ rest)).length = (utf8 front).length + (utf8 rest).length := by
  rw [Kernel.utf8_append, List.length_append]

/-- A later recipe is not shorter. -/
theorem length_recipe_mono (path : String) (limits : ReadLimits) {first second : Nat}
    (le : first ≤ second) : (utf8 (reFetchRecipe path first limits).text).length ≤
      (utf8 (reFetchRecipe path second limits).text).length := by
  unfold Recipe.text reFetchRecipe
  dsimp only
  generalize "re-fetch: \x7b\"path\":" ++ String.ofList (Json.printString path) ++ ",\"offset\":" =
    front
  generalize ",\"max_output_bytes\":" = middle
  generalize toString (recipeWindow limits.digestSizeFloor limits.configOutput) = window
  rw [length_append_utf8 _ "\x7d", length_append_utf8 _ "\x7d", length_append_utf8 _ window,
    length_append_utf8 _ window, length_append_utf8 _ middle, length_append_utf8 _ middle,
    length_append_utf8 front, length_append_utf8 front]
  apply Nat.add_le_add_right
  apply Nat.add_le_add_right
  apply Nat.add_le_add_right
  exact Nat.add_le_add_left (length_number_mono le) _

end Lengths

section Calls

variable {file data body : Bytes} {path : String} {offset fdLen raw shown : Nat} {limit : Option Nat}
  {limits : ReadLimits}

theorem length_text {header : String} {cut : Bool} {recipe : Recipe} :
    (Frame.text ⟨header, body, cut, some recipe⟩).length =
      (utf8 header).length + 1 + body.length + (if cut then 3 else 0) +
        (1 + (utf8 recipe.text).length) := by
  have line : (utf8 "\n").length = 1 := by decide
  have marker : (utf8 cutMarker).length = 3 := by decide
  simp only [Frame.text, List.length_append, line]
  cases cut
  · simp
  · simp [marker]

theorem length_shortHeader_le :
    (utf8 (shortHeader offset fdLen shown false)).length ≤
      (utf8 (probeHeader offset fdLen shown)).length := by
  have words : (utf8 " **truncated**]").length = 15 ∧
      (utf8 " bytes at requested max_output_bytes **truncated**]").length = 51 := by
    decide
  simp only [shortHeader, probeHeader, length_append_utf8, Bool.false_eq_true, if_false]
  omega

theorem length_shortHeader_le_windowHeader {bodyCut : Bool} :
    (utf8 (shortHeader offset fdLen shown false)).length ≤
      (utf8 (windowHeader offset fdLen shown limit limits false bodyCut)).length := by
  have words : (utf8 " **truncated**]").length = 15 ∧
      (utf8 " bytes at requested limit **truncated**]").length = 40 ∧
      (utf8 " bytes at requested max_output_bytes **truncated**]").length = 51 ∧
      (utf8 " bytes by output budget **truncated**]").length = 38 := by
    decide
  simp only [shortHeader, windowHeader, Bool.false_eq_true, if_false]
  split_ifs <;> simp only [length_append_utf8] <;> omega

/-- A frame with a recipe resumes where its body ends. -/
theorem frameRead_recipe
    (rendered : renderBody data limits.maxOutput
      (utf8 (probeHeader offset fdLen data.length)).length
      (decide (fdLen ≤ offset + data.length)) (reFetchRecipe path (offset + data.length) limits) =
        some (body, raw, some (reFetchRecipe path (offset + data.length) limits))) :
    ∃ header cut, cut = decide (raw < data.length) ∧
      (utf8 (shortHeader offset fdLen data.length false)).length ≤ (utf8 header).length ∧
      frameRead path offset fdLen limit limits data =
        (let recipe := reFetchRecipe path (offset + raw) limits
        let verbose : Frame := ⟨header, body, cut, some recipe⟩
        let short : Frame := ⟨shortHeader offset fdLen data.length false, body, cut, some recipe⟩
        if verbose.text.length ≤ limits.maxOutput then
          .ok verbose
        else if short.text.length ≤ limits.maxOutput then
          .ok short
        else
          .err (tooSmall limits.maxOutput)) := by
  refine ⟨_, _, rfl, @length_shortHeader_le_windowHeader offset fdLen data.length limit limits
    (decide (raw < data.length)), ?_⟩
  have resumed : (if offset + raw = offset + data.length then
      reFetchRecipe path (offset + data.length) limits
      else reFetchRecipe path (offset + raw) limits) = reFetchRecipe path (offset + raw) limits := by
    split
    · rename_i same
      rw [same]
    · rfl
  rw [frameRead]
  dsimp only
  rw [rendered]
  simp only [Option.map_some, resumed, Option.isNone_some, Bool.and_false, reduceCtorEq, or_false]

/-- A frame without a recipe is shown also beyond the bound. -/
theorem frameRead_complete
    (rendered : renderBody data limits.maxOutput
      (utf8 (probeHeader offset fdLen data.length)).length
      (decide (fdLen ≤ offset + data.length)) (reFetchRecipe path (offset + data.length) limits) =
        some (body, raw, none)) :
    ∃ frame, frameRead path offset fdLen limit limits data = .ok frame ∧ frame.recipe = none ∧
      frame.body = body := by
  rw [frameRead]
  dsimp only
  rw [rendered]
  simp only [Option.map_none, or_true, if_true]
  split
  · exact ⟨_, rfl, rfl, rfl⟩
  · exact ⟨_, rfl, rfl, rfl⟩

theorem renderBody_complete {maxOutput probeLen : Nat} {recipe : Recipe}
    (prefixed : utf8LossyPrefix (maxOutput - (probeLen + 1)) data = some (data, data.length)) :
    renderBody data maxOutput probeLen true recipe = some (data, data.length, none) := by
  rw [renderBody, if_pos rfl, prefixed]
  exact if_pos (Nat.le_refl _)

theorem renderBody_recipe {maxOutput probeLen : Nat} {atEof : Bool} {recipe : Recipe}
    (nonzero : atEof = true → ∃ shown covered, utf8LossyPrefix (maxOutput - (probeLen + 1)) data =
      some (shown, covered) ∧ covered < data.length)
    (prefixed : utf8LossyPrefix (recipeRoom maxOutput probeLen recipe) data = some (body, raw)) :
    renderBody data maxOutput probeLen atEof recipe = some (body, raw, some recipe) := by
  cases atEof with
  | false =>
      rw [renderBody, if_neg Bool.false_ne_true, prefixed]
      rfl
  | true =>
      rcases nonzero rfl with ⟨shown, covered, found, short⟩
      rw [renderBody, if_pos rfl, found]
      simp only [Option.bind_eq_bind, Option.bind_some]
      rw [if_neg (Nat.not_le.mpr short), prefixed]
      rfl

theorem windowBytes_eq : windowBytes file offset limit limits =
    (file.drop offset).take (windowBytes file offset limit limits).length := by
  have taken : ∀ count other : Nat, ((file.drop offset).take count).take other =
      (file.drop offset).take (((file.drop offset).take count).take other).length := by
    intro count other
    rw [List.take_take, List.length_take]
    exact List.take_eq_take_min
  unfold windowBytes
  exact taken _ _

end Calls

section Exactness

variable {file : Bytes} {path : String} {offset : Nat} {first limit : Option Nat}
  {limits : ReadLimits}

/-- The first character of a text does not depend on what follows. -/
theorem leadingBytes_whole {front rest : Bytes} (valid : Valid front) (nonempty : front ≠ []) :
    (Text.leadingBytes (front ++ rest)).2 = (Text.leadingBytes front).2 := by
  rcases valid with ⟨characters, wellFormed, rfl⟩
  cases characters with
  | nil => exact absurd rfl nonempty
  | cons character characters =>
      have whole := wellFormed character List.mem_cons_self
      rw [List.flatten_cons, List.append_assoc, leadingBytes_append whole,
        leadingBytes_append whole]

/-- A window is made of whole characters and of what its end leaves of a broken one. -/
theorem window_split {stop : Nat} (valid : Valid file)
    (stands : isCharBoundary file offset = true) (forward : offset ≤ stop)
    (within : stop ≤ file.length) :
    ∃ front tail, (file.drop offset).take (stop - offset) = front ++ tail ∧ Valid front ∧
      front.length = floorBoundary file stop - offset ∧
      front.length + tail.length = stop - offset ∧
      (file.drop offset).take front.length = front ∧
      (∀ place ≤ front.length, isCharBoundary front place = true →
        isCharBoundary file (offset + place) = true) ∧
      (tail ≠ [] → (Text.leadingBytes tail).1 = false) := by
  have reached := le_floorBoundary stands forward
  have below : floorBoundary file stop ≤ stop := floorBoundary_le
  have broken := @broken_tail file stop valid within
  have between := isCharBoundary_floorBoundary file stop
  generalize floorBoundary file stop = floor at reached below broken between
  have inner : isCharBoundary (file.drop offset) (floor - offset) = true := by
    rwa [boundary_drop stands (Nat.le_trans forward within), Nat.add_sub_cancel' reached]
  have size : ((file.drop offset).take (floor - offset)).length = floor - offset := by
    rw [List.length_take, List.length_drop]
    omega
  have bound : floor - offset ≤ (file.drop offset).length := by
    rw [List.length_drop]
    omega
  refine ⟨(file.drop offset).take (floor - offset), (file.drop floor).take (stop - floor),
    ?_, (valid_split (valid_split valid stands).2 inner).1, size, ?_, by rw [size], ?_, ?_⟩
  · have parts : stop - offset = (floor - offset) + (stop - floor) := by omega
    rw [parts, List.take_add, List.drop_drop, Nat.add_sub_cancel' reached]
  · rw [size, List.length_take, List.length_drop]
    omega
  · intro place fits begins
    rw [size] at fits
    rw [boundary_take inner bound fits] at begins
    rwa [boundary_drop stands (Nat.le_trans forward within)] at begins
  · intro nonempty
    apply broken
    by_contra same
    have nothing : stop - floor = 0 := by omega
    rw [nothing, List.take_zero] at nonempty
    exact nonempty rfl

/-- What a fitting call at a boundary gives. -/
inductive Gives (file : Bytes) (offset : Nat) (limits : ReadLimits) :
    Outcome String Frame → Prop
  | refused (message : String) : Gives file offset limits (.err message)
  | complete {frame : Frame} : frame.recipe = none → frame.body = file.drop offset →
      Gives file offset limits (.ok frame)
  | partly {frame : Frame} {recipe : Recipe} {raw : Nat} : frame.recipe = some recipe →
      recipe.offset = offset + raw → 0 < raw → offset + raw ≤ file.length →
      isCharBoundary file (offset + raw) = true → frame.body = (file.drop offset).take raw →
      frame.text.length ≤ limits.maxOutput → Gives file offset limits (.ok frame)

/-- With room for a character the frame goes forward. -/
theorem gives_of_room {data : Bytes} {raw : Nat}
    (rendered : renderBody data limits.maxOutput
      (utf8 (probeHeader offset file.length data.length)).length
      (decide (file.length ≤ offset + data.length))
      (reFetchRecipe path (offset + data.length) limits) =
        some ((file.drop offset).take raw, raw,
          some (reFetchRecipe path (offset + data.length) limits)))
    (within : raw ≤ data.length) (inside : offset + raw ≤ file.length) (nonzero : 0 < raw)
    (stands : isCharBoundary file (offset + raw) = true)
    (fits : raw ≤ recipeRoom limits.maxOutput
      (utf8 (probeHeader offset file.length data.length)).length
      (reFetchRecipe path (offset + data.length) limits)) :
    Gives file offset limits (frameRead path offset file.length limit limits data) := by
  rcases @frameRead_recipe data _ path offset file.length raw limit limits rendered with
    ⟨header, cut, -, -, result⟩
  have shorter := @length_recipe_mono path limits (offset + raw) (offset + data.length) (by omega)
  have probe := @length_shortHeader_le offset file.length data.length
  have marker : (utf8 cutMarker).length = 3 := by decide
  have body : ((file.drop offset).take raw).length = raw := by
    rw [List.length_take, List.length_drop]
    omega
  unfold recipeRoom at fits
  rw [result]
  dsimp only
  by_cases verbose : (Frame.text ⟨header, (file.drop offset).take raw, cut,
      some (reFetchRecipe path (offset + raw) limits)⟩).length ≤ limits.maxOutput
  · rw [if_pos verbose]
    exact .partly rfl rfl nonzero inside stands rfl verbose
  · have short : (Frame.text ⟨shortHeader offset file.length data.length false,
        (file.drop offset).take raw, cut,
        some (reFetchRecipe path (offset + raw) limits)⟩).length ≤ limits.maxOutput := by
      rw [length_text, body]
      split <;> omega
    rw [if_neg verbose, if_pos short]
    exact .partly rfl rfl nonzero inside stands rfl short

/-- Without room for any frame the call is refused. -/
theorem gives_of_refused {data : Bytes}
    (rendered : renderBody data limits.maxOutput
      (utf8 (probeHeader offset file.length data.length)).length
      (decide (file.length ≤ offset + data.length))
      (reFetchRecipe path (offset + data.length) limits) =
        some ([], 0, some (reFetchRecipe path (offset + data.length) limits)))
    (refused : Refused file path offset data.length limits) :
    Gives file offset limits (frameRead path offset file.length limit limits data) := by
  rcases @frameRead_recipe data _ path offset file.length 0 limit limits rendered with
    ⟨header, cut, cut_eq, longer, result⟩
  unfold Refused at refused
  dsimp only at refused
  rw [result, cut_eq, Nat.add_zero]
  dsimp only
  rw [length_text] at refused
  rw [length_text, length_text, if_neg (by omega), if_neg (by omega)]
  exact .refused _

/-- Without room for any frame there is none for a body. -/
theorem recipeRoom_of_refused {shown : Nat} (refused : Refused file path offset shown limits) :
    recipeRoom limits.maxOutput (utf8 (probeHeader offset file.length shown)).length
      (reFetchRecipe path (offset + shown) limits) = 0 := by
  have shorter := @length_recipe_mono path limits offset (offset + shown) (Nat.le_add_right _ _)
  have probe := @length_shortHeader_le offset file.length shown
  have marker : (utf8 cutMarker).length = 3 := by decide
  unfold Refused at refused
  dsimp only at refused
  rw [length_text, List.length_nil] at refused
  unfold recipeRoom
  split at refused <;> omega

theorem readFile_gives (valid : Valid file) (stands : isCharBoundary file offset = true)
    (within : offset ≤ file.length) (fitting : Fitting file path offset limit limits) :
    Gives file offset limits (readFile file path offset limit limits) := by
  rw [readFile, if_neg (Nat.not_lt.mpr within)]
  have window := @windowBytes_eq file offset limit limits
  unfold Fitting at fitting
  dsimp only at fitting
  generalize windowBytes file offset limit limits = data at window fitting
  have inside : offset + data.length ≤ file.length := by
    have size := congrArg List.length window
    rw [List.length_take, List.length_drop] at size
    omega
  rcases @window_split file offset (offset + data.length) valid stands (Nat.le_add_right _ _)
    inside with ⟨front, tail, split, validFront, frontSize, sizes, taken, boundaries, broken⟩
  rw [Nat.add_sub_cancel_left] at split sizes
  rw [split] at window
  -- At the end of the file no character is broken.
  have whole : file.length ≤ offset + data.length → tail = [] := by
    intro atEnd
    have last : offset + data.length = file.length := Nat.le_antisymm inside atEnd
    have floor := le_floorBoundary (isCharBoundary_length file) (Nat.le_refl file.length)
    rw [last] at frontSize
    apply List.eq_nil_of_length_eq_zero
    omega
  have shows : ∀ room, tail = [] → ∃ raw ≤ data.length,
      utf8LossyPrefix room data = some (data.take raw, raw) ∧ raw ≤ room ∧
        (data.length ≤ room → raw = data.length) := by
    intro room nothing
    rw [nothing, List.append_nil] at window
    have prefixed := @utf8LossyPrefix_whole front [] room validFront nofun
    rw [List.append_nil, ← window] at prefixed
    rcases prefixed with ⟨raw, bound, found, -, fits, most⟩
    refine ⟨raw, bound, found, fits, ?_⟩
    intro enough
    apply Nat.le_antisymm bound
    exact most _ (Nat.le_refl _) (isCharBoundary_length data) enough
  by_cases needs : NeedsRecipe file offset data.length limits
  · -- Either the window stops before the end, or its bytes do not fit.
    have cutShort : decide (file.length ≤ offset + data.length) = true → ∃ shown covered,
        utf8LossyPrefix (limits.maxOutput -
          ((utf8 (probeHeader offset file.length data.length)).length + 1)) data =
            some (shown, covered) ∧ covered < data.length := by
      intro atEnd
      have ended := of_decide_eq_true atEnd
      rcases shows _ (whole ended) with ⟨raw, -, found, fits, -⟩
      refine ⟨_, raw, found, Nat.lt_of_le_of_lt fits ?_⟩
      rcases needs with early | long
      · omega
      · exact long
    rcases fitting needs with refused | room
    · have prefixed : utf8LossyPrefix (recipeRoom limits.maxOutput
          (utf8 (probeHeader offset file.length data.length)).length
          (reFetchRecipe path (offset + data.length) limits)) data = some ([], 0) := by
        rw [recipeRoom_of_refused refused]
        exact utf8LossyPrefix_zero data
      exact gives_of_refused (renderBody_recipe cutShort prefixed) refused
    · rcases room with ⟨nonzero, leading, ends⟩
      rw [← frontSize] at nonzero ends
      have known : tail ≠ [] → (Text.leadingBytes tail).1 = false ∧
          recipeRoom limits.maxOutput (utf8 (probeHeader offset file.length data.length)).length
            (reFetchRecipe path (offset + data.length) limits) <
              front.length + replacement.length := by
        intro nonempty
        have positive := List.length_pos_iff.mpr nonempty
        exact ⟨broken nonempty, ends.resolve_left (by omega)⟩
      rcases utf8LossyPrefix_whole validFront known with ⟨raw, bound, found, begins, fits, most⟩
      have nonempty : front ≠ [] := List.length_pos_iff.mp nonzero
      have rest : file.drop offset = front ++ (file.drop offset).drop front.length := by
        conv_lhs => rw [← List.take_append_drop front.length (file.drop offset), taken]
      rw [rest, leadingBytes_whole validFront nonempty] at leading
      have bounds := leadingBytes_pos nonempty
      have forward := most _ bounds.2 (boundary_leading validFront nonempty) leading
      have body : front.take raw = (file.drop offset).take raw := by
        rw [← taken, List.take_take, Nat.min_eq_left bound]
      rw [← window, body] at found
      exact gives_of_room (renderBody_recipe cutShort found) (by omega) (by omega) (by omega)
        (boundaries raw bound begins) fits
  · have ended : file.length ≤ offset + data.length :=
      Nat.le_of_not_lt fun early => needs (Or.inl early)
    have enough := Nat.le_of_not_lt fun long => needs (Or.inr long)
    rcases shows _ (whole ended) with ⟨raw, -, found, -, all⟩
    rw [all enough, List.take_length] at found
    have rendered := @renderBody_complete data _ _
      (reFetchRecipe path (offset + data.length) limits) found
    rw [← decide_eq_true ended] at rendered
    rcases @frameRead_complete data _ path offset file.length _ limit limits rendered with
      ⟨frame, result, bare, body⟩
    rw [result]
    apply Gives.complete bare
    rw [body]
    have last : data.length = (file.drop offset).length := by
      rw [List.length_drop]
      omega
    rw [window, ← split, last, List.take_length]

/-- A reader has read what precedes its offset, which is a boundary. -/
theorem read_of_follows {read : Bytes} (valid : Valid file)
    (run : Follows (Fitting file path) file path first offset limit read) :
    isCharBoundary file offset = true ∧ offset ≤ file.length ∧ read = file.take offset := by
  induction run with
  | start => exact ⟨isCharBoundary_zero file, Nat.zero_le _, rfl⟩
  | next run fitting result resumes ih =>
      rcases ih with ⟨stands, within, rfl⟩
      have gives := readFile_gives valid stands within fitting
      rw [result] at gives
      rcases gives with _ | ⟨bare, -⟩ | ⟨recipe, follows, -, inside, begins, body, -⟩
      · rw [bare] at resumes
        cases resumes
      · rw [recipe] at resumes
        cases resumes
        rw [follows, body]
        refine ⟨begins, inside, ?_⟩
        rw [List.take_add]

/-- As long as no window breaks a character and the bodies have room for one, following
recipes goes forward, and without a recipe the file has been read. -/
theorem follows_readsOn (valid : Valid file) {read : Bytes}
    (run : Follows (Fitting file path) file path first offset limit read)
    (fitting : Fitting file path offset limit limits) :
    ReadsOn file path offset limit read limits := by
  rcases read_of_follows valid run with ⟨stands, within, rfl⟩
  have gives := readFile_gives valid stands within fitting
  unfold ReadsOn
  generalize readFile file path offset limit limits = outcome at gives
  rcases gives with _ | ⟨bare, body⟩ | ⟨recipe, follows, nonzero, -, -, -, bound⟩
  · trivial
  · dsimp only
    rw [bare, body]
    exact List.take_append_drop _ _
  · dsimp only
    rw [recipe]
    exact ⟨by omega, bound⟩

/-- Bounds with enough room. -/
def roomy : ReadLimits :=
  ⟨1000, 512, 1000, none⟩

/-- A window of the first of two characters, and then the rest. -/
theorem follows_two : ReadsOn (utf8 "aé") "f" 1 none [0x61] roomy := by
  have shown : readFile (utf8 "aé") "f" 0 (some 1) roomy = .ok
      ⟨"[0..1 of 3 bytes; window 1 bytes at requested limit **truncated**]", [0x61], false,
        some ⟨"f", 1, 448⟩⟩ := by
    decide +kernel
  have room : Fitting (utf8 "aé") "f" 0 (some 1) roomy := by
    intro needs
    right
    unfold HasRoom
    decide +kernel
  have last : Fitting (utf8 "aé") "f" 1 none roomy := by
    intro needs
    refine absurd needs ?_
    unfold NeedsRecipe
    decide +kernel
  exact @follows_readsOn (utf8 "aé") "f" 1 (some 1) none roomy (Kernel.valid_utf8 _) [0x61]
    (.next .start room shown rfl) last

/-- A window that ends within a character shows its first byte as a replacement character,
and the recipe goes on from the byte after it. -/
theorem follows_broken : ¬ ∀ (file : Bytes) (path : String) (first limit : Option Nat)
    (offset : Nat) (read : Bytes) (limits : ReadLimits), Valid file →
    Follows (fun _ _ _ => True) file path first offset limit read →
    ReadsOn file path offset limit read limits := by
  intro all
  have shown : readFile (utf8 "é") "f" 0 (some 1) roomy = .ok
      ⟨"[0..1 of 2 bytes; window 1 bytes at requested limit **truncated**]", replacement, false,
        some ⟨"f", 1, 448⟩⟩ := by
    decide +kernel
  have rest : readFile (utf8 "é") "f" 1 none roomy =
      .ok ⟨"[1..2 of 2 bytes]", replacement, false, none⟩ := by
    decide +kernel
  have reads := all (utf8 "é") "f" (some 1) none 1 replacement roomy (Kernel.valid_utf8 _)
    (.next .start trivial shown rfl)
  unfold ReadsOn at reads
  rw [rest] at reads
  exact absurd reads (by decide)

end Exactness

end Llxprt.Tools
