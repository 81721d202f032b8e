import Llxprt.Rust.Integers
import Llxprt.Rust.Utf8

/-!
# Lossy prefixes

A window of raw bytes is rendered within a budget.  Valid runs are copied and
every longest run of bytes that begin no character is shown as one replacement
character, so the rendering and the raw bytes it covers have different lengths.
-/

namespace Llxprt.Tools

open Llxprt.Rust Llxprt.Rust.Utf8

/-- U+FFFD. -/
def replacement : List UInt8 :=
  [0xef, 0xbf, 0xbd]

section Loop

variable (maxRendered : Nat)

/-- The loop of `utf8_lossy_prefix` over the bytes that are left; `none` when the room
underflows. -/
def lossyLoop : Nat → List UInt8 → List UInt8 → Nat → Option (List UInt8 × Nat)
  | 0, _, out, raw => some (out, raw)
  | rounds + 1, left, out, raw =>
      if left = [] then
        some (out, raw)
      else do
        let room ← checkedSub maxRendered out.length
        if room = 0 then
          some (out, raw)
        else
          match fromUtf8 left with
          | none =>
              let chunk := utf8Prefix left room
              if chunk = [] then some (out, raw) else some (out ++ chunk, raw + chunk.length)
          | some error =>
              let valid := left.take error.validUpTo
              let chunk := utf8Prefix valid room
              let out := out ++ chunk
              let raw := raw + chunk.length
              if chunk.length < valid.length then
                some (out, raw)
              else if maxRendered < out.length + 3 then
                some (out, raw)
              else
                let invalid := error.errorLen.getD (left.length - chunk.length)
                lossyLoop rounds (left.drop (chunk.length + invalid)) (out ++ replacement)
                  (raw + invalid)

/-- Every round takes a byte. -/
def utf8LossyPrefix (data : List UInt8) : Option (List UInt8 × Nat) :=
  lossyLoop maxRendered data.length data [] 0

end Loop

section Decoding

variable {bytes : List UInt8}

/-- Characters as pieces. -/
def asPieces (characters : List (List UInt8)) : List Piece :=
  characters.map fun character => ⟨true, character⟩

@[simp]
theorem length_asPieces (characters : List (List UInt8)) :
    (asPieces characters).length = characters.length :=
  List.length_map _

@[simp]
theorem covered_asPieces (characters : List (List UInt8)) :
    covered (asPieces characters) = characters.flatten := by
  rw [covered, asPieces, List.map_map]
  exact congrArg List.flatten (List.map_id _)

@[simp]
theorem rendered_asPieces (characters : List (List UInt8)) :
    rendered (asPieces characters) = characters.flatten := by
  rw [rendered, asPieces, List.map_map]
  exact congrArg List.flatten (List.map_id _)

theorem take_asPieces (characters : List (List UInt8)) (count : Nat) :
    (asPieces characters).take count = asPieces (characters.take count) :=
  List.map_take.symm

theorem covered_append (first second : List Piece) :
    covered (first ++ second) = covered first ++ covered second := by
  rw [covered, List.map_append, List.flatten_append, ← covered, ← covered]

theorem rendered_append (first second : List Piece) :
    rendered (first ++ second) = rendered first ++ rendered second := by
  rw [rendered, List.map_append, List.flatten_append, ← rendered, ← rendered]

theorem covered_replaced (characters : List (List UInt8)) (invalid : Piece) :
    covered (asPieces characters ++ [invalid]) = characters.flatten ++ invalid.bytes := by
  rw [covered_append, covered_asPieces]
  simp [covered]

theorem rendered_replaced (characters : List (List UInt8)) {invalid : Piece}
    (broken : invalid.valid = false) :
    rendered (asPieces characters ++ [invalid]) = characters.flatten ++ replacement := by
  rw [rendered_append, rendered_asPieces]
  simp [rendered, Piece.shown, broken, replacement]

/-- The leading valid pieces are characters. -/
theorem takeWhile_valid (bytes : List UInt8) :
    ∃ characters, Characters characters ∧
      (pieces bytes).takeWhile Piece.valid = asPieces characters := by
  have valid : ∀ piece ∈ (pieces bytes).takeWhile Piece.valid, piece.valid = true :=
    fun piece member => List.all_eq_true.mp List.all_takeWhile piece member
  refine ⟨((pieces bytes).takeWhile Piece.valid).map Piece.bytes, ?_, ?_⟩
  · intro character member
    rcases List.mem_map.mp member with ⟨piece, listed, rfl⟩
    exact character_of_piece ((List.takeWhile_sublist _).subset listed) (valid piece listed)
  · rw [asPieces, List.map_map]
    symm
    apply (List.map_congr_left _).trans (List.map_id _)
    rintro ⟨isValid, bytes⟩ member
    have same := valid _ member
    dsimp only at same
    rw [same]
    rfl

/-- What follows some pieces has the remaining ones. -/
theorem pieces_drop {front rest : List Piece} (listed : pieces bytes = front ++ rest) :
    pieces (bytes.drop (covered front).length) = rest := by
  induction front generalizing bytes with
  | nil => exact listed
  | cons piece front ih =>
      have nonempty : bytes ≠ [] := by
        rintro rfl
        cases listed
      have bounds := leadingBytes_pos nonempty
      rw [pieces_eq_cons nonempty, List.cons_append, List.cons.injEq] at listed
      have size : piece.bytes.length = (Text.leadingBytes bytes).2 := by
        rw [← listed.1]
        exact List.length_take_of_le bounds.2
      have later := ih listed.2
      rwa [List.drop_drop, ← size, ← List.length_append] at later

/-- Decoding stops at the first piece that is no character. -/
theorem fromUtf8_spec (bytes : List UInt8) :
    (fromUtf8 bytes = none ∧ ∃ characters, Characters characters ∧
      pieces bytes = asPieces characters) ∨
    ∃ characters invalid rest error, Characters characters ∧
      pieces bytes = asPieces characters ++ invalid :: rest ∧ invalid.valid = false ∧
      fromUtf8 bytes = some error ∧ error.validUpTo = characters.flatten.length ∧
      error.errorLen.getD (bytes.length - characters.flatten.length) = invalid.bytes.length := by
  rcases takeWhile_valid bytes with ⟨characters, wellFormed, run⟩
  have split := List.takeWhile_append_dropWhile (p := Piece.valid) (l := pieces bytes)
  have dropped : (pieces bytes).drop ((pieces bytes).takeWhile Piece.valid).length =
      (pieces bytes).dropWhile Piece.valid := by
    conv_lhs => rw [← split]
    exact List.drop_left' (congrArg _ (by rw [split]))
  have broken := List.head?_dropWhile_not Piece.valid (pieces bytes)
  rw [run] at split dropped
  cases left : (pieces bytes).dropWhile Piece.valid with
  | nil =>
      rw [left] at split dropped
      apply Or.inl
      constructor
      · simp only [fromUtf8, run, dropped]
      · rw [List.append_nil] at split
        exact ⟨characters, wellFormed, split.symm⟩
  | cons invalid rest =>
      rw [left] at split dropped broken
      apply Or.inr
      have failed : fromUtf8 bytes = some ⟨(covered (asPieces characters)).length,
          if rest.isEmpty && truncated invalid.bytes then none
          else some invalid.bytes.length⟩ := by
        simp only [fromUtf8, run, dropped]
      refine ⟨characters, invalid, rest, _, wellFormed, split.symm, broken, failed, ?_, ?_⟩
      · rw [covered_asPieces]
      · have whole := congrArg List.length (covered_pieces bytes)
        rw [← split, covered_append, covered_asPieces, List.length_append] at whole
        dsimp only
        split
        · rename_i atEnd
          have last : rest = [] := by
            rw [Bool.and_eq_true, List.isEmpty_iff] at atEnd
            exact atEnd.1
          have one : (covered (invalid :: rest)).length = invalid.bytes.length := by
            simp [last, covered]
          rw [Option.getD_none]
          omega
        · rfl

end Decoding

section Exactness

variable {maxRendered : Nat}

/-- The pieces that a budget has room for: the next one does not fit. -/
structure Fill (maxRendered : Nat) (listed : List Piece) (count : Nat) : Prop where
  within : count ≤ listed.length
  fits : (rendered (listed.take count)).length ≤ maxRendered
  full : ∀ next ∈ listed[count]?,
    maxRendered < (rendered (listed.take count)).length + next.shown.length

theorem shown_pos {bytes : List UInt8} {piece : Piece} (member : piece ∈ pieces bytes) :
    0 < piece.shown.length := by
  unfold Piece.shown
  split
  · exact List.length_pos_iff.mpr (piece_ne_nil member)
  · exact Nat.zero_lt_succ 2

/-- Characters are shown as they are. -/
theorem fill_characters {characters : List (List UInt8)} {rest : List Piece} {count : Nat}
    (within : count ≤ characters.length)
    (fits : (characters.take count).flatten.length ≤ maxRendered)
    (full : ∀ next ∈ (asPieces characters ++ rest)[count]?,
      maxRendered < (characters.take count).flatten.length + next.shown.length) :
    Fill maxRendered (asPieces characters ++ rest) count := by
  have taken : rendered ((asPieces characters ++ rest).take count) =
      (characters.take count).flatten := by
    rw [List.take_append_of_le_length (by rwa [length_asPieces]), take_asPieces,
      rendered_asPieces]
  constructor
  · rw [List.length_append, length_asPieces]
    omega
  · rwa [taken]
  · rwa [taken]

/-- A round renders some pieces, and the rounds after it the pieces that follow. -/
theorem Fill.append {front rest : List Piece} {count : Nat}
    (front_fits : (rendered front).length ≤ maxRendered)
    (fill : Fill (maxRendered - (rendered front).length) rest count) :
    Fill maxRendered (front ++ rest) (front.length + count) := by
  have taken : (front ++ rest).take (front.length + count) = front ++ rest.take count :=
    List.take_length_add_append _
  rcases fill with ⟨within, fits, full⟩
  constructor
  · rw [List.length_append]
    omega
  · rw [taken, rendered_append, List.length_append]
    omega
  · intro next found
    rw [List.getElem?_append_right (Nat.le_add_right _ _), Nat.add_sub_cancel_left] at found
    have beyond := full next found
    rw [taken, rendered_append, List.length_append]
    omega

/-- The prefix of a valid run shows all of it, or the characters that fit. -/
theorem utf8Prefix_run {characters : List (List UInt8)} (wellFormed : Characters characters)
    (room : Nat) :
    (utf8Prefix characters.flatten room = characters.flatten ∧
      characters.flatten.length ≤ room) ∨
    ∃ count, (∀ rest, Fill room (asPieces characters ++ rest) count ∧
        (asPieces characters ++ rest).take count = asPieces (characters.take count)) ∧
      utf8Prefix characters.flatten room = (characters.take count).flatten ∧
      (characters.take count).flatten.length < characters.flatten.length := by
  rcases utf8Prefix_flatten wellFormed room with ⟨count, within, chunk, fits, full⟩
  rcases Nat.lt_or_eq_of_le within with short | whole
  · apply Or.inr
    refine ⟨count, ?_, chunk, ?_⟩
    · intro rest
      constructor
      · apply fill_characters within fits
        intro next found
        rw [List.getElem?_append_left (by rwa [length_asPieces]), asPieces, List.getElem?_map,
          Option.mem_def, Option.map_eq_some_iff] at found
        rcases found with ⟨character, at_count, rfl⟩
        exact full character at_count
      · rw [List.take_append_of_le_length (by rwa [length_asPieces]), take_asPieces]
    · have split : characters.flatten =
          (characters.take count).flatten ++ (characters.drop count).flatten := by
        rw [← List.flatten_append, List.take_append_drop]
      have later : 0 < (characters.drop count).flatten.length := by
        rw [List.drop_eq_getElem_cons short, List.flatten_cons, List.length_append]
        have nonempty := (wellFormed _ (List.getElem_mem short)).1
        have positive := List.length_pos_iff.mpr nonempty
        omega
      have sizes := congrArg List.length split
      rw [List.length_append] at sizes
      omega
  · apply Or.inl
    rw [whole, List.take_length] at chunk fits
    exact ⟨chunk, fits⟩

/-- The result adds the pieces that fit in the room. -/
def Shows (room : Nat) (listed : List Piece) (out : List UInt8) (raw : Nat)
    (result : Option (List UInt8 × Nat)) : Prop :=
  ∃ count, Fill room listed count ∧
    result = some (out ++ rendered (listed.take count), raw + (covered (listed.take count)).length)

section Rounds

variable {room raw : Nat} {out : List UInt8} {characters : List (List UInt8)} {invalid : Piece}
  {rest : List Piece}

theorem shows_nothing {listed : List Piece}
    (full : ∀ next ∈ listed[0]?, room < next.shown.length) :
    Shows room listed out raw (some (out, raw)) := by
  refine ⟨0, ⟨Nat.zero_le _, Nat.zero_le _, ?_⟩, by simp [rendered, covered]⟩
  intro next found
  have shown := full next found
  simpa [rendered] using shown

/-- A round that stops shows only what it copied. -/
theorem shows_stopped {listed : List Piece} {taken : List (List UInt8)} {count : Nat}
    (fill : Fill room listed count) (took : listed.take count = asPieces taken) :
    Shows room listed out raw (some (out ++ taken.flatten, raw + taken.flatten.length)) := by
  refine ⟨count, fill, ?_⟩
  rw [took, rendered_asPieces, covered_asPieces]

/-- The last round of a valid text copies all of it, or the characters that fit. -/
theorem shows_valid (wellFormed : Characters characters) (some_ : characters.flatten ≠ []) :
    Shows room (asPieces characters) out raw
      (if utf8Prefix characters.flatten room = [] then
        some (out, raw)
      else
        some (out ++ utf8Prefix characters.flatten room,
          raw + (utf8Prefix characters.flatten room).length)) := by
  rcases utf8Prefix_run wellFormed room with ⟨chunk, fits⟩ | ⟨count, fill, chunk, -⟩
  · rw [chunk, if_neg some_]
    have all := @fill_characters room characters [] _ (Nat.le_refl _) (by rwa [List.take_length])
      (by simp)
    rw [List.append_nil] at all
    exact shows_stopped all (List.take_of_length_le (by rw [length_asPieces]))
  · rcases fill [] with ⟨filled, took⟩
    rw [List.append_nil] at filled took
    rw [chunk]
    split
    · rename_i nothing
      have stops := @shows_stopped room raw out _ _ _ filled took
      rwa [nothing, List.append_nil, List.length_nil, Nat.add_zero] at stops
    · exact shows_stopped filled took

/-- The replacement of an invalid piece does not fit behind the characters before it. -/
theorem shows_unreplaced (fits : characters.flatten.length ≤ room) (broken : invalid.valid = false)
    (noReplacement : room < characters.flatten.length + 3) :
    Shows room (asPieces characters ++ invalid :: rest) out raw
      (some (out ++ characters.flatten, raw + characters.flatten.length)) := by
  have shownThree : invalid.shown.length = 3 := by
    rw [Piece.shown, broken]
    rfl
  apply shows_stopped _ (List.take_left' (length_asPieces _))
  apply fill_characters (Nat.le_refl _) (by rwa [List.take_length])
  intro next found
  rw [List.getElem?_append_right (by rw [length_asPieces]), length_asPieces, Nat.sub_self,
    List.getElem?_cons_zero, Option.mem_def, Option.some.injEq] at found
  rwa [← found, shownThree, List.take_length]

/-- A round that replaces an invalid piece, and what the rounds after it show. -/
theorem shows_replaced {result : Option (List UInt8 × Nat)} (broken : invalid.valid = false)
    (fits : (characters.flatten ++ replacement).length ≤ room)
    (later : Shows (room - (characters.flatten ++ replacement).length) rest
      (out ++ characters.flatten ++ replacement)
      (raw + characters.flatten.length + invalid.bytes.length) result) :
    Shows room (asPieces characters ++ invalid :: rest) out raw result := by
  have frontCovered := covered_replaced characters invalid
  have frontRendered := rendered_replaced characters broken
  rcases later with ⟨count, fill, result⟩
  rw [← frontRendered] at fits fill
  have joined := Fill.append fits fill
  have taken := @List.take_length_add_append _ (asPieces characters ++ [invalid]) rest count
  rw [List.append_assoc, List.singleton_append] at joined taken
  refine ⟨_, joined, ?_⟩
  rw [result, taken, rendered_append, covered_append, frontRendered, frontCovered]
  simp only [List.append_assoc, List.length_append, Nat.add_assoc]

end Rounds

/-- The loop shows the pieces that fit in the room that is left. -/
theorem lossyLoop_exact {rounds raw : Nat} {left out : List UInt8}
    (enough : left.length ≤ rounds) (within : out.length ≤ maxRendered) :
    Shows (maxRendered - out.length) (pieces left) out raw
      (lossyLoop maxRendered rounds left out raw) := by
  induction rounds generalizing left out raw with
  | zero =>
      rw [List.eq_nil_of_length_eq_zero (Nat.le_zero.mp enough)]
      exact shows_nothing nofun
  | succ rounds ih =>
      rw [lossyLoop]
      by_cases done : left = []
      · rw [if_pos done, done]
        exact shows_nothing nofun
      · rw [if_neg done, checkedSub, if_pos within]
        simp only [Option.bind_eq_bind, Option.bind_some]
        by_cases noRoom : maxRendered - out.length = 0
        · rw [if_pos noRoom]
          apply shows_nothing
          intro next found
          have positive := shown_pos (List.mem_of_getElem? found)
          omega
        · rw [if_neg noRoom]
          have whole := covered_pieces left
          rcases fromUtf8_spec left with ⟨valid, characters, wellFormed, listed⟩ |
            ⟨characters, invalid, rest, error, wellFormed, listed, broken, failed, upTo, size⟩
          · -- the whole remaining input is valid
            rw [listed, covered_asPieces] at whole
            rw [valid, listed]
            dsimp only
            rw [← whole]
            exact shows_valid wellFormed (whole ▸ done)
          · rw [listed, covered_append, covered_asPieces] at whole
            have run : left.take error.validUpTo = characters.flatten := by
              rw [upTo, ← whole]
              exact List.take_left' rfl
            rw [failed, listed]
            dsimp only
            rw [run]
            rcases utf8Prefix_run wellFormed (maxRendered - out.length) with
              ⟨chunk, fits⟩ | ⟨count, fill, chunk, shorter⟩
            · rw [chunk, if_neg (Nat.lt_irrefl _), List.length_append]
              by_cases noReplacement : maxRendered < out.length + characters.flatten.length + 3
              · rw [if_pos noReplacement]
                exact shows_unreplaced fits broken (by omega)
              · rw [if_neg noReplacement, size]
                have three : replacement.length = 3 := rfl
                have front : pieces left = (asPieces characters ++ [invalid]) ++ rest := by
                  rw [listed, List.append_assoc, List.singleton_append]
                have later := pieces_drop front
                rw [covered_replaced, List.length_append] at later
                have positive := List.length_pos_iff.mpr
                  (@piece_ne_nil left invalid (by rw [listed]; simp))
                have bound : (left.drop (characters.flatten.length +
                    invalid.bytes.length)).length ≤ rounds := by
                  rw [List.length_drop]
                  omega
                have room : (out ++ characters.flatten ++ replacement).length ≤ maxRendered := by
                  rw [List.length_append, List.length_append]
                  omega
                have rounds := @ih (raw + characters.flatten.length + invalid.bytes.length) _ _
                  bound room
                rw [later, List.append_assoc, List.length_append, ← Nat.sub_sub,
                  ← List.append_assoc] at rounds
                apply shows_replaced broken _ rounds
                rw [List.length_append]
                omega
            · rcases fill (invalid :: rest) with ⟨filled, took⟩
              rw [chunk, if_pos shorter]
              exact shows_stopped filled took

/-- The prefix shows the pieces that fit, and covers their bytes: what it shows is the
decoding of these bytes within that of all the data, and the next piece does not fit. -/
theorem utf8LossyPrefix_exact (maxRendered : Nat) (data : List UInt8) :
    ∃ out raw, utf8LossyPrefix maxRendered data = some (out, raw) ∧
      raw ≤ data.length ∧ out.length ≤ maxRendered ∧
      ∃ count, count ≤ (pieces data).length ∧
        out = rendered ((pieces data).take count) ∧
        data.take raw = covered ((pieces data).take count) ∧
        covered (pieces data) = data ∧
        rendered (pieces data) = Text.fromUtf8Lossy data ∧
        (raw = data.length ∨ ∃ next, (pieces data)[count]? = some next ∧
          maxRendered < out.length + next.shown.length) := by
  have loop := @lossyLoop_exact maxRendered data.length 0 data [] (Nat.le_refl _)
    (Nat.zero_le _)
  rcases loop with ⟨count, fill, result⟩
  have whole := covered_pieces data
  have split : data = covered ((pieces data).take count) ++
      covered ((pieces data).drop count) := by
    rw [← covered_append, List.take_append_drop, whole]
  have raws := congrArg List.length split
  rw [List.length_append] at raws
  refine ⟨_, _, result, ?_, ?_, count, fill.within, rfl, ?_, whole,
    (fromUtf8Lossy_eq data).symm, ?_⟩
  · omega
  · exact fill.fits
  · rw [Nat.zero_add]
    generalize covered ((pieces data).take count) = front at split
    rw [split]
    exact List.take_left' rfl
  · rcases Nat.lt_or_eq_of_le fill.within with more | all
    · apply Or.inr
      refine ⟨_, List.getElem?_eq_getElem more, ?_⟩
      exact fill.full _ (List.getElem?_eq_getElem more)
    · apply Or.inl
      rw [all, List.take_length, whole, Nat.zero_add]

end Exactness

end Llxprt.Tools
