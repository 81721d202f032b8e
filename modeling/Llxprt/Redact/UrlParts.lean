import Llxprt.Redact.Exact

/-!
# Parts of a URL

Userinfo, queries and fragments are overwritten in place, in one pass.  A run of the
text carries whether a scheme has been seen in it.
-/

namespace Llxprt.Redact

section Scans

def isRunStop (char : Char) : Bool :=
  [' ', '\t', '\n', '\r', '"'].contains char

/-- The delimiters that end a query or fragment. -/
def isSuffixStop (char : Char) : Bool :=
  [' ', '\t', '\n', '\r', '"', ')', '\x7d'].contains char

def isAuthorityStop (char : Char) : Bool :=
  ['/', '?', '#', ' ', '\t', '\n'].contains char

/-- Where the current run began, how far it was searched for a scheme, and whether one
was found. -/
structure RunContext where
  runStart : Option Nat
  scanned : Nat
  hasScheme : Bool

def RunContext.default : RunContext :=
  ⟨none, 0, false⟩

/-- Search for either spelling of the separator; with it how far the search went. -/
def scanScheme (text : List Char) (stop : Nat) : Nat → Nat → Bool × Nat
  | 0, place => (false, place)
  | rounds + 1, place =>
      if stop < place + 3 then
        (false, place)
      else if "://".toList.isPrefixOf (text.drop place) then
        (true, place + 1)
      else if place + 5 ≤ stop && ":\\/\\/".toList.isPrefixOf (text.drop place) then
        (true, place + 1)
      else
        scanScheme text stop rounds (place + 1)

/-- Every character of a range becomes the given one. -/
def fill (out : List (Traced Char)) (start stop : Nat) (char : Char) : List (Traced Char) :=
  let tail := out.drop start
  out.take start ++ ((tail.take (stop - start)).map (fun _ => ⟨char, none⟩) ++
    tail.drop (stop - start))

def suffixEnd (out : List (Traced Char)) (start : Nat) : Nat :=
  start + ((values (out.drop start)).takeWhile fun char => !isSuffixStop char).length

def scrubUrlSuffix (out : List (Traced Char)) (start : Nat) : List (Traced Char) × Nat :=
  let stop := suffixEnd out start
  let out := fill (fill out start stop '-') start (start + 1) '['
  (if start + 1 < stop then fill out (start + 1) (start + 2) 'r' else out, stop)

def lastSeparator : List Char → Option Nat
  | [] => none
  | char :: rest =>
      match lastSeparator rest with
      | some offset => some (offset + 1)
      | none => if char = '@' then some 0 else none

def scrubUrlUserinfo (out : List (Traced Char)) (schemeEnd : Nat) :
    Option (List (Traced Char) × Nat) :=
  if "://".toList.isPrefixOf (values (out.drop schemeEnd)) then
    let start := schemeEnd + 3
    let authority := (values (out.drop start)).takeWhile fun char => !isAuthorityStop char
    match lastSeparator authority with
    | none => some (out, start + authority.length)
    | some offset =>
        let separator := start + offset
        let out := fill out start separator '-'
        let out := if start < separator then fill out start (start + 1) 'r' else out
        let out := if start + 1 < separator then fill out (start + 1) (start + 2) 'e' else out
        some (out, separator)
  else
    none

/-- The run goes on at this place, and is searched for a scheme when a query or fragment
may begin here. -/
def RunContext.advance (context : RunContext) (out : List (Traced Char)) (place : Nat)
    (char : Char) : RunContext :=
  let context := if context.runStart.isNone then
    { context with runStart := some place, scanned := place } else context
  if (char = '?' ∨ char = '#') ∧ context.runStart.getD place < place ∧
      context.hasScheme = false then
    let (found, scanned) := scanScheme (values out) place place context.scanned
    { context with scanned := scanned, hasScheme := found }
  else
    context

/-- One round at a character: the text, the next place and the run there. -/
def urlStep (out : List (Traced Char)) (place : Nat) (context : RunContext) (char : Char) :
    List (Traced Char) × Nat × RunContext :=
  if isRunStop char && !(char = '"' && context.hasScheme) then
    (out, place + 1, .default)
  else
    let context := context.advance out place char
    if (char = '?' ∨ char = '#') ∧ context.runStart.getD place < place ∧ context.hasScheme then
      let (out, next) := scrubUrlSuffix out place
      match out[next]?.map Traced.value with
      | some ')' | some '\x7d' | some '"' => (out, next, context)
      | _ => (out, next, .default)
    else
      match scrubUrlUserinfo out place with
      | some (out, next) => (out, next, context)
      | none => (out, place + 1, context)

def urlLoop : Nat → List (Traced Char) → Nat → RunContext → List (Traced Char)
  | 0, out, _, _ => out
  | rounds + 1, out, place, context =>
      match out[place]?.map Traced.value with
      | none => out
      | some char =>
          let (out, next, context) := urlStep out place context char
          urlLoop rounds out next context

/-- Every round moves on. -/
def scrubUrlParts (text : List (Traced Char)) : List (Traced Char) :=
  urlLoop text.length text 0 .default

end Scans

section Sources

variable {α β : Type} {out text : List (Traced Char)}

/-- Every character of the text that is left was there before. -/
def From (out : List (Traced α)) (input : List (Traced β)) : Prop :=
  ∀ glyph ∈ out, ∀ place, glyph.source = some place → ∃ origin ∈ input, origin.source = some place

theorem From.refl (input : List (Traced α)) : From input input :=
  fun glyph member _ source => ⟨glyph, member, source⟩

theorem From.trans {γ : Type} {first : List (Traced α)} {second : List (Traced β)}
    {third : List (Traced γ)} (later : From first second) (earlier : From second third) :
    From first third := by
  intro glyph member place source
  rcases later glyph member place source with ⟨between, among, same⟩
  exact earlier between among place same

theorem from_fill (out : List (Traced Char)) (start stop : Nat) (char : Char) :
    From (fill out start stop char) out := by
  intro glyph member place source
  rcases List.mem_append.mp member with front | rest
  · exact ⟨glyph, List.mem_of_mem_take front, source⟩
  · rcases List.mem_append.mp rest with filled | back
    · rcases List.mem_map.mp filled with ⟨_, -, rfl⟩
      cases source
    · exact ⟨glyph, List.mem_of_mem_drop (List.mem_of_mem_drop back), source⟩

theorem from_fill_if {condition : Prop} [Decidable condition] (out : List (Traced Char))
    (start stop : Nat) (char : Char) :
    From (if condition then fill out start stop char else out) out := by
  split
  · exact from_fill out start stop char
  · exact From.refl out

theorem from_scrubUrlSuffix (out : List (Traced Char)) (start : Nat) :
    From (scrubUrlSuffix out start).1 out :=
  (from_fill_if _ _ _ _).trans ((from_fill _ _ _ _).trans (from_fill _ _ _ _))

theorem from_scrubUrlUserinfo {next : Nat} {schemeEnd : Nat}
    (found : scrubUrlUserinfo text schemeEnd = some (out, next)) : From out text := by
  unfold scrubUrlUserinfo at found
  split at found
  · dsimp only at found
    split at found
    · cases found
      exact From.refl _
    · cases found
      exact (from_fill_if _ _ _ _).trans ((from_fill_if _ _ _ _).trans (from_fill _ _ _ _))
  · cases found

theorem from_urlStep (out : List (Traced Char)) (place : Nat) (context : RunContext)
    (char : Char) : From (urlStep out place context char).1 out := by
  unfold urlStep
  split
  · exact From.refl out
  · dsimp only
    split
    · split
      · exact from_scrubUrlSuffix out place
      · exact from_scrubUrlSuffix out place
      · exact from_scrubUrlSuffix out place
      · exact from_scrubUrlSuffix out place
    · split
      · rename_i found
        exact from_scrubUrlUserinfo found
      · exact From.refl out

theorem from_urlLoop (rounds : Nat) (out : List (Traced Char)) (place : Nat)
    (context : RunContext) : From (urlLoop rounds out place context) out := by
  induction rounds generalizing out place context with
  | zero => exact From.refl out
  | succ rounds ih =>
      rw [urlLoop]
      split
      · exact From.refl out
      · exact (ih _ _ _).trans (from_urlStep out place context _)

/-- The scan of the URLs only takes characters away. -/
theorem from_scrubUrlParts (text : List (Traced Char)) : From (scrubUrlParts text) text :=
  from_urlLoop _ _ _ _

end Sources

end Llxprt.Redact
