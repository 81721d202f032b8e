import Llxprt.Agent.Attempt
import Llxprt.Ingress.Validity
import Llxprt.Session.Compaction
import Llxprt.Tools.Truncation

/-!
# Reservation of tool output

A call may charge at most what is left of the output of its turn.  The body of its
result is truncated to that, less the notice, and the whole result is compacted.
-/

namespace Llxprt.Agent

open Llxprt.Kernel Llxprt.Rust Llxprt.Store Llxprt.Ingress Llxprt.Session
open Llxprt.Log (maxToolNameBytes)
open Llxprt.Tools (truncateUtf8)

/-- Why a call gives no result. -/
inductive ToolCallFailure where
  | outputCap
  | invalid (message : String)
  | session (message : String)

/-- The settings under which one call runs, and what runs it. -/
structure CallSettings where
  turn : Nat
  maxToolCalls : Option UInt64
  scrub : String → String
  parseObjectArgs : ToolCall → Except String Unit
  dispatchRecorded : ToolCall → Nat → Except ToolCallFailure (Bool × String)
  errorText : CompactError → String

section Texts

variable (settings : CallSettings) (usage : TurnUsage) (position : Nat × Nat)

def remainingOutput : Nat :=
  settings.turn - usage.outputBytes

/-- The notice rides on the last result of a round. -/
def callNotice : String :=
  if position.1 + 1 = position.2 then
    budgetNotice (settings.maxToolCalls.map UInt64.toNat) (usage.totalCalls + 1)
  else
    ""

/-- The bytes of the notice are reserved first, with the blank line that carries it. -/
def bodyBudget : Nat :=
  if (callNotice settings usage position).isEmpty then
    remainingOutput settings usage
  else
    remainingOutput settings usage -
      saturatingAdd (utf8 (callNotice settings usage position)).length 2

/-- The text of a result. -/
def resultText (raw : String) : Bytes :=
  let text := truncateUtf8 (utf8 (settings.scrub raw)) (bodyBudget settings usage position)
  if (callNotice settings usage position).isEmpty then
    text
  else
    text ++ utf8 "\n\n" ++ utf8 (callNotice settings usage position)

variable [Wire] (cipher : Cipher) (governor : Governor)
  (publish : ContextState → Except String Unit × ContextState) (state : ContextState)
  (epoch : Nat) (call : ToolCall)

/-- Run one call, compact its result and charge what the provider sees of it. -/
def executeOneCall :
    Outcome ToolCallFailure (TurnUsage × Bool × ToolResultProjection) × ContextState :=
  if remainingOutput settings usage = 0 then
    (.err .outputCap, state)
  else
    match settings.parseObjectArgs call with
    | .error message => (.err (.invalid message), state)
    | .ok () =>
        match settings.dispatchRecorded call (bodyBudget settings usage position) with
        | .error failure => (.err failure, state)
        | .ok (ok, raw) =>
            match Session.compactToolResult cipher governor publish state epoch call.name
                (resultText settings usage position raw) with
            | (.err error, later) => (.err (.invalid (settings.errorText error)), later)
            | (.panic, later) => (.panic, later)
            | (.ok projection, later) =>
                (.ok ({ usage with
                  totalCalls := usage.totalCalls + 1
                  outputBytes := saturatingAdd usage.outputBytes projection.live.length },
                  ok, projection), later)

end Texts

section Lengths

theorem digits_le {number places : Nat} (small : number < 10 ^ places) (some : 0 < places) :
    digits number ≤ places := by
  rw [digits, Nat.toString_eq_ofList_toDigits, utf8ByteSize_ofList]
  · exact Nat.toDigits_length 10 number places some small
  · intro char member
    exact utf8Size_of_isDigit (Text.isDigit_of_mem_toDigits member)

/-- A notice stays far below the bulk threshold. -/
theorem length_budgetNotice_le (budget : Option UInt64) (used : Nat) :
    (utf8 (budgetNotice (budget.map UInt64.toNat) used)).length ≤ 150 := by
  cases budget with
  | none => exact Nat.zero_le _
  | some most =>
      have small (number : Nat) (below : number ≤ most.toNat) :
          (toString number).utf8ByteSize ≤ 20 := by
        apply digits_le _ (by decide)
        have word := most.toNat_lt
        omega
      have total := small most.toNat (Nat.le_refl _)
      have left := small (most.toNat - used) (Nat.sub_le _ _)
      have words : "[budget: 0 of ".utf8ByteSize = 14 ∧
          " tool calls left; reply with your final summary only]".utf8ByteSize = 53 ∧
          "[budget: only ".utf8ByteSize = 14 ∧ " of ".utf8ByteSize = 4 ∧
          " tool calls left; wrap up and produce your final summary]".utf8ByteSize = 57 ∧
          "[budget: ".utf8ByteSize = 9 ∧ " tool calls left]".utf8ByteSize = 17 := by
        decide
      rw [length_utf8, Option.map_some, budgetNotice]
      split_ifs <;> simp only [String.utf8ByteSize_append] <;> omega

variable {settings : CallSettings} {usage : TurnUsage} {position : Nat × Nat}

theorem length_callNotice_le : (utf8 (callNotice settings usage position)).length ≤ 150 := by
  unfold callNotice
  split
  · exact length_budgetNotice_le _ _
  · exact Nat.zero_le _

theorem length_resultText {raw : String} (named : callNotice settings usage position ≠ "") :
    (resultText settings usage position raw).length =
      (truncateUtf8 (utf8 (settings.scrub raw)) (bodyBudget settings usage position)).length + 2 +
        (utf8 (callNotice settings usage position)).length := by
  have blank : (utf8 "\n\n").length = 2 := by decide
  rw [resultText, if_neg (by simpa using named), List.length_append, List.length_append, blank]

/-- The notice, where there is one, and its blank line fit what is left. -/
def NoticeFits (settings : CallSettings) (usage : TurnUsage) (position : Nat × Nat) : Prop :=
  callNotice settings usage position = "" ∨
    (utf8 (callNotice settings usage position)).length + 2 ≤ remainingOutput settings usage

/-- A result is no longer than what is left when the notice fits. -/
theorem length_resultText_le {raw : String} (fits : NoticeFits settings usage position) :
    (resultText settings usage position raw).length ≤ remainingOutput settings usage := by
  have kept := (Tools.truncations_keep_digests (settings.scrub raw)
    (bodyBudget settings usage position)).1.within
  by_cases silent : callNotice settings usage position = ""
  · rw [bodyBudget, silent] at kept
    rw [resultText, bodyBudget, silent]
    exact kept
  · have room := fits.resolve_left silent
    have budget : bodyBudget settings usage position = remainingOutput settings usage -
        ((utf8 (callNotice settings usage position)).length + 2) := by
      have short := @length_callNotice_le settings usage position
      rw [bodyBudget, if_neg (by simpa using silent), saturatingAdd_of_le]
      rw [u64Max]
      omega
    rw [budget] at kept
    rw [length_resultText silent, budget]
    omega

/-- A notice that does not fit is the whole result, and too long. -/
theorem length_resultText_of_not_fits {raw : String}
    (unfit : ¬ NoticeFits settings usage position) :
    remainingOutput settings usage < (resultText settings usage position raw).length ∧
      (resultText settings usage position raw).length < Session.bulkResultBytes := by
  have kept := (Tools.truncations_keep_digests (settings.scrub raw)
    (bodyBudget settings usage position)).1.within
  have short := @length_callNotice_le settings usage position
  rw [NoticeFits, not_or, Nat.not_le] at unfit
  have budget : bodyBudget settings usage position = 0 := by
    rw [bodyBudget, if_neg (by simpa using unfit.1), saturatingAdd_of_le]
    · omega
    · rw [u64Max]
      omega
  rw [budget] at kept
  rw [length_resultText unfit.1, budget, Session.bulkResultBytes]
  omega

theorem valid_resultText (raw : String) : Utf8.Valid (resultText settings usage position raw) := by
  rcases (Tools.truncations_keep_digests (settings.scrub raw)
    (bodyBudget settings usage position)).1.wellFormed with ⟨output, same⟩
  rw [resultText, same]
  split
  · exact valid_utf8 output
  · exact ((valid_utf8 output).append (valid_utf8 "\n\n")).append (valid_utf8 _)

end Lengths

section Projections

variable {state : ContextState} {epoch : Nat} {tool : String} {text : Bytes}
  {projection : ToolResultProjection}

theorem valid_sanitizeForDigest (valid : Utf8.Valid text) :
    Utf8.Valid (sanitizeForDigest text) := by
  rw [sanitizeForDigest]
  split
  · rename_i outcome
    exact valid_of_redactWith (plainMarkers_detectors _) outcome valid
  · exact valid_vaultPlaceholder _ _

theorem length_sanitizeForDigest (nonempty : 0 < text.length) :
    (sanitizeForDigest text).length = text.length := by
  rw [sanitizeForDigest]
  split
  · rename_i outcome
    exact length_of_redact outcome
  · rename_i outcome
    rw [length_vaultPlaceholder, byteLen_of_redactWith outcome]
    omega

/-- A stub is shorter than the bulk that it stands for. -/
theorem length_dropStub_le {handle : String} (named : tool.utf8ByteSize ≤ maxToolNameBytes)
    (bulk : Session.bulkResultBytes ≤ text.length) (short : handle.utf8ByteSize ≤ 26) :
    (dropStub tool (sanitizeForDigest text).length handle).length ≤ text.length := by
  have size := @length_sanitizeForDigest text (Nat.lt_of_lt_of_le (by decide) bulk)
  have figures : digits text.length ≤ text.length - 122 := by
    rw [Session.bulkResultBytes] at bulk
    apply digits_le _ (by omega)
    rcases Nat.exists_eq_add_of_le bulk with ⟨more, same⟩
    have grows := (show text.length - 124 < 10 ^ (text.length - 124) from
      Nat.lt_pow_self (by decide))
    have two : 10 ^ (text.length - 122) = 10 ^ (text.length - 124) * 100 := by
      rw [show text.length - 122 = text.length - 124 + 2 by omega, Nat.pow_add]
    omega
  rw [length_dropStub, stubLength, size]
  rw [maxToolNameBytes] at named
  rw [Session.bulkResultBytes] at bulk
  omega

/-- In the memory-only mode the provider sees the compact record of a bulk result. -/
def RecordShown (state : ContextState) (tool : String) (text : Bytes) : Prop :=
  Session.bulkResultBytes ≤ text.length ∧ state.store.mode = .unavailable ∧
    state.filters.verdict tool (classify (sanitizeForDigest text))
      (sanitizeForDigest text).length = .digest

variable [Wire] {cipher : Cipher} {governor : Governor}
  {publish : ContextState → Except String Unit × ContextState}

omit [Wire] in
/-- What the provider sees of a committed result. -/
theorem length_verdict_live (named : tool.utf8ByteSize ≤ maxToolNameBytes)
    (bulk : Session.bulkResultBytes ≤ text.length) (valid : Utf8.Valid text)
    {handle content : String} {ranges : List ByteRange} (short : handle.utf8ByteSize ≤ 26) :
    (verdictProjection state tool ⟨handle, ranges, sanitizeForDigest text,
      classify (sanitizeForDigest text)⟩ content).1.live.length ≤ text.length := by
  have size := @length_sanitizeForDigest text (Nat.lt_of_lt_of_le (by decide) bulk)
  have same := Utf8.fromUtf8Lossy_of_valid (valid_sanitizeForDigest valid)
  have stub := @length_dropStub_le tool text handle named bulk short
  rw [verdictProjection]
  dsimp only
  split
  · rw [ToolResultProjection.verbatim, same, size]
  · exact stub
  · dsimp only
    rw [same, size]

/-- What the provider sees is no longer than the text, unless it is the compact record of
the memory-only mode. -/
theorem length_live (named : tool.utf8ByteSize ≤ maxToolNameBytes) (valid : Utf8.Valid text)
    (done : (Session.compactToolResult cipher governor publish state epoch tool text).1 =
      .ok projection) :
    (RecordShown state tool text →
      projection.live.length = recordLength state.filters tool (sanitizeForDigest text)) ∧
    (¬ RecordShown state tool text → projection.live.length ≤ text.length) ∧
    (text.length < Session.bulkResultBytes → projection.live.length = text.length) := by
  by_cases small : text.length < Session.bulkResultBytes
  · rw [Session.compactToolResult, if_pos small] at done
    cases done
    refine ⟨?_, fun _ => Nat.le_refl _, fun _ => rfl⟩
    rintro ⟨bulk, -⟩
    exact absurd small (Nat.not_lt.mpr bulk)
  · have bulk := Nat.not_lt.mp small
    refine ⟨?_, ?_, fun short => absurd short small⟩
    · rintro ⟨-, free, digested⟩
      have memory : state.store.mode.writable = false := by
        rw [free]
        rfl
      rw [Session.compactToolResult, if_neg small, if_pos memory, if_pos free] at done
      rw [← Outcome.ok.inj done]
      rw [ToolResultProjection.verbatim, memoryDigest_fst, verdictProjection]
      dsimp only
      rw [digested]
      exact length_recordText digested
    · intro notShown
      rw [Session.compactToolResult, if_neg small] at done
      by_cases memory : state.store.mode.writable = false
      · rw [if_pos memory] at done
        by_cases free : state.store.mode = .unavailable
        · rw [if_pos free] at done
          rw [← Outcome.ok.inj done]
          have short : (contentDigestHandle (sanitizeForDigest text)).utf8ByteSize ≤ 26 := by
            rw [utf8ByteSize_contentDigestHandle]
            decide
          have bounded := @length_verdict_live state tool text named bulk valid
            (contentDigestHandle (sanitizeForDigest text))
            (contentDigestHandle (sanitizeForDigest text)) [] short
          rw [ToolResultProjection.verbatim, memoryDigest_fst]
          rw [verdictProjection] at bounded ⊢
          dsimp only at bounded ⊢
          split at bounded
          · exact bounded
          · exact bounded
          · rename_i verdict
            exact absurd ⟨bulk, free, verdict⟩ notShown
        · rw [if_neg free] at done
          cases done
      · rw [if_neg memory] at done
        rcases ingested : projected tool (ingestBulk cipher governor state epoch tool text) with
          ⟨found | error | _, after⟩
        · rw [ingested] at done
          simp only at done
          generalize publish after = outcome at done
          rcases outcome with ⟨_ | _, published⟩
          · cases done
          · cases done
            rw [projected_ingestBulk_eq_ok (congrArg Prod.fst ingested), committedPayload]
            apply length_verdict_live named bulk valid
            rw [utf8ByteSize_canonicalHandle]
        · rw [ingested] at done
          cases done
        · rw [ingested] at done
          cases done

end Projections

section Charges

variable [Wire] {cipher : Cipher} {governor : Governor}
  {publish : ContextState → Except String Unit × ContextState} {state : ContextState}
  {epoch : Nat} {settings : CallSettings} {usage later : TurnUsage} {position : Nat × Nat}
  {call : ToolCall} {ok : Bool} {raw : String} {projection : ToolResultProjection}

/-- A call that gave a result was dispatched and compacted, and is charged for what the
provider sees. -/
theorem executeOneCall_eq_ok
    (ran : settings.dispatchRecorded call (bodyBudget settings usage position) = .ok (ok, raw))
    (done : (executeOneCall settings usage position cipher governor publish state epoch call).1 =
      .ok (later, ok, projection)) :
    (Session.compactToolResult cipher governor publish state epoch call.name
      (resultText settings usage position raw)).1 = .ok projection ∧
    later.outputBytes = saturatingAdd usage.outputBytes projection.live.length := by
  rw [executeOneCall] at done
  split at done
  · cases done
  · split at done
    · cases done
    · rw [ran] at done
      dsimp only at done
      rcases compacted : Session.compactToolResult cipher governor publish state epoch call.name
        (resultText settings usage position raw) with ⟨found | error | _, after⟩
      · rw [compacted] at done
        cases done
        exact ⟨rfl, rfl⟩
      · rw [compacted] at done
        cases done
      · rw [compacted] at done
        cases done

/-- The room that is left suffices: for the notice, and for a compact record that the
provider sees. -/
structure Roomy (settings : CallSettings) (usage : TurnUsage) (position : Nat × Nat)
    (state : ContextState) (tool : String) (text : Bytes) : Prop where
  notice : NoticeFits settings usage position
  record : RecordShown state tool text → recordLength state.filters tool (sanitizeForDigest text) ≤
    remainingOutput settings usage

/-- A call charges no more than what was left before it, and keeps the turn within its
cap, exactly when the room suffices. -/
theorem executeOneCall_within_iff (named : call.name.utf8ByteSize ≤ maxToolNameBytes)
    (below : usage.outputBytes < settings.turn) (word : settings.turn ≤ u64Max)
    (ran : settings.dispatchRecorded call (bodyBudget settings usage position) = .ok (ok, raw))
    (done : (executeOneCall settings usage position cipher governor publish state epoch call).1 =
      .ok (later, ok, projection)) :
    (projection.live.length ≤ settings.turn - usage.outputBytes ∧
      later.outputBytes ≤ settings.turn) ↔
    Roomy settings usage position state call.name (resultText settings usage position raw) := by
  rcases executeOneCall_eq_ok ran done with ⟨compacted, charged⟩
  rcases length_live named (valid_resultText raw) compacted with ⟨shown, bounded, verbatim⟩
  constructor
  · rintro ⟨within, -⟩
    have fits : NoticeFits settings usage position := by
      by_contra unfit
      rcases @length_resultText_of_not_fits settings usage position raw unfit with ⟨long, short⟩
      rw [verbatim short] at within
      exact absurd within (Nat.not_le.mpr long)
    refine ⟨fits, ?_⟩
    intro inMemory
    rw [← shown inMemory]
    exact within
  · rintro ⟨fits, record⟩
    have within : projection.live.length ≤ settings.turn - usage.outputBytes := by
      by_cases inMemory : RecordShown state call.name (resultText settings usage position raw)
      · rw [shown inMemory]
        exact record inMemory
      · exact Nat.le_trans (bounded inMemory) (length_resultText_le fits)
    refine ⟨within, ?_⟩
    rw [charged, saturatingAdd_of_le (by omega)]
    omega

end Charges

section Samples

local instance reservationWire : Wire := .emptySession

/-- A turn of so many bytes with four calls left after this one; every call gives no
output. -/
def quietSettings (turn : Nat) : CallSettings where
  turn := turn
  maxToolCalls := some 5
  scrub := id
  parseObjectArgs := fun _ => .ok ()
  dispatchRecorded := fun _ _ => .ok (true, "")
  errorText := fun _ => ""

def quietCall : ToolCall :=
  { id := "call", name := "read_file", argsJson := "{}" }

def freshUsage : TurnUsage :=
  ⟨0, 0, 0, 0⟩

/-- The result of the quiet call is the notice alone. -/
theorem executeOneCall_quiet {turn : Nat} (some : turn ≠ 0) :
    (executeOneCall (quietSettings turn) freshUsage (0, 1) taggingCipher admittingGovernor
      (fun state => (.ok (), state)) storeFree 1 quietCall).1 =
      .ok (⟨0, 0, 34, 1⟩, true, .verbatim (utf8 "\n\n[budget: 4 of 5 tool calls left]")) := by
  have notice : callNotice (quietSettings turn) freshUsage (0, 1) =
      "[budget: 4 of 5 tool calls left]" := by
    rw [callNotice, if_pos rfl]
    exact (by decide : budgetNotice (Option.some 5) 1 = "[budget: 4 of 5 tool calls left]")
  have text : resultText (quietSettings turn) freshUsage (0, 1) "" =
      utf8 "\n\n[budget: 4 of 5 tool calls left]" := by
    have silent : utf8 ((quietSettings turn).scrub "") = [] := (by decide : utf8 "" = [])
    have body (budget : Nat) : truncateUtf8 [] budget = [] := if_pos (Nat.zero_le budget)
    rw [resultText, silent, body, notice]
    decide
  have short : (utf8 "\n\n[budget: 4 of 5 tool calls left]").length < Session.bulkResultBytes := by
    decide
  have left : remainingOutput (quietSettings turn) freshUsage ≠ 0 := some
  rw [executeOneCall, if_neg left]
  dsimp only [quietSettings]
  rw [← quietSettings, text, Session.compactToolResult, if_pos short]
  rfl

/-- A turn with a hundred bytes left has room for the notice, and the result stays
within it. -/
theorem executeOneCall_within_quiet :
    ((ToolResultProjection.verbatim (utf8 "\n\n[budget: 4 of 5 tool calls left]")).live.length ≤
        100 - 0 ∧ 34 ≤ 100) ∧
      Roomy (quietSettings 100) freshUsage (0, 1) storeFree "read_file"
        (resultText (quietSettings 100) freshUsage (0, 1) "") := by
  have within : (ToolResultProjection.verbatim
      (utf8 "\n\n[budget: 4 of 5 tool calls left]")).live.length ≤ 100 - 0 ∧ 34 ≤ 100 := by
    decide
  exact ⟨within, (executeOneCall_within_iff (by decide) (by decide) (by decide) rfl
    (executeOneCall_quiet (by decide))).mp within⟩

/-- With ten bytes left the notice is charged in full. -/
theorem executeOneCall_notice_over_cap :
    ¬ ∀ (cipher : Cipher) (governor : Governor)
      (publish : ContextState → Except String Unit × ContextState) (state : ContextState)
      (epoch : Nat) (settings : CallSettings) (usage later : TurnUsage) (position : Nat × Nat)
      (call : ToolCall) (ok : Bool) (projection : ToolResultProjection),
      call.name.utf8ByteSize ≤ maxToolNameBytes → usage.outputBytes < settings.turn →
      settings.turn ≤ u64Max →
      (executeOneCall settings usage position cipher governor publish state epoch call).1 =
        .ok (later, ok, projection) →
      projection.live.length ≤ settings.turn - usage.outputBytes ∧
        later.outputBytes ≤ settings.turn := by
  intro within
  have charged := within taggingCipher admittingGovernor (fun state => (.ok (), state)) storeFree 1
    (quietSettings 10) freshUsage _ (0, 1) quietCall _ _ (by decide) (by decide) (by decide)
    (executeOneCall_quiet (by decide))
  exact absurd charged.2 (by decide)

end Samples

end Llxprt.Agent
