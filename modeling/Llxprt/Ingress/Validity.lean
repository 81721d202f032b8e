import Llxprt.Ingress.Redaction
import Llxprt.Kernel.Encoding

/-!
# Redaction of texts

A token begins with its marker and ends at a delimiter or with the payload.
Markers begin with one-byte characters and delimiters are one-byte characters,
so a text whose tokens are overwritten is still a text.
-/

namespace Llxprt.Ingress

open Llxprt.Kernel Llxprt.Rust.Utf8
open Llxprt.Rust (Text.continues)

section Redactions

variable {raw sanitized : Bytes} {listed : List Detector} {redactions : List Detection}

/-- Every marker begins with a one-byte character. -/
def PlainMarkers (listed : List Detector) : Prop :=
  ∀ detector ∈ listed, ∀ marker ∈ detector.markers, ∃ first rest,
    utf8 marker = first :: rest ∧ Text.continues first = false

theorem plainMarkers_detectors (workBudget : Nat) : PlainMarkers (detectors workBudget) := by
  have begins : ∀ marker ∈ ["CTXEVAL-SECRET-", "CTXEVAL-TOKEN-", "sk-ctxeval", "auth-key-",
      "ctxeval-creds@", "://secret:", "Bearer CTXEVAL-", "password=CTXEVAL-",
      "api_key=CTXEVAL-"], ((utf8 marker).head?.any fun first => !Text.continues first) = true := by
    decide
  intro detector member marker known
  have among : marker ∈ ["CTXEVAL-SECRET-", "CTXEVAL-TOKEN-", "sk-ctxeval", "auth-key-",
      "ctxeval-creds@", "://secret:", "Bearer CTXEVAL-", "password=CTXEVAL-",
      "api_key=CTXEVAL-"] := by
    simp only [detectors, List.mem_cons, List.not_mem_nil, or_false] at member
    rcases member with rfl | rfl | rfl | rfl | rfl <;>
      simp only [Detector.new, List.mem_cons, List.not_mem_nil, or_false] at known <;>
      rcases known with rfl | rfl <;> simp
  have starts := begins marker among
  cases bytes : utf8 marker with
  | nil =>
      rw [bytes] at starts
      cases starts
  | cons first rest =>
      rw [bytes] at starts
      exact ⟨first, rest, rfl, by simpa using starts⟩

theorem continues_of_isDelimiter {byte : UInt8} (delimiter : Detector.isDelimiter byte = true) :
    Text.continues byte = false := by
  have plain : ((utf8 " \n\r\t\"'),;><").all fun other => !Text.continues other) = true := by
    decide
  simpa using List.all_eq_true.mp plain byte (of_decide_eq_true delimiter)

/-- A token holds all bytes of a character or none. -/
theorem covered_aligned (plain : PlainMarkers listed) {index : Nat} {byte : UInt8}
    (found : raw[index + 1]? = some byte) (goesOn : Text.continues byte = true) :
    Covered listed raw index ↔ Covered listed raw (index + 1) := by
  constructor
  · rintro ⟨detector, member, marker, position, stops, first, last⟩
    refine ⟨detector, member, marker, position, stops, Nat.le_succ_of_le first, ?_⟩
    by_contra beyond
    have ends : tokenEnd raw marker position = index + 1 := by omega
    have inside := (List.getElem?_eq_some_iff.mp found).1
    rcases delimiter_of_tokenEnd (by rw [ends]; exact inside) with ⟨value, present, delimiter⟩
    rw [ends, found, Option.some.injEq] at present
    rw [present, continues_of_isDelimiter delimiter] at goesOn
    cases goesOn
  · rintro ⟨detector, member, marker, position, stops, first, last⟩
    refine ⟨detector, member, marker, position, stops, ?_, Nat.lt_of_succ_lt last⟩
    by_contra later
    have starts : position = index + 1 := by omega
    rcases markedAt_of_stops member stops with ⟨-, other, among, known, occurs⟩
    rcases plain other among marker known with ⟨begins, rest, bytes, single⟩
    rw [Occurs, bytes, List.cons_prefix_iff] at occurs
    rcases occurs with ⟨tail, split, -⟩
    have here : raw[position]? = some begins := by
      rw [← Nat.add_zero position, ← List.getElem?_drop, split, List.getElem?_cons_zero]
    rw [starts, found, Option.some.injEq] at here
    rw [here, single] at goesOn
    cases goesOn

/-- The redactor makes a text of a text. -/
theorem valid_of_redactWith (plain : PlainMarkers listed)
    (outcome : redactWith raw listed raw [] = .sanitized sanitized redactions)
    (valid : Valid raw) : Valid sanitized := by
  rcases valid with ⟨characters, wellFormed, rfl⟩
  have rewritten := rewritten_of_redactWith outcome
  apply @valid_of_overwritten _ _ 88 _ (by decide) wellFormed
    (length_of_redactWith outcome)
  · exact fun index covered => (rewritten index).covered covered
  · exact fun index free => (rewritten index).kept free
  · exact fun index byte found goesOn => covered_aligned plain found goesOn

theorem valid_vaultPlaceholder (reason : VaultReason) (byteLen : Nat) :
    Valid (vaultPlaceholder reason byteLen) := by
  have label : ∀ char ∈ ("[vaulted:" ++ reason.name ++ ":" ++ toString byteLen ++
      "bytes]").toList, char.utf8Size = 1 := by
    have words : (["detector-budget-exhausted", "detector-failed"].all fun name =>
        ("[vaulted:".toList ++ name.toList ++ ":".toList ++ "bytes]".toList).all fun char =>
          char.utf8Size == 1) = true := by
      decide
    replace words : ∀ name ∈ ["detector-budget-exhausted", "detector-failed"],
        ∀ char ∈ "[vaulted:".toList ++ name.toList ++ ":".toList ++ "bytes]".toList,
          char.utf8Size = 1 := fun name named char member =>
      of_decide_eq_true (List.all_eq_true.mp (List.all_eq_true.mp words name named) char member)
    have named : reason.name ∈ ["detector-budget-exhausted", "detector-failed"] := by
      cases reason <;> simp [VaultReason.name]
    replace words := words reason.name named
    intro char member
    simp only [String.toList_append, List.mem_append] at member words
    rcases member with (((first | name) | colon) | digit) | last
    · exact words char (Or.inl (Or.inl (Or.inl first)))
    · exact words char (Or.inl (Or.inl (Or.inr name)))
    · exact words char (Or.inl (Or.inr colon))
    · rw [Nat.toString_eq_ofList_toDigits, String.toList_ofList] at digit
      exact utf8Size_of_isDigit (Llxprt.Rust.Text.isDigit_of_mem_toDigits digit)
    · exact words char (Or.inr last)
  apply valid_of_ascii
  intro byte member
  rcases List.mem_append.mp (List.mem_of_mem_take member) with text | filler
  · exact lt_of_mem_utf8 label text
  · rw [List.eq_of_mem_replicate filler]
    decide

end Redactions

end Llxprt.Ingress
