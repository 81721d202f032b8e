import Llxprt.Redact.AuthLike

/-!
# Scrubbing of secrets

The exact secrets first, then the parts of URLs and the credentials at header
boundaries.  Where no two occurrences of secrets overlap and no secret touches a
marker, nothing of a secret is left and the order of the secrets does not matter.
-/

namespace Llxprt.Redact

section Scrubbing

/-- The bytes of the characters, each with the place of its character. -/
def encodeTraced (glyphs : List (Traced Char)) : List (Traced UInt8) :=
  glyphs.flatMap fun glyph =>
    (String.utf8EncodeChar glyph.value).map fun byte => ⟨byte, glyph.source⟩

def scrubSecrets (text : List Char) (secrets : List (List Char)) : List (Traced UInt8) :=
  let out := scrubExact secrets (trace text)
  let out := if (values out).any (['@', '?', '#'].contains ·) then scrubUrlParts out else out
  scrubAuthLike (encodeTraced out)

theorem from_encodeTraced (glyphs : List (Traced Char)) : From (encodeTraced glyphs) glyphs := by
  intro glyph member place source
  rcases List.mem_flatMap.mp member with ⟨origin, among, encoded⟩
  rcases List.mem_map.mp encoded with ⟨byte, -, rfl⟩
  exact ⟨origin, among, source⟩

/-- What the later scans leave was left by the exact secrets. -/
theorem from_scrubSecrets (text : List Char) (secrets : List (List Char)) :
    From (scrubSecrets text secrets) (scrubExact secrets (trace text)) := by
  apply (from_scrubAuthLike _).trans
  apply (from_encodeTraced _).trans
  split
  · exact from_scrubUrlParts _
  · exact From.refl _

end Scrubbing

section Guarantees

variable {text : List Char} {secrets listed hidden : List (List Char)}

/-- Nothing of an occurrence of a secret is left, and the order of the secrets does not
matter. -/
structure Scrubbed (text : List Char) (secrets : List (List Char)) : Prop where
  complete : ∀ place, CoveredAt secrets text place →
    ∀ glyph ∈ scrubSecrets text secrets, glyph.source ≠ some place
  ordered : ∀ others, others.Perm secrets →
    values (scrubSecrets text others) = values (scrubSecrets text secrets)

/-- No two occurrences of secrets overlap, and whichever of the other secrets are
hidden, a secret touches none of their markers. -/
structure Undisturbed (text : List Char) (secrets : List (List Char)) : Prop where
  separate : Separate secrets text
  untouched : ∀ secret ∈ secrets, ∀ hidden ⊆ secrets.erase secret,
    Untouched secret (hide hidden (trace text))

/-- One after another the secrets are hidden as all at once: those already hidden are
others than the next one, so its occurrences touch none of their markers. -/
theorem scrubExact_hide (nonempty : ∀ secret ∈ secrets, secret ≠ [])
    (short : ∀ secret ∈ secrets, Kernel.width secret ≤ maxSecretBytes)
    (undisturbed : Undisturbed text secrets) (split : (listed ++ hidden).Perm secrets) :
    scrubExact listed (hide hidden (trace text)) = hide (listed.reverse ++ hidden) (trace text) := by
  induction listed generalizing hidden with
  | nil => rfl
  | cons secret listed ih =>
      have next : (listed ++ secret :: hidden).Perm secrets := List.perm_middle.trans split
      have member : secret ∈ secrets := split.subset List.mem_cons_self
      have others : (listed ++ hidden).Perm (secrets.erase secret) :=
        (List.cons_perm_iff_perm_erase.mp split).2
      have both : secret :: hidden ⊆ secrets :=
        List.Subset.trans (List.subset_append_right listed _) next.subset
      have separate : Separate (secret :: hidden) (values (trace text)) := by
        rw [trace, values_traceFrom]
        exact undisturbed.separate.subset both
      have once := hide_hide (fun other among => nonempty other (both among)) separate
        (undisturbed.untouched secret member hidden
          (List.Subset.trans (List.subset_append_right listed hidden) others.subset))
      rw [scrubExact, List.foldl_cons, if_pos ⟨nonempty secret member, short secret member⟩,
        replaceFrom_eq_hideFrom, ← hide, once, ← scrubExact, ih next, List.reverse_cons,
        List.append_assoc, List.singleton_append]

theorem scrubExact_eq_hide (nonempty : ∀ secret ∈ secrets, secret ≠ [])
    (short : ∀ secret ∈ secrets, Kernel.width secret ≤ maxSecretBytes)
    (undisturbed : Undisturbed text secrets) (permuted : listed.Perm secrets) :
    scrubExact listed (trace text) = hide secrets (trace text) := by
  have split : (listed ++ []).Perm secrets := by
    rwa [List.append_nil]
  have once := scrubExact_hide nonempty short undisturbed split
  rw [hide_none, List.append_nil] at once
  rw [once]
  symm
  apply hide_congr nonempty
  · intro secret
    rw [List.mem_reverse, permuted.mem_iff]
  · rw [trace, values_traceFrom]
    exact undisturbed.separate

/-- Undisturbed secrets leave nothing behind, in any order. -/
theorem scrubSecrets_scrubbed (nonempty : ∀ secret ∈ secrets, secret ≠ [])
    (short : ∀ secret ∈ secrets, Kernel.width secret ≤ maxSecretBytes)
    (undisturbed : Undisturbed text secrets) : Scrubbed text secrets := by
  have exact_ := scrubExact_eq_hide nonempty short undisturbed (List.Perm.refl secrets)
  constructor
  · intro place covered glyph member source
    rcases from_scrubSecrets text secrets glyph member place source with ⟨origin, among, same⟩
    rw [exact_] at among
    rcases not_covered_of_mem_hide nonempty undisturbed.separate among same with
      ⟨offset, rfl, free⟩
    rw [Nat.zero_add] at covered
    exact free covered
  · intro others permuted
    have other := scrubExact_eq_hide nonempty short undisturbed permuted
    rw [scrubSecrets, scrubSecrets, exact_, other]

end Guarantees

section Samples

/-- Two secrets, a word before them and a blank between them. -/
def twoSecrets : List Char :=
  "an abc key".toList

/-- It is enough to look at every place. -/
theorem untouched_of_places {secret : List Char} {glyphs : List (Traced Char)}
    (nonempty : secret ≠ [])
    (places : ∀ place < glyphs.length, secret.isPrefixOf (values (glyphs.drop place)) = true →
      ((glyphs.drop place).take secret.length).all (fun glyph => glyph.source.isSome) = true) :
    Untouched secret glyphs := by
  rintro front back rfl occurs glyph member
  have dropped : (front ++ back).drop front.length = back := List.drop_left' rfl
  have length := occurs.length_le
  have positive := List.length_pos_iff.mpr nonempty
  rw [values, List.length_map] at length
  have here := places front.length (by rw [List.length_append]; omega)
    (by rw [dropped, List.isPrefixOf_iff_prefix]; exact occurs)
  rw [dropped] at here
  exact List.all_eq_true.mp here glyph member

/-- Each of the two secrets occurs at one place. -/
theorem place_twoSecrets {secret : List Char} (listed : secret ∈ ["abc".toList, "key".toList])
    {place : Nat} (occurs : OccursAt twoSecrets secret place) :
    (secret = "abc".toList ∧ place = 3) ∨ (secret = "key".toList ∧ place = 7) := by
  have checked : ∀ secret ∈ ["abc".toList, "key".toList], 0 < secret.length ∧ ∀ place < 10,
      secret.isPrefixOf (twoSecrets.drop place) = true →
        (secret = "abc".toList ∧ place = 3) ∨ (secret = "key".toList ∧ place = 7) := by
    decide
  have length := occurs.length_le
  have positive := (checked secret listed).1
  have whole : twoSecrets.length = 10 := by decide
  rw [List.length_drop] at length
  exact (checked secret listed).2 place (by omega) (List.isPrefixOf_iff_prefix.mpr occurs)

theorem separate_twoSecrets : Separate ["abc".toList, "key".toList] twoSecrets := by
  have lengths : "abc".toList.length = 3 ∧ "key".toList.length = 3 ∧ "abc" ≠ "key" := by decide
  constructor
  · intro first listed second also place occurs other
    rcases place_twoSecrets listed occurs with ⟨rfl, here⟩ | ⟨rfl, here⟩ <;>
      rcases place_twoSecrets also other with ⟨rfl, there⟩ | ⟨rfl, there⟩
    · rfl
    · omega
    · omega
    · rfl
  · intro first listed second also place later occurs other before
    rcases place_twoSecrets listed occurs with ⟨rfl, here⟩ | ⟨rfl, here⟩ <;>
      rcases place_twoSecrets also other with ⟨rfl, there⟩ | ⟨rfl, there⟩ <;>
        omega

/-- Where one secret at most is hidden, it is enough to look at both texts. -/
theorem untouched_of_single {secret other : List Char} {hidden : List (List Char)}
    (within : hidden ⊆ [other]) (some : other ≠ []) (separate : Separate [other] twoSecrets)
    (before : Untouched secret (trace twoSecrets))
    (behind : Untouched secret (hide [other] (trace twoSecrets))) :
    Untouched secret (hide hidden (trace twoSecrets)) := by
  by_cases known : other ∈ hidden
  · have same : hide [other] (trace twoSecrets) = hide hidden (trace twoSecrets) := by
      apply hide_congr
      · intro listed member
        rwa [List.mem_singleton.mp member]
      · intro listed
        constructor
        · intro single
          rwa [List.mem_singleton.mp single]
        · exact fun member => within member
      · rw [trace, values_traceFrom]
        exact separate
    rwa [← same]
  · have none : hidden = [] := by
      rw [List.eq_nil_iff_forall_not_mem]
      intro listed member
      rw [List.mem_singleton.mp (within member)] at member
      exact known member
    rwa [none, hide_none]

theorem undisturbed_twoSecrets : Undisturbed twoSecrets ["abc".toList, "key".toList] := by
  refine ⟨separate_twoSecrets, ?_⟩
  intro secret listed hidden within
  rcases List.mem_cons.mp listed with rfl | last
  · have single : hidden ⊆ ["key".toList] := within
    exact untouched_of_single single (by decide)
      (separate_twoSecrets.subset (by decide)) (untouched_of_places (by decide) (by decide))
      (untouched_of_places (by decide) (by decide))
  · rcases List.mem_singleton.mp last with rfl
    have single : hidden ⊆ ["abc".toList] := within
    exact untouched_of_single single (by decide)
      (separate_twoSecrets.subset (by decide)) (untouched_of_places (by decide) (by decide))
      (untouched_of_places (by decide) (by decide))

/-- Both secrets are gone, and the other order writes the same bytes. -/
theorem scrubSecrets_twoSecrets :
    (∀ glyph ∈ scrubSecrets twoSecrets ["abc".toList, "key".toList],
      glyph.source ≠ some 3 ∧ glyph.source ≠ some 7) ∧
    values (scrubSecrets twoSecrets ["key".toList, "abc".toList]) =
      values (scrubSecrets twoSecrets ["abc".toList, "key".toList]) := by
  have scrubbed := scrubSecrets_scrubbed (by decide) (by decide) undisturbed_twoSecrets
  refine ⟨?_, scrubbed.ordered _ (List.Perm.swap _ _ _)⟩
  intro glyph member
  have first : CoveredAt ["abc".toList, "key".toList] twoSecrets 3 :=
    ⟨"abc".toList, by decide, 3, List.isPrefixOf_iff_prefix.mp (by decide), by decide, by decide⟩
  have second : CoveredAt ["abc".toList, "key".toList] twoSecrets 7 :=
    ⟨"key".toList, by decide, 7, List.isPrefixOf_iff_prefix.mp (by decide), by decide, by decide⟩
  exact ⟨scrubbed.complete 3 first glyph member, scrubbed.complete 7 second glyph member⟩

/-- The end of a secret that overlaps another one is left. -/
theorem scrubSecrets_overlapping :
    ¬ ∀ (text : List Char) (secrets : List (List Char)), (∀ secret ∈ secrets, secret ≠ []) →
      (∀ secret ∈ secrets, Kernel.width secret ≤ maxSecretBytes) → Scrubbed text secrets := by
  intro scrubbed
  have both := scrubbed "abcd".toList ["abc".toList, "bcd".toList] (by decide) (by decide)
  have covered : CoveredAt ["abc".toList, "bcd".toList] "abcd".toList 3 :=
    ⟨"bcd".toList, by decide, 1, List.isPrefixOf_iff_prefix.mp (by decide), by decide, by decide⟩
  exact both.complete 3 covered ⟨0x64, some 3⟩ (by decide +kernel) rfl

end Samples

end Llxprt.Redact
