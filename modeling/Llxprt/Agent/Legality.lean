import Llxprt.Agent.Compaction
import Mathlib.Data.List.Perm.Basic
import Mathlib.Data.List.Nodup

/-!
# Paired request lists

A list is paired when every response with calls is followed by the returns of
exactly these calls.  A paired list whose call identifiers do not repeat passes
the check at the send boundary, and it stays paired when whole turns are appended
and when contents change.
-/

namespace Llxprt.Agent

open Llxprt.Kernel Llxprt.Rust Llxprt.Gateway Llxprt.Log

def ToolReturnPart.key (part : ToolReturnPart) : Option String × String :=
  (part.toolCallId, part.toolName)

/-- The part is neither a response nor the return of a call. -/
def ModelRequestPart.IsPlain : ModelRequestPart → Prop
  | .modelResponse _ => False
  | .toolReturn _ => False
  | _ => True

/-- Parts in which every call is returned right behind its response, with the
identifiers of the calls. -/
inductive Paired : List ModelRequestPart → List String → Prop where
  | nil : Paired [] []
  | plain {part : ModelRequestPart} {rest : List ModelRequestPart} {ids : List String}
      (isPlain : part.IsPlain) (paired : Paired rest ids) : Paired (part :: rest) ids
  | exchange {response : ModelResponse} {keys : List (String × String)}
      {returns : List ToolReturnPart} {rest : List ModelRequestPart} {ids : List String}
      (calls : response.calls = keys.map fun key => (some key.1, key.2))
      (answered : (returns.map ToolReturnPart.key).Perm response.calls)
      (paired : Paired rest ids) :
      Paired (.modelResponse response :: (returns.map .toolReturn ++ rest))
        (keys.map Prod.fst ++ ids)

section Lists

variable {parts more : List ModelRequestPart} {ids others : List String}

theorem Paired.append (first : Paired parts ids) (second : Paired more others) :
    Paired (parts ++ more) (ids ++ others) := by
  induction first with
  | nil => exact second
  | plain isPlain _ ih => exact .plain isPlain ih
  | exchange calls answered _ ih =>
      rw [List.cons_append, List.append_assoc, List.append_assoc]
      exact .exchange calls answered ih

/-- A paired list at one of its responses. -/
theorem Paired.split_response {response : ModelResponse} (paired : Paired parts ids)
    {before after : List ModelRequestPart} (here : parts = before ++ .modelResponse response :: after) :
    ∃ (keys : List (String × String)) (returns : List ToolReturnPart)
        (rest : List ModelRequestPart) (earlier later : List String),
      after = returns.map .toolReturn ++ rest ∧
      response.calls = keys.map (fun key => (some key.1, key.2)) ∧
      (returns.map ToolReturnPart.key).Perm response.calls ∧
      Paired before earlier ∧ Paired rest later ∧
      ids = earlier ++ (keys.map Prod.fst ++ later) := by
  induction paired generalizing before after with
  | nil => simp at here
  | plain isPlain paired ih =>
      cases before with
      | nil =>
          cases here
          cases isPlain
      | cons head before =>
          rw [List.cons_append, List.cons.injEq] at here
          rcases here with ⟨rfl, here⟩
          rcases ih here with ⟨keys, returns, rest, earlier, later, split, calls, answered, first,
            second, rfl⟩
          exact ⟨keys, returns, rest, earlier, later, split, calls, answered, .plain isPlain first,
            second, rfl⟩
  | @exchange other keys returns rest ids calls answered paired ih =>
      cases before with
      | nil =>
          rw [List.nil_append, List.cons.injEq] at here
          rcases here with ⟨same, rfl⟩
          cases same
          exact ⟨keys, returns, rest, [], ids, rfl, calls, answered, .nil, paired, rfl⟩
      | cons head before =>
          rw [List.cons_append, List.cons.injEq] at here
          rcases here with ⟨rfl, here⟩
          -- The response lies behind the returns, which are no responses.
          rcases List.append_eq_append_iff.mp here with
            ⟨middle, rfl, tail⟩ | ⟨middle, inside, tail⟩
          · rcases ih tail with ⟨innerKeys, innerReturns, innerRest, earlier, later, split,
              innerCalls, innerAnswered, first, second, rfl⟩
            exact ⟨innerKeys, innerReturns, innerRest, keys.map Prod.fst ++ earlier, later, split,
              innerCalls, innerAnswered, .exchange calls answered first, second,
              (List.append_assoc _ _ _).symm⟩
          · cases middle with
            | nil =>
                rw [List.append_nil] at inside
                rcases @ih [] after tail.symm with ⟨innerKeys, innerReturns, innerRest, earlier,
                  later, split, innerCalls, innerAnswered, first, second, rfl⟩
                refine ⟨innerKeys, innerReturns, innerRest, keys.map Prod.fst ++ earlier, later,
                  split, innerCalls, innerAnswered, ?_, second, (List.append_assoc _ _ _).symm⟩
                rw [← inside, ← List.append_nil (returns.map _)]
                exact .exchange calls answered first
            | cons first middle =>
                rw [List.cons_append, List.cons.injEq] at tail
                have member : first ∈ returns.map ModelRequestPart.toolReturn := by
                  rw [inside]
                  simp
                rcases List.mem_map.mp member with ⟨part, _, rfl⟩
                cases tail.1

end Lists

section Scan

variable {pending : BTreeMap String String} {seen : BTreeSet String}

/-- The calls that wait are those of the keys. -/
def Waits (pending : BTreeMap String String) (keys : List (String × String)) : Prop :=
  ∀ id name, pending[id]? = some name ↔ (id, name) ∈ keys

theorem waits_nil {pending : BTreeMap String String} : Waits pending [] ↔ pending = ∅ := by
  constructor
  · intro waits
    apply Std.ExtTreeMap.ext_getElem?
    intro id
    cases found : pending[id]? with
    | none => simp
    | some name => exact absurd ((waits id name).mp found) List.not_mem_nil
  · rintro rfl id name
    simp

theorem Waits.insert {keys : List (String × String)} (waits : Waits pending keys)
    {id name : String} (new : id ∉ keys.map Prod.fst) :
    Waits (pending.insert id name) (keys ++ [(id, name)]) := by
  intro other found
  rw [Std.ExtTreeMap.getElem?_insert, List.mem_append, List.mem_singleton]
  by_cases same : id = other
  · subst same
    rw [if_pos Std.ReflCmp.compare_self, Option.some.injEq]
    constructor
    · rintro rfl
      exact .inr rfl
    · rintro (old | own)
      · exact absurd (List.mem_map_of_mem old) new
      · exact (Prod.mk.inj own).2.symm
  · rw [if_neg (fun equal => same (Std.LawfulEqOrd.compare_eq_iff_eq.mp equal)), waits other found]
    constructor
    · exact .inl
    · rintro (old | own)
      · exact old
      · exact absurd (Prod.mk.inj own).1.symm same

theorem Waits.erase {keys : List (String × String)} {id name : String}
    (waits : Waits pending ((id, name) :: keys)) (nodup : id ∉ keys.map Prod.fst) :
    pending[id]? = some name ∧ Waits (pending.erase id) keys := by
  refine ⟨(waits id name).mpr List.mem_cons_self, ?_⟩
  intro other found
  rw [Std.ExtTreeMap.getElem?_erase]
  by_cases same : id = other
  · subst same
    rw [if_pos Std.ReflCmp.compare_self]
    constructor
    · intro impossible
      cases impossible
    · intro member
      exact absurd (List.mem_map_of_mem member) nodup
  · rw [if_neg (fun equal => same (Std.LawfulEqOrd.compare_eq_iff_eq.mp equal)), waits other found,
      List.mem_cons]
    constructor
    · rintro (own | old)
      · exact absurd (Prod.mk.inj own).1.symm same
      · exact old
    · exact .inr

theorem Waits.perm {keys others : List (String × String)} (waits : Waits pending keys)
    (same : keys.Perm others) : Waits pending others :=
  fun id name => (waits id name).trans same.mem_iff

/-- The calls of a response join those that wait. -/
theorem foldlM_call {pieces : List ModelResponsePart} {keys waiting : List (String × String)}
    (calls : pieces.filterMap ModelResponsePart.callKey = keys.map fun key => (some key.1, key.2))
    (named : ∀ key ∈ keys, key.1 ≠ "") (waits : Waits pending waiting)
    (known : ∀ id ∈ waiting.map Prod.fst, id ∈ seen)
    (nodup : (keys.map Prod.fst).Nodup) (unseen : ∀ id ∈ keys.map Prod.fst, id ∉ seen) :
    ∃ later : Pairing, pieces.foldlM Pairing.call ⟨pending, seen⟩ = .ok later ∧
      Waits later.pending (waiting ++ keys) ∧
      ∀ id, id ∈ later.seen ↔ id ∈ keys.map Prod.fst ∨ id ∈ seen := by
  induction pieces generalizing pending seen keys waiting with
  | nil =>
      have none : keys = [] := by simpa using calls.symm
      subst none
      exact ⟨⟨pending, seen⟩, rfl, by simpa using waits, by simp⟩
  | cons piece pieces ih =>
      rw [List.foldlM_cons]
      cases hit : piece.callKey with
      | none =>
          rw [List.filterMap_cons_none hit] at calls
          have skips : Pairing.call ⟨pending, seen⟩ piece = .ok ⟨pending, seen⟩ := by
            cases piece <;> first | rfl | cases hit
          rw [skips]
          exact ih calls named waits known nodup unseen
      | some key =>
          rw [List.filterMap_cons_some hit] at calls
          cases keys with
          | nil => cases calls
          | cons first keys =>
              rw [List.map_cons, List.cons.injEq] at calls
              rcases calls with ⟨rfl, calls⟩
              rcases first with ⟨id, name⟩
              rw [List.map_cons, List.nodup_cons] at nodup
              have new : id ∉ seen := unseen id List.mem_cons_self
              have taken : Pairing.call ⟨pending, seen⟩ piece =
                  .ok ⟨pending.insert id name, seen.insert id⟩ := by
                cases piece with
                | toolCall call =>
                    simp only [ModelResponsePart.callKey, Option.some.injEq, Prod.mk.injEq] at hit
                    have absent : seen.contains id = false := by
                      rw [← Bool.not_eq_true, Std.ExtTreeSet.contains_iff_mem]
                      exact new
                    simp [Pairing.call, hit.1, hit.2, okOr, reject, absent,
                      named _ List.mem_cons_self, pure, Except.pure, bind, Except.bind]
                | _ => cases hit
              have grown : Waits (pending.insert id name) (waiting ++ [(id, name)]) :=
                waits.insert fun old => new (known id old)
              have knownLater : ∀ other ∈ (waiting ++ [(id, name)]).map Prod.fst,
                  other ∈ seen.insert id := by
                intro other member
                rw [List.map_append, List.mem_append] at member
                rcases member with old | own
                · exact Std.ExtTreeSet.mem_insert.mpr (.inr (known other old))
                · rw [List.mem_singleton.mp own]
                  exact Std.ExtTreeSet.mem_insert_self
              have unseenLater : ∀ other ∈ keys.map Prod.fst, other ∉ seen.insert id := by
                intro other member listed
                rcases Std.ExtTreeSet.mem_insert.mp listed with same | old
                · rw [Std.LawfulEqOrd.compare_eq_iff_eq] at same
                  exact nodup.1 (same ▸ member)
                · exact unseen other (List.mem_cons_of_mem _ member) old
              rcases ih calls (fun other member => named other (List.mem_cons_of_mem _ member))
                grown knownLater nodup.2 unseenLater with ⟨later, ran, waiting, listed⟩
              rw [taken]
              refine ⟨later, ran, by simpa using waiting, ?_⟩
              intro other
              rw [listed, Std.ExtTreeSet.mem_insert, Std.LawfulEqOrd.compare_eq_iff_eq,
                List.map_cons, List.mem_cons]
              constructor
              · rintro (member | rfl | old)
                · exact .inl (.inr member)
                · exact .inl (.inl rfl)
                · exact .inr old
              · rintro ((rfl | member) | old)
                · exact .inr (.inl rfl)
                · exact .inl member
                · exact .inr (.inr old)

/-- Returns take the calls that wait away, in any order. -/
theorem foldlM_returns {returns : List ToolReturnPart} {keys : List (String × String)}
    (answered : returns.map ToolReturnPart.key = keys.map fun key => (some key.1, key.2))
    (waits : Waits pending keys) (nodup : (keys.map Prod.fst).Nodup) :
    (returns.map ModelRequestPart.toolReturn).foldlM Pairing.part ⟨pending, seen⟩ =
      .ok ⟨∅, seen⟩ := by
  induction returns generalizing pending keys with
  | nil =>
      have none : keys = [] := by simpa using answered.symm
      subst none
      rw [waits_nil.mp waits]
      rfl
  | cons part returns ih =>
      cases keys with
      | nil => cases answered
      | cons key keys =>
          rcases key with ⟨id, name⟩
          simp only [List.map_cons, List.cons.injEq, ToolReturnPart.key, Prod.mk.injEq] at answered
          rw [List.map_cons, List.nodup_cons] at nodup
          rcases waits.erase nodup.1 with ⟨found, left⟩
          have taken : Pairing.part ⟨pending, seen⟩ (.toolReturn part) =
              .ok ⟨pending.erase id, seen⟩ := by
            simp [Pairing.part, okOr, reject, answered.1.1, answered.1.2, found, pure, Except.pure,
              bind, Except.bind]
          rw [List.map_cons, List.foldlM_cons, taken]
          exact ih answered.2 left nodup.2

/-- Returns that answer the calls of some keys have these keys in some order. -/
theorem exists_keys_of_perm {returns : List ToolReturnPart} {keys : List (String × String)}
    (answered : (returns.map ToolReturnPart.key).Perm
      (keys.map fun key => (some key.1, key.2))) :
    ∃ order : List (String × String),
      returns.map ToolReturnPart.key = order.map (fun key => (some key.1, key.2)) ∧
        order.Perm keys := by
  refine ⟨returns.map fun part => (part.toolCallId.getD "", part.toolName), ?_, ?_⟩
  · rw [List.map_map]
    apply List.map_congr_left
    intro part member
    rcases List.mem_map.mp (answered.mem_iff.mp (List.mem_map_of_mem member)) with ⟨key, _, same⟩
    simp only [ToolReturnPart.key, Prod.mk.injEq] at same
    simp [ToolReturnPart.key, ← same.1]
  · have mapped := answered.map fun key : Option String × String => (key.1.getD "", key.2)
    rw [List.map_map, List.map_map] at mapped
    simpa [Function.comp_def, ToolReturnPart.key] using mapped

/-- A paired list without repeated identifiers leaves nothing waiting. -/
theorem Paired.foldlM {parts : List ModelRequestPart} {ids : List String}
    (paired : Paired parts ids) (nodup : ids.Nodup) (named : ∀ id ∈ ids, id ≠ "")
    (unseen : ∀ id ∈ ids, id ∉ seen) :
    ∃ later, parts.foldlM Pairing.part ⟨∅, seen⟩ = .ok ⟨∅, later⟩ := by
  induction paired generalizing seen with
  | nil => exact ⟨seen, rfl⟩
  | @plain part rest ids isPlain _ ih =>
      have skips : Pairing.part ⟨∅, seen⟩ part = .ok ⟨∅, seen⟩ := by
        cases part <;> first | rfl | cases isPlain
      rw [List.foldlM_cons, skips]
      exact ih nodup named unseen
  | @exchange response keys returns rest ids calls answered _ ih =>
      rcases List.nodup_append.mp nodup with ⟨own, others, apart⟩
      have ownUnseen : ∀ id ∈ keys.map Prod.fst, id ∉ seen :=
        fun id member => unseen id (List.mem_append_left _ member)
      have ownNamed : ∀ key ∈ keys, key.1 ≠ "" :=
        fun key member => named _ (List.mem_append_left _ (List.mem_map_of_mem member))
      rcases foldlM_call calls ownNamed (waits_nil.mpr rfl) (by simp) own ownUnseen with
        ⟨⟨pending, taken⟩, opened, waits, listed_iff⟩
      rcases exists_keys_of_perm (calls ▸ answered) with ⟨order, sameKeys, reordered⟩
      have orderNodup : (order.map Prod.fst).Nodup := (reordered.map Prod.fst).nodup_iff.mpr own
      have closed := @foldlM_returns pending taken returns order sameKeys
        ((List.nil_append keys ▸ waits).perm reordered.symm) orderNodup
      have restUnseen : ∀ id ∈ ids, id ∉ taken := by
        intro id member listed
        rcases (listed_iff id).mp listed with mine | old
        · exact apart id mine id member rfl
        · exact unseen id (List.mem_append_right _ member) old
      rcases @ih taken others (fun id member => named id (List.mem_append_right _ member))
        restUnseen with ⟨later, ran⟩
      refine ⟨later, ?_⟩
      have started : Pairing.part ⟨∅, seen⟩ (.modelResponse response) = .ok ⟨pending, taken⟩ :=
        opened
      rw [List.foldlM_cons, started]
      change (returns.map ModelRequestPart.toolReturn ++ rest).foldlM Pairing.part
        ⟨pending, taken⟩ = _
      rw [List.foldlM_append, closed]
      exact ran

/-- A paired list without repeated identifiers is legal. -/
theorem Paired.legal {requests : List ModelRequest} {ids : List String}
    (paired : Paired (partsOf requests) ids) (nodup : ids.Nodup) (named : ∀ id ∈ ids, id ≠ "") :
    legalRequests requests = .ok () := by
  rcases @Paired.foldlM ∅ _ _ paired nodup named (by simp) with ⟨later, ran⟩
  rw [legalRequests, ran]
  rfl

theorem isEmpty_iff_eq_empty : pending.isEmpty = true ↔ pending = ∅ :=
  Std.ExtTreeMap.isEmpty_iff

/-- A response that is taken has named calls that were not seen before. -/
theorem foldlM_call_eq_ok {pieces : List ModelResponsePart} {waiting : List (String × String)}
    {later : Pairing} (waits : Waits pending waiting) (known : ∀ key ∈ waiting, key.1 ∈ seen)
    (taken : pieces.foldlM Pairing.call ⟨pending, seen⟩ = .ok later) :
    ∃ keys : List (String × String),
      pieces.filterMap ModelResponsePart.callKey = keys.map (fun key => (some key.1, key.2)) ∧
      (∀ key ∈ keys, key.1 ≠ "") ∧ (keys.map Prod.fst).Nodup ∧ (∀ key ∈ keys, key.1 ∉ seen) ∧
      Waits later.pending (waiting ++ keys) ∧
      ∀ id, id ∈ later.seen ↔ id ∈ keys.map Prod.fst ∨ id ∈ seen := by
  induction pieces generalizing pending seen waiting with
  | nil =>
      cases taken
      exact ⟨[], rfl, by simp, .nil, by simp, by simpa using waits, by simp⟩
  | cons piece pieces ih =>
      rw [List.foldlM_cons, bind_eq_ok] at taken
      rcases taken with ⟨⟨middle, listed⟩, first, rest⟩
      cases piece with
      | toolCall call =>
          simp only [Pairing.call, bind_eq_ok, okOr_eq_ok, reject_eq_ok, pure_eq_ok, not_or,
            Bool.not_eq_true, Pairing.mk.injEq] at first
          rcases first with ⟨id, named, _, ⟨shown, unseen⟩, rfl, rfl⟩
          have new : id ∉ seen := by
            rw [← Std.ExtTreeSet.contains_iff_mem, unseen]
            exact Bool.false_ne_true
          have fresh : id ∉ waiting.map Prod.fst := by
            intro old
            rcases List.mem_map.mp old with ⟨key, member, rfl⟩
            exact new (known key member)
          have grown : ∀ key ∈ waiting ++ [(id, call.toolName)], key.1 ∈ seen.insert id := by
            intro key member
            rcases List.mem_append.mp member with old | own
            · exact Std.ExtTreeSet.mem_insert.mpr (.inr (known key old))
            · rw [List.mem_singleton.mp own]
              exact Std.ExtTreeSet.mem_insert_self
          rcases ih (waits.insert fresh) grown rest with
            ⟨keys, calls, others, nodup, unlisted, left, listed⟩
          have apart : ∀ key ∈ keys, key.1 ≠ id ∧ key.1 ∉ seen := by
            intro key member
            have outside := unlisted key member
            rw [Std.ExtTreeSet.mem_insert, not_or, Std.LawfulEqOrd.compare_eq_iff_eq] at outside
            exact ⟨fun same => outside.1 same.symm, outside.2⟩
          refine ⟨(id, call.toolName) :: keys, ?_, ?_, ?_, ?_, by simpa using left, ?_⟩
          · rw [List.filterMap_cons_some (show (ModelResponsePart.toolCall call).callKey =
              some (call.toolCallId, call.toolName) from rfl), calls, named]
            rfl
          · intro key member
            rcases List.mem_cons.mp member with rfl | old
            · rintro blank
              rw [show id = "" from blank] at shown
              cases shown
            · exact others key old
          · rw [List.map_cons, List.nodup_cons]
            refine ⟨?_, nodup⟩
            intro member
            rcases List.mem_map.mp member with ⟨key, inside, same⟩
            exact (apart key inside).1 same
          · intro key member
            rcases List.mem_cons.mp member with rfl | old
            · exact new
            · exact (apart key old).2
          · intro other
            rw [listed, Std.ExtTreeSet.mem_insert, Std.LawfulEqOrd.compare_eq_iff_eq, List.map_cons,
              List.mem_cons]
            constructor
            · rintro (member | rfl | old)
              · exact .inl (.inr member)
              · exact .inl (.inl rfl)
              · exact .inr old
            · rintro ((rfl | member) | old)
              · exact .inr (.inl rfl)
              · exact .inl member
              · exact .inr (.inr old)
      | _ =>
          cases first
          exact ih waits known rest

/-- What waits is returned first; the rest is paired without repeated identifiers. -/
def Settles (waiting : List (String × String)) (seen : BTreeSet String)
    (parts : List ModelRequestPart) : Prop :=
  ∃ (returns : List ToolReturnPart) (rest : List ModelRequestPart) (ids : List String),
    parts = returns.map .toolReturn ++ rest ∧
    (returns.map ToolReturnPart.key).Perm (waiting.map fun key => (some key.1, key.2)) ∧
    Paired rest ids ∧ ids.Nodup ∧ ∀ id ∈ ids, id ≠ "" ∧ id ∉ seen

theorem eq_nil_of_waits {waiting : List (String × String)} (waits : Waits pending waiting)
    (empty : pending = ∅) : waiting = [] := by
  apply List.eq_nil_iff_forall_not_mem.mpr
  rintro ⟨id, name⟩ member
  have found := (waits id name).mpr member
  rw [empty] at found
  simp at found

theorem Settles.plain {part : ModelRequestPart} {parts : List ModelRequestPart}
    (settles : Settles [] seen parts) (isPlain : part.IsPlain) : Settles [] seen (part :: parts) := by
  rcases settles with ⟨returns, rest, ids, rfl, same, paired, nodup, own⟩
  rw [List.map_nil, List.perm_nil, List.map_eq_nil_iff] at same
  subst same
  exact ⟨[], part :: rest, ids, rfl, .refl _, .plain isPlain paired, nodup, own⟩

/-- A response whose calls are returned behind it. -/
theorem Settles.response {response : ModelResponse} {parts : List ModelRequestPart}
    {keys : List (String × String)} {listed : BTreeSet String} (settles : Settles keys listed parts)
    (calls : response.calls = keys.map fun key => (some key.1, key.2))
    (named : ∀ key ∈ keys, key.1 ≠ "") (nodup : (keys.map Prod.fst).Nodup)
    (unseen : ∀ key ∈ keys, key.1 ∉ seen)
    (listedIff : ∀ id, id ∈ listed ↔ id ∈ keys.map Prod.fst ∨ id ∈ seen) :
    Settles [] seen (.modelResponse response :: parts) := by
  rcases settles with ⟨returns, rest, ids, rfl, answered, paired, others, own⟩
  rw [← calls] at answered
  refine ⟨[], _, keys.map Prod.fst ++ ids, rfl, .refl _, .exchange calls answered paired, ?_, ?_⟩
  · rw [List.nodup_append]
    refine ⟨nodup, others, ?_⟩
    rintro id member other inside rfl
    exact (own id inside).2 ((listedIff id).mpr (.inl member))
  · intro id member
    rcases List.mem_append.mp member with mine | old
    · rcases List.mem_map.mp mine with ⟨key, inside, rfl⟩
      exact ⟨named key inside, unseen key inside⟩
    · exact ⟨(own id old).1, fun earlier => (own id old).2 ((listedIff id).mpr (.inr earlier))⟩

/-- One of the waiting calls is returned. -/
theorem Settles.toolReturn {result : ToolReturnPart} {parts : List ModelRequestPart} {id : String}
    {waiting : List (String × String)} (member : (id, result.toolName) ∈ waiting)
    (named : result.toolCallId = some id)
    (settles : Settles (waiting.erase (id, result.toolName)) seen parts) :
    Settles waiting seen (.toolReturn result :: parts) := by
  rcases settles with ⟨returns, rest, ids, rfl, answered, paired, nodup, own⟩
  refine ⟨result :: returns, rest, ids, rfl, ?_, paired, nodup, own⟩
  have whole := ((List.perm_cons_erase member).map
    fun key : String × String => (some key.1, key.2)).symm
  rw [List.map_cons] at whole ⊢
  rw [ToolReturnPart.key, named]
  exact (answered.cons _).trans whole

theorem foldlM_part_eq_ok {parts : List ModelRequestPart} {waiting : List (String × String)}
    {later : Pairing} (waits : Waits pending waiting) (apart : (waiting.map Prod.fst).Nodup)
    (known : ∀ key ∈ waiting, key.1 ∈ seen)
    (scanned : parts.foldlM Pairing.part ⟨pending, seen⟩ = .ok later) (done : later.pending = ∅) :
    Settles waiting seen parts := by
  induction parts generalizing pending seen waiting with
  | nil =>
      cases scanned
      rw [eq_nil_of_waits waits done]
      exact ⟨[], [], [], rfl, .refl _, .nil, .nil, by simp⟩
  | cons part parts ih =>
      rw [List.foldlM_cons, bind_eq_ok] at scanned
      rcases scanned with ⟨⟨middle, listed⟩, first, scanned⟩
      have plain : ∀ {part : ModelRequestPart}, part.IsPlain → ¬ pending.isEmpty = false →
          (⟨pending, seen⟩ : Pairing) = ⟨middle, listed⟩ → Settles waiting seen (part :: parts) := by
        intro part isPlain empty same
        cases same
        rw [Bool.not_eq_false, isEmpty_iff_eq_empty] at empty
        cases eq_nil_of_waits waits empty
        exact (ih waits apart known scanned).plain isPlain
      cases part with
      | modelResponse response =>
          simp only [Pairing.part, bind_eq_ok, reject_eq_ok] at first
          rcases first with ⟨_, empty, opened⟩
          rw [Bool.not_eq_false, isEmpty_iff_eq_empty] at empty
          cases eq_nil_of_waits waits empty
          rcases foldlM_call_eq_ok waits known opened with
            ⟨keys, calls, named, nodup, unseen, waitsLater, listedIff⟩
          have behind := ih waitsLater (by simpa using nodup)
            (fun key member => (listedIff key.1).mpr (.inl (List.mem_map_of_mem member))) scanned
          exact behind.response calls named nodup unseen listedIff
      | toolReturn result =>
          simp only [Pairing.part, bind_eq_ok, okOr_eq_ok, reject_eq_ok, pure_eq_ok,
            Decidable.not_not, Pairing.mk.injEq] at first
          rcases first with ⟨id, named, _, found, rfl, rfl⟩
          have member := (waits id result.toolName).mp found
          have split := List.perm_cons_erase member
          have keys := split.map Prod.fst
          rw [List.map_cons] at keys
          have cut := List.nodup_cons.mp (keys.nodup_iff.mp apart)
          have behind := ih ((waits.perm split).erase cut.1).2 cut.2
            (fun key inside => known key (List.mem_of_mem_erase inside)) scanned
          exact .toolReturn member named behind
      | systemPrompt | userPrompt | retryPrompt | builtinToolReturn =>
          simp only [Pairing.part, bind_eq_ok, reject_eq_ok, pure_eq_ok] at first
          rcases first with ⟨_, empty, same⟩
          exact plain trivial empty same

/-- The check at the send boundary takes the lists that are paired, without blank or
repeated identifiers. -/
theorem legalRequests_iff {requests : List ModelRequest} :
    legalRequests requests = .ok () ↔
      ∃ ids, Paired (partsOf requests) ids ∧ ids.Nodup ∧ ∀ id ∈ ids, id ≠ "" := by
  constructor
  · intro legal
    simp only [legalRequests, bind_eq_ok, reject_eq_ok, Bool.not_eq_false] at legal
    rcases legal with ⟨later, scanned, done⟩
    rcases foldlM_part_eq_ok (waits_nil.mpr rfl) .nil (by simp) scanned
      (isEmpty_iff_eq_empty.mp done) with ⟨returns, rest, ids, split, answered, paired, nodup, own⟩
    rw [List.map_nil, List.perm_nil, List.map_eq_nil_iff] at answered
    subst answered
    rw [split]
    exact ⟨ids, paired, nodup, fun id member => (own id member).1⟩
  · rintro ⟨ids, paired, nodup, named⟩
    exact paired.legal nodup named

end Scan

section Shapes

/-- What pairing looks at in a part. -/
inductive Shape where
  | plain
  | response (calls : List (Option String × String))
  | returned (key : Option String × String)

def ModelRequestPart.shape : ModelRequestPart → Shape
  | .modelResponse response => .response response.calls
  | .toolReturn part => .returned part.key
  | _ => .plain

theorem shape_eq_plain {part : ModelRequestPart} : part.shape = .plain ↔ part.IsPlain := by
  cases part <;> simp [ModelRequestPart.shape, ModelRequestPart.IsPlain]

theorem shape_eq_response {part : ModelRequestPart} {calls : List (Option String × String)}
    (same : part.shape = .response calls) :
    ∃ response, part = .modelResponse response ∧ response.calls = calls := by
  cases part with
  | modelResponse response => exact ⟨response, rfl, Shape.response.inj same⟩
  | _ => cases same

theorem shapes_eq_returned {parts : List ModelRequestPart} {keys : List (Option String × String)}
    (same : parts.map ModelRequestPart.shape = keys.map Shape.returned) :
    ∃ returns : List ToolReturnPart, parts = returns.map .toolReturn ∧
      returns.map ToolReturnPart.key = keys := by
  induction parts generalizing keys with
  | nil =>
      have none : keys = [] := by simpa using same.symm
      exact ⟨[], rfl, none.symm⟩
  | cons part parts ih =>
      cases keys with
      | nil => cases same
      | cons key keys =>
          rw [List.map_cons, List.map_cons, List.cons.injEq] at same
          rcases ih same.2 with ⟨returns, rfl, sameKeys⟩
          cases part with
          | toolReturn first =>
              exact ⟨first :: returns, rfl, by rw [List.map_cons, Shape.returned.inj same.1, sameKeys]⟩
          | _ => cases same.1

/-- Pairing depends on the shapes of the parts alone. -/
theorem Paired.of_shapes {parts others : List ModelRequestPart} {ids : List String}
    (paired : Paired parts ids)
    (same : others.map ModelRequestPart.shape = parts.map ModelRequestPart.shape) :
    Paired others ids := by
  induction paired generalizing others with
  | nil =>
      rw [List.map_nil, List.map_eq_nil_iff] at same
      rw [same]
      exact .nil
  | plain isPlain _ ih =>
      rw [List.map_cons, List.map_eq_cons_iff] at same
      rcases same with ⟨part, rest, rfl, first, tail⟩
      exact .plain (shape_eq_plain.mp (first.trans (shape_eq_plain.mpr isPlain))) (ih tail)
  | @exchange response keys returns rest ids calls answered _ ih =>
      rw [List.map_cons, List.map_eq_cons_iff] at same
      rcases same with ⟨part, tail, rfl, first, behind⟩
      rcases shape_eq_response first with ⟨other, rfl, sameCalls⟩
      rw [List.map_append, List.map_eq_append_iff] at behind
      rcases behind with ⟨front, back, rfl, fronts, backs⟩
      have keyed : front.map ModelRequestPart.shape =
          (returns.map ToolReturnPart.key).map Shape.returned := by
        rw [fronts, List.map_map, List.map_map]
        rfl
      rcases shapes_eq_returned keyed with ⟨others, rfl, sameKeys⟩
      refine .exchange (sameCalls.trans calls) ?_ (ih backs)
      rw [sameKeys, sameCalls]
      exact answered

end Shapes

section Identifiers

/-- The identifiers of the calls of a part. -/
def ModelRequestPart.callIds : ModelRequestPart → List String
  | .modelResponse response => response.calls.filterMap Prod.fst
  | _ => []

/-- The identifiers of the calls in a request list. -/
def callIds (requests : List ModelRequest) : List String :=
  (partsOf requests).flatMap ModelRequestPart.callIds

theorem Paired.ids_eq {parts : List ModelRequestPart} {ids : List String}
    (paired : Paired parts ids) : ids = parts.flatMap ModelRequestPart.callIds := by
  induction paired with
  | nil => rfl
  | @plain part rest ids isPlain _ ih =>
      have none : part.callIds = [] := by
        cases part <;> first | rfl | cases isPlain
      rw [List.flatMap_cons, none, List.nil_append, ih]
  | @exchange response keys returns rest ids calls answered _ ih =>
      have own : (ModelRequestPart.modelResponse response).callIds = keys.map Prod.fst := by
        simp [ModelRequestPart.callIds, calls, List.filterMap_map]
      have silent : (returns.map ModelRequestPart.toolReturn).flatMap ModelRequestPart.callIds =
          [] := by
        simp [ModelRequestPart.callIds]
      rw [List.flatMap_cons, List.flatMap_append, own, silent, List.nil_append, ih]

@[simp]
theorem partsOf_append (first second : List ModelRequest) :
    partsOf (first ++ second) = partsOf first ++ partsOf second :=
  List.flatMap_append

@[simp]
theorem callIds_append (first second : List ModelRequest) :
    callIds (first ++ second) = callIds first ++ callIds second := by
  simp [callIds]

/-- Requests of one part each in which every call is named and returned right behind
its response. -/
structure Exchanged (requests : List ModelRequest) : Prop where
  single : ∀ request ∈ requests, ∃ part, request.parts = [part]
  paired : Paired (partsOf requests) (callIds requests)
  named : ∀ id ∈ callIds requests, id ≠ ""

/-- A list that starts with the system prompt and a prompt of the user. -/
structure Formed (requests : List ModelRequest) : Prop extends Exchanged requests where
  headed : ∃ prompt text rest, requests = systemRequest prompt :: userRequest text :: rest

theorem callIds_of_shapes {requests others : List ModelRequest}
    (same : (partsOf others).map ModelRequestPart.shape =
      (partsOf requests).map ModelRequestPart.shape) : callIds others = callIds requests := by
  have shaped : ∀ part : ModelRequestPart, part.callIds = (match part.shape with
      | .response calls => calls.filterMap Prod.fst
      | _ => []) := by
    intro part
    cases part <;> rfl
  have listed : ∀ parts : List ModelRequestPart, parts.flatMap ModelRequestPart.callIds =
      (parts.map ModelRequestPart.shape).flatMap fun shape => match shape with
        | .response calls => calls.filterMap Prod.fst
        | _ => [] := by
    intro parts
    rw [List.flatMap_map]
    exact List.flatMap_congr fun part _ => shaped part
  rw [callIds, callIds, listed, listed, same]

/-- Contents may change as long as the shapes stay. -/
theorem Formed.of_shapes {requests others : List ModelRequest} (formed : Formed requests)
    (headed : ∃ prompt text rest, others = systemRequest prompt :: userRequest text :: rest)
    (single : ∀ request ∈ others, ∃ part, request.parts = [part])
    (same : (partsOf others).map ModelRequestPart.shape =
      (partsOf requests).map ModelRequestPart.shape) : Formed others where
  headed := headed
  single := single
  paired := by
    rw [callIds_of_shapes same]
    exact formed.paired.of_shapes same
  named := by
    rw [callIds_of_shapes same]
    exact formed.named

theorem partsOf_map (change : ModelRequestPart → ModelRequestPart) (requests : List ModelRequest) :
    partsOf (requests.map fun request => ⟨request.parts.map change⟩) =
      (partsOf requests).map change := by
  simp [partsOf, List.flatMap_map, List.map_flatMap]

theorem shape_quote (part : ModelRequestPart) : part.quote.shape = part.shape := by
  cases part <;> rfl

theorem shapes_quoteRequests (requests : List ModelRequest) :
    (partsOf (quoteRequests requests)).map ModelRequestPart.shape =
      (partsOf requests).map ModelRequestPart.shape := by
  rw [quoteRequests, partsOf_map, List.map_map]
  apply List.map_congr_left
  intro part _
  exact shape_quote part

theorem nodup_of_legal {requests : List ModelRequest}
    (legal : legalRequests (quoteRequests requests) = .ok ()) : (callIds requests).Nodup := by
  rcases legalRequests_iff.mp legal with ⟨ids, paired, nodup, _⟩
  rw [← callIds_of_shapes (shapes_quoteRequests requests), callIds, ← paired.ids_eq]
  exact nodup

/-- A formed list passes the send boundary unless an identifier is used again. -/
theorem Formed.legal_iff {requests : List ModelRequest} (formed : Formed requests) :
    legalRequests (quoteRequests requests) = .ok () ↔ (callIds requests).Nodup := by
  constructor
  · exact nodup_of_legal
  · intro nodup
    exact legalRequests_iff.mpr ⟨callIds requests,
      formed.paired.of_shapes (shapes_quoteRequests requests), nodup, formed.named⟩

/-- A legal list of requests of one part each that starts with its prompts. -/
theorem formed_of_legal {requests : List ModelRequest}
    (headed : ∃ prompt text rest, requests = systemRequest prompt :: userRequest text :: rest)
    (single : ∀ request ∈ requests, ∃ part, request.parts = [part])
    (legal : legalRequests (quoteRequests requests) = .ok ()) : Formed requests := by
  rcases legalRequests_iff.mp legal with ⟨ids, paired, _, named⟩
  have listed : ids = callIds requests :=
    paired.ids_eq.trans (callIds_of_shapes (shapes_quoteRequests requests))
  subst listed
  exact ⟨⟨single, paired.of_shapes (shapes_quoteRequests requests).symm, named⟩, headed⟩

end Identifiers

end Llxprt.Agent
