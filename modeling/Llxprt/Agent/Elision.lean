import Llxprt.Agent.Legality
import Mathlib.Logic.Relation

/-!
# Compaction keeps a list formed

Contents change in place, an elided execution leaves with all its returns, and
the checkpoint head stands between whole exchanges.
-/

namespace Llxprt.Agent

open Llxprt.Kernel Llxprt.Rust Llxprt.Log

section Contents

/-- A part with other contents: what pairing looks at stays, and so do the parts
that are neither responses nor returns. -/
structure ModelRequestPart.Alike (part other : ModelRequestPart) : Prop where
  shape : other.shape = part.shape
  plain : part.IsPlain → other = part

theorem ModelRequestPart.Alike.refl (part : ModelRequestPart) : part.Alike part :=
  ⟨rfl, fun _ => rfl⟩

/-- The requests agree part by part up to contents. -/
def Rewritten (requests others : List ModelRequest) : Prop :=
  List.Forall₂ (fun request other =>
    List.Forall₂ ModelRequestPart.Alike request.parts other.parts) requests others

theorem Rewritten.refl (requests : List ModelRequest) : Rewritten requests requests :=
  List.forall₂_same.mpr fun _ _ => List.forall₂_same.mpr fun part _ => .refl part

theorem rewritten_map {change : ModelRequestPart → ModelRequestPart}
    (alike : ∀ part : ModelRequestPart, part.Alike (change part)) (requests : List ModelRequest) :
    Rewritten requests (requests.map fun request => ⟨request.parts.map change⟩) := by
  apply List.forall₂_map_right_iff.mpr
  apply List.forall₂_same.mpr
  intro request _
  apply List.forall₂_map_right_iff.mpr
  apply List.forall₂_same.mpr
  intro part _
  exact alike part

theorem Rewritten.append {requests others more rest : List ModelRequest}
    (first : Rewritten requests others) (second : Rewritten more rest) :
    Rewritten (requests ++ more) (others ++ rest) :=
  List.rel_append first second

theorem shapes_eq_of_alike {parts others : List ModelRequestPart}
    (alike : List.Forall₂ ModelRequestPart.Alike parts others) :
    others.map ModelRequestPart.shape = parts.map ModelRequestPart.shape := by
  induction alike with
  | nil => rfl
  | cons first _ ih => rw [List.map_cons, List.map_cons, first.shape, ih]

theorem Rewritten.shapes {requests others : List ModelRequest}
    (rewritten : Rewritten requests others) :
    (partsOf others).map ModelRequestPart.shape = (partsOf requests).map ModelRequestPart.shape := by
  induction rewritten with
  | nil => rfl
  | @cons request other requests others first _ ih =>
      have same := shapes_eq_of_alike first
      simp only [partsOf, List.flatMap_cons, List.map_append] at ih ⊢
      rw [same, ih]

/-- A plain request of one part does not change. -/
theorem eq_of_alike_plain {part : ModelRequestPart} {other : ModelRequest} (plain : part.IsPlain)
    (alike : List.Forall₂ ModelRequestPart.Alike [part] other.parts) : other = ⟨[part]⟩ := by
  rcases other with ⟨parts⟩
  rcases List.forall₂_cons_left_iff.mp alike with ⟨same, rest, first, none, rfl⟩
  rw [List.forall₂_nil_left_iff.mp none, first.plain plain]

theorem Formed.rewritten {requests others : List ModelRequest} (formed : Formed requests)
    (rewritten : Rewritten requests others) : Formed others := by
  apply formed.of_shapes _ _ rewritten.shapes
  · rcases formed.headed with ⟨prompt, text, rest, rfl⟩
    rcases List.forall₂_cons_left_iff.mp rewritten with ⟨first, more, headAlike, tail, rfl⟩
    rcases List.forall₂_cons_left_iff.mp tail with ⟨second, others, nextAlike, _, rfl⟩
    have firstSame : first = systemRequest prompt :=
      @eq_of_alike_plain (.systemPrompt prompt none) first trivial headAlike
    have secondSame : second = userRequest text :=
      @eq_of_alike_plain (.userPrompt text) second trivial nextAlike
    exact ⟨prompt, text, others, by rw [firstSame, secondSame]⟩
  · intro other member
    rcases List.getElem?_of_mem member with ⟨index, found⟩
    rcases forall₂_getElem? rewritten.flip found with ⟨request, present, alike⟩
    rcases formed.single request (List.mem_of_getElem? present) with ⟨part, only⟩
    have alike : List.Forall₂ ModelRequestPart.Alike request.parts other.parts := alike
    rw [only] at alike
    rcases List.forall₂_cons_left_iff.mp alike with ⟨same, rest, _, none, split⟩
    rw [List.forall₂_nil_left_iff.mp none] at split
    exact ⟨same, split⟩

theorem callKey_narrationPiece (history : List (HistoryTurn Continuation))
    (piece : ModelResponsePart) : (narrationPiece history piece).callKey = piece.callKey := by
  cases piece <;> rfl

theorem alike_narrationPart (history : List (HistoryTurn Continuation)) (part : ModelRequestPart) :
    part.Alike (narrationPart history part) := by
  cases part with
  | modelResponse response =>
      constructor
      · have same : (response.parts.map (narrationPiece history)).filterMap
            ModelResponsePart.callKey = response.parts.filterMap ModelResponsePart.callKey := by
          rw [List.filterMap_map]
          exact List.filterMap_congr fun piece _ => callKey_narrationPiece history piece
        exact congrArg Shape.response same
      · exact False.elim
  | _ => exact .refl _

theorem alike_replacedPart (calls : List LiveCall) (part : ModelRequestPart) :
    part.Alike (replacedPart calls part) := by
  cases part with
  | toolReturn part =>
      constructor
      · have same : (replacedReturn calls part).key = part.key := by
          unfold replacedReturn
          split <;> rfl
        exact congrArg Shape.returned same
      · exact False.elim
  | _ => exact .refl _

theorem rewritten_compactObservedResults (rounds : List LiveRound) (latestReadHandles : Bool)
    (requests : List ModelRequest) :
    Rewritten requests (compactObservedResults rounds latestReadHandles requests).1 :=
  rewritten_map (alike_replacedPart _) requests

theorem rewritten_compactContent (history : List (HistoryTurn Continuation)) (prompt : String)
    (requests : List ModelRequest) (rounds : List LiveRound) :
    Rewritten requests (compactContent history prompt requests rounds).1 := by
  have head : Rewritten (requests.take (currentPromptStart requests prompt))
      (if (compactHistory history).2 = true then
        compactNarration history (requests.take (currentPromptStart requests prompt))
      else requests.take (currentPromptStart requests prompt)) := by
    split
    · exact rewritten_map (alike_narrationPart history) _
    · exact .refl _
  have both := head.append (rewritten_compactObservedResults rounds false
    (requests.drop (currentPromptStart requests prompt)))
  rw [List.take_append_drop] at both
  exact both

theorem rewritten_compactLatestRead (measures : Measures) (requests : List ModelRequest)
    (rounds : List LiveRound) (prompt : String) :
    Rewritten requests (compactLatestRead measures requests rounds prompt).1 := by
  unfold compactLatestRead
  split
  · have both := (Rewritten.refl (requests.take (currentPromptStart requests prompt))).append
      (rewritten_compactObservedResults rounds true
        (requests.drop (currentPromptStart requests prompt)))
    rw [List.take_append_drop] at both
    exact both
  · exact .refl requests

end Contents

section Executions

/-- A request of one part. -/
def ModelRequestPart.alone (part : ModelRequestPart) : ModelRequest :=
  ⟨[part]⟩

theorem eq_map_alone {requests : List ModelRequest}
    (single : ∀ request ∈ requests, ∃ part, request.parts = [part]) :
    requests = (partsOf requests).map ModelRequestPart.alone := by
  induction requests with
  | nil => rfl
  | cons request requests ih =>
      rcases single request List.mem_cons_self with ⟨part, only⟩
      have rest := ih fun other member => single other (List.mem_cons_of_mem _ member)
      rcases request with ⟨parts⟩
      rw [show parts = [part] from only]
      change _ = ModelRequestPart.alone part :: (partsOf requests).map ModelRequestPart.alone
      rw [← rest]
      rfl

theorem partsOf_map_alone (parts : List ModelRequestPart) :
    partsOf (parts.map ModelRequestPart.alone) = parts := by
  simp [partsOf, List.flatMap_map, ModelRequestPart.alone]

/-- The one request that returns the call, by its place. -/
theorem returnPartner_eq_some {requests : List ModelRequest} {id name : String} {partner : Nat}
    (found : returnPartner requests id name = some partner) (place : Nat) (request : ModelRequest)
    (present : requests[place]? = some request)
    (returns : request.parts.any (ModelRequestPart.returns id) = true) : place = partner := by
  unfold returnPartner at found
  split at found
  · rename_i only index filtered
    have inside : (request, place) ∈ [(only, index)] := by
      rw [← filtered, List.mem_filter, List.mem_zipIdx_iff_getElem?]
      exact ⟨present, returns⟩
    rw [List.mem_singleton, Prod.mk.injEq] at inside
    split at found
    · split at found
      · exact inside.2.trans (Option.some.inj found)
      · cases found
    · cases found
  · cases found

/-- The partners of a response are those of its calls. -/
theorem partners_eq_some {requests : List ModelRequest} {index : Nat}
    {pieces : List ModelResponsePart} {group : List Nat}
    (found : partners requests index pieces = some group) :
    (∀ partner ∈ group, ∃ key ∈ pieces.filterMap ModelResponsePart.callKey, ∃ id,
      key.1 = some id ∧ returnPartner requests id key.2 = some partner) ∧
    ∀ key ∈ pieces.filterMap ModelResponsePart.callKey, ∃ partner ∈ group, ∃ id,
      key.1 = some id ∧ returnPartner requests id key.2 = some partner := by
  induction pieces generalizing group with
  | nil =>
      cases found
      simp
  | cons piece pieces ih =>
      cases piece with
      | text content phased => exact ih found
      | thinking content => exact ih found
      | file content => cases found
      | builtinToolCall toolName => cases found
      | toolCall call =>
          simp only [partners, Option.bind_eq_bind, Option.bind_eq_some_iff] at found
          rcases found with ⟨id, named, found⟩
          split at found
          · cases found
          · rcases Option.bind_eq_some_iff.mp found with ⟨partner, returned, found⟩
            split at found
            · cases found
            · simp only [Option.map_eq_map, Option.map_eq_some_iff] at found
              rcases found with ⟨rest, others, rfl⟩
              rcases ih others with ⟨places, calls⟩
              have own : (ModelResponsePart.toolCall call).callKey =
                  some (call.toolCallId, call.toolName) := rfl
              rw [List.filterMap_cons_some own]
              constructor
              · rintro place member
                rcases List.mem_cons.mp member with rfl | old
                · exact ⟨_, List.mem_cons_self, id, named, returned⟩
                · rcases places place old with ⟨key, inside, found⟩
                  exact ⟨key, List.mem_cons_of_mem _ inside, found⟩
              · rintro key member
                rcases List.mem_cons.mp member with rfl | old
                · exact ⟨partner, List.mem_cons_self, id, named, returned⟩
                · rcases calls key old with ⟨place, inside, found⟩
                  exact ⟨place, List.mem_cons_of_mem _ inside, found⟩

/-- A window of places is cut out of a list. -/
theorem filter_zipIdx_window {α : Type} {front window back : List α} {group : List Nat}
    (listed : ∀ index, index < (front ++ (window ++ back)).length →
      (index ∈ group ↔ front.length ≤ index ∧ index < front.length + window.length)) :
    ((front ++ (window ++ back)).zipIdx.filter fun item => item.2 ∉ group).map Prod.fst =
      front ++ back := by
  have inner : ∀ {items : List α} {start : Nat},
      (∀ index, start ≤ index → index < start + items.length → index ∉ group) →
      ((items.zipIdx start).filter fun item => item.2 ∉ group).map Prod.fst = items := by
    intro items start outside
    rw [List.filter_eq_self.mpr]
    · exact List.zipIdx_map_fst start items
    · rintro ⟨item, index⟩ member
      rcases List.mem_zipIdx member with ⟨least, most, _⟩
      exact decide_eq_true (outside index least most)
  simp only [List.length_append] at listed
  have before : ((front.zipIdx 0).filter fun item => item.2 ∉ group).map Prod.fst = front := by
    apply inner
    intro index _ most inside
    have bounds := (listed index (by omega)).mp inside
    omega
  have gone : (window.zipIdx (0 + front.length)).filter (fun item => item.2 ∉ group) = [] := by
    rw [List.filter_eq_nil_iff]
    rintro ⟨item, index⟩ member
    rcases List.mem_zipIdx member with ⟨least, most, _⟩
    simp only [decide_eq_true_eq, Decidable.not_not]
    exact (listed index (by omega)).mpr (by omega)
  have behind : ((back.zipIdx (0 + front.length + window.length)).filter fun item =>
      item.2 ∉ group).map Prod.fst = back := by
    apply inner
    intro index least most inside
    have bounds := (listed index (by omega)).mp inside
    omega
  rw [List.zipIdx_append, List.zipIdx_append, List.filter_append, List.filter_append,
    List.map_append, List.map_append, before, gone, behind]
  rfl

/-- An execution with its returns leaves the list, all of them in front of the
newest one. -/
theorem elideOldest_eq_some {measures : Measures} {requests shorter : List ModelRequest}
    {history : List (HistoryTurn Continuation)}
    (elided : elideOldest measures requests history = some shorter) :
    ∃ (boundary index : Nat) (response : ModelResponse) (group : List Nat),
      evidenceBoundary requests = some boundary ∧
      (∀ place ∈ index :: group, place < boundary) ∧
      requests[index]? = some (ModelRequestPart.modelResponse response).alone ∧
      partners requests index response.parts = some group ∧
      shorter = (requests.zipIdx.filter fun item => item.2 ∉ index :: group).map Prod.fst := by
  simp only [elideOldest, Option.bind_eq_bind, Option.bind_eq_some_iff, Option.some.injEq]
    at elided
  rcases elided with ⟨boundary, bounded, group, found, rfl⟩
  rcases List.exists_of_findSome?_eq_some found with ⟨index, below, elidable⟩
  simp only [Agent.elidable, Option.bind_eq_bind, Option.bind_eq_some_iff] at elidable
  rcases elidable with ⟨request, present, response, sole, elidable⟩
  split at elidable
  · rcases Option.bind_eq_some_iff.mp elidable with ⟨rest, partnered, chosen⟩
    split at chosen
    · rename_i allowed
      cases chosen
      rw [Bool.and_eq_true, List.all_eq_true] at allowed
      refine ⟨boundary, index, response, rest, bounded, ?_, ?_, partnered, rfl⟩
      · intro place member
        rcases List.mem_cons.mp member with rfl | old
        · exact List.mem_range.mp below
        · exact of_decide_eq_true (allowed.2 place old)
      · rw [present]
        unfold soleResponse at sole
        split at sole
        · rename_i other only
          cases sole
          rcases request with ⟨parts⟩
          exact congrArg (fun parts => some (ModelRequest.mk parts)) only
        · cases sole
    · cases chosen
  · cases elidable

/-- A response with the returns behind it. -/
def execution (response : ModelResponse) (returns : List ToolReturnPart) : List ModelRequestPart :=
  .modelResponse response :: returns.map .toolReturn

theorem length_execution (response : ModelResponse) (returns : List ToolReturnPart) :
    (execution response returns).length = returns.length + 1 := by
  simp [execution]

variable {before rest : List ModelRequestPart} {response : ModelResponse}
  {returns : List ToolReturnPart}

/-- A whole execution may leave the list. -/
theorem Formed.without {earlier own later : List String}
    (formed : Formed
      ((before ++ (execution response returns ++ rest)).map ModelRequestPart.alone))
    (first : Paired before earlier) (second : Paired rest later)
    (ids : callIds ((before ++ (execution response returns ++ rest)).map ModelRequestPart.alone) =
      earlier ++ (own ++ later)) :
    Formed ((before ++ rest).map ModelRequestPart.alone) := by
  have paired := first.append second
  have kept : callIds ((before ++ rest).map ModelRequestPart.alone) = earlier ++ later := by
    rw [callIds, partsOf_map_alone]
    exact paired.ids_eq.symm
  have named := formed.named
  rw [ids] at named
  refine ⟨⟨?_, ?_, ?_⟩, ?_⟩
  · intro request member
    rcases List.mem_map.mp member with ⟨part, _, rfl⟩
    exact ⟨part, rfl⟩
  · rw [kept, partsOf_map_alone]
    exact paired
  · intro id member
    rw [kept, List.mem_append] at member
    apply named id
    rcases member with old | new
    · exact List.mem_append_left _ old
    · exact List.mem_append_right _ (List.mem_append_right _ new)
  · rcases formed.headed with ⟨prompt, text, tail, split⟩
    -- The first two requests are no responses, so they stand before the execution.
    rcases before with _ | ⟨system, _ | ⟨user, before⟩⟩
    · rw [List.nil_append, execution, List.cons_append, List.map_cons, List.cons.injEq] at split
      cases split.1
    · rw [List.cons_append, List.nil_append, execution, List.cons_append, List.map_cons,
        List.map_cons, List.cons.injEq, List.cons.injEq] at split
      cases split.2.1
    · rw [List.cons_append, List.cons_append, List.map_cons, List.map_cons, List.cons.injEq,
        List.cons.injEq] at split
      refine ⟨prompt, text, (before ++ rest).map ModelRequestPart.alone, ?_⟩
      rw [← split.1, ← split.2.1]
      rfl

/-- The places of a response and its partners are those of its execution. -/
theorem mem_partners_iff {group : List Nat}
    (answered : (returns.map ToolReturnPart.key).Perm response.calls)
    (partnered : partners
      ((before ++ (execution response returns ++ rest)).map ModelRequestPart.alone) before.length
        response.parts = some group) (place : Nat) :
    place ∈ before.length :: group ↔
      before.length ≤ place ∧ place < before.length + (execution response returns).length := by
  rcases partners_eq_some partnered with ⟨places, calls⟩
  have placed : ∀ (offset : Nat) (part : ToolReturnPart), returns[offset]? = some part →
      ((before ++ (execution response returns ++ rest)).map
        ModelRequestPart.alone)[before.length + (offset + 1)]? =
          some (ModelRequestPart.toolReturn part).alone := by
    intro offset part found
    have inside := (List.getElem?_eq_some_iff.mp found).1
    rw [List.getElem?_map, List.getElem?_append_right (by omega), Nat.add_sub_cancel_left,
      execution, List.cons_append, List.getElem?_cons_succ,
      List.getElem?_append_left (by simpa using inside), List.getElem?_map, found]
    rfl
  have returning : ∀ (part : ToolReturnPart) (id : String), part.toolCallId = some id →
      (ModelRequestPart.toolReturn part).alone.parts.any (ModelRequestPart.returns id) = true := by
    intro part id named
    simp [ModelRequestPart.alone, ModelRequestPart.returns, named]
  rw [length_execution]
  constructor
  · intro member
    rcases List.mem_cons.mp member with rfl | listed
    · omega
    · rcases places place listed with ⟨key, present, id, named, partner⟩
      have asked : key ∈ returns.map ToolReturnPart.key := answered.mem_iff.mpr present
      rcases List.mem_map.mp asked with ⟨part, inside, rfl⟩
      rcases List.getElem?_of_mem inside with ⟨offset, there⟩
      have same := returnPartner_eq_some partner _ _ (placed offset part there)
        (returning part id named)
      have bound := (List.getElem?_eq_some_iff.mp there).1
      omega
  · rintro ⟨least, most⟩
    by_cases first : place = before.length
    · rw [first]
      exact List.mem_cons_self
    · have bound : place - before.length - 1 < returns.length := by omega
      have there : returns[place - before.length - 1]? =
          some (returns.get ⟨place - before.length - 1, bound⟩) := List.getElem?_eq_getElem bound
      generalize returns.get ⟨place - before.length - 1, bound⟩ = part at there
      have asked : part.key ∈ response.calls :=
        answered.mem_iff.mp (List.mem_map_of_mem (List.mem_of_getElem? there))
      rcases calls part.key asked with ⟨partner, listed, id, named, returned⟩
      have same := returnPartner_eq_some returned _ _ (placed _ part there)
        (returning part id named)
      rw [show place = partner by omega]
      exact List.mem_cons_of_mem _ listed

/-- What an elision takes out of a formed list is one whole execution in
front of the newest one. -/
theorem Formed.elideOldest_window {measures : Measures} {requests shorter : List ModelRequest}
    {history : List (HistoryTurn Continuation)} (formed : Formed requests)
    (elided : elideOldest measures requests history = some shorter) :
    ∃ (boundary : Nat) (before rest : List ModelRequestPart) (response : ModelResponse)
      (returns : List ToolReturnPart),
      requests = (before ++ (execution response returns ++ rest)).map ModelRequestPart.alone ∧
      shorter = (before ++ rest).map ModelRequestPart.alone ∧ Formed shorter ∧
      evidenceBoundary requests = some boundary ∧
      before.length + (execution response returns).length ≤ boundary := by
  rcases elideOldest_eq_some elided with
    ⟨boundary, index, response, group, bounded, below, present, partnered, rfl⟩
  have whole := eq_map_alone formed.single
  have paired := formed.paired
  generalize callIds requests = ids at paired
  rw [whole] at present partnered formed bounded ⊢
  generalize partsOf requests = parts at present partnered formed paired bounded
  rw [List.getElem?_map, Option.map_eq_some_iff] at present
  rcases present with ⟨part, here, same⟩
  cases same
  have inside := (List.getElem?_eq_some_iff.mp here).1
  have split : parts = parts.take index ++ .modelResponse response :: parts.drop (index + 1) := by
    rw [← (List.getElem?_eq_some_iff.mp here).2, List.getElem_cons_drop, List.take_append_drop]
  have length : (parts.take index).length = index := List.length_take_of_le (by omega)
  generalize parts.take index = before at split length
  generalize parts.drop (index + 1) = after at split
  subst split length
  have callsOf : callIds ((before ++ .modelResponse response :: after).map
      ModelRequestPart.alone) = ids := by
    rw [callIds, partsOf_map_alone]
    exact paired.ids_eq.symm
  rcases paired.split_response rfl with ⟨keys, returns, rest, earlier, later, rfl, _, answered,
    first, second, split⟩
  have placed := fun place => mem_partners_iff answered partnered place
  have window := @filter_zipIdx_window _ (before.map ModelRequestPart.alone)
    ((execution response returns).map ModelRequestPart.alone)
    (rest.map ModelRequestPart.alone) (before.length :: group) (by
      intro place _
      rw [List.length_map, List.length_map]
      exact placed place)
  rw [← List.map_append, ← List.map_append, ← List.map_append] at window
  have last := below (before.length + returns.length) ((placed _).mpr (by
    rw [length_execution]
    omega))
  refine ⟨boundary, before, rest, response, returns, rfl, window, ?_, bounded, ?_⟩
  · rw [← List.cons_append]
    exact window ▸ formed.without first second (callsOf.trans split)
  · rw [length_execution]
    omega

theorem Formed.elideOldest {measures : Measures} {requests shorter : List ModelRequest}
    {history : List (HistoryTurn Continuation)} (formed : Formed requests)
    (elided : elideOldest measures requests history = some shorter) : Formed shorter := by
  rcases formed.elideOldest_window elided with ⟨_, _, _, _, _, _, _, kept, _⟩
  exact kept

end Executions

section Head

theorem callIds_cons_plain {part : ModelRequestPart} {requests : List ModelRequest}
    (plain : part.IsPlain) : callIds (part.alone :: requests) = callIds requests := by
  change part.callIds ++ _ = _
  cases part <;> first | rfl | cases plain

/-- A plain request may stand behind the first two. -/
theorem Formed.insert {prompt text : String} {requests : List ModelRequest}
    {part : ModelRequestPart}
    (formed : Formed (systemRequest prompt :: userRequest text :: requests))
    (plain : part.IsPlain) :
    Formed (systemRequest prompt :: userRequest text :: part.alone :: requests) := by
  have ids : callIds (systemRequest prompt :: userRequest text :: part.alone :: requests) =
      callIds (systemRequest prompt :: userRequest text :: requests) := by
    change callIds (part.alone :: requests) = callIds requests
    exact callIds_cons_plain plain
  refine ⟨⟨?_, ?_, ?_⟩, prompt, text, _, rfl⟩
  · intro request member
    simp only [List.mem_cons] at member
    rcases member with rfl | rfl | rfl | old
    · exact ⟨_, rfl⟩
    · exact ⟨_, rfl⟩
    · exact ⟨_, rfl⟩
    · exact formed.single request (by simp [old])
  · rw [ids]
    cases formed.paired with
    | plain system paired =>
        cases paired with
        | plain user paired => exact .plain system (.plain user (.plain plain paired))
  · rw [ids]
    exact formed.named

/-- Plain parts may leave a paired list. -/
theorem Paired.filter_plain {parts : List ModelRequestPart} {ids : List String}
    {keep : ModelRequestPart → Bool} (paired : Paired parts ids)
    (kept : ∀ part, ¬ part.IsPlain → keep part = true) : Paired (parts.filter keep) ids := by
  induction paired with
  | nil => exact .nil
  | @plain part rest ids plain _ ih =>
      rw [List.filter_cons]
      split
      · exact .plain plain ih
      · exact ih
  | @exchange response keys returns rest ids calls answered _ ih =>
      have same : (returns.map ModelRequestPart.toolReturn).filter keep =
          returns.map ModelRequestPart.toolReturn := by
        rw [List.filter_eq_self]
        intro part member
        rcases List.mem_map.mp member with ⟨_, _, rfl⟩
        exact kept _ id
      rw [List.filter_cons_of_pos (kept (.modelResponse response) id), List.filter_append, same]
      exact .exchange calls answered ih

theorem partsOf_filter_alone (keep : ModelRequestPart → Bool) (parts : List ModelRequestPart) :
    (parts.map ModelRequestPart.alone).filter (fun request => request.parts.all keep) =
      (parts.filter keep).map ModelRequestPart.alone := by
  rw [List.filter_map]
  congr 1
  apply List.filter_congr
  intro part _
  simp [ModelRequestPart.alone]

theorem callIds_cons (request : ModelRequest) (requests : List ModelRequest) :
    callIds (request :: requests) =
      request.parts.flatMap ModelRequestPart.callIds ++ callIds requests := by
  simp [callIds, partsOf]

/-- A checkpoint head has no calls. -/
theorem callIds_unheaded {requests : List ModelRequest}
    (single : ∀ request ∈ requests, ∃ part, request.parts = [part]) :
    callIds (requests.filter fun request => !request.parts.any ModelRequestPart.isCheckpoint) =
      callIds requests := by
  induction requests with
  | nil => rfl
  | cons request requests ih =>
      have rest := ih fun other member => single other (List.mem_cons_of_mem _ member)
      rcases single request List.mem_cons_self with ⟨part, only⟩
      by_cases head : part.isCheckpoint = true
      · have silent : part.callIds = [] := by
          cases part <;> first | rfl | cases head
        rw [List.filter_cons_of_neg (by simp [only, head]), rest, callIds_cons, only,
          List.flatMap_singleton, silent, List.nil_append]
      · rw [List.filter_cons_of_pos (by simpa [only] using head), callIds_cons, callIds_cons, rest]

theorem callIds_checkpointHead {requests : List ModelRequest}
    (history : List (HistoryTurn Continuation))
    (single : ∀ request ∈ requests, ∃ part, request.parts = [part]) :
    callIds (checkpointHead history requests) = callIds requests := by
  have unheaded := callIds_unheaded single
  unfold checkpointHead
  generalize requests.filter (fun request => !request.parts.any ModelRequestPart.isCheckpoint) =
    kept at unheaded
  rw [callIds_append, callIds_cons, ← unheaded]
  conv_rhs => rw [← List.take_append_drop 2 kept, callIds_append]
  rfl

/-- A list without the checkpoint heads it had. -/
theorem Formed.unheaded {requests : List ModelRequest} (formed : Formed requests) :
    Formed (requests.filter fun request => !request.parts.any ModelRequestPart.isCheckpoint) := by
  have whole := eq_map_alone formed.single
  have kept : requests.filter (fun request => !request.parts.any ModelRequestPart.isCheckpoint) =
      ((partsOf requests).filter fun part => !part.isCheckpoint).map ModelRequestPart.alone := by
    rw [← partsOf_filter_alone, ← whole]
    apply List.filter_congr
    intro request _
    rw [List.any_eq_not_all_not, Bool.not_not]
  have ids := callIds_unheaded formed.single
  refine ⟨⟨?_, ?_, ?_⟩, ?_⟩
  · intro request member
    exact formed.single request (List.mem_of_mem_filter member)
  · rw [ids, kept, partsOf_map_alone]
    apply formed.paired.filter_plain
    intro part shown
    cases part <;> first | rfl | exact absurd trivial shown
  · rw [ids]
    exact formed.named
  · rcases formed.headed with ⟨prompt, text, rest, rfl⟩
    exact ⟨prompt, text, rest.filter fun request =>
      !request.parts.any ModelRequestPart.isCheckpoint, rfl⟩

theorem Formed.checkpointHead {requests : List ModelRequest} (formed : Formed requests)
    (history : List (HistoryTurn Continuation)) : Formed (checkpointHead history requests) := by
  have unheaded := formed.unheaded
  rcases unheaded.headed with ⟨prompt, text, rest, split⟩
  rw [split] at unheaded
  unfold Agent.checkpointHead
  rw [split]
  exact @Formed.insert prompt text rest
    (.systemPrompt (checkpointText history) (some checkpointRef)) unheaded trivial

end Head

section Passes

/-- A pass over a list: its contents change in place, or an execution leaves it. -/
inductive Pass (measures : Measures) (history : List (HistoryTurn Continuation)) (prompt : String)
    (rounds : List LiveRound) : List ModelRequest → List ModelRequest → Prop where
  | content (requests : List ModelRequest) :
      Pass measures history prompt rounds requests (compactContent history prompt requests rounds).1
  | elided {requests shorter : List ModelRequest}
      (elided : elideOldest measures requests history = some shorter) :
      Pass measures history prompt rounds requests shorter
  | latestRead (requests : List ModelRequest) :
      Pass measures history prompt rounds requests
        (compactLatestRead measures requests rounds prompt).1

variable {measures : Measures} {history cleared : List (HistoryTurn Continuation)}
  {prompt : String} {rounds : List LiveRound} {requests others reduced : List ModelRequest}

theorem passes_elideWhileExceeded (steps : Nat) (requests : List ModelRequest) :
    Relation.ReflTransGen (Pass measures history prompt rounds) requests
      (elideWhileExceeded measures history steps requests) := by
  induction steps generalizing requests with
  | zero => exact .refl
  | succ steps ih =>
      unfold elideWhileExceeded
      split
      · split
        · exact .refl
        · rename_i shorter elided
          exact .head (.elided elided) (ih shorter)
      · exact .refl

/-- A recovery makes passes, sets the head once, and makes passes again. -/
theorem passes_compactProviderContext
    (compacted : compactProviderContext measures history prompt requests rounds =
      some (cleared, reduced)) :
    ∃ chosen, Relation.ReflTransGen (Pass measures history prompt rounds) requests chosen ∧
      Relation.ReflTransGen (Pass measures history prompt rounds) (checkpointHead history chosen)
        reduced := by
  have content : Relation.ReflTransGen (Pass measures history prompt rounds) requests
      (compactContent history prompt requests rounds).1 := .single (.content requests)
  have once : Relation.ReflTransGen (Pass measures history prompt rounds) requests
      (elideOnce measures history (compactContent history prompt requests rounds)).1 := by
    unfold elideOnce
    split
    · split
      · rename_i shorter elided
        exact content.tail (.elided elided)
      · exact content
    · exact content
  simp only [compactProviderContext] at compacted
  generalize elideOnce measures history (compactContent history prompt requests rounds) = first
    at compacted once
  have second : Relation.ReflTransGen (Pass measures history prompt rounds) requests
      (if first.2 = true then first
        else compactLatestRead measures first.1 rounds prompt).1 := by
    split
    · exact once
    · exact once.tail (.latestRead first.1)
  generalize (if first.2 = true then first
      else compactLatestRead measures first.1 rounds prompt) = chosen at compacted second
  split at compacted
  · split at compacted
    · cases compacted
      exact ⟨chosen.1, second, (passes_elideWhileExceeded _ _).tail (.latestRead _)⟩
    · cases compacted
  · cases compacted

theorem Formed.pass (formed : Formed requests)
    (pass : Pass measures history prompt rounds requests others) : Formed others := by
  cases pass with
  | content => exact formed.rewritten (rewritten_compactContent history prompt requests rounds)
  | elided elided => exact formed.elideOldest elided
  | latestRead =>
      exact formed.rewritten (rewritten_compactLatestRead measures requests rounds prompt)

theorem Formed.passes (formed : Formed requests)
    (passes : Relation.ReflTransGen (Pass measures history prompt rounds) requests others) :
    Formed others := by
  induction passes with
  | refl => exact formed
  | tail _ pass ih => exact ih.pass pass

/-- A committed recovery leaves a formed list formed. -/
theorem Formed.compactProviderContext (formed : Formed requests)
    (compacted : compactProviderContext measures history prompt requests rounds =
      some (cleared, reduced)) : Formed reduced := by
  rcases passes_compactProviderContext compacted with ⟨chosen, before, behind⟩
  exact ((formed.passes before).checkpointHead history).passes behind

end Passes

end Llxprt.Agent
