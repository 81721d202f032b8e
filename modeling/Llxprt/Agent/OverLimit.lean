import Llxprt.Agent.Elision
import Llxprt.Rust.Elementwise

/-!
# What a recovery keeps

A recovery clears narration, puts recorded projections in the place of live
results, elides old executions and sets one checkpoint head.  The list stays legal,
and what is left of it stands in the order it had.
-/

namespace Llxprt.Agent

open Llxprt.Kernel Llxprt.Rust Llxprt.Gateway Llxprt.Log

section Contents

variable (history : List (HistoryTurn Continuation)) (rounds : List LiveRound)

/-- A piece of a response as it was, or a covered text without its content. -/
inductive ModelResponsePart.Kept (piece : ModelResponsePart) : ModelResponsePart → Prop where
  | same : piece.Kept piece
  | cleared {content : String} {phased : Bool} (text : piece = .text content phased)
      (covered : isCovered history content = true) : piece.Kept (.text "" phased)

/-- A part as it was, a response with cleared texts, or the return of a call with
the recorded projection of a call of the same identifier. -/
inductive ModelRequestPart.Faithful (part : ModelRequestPart) : ModelRequestPart → Prop where
  | same : part.Faithful part
  | response {response : ModelResponse} {pieces : List ModelResponsePart}
      (here : part = .modelResponse response)
      (kept : List.Forall₂ (ModelResponsePart.Kept history) response.parts pieces) :
      part.Faithful (.modelResponse { response with parts := pieces })
  | projected {returned : ToolReturnPart} {round : LiveRound} {call : LiveCall}
      (here : part = .toolReturn returned) (listed : round ∈ rounds) (recorded : call ∈ round.calls)
      (named : returned.toolCallId = some call.record.id) :
      part.Faithful (.toolReturn { returned with
        content := if call.record.ok then .text call.record.result else .error call.record.result })

/-- The parts of a request, one by one. -/
def ModelRequest.Faithful (request other : ModelRequest) : Prop :=
  List.Forall₂ (ModelRequestPart.Faithful history rounds) request.parts other.parts

variable {history rounds}

theorem ModelResponsePart.Kept.trans {piece other last : ModelResponsePart}
    (first : piece.Kept history other) (second : other.Kept history last) :
    piece.Kept history last := by
  cases second with
  | same => exact first
  | cleared text covered =>
      cases first with
      | same => exact .cleared text covered
      | cleared earlier hidden =>
          cases text
          exact .cleared earlier hidden

theorem ModelRequestPart.Faithful.trans {part other last : ModelRequestPart}
    (first : part.Faithful history rounds other) (second : other.Faithful history rounds last) :
    part.Faithful history rounds last := by
  cases second with
  | same => exact first
  | @response response pieces here kept =>
      cases first with
      | same => exact .response here kept
      | @response earlier middle before old =>
          cases here
          exact @ModelRequestPart.Faithful.response history rounds part earlier pieces before
            (forall₂_trans ModelResponsePart.Kept.trans old kept)
      | projected before => cases here
  | @projected _ round call here listed recorded named =>
      cases first with
      | same => exact .projected here listed recorded named
      | response before => cases here
      | @projected returned _ _ before _ _ _ =>
          cases here
          exact @ModelRequestPart.Faithful.projected history rounds part returned round call before
            listed recorded named

theorem ModelRequest.Faithful.refl (request : ModelRequest) :
    request.Faithful history rounds request :=
  List.forall₂_same.mpr fun _ _ => .same

instance : Std.Refl fun other request : ModelRequest => request.Faithful history rounds other :=
  ⟨ModelRequest.Faithful.refl⟩

theorem ModelRequest.Faithful.trans {request other last : ModelRequest}
    (first : request.Faithful history rounds other) (second : other.Faithful history rounds last) :
    request.Faithful history rounds last :=
  forall₂_trans ModelRequestPart.Faithful.trans first second

theorem faithful_narrationPart (part : ModelRequestPart) :
    part.Faithful history rounds (narrationPart history part) := by
  cases part with
  | modelResponse response =>
      apply ModelRequestPart.Faithful.response rfl
      apply List.forall₂_map_right_iff.mpr
      apply List.forall₂_same.mpr
      intro piece _
      cases piece with
      | text content phased =>
          simp only [narrationPiece]
          split
          · rename_i covered
            exact .cleared rfl covered
          · exact .same
      | _ => exact .same
  | _ => exact .same

theorem observedCall_eq_some {latestReadHandles : Bool} {id : Option String} {call : LiveCall}
    (found : observedCall (observedCalls rounds latestReadHandles) id = some call) :
    id = some call.record.id ∧ ∃ round ∈ rounds, call ∈ round.calls := by
  rw [observedCall] at found
  have named := List.find?_some found
  rw [decide_eq_true_eq] at named
  have listed := List.mem_reverse.mp (List.mem_of_find?_eq_some found)
  rcases List.mem_flatMap.mp listed with ⟨⟨round, index⟩, chosen, inside⟩
  have present := List.mem_zipIdx_iff_getElem?.mp (List.mem_of_mem_filter chosen)
  exact ⟨named, round, List.mem_of_getElem? present, List.mem_of_mem_filter inside⟩

theorem faithful_replacedPart (latestReadHandles : Bool) (part : ModelRequestPart) :
    part.Faithful history rounds (replacedPart (observedCalls rounds latestReadHandles) part) := by
  cases part with
  | toolReturn returned =>
      simp only [replacedPart, replacedReturn]
      split
      · exact .same
      · rename_i call found
        rcases observedCall_eq_some found with ⟨named, round, listed, recorded⟩
        exact .projected rfl listed recorded named
  | _ => exact .same

/-- What is looked at to place a part. -/
theorem ModelRequestPart.Faithful.alike {part other : ModelRequestPart}
    (faithful : part.Faithful history rounds other) : part.Alike other := by
  cases faithful with
  | same => exact .refl part
  | @response response pieces here kept =>
      subst here
      refine ⟨?_, False.elim⟩
      have same : pieces.filterMap ModelResponsePart.callKey =
          response.parts.filterMap ModelResponsePart.callKey := by
        generalize response.parts = parts at kept ⊢
        induction kept with
        | nil => rfl
        | @cons piece other _ _ first _ ih =>
            have key : other.callKey = piece.callKey := by
              cases first with
              | same => rfl
              | cleared text covered => rw [text]; rfl
            rw [List.filterMap_cons, List.filterMap_cons, key, ih]
      exact congrArg Shape.response same
  | projected here listed recorded named =>
      subst here
      exact ⟨rfl, False.elim⟩

end Contents

section Latest

def ModelRequest.calls (request : ModelRequest) : Bool :=
  request.parts.any ModelRequestPart.hasCalls

def ModelRequest.responds (request : ModelRequest) : Bool :=
  request.parts.any ModelRequestPart.isResponse

/-- The newest execution and everything behind it. -/
def latest (requests : List ModelRequest) : List ModelRequest :=
  match evidenceBoundary requests with
  | some boundary => requests.drop boundary
  | none => []

theorem filter_zipIdx_missed {α : Type} {test : α → Bool} {items : List α} {start : Nat}
    (missed : ∀ item ∈ items, test item = false) :
    (items.zipIdx start).filter (fun pair => test pair.1) = [] := by
  rw [List.filter_eq_nil_iff]
  intro pair member
  rw [missed pair.1 (List.fst_mem_of_mem_zipIdx member)]
  exact Bool.false_ne_true

theorem rposition_of_last {α : Type} {test : α → Bool} {front later : List α} {item : α}
    (hit : test item = true) (missed : ∀ other ∈ later, test other = false) :
    rposition test (front ++ item :: later) = some front.length := by
  have here : List.filter (fun pair => test pair.1) ((item :: later).zipIdx (0 + front.length)) =
      [(item, front.length)] := by
    rw [List.zipIdx_cons, List.filter_cons, if_pos hit, filter_zipIdx_missed missed,
      Nat.zero_add]
  rw [rposition, List.zipIdx_append, List.filter_append, here, List.getLast?_concat]
  rfl

theorem rposition_eq_none {α : Type} {test : α → Bool} {items : List α}
    (missed : ∀ item ∈ items, test item = false) : rposition test items = none := by
  rw [rposition, filter_zipIdx_missed missed]
  rfl

/-- The last element that passes the test, if any does. -/
theorem exists_last {α : Type} (test : α → Bool) (items : List α) :
    (∀ item ∈ items, test item = false) ∨
    ∃ front item later, items = front ++ item :: later ∧ test item = true ∧
      ∀ other ∈ later, test other = false := by
  induction items using List.reverseRecOn with
  | nil => exact .inl fun _ member => absurd member List.not_mem_nil
  | append_singleton items last ih =>
      by_cases hit : test last = true
      · exact .inr ⟨items, last, [], rfl, hit, fun _ member => absurd member List.not_mem_nil⟩
      · rw [Bool.not_eq_true] at hit
        rcases ih with none | ⟨front, item, later, rfl, passed, missed⟩
        · left
          intro item member
          rcases List.mem_append.mp member with old | new
          · exact none item old
          · rw [List.mem_singleton.mp new]
            exact hit
        · right
          refine ⟨front, item, later ++ [last], by simp, passed, ?_⟩
          intro other member
          rcases List.mem_append.mp member with old | new
          · exact missed other old
          · rw [List.mem_singleton.mp new]
            exact hit

/-- The end of a list from its newest execution on, behind the front: from the last
response with calls, or from the last response when none has calls. -/
inductive Newest : List ModelRequest → List ModelRequest → Prop where
  | calls {front later : List ModelRequest} {item : ModelRequest} (hit : item.calls = true)
      (missed : ∀ other ∈ later, other.calls = false) : Newest front (item :: later)
  | responds {front later : List ModelRequest} {item : ModelRequest}
      (silent : ∀ other ∈ front ++ item :: later, other.calls = false)
      (hit : item.responds = true) (missed : ∀ other ∈ later, other.responds = false) :
      Newest front (item :: later)
  | absent {front : List ModelRequest} (silent : ∀ other ∈ front, other.calls = false)
      (quiet : ∀ other ∈ front, other.responds = false) : Newest front []

theorem exists_newest (requests : List ModelRequest) :
    ∃ front tail, requests = front ++ tail ∧ Newest front tail := by
  rcases exists_last ModelRequest.calls requests with silent |
    ⟨front, item, later, split, hit, missed⟩
  · rcases exists_last ModelRequest.responds requests with quiet |
      ⟨front, item, later, rfl, hit, missed⟩
    · exact ⟨requests, [], (List.append_nil _).symm, .absent silent quiet⟩
    · exact ⟨front, item :: later, rfl, .responds silent hit missed⟩
  · exact ⟨front, item :: later, split, .calls hit missed⟩

theorem Newest.head {front tail later : List ModelRequest} {item : ModelRequest}
    (newest : Newest front tail) (split : tail = item :: later) :
    item.calls = true ∨ item.responds = true := by
  cases newest with
  | calls hit missed =>
      cases split
      exact .inl hit
  | responds silent hit missed =>
      cases split
      exact .inr hit
  | absent => cases split

/-- The boundary of the evidence is where the newest execution starts. -/
theorem Newest.boundary {front tail : List ModelRequest} (newest : Newest front tail) :
    evidenceBoundary (front ++ tail) = if tail = [] then none else some front.length := by
  cases newest with
  | @calls later item hit missed =>
      have found : rposition (fun request : ModelRequest =>
          request.parts.any ModelRequestPart.hasCalls) (front ++ item :: later) =
            some front.length := rposition_of_last hit missed
      rw [evidenceBoundary, found]
      rfl
  | @responds later item silent hit missed =>
      have absent : rposition (fun request : ModelRequest =>
          request.parts.any ModelRequestPart.hasCalls) (front ++ item :: later) = none :=
        rposition_eq_none silent
      have found : rposition (fun request : ModelRequest =>
          request.parts.any ModelRequestPart.isResponse) (front ++ item :: later) =
            some front.length := rposition_of_last hit missed
      rw [evidenceBoundary, absent, found]
      rfl
  | absent silent quiet =>
      have absent : rposition (fun request : ModelRequest =>
          request.parts.any ModelRequestPart.hasCalls) front = none :=
        rposition_eq_none silent
      have missing : rposition (fun request : ModelRequest =>
          request.parts.any ModelRequestPart.isResponse) front = none :=
        rposition_eq_none quiet
      rw [List.append_nil, evidenceBoundary, absent, missing]
      rfl

theorem Newest.latest {front tail : List ModelRequest} (newest : Newest front tail) :
    latest (front ++ tail) = tail := by
  rw [Agent.latest, newest.boundary]
  by_cases empty : tail = []
  · rw [if_pos empty, empty]
  · rw [if_neg empty]
    exact List.drop_left

/-- Nothing but what stands in front of the newest execution has changed. -/
theorem Newest.mono {front other tail : List ModelRequest} (newest : Newest front tail)
    (within : ∀ request ∈ other, request ∈ front) : Newest other tail := by
  cases newest with
  | calls hit missed => exact .calls hit missed
  | responds silent hit missed =>
      refine .responds ?_ hit missed
      intro request member
      apply silent
      rcases List.mem_append.mp member with old | new
      · exact List.mem_append_left _ (within request old)
      · exact List.mem_append_right _ new
  | absent silent quiet =>
      exact .absent (fun request member => silent request (within request member))
        fun request member => quiet request (within request member)

end Latest

section Stages

variable {history : List (HistoryTurn Continuation)} {rounds : List LiveRound}
  {request other : ModelRequest} {requests others last : List ModelRequest}

def ModelRequestPart.plain : ModelRequestPart → Bool
  | .modelResponse _ | .toolReturn _ => false
  | _ => true

/-- Neither a response nor the return of a call. -/
def ModelRequest.plain (request : ModelRequest) : Bool :=
  request.parts.all ModelRequestPart.plain

def ModelRequest.isCheckpoint (request : ModelRequest) : Bool :=
  request.parts.any ModelRequestPart.isCheckpoint

/-- How a part is told apart is seen from its shape. -/
theorem tests_of_shape {part next : ModelRequestPart} (same : next.shape = part.shape) :
    next.plain = part.plain ∧ next.hasCalls = part.hasCalls ∧ next.isResponse = part.isResponse := by
  cases part <;> cases next <;> first
    | exact ⟨rfl, rfl, rfl⟩
    | cases same
    | (rename_i first second
       have calls : second.calls = first.calls := Shape.response.inj same
       refine ⟨rfl, ?_, rfl⟩
       simp only [ModelRequestPart.hasCalls, calls])

theorem ModelRequest.Faithful.all {test : ModelRequestPart → Bool}
    (respects : ∀ part next : ModelRequestPart, next.shape = part.shape → test next = test part)
    (faithful : request.Faithful history rounds other) :
    other.parts.all test = request.parts.all test ∧ other.parts.any test = request.parts.any test := by
  have listed : ∀ {parts nexts : List ModelRequestPart},
      List.Forall₂ (ModelRequestPart.Faithful history rounds) parts nexts →
      nexts.all test = parts.all test ∧ nexts.any test = parts.any test := by
    intro parts nexts related
    induction related with
    | nil => exact ⟨rfl, rfl⟩
    | @cons part next _ _ first _ ih =>
        have same := respects part next first.alike.shape
        rw [List.all_cons, List.all_cons, List.any_cons, List.any_cons, same, ih.1, ih.2]
        exact ⟨rfl, rfl⟩
  exact listed faithful

theorem ModelRequest.Faithful.plain (faithful : request.Faithful history rounds other) :
    request.plain = other.plain :=
  (faithful.all fun _ _ same => (tests_of_shape same).1).1.symm

theorem ModelRequest.Faithful.calls (faithful : request.Faithful history rounds other) :
    request.calls = other.calls :=
  (faithful.all fun _ _ same => (tests_of_shape same).2.1).2.symm

theorem ModelRequest.Faithful.responds (faithful : request.Faithful history rounds other) :
    request.responds = other.responds :=
  (faithful.all fun _ _ same => (tests_of_shape same).2.2).2.symm

theorem ModelRequest.Faithful.isCheckpoint (faithful : request.Faithful history rounds other) :
    request.isCheckpoint = other.isCheckpoint := by
  have listed : ∀ {parts nexts : List ModelRequestPart},
      List.Forall₂ (ModelRequestPart.Faithful history rounds) parts nexts →
      nexts.any ModelRequestPart.isCheckpoint = parts.any ModelRequestPart.isCheckpoint := by
    intro parts nexts related
    induction related with
    | nil => rfl
    | @cons part next _ _ first _ ih =>
        have same : next.isCheckpoint = part.isCheckpoint := by
          cases first with
          | same => rfl
          | response here => rw [here]; rfl
          | projected here => rw [here]; rfl
        rw [List.any_cons, List.any_cons, same, ih]
  exact (listed faithful).symm

/-- A prompt stays as it was. -/
theorem ModelRequest.Faithful.eq_of_plain (faithful : request.Faithful history rounds other)
    (isPlain : request.plain = true) : other = request := by
  have listed : ∀ {parts nexts : List ModelRequestPart},
      List.Forall₂ (ModelRequestPart.Faithful history rounds) parts nexts →
      parts.all ModelRequestPart.plain = true → nexts = parts := by
    intro parts nexts related isPlain
    induction related with
    | nil => rfl
    | @cons part next _ _ first _ ih =>
        rw [List.all_cons, Bool.and_eq_true] at isPlain
        have same : next = part := by
          cases first with
          | same => rfl
          | response here => rw [here] at isPlain; cases isPlain.1
          | projected here => rw [here] at isPlain; cases isPlain.1
        rw [same, ih isPlain.2]
  rcases request with ⟨parts⟩
  rcases other with ⟨nexts⟩
  exact congrArg ModelRequest.mk (listed faithful isPlain)

/-- What a stage of a recovery leaves: requests in their order with their prompts,
the front of the list and the newest execution. -/
structure Shortened (history : List (HistoryTurn Continuation)) (rounds : List LiveRound)
    (requests others : List ModelRequest) : Prop where
  kept : List.SublistForall₂ (fun other request : ModelRequest =>
    request.Faithful history rounds other) others requests
  plain : others.filter ModelRequest.plain = requests.filter ModelRequest.plain
  front : ∀ front : List ModelRequest, (∀ request ∈ front, request.plain = true) →
    front <+: requests → front <+: others
  latest : List.Forall₂ (ModelRequest.Faithful history rounds) (latest requests) (latest others)
  ids : (callIds others).Sublist (callIds requests)

theorem Shortened.refl (requests : List ModelRequest) : Shortened history rounds requests requests
    where
  kept := (List.Sublist.refl requests).sublistForall₂
  plain := rfl
  front _ _ isPrefix := isPrefix
  latest := List.forall₂_same.mpr fun request _ => .refl request
  ids := .refl _

theorem Shortened.trans (first : Shortened history rounds requests others)
    (second : Shortened history rounds others last) : Shortened history rounds requests last where
  kept := sublistForall₂_trans (fun one two => ModelRequest.Faithful.trans two one) second.kept
    first.kept
  plain := second.plain.trans first.plain
  front front isPlain isPrefix := second.front front isPlain (first.front front isPlain isPrefix)
  latest := forall₂_trans ModelRequest.Faithful.trans first.latest second.latest
  ids := second.ids.trans first.ids

theorem shapes_of_faithful
    (faithful : List.Forall₂ (ModelRequest.Faithful history rounds) requests others) :
    (partsOf others).map ModelRequestPart.shape = (partsOf requests).map ModelRequestPart.shape := by
  induction faithful with
  | nil => rfl
  | @cons request other _ _ first _ ih =>
      have first : List.Forall₂ (ModelRequestPart.Faithful history rounds) request.parts
          other.parts := first
      have same := shapes_eq_of_alike (first.imp fun _ _ one => one.alike)
      simp only [partsOf, List.flatMap_cons, List.map_append] at ih ⊢
      rw [same, ih]

/-- A change in place. -/
theorem shortened_of_faithful
    (faithful : List.Forall₂ (ModelRequest.Faithful history rounds) requests others) :
    Shortened history rounds requests others where
  kept := sublistForall₂_of_forall₂ faithful.flip
  plain := filter_eq_of_forall₂ (fun _ _ => ModelRequest.Faithful.plain)
    (fun _ _ => ModelRequest.Faithful.eq_of_plain) faithful
  front := by
    rintro front isPlain ⟨rest, rfl⟩
    have one : List.Forall₂ (ModelRequest.Faithful history rounds) front
        (others.take front.length) :=
      (List.forall₂_take_append others front rest faithful.flip).flip
    have whole := List.take_append_drop front.length others
    generalize others.take front.length = first at one whole
    have same : first = front := by
      clear faithful whole
      induction one with
      | nil => rfl
      | @cons head next _ _ same _ ih =>
          rw [same.eq_of_plain (isPlain head List.mem_cons_self),
            ih fun other member => isPlain other (List.mem_cons_of_mem _ member)]
    rw [← whole, same]
    exact List.prefix_append front _
  latest := by
    rcases exists_newest requests with ⟨front, tail, rfl, newest⟩
    have one : List.Forall₂ (ModelRequest.Faithful history rounds) front
        (others.take front.length) :=
      (List.forall₂_take_append others front tail faithful.flip).flip
    have two : List.Forall₂ (ModelRequest.Faithful history rounds) tail
        (others.drop front.length) :=
      (List.forall₂_drop_append others front tail faithful.flip).flip
    have whole := List.take_append_drop front.length others
    generalize others.take front.length = first at one whole
    generalize others.drop front.length = second at two whole
    subst whole
    have calls := fun (items nexts : List ModelRequest) related missed =>
      @forall₂_missed _ (ModelRequest.Faithful history rounds) items nexts ModelRequest.calls
        (fun _ _ => ModelRequest.Faithful.calls) related missed
    have responds := fun (items nexts : List ModelRequest) related missed =>
      @forall₂_missed _ (ModelRequest.Faithful history rounds) items nexts ModelRequest.responds
        (fun _ _ => ModelRequest.Faithful.responds) related missed
    have same : Newest first second := by
      cases newest with
      | calls hit missed =>
          rcases List.forall₂_cons_left_iff.mp two with ⟨next, later, head, rest, rfl⟩
          exact .calls (head.calls ▸ hit) (calls _ _ rest missed)
      | responds silent hit missed =>
          rcases List.forall₂_cons_left_iff.mp two with ⟨next, later, head, rest, rfl⟩
          exact .responds (calls _ _ faithful silent) (head.responds ▸ hit)
            (responds _ _ rest missed)
      | absent silent quiet =>
          rw [List.forall₂_nil_left_iff.mp two]
          exact .absent (calls _ _ one silent) (responds _ _ one quiet)
    rw [newest.latest, same.latest]
    exact two
  ids := callIds_of_shapes (shapes_of_faithful faithful) ▸ .refl _

theorem alone_plain (part : ModelRequestPart) : part.alone.plain = part.plain := by
  simp [ModelRequest.plain, ModelRequestPart.alone]

/-- An elision takes nothing but responses and returns, all of them in front of the
newest execution. -/
theorem Formed.shortened_elideOldest {measures : Measures}
    {turns : List (HistoryTurn Continuation)} (formed : Formed requests)
    (elided : Agent.elideOldest measures requests turns = some others) :
    Shortened history rounds requests others := by
  rcases formed.elideOldest_window elided with
    ⟨boundary, before, rest, response, returns, split, shorter, _, bounded, below⟩
  have gone : ((execution response returns).map ModelRequestPart.alone).filter
      ModelRequest.plain = [] := by
    rw [List.filter_eq_nil_iff]
    intro request member
    rcases List.mem_map.mp member with ⟨part, inside, rfl⟩
    rw [alone_plain]
    rcases List.mem_cons.mp inside with rfl | returned
    · exact Bool.false_ne_true
    · rcases List.mem_map.mp returned with ⟨other, _, rfl⟩
      exact Bool.false_ne_true
  rw [List.map_append, List.map_append] at split
  rw [List.map_append] at shorter
  constructor
  · rw [split, shorter]
    exact ((List.sublist_append_right _ _).append_left _).sublistForall₂
  · rw [split, shorter, List.filter_append, List.filter_append, List.filter_append, gone,
      List.nil_append]
  · intro front isPlain isPrefix
    rw [split] at isPrefix
    rw [shorter]
    rcases isPrefix with ⟨behind, whole⟩
    rcases List.append_eq_append_iff.mp whole with ⟨more, same, _⟩ | ⟨more, same, cut⟩
    · rw [same, List.append_assoc]
      exact List.prefix_append _ _
    · cases more with
      | nil =>
          rw [same, List.append_nil]
          exact List.prefix_append _ _
      | cons request more =>
          -- The first request that leaves is a response, so no prompt.
          have first : request = (ModelRequestPart.modelResponse response).alone := by
            rw [execution, List.map_cons, List.cons_append, List.cons_append,
              List.cons.injEq] at cut
            exact cut.1.symm
          have shown := isPlain request (by rw [same]; simp)
          rw [first] at shown
          cases shown
  · rcases exists_newest requests with ⟨front, tail, whole, newest⟩
    have where_ := newest.boundary
    rw [← whole, bounded] at where_
    split at where_
    · cases where_
    · rw [Option.some.injEq] at where_
      have cut : before.map ModelRequestPart.alone ++
          (execution response returns).map ModelRequestPart.alone <+: front := by
        apply @List.prefix_of_prefix_length_le _ _ _ requests
        · rw [split, ← List.append_assoc]
          exact List.prefix_append _ _
        · rw [whole]
          exact List.prefix_append _ _
        · rw [List.length_append, List.length_map, List.length_map, ← where_]
          exact below
      rcases cut with ⟨middle, rfl⟩
      rw [split, List.append_assoc, List.append_assoc, List.append_cancel_left_eq,
        List.append_cancel_left_eq] at whole
      have kept : Newest (before.map ModelRequestPart.alone ++ middle) tail := by
        apply newest.mono
        intro request member
        simp only [List.mem_append] at member ⊢
        tauto
      rw [shorter, whole, ← List.append_assoc, kept.latest, split, whole]
      have same := newest.latest
      rw [List.append_assoc, List.append_assoc] at same
      rw [same]
      exact List.forall₂_same.mpr fun request _ => .refl request
  · rw [split, shorter, callIds_append, callIds_append, callIds_append]
    exact (List.sublist_append_right _ _).append_left _

theorem faithful_compactObservedResults (latestReadHandles : Bool) (requests : List ModelRequest) :
    List.Forall₂ (ModelRequest.Faithful history rounds) requests
      (compactObservedResults rounds latestReadHandles requests).1 := by
  apply List.forall₂_map_right_iff.mpr
  apply List.forall₂_same.mpr
  intro request _
  apply List.forall₂_map_right_iff.mpr
  apply List.forall₂_same.mpr
  intro part _
  exact faithful_replacedPart latestReadHandles part

theorem faithful_take_drop {changed : List ModelRequest} {tail : List ModelRequest} {place : Nat}
    (front : List.Forall₂ (ModelRequest.Faithful history rounds) (requests.take place) changed)
    (back : List.Forall₂ (ModelRequest.Faithful history rounds) (requests.drop place) tail) :
    List.Forall₂ (ModelRequest.Faithful history rounds) requests (changed ++ tail) := by
  have both : List.Forall₂ (ModelRequest.Faithful history rounds)
      (requests.take place ++ requests.drop place) (changed ++ tail) := List.rel_append front back
  rw [List.take_append_drop] at both
  exact both

theorem faithful_compactContent (prompt : String) (requests : List ModelRequest) :
    List.Forall₂ (ModelRequest.Faithful history rounds) requests
      (compactContent history prompt requests rounds).1 := by
  apply faithful_take_drop _ (faithful_compactObservedResults false _)
  split
  · apply List.forall₂_map_right_iff.mpr
    apply List.forall₂_same.mpr
    intro request _
    apply List.forall₂_map_right_iff.mpr
    apply List.forall₂_same.mpr
    intro part _
    exact faithful_narrationPart part
  · exact List.forall₂_same.mpr fun request _ => .refl request

theorem faithful_compactLatestRead (measures : Measures) (requests : List ModelRequest)
    (prompt : String) : List.Forall₂ (ModelRequest.Faithful history rounds) requests
      (compactLatestRead measures requests rounds prompt).1 := by
  unfold compactLatestRead
  split
  · apply faithful_take_drop _ (faithful_compactObservedResults true _)
    exact List.forall₂_same.mpr fun request _ => .refl request
  · exact List.forall₂_same.mpr fun request _ => .refl request

theorem Formed.shortened_pass {measures : Measures} {prompt : String} (formed : Formed requests)
    (pass : Pass measures history prompt rounds requests others) :
    Shortened history rounds requests others := by
  cases pass with
  | content => exact shortened_of_faithful (faithful_compactContent prompt requests)
  | elided elided => exact formed.shortened_elideOldest elided
  | latestRead => exact shortened_of_faithful (faithful_compactLatestRead measures requests prompt)

theorem Formed.shortened_passes {measures : Measures} {prompt : String} (formed : Formed requests)
    (passes : Relation.ReflTransGen (Pass measures history prompt rounds) requests others) :
    Shortened history rounds requests others := by
  induction passes with
  | refl => exact .refl requests
  | tail before pass ih => exact ih.trans ((formed.passes before).shortened_pass pass)

end Stages

section Recovery

variable {history : List (HistoryTurn Continuation)} {rounds : List LiveRound}
  {requests : List ModelRequest}

def checkpointRequest (history : List (HistoryTurn Continuation)) : ModelRequest :=
  ⟨[.systemPrompt (checkpointText history) (some checkpointRef)]⟩

/-- The list without the checkpoint heads of earlier recoveries. -/
def unheaded (requests : List ModelRequest) : List ModelRequest :=
  requests.filter fun request => !request.isCheckpoint

theorem mem_unheaded {request : ModelRequest} (member : request ∈ unheaded requests) :
    request ∈ requests :=
  List.mem_of_mem_filter member

theorem checkpointHead_eq {system text : String} {rest : List ModelRequest} :
    checkpointHead history (systemRequest system :: userRequest text :: rest) =
      systemRequest system :: userRequest text :: checkpointRequest history :: unheaded rest :=
  rfl

@[simp]
theorem plain_systemRequest (system : String) : (systemRequest system).plain = true :=
  rfl

@[simp]
theorem plain_userRequest (text : String) : (userRequest text).plain = true :=
  rfl

@[simp]
theorem plain_checkpointRequest : (checkpointRequest history).plain = true :=
  rfl

/-- A response is no checkpoint head. -/
theorem unheaded_cons (single : ∀ request ∈ requests, ∃ part, request.parts = [part])
    {item : ModelRequest} {later : List ModelRequest} (member : item ∈ requests)
    (hit : item.calls = true ∨ item.responds = true) :
    unheaded (item :: later) = item :: unheaded later := by
  apply List.filter_cons_of_pos
  rcases single item member with ⟨part, only⟩
  simp only [ModelRequest.calls, ModelRequest.responds, only, List.any_cons, List.any_nil,
    Bool.or_false] at hit
  simp only [ModelRequest.isCheckpoint, only, List.any_cons, List.any_nil, Bool.or_false]
  cases part with
  | modelResponse => rfl
  | _ => rcases hit with same | same <;> cases same

/-- The checkpoint head stands in front of the newest execution. -/
theorem latest_checkpointHead (formed : Formed requests) :
    latest (checkpointHead history requests) = unheaded (latest requests) := by
  rcases formed.headed with ⟨system, text, rest, split⟩
  have single := formed.single
  rcases exists_newest requests with ⟨front, tail, whole, newest⟩
  -- Neither of the first two requests is a response, so both are in the front.
  have started : ∃ middle, front = systemRequest system :: userRequest text :: middle ∧
      rest = middle ++ tail := by
    rw [whole] at split
    rcases front with _ | ⟨one, _ | ⟨two, middle⟩⟩
    · rw [List.nil_append] at split
      rcases newest.head split with hit | hit <;> cases hit
    · rw [List.cons_append, List.nil_append, List.cons.injEq] at split
      rcases newest.head split.2 with hit | hit <;> cases hit
    · rw [List.cons_append, List.cons_append, List.cons.injEq, List.cons.injEq] at split
      rcases split with ⟨rfl, rfl, same⟩
      exact ⟨middle, rfl, same.symm⟩
  rcases started with ⟨middle, rfl, rfl⟩
  have absent : ∀ {test : ModelRequest → Bool} {items : List ModelRequest},
      (∀ other ∈ items, test other = false) → ∀ other ∈ unheaded items, test other = false :=
    fun missed other member => missed other (mem_unheaded member)
  have headed : checkpointHead history requests =
      (systemRequest system :: userRequest text :: checkpointRequest history :: unheaded middle) ++
        unheaded tail := by
    rw [split, checkpointHead_eq, unheaded, unheaded, unheaded, List.filter_append]
    rfl
  have kept : Newest (systemRequest system :: userRequest text :: checkpointRequest history ::
      unheaded middle) (unheaded tail) := by
    cases newest with
    | @calls later item hit missed =>
        have listed : item ∈ requests := by
          rw [whole]
          simp
        rw [unheaded_cons single listed (.inl hit)]
        exact .calls hit (absent missed)
    | @responds later item silent hit missed =>
        have listed : item ∈ requests := by
          rw [whole]
          simp
        rw [unheaded_cons single listed (.inr hit)]
        refine .responds ?_ hit (absent missed)
        intro other member
        simp only [List.cons_append, List.mem_cons, List.mem_append] at member
        rcases member with rfl | rfl | rfl | inside | rfl | inside
        · rfl
        · rfl
        · rfl
        · apply silent
          simp [mem_unheaded inside]
        · exact silent _ (by simp)
        · apply silent
          simp [mem_unheaded inside]
    | absent silent quiet =>
        constructor
        · intro other member
          simp only [List.mem_cons] at member
          rcases member with rfl | rfl | rfl | inside
          · rfl
          · rfl
          · rfl
          · apply silent
            simp [mem_unheaded inside]
        · intro other member
          simp only [List.mem_cons] at member
          rcases member with rfl | rfl | rfl | inside
          · rfl
          · rfl
          · rfl
          · apply quiet
            simp [mem_unheaded inside]
  rw [headed, kept.latest, whole, newest.latest]

/-- A recovery of a legal list that starts with its prompts leaves one.  Behind the
first two requests stands one checkpoint head, and behind it the requests of the
list in their order: all prompts as they were, and the newest execution with
everything behind it; a response has lost covered narration at most, and a result is
the one it was or the recorded projection of its call. -/
theorem compactProviderContext_keeps {measures : Measures}
    {cleared : List (HistoryTurn Continuation)} {prompt : String} {reduced : List ModelRequest}
    (headed : ∃ system text rest, requests = systemRequest system :: userRequest text :: rest)
    (single : ∀ request ∈ requests, ∃ part, request.parts = [part])
    (legal : legalRequests (quoteRequests requests) = .ok ())
    (compacted : compactProviderContext measures history prompt requests rounds =
      some (cleared, reduced)) :
    legalRequests (quoteRequests reduced) = .ok () ∧
    ∃ system text rest others,
      requests = systemRequest system :: userRequest text :: rest ∧
      reduced = systemRequest system :: userRequest text :: checkpointRequest history :: others ∧
      List.SublistForall₂ (fun other request : ModelRequest =>
        request.Faithful history rounds other) others (unheaded rest) ∧
      others.filter ModelRequest.plain = (unheaded rest).filter ModelRequest.plain ∧
      List.Forall₂ (ModelRequest.Faithful history rounds) (unheaded (latest requests))
        (latest reduced) := by
  have formed := formed_of_legal headed single legal
  rcases passes_compactProviderContext compacted with ⟨chosen, early, late⟩
  have before : Formed chosen := formed.passes early
  have shortened : Shortened history rounds requests chosen := formed.shortened_passes early
  have stages : Shortened history rounds (checkpointHead history chosen) reduced :=
    (before.checkpointHead history).shortened_passes late
  have ids : (callIds reduced).Sublist (callIds requests) :=
    stages.ids.trans ((callIds_checkpointHead history before.single).symm ▸ shortened.ids)
  refine ⟨(formed.compactProviderContext compacted).legal_iff.mpr
    (ids.nodup (nodup_of_legal legal)), ?_⟩
  have latestHead := @latest_checkpointHead history chosen before
  rcases headed with ⟨system, text, rest, rfl⟩
  rcases shortened.front [systemRequest system, userRequest text] (by
    intro request member
    simp only [List.mem_cons, List.not_mem_nil, or_false] at member
    rcases member with rfl | rfl <;> rfl) ⟨rest, rfl⟩ with ⟨kept, rfl⟩
  simp only [List.cons_append, List.nil_append, checkpointHead_eq] at shortened stages latestHead
  rcases stages.front [systemRequest system, userRequest text, checkpointRequest history] (by
    intro request member
    simp only [List.mem_cons, List.not_mem_nil, or_false] at member
    rcases member with rfl | rfl | rfl <;> rfl) ⟨unheaded kept, rfl⟩ with ⟨others, rfl⟩
  simp only [List.cons_append, List.nil_append] at stages ⊢
  have alike : ∀ first second : ModelRequest, first.Faithful history rounds second →
      (!first.isCheckpoint) = !second.isCheckpoint :=
    fun _ _ faithful => congrArg not faithful.isCheckpoint
  refine ⟨system, text, rest, others, rfl, rfl, ?_, ?_, ?_⟩
  · exact sublistForall₂_trans (fun one two => ModelRequest.Faithful.trans two one)
      (sublistForall₂_of_cons (sublistForall₂_of_cons (sublistForall₂_of_cons stages.kept)))
      (sublistForall₂_filter (fun _ _ faithful => (alike _ _ faithful).symm)
        (sublistForall₂_of_cons (sublistForall₂_of_cons shortened.kept)))
  · have behind : others.filter ModelRequest.plain = (unheaded kept).filter ModelRequest.plain := by
      simpa [List.filter_cons] using stages.plain
    have front : kept.filter ModelRequest.plain = rest.filter ModelRequest.plain := by
      simpa [List.filter_cons] using shortened.plain
    rw [behind, unheaded, unheaded, List.filter_comm, front, List.filter_comm]
  · have front := forall₂_filter alike shortened.latest
    have behind := stages.latest
    rw [latestHead] at behind
    exact forall₂_trans ModelRequest.Faithful.trans front behind

/-- A read of a file and its return. -/
def readExchange (id content : String) : List ModelRequest :=
  [⟨[.modelResponse { ModelResponse.new with
      parts := [.toolCall ⟨"read_file", "\x7b\x7d", some id⟩] }]⟩,
    toolReturnRequest "read_file" id true content]

def longRequests : List ModelRequest :=
  [systemRequest "s", userRequest "p"] ++ (readExchange "a" "old" ++ readExchange "b" "new")

/-- Sizes in requests. -/
def requestMeasures : Measures where
  roundBudgetExceeded _ := false
  contentBytes requests := some requests.length
  assistantDominated _ _ _ := true
  supportsContextHandles := false

theorem compactProviderContext_keeps_longRequests :
    ∃ reduced, compactProviderContext requestMeasures [] "p" longRequests [] = some ([], reduced) ∧
      legalRequests (quoteRequests reduced) = .ok () ∧
      List.Forall₂ (ModelRequest.Faithful [] []) (unheaded (latest longRequests))
        (latest reduced) := by
  have compacted : compactProviderContext requestMeasures [] "p" longRequests [] =
      some ([], [systemRequest "s", userRequest "p", checkpointRequest []] ++
        readExchange "b" "new") := by
    rfl
  have paired : Paired (partsOf (quoteRequests longRequests)) ["a", "b"] :=
    .plain trivial (.plain trivial (@Paired.exchange _ [("a", "read_file")] [_] _ _ rfl (.refl _)
      (@Paired.exchange _ [("b", "read_file")] [_] _ _ rfl (.refl _) .nil)))
  have legal : legalRequests (quoteRequests longRequests) = .ok () :=
    legalRequests_iff.mpr ⟨["a", "b"], paired, by decide, by decide⟩
  have headed : ∃ system text rest,
      longRequests = systemRequest system :: userRequest text :: rest := ⟨"s", "p", _, rfl⟩
  have single : ∀ request ∈ longRequests, ∃ part, request.parts = [part] := by
    simp [longRequests, readExchange, systemRequest, userRequest, toolReturnRequest]
  rcases compactProviderContext_keeps headed single legal compacted with
    ⟨later, _, _, _, _, _, _, _, _, kept⟩
  exact ⟨_, compacted, later, kept⟩

end Recovery

end Llxprt.Agent
