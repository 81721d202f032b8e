import Llxprt.Kernel.Validation.Types
import Llxprt.Rust.Totals
import Mathlib.Logic.Relation

/-!
# Provenance of a candidate

The pointers of a candidate are followed by an iterative search with exit
markers.  Its stack is the current path, one level of pending pointers for each
node that was entered and not left; a node that was left rests on ingress only.
-/

namespace Llxprt.Kernel

open Llxprt.Rust

namespace Provenance

abbrev Graph :=
  BTreeMap String (List Pointer)

/-- The stack, its top first; a marked pointer is an exit. -/
structure Search where
  stack : List (Pointer × Bool)
  active : BTreeSet String
  visited : BTreeSet String
  leaves : BTreeSet String

/-- What the search may still push for a node of the graph. -/
def Search.weight (search : Search) (binding : String × List Pointer) : Nat :=
  if search.active.contains binding.1 || search.visited.contains binding.1 then 0
  else binding.2.length + 1

/-- What the search may still pop. -/
def Search.remaining (graph : Graph) (search : Search) : Nat :=
  search.stack.length + (graph.toList.map search.weight).sum

/-- One turn of the loop on the pointer that was popped. -/
def visit (graph : Graph) (search : Search) (pointer : Pointer) (exit : Bool) :
    Except ProvenanceFailure Search :=
  match pointer with
  | .ingress id =>
      let next := { search with leaves := search.leaves.insert id }
      if maxGraphNodes < next.leaves.size then .error .ungroundedRoot else .ok next
  | .generated id =>
      if exit then
        .ok { search with active := search.active.erase id, visited := search.visited.insert id }
      else if search.active.contains id then
        .error .cycle
      else if search.visited.contains id then
        .ok search
      else
        match graph[id]? with
        | none => .error .ungroundedRoot
        | some children =>
            if children.isEmpty then
              .error .ungroundedRoot
            else
              let next := { search with
                active := search.active.insert id
                stack := children.reverse.map (·, false) ++ (.generated id, true) :: search.stack }
              if maxGraphNodes < next.stack.length + next.visited.size then
                .error .ungroundedRoot
              else if maxGraphNodes < next.leaves.size then
                .error .ungroundedRoot
              else
                .ok next

section Measure

variable {graph : Graph} {search next : Search} {pointer : Pointer} {exit : Bool} {id : String}

theorem nodup_bindings : (graph.toList.map Prod.fst).Nodup := by
  rw [List.Nodup, List.pairwise_map]
  apply graph.distinct_keys_toList.imp
  intro left right distinct same
  exact distinct (Std.LawfulEqOrd.compare_eq_iff_eq.mpr same)

/-- Marking more nodes leaves less to push. -/
theorem sum_weight_le
    (marked : ∀ id, id ∈ search.active ∨ id ∈ search.visited → id ∈ next.active ∨ id ∈ next.visited) :
    (graph.toList.map next.weight).sum ≤ (graph.toList.map search.weight).sum := by
  apply List.sum_le_sum
  rintro ⟨id, children⟩ _
  simp only [Search.weight, Bool.or_eq_true, Std.ExtTreeSet.contains_iff_mem]
  by_cases before : id ∈ search.active ∨ id ∈ search.visited
  · rw [if_pos before, if_pos (marked id before)]
  · rw [if_neg before]
    split
    · exact Nat.zero_le _
    · exact Nat.le_refl _

/-- Entering a node takes its own weight out of the sum. -/
theorem sum_weight_enter {children : List Pointer} (found : graph[id]? = some children)
    (fresh : id ∉ search.active ∧ id ∉ search.visited)
    (marked : ∀ other, other ∈ next.active ∨ other ∈ next.visited ↔
      other = id ∨ other ∈ search.active ∨ other ∈ search.visited) :
    (graph.toList.map next.weight).sum + (children.length + 1) =
      (graph.toList.map search.weight).sum := by
  have member : (id, children) ∈ graph.toList :=
    Std.ExtTreeMap.mem_toList_iff_getElem?_eq_some.mpr found
  have distinct : (graph.toList.map Prod.fst).Nodup := nodup_bindings
  rcases List.append_of_mem member with ⟨front, back, parted⟩
  rw [parted, List.map_append, List.map_cons, List.nodup_middle, List.nodup_cons] at distinct
  have others : ∀ binding ∈ front ++ back, next.weight binding = search.weight binding := by
    rintro ⟨other, rest⟩ inside
    have differ : other ≠ id := by
      rintro rfl
      apply distinct.1
      rw [← List.map_append]
      exact List.mem_map.mpr ⟨_, inside, rfl⟩
    simp only [Search.weight, Bool.or_eq_true, Std.ExtTreeSet.contains_iff_mem, marked]
    simp [differ]
  have own : next.weight (id, children) = 0 := by
    simp [Search.weight, marked]
  have before : search.weight (id, children) = children.length + 1 := by
    simp [Search.weight, fresh.1, fresh.2]
  have sums := congrArg List.sum (List.map_congr_left others)
  rw [List.map_append, List.map_append, List.sum_append, List.sum_append] at sums
  rw [parted, List.map_append, List.map_append, List.map_cons, List.map_cons, List.sum_append,
    List.sum_append, List.sum_cons, List.sum_cons, own, before]
  omega

/-- Every turn of the loop leaves less to pop. -/
theorem visit_remaining (visited : visit graph search pointer exit = .ok next) :
    next.remaining graph ≤ search.remaining graph := by
  cases pointer with
  | ingress id =>
      simp only [visit] at visited
      split at visited
      · cases visited
      · cases visited
        exact Nat.le_refl _
  | generated id =>
      simp only [visit] at visited
      split at visited
      · cases visited
        apply Nat.add_le_add_left
        apply sum_weight_le
        intro other marked
        simp only [Std.ExtTreeSet.mem_erase, Std.ExtTreeSet.mem_insert, ne_eq,
          Std.LawfulEqOrd.compare_eq_iff_eq]
        tauto
      · split at visited
        · cases visited
        · split at visited
          · cases visited
            exact Nat.le_refl _
          · rename_i inactive unvisited
            split at visited
            · cases visited
            · rename_i children found
              split at visited
              · cases visited
              · split at visited
                · cases visited
                · split at visited
                  · cases visited
                  · cases visited
                    have entered := @sum_weight_enter graph search { search with
                      active := search.active.insert id
                      stack := children.reverse.map (·, false) ++
                        (.generated id, true) :: search.stack } id children found
                        ⟨by simpa using inactive, by simpa using unvisited⟩ (by
                          intro other
                          simp only [Std.ExtTreeSet.mem_insert,
                            Std.LawfulEqOrd.compare_eq_iff_eq]
                          tauto)
                    simp only [Search.remaining, List.length_append, List.length_map,
                      List.length_reverse, List.length_cons]
                    omega

end Measure

/-- The loop, until the stack is empty. -/
def loop (graph : Graph) (search : Search) : Except ProvenanceFailure (BTreeSet String) :=
  match _ : search.stack with
  | [] => .ok search.leaves
  | (pointer, exit) :: rest =>
      match _ : visit graph { search with stack := rest } pointer exit with
      | .error reason => .error reason
      | .ok next => loop graph next
termination_by search.remaining graph
decreasing_by
  rename_i popped turn
  apply (visit_remaining turn).trans_lt
  simp only [Search.remaining, popped, List.length_cons]
  apply Nat.add_lt_add_right
  exact Nat.lt_succ_self _

/-- The edges of a graph. -/
def edges (graph : Graph) : Nat :=
  ((values graph).map List.length).sum

/-- The ingress leaves under the roots; bounded also for deep and cyclic chains. -/
def roots (candidate : Candidate) : Except ProvenanceFailure (BTreeSet String) :=
  if maxGraphNodes < candidate.graph.size ∨ maxGraphNodes < edges candidate.graph ∨
      maxGraphNodes < candidate.roots.length then
    .error .ungroundedRoot
  else
    match loop candidate.graph ⟨candidate.roots.reverse.map (·, false), ∅, ∅, ∅⟩ with
    | .error reason => .error reason
    | .ok leaves => if leaves.isEmpty then .error .ungroundedRoot else .ok leaves

section Reachability

variable {candidate : Candidate}

/-- A child of a generated node that is generated too. -/
def Edge (graph : Graph) (parent child : String) : Prop :=
  ∃ children, graph[parent]? = some children ∧ .generated child ∈ children

/-- The pointers that a candidate rests on. -/
inductive Reaches (candidate : Candidate) : Pointer → Prop
  | root {pointer : Pointer} (member : pointer ∈ candidate.roots) : Reaches candidate pointer
  | child {id : String} {children : List Pointer} {pointer : Pointer}
      (parent : Reaches candidate (.generated id)) (found : candidate.graph[id]? = some children)
      (member : pointer ∈ children) : Reaches candidate pointer

/-- A reachable node leads back to itself. -/
def Cyclic (candidate : Candidate) : Prop :=
  ∃ id, Reaches candidate (.generated id) ∧ Relation.TransGen (Edge candidate.graph) id id

/-- Every reachable node has children. -/
def Grounded (candidate : Candidate) : Prop :=
  ∀ id, Reaches candidate (.generated id) →
    ∃ children, candidate.graph[id]? = some children ∧ children ≠ []

/-- The roots, nodes and edges that a search may have to hold. -/
def extent (candidate : Candidate) : Nat :=
  candidate.roots.length + candidate.graph.size + edges candidate.graph

end Reachability

section Path

variable {candidate : Candidate} {finished later : Pointer → Prop} {source pending : List Pointer}
  {inner : Option String} {stack rest : List (Pointer × Bool)} {path : List String}
  {pointer : Pointer} {id : String}

/-- The pointers of one level: those still pending, those that are finished, and
the one that was entered. -/
structure Level (finished : Pointer → Prop) (source pending : List Pointer)
    (inner : Option String) : Prop where
  inside : ∀ pointer ∈ pending, pointer ∈ source
  covered : ∀ pointer ∈ source,
    pointer ∈ pending ∨ finished pointer ∨ ∃ id, inner = some id ∧ pointer = .generated id
  entered : ∀ id, inner = some id → .generated id ∈ source

/-- The stack below the path: one level for the roots and one for each node that
was entered and not left. -/
inductive Framed (candidate : Candidate) (finished : Pointer → Prop) :
    List (Pointer × Bool) → List String → Option String → Prop
  | base {pending : List Pointer} {inner : Option String}
      (level : Level finished candidate.roots pending inner) :
      Framed candidate finished (pending.map (·, false)) [] inner
  | node {id : String} {children pending : List Pointer} {inner : Option String}
      {rest : List (Pointer × Bool)} {path : List String}
      (found : candidate.graph[id]? = some children) (parent : children ≠ [])
      (level : Level finished children pending inner)
      (below : Framed candidate finished rest path (some id)) :
      Framed candidate finished (pending.map (·, false) ++ (.generated id, true) :: rest)
        (id :: path) inner

theorem Level.mono (level : Level finished source pending inner)
    (grown : ∀ pointer, finished pointer → later pointer) : Level later source pending inner := by
  refine ⟨level.inside, ?_, level.entered⟩
  intro pointer member
  rcases level.covered pointer member with waiting | done | entered
  · exact .inl waiting
  · exact .inr (.inl (grown pointer done))
  · exact .inr (.inr entered)

theorem Framed.mono (framed : Framed candidate finished stack path inner)
    (grown : ∀ pointer, finished pointer → later pointer) :
    Framed candidate later stack path inner := by
  induction framed with
  | base level => exact .base (level.mono grown)
  | node found parent level _ ih => exact .node found parent (level.mono grown) ih

/-- The pending pointer on top of a level is finished. -/
theorem Level.drop (level : Level finished source (pointer :: pending) none)
    (done : finished pointer) : Level finished source pending none := by
  refine ⟨fun other member => level.inside other (.tail _ member), ?_, level.entered⟩
  intro other member
  rcases level.covered other member with waiting | covered
  · rcases List.mem_cons.mp waiting with rfl | waiting
    · exact .inr (.inl done)
    · exact .inl waiting
  · exact .inr covered

/-- The pending pointer on top of a level is entered. -/
theorem Level.enter (level : Level finished source (.generated id :: pending) none) :
    Level finished source pending (some id) := by
  refine ⟨fun other member => level.inside other (.tail _ member), ?_, ?_⟩
  · intro other member
    rcases level.covered other member with waiting | done | ⟨_, none, _⟩
    · rcases List.mem_cons.mp waiting with rfl | waiting
      · exact .inr (.inr ⟨id, rfl, rfl⟩)
      · exact .inl waiting
    · exact .inr (.inl done)
    · cases none
  · rintro _ ⟨⟩
    exact level.inside _ List.mem_cons_self

/-- The node that was entered is finished. -/
theorem Level.leave (level : Level finished source pending (some id))
    (done : finished (.generated id)) : Level finished source pending none := by
  refine ⟨level.inside, ?_, fun _ none => by cases none⟩
  intro other member
  rcases level.covered other member with waiting | covered | ⟨_, same, rfl⟩
  · exact .inl waiting
  · exact .inr (.inl covered)
  · cases same
    exact .inr (.inl done)

/-- What the top of the stack can be. -/
theorem Framed.pop {exit : Bool} (framed : Framed candidate finished ((pointer, exit) :: rest) path none) :
    (exit = false ∧ (finished pointer → Framed candidate finished rest path none) ∧
      ∀ id, pointer = .generated id → Framed candidate finished rest path (some id)) ∨
    (exit = true ∧ ∃ id children parents, pointer = .generated id ∧ path = id :: parents ∧
      candidate.graph[id]? = some children ∧ children ≠ [] ∧ Level finished children [] none ∧
      Framed candidate finished rest parents (some id)) := by
  generalize whole : (pointer, exit) :: rest = stack at framed
  generalize outside : (none : Option String) = inner at framed
  cases framed with
  | @base pending _ level =>
      subst outside
      cases pending with
      | nil => cases whole
      | cons first pending =>
          cases whole
          refine .inl ⟨rfl, fun done => .base (level.drop done), ?_⟩
          rintro id rfl
          exact .base level.enter
  | @node id children pending _ below parents found parent level beneath =>
      subst outside
      cases pending with
      | nil =>
          cases whole
          exact .inr ⟨rfl, id, children, parents, rfl, rfl, found, parent, level, beneath⟩
      | cons first pending =>
          cases whole
          refine .inl ⟨rfl, fun done => .node found parent (level.drop done) beneath, ?_⟩
          rintro inner rfl
          exact .node found parent level.enter beneath

theorem Framed.leave (framed : Framed candidate finished stack path (some id))
    (done : finished (.generated id)) : Framed candidate finished stack path none := by
  generalize entered : some id = inner at framed
  cases framed with
  | base level =>
      subst entered
      exact .base (level.leave done)
  | node found parent level below =>
      subst entered
      exact .node found parent (level.leave done) below

/-- Every pointer of the stack and every node of the path is reachable. -/
theorem Framed.reaches (framed : Framed candidate finished stack path inner) :
    (∀ id, inner = some id → Reaches candidate (.generated id)) ∧
      (∀ id ∈ path, Reaches candidate (.generated id)) ∧
      ∀ entry ∈ stack, Reaches candidate entry.1 := by
  induction framed with
  | base level =>
      refine ⟨fun id entered => .root (level.entered id entered), by simp, ?_⟩
      intro entry member
      rcases List.mem_map.mp member with ⟨pointer, waiting, rfl⟩
      exact .root (level.inside pointer waiting)
  | @node id children pending inner rest path found parent level below ih =>
      rcases ih with ⟨entered, passed, stacked⟩
      have own := entered id rfl
      refine ⟨fun other same => .child own found (level.entered other same), ?_, ?_⟩
      · exact List.forall_mem_cons.mpr ⟨own, passed⟩
      · intro entry member
        rcases List.mem_append.mp member with waiting | member
        · rcases List.mem_map.mp waiting with ⟨pointer, listed, rfl⟩
          exact .child own found (level.inside pointer listed)
        · rcases List.mem_cons.mp member with rfl | member
          · exact own
          · exact stacked entry member

/-- The nodes of the path lead to the node that was entered last. -/
theorem Framed.leads (framed : Framed candidate finished stack path (some id)) :
    ∀ other ∈ path, Relation.TransGen (Edge candidate.graph) other id := by
  generalize entered : some id = inner at framed
  induction framed generalizing id with
  | base level => simp
  | @node parent children pending inner rest path found _ level below ih =>
      subst entered
      have edge : Edge candidate.graph parent id := ⟨children, found, level.entered id rfl⟩
      intro other member
      rcases List.mem_cons.mp member with rfl | member
      · exact .single edge
      · exact (ih rfl other member).tail edge

end Path

section Search

variable {candidate : Candidate} {search next : Search} {path : List String}
  {pointer : Pointer} {exit : Bool} {rest : List (Pointer × Bool)} {reason : ProvenanceFailure}

/-- An ingress pointer is finished when its leaf is collected, a generated one
when its node was left. -/
def Finished (search : Search) : Pointer → Prop
  | .ingress id => id ∈ search.leaves
  | .generated id => id ∈ search.visited

/-- The invariant of the loop.  The active nodes are exactly the current path,
and below a visited node there is nothing but visited nodes and leaves. -/
structure Sound (candidate : Candidate) (search : Search) (path : List String) : Prop where
  framed : Framed candidate (Finished search) search.stack path none
  active : ∀ id, id ∈ search.active ↔ id ∈ path
  distinct : path.Nodup
  settled : ∀ id ∈ search.visited, ∃ children, candidate.graph[id]? = some children ∧
    children ≠ [] ∧ ∀ pointer ∈ children, Finished search pointer
  acyclic : ∀ id ∈ search.visited, Acc (fun child parent => Edge candidate.graph parent child) id
  leaves : ∀ id ∈ search.leaves, Reaches candidate (.ingress id)
  counted : search.visited.size + search.remaining candidate.graph ≤ extent candidate

theorem Reaches.listed (reaches : Reaches candidate pointer) :
    pointer ∈ candidate.roots ++ (values candidate.graph).flatten := by
  cases reaches with
  | root member => exact List.mem_append_left _ member
  | @child id children _ parent found member =>
      apply List.mem_append_right
      refine List.mem_flatten.mpr ⟨children, ?_, member⟩
      exact List.mem_map.mpr ⟨(id, children),
        Std.ExtTreeMap.mem_toList_iff_getElem?_eq_some.mpr found, rfl⟩

/-- There are no more leaves than roots and edges. -/
theorem size_leaves {leaves : BTreeSet String}
    (reached : ∀ id ∈ leaves, Reaches candidate (.ingress id)) :
    leaves.size ≤ extent candidate := by
  let ingress : Pointer → Option String
    | .ingress id => some id
    | .generated _ => none
  have listed : ∀ id ∈ leaves,
      id ∈ (candidate.roots ++ (values candidate.graph).flatten).filterMap ingress := by
    intro id member
    exact List.mem_filterMap.mpr ⟨.ingress id, (reached id member).listed, rfl⟩
  have short := (size_le_length listed).trans (List.length_filterMap_le _ _)
  rw [List.length_append, List.length_flatten] at short
  unfold extent edges
  omega

/-- The search starts with the roots pending. -/
theorem sound_start :
    Sound candidate ⟨candidate.roots.reverse.map (·, false), ∅, ∅, ∅⟩ [] := by
  constructor
  case framed =>
    apply Framed.base
    refine ⟨fun pointer member => List.mem_reverse.mp member, ?_, fun _ none => by cases none⟩
    exact fun pointer member => .inl (List.mem_reverse.mpr member)
  case active => simp
  case distinct => exact List.nodup_nil
  case settled => simp
  case acyclic => simp
  case leaves => simp
  case counted =>
    have weights : candidate.graph.toList.map
        (Search.weight ⟨candidate.roots.reverse.map (·, false), ∅, ∅, ∅⟩) =
        (values candidate.graph).map fun children => children.length + 1 := by
      rw [values, List.map_map]
      apply List.map_congr_left
      intro binding _
      simp [Search.weight]
    have sum : ((values candidate.graph).map fun children => children.length + 1).sum =
        edges candidate.graph + candidate.graph.size := by
      have ones : ∀ lists : List (List Pointer), (lists.map fun _ => 1).sum = lists.length := by
        intro lists
        simp
      rw [List.sum_map_add, ones, edges, values, List.length_map, Std.ExtTreeMap.length_toList]
    simp only [Search.remaining, weights, sum, List.length_map, List.length_reverse,
      Std.ExtTreeSet.size_empty, extent]
    omega

/-- A leaf is collected. -/
theorem Sound.collect {id : String} (sound : Sound candidate search path)
    (popped : search.stack = (.ingress id, exit) :: rest) :
    Sound candidate ⟨rest, search.active, search.visited, search.leaves.insert id⟩ path := by
  have framed := sound.framed
  rw [popped] at framed
  have reached : Reaches candidate (.ingress id) := framed.reaches.2.2 _ List.mem_cons_self
  have grown : ∀ pointer, Finished search pointer →
      Finished ⟨rest, search.active, search.visited, search.leaves.insert id⟩ pointer := by
    rintro (_ | _) done
    · exact Std.ExtTreeSet.mem_insert.mpr (.inr done)
    · exact done
  have shorter := sound.counted
  simp only [Search.remaining, popped, List.length_cons] at shorter
  rcases (framed.mono grown).pop with ⟨_, drop, _⟩ | ⟨_, _, _, _, generated, _⟩
  · constructor
    case framed => exact drop Std.ExtTreeSet.mem_insert_self
    case active => exact sound.active
    case distinct => exact sound.distinct
    case settled =>
      intro other member
      rcases sound.settled other member with ⟨children, found, parent, done⟩
      exact ⟨children, found, parent, fun pointer inside => grown pointer (done pointer inside)⟩
    case acyclic => exact sound.acyclic
    case leaves =>
      intro other member
      rcases Std.ExtTreeSet.mem_insert.mp member with same | member
      · rw [← Std.LawfulEqOrd.compare_eq_iff_eq.mp same]
        exact reached
      · exact sound.leaves other member
    case counted =>
      have weights : Search.weight ⟨rest, search.active, search.visited, search.leaves.insert id⟩ =
          search.weight := rfl
      simp only [Search.remaining, weights]
      omega
  · cases generated

/-- A node that was left before is passed over. -/
theorem Sound.skip {id : String} (sound : Sound candidate search path)
    (popped : search.stack = (.generated id, false) :: rest) (visited : id ∈ search.visited) :
    Sound candidate { search with stack := rest } path := by
  have framed := sound.framed
  rw [popped] at framed
  have shorter := sound.counted
  simp only [Search.remaining, popped, List.length_cons] at shorter
  have done : Finished search (.generated id) := visited
  rcases framed.pop with ⟨_, drop, _⟩ | ⟨entered, _⟩
  · constructor
    case framed => exact drop done
    case active => exact sound.active
    case distinct => exact sound.distinct
    case settled => exact sound.settled
    case acyclic => exact sound.acyclic
    case leaves => exact sound.leaves
    case counted =>
      have weights : Search.weight { search with stack := rest } = search.weight := rfl
      simp only [Search.remaining, weights]
      omega
  · cases entered

/-- A node is left; everything below it is finished. -/
theorem Sound.leave {id : String} (sound : Sound candidate search path)
    (popped : search.stack = (.generated id, true) :: rest) :
    ∃ parents, Sound candidate
      ⟨rest, search.active.erase id, search.visited.insert id, search.leaves⟩ parents := by
  have framed := sound.framed
  rw [popped] at framed
  have grown : ∀ pointer, Finished search pointer → Finished
      ⟨rest, search.active.erase id, search.visited.insert id, search.leaves⟩ pointer := by
    rintro (_ | _) done
    · exact done
    · exact Std.ExtTreeSet.mem_insert.mpr (.inr done)
  have counted := sound.counted
  simp only [Search.remaining, popped, List.length_cons] at counted
  rcases framed.pop with ⟨entered, _⟩ | ⟨_, own, children, parents, same, rfl, found, parent, level,
    below⟩
  · cases entered
  · cases same
    have covered : ∀ pointer ∈ children, Finished search pointer := by
      intro pointer member
      rcases level.covered pointer member with waiting | done | ⟨_, none, _⟩
      · cases waiting
      · exact done
      · cases none
    have distinct := List.nodup_cons.mp sound.distinct
    refine ⟨parents, ?_⟩
    constructor
    case framed => exact (below.mono grown).leave Std.ExtTreeSet.mem_insert_self
    case active =>
      intro other
      rw [Std.ExtTreeSet.mem_erase, ne_eq, Std.LawfulEqOrd.compare_eq_iff_eq, sound.active,
        List.mem_cons]
      constructor
      · rintro ⟨differ, rfl | member⟩
        · exact absurd rfl differ
        · exact member
      · intro member
        refine ⟨?_, .inr member⟩
        rintro rfl
        exact distinct.1 member
    case distinct => exact distinct.2
    case settled =>
      intro other member
      rcases Std.ExtTreeSet.mem_insert.mp member with same | member
      · rw [← Std.LawfulEqOrd.compare_eq_iff_eq.mp same]
        exact ⟨children, found, parent, fun pointer inside => grown pointer (covered pointer inside)⟩
      · rcases sound.settled other member with ⟨others, otherFound, otherParent, done⟩
        exact ⟨others, otherFound, otherParent, fun pointer inside => grown pointer (done pointer inside)⟩
    case acyclic =>
      intro other member
      rcases Std.ExtTreeSet.mem_insert.mp member with same | member
      · rw [← Std.LawfulEqOrd.compare_eq_iff_eq.mp same]
        constructor
        rintro child ⟨others, otherFound, inside⟩
        rw [found] at otherFound
        cases otherFound
        exact sound.acyclic child (covered _ inside)
      · exact sound.acyclic other member
    case leaves => exact sound.leaves
    case counted =>
      have lighter := @sum_weight_le candidate.graph search
        ⟨rest, search.active.erase id, search.visited.insert id, search.leaves⟩ (by
          intro other marked
          simp only [Std.ExtTreeSet.mem_erase, Std.ExtTreeSet.mem_insert, ne_eq,
            Std.LawfulEqOrd.compare_eq_iff_eq]
          tauto)
      have larger := Std.ExtTreeSet.size_insert_le (t := search.visited) (k := id)
      simp only [Search.remaining]
      omega

/-- A node is entered; its children are pending. -/
theorem Sound.enter {id : String} {children : List Pointer} (sound : Sound candidate search path)
    (popped : search.stack = (.generated id, false) :: rest) (inactive : id ∉ search.active)
    (unvisited : id ∉ search.visited) (found : candidate.graph[id]? = some children)
    (parent : children ≠ []) :
    Sound candidate ⟨children.reverse.map (·, false) ++ (.generated id, true) :: rest,
      search.active.insert id, search.visited, search.leaves⟩ (id :: path) := by
  have framed := sound.framed
  rw [popped] at framed
  have counted := sound.counted
  simp only [Search.remaining, popped, List.length_cons] at counted
  rcases framed.pop with ⟨_, _, enter⟩ | ⟨entered, _⟩
  · constructor
    case framed =>
      apply Framed.node found parent _ (enter id rfl)
      refine ⟨fun pointer member => List.mem_reverse.mp member, ?_, fun _ none => by cases none⟩
      exact fun pointer member => .inl (List.mem_reverse.mpr member)
    case active =>
      intro other
      rw [Std.ExtTreeSet.mem_insert, Std.LawfulEqOrd.compare_eq_iff_eq, sound.active, List.mem_cons,
        eq_comm]
    case distinct =>
      rw [List.nodup_cons, ← sound.active]
      exact ⟨inactive, sound.distinct⟩
    case settled => exact sound.settled
    case acyclic => exact sound.acyclic
    case leaves => exact sound.leaves
    case counted =>
      have entered := @sum_weight_enter candidate.graph search
        ⟨children.reverse.map (·, false) ++ (.generated id, true) :: rest,
          search.active.insert id, search.visited, search.leaves⟩ id children found
        ⟨inactive, unvisited⟩ (by
          intro other
          simp only [Std.ExtTreeSet.mem_insert, Std.LawfulEqOrd.compare_eq_iff_eq]
          tauto)
      simp only [Search.remaining, List.length_append, List.length_map, List.length_reverse,
        List.length_cons]
      omega
  · cases entered

/-- A pending node that is active closes a cycle. -/
theorem Sound.cyclic {id : String} (sound : Sound candidate search path)
    (popped : search.stack = (.generated id, false) :: rest) (active : id ∈ search.active) :
    Cyclic candidate := by
  have framed := sound.framed
  rw [popped] at framed
  rcases framed.pop with ⟨_, _, enter⟩ | ⟨entered, _⟩
  · refine ⟨id, framed.reaches.2.2 _ List.mem_cons_self, ?_⟩
    exact (enter id rfl).leads id ((sound.active id).mp active)
  · cases entered

/-- One turn of the loop keeps the invariant. -/
theorem Sound.visit (sound : Sound candidate search path)
    (popped : search.stack = (pointer, exit) :: rest)
    (turn : Provenance.visit candidate.graph { search with stack := rest } pointer exit = .ok next) :
    ∃ path, Sound candidate next path := by
  cases pointer with
  | ingress id =>
      simp only [Provenance.visit] at turn
      split at turn
      · cases turn
      · cases turn
        exact ⟨path, sound.collect popped⟩
  | generated id =>
      simp only [Provenance.visit] at turn
      split at turn
      · rename_i leaving
        cases turn
        rw [leaving] at popped
        exact sound.leave popped
      · rename_i entering
        rw [Bool.not_eq_true] at entering
        rw [entering] at popped
        split at turn
        · cases turn
        · rename_i inactive
          split at turn
          · rename_i visited
            cases turn
            exact ⟨path, sound.skip popped visited⟩
          · rename_i unvisited
            split at turn
            · cases turn
            · rename_i children found
              split at turn
              · cases turn
              · rename_i parent
                split at turn
                · cases turn
                · split at turn
                  · cases turn
                  · cases turn
                    exact ⟨id :: path, sound.enter popped (by simpa using inactive)
                      (by simpa using unvisited) found (by simpa using parent)⟩

/-- What a failed search says about the candidate. -/
def Refutes (candidate : Candidate) : ProvenanceFailure → Prop
  | .cycle => Cyclic candidate
  | .ungroundedRoot => maxGraphNodes < extent candidate ∨ ¬ Grounded candidate

/-- A turn of the loop that fails has found a reason. -/
theorem Sound.refutes (sound : Sound candidate search path)
    (popped : search.stack = (pointer, exit) :: rest)
    (turn : Provenance.visit candidate.graph { search with stack := rest } pointer exit =
      .error reason) : Refutes candidate reason := by
  have framed := sound.framed
  rw [popped] at framed
  have reached : Reaches candidate pointer := framed.reaches.2.2 _ List.mem_cons_self
  cases pointer with
  | ingress id =>
      simp only [Provenance.visit] at turn
      split at turn
      · rename_i crowded
        cases turn
        exact .inl (crowded.trans_le (size_leaves (sound.collect popped).leaves))
      · cases turn
  | generated id =>
      simp only [Provenance.visit] at turn
      split at turn
      · cases turn
      · rename_i entering
        rw [Bool.not_eq_true] at entering
        rw [entering] at popped
        split at turn
        · rename_i active
          cases turn
          exact sound.cyclic popped active
        · rename_i inactive
          split at turn
          · cases turn
          · rename_i unvisited
            split at turn
            · rename_i absent
              cases turn
              refine .inr fun grounded => ?_
              rcases grounded id reached with ⟨children, found, _⟩
              rw [absent] at found
              cases found
            · rename_i children found
              split at turn
              · rename_i childless
                cases turn
                refine .inr fun grounded => ?_
                rcases grounded id reached with ⟨others, otherFound, parent⟩
                rw [found] at otherFound
                cases otherFound
                exact parent (List.isEmpty_iff.mp childless)
              · rename_i parent
                have entered := (sound.enter popped (by simpa using inactive)
                  (by simpa using unvisited) found (by simpa using parent))
                split at turn
                · rename_i crowded
                  cases turn
                  have counted := entered.counted
                  simp only [Search.remaining] at counted
                  exact .inl (by omega)
                · split at turn
                  · rename_i crowded
                    cases turn
                    exact .inl (crowded.trans_le (size_leaves sound.leaves))
                  · cases turn

/-- The candidate rests on exactly these leaves. -/
structure RestsOn (candidate : Candidate) (leaves : BTreeSet String) : Prop where
  acyclic : ¬ Cyclic candidate
  grounded : Grounded candidate
  exact : ∀ id, id ∈ leaves ↔ Reaches candidate (.ingress id)

theorem not_self_of_acc {α : Type} {relation : α → α → Prop} {value : α}
    (accessible : Acc relation value) : ¬ relation value value := by
  induction accessible with
  | intro value _ ih =>
      intro self
      exact ih value self self

/-- An empty stack leaves nothing to be found. -/
theorem Sound.restsOn (sound : Sound candidate search path) (done : search.stack = []) :
    RestsOn candidate search.leaves := by
  have framed := sound.framed
  rw [done] at framed
  have covered : ∀ pointer ∈ candidate.roots, Finished search pointer := by
    generalize outside : (none : Option String) = inner at framed
    generalize emptied : ([] : List (Pointer × Bool)) = stack at framed
    cases framed with
    | @base pending _ level =>
        cases pending with
        | nil =>
            intro pointer member
            rcases level.covered pointer member with waiting | done | ⟨_, entered, _⟩
            · cases waiting
            · exact done
            · rw [← outside] at entered
              cases entered
        | cons first pending => cases emptied
    | @node _ _ pending => cases pending <;> cases emptied
  have finished : ∀ pointer, Reaches candidate pointer → Finished search pointer := by
    intro pointer reaches
    induction reaches with
    | root member => exact covered _ member
    | @child id children pointer _ found member visited =>
        rcases sound.settled id visited with ⟨others, otherFound, _, done⟩
        rw [found] at otherFound
        cases otherFound
        exact done pointer member
  constructor
  · rintro ⟨id, reaches, cycle⟩
    have accessible := (sound.acyclic id (finished _ reaches)).transGen
    exact not_self_of_acc accessible (Relation.transGen_swap.mpr cycle)
  · intro id reaches
    rcases sound.settled id (finished _ reaches) with ⟨children, found, parent, _⟩
    exact ⟨children, found, parent⟩
  · intro id
    exact ⟨sound.leaves id, finished (.ingress id)⟩

theorem loop_of_empty (done : search.stack = []) :
    loop candidate.graph search = .ok search.leaves := by
  rw [loop]
  split
  · rfl
  · rename_i popped
    rw [done] at popped
    cases popped

theorem loop_of_error
    (popped : search.stack = (pointer, exit) :: rest)
    (turn : visit candidate.graph { search with stack := rest } pointer exit = .error reason) :
    loop candidate.graph search = .error reason := by
  rw [loop]
  split
  · rename_i done
    rw [done] at popped
    cases popped
  · rename_i same
    rw [popped] at same
    cases same
    split <;> rename_i other <;> rw [turn] at other <;> cases other
    rfl

theorem loop_of_ok
    (popped : search.stack = (pointer, exit) :: rest)
    (turn : visit candidate.graph { search with stack := rest } pointer exit = .ok next) :
    loop candidate.graph search = loop candidate.graph next := by
  rw [loop]
  split
  · rename_i done
    rw [done] at popped
    cases popped
  · rename_i same
    rw [popped] at same
    cases same
    split <;> rename_i other <;> rw [turn] at other <;> cases other
    rfl

theorem visit_size (visited : visit candidate.graph search pointer exit = .ok next)
    (within : search.leaves.size ≤ maxGraphNodes) : next.leaves.size ≤ maxGraphNodes := by
  cases pointer with
  | ingress id =>
      simp only [Provenance.visit] at visited
      split at visited
      · cases visited
      · rename_i few
        cases visited
        exact Nat.le_of_not_lt few
  | generated id =>
      simp only [Provenance.visit] at visited
      split at visited
      · cases visited
        exact within
      · split at visited
        · cases visited
        · split at visited
          · cases visited
            exact within
          · split at visited
            · cases visited
            · split at visited
              · cases visited
              · split at visited
                · cases visited
                · split at visited
                  · cases visited
                  · cases visited
                    exact within

/-- The loop never collects more leaves than a graph may have nodes. -/
theorem loop_size {leaves : BTreeSet String}
    (found : Provenance.loop candidate.graph search = .ok leaves)
    (within : search.leaves.size ≤ maxGraphNodes) : leaves.size ≤ maxGraphNodes := by
  induction search using Provenance.loop.induct candidate.graph with
  | case1 search done =>
      rw [loop_of_empty done] at found
      cases found
      exact within
  | case2 search pointer exit rest popped reason turn =>
      rw [loop_of_error popped turn] at found
      cases found
  | case3 search pointer exit rest popped next turn ih =>
      rw [loop_of_ok popped turn] at found
      exact ih found (visit_size turn within)

/-- The loop ends with the leaves of the candidate or with a reason. -/
theorem Sound.loop (sound : Sound candidate search path) :
    match Provenance.loop candidate.graph search with
    | .ok leaves => RestsOn candidate leaves
    | .error reason => Refutes candidate reason := by
  induction search using Provenance.loop.induct candidate.graph generalizing path with
  | case1 search done =>
      rw [loop_of_empty done]
      exact sound.restsOn done
  | case2 search pointer exit rest popped reason turn =>
      rw [loop_of_error popped turn]
      exact sound.refutes popped turn
  | case3 search pointer exit rest popped next turn ih =>
      rcases sound.visit popped turn with ⟨later, kept⟩
      rw [loop_of_ok popped turn]
      exact ih kept

end Search

section Roots

variable {candidate : Candidate} {leaves : BTreeSet String} {reason : ProvenanceFailure}

theorem restsOn_of_roots (found : roots candidate = .ok leaves) :
    RestsOn candidate leaves ∧ leaves.isEmpty = false := by
  have searched := (@sound_start candidate).loop
  rw [roots] at found
  split at found
  · cases found
  · generalize loop candidate.graph _ = outcome at found searched
    cases outcome with
    | error reason => cases found
    | ok collected =>
        simp only at found
        split at found
        · cases found
        · rename_i some
          cases found
          exact ⟨searched, by simpa using some⟩

theorem size_of_roots (found : roots candidate = .ok leaves) : leaves.size ≤ maxGraphNodes := by
  rw [roots] at found
  split at found
  · cases found
  · split at found
    · cases found
    · rename_i collected searched
      split at found
      · cases found
      · cases found
        exact loop_size searched (Nat.zero_le _)

/-- A failure within the bound is a cycle, an ungrounded node or a candidate
without leaves. -/
theorem refutes_of_roots (failed : roots candidate = .error reason) :
    Refutes candidate reason ∨
      (reason = .ungroundedRoot ∧ ∀ id, ¬ Reaches candidate (.ingress id)) := by
  have searched := (@sound_start candidate).loop
  rw [roots] at failed
  split at failed
  · rename_i large
    cases failed
    apply Or.inl
    apply Or.inl
    unfold extent
    omega
  · generalize loop candidate.graph _ = outcome at failed searched
    cases outcome with
    | error found =>
        cases failed
        exact .inl searched
    | ok collected =>
        simp only at failed
        split at failed
        · rename_i none
          cases failed
          refine .inr ⟨rfl, fun id reaches => ?_⟩
          have member := (searched.exact id).mpr reaches
          rw [Std.ExtTreeSet.isEmpty_iff] at none
          rw [none] at member
          exact Std.ExtTreeSet.not_mem_empty member
        · cases failed

/-- The search is exact: a result is the set of all leaves under the roots of an
acyclic and grounded candidate, a reported cycle exists, and within the bound of
the graph every such candidate with a leaf has a result. -/
theorem roots_exact (candidate : Candidate) :
    (∀ leaves, roots candidate = .ok leaves →
      RestsOn candidate leaves ∧ leaves.isEmpty = false) ∧
    (roots candidate = .error .cycle → Cyclic candidate) ∧
    (extent candidate ≤ maxGraphNodes →
      ((∃ leaves, roots candidate = .ok leaves) ↔
        ¬ Cyclic candidate ∧ Grounded candidate ∧ ∃ id, Reaches candidate (.ingress id))) := by
  refine ⟨fun leaves => restsOn_of_roots, ?_, fun small => ⟨?_, ?_⟩⟩
  · intro failed
    rcases refutes_of_roots failed with cyclic | ⟨other, _⟩
    · exact cyclic
    · cases other
  · rintro ⟨leaves, found⟩
    rcases restsOn_of_roots found with ⟨⟨acyclic, grounded, exact⟩, some⟩
    refine ⟨acyclic, grounded, ?_⟩
    by_contra none
    apply Std.ExtTreeSet.isEmpty_eq_false_iff.mp some
    apply Std.ExtTreeSet.ext_mem
    intro id
    simp only [Std.ExtTreeSet.not_mem_empty, iff_false]
    exact fun member => none ⟨id, (exact id).mp member⟩
  · rintro ⟨acyclic, grounded, id, reaches⟩
    cases outcome : roots candidate with
    | ok leaves => exact ⟨leaves, rfl⟩
    | error reason =>
        rcases refutes_of_roots outcome with refuted | ⟨_, none⟩
        · cases reason with
          | cycle => exact absurd refuted acyclic
          | ungroundedRoot =>
              rcases refuted with large | ungrounded
              · exact absurd small (Nat.not_le.mpr large)
              · exact absurd grounded ungrounded
        · exact absurd reaches (none id)

end Roots

end Provenance

end Llxprt.Kernel
