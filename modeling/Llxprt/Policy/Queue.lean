import Llxprt.Rust.Collections
import Llxprt.Rust.Integers
import Mathlib.Algebra.Order.BigOperators.Group.List
import Mathlib.Algebra.Order.Group.Nat
import Mathlib.Data.List.Count
import Mathlib.Data.List.Perm.Basic
import Mathlib.Logic.Function.Basic

/-!
# Classed proposal queues

One first-in first-out queue for each service class.  A cycle serves the reserved
shares first and fills the remaining slots in preemption order; whatever it does
is a sequence of pops, each of which takes the front of one queue.
-/

namespace Llxprt.Policy

open Llxprt.Rust

/-- Service classes in preemption order. -/
inductive QueueClass where
  | safety
  | ingress
  | model
  | controller
  | monitor
  deriving DecidableEq

def QueueClass.all : List QueueClass :=
  [safety, ingress, model, controller, monitor]

structure SourceRange where
  start : UInt64
  len : UInt32
  deriving DecidableEq

instance : Ord SourceRange :=
  ⟨compareLex (compareOn SourceRange.start) (compareOn SourceRange.len)⟩

instance : Std.TransOrd SourceRange :=
  inferInstanceAs (Std.TransCmp
    (compareLex (compareOn SourceRange.start) (compareOn SourceRange.len)))

instance : Std.LawfulEqOrd SourceRange where
  eq_of_compare {left right} same := by
    have fields : (compare left.start right.start).then (compare left.len right.len) = .eq := same
    rw [Ordering.then_eq_eq] at fields
    rcases left with ⟨start, len⟩
    rcases right with ⟨otherStart, otherLen⟩
    simp only [Std.LawfulEqOrd.compare_eq_iff_eq] at fields
    rw [fields.1, fields.2]

/-- The position of an operation in the closed transaction registry. -/
structure OperationClass where
  index : UInt8
  deriving DecidableEq

/-- Semantic identity, independent of service class and caller. -/
structure SemanticKey where
  operation : OperationClass
  ranges : List SourceRange
  sourceVersion : UInt64
  deriving DecidableEq

namespace SemanticKey

def order : SemanticKey → SemanticKey → Ordering :=
  compareLex (compareOn fun key => key.operation.index)
    (compareLex (compareOn ranges) (compareOn sourceVersion))

instance : Ord SemanticKey :=
  ⟨order⟩

instance : Std.TransOrd SemanticKey :=
  inferInstanceAs (Std.TransCmp (compareLex (compareOn fun key => key.operation.index)
    (compareLex (compareOn ranges) (compareOn sourceVersion))))

instance : Std.LawfulEqOrd SemanticKey where
  eq_of_compare {left right} same := by
    have fields : (compare left.operation.index right.operation.index).then
        ((compare left.ranges right.ranges).then
          (compare left.sourceVersion right.sourceVersion)) = .eq := same
    rw [Ordering.then_eq_eq, Ordering.then_eq_eq] at fields
    rcases left with ⟨⟨operation⟩, ranges, version⟩
    rcases right with ⟨⟨otherOperation⟩, otherRanges, otherVersion⟩
    simp only [Std.LawfulEqOrd.compare_eq_iff_eq] at fields
    rw [fields.1, fields.2.1, fields.2.2]

end SemanticKey

structure Proposal where
  serviceClass : QueueClass
  key : SemanticKey
  priority : UInt8
  tokens : UInt64

/-- Reserved shares of a cycle and the bound on reproposals. -/
structure QueueConfig where
  cycleSlots : Nat
  maxRetries : UInt32
  shares : QueueClass → Option Nat

/-- The share of a class; a validated configuration has one for every class. -/
def QueueConfig.share (config : QueueConfig) (queueClass : QueueClass) : Nat :=
  (config.shares queueClass).getD 0

/-- The reserved shares as `new` sums them: a `usize` sum that wraps around. -/
def QueueConfig.reserved (config : QueueConfig) : Nat :=
  (QueueClass.all.map config.share).sum % 2 ^ 64

/-- Every class has a share and the shares, summed exactly, fit into a cycle. -/
def QueueConfig.Valid (config : QueueConfig) : Prop :=
  (∀ queueClass, (config.shares queueClass).isSome) ∧
    (QueueClass.all.map config.share).sum ≤ config.cycleSlots

structure ClassedQueues where
  config : QueueConfig
  queues : QueueClass → List Proposal
  pending : BTreeSet SemanticKey
  retries : BTreeMap SemanticKey UInt32
  served : BTreeMap SemanticKey UInt32

/-- `u32::saturating_add` of one. -/
def saturatingSucc (count : UInt32) : UInt32 :=
  if count.toNat + 1 < 2 ^ 32 then count + 1 else count

theorem toNat_saturatingSucc (count : UInt32) :
    (saturatingSucc count).toNat = min (count.toNat + 1) (2 ^ 32 - 1) := by
  have bound := count.toNat_lt
  unfold saturatingSucc
  split
  · rename_i low
    have next : (count + 1).toNat = count.toNat + 1 := by
      rw [UInt32.toNat_add]
      exact Nat.mod_eq_of_lt low
    omega
  · omega

namespace ClassedQueues

/-- Empty queues; the two assertions look for the shares and compare their sum
with the slots. -/
def new (config : QueueConfig) : Option ClassedQueues :=
  if QueueClass.all.all (fun queueClass => (config.shares queueClass).isSome) then
    if config.reserved ≤ config.cycleSlots then
      some ⟨config, fun _ => [], ∅, ∅, ∅⟩
    else
      none
  else
    none

def pushBack (queues : ClassedQueues) (proposal : Proposal) : ClassedQueues :=
  { queues with
    pending := queues.pending.insert proposal.key
    queues := Function.update queues.queues proposal.serviceClass
      (queues.queues proposal.serviceClass ++ [proposal]) }

/-- A key that is pending or was served before is a duplicate. -/
def submit (queues : ClassedQueues) (proposal : Proposal) : Bool × ClassedQueues :=
  if queues.retries.contains proposal.key then
    (false, queues)
  else
    (true, { queues with retries := queues.retries.insert proposal.key 0 }.pushBack proposal)

/-- A served proposal comes back while its retry budget remains. -/
def repropose (queues : ClassedQueues) (proposal : Proposal) : Bool × ClassedQueues :=
  if queues.pending.contains proposal.key then
    (false, queues)
  else
    match queues.retries[proposal.key]? with
    | none => (false, queues)
    | some retries =>
        if queues.config.maxRetries ≤ retries then
          (false, queues)
        else
          (true, { queues with
            retries := queues.retries.insert proposal.key (saturatingSucc retries) }.pushBack
              proposal)

/-- The proposal leaves the front of its queue. -/
def pop (queues : ClassedQueues) (queueClass : QueueClass) (proposal : Proposal)
    (rest : List Proposal) : ClassedQueues :=
  { queues with
    queues := Function.update queues.queues queueClass rest
    pending := queues.pending.erase proposal.key
    served := queues.served.insert proposal.key
      (saturatingSucc (queues.served[proposal.key]?.getD 0)) }

/-- The innermost loop: at most `limit` pops from one queue. -/
def drain (queueClass : QueueClass) : Nat → ClassedQueues → List Proposal →
    List Proposal × ClassedQueues
  | 0, queues, out => (out, queues)
  | limit + 1, queues, out =>
      match queues.queues queueClass with
      | [] => (out, queues)
      | proposal :: rest =>
          drain queueClass limit (queues.pop queueClass proposal rest) (out ++ [proposal])

/-- How many proposals of a class a pass may take; the first pass is bounded by
the reserved share. -/
def limit (config : QueueConfig) (reserved : Bool) (queueClass : QueueClass) (taken : Nat) : Nat :=
  if reserved then min (config.share queueClass) (config.cycleSlots - taken)
  else config.cycleSlots - taken

/-- One pass over the classes, left as soon as the cycle is full. -/
def servePass (reserved : Bool) : List QueueClass → ClassedQueues → List Proposal →
    List Proposal × ClassedQueues
  | [], queues, out => (out, queues)
  | queueClass :: classes, queues, out =>
      match drain queueClass (limit queues.config reserved queueClass out.length) queues out with
      | (out, queues) =>
          if out.length = queues.config.cycleSlots then (out, queues)
          else servePass reserved classes queues out

def serviceCycle (queues : ClassedQueues) : List Proposal × ClassedQueues :=
  match servePass true QueueClass.all queues [] with
  | (out, queues) =>
      if out.length = queues.config.cycleSlots then (out, queues)
      else servePass false QueueClass.all queues out

def retriesFor (queues : ClassedQueues) (key : SemanticKey) : UInt32 :=
  queues.retries[key]?.getD 0

def servedFor (queues : ClassedQueues) (key : SemanticKey) : UInt32 :=
  queues.served[key]?.getD 0

/-- All queued proposals. -/
def queued (queues : ClassedQueues) : List Proposal :=
  QueueClass.all.flatMap queues.queues

/-- Every proposal stands in the queue of its class. -/
def Classed (queues : ClassedQueues) : Prop :=
  ∀ queueClass, ∀ proposal ∈ queues.queues queueClass, proposal.serviceClass = queueClass

/-- The proposals leave the fronts of their queues one after the other. -/
inductive Pops : ClassedQueues → List Proposal → ClassedQueues → Prop
  | done (queues : ClassedQueues) : Pops queues [] queues
  | step {queues later : ClassedQueues} {proposal : Proposal} {rest out : List Proposal}
      (front : queues.queues proposal.serviceClass = proposal :: rest)
      (pops : Pops (queues.pop proposal.serviceClass proposal rest) out later) :
      Pops queues (proposal :: out) later

variable {queues middle later : ClassedQueues} {proposal : Proposal} {out more : List Proposal}
  {queueClass : QueueClass}

theorem Pops.append (first : Pops queues out middle) (second : Pops middle more later) :
    Pops queues (out ++ more) later := by
  induction first with
  | done queues => exact second
  | step front pops ih => exact .step front (ih second)

theorem Pops.config (pops : Pops queues out later) : later.config = queues.config := by
  induction pops with
  | done queues => rfl
  | step front pops ih => exact ih

/-- The proposals of one class among those served. -/
def ofClass (queueClass : QueueClass) (out : List Proposal) : List Proposal :=
  out.filter fun proposal => proposal.serviceClass = queueClass

theorem pop_queues_self {rest : List Proposal} :
    (queues.pop queueClass proposal rest).queues queueClass = rest :=
  Function.update_self ..

theorem pop_queues_other {rest : List Proposal} {other : QueueClass}
    (distinct : other ≠ queueClass) :
    (queues.pop queueClass proposal rest).queues other = queues.queues other :=
  Function.update_of_ne distinct ..

/-- Each queue loses exactly its own proposals, from the front. -/
theorem Pops.fifo (pops : Pops queues out later) (queueClass : QueueClass) :
    queues.queues queueClass = ofClass queueClass out ++ later.queues queueClass := by
  induction pops with
  | done queues => rfl
  | @step queues later proposal rest out front pops ih =>
      by_cases own : proposal.serviceClass = queueClass
      · subst own
        rw [pop_queues_self] at ih
        rw [front, ih, ofClass, ofClass, List.filter_cons_of_pos (by simp), List.cons_append]
      · rw [pop_queues_other (Ne.symm own)] at ih
        rw [ih, ofClass, ofClass, List.filter_cons_of_neg (by simpa using own)]

theorem Classed.pop {rest : List Proposal} (classed : queues.Classed)
    (front : queues.queues queueClass = proposal :: rest) :
    (queues.pop queueClass proposal rest).Classed := by
  intro other queuedProposal member
  by_cases same : other = queueClass
  · subst same
    rw [pop_queues_self] at member
    exact classed other queuedProposal (by rw [front]; exact List.mem_cons_of_mem _ member)
  · rw [pop_queues_other same] at member
    exact classed other queuedProposal member

theorem Classed.pops (classed : queues.Classed) (pops : Pops queues out later) :
    later.Classed := by
  induction pops with
  | done queues => exact classed
  | step front pops ih => exact ih (classed.pop front)

/-- The loop pops as many proposals as its limit and its queue allow. -/
theorem drain_pops (classed : queues.Classed) (limit : Nat) :
    ∃ later, drain queueClass limit queues out =
      (out ++ (queues.queues queueClass).take limit, later) ∧
      Pops queues ((queues.queues queueClass).take limit) later := by
  induction limit generalizing queues out with
  | zero =>
      refine ⟨queues, ?_, .done queues⟩
      rw [drain, List.take_zero, List.append_nil]
  | succ limit ih =>
      rw [drain]
      cases front : queues.queues queueClass with
      | nil => exact ⟨queues, by simp, .done queues⟩
      | cons proposal rest =>
          have own : proposal.serviceClass = queueClass :=
            classed queueClass proposal (by rw [front]; exact List.mem_cons_self)
          subst own
          rcases @ih (queues.pop proposal.serviceClass proposal rest) (out ++ [proposal])
            (classed.pop front) with ⟨later, drained, pops⟩
          rw [pop_queues_self] at drained pops
          refine ⟨later, ?_, .step front pops⟩
          simp only [drained, List.take_succ_cons, List.append_assoc, List.singleton_append]

/-- A pass is a sequence of pops that never overfills the cycle. -/
theorem servePass_pops (reserved : Bool) (classes : List QueueClass) (classed : queues.Classed)
    (room : out.length ≤ queues.config.cycleSlots) :
    ∃ popped later, servePass reserved classes queues out = (out ++ popped, later) ∧
      Pops queues popped later ∧ (out ++ popped).length ≤ queues.config.cycleSlots := by
  induction classes generalizing queues out with
  | nil =>
      refine ⟨[], queues, ?_, .done queues, ?_⟩
      · rw [servePass, List.append_nil]
      · rw [List.append_nil]
        exact room
  | cons queueClass classes ih =>
      let bound := limit queues.config reserved queueClass out.length
      let taken := (queues.queues queueClass).take bound
      rcases @drain_pops queues out queueClass classed bound with ⟨middle, drained, pops⟩
      have config := pops.config
      have fits : (out ++ taken).length ≤ queues.config.cycleSlots := by
        have low : bound ≤ queues.config.cycleSlots - out.length := by
          unfold bound limit
          split
          · exact Nat.min_le_right _ _
          · exact Nat.le_refl _
        have short : taken.length ≤ bound := List.length_take_le ..
        rw [List.length_append]
        omega
      rw [servePass, drained]
      simp only
      split
      · exact ⟨taken, middle, rfl, pops, fits⟩
      · rw [← config] at fits
        rcases ih (classed.pops pops) fits with ⟨popped, later, passed, rest, full⟩
        refine ⟨taken ++ popped, later, ?_, pops.append rest, ?_⟩
        · rw [passed, List.append_assoc]
        · rw [← config, ← List.append_assoc]
          exact full

theorem ofClass_take (classed : queues.Classed) (count : Nat) :
    ofClass queueClass ((queues.queues queueClass).take count) =
      (queues.queues queueClass).take count := by
  apply List.filter_eq_self.mpr
  intro proposal member
  exact decide_eq_true (classed queueClass proposal (List.mem_of_mem_take member))

theorem ofClass_take_other (classed : queues.Classed) {other : QueueClass}
    (distinct : other ≠ queueClass) (count : Nat) :
    ofClass other ((queues.queues queueClass).take count) = [] := by
  apply List.filter_eq_nil_iff.mpr
  intro proposal member same
  have own := classed queueClass proposal (List.mem_of_mem_take member)
  exact distinct ((of_decide_eq_true same).symm.trans own)

theorem ofClass_append : ofClass queueClass (out ++ more) =
    ofClass queueClass out ++ ofClass queueClass more :=
  List.filter_append ..

/-- The first pass serves every class up to its share, as the shares fit into
what is left of the cycle. -/
theorem share_served {classes : List QueueClass} {popped : List Proposal}
    (classed : queues.Classed) (nodup : classes.Nodup)
    (room : out.length + (classes.map queues.config.share).sum ≤ queues.config.cycleSlots)
    (passed : servePass true classes queues out = (out ++ popped, later)) :
    ∀ queueClass ∈ classes,
      min (queues.config.share queueClass) (queues.queues queueClass).length ≤
        (ofClass queueClass popped).length := by
  induction classes generalizing queues out popped with
  | nil =>
      intro queueClass member
      cases member
  | cons head classes ih =>
      rw [List.map_cons, List.sum_cons] at room
      rcases List.nodup_cons.mp nodup with ⟨fresh, distinct⟩
      let share := queues.config.share head
      let taken := (queues.queues head).take share
      have bound : limit queues.config true head out.length = share := by
        unfold limit
        rw [if_pos rfl]
        apply Nat.min_eq_left
        omega
      have short : taken.length = min share (queues.queues head).length := List.length_take ..
      rcases @drain_pops queues out head classed share with ⟨middle, drained, pops⟩
      rw [servePass, bound, drained] at passed
      simp only at passed
      have config := pops.config
      have served : min share (queues.queues head).length ≤ (ofClass head taken).length := by
        rw [ofClass_take classed, List.length_take]
      intro queueClass member
      split at passed
      · rename_i full
        have own : taken = popped := List.append_cancel_left (Prod.mk.inj passed).1
        rw [← own]
        rcases List.mem_cons.mp member with rfl | inside
        · exact served
        · have total := full
          rw [config, List.length_append] at total
          change out.length + taken.length = queues.config.cycleSlots at total
          have none : queues.config.share queueClass ≤ (classes.map queues.config.share).sum :=
            List.le_sum_of_mem (List.mem_map_of_mem inside)
          omega
      · rcases @servePass_pops middle (out ++ taken) true classes (classed.pops pops) (by
            rw [config, List.length_append]
            omega) with ⟨others, last, rest, _, _⟩
        have whole := passed.symm.trans rest
        have own : popped = taken ++ others := by
          have := (Prod.mk.inj whole).1
          rw [List.append_assoc] at this
          exact List.append_cancel_left this
        rw [own, ofClass_append, List.length_append]
        rcases List.mem_cons.mp member with rfl | inside
        · exact Nat.le_trans served (Nat.le_add_right _ _)
        · have other : queueClass ≠ head := by
            rintro rfl
            exact fresh inside
          have untouched := pops.fifo queueClass
          rw [ofClass_take_other classed other, List.nil_append] at untouched
          have later := @ih middle (out ++ taken) others (classed.pops pops) distinct (by
            rw [config, List.length_append]
            omega) (by rw [rest, (Prod.mk.inj whole).2]) queueClass inside
          rw [config, ← untouched] at later
          exact Nat.le_trans later (Nat.le_add_left _ _)

theorem nodup_all : QueueClass.all.Nodup := by
  decide

theorem mem_all (queueClass : QueueClass) : queueClass ∈ QueueClass.all := by
  cases queueClass <;> decide

/-- A cycle is a sequence of pops that fits into its slots and serves every class
up to its share. -/
theorem serviceCycle_pops (classed : queues.Classed) (valid : queues.config.Valid) :
    Pops queues queues.serviceCycle.1 queues.serviceCycle.2 ∧
      queues.serviceCycle.1.length ≤ queues.config.cycleSlots ∧
      ∀ queueClass, min (queues.config.share queueClass) (queues.queues queueClass).length ≤
        (ofClass queueClass queues.serviceCycle.1).length := by
  rcases @servePass_pops queues [] true QueueClass.all classed (Nat.zero_le _) with
    ⟨first, middle, passed, pops, fits⟩
  have shares := @share_served queues middle [] QueueClass.all first classed nodup_all
    (by simpa using valid.2) passed
  rw [List.nil_append] at passed fits
  have config := pops.config
  unfold serviceCycle
  rw [passed]
  simp only
  split
  · exact ⟨pops, fits, fun queueClass => shares queueClass (mem_all queueClass)⟩
  · rw [← config] at fits
    rcases servePass_pops false QueueClass.all (classed.pops pops) fits with
      ⟨second, last, again, more, full⟩
    rw [again]
    refine ⟨pops.append more, ?_, ?_⟩
    · rw [← config]
      exact full
    · intro queueClass
      rw [ofClass_append, List.length_append]
      exact Nat.le_trans (shares queueClass (mem_all queueClass)) (Nat.le_add_right _ _)

/-- Growing one queue grows the whole by the same proposals. -/
theorem flatMap_update_perm {classes : List QueueClass} (nodup : classes.Nodup)
    (member : queueClass ∈ classes) {queue : QueueClass → List Proposal} {grown : List Proposal}
    (perm : grown.Perm (queue queueClass ++ out)) :
    (classes.flatMap (Function.update queue queueClass grown)).Perm
      (classes.flatMap queue ++ out) := by
  induction classes with
  | nil => cases member
  | cons head classes ih =>
      rcases List.nodup_cons.mp nodup with ⟨fresh, distinct⟩
      rw [List.flatMap_cons, List.flatMap_cons, List.append_assoc]
      by_cases own : queueClass = head
      · subst own
        have same : classes.flatMap (Function.update queue queueClass grown) =
            classes.flatMap queue := by
          apply List.flatMap_congr
          intro other inside
          apply Function.update_of_ne
          rintro rfl
          exact fresh inside
        rw [Function.update_self, same]
        calc (grown ++ classes.flatMap queue).Perm
              (queue queueClass ++ out ++ classes.flatMap queue) := perm.append_right _
          _ = queue queueClass ++ (out ++ classes.flatMap queue) := List.append_assoc ..
          List.Perm _ (queue queueClass ++ (classes.flatMap queue ++ out)) :=
              List.perm_append_comm.append_left _
      · rw [Function.update_of_ne (Ne.symm own)]
        rcases List.mem_cons.mp member with rfl | inside
        · exact absurd rfl own
        · exact (ih distinct inside).append_left _

theorem queued_pushBack : (queues.pushBack proposal).queued.Perm (queues.queued ++ [proposal]) :=
  flatMap_update_perm nodup_all (mem_all _) (List.Perm.refl _)

theorem queued_pop {rest : List Proposal}
    (front : queues.queues queueClass = proposal :: rest) :
    queues.queued.Perm ((queues.pop queueClass proposal rest).queued ++ [proposal]) := by
  have whole : queues.queues = Function.update
      (queues.pop queueClass proposal rest).queues queueClass (proposal :: rest) := by
    funext other
    by_cases same : other = queueClass
    · subst same
      rw [Function.update_self, front]
    · rw [Function.update_of_ne same, pop_queues_other same]
  have moved : (proposal :: rest).Perm
      ((queues.pop queueClass proposal rest).queues queueClass ++ [proposal]) := by
    rw [pop_queues_self]
    exact (List.perm_append_singleton proposal rest).symm
  unfold queued
  rw [whole]
  exact flatMap_update_perm nodup_all (mem_all queueClass) moved

end ClassedQueues

/-- One call on the queues. -/
inductive QueueCall where
  | submit (proposal : Proposal)
  | repropose (proposal : Proposal)
  | serviceCycle

/-- The queues with every accepted proposal and every served one, in order. -/
structure QueueRun where
  queues : ClassedQueues
  accepted : List Proposal
  served : List Proposal

namespace QueueRun

open ClassedQueues

def perform (run : QueueRun) : QueueCall → QueueRun
  | .submit proposal =>
      let (taken, queues) := run.queues.submit proposal
      ⟨queues, if taken then run.accepted ++ [proposal] else run.accepted, run.served⟩
  | .repropose proposal =>
      let (taken, queues) := run.queues.repropose proposal
      ⟨queues, if taken then run.accepted ++ [proposal] else run.accepted, run.served⟩
  | .serviceCycle =>
      let (out, queues) := run.queues.serviceCycle
      ⟨queues, run.accepted, run.served ++ out⟩

def after (queues : ClassedQueues) (calls : List QueueCall) : QueueRun :=
  calls.foldl perform ⟨queues, [], []⟩

/-- How often a key was accepted. -/
def acceptances (run : QueueRun) (key : SemanticKey) : Nat :=
  (run.accepted.map Proposal.key).count key

/-- How often a key was served. -/
def services (run : QueueRun) (key : SemanticKey) : Nat :=
  (run.served.map Proposal.key).count key

/-- Work is conserved: what was accepted is queued or served, the pending set
names the queued keys, and the two counters say how often a key was accepted and
served. -/
structure Conserved (run : QueueRun) : Prop where
  classed : run.queues.Classed
  pending : ∀ key, key ∈ run.queues.pending ↔ key ∈ run.queues.queued.map Proposal.key
  nodup : (run.queues.queued.map Proposal.key).Nodup
  balance : run.accepted.Perm (run.served ++ run.queues.queued)
  counted : ∀ key, run.acceptances key =
    match run.queues.retries[key]? with
    | none => 0
    | some retries => retries.toNat + 1
  bounded : ∀ (key : SemanticKey) retries, run.queues.retries[key]? = some retries →
    retries ≤ run.queues.config.maxRetries
  tally : ∀ key, (run.queues.servedFor key).toNat = min (run.services key) (2 ^ 32 - 1)

variable {run : QueueRun} {proposal : Proposal}

/-- A valid configuration passes both assertions: its exact sum fits into the
slots, so the wrapped one does. -/
theorem new_of_valid {config : QueueConfig} (valid : config.Valid) :
    new config = some ⟨config, fun _ => [], ∅, ∅, ∅⟩ := by
  have present : QueueClass.all.all (fun queueClass => (config.shares queueClass).isSome) = true :=
    List.all_eq_true.mpr fun queueClass _ => valid.1 queueClass
  have fits : config.reserved ≤ config.cycleSlots := Nat.le_trans (Nat.mod_le _ _) valid.2
  unfold new
  rw [if_pos present, if_pos fits]

-- Shares whose sum wraps around pass the assertions without fitting.
example : (new ⟨5, 4, fun queueClass =>
    some (if queueClass = .safety then 2 ^ 64 - 1 else 1)⟩).isSome = true := by
  decide

theorem conserved_new {config : QueueConfig} {queues : ClassedQueues}
    (built : new config = some queues) : queues.config = config ∧
      Conserved ⟨queues, [], []⟩ := by
  unfold new at built
  split at built
  · split at built
    · cases built
      refine ⟨rfl, ?_, ?_, List.nodup_nil, .nil, ?_, ?_, ?_⟩
      · intro queueClass proposal member
        cases member
      · intro key
        constructor
        · intro member
          exact absurd member Std.ExtTreeSet.not_mem_empty
        · intro member
          cases member
      · intro key
        simp [acceptances]
      · intro key retries found
        simp at found
      · intro key
        simp [servedFor, services]
    · cases built
  · cases built

/-- One pop moves the front of a queue to the served proposals. -/
theorem Conserved.pop {rest : List Proposal} (conserved : run.Conserved)
    (front : run.queues.queues proposal.serviceClass = proposal :: rest) :
    Conserved ⟨run.queues.pop proposal.serviceClass proposal rest, run.accepted,
      run.served ++ [proposal]⟩ where
  classed := conserved.classed.pop front
  pending := by
    intro key
    have perm := (queued_pop front).map Proposal.key
    have nodup := perm.nodup_iff.mp conserved.nodup
    rw [List.map_append, List.map_singleton, List.nodup_append] at nodup
    have before := conserved.pending key
    rw [perm.mem_iff, List.map_append, List.mem_append, List.map_singleton,
      List.mem_singleton] at before
    change key ∈ run.queues.pending.erase proposal.key ↔ _
    rw [Std.ExtTreeSet.mem_erase, before, ne_eq, Std.LawfulEqOrd.compare_eq_iff_eq]
    constructor
    · rintro ⟨other, member | same⟩
      · exact member
      · exact absurd same.symm other
    · intro member
      refine ⟨?_, .inl member⟩
      rintro rfl
      exact nodup.2.2 _ member _ (List.mem_singleton_self _) rfl
  nodup := by
    have perm := (queued_pop front).map Proposal.key
    have nodup := perm.nodup_iff.mp conserved.nodup
    rw [List.map_append] at nodup
    exact (List.nodup_append.mp nodup).1
  balance := by
    have perm := (queued_pop front).append_left run.served
    refine conserved.balance.trans (perm.trans ?_)
    rw [List.append_assoc]
    exact List.perm_append_comm.append_left _
  counted := conserved.counted
  bounded := conserved.bounded
  tally := by
    intro key
    have before := conserved.tally key
    unfold servedFor services at before ⊢
    rw [List.map_append, List.map_singleton, List.count_append]
    change ((run.queues.served.insert proposal.key (saturatingSucc
      (run.queues.served[proposal.key]?.getD 0)))[key]?.getD 0).toNat = _
    rw [Std.ExtTreeMap.getElem?_insert]
    by_cases own : proposal.key = key
    · subst own
      rw [if_pos Std.ReflCmp.compare_self, List.count_singleton_self, Option.getD_some,
        toNat_saturatingSucc, before]
      omega
    · rw [if_neg (fun same => own (Std.LawfulEqOrd.compare_eq_iff_eq.mp same)),
        List.count_singleton, if_neg (by simpa using own), before]
      rfl

theorem Conserved.pops {later : ClassedQueues} {out : List Proposal} (conserved : run.Conserved)
    (pops : Pops run.queues out later) :
    Conserved ⟨later, run.accepted, run.served ++ out⟩ := by
  generalize start : run.queues = queues at pops
  induction pops generalizing run with
  | done queues =>
      subst start
      rw [List.append_nil]
      exact conserved
  | step front pops ih =>
      subst start
      have served := ih (conserved.pop front) rfl
      rw [List.append_assoc] at served
      exact served

/-- An accepted proposal of a key that is not pending joins its queue. -/
theorem Conserved.push {retries : UInt32} (conserved : run.Conserved)
    (idle : proposal.key ∉ run.queues.pending)
    (next : run.acceptances proposal.key = retries.toNat)
    (low : retries ≤ run.queues.config.maxRetries) :
    Conserved ⟨{ run.queues with
        retries := run.queues.retries.insert proposal.key retries }.pushBack proposal,
      run.accepted ++ [proposal], run.served⟩ where
  classed := by
    intro queueClass queuedProposal member
    by_cases own : queueClass = proposal.serviceClass
    · subst own
      simp only [pushBack, Function.update_self, List.mem_append, List.mem_singleton] at member
      rcases member with old | rfl
      · exact conserved.classed _ queuedProposal old
      · rfl
    · simp only [pushBack, Function.update_of_ne own] at member
      exact conserved.classed queueClass queuedProposal member
  pending := by
    intro key
    have perm := (@queued_pushBack { run.queues with
      retries := run.queues.retries.insert proposal.key retries } proposal).map Proposal.key
    rw [perm.mem_iff, List.map_append, List.mem_append, List.map_singleton, List.mem_singleton]
    change key ∈ run.queues.pending.insert proposal.key ↔ _
    rw [Std.ExtTreeSet.mem_insert, conserved.pending key, Std.LawfulEqOrd.compare_eq_iff_eq]
    constructor
    · rintro (same | member)
      · exact .inr same.symm
      · exact .inl member
    · rintro (member | same)
      · exact .inr member
      · exact .inl same.symm
  nodup := by
    have perm := (@queued_pushBack { run.queues with
      retries := run.queues.retries.insert proposal.key retries } proposal).map Proposal.key
    rw [perm.nodup_iff, List.map_append, List.map_singleton, List.nodup_append]
    refine ⟨conserved.nodup, List.pairwise_singleton _ _, ?_⟩
    rintro key member _ fresh rfl
    rw [List.mem_singleton.mp fresh] at member
    exact idle ((conserved.pending proposal.key).mpr member)
  balance := by
    have perm := @queued_pushBack { run.queues with
      retries := run.queues.retries.insert proposal.key retries } proposal
    have grown := conserved.balance.append_right [proposal]
    rw [List.append_assoc] at grown
    exact grown.trans (perm.symm.append_left run.served)
  counted := by
    intro key
    change ((run.accepted ++ [proposal]).map Proposal.key).count key =
      match (run.queues.retries.insert proposal.key retries)[key]? with
      | none => 0
      | some retries => retries.toNat + 1
    rw [List.map_append, List.count_append, List.map_singleton, Std.ExtTreeMap.getElem?_insert]
    by_cases own : proposal.key = key
    · subst own
      rw [if_pos Std.ReflCmp.compare_self, List.count_singleton_self]
      exact congrArg (· + 1) next
    · rw [if_neg (fun same => own (Std.LawfulEqOrd.compare_eq_iff_eq.mp same)),
        List.count_singleton, if_neg (by simpa using own)]
      exact conserved.counted key
  bounded := by
    intro key found bound
    change (run.queues.retries.insert proposal.key retries)[key]? = some found at bound
    rw [Std.ExtTreeMap.getElem?_insert] at bound
    split at bound
    · cases bound
      exact low
    · exact conserved.bounded key found bound
  tally := conserved.tally

/-- A queued key was accepted. -/
theorem Conserved.acceptances_pos {key : SemanticKey} (conserved : run.Conserved)
    (pending : key ∈ run.queues.pending) : 0 < run.acceptances key := by
  have queued := (conserved.pending key).mp pending
  have accepted := (conserved.balance.map Proposal.key).mem_iff.mpr
    (by rw [List.map_append]; exact List.mem_append_right _ queued)
  exact List.count_pos_iff.mpr accepted

theorem Conserved.submit (conserved : run.Conserved) :
    (run.perform (.submit proposal)).Conserved := by
  rw [QueueRun.perform, ClassedQueues.submit]
  by_cases known : run.queues.retries.contains proposal.key = true
  · rw [if_pos known]
    exact conserved
  · rw [if_neg known]
    have missing : run.queues.retries[proposal.key]? = none := by
      apply Std.ExtTreeMap.getElem?_eq_none
      rw [Std.ExtTreeMap.mem_iff_contains]
      exact known
    have never := conserved.counted proposal.key
    rw [missing] at never
    refine conserved.push ?_ never (UInt32.le_iff_toNat_le.mpr (Nat.zero_le _))
    intro pending
    have accepted := conserved.acceptances_pos pending
    rw [never] at accepted
    cases accepted

theorem Conserved.repropose (conserved : run.Conserved) :
    (run.perform (.repropose proposal)).Conserved := by
  rw [QueueRun.perform, ClassedQueues.repropose]
  by_cases pending : run.queues.pending.contains proposal.key = true
  · rw [if_pos pending]
    exact conserved
  · rw [if_neg pending]
    cases known : run.queues.retries[proposal.key]? with
    | none => exact conserved
    | some retries =>
        by_cases spent : run.queues.config.maxRetries ≤ retries
        · simp only [if_pos spent]
          exact conserved
        · simp only [if_neg spent]
          have below : retries.toNat < run.queues.config.maxRetries.toNat := by
            rw [UInt32.le_iff_toNat_le] at spent
            omega
          have limit := run.queues.config.maxRetries.toNat_lt
          have next : (saturatingSucc retries).toNat = retries.toNat + 1 := by
            rw [toNat_saturatingSucc]
            omega
          have times := conserved.counted proposal.key
          rw [known] at times
          refine conserved.push ?_ (times.trans next.symm) ?_
          · rw [Std.ExtTreeSet.mem_iff_contains]
            exact pending
          · rw [UInt32.le_iff_toNat_le, next]
            exact below

/-- The configuration never changes. -/
theorem config_perform (conserved : run.Conserved) (valid : run.queues.config.Valid)
    (call : QueueCall) : (run.perform call).queues.config = run.queues.config := by
  cases call with
  | submit proposal =>
      change (run.queues.submit proposal).2.config = run.queues.config
      unfold ClassedQueues.submit
      split <;> rfl
  | repropose proposal =>
      change (run.queues.repropose proposal).2.config = run.queues.config
      unfold ClassedQueues.repropose
      split
      · rfl
      · split
        · rfl
        · split <;> rfl
  | serviceCycle => exact (serviceCycle_pops conserved.classed valid).1.config

theorem Conserved.perform (conserved : run.Conserved) (valid : run.queues.config.Valid)
    (call : QueueCall) : (run.perform call).Conserved := by
  cases call with
  | submit proposal => exact conserved.submit
  | repropose proposal => exact conserved.repropose
  | serviceCycle => exact conserved.pops (serviceCycle_pops conserved.classed valid).1

theorem conserved_after {config : QueueConfig} {queues : ClassedQueues} (valid : config.Valid)
    (built : new config = some queues) (calls : List QueueCall) :
    (after queues calls).Conserved ∧ (after queues calls).queues.config = config := by
  rcases conserved_new built with ⟨configured, start⟩
  have run : ∀ (calls : List QueueCall) (run : QueueRun), run.Conserved →
      run.queues.config = config → (calls.foldl QueueRun.perform run).Conserved ∧
        (calls.foldl QueueRun.perform run).queues.config = config := by
    intro calls
    induction calls with
    | nil => exact fun run conserved configured => ⟨conserved, configured⟩
    | cons call calls ih =>
        intro run conserved configured
        have still : run.queues.config.Valid := by
          rw [configured]
          exact valid
        exact ih (run.perform call) (conserved.perform still call)
          ((config_perform conserved still call).trans configured)
  exact run calls _ start configured

/-- A key is served at most as often as it was accepted. -/
theorem Conserved.services_le (conserved : run.Conserved) (key : SemanticKey) :
    run.services key ≤ run.acceptances key := by
  unfold services acceptances
  rw [(conserved.balance.map Proposal.key).count_eq, List.map_append, List.count_append]
  exact Nat.le_add_right _ _

theorem Conserved.acceptances_le (conserved : run.Conserved) (key : SemanticKey) :
    run.acceptances key ≤ (run.queues.retriesFor key).toNat + 1 ∧
      run.acceptances key ≤ run.queues.config.maxRetries.toNat + 1 := by
  have times := conserved.counted key
  unfold retriesFor
  cases known : run.queues.retries[key]? with
  | none =>
      rw [known] at times
      rw [times]
      exact ⟨Nat.zero_le _, Nat.zero_le _⟩
  | some retries =>
      rw [known] at times
      have low := UInt32.le_iff_toNat_le.mp (conserved.bounded key retries known)
      rw [times, Option.getD_some]
      exact ⟨Nat.le_refl _, Nat.succ_le_succ low⟩

/-- A valid configuration builds queues, and over every run of them: the pending
set is the set of queued keys and no key is queued twice; what was accepted is
exactly what was served and what is queued; a key is served at most once more
than it was retried; and the next cycle keeps to its slots, honours the shares
and serves every class in order. -/
theorem work_conserved {config : QueueConfig} (valid : config.Valid) :
    ∃ queues, new config = some queues ∧ ∀ calls : List QueueCall,
      let run := after queues calls
      let cycle := run.queues.serviceCycle
      (∀ key, key ∈ run.queues.pending ↔ key ∈ run.queues.queued.map Proposal.key) ∧
      (run.queues.queued.map Proposal.key).Nodup ∧
      run.accepted.Perm (run.served ++ run.queues.queued) ∧
      (∀ key, (run.queues.servedFor key).toNat = min (run.services key) (2 ^ 32 - 1) ∧
        run.services key ≤ (run.queues.retriesFor key).toNat + 1 ∧
        run.services key ≤ config.maxRetries.toNat + 1) ∧
      cycle.1.length ≤ config.cycleSlots ∧
      ∀ queueClass,
        min (config.share queueClass) (run.queues.queues queueClass).length ≤
          (ofClass queueClass cycle.1).length ∧
        run.queues.queues queueClass = ofClass queueClass cycle.1 ++ cycle.2.queues queueClass := by
  have built := new_of_valid valid
  refine ⟨_, built, ?_⟩
  intro calls run cycle
  rcases conserved_after valid built calls with ⟨conserved, configured⟩
  have still : run.queues.config.Valid := by
    rw [configured]
    exact valid
  rcases serviceCycle_pops conserved.classed still with ⟨pops, fits, shares⟩
  rw [configured] at fits shares
  refine ⟨conserved.pending, conserved.nodup, conserved.balance, ?_, fits, ?_⟩
  · intro key
    have bound := conserved.acceptances_le key
    rw [configured] at bound
    exact ⟨conserved.tally key, Nat.le_trans (conserved.services_le key) bound.1,
      Nat.le_trans (conserved.services_le key) bound.2⟩
  · intro queueClass
    exact ⟨shares queueClass, pops.fifo queueClass⟩

/-- The default configuration: five slots, one for each class. -/
def defaultConfig : QueueConfig :=
  ⟨5, 4, fun _ => some 1⟩

def sampleProposal : Proposal :=
  ⟨.model, ⟨⟨0⟩, [⟨0, 8⟩], 1⟩, 0, 16⟩

theorem work_conserved_sample :
    ∃ queues, new defaultConfig = some queues ∧
      (after queues [.submit sampleProposal, .serviceCycle,
        .repropose sampleProposal, .submit sampleProposal]).services sampleProposal.key ≤ 5 := by
  have valid : defaultConfig.Valid := ⟨fun _ => rfl, by decide⟩
  rcases work_conserved valid with ⟨queues, built, runs⟩
  exact ⟨queues, built, ((runs _).2.2.2.1 sampleProposal.key).2.2⟩

end QueueRun
end Llxprt.Policy
