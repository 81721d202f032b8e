import Llxprt.Management.Budget
import Mathlib.Data.List.Induction

/-!
# Runs of the management plane

Calls in any order, with any answers of the gateway and any permits.  The
account of a turn says where every charge came from, and every pool is what is
left of its share; a permit is charged for the compactor at most once as long as
the record of its send is kept.
-/

namespace Llxprt.Management

open Llxprt.Kernel Llxprt.Rust

inductive SpendCall where
  | reserveCandidate
  | compact (permit : CandidatePermit) (configuration : String) (bound : Nat)
      (envelope : QuotedEnvelope) (answers : GatewayAnswers)
  | gateCall (permit : CandidatePermit) (consumer : Consumer) (configuration : String)
      (envelope : QuotedEnvelope) (answers : GatewayAnswers)
  | execute (consumer : Consumer) (configuration : String) (bound : Nat)
      (envelope : QuotedEnvelope) (answers : GatewayAnswers)
  | finishCandidate (permit : CandidatePermit)
  | replenish (turn : Nat)

/-- The plane, the permits a compactor was sent for and what the gate calls
charged against each permit. -/
structure SpendRun where
  plane : ManagementPlane
  compactorSends : List Nat
  gateCharges : List (Nat × Nat)

namespace SpendRun

def perform (run : SpendRun) : SpendCall → Option SpendRun
  | .reserveCandidate => some { run with plane := run.plane.reserveCandidate.2 }
  | .compact permit configuration bound envelope answers =>
      (run.plane.compact permit configuration bound envelope answers).map fun reply =>
        { run with
          plane := reply.plane
          compactorSends :=
            if reply.sent.isSome then run.compactorSends ++ [permit.id] else run.compactorSends }
  | .gateCall permit consumer configuration envelope answers =>
      (run.plane.gateCall permit consumer configuration envelope answers).map fun reply =>
        { run with
          plane := reply.plane
          gateCharges := run.gateCharges ++
            [(permit.id, reply.plane.spend.charged - run.plane.spend.charged)] }
  | .execute consumer configuration bound envelope answers =>
      (run.plane.execute consumer configuration bound envelope answers).map fun reply =>
        { run with plane := reply.plane }
  | .finishCandidate permit =>
      (run.plane.finishCandidate permit).map fun done => { run with plane := done.2 }
  | .replenish turn => some { run with plane := (run.plane.replenish turn).2 }

def after (plane : ManagementPlane) (calls : List SpendCall) : Option SpendRun :=
  calls.foldlM perform ⟨plane, [], []⟩

/-- What the gate calls charged against a permit. -/
def spentOn (run : SpendRun) (id : Nat) : Nat :=
  ((run.gateCharges.filter fun entry => entry.1 = id).map Prod.snd).sum

/-- What a call must not do: drop the record of a send with a permit that is not
the one it was made for, or reserve when the counter of the permits is spent. -/
def Heeds (run : SpendRun) : SpendCall → Prop
  | .reserveCandidate => run.plane.spend.ordinary < run.plane.spend.config.candidateCost ∨
      run.plane.spend.next < u64Max
  | .finishCandidate permit => run.plane.spend.checkPermit permit = .ok () ∨
      permit.id ∉ run.plane.sentCompactors
  | .compact _ _ _ _ _ => True
  | .gateCall _ _ _ _ _ => True
  | .execute _ _ _ _ _ => True
  | .replenish _ => True

/-- The account of the current turn: where its permits start, which permits the
compactor was charged for, and what was taken from each pool. -/
structure Account where
  turnStart : Nat
  compactorCharges : List Nat
  ordinarySpent : Nat
  safetySpent : Nat
  gateSpent : Nat

/-- The compactor charges of the turn. -/
def Account.turnCharges (account : Account) : List Nat :=
  account.compactorCharges.filter fun id => account.turnStart ≤ id

/-- The pools, the charges and the records agree with the account. -/
structure Balanced (run : SpendRun) (account : Account) : Prop where
  valid : run.plane.spend.config.validate = .ok ()
  started : account.turnStart ≤ run.plane.spend.next
  ordinary : run.plane.spend.ordinary + (run.plane.spend.next - account.turnStart) *
    run.plane.spend.config.candidateCost + account.ordinarySpent =
      run.plane.spend.config.ordinary
  safety : run.plane.spend.safety + account.safetySpent =
    run.plane.spend.config.safety - run.plane.spend.config.gateOnly
  gate : run.plane.spend.gateRemaining + account.gateSpent = run.plane.spend.config.gateOnly
  funded : run.plane.spend.config.gateOnly ≤ run.plane.spend.gate +
    (run.plane.spend.next - account.turnStart) * run.plane.spend.config.gateCost
  charged : run.plane.spend.charged = account.turnCharges.length *
    run.plane.spend.config.candidateCost + account.ordinarySpent + account.safetySpent +
      account.gateSpent
  once : account.compactorCharges.Nodup
  issued : ∀ id ∈ account.compactorCharges, id < run.plane.spend.next
  outstanding : ∀ id ∈ run.plane.spend.escrow,
    account.turnStart ≤ id ∧ id < run.plane.spend.next
  recorded : ∀ id ∈ account.compactorCharges, id ∈ run.plane.spend.escrow →
    id ∈ run.plane.sentCompactors
  sends : run.compactorSends.Sublist account.compactorCharges
  escrow : ∀ (id : Nat) amount, run.plane.spend.escrow[id]? = some amount →
    amount + run.spentOn id = run.plane.spend.config.gateCost
  unspent : ∀ id, run.plane.spend.next ≤ id → run.spentOn id = 0

variable {run next : SpendRun} {account : Account} {call : SpendCall}

/-- What a validated configuration promises. -/
theorem valid_config {config : SpendConfig} (valid : config.validate = .ok ()) :
    config.safety ≤ config.total ∧ config.gateOnly ≤ config.safety ∧ 0 < config.candidateCost ∧
      config.ordinary / config.candidateCost * config.gateCost ≤ config.gateOnly := by
  unfold SpendConfig.validate at valid
  split at valid
  · cases valid
  · split at valid
    · cases valid
    · simp only at valid
      split at valid
      · cases valid
      · omega

/-- A turn charges the compactor at most once a permit. -/
theorem Balanced.turnCharges_le (balanced : run.Balanced account) :
    account.turnCharges.length ≤ run.plane.spend.next - account.turnStart := by
  have nodup : account.turnCharges.Nodup := balanced.once.filter _
  have inside : account.turnCharges ⊆
      List.range' account.turnStart (run.plane.spend.next - account.turnStart) := by
    intro id member
    rcases List.mem_filter.mp member with ⟨charged, late⟩
    have early := balanced.issued id charged
    have after := of_decide_eq_true late
    exact List.mem_range'_1.mpr ⟨after, by omega⟩
  have bound := (nodup.subperm inside).length_le
  rw [List.length_range'] at bound
  exact bound

/-- The charges of a turn stay within its total. -/
theorem Balanced.charged_le (balanced : run.Balanced account) :
    run.plane.spend.charged ≤ run.plane.spend.config.total := by
  rcases valid_config balanced.valid with ⟨reserve, gateWithin, _, _⟩
  have charges := Nat.mul_le_mul_right run.plane.spend.config.candidateCost
    balanced.turnCharges_le
  have ordinary := balanced.ordinary
  have safety := balanced.safety
  have gate := balanced.gate
  have charged := balanced.charged
  unfold SpendConfig.ordinary at ordinary
  omega

/-- The gate can back every candidate that the ordinary pool can pay. -/
theorem Balanced.gate_backed (balanced : run.Balanced account)
    (affordable : run.plane.spend.config.candidateCost ≤ run.plane.spend.ordinary) :
    run.plane.spend.config.gateCost ≤ run.plane.spend.gate := by
  rcases valid_config balanced.valid with ⟨_, _, positive, worst⟩
  have ordinary := balanced.ordinary
  have funded := balanced.funded
  generalize run.plane.spend.next - account.turnStart = permits at ordinary funded
  have room : (permits + 1) * run.plane.spend.config.candidateCost ≤
      run.plane.spend.config.ordinary := by
    rw [Nat.add_mul, Nat.one_mul]
    omega
  have possible : permits + 1 ≤
      run.plane.spend.config.ordinary / run.plane.spend.config.candidateCost :=
    (Nat.le_div_iff_mul_le positive).mpr room
  have backed : (permits + 1) * run.plane.spend.config.gateCost ≤
      run.plane.spend.config.gateOnly :=
    Nat.le_trans (Nat.mul_le_mul_right _ possible) worst
  rw [Nat.add_mul, Nat.one_mul] at backed
  omega

/-- The calls that may take gate funds. -/
def drawsGate : SpendCall → Bool
  | .gateCall _ _ _ _ _ => true
  | _ => false

/-- The call goes through and the account can be continued. -/
def Continues (run : SpendRun) (account : Account) (call : SpendCall) : Prop :=
  ∃ next later, run.perform call = some next ∧ Balanced next later ∧
    next.plane.spend.config = run.plane.spend.config ∧
    (drawsGate call = false → later.gateSpent ≤ account.gateSpent)

/-- Sending a call leaves the budget and the records of the plane alone. -/
theorem dispatch_spend (plane : ManagementPlane) (consumer : Consumer) (configuration : String)
    (bound : Nat) (envelope : QuotedEnvelope) (answers : GatewayAnswers) :
    (plane.dispatch consumer configuration bound envelope answers).plane.spend = plane.spend ∧
      (plane.dispatch consumer configuration bound envelope answers).plane.sentCompactors =
        plane.sentCompactors := by
  unfold ManagementPlane.dispatch
  split <;> exact ⟨rfl, rfl⟩

theorem addCharge_eq_some {budget : SpendBudget} {cost : Nat}
    (fits : budget.charged + cost ≤ u64Max) :
    budget.addCharge cost = some { budget with charged := budget.charged + cost } := by
  unfold SpendBudget.addCharge checkedAdd
  rw [if_pos fits]
  rfl

/-- A checked permit is outstanding. -/
theorem outstanding_of_checkPermit {budget : SpendBudget} {permit : CandidatePermit}
    (checked : budget.checkPermit permit = .ok ()) : permit.id ∈ budget.escrow := by
  unfold SpendBudget.checkPermit at checked
  split at checked
  · cases checked
  · rename_i passed
    simp only [not_or, Bool.not_eq_false] at passed
    exact Std.ExtTreeMap.mem_iff_contains.mpr passed.2.2

/-- The number of the next call does not matter to the account. -/
theorem Balanced.congr {other : SpendRun} (balanced : run.Balanced account)
    (spend : other.plane.spend = run.plane.spend)
    (sent : other.plane.sentCompactors = run.plane.sentCompactors)
    (sends : other.compactorSends = run.compactorSends)
    (charges : other.gateCharges = run.gateCharges) : other.Balanced account := by
  rcases run with ⟨⟨budget, epoch, nameSpace, sequence, records⟩, permits, entries⟩
  rcases other with ⟨⟨_, _, _, _, _⟩, _, _⟩
  cases spend
  cases sent
  cases sends
  cases charges
  exact ⟨balanced.valid, balanced.started, balanced.ordinary, balanced.safety, balanced.gate,
    balanced.funded, balanced.charged, balanced.once, balanced.issued, balanced.outstanding,
    balanced.recorded, balanced.sends, balanced.escrow, balanced.unspent⟩

theorem Balanced.reserve (balanced : run.Balanced account)
    (heeds : run.Heeds .reserveCandidate) : run.Continues account .reserveCandidate := by
  unfold Continues perform ManagementPlane.reserveCandidate SpendBudget.reserveCandidate
  by_cases poor : run.plane.spend.ordinary < run.plane.spend.config.candidateCost
  · rw [if_pos (.inl poor)]
    exact ⟨_, account, rfl, balanced, rfl, fun _ => Nat.le_refl _⟩
  · have funded := balanced.gate_backed (Nat.le_of_not_lt poor)
    have room : run.plane.spend.next < u64Max := heeds.resolve_left poor
    have fresh : run.plane.spend.escrow[run.plane.spend.next]? = none := by
      apply Std.ExtTreeMap.getElem?_eq_none
      intro member
      exact Nat.lt_irrefl _ (balanced.outstanding _ member).2
    have permits : run.plane.spend.next + 1 - account.turnStart =
        run.plane.spend.next - account.turnStart + 1 := by
      have := balanced.started
      omega
    rw [if_neg (by omega), if_pos room]
    refine ⟨_, account, rfl, ?_, rfl, fun _ => Nat.le_refl _⟩
    constructor
    case valid => exact balanced.valid
    case started => exact Nat.le_succ_of_le balanced.started
    case ordinary =>
      have ordinary := balanced.ordinary
      simp only [permits, Nat.add_mul, Nat.one_mul]
      omega
    case safety => exact balanced.safety
    case gate =>
      have gate := balanced.gate
      unfold SpendBudget.gateRemaining at gate ⊢
      simp only [total_insert fresh]
      omega
    case funded =>
      have covered := balanced.funded
      simp only [permits, Nat.add_mul, Nat.one_mul]
      omega
    case charged => exact balanced.charged
    case once => exact balanced.once
    case issued => exact fun id member => Nat.lt_succ_of_lt (balanced.issued id member)
    case outstanding =>
      intro id member
      rcases Std.ExtTreeMap.mem_insert.mp member with own | old
      · rw [← Std.LawfulEqOrd.compare_eq_iff_eq.mp own]
        exact ⟨balanced.started, Nat.lt_succ_self _⟩
      · have inside := balanced.outstanding id old
        exact ⟨inside.1, Nat.lt_succ_of_lt inside.2⟩
    case recorded =>
      intro id charged member
      rcases Std.ExtTreeMap.mem_insert.mp member with own | old
      · rw [← Std.LawfulEqOrd.compare_eq_iff_eq.mp own] at charged
        exact absurd (balanced.issued _ charged) (Nat.lt_irrefl _)
      · exact balanced.recorded id charged old
    case sends => exact balanced.sends
    case escrow =>
      intro id amount bound
      rw [Std.ExtTreeMap.getElem?_insert] at bound
      split at bound
      · rename_i own
        cases bound
        rw [← Std.LawfulEqOrd.compare_eq_iff_eq.mp own]
        exact congrArg (run.plane.spend.config.gateCost + ·)
          (balanced.unspent _ (Nat.le_refl _))
      · exact balanced.escrow id amount bound
    case unspent => exact fun id later => balanced.unspent id (Nat.le_of_succ_le later)

/-- The plane on which the compactor was charged for a permit. -/
def compacted (plane : ManagementPlane) (permit : CandidatePermit) (configuration : String) :
    ManagementPlane :=
  { plane with
    spend := { plane.spend with
      charged := plane.spend.charged + plane.spend.config.candidateCost }
    sentCompactors := plane.sentCompactors.insert permit.id configuration }

/-- Charging the compactor for a permit that was not charged before. -/
theorem Balanced.chargeCompactor {permit : CandidatePermit} {configuration : String}
    (balanced : run.Balanced account) (member : permit.id ∈ run.plane.spend.escrow)
    (unsent : permit.id ∉ run.plane.sentCompactors) :
    Balanced ⟨compacted run.plane permit configuration, run.compactorSends ++ [permit.id],
      run.gateCharges⟩
      { account with compactorCharges := account.compactorCharges ++ [permit.id] } := by
  have uncharged : permit.id ∉ account.compactorCharges :=
    fun charged => unsent (balanced.recorded _ charged member)
  rcases balanced.outstanding _ member with ⟨late, early⟩
  constructor
  case valid => exact balanced.valid
  case started => exact balanced.started
  case ordinary => exact balanced.ordinary
  case safety => exact balanced.safety
  case gate => exact balanced.gate
  case funded => exact balanced.funded
  case charged =>
    have charged := balanced.charged
    have counted : (Account.turnCharges { account with
        compactorCharges := account.compactorCharges ++ [permit.id] }).length =
          account.turnCharges.length + 1 := by
      simp [Account.turnCharges, late]
    simp only [compacted, counted, Nat.add_mul, Nat.one_mul]
    omega
  case once =>
    apply List.nodup_append.mpr
    refine ⟨balanced.once, List.pairwise_singleton _ _, ?_⟩
    rintro id charged _ own rfl
    rw [List.mem_singleton.mp own] at charged
    exact uncharged charged
  case issued =>
    exact List.forall_mem_append.mpr ⟨balanced.issued, List.forall_mem_singleton.mpr early⟩
  case outstanding => exact balanced.outstanding
  case recorded =>
    intro id charged open_
    rcases List.mem_append.mp charged with old | own
    · exact Std.ExtTreeMap.mem_insert.mpr (.inr (balanced.recorded id old open_))
    · rw [List.mem_singleton.mp own]
      exact Std.ExtTreeMap.mem_insert.mpr (.inl Std.ReflCmp.compare_self)
  case sends => exact balanced.sends.append (List.Sublist.refl _)
  case escrow => exact balanced.escrow
  case unspent => exact balanced.unspent

/-- A charge that was not followed by a send is still accounted for. -/
theorem Balanced.unsent {permits : List Nat} {plane : ManagementPlane}
    {charges : List (Nat × Nat)} (balanced : Balanced ⟨plane, permits, charges⟩ account)
    {fewer : List Nat} (sublist : fewer.Sublist permits) :
    Balanced ⟨plane, fewer, charges⟩ account :=
  ⟨balanced.valid, balanced.started, balanced.ordinary, balanced.safety, balanced.gate,
    balanced.funded, balanced.charged, balanced.once, balanced.issued, balanced.outstanding,
    balanced.recorded, sublist.trans balanced.sends, balanced.escrow, balanced.unspent⟩

theorem Balanced.compact {permit : CandidatePermit} {configuration : String} {bound : Nat}
    {envelope : QuotedEnvelope} {answers : GatewayAnswers} (balanced : run.Balanced account) :
    run.Continues account (.compact permit configuration bound envelope answers) := by
  have stays : ∀ error, run.plane.compact permit configuration bound envelope answers =
      some (run.plane.refuse error) →
      run.Continues account (.compact permit configuration bound envelope answers) := by
    intro error refused
    simp only [Continues, perform, refused, Option.map_some]
    exact ⟨_, account, rfl, balanced.congr rfl rfl rfl rfl, rfl, fun _ => Nat.le_refl _⟩
  cases shaped : ManagementPlane.checkCall configuration bound envelope with
  | error error => exact stays error (by simp only [ManagementPlane.compact, shaped])
  | ok _ =>
      cases checked : run.plane.spend.checkPermit permit with
      | error error => exact stays error (by simp only [ManagementPlane.compact, shaped, checked])
      | ok _ =>
          have member := outstanding_of_checkPermit checked
          by_cases sent : run.plane.sentCompactors.contains permit.id = true
          · exact stays .turn (by simp only [ManagementPlane.compact, shaped, checked, if_pos sent])
          · have unsent : permit.id ∉ run.plane.sentCompactors := by
              rw [Std.ExtTreeMap.mem_iff_contains]
              exact sent
            by_cases dear : run.plane.spend.config.candidateCost < bound
            · exact stays .bounds (by
                simp only [ManagementPlane.compact, shaped, checked, if_neg sent,
                  SpendBudget.chargeCompactor, if_pos dear]
                rfl)
            · have charged := @Balanced.chargeCompactor run account permit configuration balanced
                member unsent
              have fits := Nat.le_trans charged.charged_le run.plane.spend.config.bounded
              have paid := @addCharge_eq_some run.plane.spend _ fits
              have called : run.plane.compact permit configuration bound envelope answers =
                  some ((compacted run.plane permit configuration).dispatch .compactor
                    configuration bound envelope answers) := by
                simp only [ManagementPlane.compact, shaped, checked, if_neg sent,
                  SpendBudget.chargeCompactor, if_neg dear, paid, Option.map_some]
                rfl
              rcases dispatch_spend (compacted run.plane permit configuration) .compactor
                configuration bound envelope answers with ⟨spend, records⟩
              simp only [Continues, perform, called, Option.map_some]
              generalize (compacted run.plane permit configuration).dispatch .compactor
                configuration bound envelope answers = reply at spend records
              have config : reply.plane.spend.config = run.plane.spend.config := by
                rw [spend]
                rfl
              refine ⟨_, { account with
                compactorCharges := account.compactorCharges ++ [permit.id] }, rfl, ?_, config,
                fun _ => Nat.le_refl _⟩
              have permits : (if reply.sent.isSome = true then run.compactorSends ++ [permit.id]
                  else run.compactorSends).Sublist (run.compactorSends ++ [permit.id]) := by
                split
                · exact List.Sublist.refl _
                · exact List.sublist_append_left _ _
              exact @Balanced.congr _ _ ⟨reply.plane, _, _⟩ (charged.unsent permits) spend records
                rfl rfl

theorem spentOn_append {plane other : ManagementPlane} {permits : List Nat}
    {entries : List (Nat × Nat)} (id cost target : Nat) :
    spentOn ⟨plane, permits, entries ++ [(id, cost)]⟩ target =
      spentOn ⟨other, permits, entries⟩ target + if id = target then cost else 0 := by
  unfold spentOn
  by_cases own : id = target
  · simp [own]
  · simp [own]

/-- The plane on which a gate call was charged against an escrow. -/
def gated (plane : ManagementPlane) (permit : CandidatePermit) (remaining cost : Nat) :
    ManagementPlane :=
  { plane with
    spend := { plane.spend with
      escrow := plane.spend.escrow.insert permit.id (remaining - cost)
      charged := plane.spend.charged + cost } }

/-- A gate call moves its cost from the escrow of its permit to the charges. -/
theorem Balanced.chargeGate {permit : CandidatePermit} {remaining cost : Nat}
    (balanced : run.Balanced account)
    (held : run.plane.spend.escrow[permit.id]? = some remaining) (covered : cost ≤ remaining) :
    Balanced ⟨gated run.plane permit remaining cost, run.compactorSends,
        run.gateCharges ++ [(permit.id, cost)]⟩
      { account with gateSpent := account.gateSpent + cost } := by
  have member : permit.id ∈ run.plane.spend.escrow := by
    rw [Std.ExtTreeMap.mem_iff_isSome_getElem?, held]
    rfl
  have keys : ∀ id, id ∈ run.plane.spend.escrow.insert permit.id (remaining - cost) →
      id ∈ run.plane.spend.escrow := by
    intro id inside
    rcases Std.ExtTreeMap.mem_insert.mp inside with own | old
    · rw [← Std.LawfulEqOrd.compare_eq_iff_eq.mp own]
      exact member
    · exact old
  constructor
  case valid => exact balanced.valid
  case started => exact balanced.started
  case ordinary => exact balanced.ordinary
  case safety => exact balanced.safety
  case gate =>
    have gate := balanced.gate
    have moved := @total_replace _ _ _ _ _ _ (remaining - cost) _ held
    unfold SpendBudget.gateRemaining at gate ⊢
    simp only [gated]
    omega
  case funded => exact balanced.funded
  case charged =>
    have charged := balanced.charged
    simp only [gated]
    change run.plane.spend.charged + cost = account.turnCharges.length *
      run.plane.spend.config.candidateCost + account.ordinarySpent + account.safetySpent +
        (account.gateSpent + cost)
    omega
  case once => exact balanced.once
  case issued => exact balanced.issued
  case outstanding => exact fun id inside => balanced.outstanding id (keys id inside)
  case recorded =>
    exact fun id charged inside => balanced.recorded id charged (keys id inside)
  case sends => exact balanced.sends
  case escrow =>
    intro id amount bound
    have before := @balanced.escrow
    rw [@spentOn_append _ run.plane]
    simp only [gated] at bound ⊢
    rw [Std.ExtTreeMap.getElem?_insert] at bound
    by_cases own : permit.id = id
    · subst own
      rw [if_pos Std.ReflCmp.compare_self] at bound
      cases bound
      have whole := before permit.id remaining held
      rw [if_pos rfl]
      change remaining - cost + (run.spentOn permit.id + cost) = _
      omega
    · rw [if_neg (fun same => own (Std.LawfulEqOrd.compare_eq_iff_eq.mp same))] at bound
      rw [if_neg own]
      exact before id amount bound
  case unspent =>
    intro id later
    have issued := (balanced.outstanding _ member).2
    rw [@spentOn_append _ run.plane, if_neg]
    · exact balanced.unspent id later
    · rintro rfl
      exact absurd issued (Nat.not_lt_of_le later)

/-- A gate call that was refused charged nothing. -/
theorem Balanced.refusedGate {permit : CandidatePermit} (balanced : run.Balanced account) :
    Balanced ⟨run.plane, run.compactorSends, run.gateCharges ++ [(permit.id, 0)]⟩ account := by
  have same : ∀ id, spentOn ⟨run.plane, run.compactorSends,
      run.gateCharges ++ [(permit.id, 0)]⟩ id = run.spentOn id := by
    intro id
    rw [@spentOn_append _ run.plane]
    split <;> rfl
  exact ⟨balanced.valid, balanced.started, balanced.ordinary, balanced.safety, balanced.gate,
    balanced.funded, balanced.charged, balanced.once, balanced.issued, balanced.outstanding,
    balanced.recorded, balanced.sends,
    fun id amount bound => by rw [same]; exact balanced.escrow id amount bound,
    fun id later => by rw [same]; exact balanced.unspent id later⟩

/-- A gate charge is refused, or it is covered by the escrow of its permit. -/
theorem chargeGate_cases (budget : SpendBudget) (permit : CandidatePermit) (cost : Nat) :
    (∃ error, budget.chargeGate permit cost = some (.error error, budget)) ∨
      ∃ remaining, budget.escrow[permit.id]? = some remaining ∧ cost ≤ remaining ∧
        budget.chargeGate permit cost = ({ budget with
          escrow := budget.escrow.insert permit.id (remaining - cost) }.addCharge cost).map
            fun charged => (.ok (), charged) := by
  unfold SpendBudget.chargeGate
  cases budget.checkPermit permit with
  | error error => exact .inl ⟨error, rfl⟩
  | ok _ =>
      cases held : budget.escrow[permit.id]? with
      | none => exact .inl ⟨.turn, rfl⟩
      | some remaining =>
          by_cases short : remaining < cost
          · exact .inl ⟨.exhausted, if_pos short⟩
          · exact .inr ⟨remaining, rfl, Nat.le_of_not_lt short, if_neg short⟩

/-- A gate call is refused on the plane as it is, or it is sent after its charge. -/
theorem Balanced.gateCall_cases {permit : CandidatePermit} {consumer : Consumer}
    {configuration : String} {envelope : QuotedEnvelope} {answers : GatewayAnswers}
    (balanced : run.Balanced account) :
    (∃ error, run.plane.gateCall permit consumer configuration envelope answers =
      some (run.plane.refuse error)) ∨
    ∃ remaining bound, run.plane.spend.escrow[permit.id]? = some remaining ∧ bound ≤ remaining ∧
      run.plane.gateCall permit consumer configuration envelope answers =
        some ((gated run.plane permit remaining bound).dispatch consumer configuration bound
          envelope answers) := by
  unfold ManagementPlane.gateCall
  by_cases gateOnly : consumer.gateOnly = false
  · exact .inl ⟨.configuration, if_pos gateOnly⟩
  · rw [if_neg gateOnly]
    cases checkedAdd envelope.encodedLength maxArtifactBytes with
    | none => exact .inl ⟨.bounds, rfl⟩
    | some bound =>
        cases shaped : ManagementPlane.checkCall configuration bound envelope with
        | error error => exact .inl ⟨error, by simp only [shaped]⟩
        | ok _ =>
            rcases chargeGate_cases run.plane.spend permit bound with
              ⟨error, refused⟩ | ⟨remaining, held, covered, paid⟩
            · exact .inl ⟨error, by simp only [shaped, refused, Option.map_some]⟩
            · have charged := balanced.chargeGate held covered
              have fits := Nat.le_trans charged.charged_le run.plane.spend.config.bounded
              rw [@addCharge_eq_some { run.plane.spend with
                escrow := run.plane.spend.escrow.insert permit.id (remaining - bound) }
                bound fits] at paid
              refine .inr ⟨remaining, bound, held, covered, ?_⟩
              simp only [shaped, paid, Option.map_some]
              rfl

theorem Balanced.gateCall {permit : CandidatePermit} {consumer : Consumer}
    {configuration : String} {envelope : QuotedEnvelope} {answers : GatewayAnswers}
    (balanced : run.Balanced account) :
    run.Continues account (.gateCall permit consumer configuration envelope answers) := by
  rcases @Balanced.gateCall_cases run account permit consumer configuration envelope answers
    balanced with ⟨error, refused⟩ | ⟨remaining, bound, held, covered, called⟩
  · simp only [Continues, perform, refused, Option.map_some, ManagementPlane.refuse, Nat.sub_self]
    exact ⟨_, account, rfl, balanced.refusedGate, rfl, fun _ => Nat.le_refl _⟩
  · rcases dispatch_spend (gated run.plane permit remaining bound) consumer configuration bound
      envelope answers with ⟨spend, records⟩
    simp only [Continues, perform, called, Option.map_some]
    generalize (gated run.plane permit remaining bound).dispatch consumer configuration bound
      envelope answers = reply at spend records
    have cost : reply.plane.spend.charged - run.plane.spend.charged = bound := by
      rw [spend]
      exact Nat.add_sub_cancel_left _ _
    have config : reply.plane.spend.config = run.plane.spend.config := by
      rw [spend]
      rfl
    refine ⟨_, { account with gateSpent := account.gateSpent + bound }, rfl, ?_, config,
      fun draws => nomatch draws⟩
    rw [cost]
    exact @Balanced.congr _ _ ⟨reply.plane, _, _⟩ (balanced.chargeGate held covered) spend records
      rfl rfl

/-- The plane on which another consumer was charged. -/
def executed (plane : ManagementPlane) (cost : Nat) : ManagementPlane :=
  { plane with
    spend := { plane.spend with
      ordinary := plane.spend.ordinary - min cost plane.spend.ordinary
      safety := plane.spend.safety - (cost - min cost plane.spend.ordinary)
      charged := plane.spend.charged + cost } }

/-- A call of another consumer is paid by the ordinary pool and the reserve. -/
theorem Balanced.charge {cost : Nat} (balanced : run.Balanced account)
    (covered : cost - min cost run.plane.spend.ordinary ≤ run.plane.spend.safety) :
    Balanced { run with plane := executed run.plane cost } { account with
      ordinarySpent := account.ordinarySpent + min cost run.plane.spend.ordinary
      safetySpent := account.safetySpent + (cost - min cost run.plane.spend.ordinary) } := by
  constructor
  case valid => exact balanced.valid
  case started => exact balanced.started
  case ordinary =>
    have ordinary := balanced.ordinary
    simp only [executed]
    omega
  case safety =>
    have safety := balanced.safety
    simp only [executed]
    omega
  case gate => exact balanced.gate
  case funded => exact balanced.funded
  case charged =>
    have charged := balanced.charged
    simp only [executed]
    change run.plane.spend.charged + cost = account.turnCharges.length *
      run.plane.spend.config.candidateCost +
        (account.ordinarySpent + min cost run.plane.spend.ordinary) +
        (account.safetySpent + (cost - min cost run.plane.spend.ordinary)) + account.gateSpent
    omega
  case once => exact balanced.once
  case issued => exact balanced.issued
  case outstanding => exact balanced.outstanding
  case recorded => exact balanced.recorded
  case sends => exact balanced.sends
  case escrow => exact balanced.escrow
  case unspent => exact balanced.unspent

theorem Balanced.execute_cases {consumer : Consumer} {configuration : String} {bound : Nat}
    {envelope : QuotedEnvelope} {answers : GatewayAnswers} (balanced : run.Balanced account) :
    (∃ error, run.plane.execute consumer configuration bound envelope answers =
      some (run.plane.refuse error)) ∨
    (bound - min bound run.plane.spend.ordinary ≤ run.plane.spend.safety ∧
      run.plane.execute consumer configuration bound envelope answers =
        some ((executed run.plane bound).dispatch consumer configuration bound envelope
          answers)) := by
  unfold ManagementPlane.execute
  cases ManagementPlane.checkCall configuration bound envelope with
  | error error => exact .inl ⟨error, rfl⟩
  | ok _ =>
      unfold SpendBudget.charge
      by_cases foreign : consumer.gateOnly = true ∨ consumer = .compactor
      · exact .inl ⟨.configuration, by simp only [if_pos foreign, Option.map_some]⟩
      · by_cases short : run.plane.spend.safety < bound - min bound run.plane.spend.ordinary
        · exact .inl ⟨.exhausted, by simp only [if_neg foreign, if_pos short, Option.map_some]⟩
        · have covered := Nat.le_of_not_lt short
          have charged := balanced.charge covered
          have fits := Nat.le_trans charged.charged_le run.plane.spend.config.bounded
          have paid := @addCharge_eq_some { run.plane.spend with
            ordinary := run.plane.spend.ordinary - min bound run.plane.spend.ordinary
            safety := run.plane.spend.safety - (bound - min bound run.plane.spend.ordinary) }
            bound fits
          refine .inr ⟨covered, ?_⟩
          simp only [if_neg foreign, if_neg short, paid, Option.map_some]
          rfl

theorem Balanced.execute {consumer : Consumer} {configuration : String} {bound : Nat}
    {envelope : QuotedEnvelope} {answers : GatewayAnswers} (balanced : run.Balanced account) :
    run.Continues account (.execute consumer configuration bound envelope answers) := by
  rcases @Balanced.execute_cases run account consumer configuration bound envelope answers
    balanced with ⟨error, refused⟩ | ⟨covered, called⟩
  · simp only [Continues, perform, refused, Option.map_some]
    exact ⟨_, account, rfl, balanced.congr rfl rfl rfl rfl, rfl, fun _ => Nat.le_refl _⟩
  · rcases dispatch_spend (executed run.plane bound) consumer configuration bound envelope answers
      with ⟨spend, records⟩
    simp only [Continues, perform, called, Option.map_some]
    generalize (executed run.plane bound).dispatch consumer configuration bound envelope answers =
      reply at spend records
    have config : reply.plane.spend.config = run.plane.spend.config := by
      rw [spend]
      rfl
    exact ⟨_, _, rfl, @Balanced.congr _ _ ⟨reply.plane, _, _⟩ (balanced.charge covered) spend
      records rfl rfl, config, fun _ => Nat.le_refl _⟩

/-- Finishing a candidate returns what is left of its escrow to the gate. -/
theorem Balanced.release {permit : CandidatePermit} {remaining : Nat}
    (balanced : run.Balanced account)
    (held : run.plane.spend.escrow[permit.id]? = some remaining) :
    Balanced { run with plane := { run.plane with
      sentCompactors := run.plane.sentCompactors.erase permit.id
      spend := { run.plane.spend with
        gate := run.plane.spend.gate + remaining
        escrow := run.plane.spend.escrow.erase permit.id } } } account := by
  have kept : ∀ id, id ∈ run.plane.spend.escrow.erase permit.id →
      permit.id ≠ id ∧ id ∈ run.plane.spend.escrow := by
    intro id inside
    rcases Std.ExtTreeMap.mem_erase.mp inside with ⟨other, old⟩
    refine ⟨?_, old⟩
    rintro rfl
    exact other Std.ReflCmp.compare_self
  constructor
  case valid => exact balanced.valid
  case started => exact balanced.started
  case ordinary => exact balanced.ordinary
  case safety => exact balanced.safety
  case gate =>
    have gate := balanced.gate
    have released := total_erase held
    unfold SpendBudget.gateRemaining at gate ⊢
    simp only
    omega
  case funded =>
    have funded := balanced.funded
    simp only
    omega
  case charged => exact balanced.charged
  case once => exact balanced.once
  case issued => exact balanced.issued
  case outstanding => exact fun id inside => balanced.outstanding id (kept id inside).2
  case recorded =>
    intro id charged inside
    rcases kept id inside with ⟨other, old⟩
    refine Std.ExtTreeMap.mem_erase.mpr ⟨?_, balanced.recorded id charged old⟩
    exact fun same => other (Std.LawfulEqOrd.compare_eq_iff_eq.mp same)
  case sends => exact balanced.sends
  case escrow =>
    intro id amount bound
    rw [Std.ExtTreeMap.getElem?_erase] at bound
    split at bound
    · cases bound
    · exact balanced.escrow id amount bound
  case unspent => exact balanced.unspent

theorem Balanced.finish {permit : CandidatePermit} (balanced : run.Balanced account)
    (heeds : run.Heeds (.finishCandidate permit)) :
    run.Continues account (.finishCandidate permit) := by
  simp only [Continues, perform, ManagementPlane.finishCandidate, SpendBudget.finishCandidate]
  cases checked : run.plane.spend.checkPermit permit with
  | error error =>
      have unsent : permit.id ∉ run.plane.sentCompactors := by
        rcases heeds with passed | unsent
        · rw [passed] at checked
          cases checked
        · exact unsent
      refine ⟨_, account, rfl, ?_, rfl, fun _ => Nat.le_refl _⟩
      exact balanced.congr rfl (erase_of_not_mem unsent) rfl rfl
  | ok _ =>
      have member := outstanding_of_checkPermit checked
      cases held : run.plane.spend.escrow[permit.id]? with
      | none =>
          rw [Std.ExtTreeMap.mem_iff_isSome_getElem?, held] at member
          cases member
      | some remaining =>
          have released := balanced.release held
          have fits : run.plane.spend.gate + remaining ≤ u64Max := by
            rcases valid_config balanced.valid with ⟨reserve, within, _, _⟩
            have gate := released.gate
            have bounded := run.plane.spend.config.bounded
            unfold SpendBudget.gateRemaining at gate
            simp only at gate
            omega
          simp only [checkedAdd, if_pos fits, Option.map_some]
          exact ⟨_, account, rfl, released, rfl, fun _ => Nat.le_refl _⟩

/-- A new turn starts a new account behind the permits of the old ones. -/
theorem Balanced.replenish {turn : Nat} (balanced : run.Balanced account) :
    run.Continues account (.replenish turn) := by
  simp only [Continues, perform, ManagementPlane.replenish, SpendBudget.replenish]
  by_cases refused : turn ≤ run.plane.spend.turn ∨ run.plane.spend.escrow.isEmpty = false
  · simp only [if_pos refused]
    exact ⟨_, account, rfl, balanced, rfl, fun _ => Nat.le_refl _⟩
  · have closed : run.plane.spend.escrow = ∅ := by
      simp only [not_or, Bool.not_eq_false] at refused
      exact Std.ExtTreeMap.isEmpty_iff.mp refused.2
    simp only [if_neg refused]
    refine ⟨_, ⟨run.plane.spend.next, account.compactorCharges, 0, 0, 0⟩, rfl, ?_, rfl,
      fun _ => Nat.zero_le _⟩
    have past : (Account.turnCharges ⟨run.plane.spend.next, account.compactorCharges, 0, 0, 0⟩) =
        [] := by
      apply List.filter_eq_nil_iff.mpr
      intro id member late
      exact absurd (balanced.issued id member) (Nat.not_lt_of_le (of_decide_eq_true late))
    constructor
    case valid => exact balanced.valid
    case started => exact Nat.le_refl _
    case ordinary => simp
    case safety => rfl
    case gate =>
      unfold SpendBudget.gateRemaining
      simp only [closed, total_empty]
      rfl
    case funded => simp
    case charged =>
      rw [past]
      simp
    case once => exact balanced.once
    case issued => exact balanced.issued
    case outstanding =>
      intro id member
      simp only [closed] at member
      exact absurd member Std.ExtTreeMap.not_mem_empty
    case recorded => exact balanced.recorded
    case sends => exact balanced.sends
    case escrow => exact balanced.escrow
    case unspent => exact balanced.unspent

theorem Balanced.continues (balanced : run.Balanced account) (heeds : run.Heeds call) :
    run.Continues account call := by
  cases call with
  | reserveCandidate => exact balanced.reserve heeds
  | compact permit configuration bound envelope answers => exact balanced.compact
  | gateCall permit consumer configuration envelope answers => exact balanced.gateCall
  | execute consumer configuration bound envelope answers => exact balanced.execute
  | finishCandidate permit => exact balanced.finish heeds
  | replenish turn => exact balanced.replenish

theorem balanced_new {config : SpendConfig} {owner turn epoch : Nat} {nameSpace : String}
    {budget : SpendBudget} {plane : ManagementPlane}
    (funded : SpendBudget.new config owner turn = .ok budget)
    (opened : ManagementPlane.new budget epoch nameSpace = .ok plane) :
    Balanced ⟨plane, [], []⟩ ⟨1, [], 0, 0, 0⟩ ∧ plane.spend.config = config := by
  have started : plane.spend = budget ∧ plane.sentCompactors = ∅ := by
    unfold ManagementPlane.new at opened
    split at opened
    · cases opened
    · cases opened
      exact ⟨rfl, rfl⟩
  unfold SpendBudget.new at funded
  split at funded
  · cases funded
  · rename_i valid
    cases funded
    rcases plane with ⟨spend, epoch, nameSpace, sequence, records⟩
    rcases started with ⟨rfl, rfl⟩
    refine ⟨?_, rfl⟩
    constructor
    case valid => exact valid
    case started => exact Nat.le_refl _
    case ordinary => simp
    case safety => rfl
    case gate =>
      unfold SpendBudget.gateRemaining
      simp only [total_empty]
      rfl
    case funded => simp
    case charged => simp [Account.turnCharges]
    case once => exact List.nodup_nil
    case issued =>
      intro id member
      cases member
    case outstanding =>
      intro id member
      exact absurd member Std.ExtTreeMap.not_mem_empty
    case recorded =>
      intro id member
      cases member
    case sends => exact List.Sublist.refl _
    case escrow =>
      intro id amount bound
      simp at bound
    case unspent => exact fun _ _ => rfl

/-- Every call of the run heeds the condition in the state that the calls before
it reach. -/
def HeededThroughout (plane : ManagementPlane) (calls : List SpendCall) : Prop :=
  ∀ earlier call later, calls = earlier ++ call :: later →
    ∀ reached, after plane earlier = some reached → reached.Heeds call

theorem after_append (plane : ManagementPlane) (calls : List SpendCall) (call : SpendCall) :
    after plane (calls ++ [call]) = (after plane calls).bind fun run => run.perform call := by
  unfold after
  rw [List.foldlM_append]
  cases calls.foldlM perform ⟨plane, [], []⟩ with
  | none => rfl
  | some run => simp

theorem balanced_after {plane : ManagementPlane} {account : Account}
    (start : Balanced ⟨plane, [], []⟩ account) {calls : List SpendCall}
    (heeded : HeededThroughout plane calls) :
    ∃ run later, after plane calls = some run ∧ Balanced run later ∧
      run.plane.spend.config = plane.spend.config := by
  induction calls using List.reverseRecOn with
  | nil => exact ⟨_, account, rfl, start, rfl⟩
  | append_singleton calls call ih =>
      have earlier : HeededThroughout plane calls := by
        intro first other rest split reached ran
        apply heeded first other (rest ++ [call])
        · rw [split, List.append_assoc, List.cons_append]
        · exact ran
      rcases ih earlier with ⟨run, middle, ran, balanced, config⟩
      have heeds := heeded calls call [] rfl run ran
      rcases balanced.continues heeds with ⟨next, later, done, continued, same, _⟩
      refine ⟨next, later, ?_, continued, same.trans config⟩
      rw [after_append, ran]
      exact done

/-- A reservation is refused only by the ordinary pool. -/
theorem Balanced.reserve_refused (balanced : run.Balanced account) {error : ManagementError}
    (heeds : run.Heeds .reserveCandidate)
    (refused : run.plane.reserveCandidate.1 = .error error) :
    run.plane.spend.ordinary < run.plane.spend.config.candidateCost := by
  by_contra affordable
  have backed := balanced.gate_backed (Nat.le_of_not_lt affordable)
  simp only [ManagementPlane.reserveCandidate, SpendBudget.reserveCandidate] at refused
  rw [if_neg (by omega), if_pos (heeds.resolve_left affordable)] at refused
  cases refused

/-- Only a gate call consumes gate funds. -/
theorem Balanced.gate_kept (balanced : run.Balanced account) (heeds : run.Heeds call)
    (keeps : drawsGate call = false) (done : run.perform call = some next) :
    run.plane.spend.gateRemaining ≤ next.plane.spend.gateRemaining := by
  rcases balanced.continues heeds with ⟨reached, later, performed, continued, config, spent⟩
  cases performed.symm.trans done
  have before := balanced.gate
  have after := continued.gate
  have kept := spent keeps
  rw [config] at after
  omega

/-- Over every run that heeds the condition: nothing overflows, the charges stay
within the total, no permit is sent a compactor twice, an escrow and what was
charged against it make up the gate cost, a reservation is refused only by the
ordinary pool, and gate funds are consumed by gate calls alone. -/
theorem spend_conserved {config : SpendConfig} {owner turn epoch : Nat} {nameSpace : String}
    {budget : SpendBudget} {plane : ManagementPlane}
    (funded : SpendBudget.new config owner turn = .ok budget)
    (opened : ManagementPlane.new budget epoch nameSpace = .ok plane)
    (calls : List SpendCall) (heeded : HeededThroughout plane calls) :
    ∃ run, after plane calls = some run ∧
      run.plane.spend.charged ≤ config.total ∧
      run.compactorSends.Nodup ∧
      (∀ (id : Nat) amount, run.plane.spend.escrow[id]? = some amount →
        amount + run.spentOn id = config.gateCost) ∧
      (∀ error, run.Heeds .reserveCandidate →
        run.plane.reserveCandidate.1 = .error error →
          run.plane.spend.ordinary < config.candidateCost) ∧
      ∀ call next, run.Heeds call → drawsGate call = false → run.perform call = some next →
        run.plane.spend.gateRemaining ≤ next.plane.spend.gateRemaining := by
  rcases balanced_new funded opened with ⟨start, configured⟩
  rcases balanced_after start heeded with ⟨run, account, ran, balanced, same⟩
  have own : run.plane.spend.config = config := same.trans configured
  refine ⟨run, ran, ?_, balanced.sends.nodup balanced.once, ?_, ?_, ?_⟩
  · rw [← own]
    exact balanced.charged_le
  · rw [← own]
    exact balanced.escrow
  · rw [← own]
    exact fun error heeds refused => balanced.reserve_refused heeds refused
  · exact fun call next heeds keeps done => balanced.gate_kept heeds keeps done

/-- A budget for one candidate. -/
def sampleConfig : SpendConfig where
  total := gateSpendFloor + 100000
  safety := gateSpendFloor
  gateOnly := gateSpendFloor
  candidateCost := 100000
  gateCost := gateSpendFloor
  bounded := by decide

def samplePlane : ManagementPlane :=
  ⟨⟨1, sampleConfig, 0, 100000, 0, gateSpendFloor, 1, ∅, 0⟩, 1, "session", 0, ∅⟩

def sampleEnvelope : QuotedEnvelope :=
  ⟨"fold", ["text"], "none"⟩

def sampleAnswers : GatewayAnswers :=
  ⟨.ok (), .ok "folded", .ok ()⟩

/-- The compactor is sent for the permit of the plane. -/
def sampleCompact : SpendCall :=
  .compact ⟨1, 1, 0⟩ "model" 70000 sampleEnvelope sampleAnswers

theorem funded_sample : SpendBudget.new sampleConfig 1 0 = .ok samplePlane.spend ∧
    ManagementPlane.new samplePlane.spend 1 "session" = .ok samplePlane := by
  have valid : sampleConfig.validate = .ok () := by
    decide +kernel
  constructor
  · rw [SpendBudget.new, valid]
    rfl
  · rfl

theorem spend_conserved_sample :
    ∃ run, after samplePlane [.reserveCandidate, sampleCompact] = some run ∧
      run.plane.spend.charged ≤ sampleConfig.total ∧ run.compactorSends.Nodup := by
  have heeded : HeededThroughout samplePlane [.reserveCandidate, sampleCompact] := by
    intro earlier call later split reached ran
    cases earlier with
    | nil =>
        cases split
        cases ran
        exact .inr (by decide)
    | cons first earlier =>
        cases earlier with
        | nil =>
            cases split
            trivial
        | cons second earlier =>
            cases earlier <;> cases split
  rcases spend_conserved funded_sample.1 funded_sample.2 _ heeded with
    ⟨run, ran, charged, once, _⟩
  exact ⟨run, ran, charged, once⟩

/-- A permit of another budget with the same number drops the record of the send,
and the compactor is sent again for the permit of this one. -/
theorem foreign_permit_resends :
    ¬∀ config owner turn epoch nameSpace budget plane,
      SpendBudget.new config owner turn = .ok budget →
      ManagementPlane.new budget epoch nameSpace = .ok plane →
      ∀ calls run, after plane calls = some run → run.compactorSends.Nodup := by
  intro once
  have sent : (after samplePlane [.reserveCandidate, sampleCompact,
      .finishCandidate ⟨2, 1, 0⟩, sampleCompact]).map compactorSends = some [1, 1] := by
    decide +kernel
  rcases Option.map_eq_some_iff.mp sent with ⟨run, ran, twice⟩
  have nodup := once sampleConfig 1 0 1 "session" samplePlane.spend samplePlane funded_sample.1
    funded_sample.2 _ run ran
  rw [twice] at nodup
  exact absurd nodup (by decide)

end SpendRun

end Llxprt.Management
