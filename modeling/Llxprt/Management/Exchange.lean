import Llxprt.Log.Replies
import Llxprt.Log.Tails
import Llxprt.Management.Runs

/-!
# Management calls over the session log

The gateway of the management plane records each call as a provider intent,
spends its permit on one attempt and admits the reply.  The plane gives up
between the steps when a reply is empty or too long, and the store may fail at
every one of them; a call that gives up too early leaves the reply in the gateway
and the intent unresolved in the log.
-/

namespace Llxprt.Management

open Llxprt.Kernel Llxprt.Kernel.Recorded Llxprt.Rust Llxprt.Log Llxprt.Gateway

variable {τ κ : Type}

def Consumer.name : Consumer → String
  | classifierAssist => "ClassifierAssist"
  | compactor => "Compactor"
  | requiredFactExtractor => "RequiredFactExtractor"
  | assertionExtractor => "AssertionExtractor"
  | entailmentScorer => "EntailmentScorer"
  | readBackQuerier => "ReadBackQuerier"

def QuotedEnvelope.document (envelope : QuotedEnvelope) : Json :=
  .object [("instruction", .string envelope.instruction),
    ("quoted_data", .array (envelope.quotedData.map Json.string)),
    ("derivative_authority", .string envelope.derivativeAuthority)]

/-- The bytes that are sent, and that the request hash commits to. -/
def CallIntent.bytes (call : CallIntent) : Bytes :=
  documentBytes (.object [("identity", .string call.identity), ("epoch", .number call.epoch),
    ("turn", .number call.turn), ("consumer", .string call.consumer.name),
    ("configuration", .string call.configuration), ("bound", .number call.bound),
    ("envelope", call.envelope.document)])

/-- What becomes of an append and of the index that is published behind it:
nothing is written, the event is written and an error is returned all the same,
or both succeed. -/
inductive Storage where
  | lost
  | unconfirmed
  | confirmed
  deriving DecidableEq

/-- The clock and the disk at one operation on the log. -/
structure Access where
  now : UInt64
  storage : Storage

/-- What one attempt meets: the log at each operation, and the transport. -/
structure Exchange where
  record : Access
  send : Access
  transport : Except ManagementError String
  reject : Access
  stage : Access
  admission : Access

structure SessionManagementGateway (κ : Type) where
  reservation : ReservedRequest κ
  providerClass : ProviderClass
  pending : Option (CallIntent × SendIntent)
  sent : Option (String × String × String)

def SessionManagementGateway.new (reservation : ReservedRequest κ)
    (providerClass : ProviderClass) : SessionManagementGateway κ :=
  ⟨reservation, providerClass, none, none⟩

/-- A gateway, the log it writes to, and the intents that it recorded there. -/
structure Link (τ κ : Type) where
  gateway : SessionManagementGateway κ
  state : SessionState τ κ
  recorded : List SendIntent

/-- The store replaces the identity, the branch, the owner and the epoch. -/
def SessionManagementGateway.sendIntent (gateway : SessionManagementGateway κ)
    (call : CallIntent) : SendIntent where
  identity := call.identity
  branch := gateway.reservation.branchId
  owner := gateway.reservation.owner
  epoch := UInt64.ofNat call.epoch
  contextVersion := UInt64.ofNat call.turn
  requestHash := Sha256.digest call.bytes
  contractHash := Sha256.digest (utf8 call.configuration)
  providerClass := gateway.providerClass
  kind := .management
  allowance := UInt64.ofNat call.bound

namespace Link

variable [Recorded τ] [Recorded κ] (checks : Checks τ κ) (sessionId : String)

/-- The intent that a call brings to the log, and the log with it. -/
def recording (link : Link τ κ) (now : UInt64) (call : CallIntent) :
    Except ManagementError (SendIntent × SessionState τ κ) := do
  reject (link.gateway.pending.isSome = true ∨ link.gateway.sent.isSome = true ∨
    call.envelope.derivativeAuthority ≠ "none") .gateway
  reject (call.bound < call.bytes.length) .bounds
  reject (u64Max < call.bound) .bounds
  (providerIntent checks sessionId link.state link.gateway.reservation
    (link.gateway.sendIntent call) now).mapError fun _ => ManagementError.gateway

def recordIntent (link : Link τ κ) (access : Access) (call : CallIntent) :
    Except ManagementError Unit × Link τ κ :=
  match link.recording checks sessionId access.now call with
  | .error error => (.error error, link)
  | .ok (intent, later) =>
      let written := { link with state := later, recorded := intent :: link.recorded }
      match access.storage with
      | .lost => (.error .gateway, link)
      | .unconfirmed => (.error .gateway, written)
      | .confirmed => (.ok (), { written with
          gateway := { link.gateway with pending := some (call, intent) } })

def providerCommand (link : Link τ κ) (access : Access)
    (command : Gateway.Command) : Except ManagementError Unit × Link τ κ :=
  match Log.providerCommand checks link.state link.gateway.reservation command access.now with
  | .error _ => (.error .gateway, link)
  | .ok later =>
      match access.storage with
      | .lost => (.error .gateway, link)
      | .unconfirmed => (.error .gateway, { link with state := later })
      | .confirmed => (.ok (), { link with state := later })

/-- The permit is used up by the attempt, whatever comes of it. -/
def sendOnce (link : Link τ κ) (exchange : Exchange) (call : CallIntent) :
    Except ManagementError String × Link τ κ :=
  match link.gateway.pending with
  | none => (.error .gateway, link)
  | some (expected, permit) =>
      let spent := { link with gateway := { link.gateway with pending := none } }
      if expected ≠ call ∨ exchange.send.storage = .lost then
        (.error .gateway, spent)
      else
        match admitSend link.state link.gateway.reservation permit exchange.send.now with
        | .error _ => (.error .gateway, spent)
        | .ok intent =>
            match exchange.transport with
            | .ok raw =>
                (.ok raw, { spent with
                  gateway := { spent.gateway with
                    sent := some (call.identity, intent.identity, raw) } })
            | .error error =>
                match spent.providerCommand checks exchange.reject (.reject intent.identity) with
                | (.error refused, rejected) => (.error refused, rejected)
                | (.ok (), rejected) => (.error error, rejected)

def admitResponse (link : Link τ κ) (exchange : Exchange) (call : CallIntent)
    (raw : String) : Except ManagementError Unit × Link τ κ :=
  match link.gateway.sent with
  | none => (.error .gateway, link)
  | some (expected, identity, received) =>
      let taken := { link with gateway := { link.gateway with sent := none } }
      if expected ≠ call.identity ∨ received ≠ raw then
        (.error .gateway, taken)
      else
        match taken.providerCommand checks exchange.stage (.stage identity (utf8 raw)) with
        | (.error error, staged) => (.error error, staged)
        | (.ok (), staged) => staged.providerCommand checks exchange.admission (.admitReply identity [])

/-- The answers to an attempt whose intent was recorded.  The plane gives up a
reply that is empty or too long. -/
def deliver (link : Link τ κ) (exchange : Exchange) (call : CallIntent) :
    GatewayAnswers × Link τ κ :=
  match link.sendOnce checks exchange call with
  | (.error error, sent) => (⟨.ok (), .error error, .error .gateway⟩, sent)
  | (.ok raw, sent) =>
      if raw = "" ∨ maxArtifactBytes < (utf8 raw).length then
        (⟨.ok (), .ok raw, .error .gateway⟩, sent)
      else
        match sent.admitResponse checks exchange call raw with
        | (result, admitted) => (⟨.ok (), .ok raw, result⟩, admitted)

/-- The answers of the gateway to one attempt of the plane, which goes on to the
next request only after a good answer to the one before. -/
def answer (link : Link τ κ) (exchange : Exchange) (call : CallIntent) :
    GatewayAnswers × Link τ κ :=
  match link.recordIntent checks sessionId exchange.record call with
  | (.error error, recorded) => (⟨.error error, .error .gateway, .error .gateway⟩, recorded)
  | (.ok (), recorded) => recorded.deliver checks exchange call

end Link

section Calls

/-- A gateway that is content with everything. -/
def GatewayAnswers.willing : GatewayAnswers :=
  ⟨.ok (), .ok "", .ok ()⟩

/-- The call with the answers that its gateway gives. -/
def SpendCall.answered (answers : GatewayAnswers) : SpendCall → SpendCall
  | .compact permit configuration bound envelope _ =>
      .compact permit configuration bound envelope answers
  | .gateCall permit consumer configuration envelope _ =>
      .gateCall permit consumer configuration envelope answers
  | .execute consumer configuration bound envelope _ =>
      .execute consumer configuration bound envelope answers
  | .reserveCandidate => .reserveCandidate
  | .finishCandidate permit => .finishCandidate permit
  | .replenish turn => .replenish turn

/-- What the call returns, over a gateway with the answers. -/
def SpendCall.reply (plane : ManagementPlane) (answers : GatewayAnswers) : SpendCall → Option Reply
  | .compact permit configuration bound envelope _ =>
      plane.compact permit configuration bound envelope answers
  | .gateCall permit consumer configuration envelope _ =>
      plane.gateCall permit consumer configuration envelope answers
  | .execute consumer configuration bound envelope _ =>
      plane.execute consumer configuration bound envelope answers
  | .reserveCandidate | .finishCandidate _ | .replenish _ => none

/-- The intent that the call hands to its gateway, when the plane gets that far. -/
def SpendCall.requested (plane : ManagementPlane) (call : SpendCall) : Option CallIntent :=
  (call.reply plane .willing).bind Reply.sent

end Calls

/-- The plane with its gateway. -/
structure Desk (τ κ : Type) where
  plane : ManagementPlane
  link : Link τ κ

/-- A call of the plane, or an event that somebody appends to the log between two
calls. -/
inductive Turn (τ κ : Type) where
  | call (call : SpendCall) (exchange : Exchange)
  | other (event : Event τ κ)

namespace Desk

variable [Recorded τ] [Recorded κ] (checks : Checks τ κ) (sessionId : String)

/-- The desk after a turn; a call whose charge overflows has none. -/
def step (desk : Desk τ κ) :
    Turn τ κ → Option (Desk τ κ)
  | .call call exchange =>
      match call.requested desk.plane with
      | none => (SpendRun.perform ⟨desk.plane, [], []⟩ call).map fun run =>
          { desk with plane := run.plane }
      | some intent =>
          match desk.link.answer checks sessionId exchange intent with
          | (answers, link) =>
              (SpendRun.perform ⟨desk.plane, [], []⟩ (call.answered answers)).map fun run =>
                ⟨run.plane, link⟩
  | .other event =>
      match appendEvent checks desk.link.state event with
      | .error _ => some desk
      | .ok later => some { desk with link := { desk.link with state := later } }

end Desk

section Conditions

variable [Recorded τ] [Recorded κ] (checks : Checks τ κ) (sessionId : String)

/-- The record of a send that was rejected. -/
def rejectedTurn (intent : SendIntent) : TurnRecord :=
  { TurnRecord.fresh intent with status := .rejected }

/-- The record of a send with a reply that waits to be admitted. -/
def stagedTurn (intent : SendIntent) (raw : String) : TurnRecord :=
  { TurnRecord.fresh intent with status := .pending, response := some (utf8 raw) }

/-- Nothing is left in the gateway, and all that it recorded is admitted or
rejected. -/
structure Link.Closed (link : Link τ κ) : Prop where
  pending : link.gateway.pending = none
  sent : link.gateway.sent = none
  concluded : ∀ intent ∈ link.recorded, link.state.Concluded intent

/-- The lease is live at every operation of the attempt. -/
def Exchange.Live (exchange : Exchange) (link : Link τ κ) : Prop :=
  ∀ access ∈ [exchange.record, exchange.send, exchange.reject, exchange.stage, exchange.admission],
    ∃ branch, liveBranch link.state link.gateway.reservation access.now = .ok branch

/-- What must not fail behind a recorded intent.  The index of the intent is
published and the log is read for the send; after a failed transport the rejection
is written; else the reply is neither empty nor too long, its staging is written
and published, and its admission is written. -/
def Exchange.Concludes (exchange : Exchange) (reserved : ReservedRequest κ)
    (intent : SendIntent) (state : SessionState τ κ) : Prop :=
  exchange.record.storage = .confirmed ∧ exchange.send.storage ≠ .lost ∧
    match exchange.transport with
    | .error _ =>
        exchange.reject.storage ≠ .lost ∧
          Room (.provider reserved.branchId reserved.owner (.reject intent.identity))
            (state.setTurn (rejectedTurn intent))
    | .ok raw =>
        (raw ≠ "" ∧ (utf8 raw).length ≤ maxArtifactBytes) ∧
          (exchange.stage.storage = .confirmed ∧
            Room (.provider reserved.branchId reserved.owner (.stage intent.identity (utf8 raw)))
              (state.setTurn (stagedTurn intent raw))) ∧
          exchange.admission.storage ≠ .lost ∧
            Room (.provider reserved.branchId reserved.owner (.admitReply intent.identity []))
              ((state.setTurn (stagedTurn intent raw)).setTurn
                { stagedTurn intent raw with status := .admitted })

/-- Whatever intent the call brings to the log, nothing fails behind it. -/
def Link.Heeds (link : Link τ κ) (exchange : Exchange) (call : CallIntent) : Prop :=
  ∀ intent state, link.recording checks sessionId exchange.record.now call = .ok (intent, state) →
    exchange.record.storage ≠ .lost → exchange.Concludes link.gateway.reservation intent state

def Turn.Live (desk : Desk τ κ) : Turn τ κ → Prop
  | .call _ exchange => exchange.Live desk.link
  | .other _ => True

def Turn.Heeds (desk : Desk τ κ) : Turn τ κ → Prop
  | .call asked exchange => ∀ intent, asked.requested desk.plane = some intent →
      desk.link.Heeds checks sessionId exchange intent
  | .other _ => True

end Conditions

section Attempts

variable {checks : Checks τ κ} {link : Link τ κ}
  {record next : TurnRecord} {older : List SendIntent}

/-- An idle gateway whose last send has the record. -/
structure Link.Holds (checks : Checks τ κ) (link : Link τ κ)
    (record : TurnRecord) (older : List SendIntent) : Prop where
  pending : link.gateway.pending = none
  sent : link.gateway.sent = none
  awaits : Awaits checks link.state link.gateway.reservation record
  recorded : link.recorded = record.intent :: older
  concluded : ∀ intent ∈ older, link.state.Concluded intent

theorem Link.Holds.closed (holds : link.Holds checks record older)
    (status : record.status = .admitted ∨ record.status = .rejected) : link.Closed where
  pending := holds.pending
  sent := holds.sent
  concluded intent member := by
    rw [holds.recorded] at member
    rcases List.mem_cons.mp member with rfl | earlier
    · exact holds.awaits.concluded status
    · exact holds.concluded intent earlier

theorem Link.Holds.not_closed (holds : link.Holds checks record older) (isOpen : record.isOpen) :
    ¬ link.Closed := by
  intro closed
  apply holds.awaits.unconcluded isOpen
  apply closed.concluded
  rw [holds.recorded]
  exact List.mem_cons_self

theorem Link.Holds.step (holds : link.Holds checks record older) (moved : Moved record next) :
    Link.Holds checks { link with state := link.state.setTurn next } next older where
  pending := holds.pending
  sent := holds.sent
  awaits := holds.awaits.step moved
  recorded := by rw [holds.recorded, moved.intent_eq]
  concluded intent member := holds.awaits.keeps moved (holds.concluded intent member)

variable [Recorded τ] [Recorded κ]

/-- A command changes the record when the log has room and the disk does not lose
it; it is answered well when the disk confirms it, too. -/
theorem Link.Holds.command (holds : link.Holds checks record older) {access : Access}
    {branch : BranchRecord τ κ} {command : Gateway.Command}
    {change : TurnRecord → Except GatewayError TurnRecord}
    (live : liveBranch link.state link.gateway.reservation access.now = .ok branch)
    (reaches : Reaches τ κ command record.intent.identity change)
    (changed : change record = .ok next) (moved : Moved record next) :
    let event := Event.provider link.gateway.reservation.branchId link.gateway.reservation.owner
      command
    let later := { link with state := link.state.setTurn next }
    (access.storage = .confirmed ∧ Room event (link.state.setTurn next) ∧
        link.providerCommand checks access command = (.ok (), later)) ∨
      (access.storage = .unconfirmed ∧ Room event (link.state.setTurn next) ∧
        link.providerCommand checks access command = (.error .gateway, later)) ∨
      (¬ (access.storage ≠ .lost ∧ Room event (link.state.setTurn next)) ∧
        link.providerCommand checks access command = (.error .gateway, link)) := by
  intro event later
  have taken := fun state => @providerCommand_iff _ _ checks link.state state
    link.gateway.reservation access.now branch record next _ _ command change holds.awaits live
    reaches changed moved
  by_cases room : Room event (link.state.setTurn next)
  · have accepted := (taken _).mpr ⟨rfl, room⟩
    unfold Link.providerCommand
    rw [accepted]
    cases storage : access.storage with
    | confirmed => exact .inl ⟨rfl, room, rfl⟩
    | unconfirmed => exact .inr (.inl ⟨rfl, room, rfl⟩)
    | lost => exact .inr (.inr ⟨fun both => both.1 rfl, rfl⟩)
  · right; right
    refine ⟨fun both => room both.2, ?_⟩
    unfold Link.providerCommand
    cases refused : Log.providerCommand checks link.state link.gateway.reservation command
        access.now with
    | error error => rfl
    | ok state =>
        rcases (taken state).mp refused with ⟨rfl, fits⟩
        exact absurd fits room

/-- A command that ends an open send closes the gateway unless the log is full or
the disk loses it. -/
theorem Link.Holds.closed_command (holds : link.Holds checks record older) {access : Access}
    {branch : BranchRecord τ κ} {command : Gateway.Command}
    {change : TurnRecord → Except GatewayError TurnRecord}
    (live : liveBranch link.state link.gateway.reservation access.now = .ok branch)
    (reaches : Reaches τ κ command record.intent.identity change)
    (changed : change record = .ok next) (moved : Moved record next) (isOpen : record.isOpen)
    (final : next.status = .admitted ∨ next.status = .rejected) :
    (link.providerCommand checks access command).2.Closed ↔
      access.storage ≠ .lost ∧ Room (.provider link.gateway.reservation.branchId
        link.gateway.reservation.owner command) (link.state.setTurn next) := by
  have closed := (holds.step moved).closed final
  rcases holds.command live reaches changed moved with ⟨storage, room, same⟩ |
    ⟨storage, room, same⟩ | ⟨failed, same⟩
  · rw [same, storage]
    exact ⟨fun _ => ⟨by simp, room⟩, fun _ => closed⟩
  · rw [same, storage]
    exact ⟨fun _ => ⟨by simp, room⟩, fun _ => closed⟩
  · rw [same]
    exact ⟨fun closed => absurd closed (holds.not_closed isOpen), fun both => absurd both failed⟩

/-- The reply of a send is taken when it is staged, confirmed and then admitted. -/
theorem Link.Holds.closed_admitResponse {intent : SendIntent} {call : CallIntent} {raw : String}
    {exchange : Exchange} (holds : link.Holds checks (.fresh intent) older)
    (live : exchange.Live link) (fits : (utf8 raw).length ≤ intent.allowance.toNat) :
    (Link.admitResponse checks
        { link with gateway := { link.gateway with
          sent := some (call.identity, intent.identity, raw) } } exchange call raw).2.Closed ↔
      (exchange.stage.storage = .confirmed ∧
        Room (.provider link.gateway.reservation.branchId link.gateway.reservation.owner
          (.stage intent.identity (utf8 raw))) (link.state.setTurn (stagedTurn intent raw))) ∧
      exchange.admission.storage ≠ .lost ∧
        Room (.provider link.gateway.reservation.branchId link.gateway.reservation.owner
          (.admitReply intent.identity [])) ((link.state.setTurn (stagedTurn intent raw)).setTurn
            { stagedTurn intent raw with status := .admitted }) := by
  have restored : ({ link with gateway := { link.gateway with sent := none } } :
      Link τ κ) = link := by
    rw [← holds.sent]
  have staged : Moved (.fresh intent) (stagedTurn intent raw) := .staged _ rfl fits
  have admitted : Moved (stagedTurn intent raw)
      { stagedTurn intent raw with status := .admitted } :=
    .admitted [] rfl (by simp [stagedTurn]) (by simp) .nil
  have stages : (TurnRecord.fresh intent).stage (utf8 raw) = .ok (stagedTurn intent raw) :=
    stage_eq_ok.mpr ⟨rfl, fits, rfl⟩
  have admits : (stagedTurn intent raw).admitReply [] =
      .ok { stagedTurn intent raw with status := .admitted } :=
    admit_eq_ok.mpr ⟨rfl, by simp [stagedTurn], by simp, .nil, rfl⟩
  rcases live exchange.stage (by simp) with ⟨_, stageLive⟩
  rcases live exchange.admission (by simp) with ⟨_, admitLive⟩
  unfold Link.admitResponse
  simp only [ne_eq, not_true_eq_false, or_self, if_false, restored]
  rcases holds.command stageLive (reaches_stage intent.identity (utf8 raw)) stages staged with
    ⟨storage, room, same⟩ | ⟨storage, room, same⟩ | ⟨failed, same⟩
  · have last := (holds.step staged).closed_command admitLive
      (reaches_admission intent.identity []) admits admitted (.inr rfl) (.inl rfl)
    rw [same]
    apply last.trans
    simp only [storage, room, true_and, ne_eq, and_self]
  · have waiting := (holds.step staged).not_closed (.inr rfl)
    rw [same]
    simp only [waiting, storage, reduceCtorEq, false_and]
  · rw [same]
    constructor
    · exact fun closed => absurd closed (holds.not_closed (.inl rfl))
    · rintro ⟨⟨storage, room⟩, _⟩
      exact absurd ⟨by simp [storage], room⟩ failed

variable {sessionId : String} {intent : SendIntent} {call : CallIntent} {now : UInt64}
  {later : SessionState τ κ} {exchange : Exchange}

/-- A recorded intent has a fresh record, which the reservation owns. -/
theorem Link.Closed.recording (closed : link.Closed) (valid : link.state.validate checks = .ok ())
    (recorded : link.recording checks sessionId now call = .ok (intent, later)) :
    Link.Holds checks { link with state := later, recorded := intent :: link.recorded }
        (.fresh intent) link.recorded ∧
      intent.allowance.toNat = call.bound ∧ later.branches = link.state.branches := by
  simp only [Link.recording, bind_eq_ok, reject_eq_ok, mapError_eq_ok, providerIntent, pure_eq_ok,
    Nat.not_lt] at recorded
  rcases recorded with ⟨_, _, _, _, _, bounded, _, _, _, appended, same⟩
  cases same
  rcases appendCommand_eq_ok appended with ⟨applied, laterValid⟩
  rcases recorded_of_appendCommand appended with ⟨named, owner, _, unused⟩
  have kept : ∀ earlier ∈ link.recorded, later.Concluded earlier := by
    intro earlier member
    exact (closed.concluded earlier member).step (validated_of_validate valid) applied
  rcases providerEvent_eq_ok applied with ⟨_, turns, accepted, rfl⟩
  rcases insert_eq_ok.mp accepted with ⟨_, missed, rfl⟩
  constructor
  · constructor
    case pending => exact closed.pending
    case sent => exact closed.sent
    case recorded => rfl
    case concluded => exact kept
    case awaits =>
      constructor
      · exact laterValid
      · apply find?_append_hit
        · intro other member
          exact decide_eq_false (missed other member)
        · simp [TurnRecord.named, TurnRecord.fresh]
      · exact named
      · exact owner
  · refine ⟨?_, rfl⟩
    exact UInt64.toNat_ofNat_of_lt' (Nat.lt_succ_of_le bounded)

omit [Recorded τ] [Recorded κ] in
theorem Exchange.Live.congr {other : Link τ κ} (live : exchange.Live link)
    (reservation : other.gateway.reservation = link.gateway.reservation)
    (branches : other.state.branches = link.state.branches) : exchange.Live other := by
  intro access member
  rcases live access member with ⟨branch, found⟩
  refine ⟨branch, ?_⟩
  unfold liveBranch SessionState.branch at found ⊢
  rw [reservation, branches]
  exact found

/-- The permit of a recorded intent passes, while the log can be read. -/
theorem Link.Holds.sendOnce (holds : link.Holds checks (.fresh intent) older)
    (live : exchange.Live link) (readable : exchange.send.storage ≠ .lost) :
    Link.sendOnce checks { link with gateway := { link.gateway with
        pending := some (call, intent) } } exchange call =
      match exchange.transport with
      | .ok raw => (.ok raw, { link with gateway := { link.gateway with
          sent := some (call.identity, intent.identity, raw) } })
      | .error error =>
          match link.providerCommand checks exchange.reject (.reject intent.identity) with
          | (.error refused, rejected) => (.error refused, rejected)
          | (.ok (), rejected) => (.error error, rejected) := by
  have spent : ({ link with gateway := { link.gateway with pending := none } } :
      Link τ κ) = link := by
    rw [← holds.pending]
  rcases live exchange.send (by simp) with ⟨_, sendLive⟩
  have admitted := holds.awaits.admitSend sendLive rfl
  simp only [TurnRecord.fresh] at admitted
  simp only [Link.sendOnce, readable, ne_eq, not_true_eq_false, or_self, if_false, admitted, spent,
    holds.pending]

/-- A reply that the plane gives up stays in the gateway. -/
theorem Link.Holds.deliver_refused {raw : String}
    (holds : link.Holds checks (.fresh intent) older) (live : exchange.Live link)
    (readable : exchange.send.storage ≠ .lost) (transport : exchange.transport = .ok raw)
    (refused : raw = "" ∨ maxArtifactBytes < (utf8 raw).length) :
    Link.deliver checks { link with gateway := { link.gateway with
        pending := some (call, intent) } } exchange call =
      (⟨.ok (), .ok raw, .error .gateway⟩, { link with gateway := { link.gateway with
        sent := some (call.identity, intent.identity, raw) } }) := by
  simp only [Link.deliver, holds.sendOnce live readable, transport, if_pos refused]

/-- What comes of an intent whose record was confirmed. -/
theorem Link.Holds.closed_deliver (holds : link.Holds checks (.fresh intent) older)
    (live : exchange.Live link) (confirmed : exchange.record.storage = .confirmed)
    (bounded : maxArtifactBytes ≤ intent.allowance.toNat) :
    (Link.deliver checks { link with gateway := { link.gateway with
        pending := some (call, intent) } } exchange call).2.Closed ↔
      exchange.Concludes link.gateway.reservation intent link.state := by
  unfold Exchange.Concludes
  by_cases lost : exchange.send.storage = .lost
  · have spent : ({ link with gateway := { link.gateway with pending := none } } :
        Link τ κ) = link := by
      rw [← holds.pending]
    have unsent := holds.not_closed (.inl rfl)
    simp only [Link.deliver, Link.sendOnce, lost, or_true, if_true, spent, unsent, ne_eq,
      not_true_eq_false, false_and, and_false]
  · cases transport : exchange.transport with
    | error error =>
        rcases live exchange.reject (by simp) with ⟨_, rejectLive⟩
        have rejects : (TurnRecord.fresh intent).reject = .ok (rejectedTurn intent) :=
          reject_record_eq_ok.mpr ⟨.inl rfl, rfl⟩
        have closing := holds.closed_command rejectLive (reaches_reject intent.identity) rejects
          (.rejected (.inl rfl)) (.inl rfl) (.inr rfl)
        simp only [Link.deliver, holds.sendOnce live lost, transport, confirmed, lost, ne_eq,
          not_false_eq_true, true_and]
        rw [← closing]
        rcases link.providerCommand checks exchange.reject (.reject intent.identity) with
          ⟨_ | _, rejected⟩
        · rfl
        · rfl
    | ok raw =>
        by_cases refused : raw = "" ∨ maxArtifactBytes < (utf8 raw).length
        · rw [holds.deliver_refused live lost transport refused]
          constructor
          · intro closed
            cases closed.sent
          · rintro ⟨_, _, ⟨present, short⟩, _⟩
            exact absurd refused (not_or.mpr ⟨present, Nat.not_lt.mpr short⟩)
        · have sized := not_or.mp refused
          have short := Nat.not_lt.mp sized.2
          have closing := @Link.Holds.closed_admitResponse _ _ _ _ _ _ _ _ call raw _ holds live
            (Nat.le_trans short bounded)
          simp only [Link.deliver, holds.sendOnce live lost, transport, if_neg refused]
          simp only [confirmed, lost, sized.1, short, ne_eq, not_false_eq_true, and_self, true_and]
          exact closing

/-- An attempt from a closed gateway over a live lease closes it again exactly
when nothing fails behind the intent that it recorded. -/
theorem Link.Closed.answer (closed : link.Closed) (valid : link.state.validate checks = .ok ())
    (live : exchange.Live link) (bounded : maxArtifactBytes ≤ call.bound) :
    (link.answer checks sessionId exchange call).2.Closed ↔
      link.Heeds checks sessionId exchange call := by
  unfold Link.Heeds
  cases recording : link.recording checks sessionId exchange.record.now call with
  | error error =>
      simp only [Link.answer, Link.recordIntent, recording, reduceCtorEq, false_implies,
        implies_true, closed]
  | ok recorded =>
      rcases recorded with ⟨intent, later⟩
      rcases closed.recording valid recording with ⟨holds, allowance, branches⟩
      have sending : exchange.Live
          { link with state := later, recorded := intent :: link.recorded } :=
        live.congr rfl branches
      have only : (∀ other state, (Except.ok (intent, later) : Except ManagementError _) =
          .ok (other, state) → exchange.record.storage ≠ .lost →
          exchange.Concludes link.gateway.reservation other state) ↔
          (exchange.record.storage ≠ .lost →
            exchange.Concludes link.gateway.reservation intent later) := by
        constructor
        · exact fun heeds => heeds intent later rfl
        · rintro heeds other state same
          cases same
          exact heeds
      rw [only]
      cases storage : exchange.record.storage with
      | lost => simp only [Link.answer, Link.recordIntent, recording, storage, closed, ne_eq,
          not_true_eq_false, false_implies]
      | unconfirmed =>
          have failed := holds.not_closed (.inl rfl)
          simp only [Link.answer, Link.recordIntent, recording, storage, failed, ne_eq,
            reduceCtorEq, not_false_eq_true, Exchange.Concludes, false_and, true_implies]
      | confirmed =>
          have delivered := @Link.Holds.closed_deliver _ _ _ _ _ _ _ _ call _ holds sending storage
            (allowance ▸ bounded)
          simp only [Link.answer, Link.recordIntent, recording, storage, ne_eq, reduceCtorEq,
            not_false_eq_true, true_implies]
          exact delivered

/-- A gateway that keeps a reply nobody will admit. -/
structure Link.Blocked (checks : Checks τ κ) (sessionId : String)
    (link : Link τ κ) (recorded : List SendIntent) : Prop where
  recorded : link.recorded = recorded
  unclosed : ¬ link.Closed
  refuses : ∀ now call, link.recording checks sessionId now call = .error .gateway

/-- A reply that is empty or too long blocks the gateway for good. -/
theorem Link.Closed.answer_refused {raw : String} (closed : link.Closed)
    (valid : link.state.validate checks = .ok ()) (live : exchange.Live link)
    (recording : link.recording checks sessionId exchange.record.now call = .ok (intent, later))
    (confirmed : exchange.record.storage = .confirmed) (readable : exchange.send.storage ≠ .lost)
    (transport : exchange.transport = .ok raw)
    (refused : raw = "" ∨ maxArtifactBytes < (utf8 raw).length) :
    Link.Blocked checks sessionId (link.answer checks sessionId exchange call).2
      (intent :: link.recorded) := by
  rcases closed.recording valid recording with ⟨holds, _, branches⟩
  have sending : exchange.Live
      { link with state := later, recorded := intent :: link.recorded } :=
    live.congr rfl branches
  have kept := @Link.Holds.deliver_refused _ _ _ _ _ _ _ _ call _ raw holds sending readable
    transport refused
  simp only [Link.answer, Link.recordIntent, recording, confirmed]
  rw [kept]
  constructor
  · rfl
  · intro unclosed
    cases unclosed.sent
  · intro now call
    simp [Link.recording, reject, bind, Except.bind]

end Attempts

section Runs

variable {plane : ManagementPlane} {call : SpendCall} {intent : CallIntent}

/-- The reply when the gateway answers so. -/
def Reply.answered (reply : Reply) (answers : GatewayAnswers) : Reply :=
  match reply.sent with
  | none => reply
  | some intent =>
      match ManagementPlane.attempt answers intent with
      | (result, sent) => ⟨result, reply.plane, sent⟩

theorem dispatch_answered (plane : ManagementPlane) (consumer : Consumer) (configuration : String)
    (bound : Nat) (envelope : QuotedEnvelope) (answers : GatewayAnswers) :
    plane.dispatch consumer configuration bound envelope answers =
      (plane.dispatch consumer configuration bound envelope .willing).answered answers := by
  unfold ManagementPlane.dispatch
  split <;> rfl

/-- What a call asks of the gateway does not depend on the answers. -/
theorem reply_answered (plane : ManagementPlane) (call : SpendCall) (answers : GatewayAnswers) :
    call.reply plane answers = (call.reply plane .willing).map (Reply.answered · answers) := by
  cases call with
  | compact permit configuration bound envelope _ =>
      simp only [SpendCall.reply, ManagementPlane.compact]
      split
      · rfl
      · split
        · rfl
        · split
          · rfl
          · rw [Option.map_map]
            apply congrArg (Option.map · _)
            funext charged
            rcases charged with ⟨_ | _, spend⟩
            · rfl
            · exact dispatch_answered _ _ _ _ _ _
  | gateCall permit consumer configuration envelope _ =>
      simp only [SpendCall.reply, ManagementPlane.gateCall]
      split
      · rfl
      · split
        · rfl
        · split
          · rfl
          · rw [Option.map_map]
            apply congrArg (Option.map · _)
            funext charged
            rcases charged with ⟨_ | _, spend⟩
            · rfl
            · exact dispatch_answered _ _ _ _ _ _
  | execute consumer configuration bound envelope _ =>
      simp only [SpendCall.reply, ManagementPlane.execute]
      split
      · rfl
      · rw [Option.map_map]
        apply congrArg (Option.map · _)
        funext charged
        rcases charged with ⟨_ | _, spend⟩
        · rfl
        · exact dispatch_answered _ _ _ _ _ _
  | reserveCandidate => rfl
  | finishCandidate permit => rfl
  | replenish turn => rfl

theorem sent_dispatch {consumer : Consumer} {configuration : String} {bound : Nat}
    {envelope : QuotedEnvelope} {answers : GatewayAnswers}
    (sent : (plane.dispatch consumer configuration bound envelope answers).sent = some intent) :
    intent.bound = bound := by
  unfold ManagementPlane.dispatch at sent
  split at sent
  · cases sent
  · simp only [ManagementPlane.attempt] at sent
    repeat' split at sent
    all_goals cases sent
    all_goals rfl

theorem bound_of_checkCall {configuration : String} {bound : Nat} {envelope : QuotedEnvelope}
    (checked : ManagementPlane.checkCall configuration bound envelope = .ok ()) :
    maxArtifactBytes ≤ bound := by
  unfold ManagementPlane.checkCall at checked
  split at checked
  · cases checked
  · rename_i passed
    have room := Nat.not_lt.mp (not_or.mp (not_or.mp passed).2).1
    exact Nat.le_trans (Nat.le_add_left _ _) room

/-- A call that is checked, charged and sent has room for an artifact. -/
theorem bound_of_charged {charge : Option (Except ManagementError Unit × SpendBudget)}
    {next : SpendBudget → ManagementPlane} {consumer : Consumer} {configuration : String}
    {bound : Nat} {envelope : QuotedEnvelope}
    (checked : ManagementPlane.checkCall configuration bound envelope = .ok ())
    (sent : (charge.map fun
      | (.error error, spend) => { plane with spend := spend }.refuse error
      | (.ok (), spend) =>
          (next spend).dispatch consumer configuration bound envelope .willing).bind
        Reply.sent = some intent) : maxArtifactBytes ≤ intent.bound := by
  rw [Option.bind_eq_some_iff] at sent
  rcases sent with ⟨reply, mapped, sent⟩
  rcases Option.map_eq_some_iff.mp mapped with ⟨⟨_ | _, spend⟩, _, rfl⟩
  · cases sent
  · rw [sent_dispatch sent]
    exact bound_of_checkCall checked

/-- The bound of a call that reaches the gateway covers the longest reply. -/
theorem bound_of_requested (requested : call.requested plane = some intent) :
    maxArtifactBytes ≤ intent.bound := by
  cases call with
  | compact permit configuration bound envelope answers =>
      simp only [SpendCall.requested, SpendCall.reply, ManagementPlane.compact] at requested
      split at requested
      · cases requested
      · rename_i checked
        split at requested
        · cases requested
        · split at requested
          · cases requested
          · exact bound_of_charged checked requested
  | gateCall permit consumer configuration envelope answers =>
      simp only [SpendCall.requested, SpendCall.reply, ManagementPlane.gateCall] at requested
      split at requested
      · cases requested
      · split at requested
        · cases requested
        · split at requested
          · cases requested
          · rename_i checked
            exact bound_of_charged checked requested
  | execute consumer configuration bound envelope answers =>
      simp only [SpendCall.requested, SpendCall.reply, ManagementPlane.execute] at requested
      split at requested
      · cases requested
      · rename_i checked
        exact bound_of_charged checked requested
  | reserveCandidate => cases requested
  | finishCandidate permit => cases requested
  | replenish turn => cases requested

/-- A call that reaches the gateway returns, whatever it is answered. -/
theorem perform_of_requested (requested : call.requested plane = some intent)
    (answers : GatewayAnswers) :
    ∃ run, SpendRun.perform ⟨plane, [], []⟩ (call.answered answers) = some run := by
  rw [SpendCall.requested, Option.bind_eq_some_iff] at requested
  rcases requested with ⟨reply, replied, _⟩
  have answered := reply_answered plane call answers
  rw [replied, Option.map_some] at answered
  cases call with
  | compact permit configuration bound envelope _ =>
      simp only [SpendCall.reply] at answered
      simp only [SpendCall.answered, SpendRun.perform, answered, Option.map_some, Option.some.injEq,
        exists_eq']
  | gateCall permit consumer configuration envelope _ =>
      simp only [SpendCall.reply] at answered
      simp only [SpendCall.answered, SpendRun.perform, answered, Option.map_some, Option.some.injEq,
        exists_eq']
  | execute consumer configuration bound envelope _ =>
      simp only [SpendCall.reply] at answered
      simp only [SpendCall.answered, SpendRun.perform, answered, Option.map_some, Option.some.injEq,
        exists_eq']
  | reserveCandidate => cases replied
  | finishCandidate permit => cases replied
  | replenish turn => cases replied

end Runs

section Desks

variable [Recorded τ] [Recorded κ] {checks : Checks τ κ}
  {sessionId : String} {link : Link τ κ} {exchange : Exchange}
  {call : CallIntent} {desk : Desk τ κ} {turn : Turn τ κ}

theorem Link.valid_providerCommand {access : Access} {command : Gateway.Command}
    {result : Except ManagementError Unit} {later : Link τ κ}
    (valid : link.state.validate checks = .ok ())
    (answered : link.providerCommand checks access command = (result, later)) :
    later.state.validate checks = .ok () := by
  unfold Link.providerCommand at answered
  split at answered
  · cases answered
    exact valid
  · rename_i appended accepted
    simp only [Log.providerCommand, bind_eq_ok] at accepted
    rcases accepted with ⟨_, _, accepted⟩
    have laterValid := (appendCommand_eq_ok accepted).2
    split at answered
    · cases answered
      exact valid
    · cases answered
      exact laterValid
    · cases answered
      exact laterValid

theorem Link.valid_recordIntent {access : Access} (valid : link.state.validate checks = .ok ()) :
    (link.recordIntent checks sessionId access call).2.state.validate checks = .ok () := by
  unfold Link.recordIntent
  split
  · exact valid
  · rename_i intent later recorded
    simp only [Link.recording, bind_eq_ok, mapError_eq_ok, providerIntent, pure_eq_ok] at recorded
    rcases recorded with ⟨_, _, _, _, _, _, _, _, _, appended, same⟩
    cases same
    have laterValid := (appendCommand_eq_ok appended).2
    split
    · exact valid
    · exact laterValid
    · exact laterValid

theorem Link.valid_sendOnce (valid : link.state.validate checks = .ok ()) :
    (link.sendOnce checks exchange call).2.state.validate checks = .ok () := by
  have spent : ({ link with gateway := { link.gateway with pending := none } } :
      Link τ κ).state.validate checks = .ok () := valid
  unfold Link.sendOnce
  split
  · exact valid
  · simp only
    split
    · exact valid
    · split
      · exact valid
      · split
        · exact valid
        · split
          · rename_i rejected
            exact Link.valid_providerCommand spent rejected
          · rename_i rejected
            exact Link.valid_providerCommand spent rejected

theorem Link.valid_admitResponse {raw : String} (valid : link.state.validate checks = .ok ()) :
    (link.admitResponse checks exchange call raw).2.state.validate checks = .ok () := by
  have taken : ({ link with gateway := { link.gateway with sent := none } } :
      Link τ κ).state.validate checks = .ok () := valid
  unfold Link.admitResponse
  split
  · exact valid
  · simp only
    split
    · exact valid
    · split
      · rename_i staged
        exact Link.valid_providerCommand taken staged
      · rename_i staged
        exact Link.valid_providerCommand (Link.valid_providerCommand taken staged) rfl

theorem Link.valid_answer (valid : link.state.validate checks = .ok ()) :
    (link.answer checks sessionId exchange call).2.state.validate checks = .ok () := by
  have records := @Link.valid_recordIntent _ _ _ _ checks sessionId link call exchange.record valid
  unfold Link.answer
  split
  · rename_i same
    rw [same] at records
    exact records
  · rename_i recorded same
    rw [same] at records
    have sends := @Link.valid_sendOnce _ _ _ _ checks recorded exchange call records
    unfold Link.deliver
    split
    · rename_i sent
      rw [sent] at sends
      exact sends
    · rename_i sent
      rw [sent] at sends
      split
      · exact sends
      · exact Link.valid_admitResponse sends

/-- A turn keeps the log valid. -/
theorem Desk.valid_step {next : Desk τ κ} (valid : desk.link.state.validate checks = .ok ())
    (stepped : desk.step checks sessionId turn = some next) :
    next.link.state.validate checks = .ok () := by
  cases turn with
  | call asked exchange =>
      simp only [Desk.step] at stepped
      split at stepped
      · rcases Option.map_eq_some_iff.mp stepped with ⟨run, _, rfl⟩
        exact valid
      · rcases Option.map_eq_some_iff.mp stepped with ⟨run, _, rfl⟩
        exact Link.valid_answer valid
  | other event =>
      simp only [Desk.step] at stepped
      split at stepped
      · cases stepped
        exact valid
      · rename_i appended
        cases stepped
        exact (appendEvent_eq_ok appended).2

/-- A call whose reply is empty or too long blocks the gateway. -/
theorem Desk.blocked_step {asked : SpendCall} {intent : SendIntent} {raw : String}
    {later : SessionState τ κ} (closed : desk.link.Closed)
    (valid : desk.link.state.validate checks = .ok ()) (live : exchange.Live desk.link)
    (requested : asked.requested desk.plane = some call)
    (recording : desk.link.recording checks sessionId exchange.record.now call =
      .ok (intent, later))
    (confirmed : exchange.record.storage = .confirmed) (readable : exchange.send.storage ≠ .lost)
    (transport : exchange.transport = .ok raw)
    (refused : raw = "" ∨ maxArtifactBytes < (utf8 raw).length) :
    ∃ next, desk.step checks sessionId (.call asked exchange) = some next ∧
      next.link.Blocked checks sessionId (intent :: desk.link.recorded) := by
  rcases perform_of_requested requested
    (desk.link.answer checks sessionId exchange call).1 with ⟨run, performed⟩
  refine ⟨⟨run.plane, _⟩, ?_,
    closed.answer_refused valid live recording confirmed readable transport refused⟩
  simp only [Desk.step, requested, performed, Option.map_some]

/-- A turn keeps the gateway closed exactly when nothing fails behind an intent
that it records. -/
theorem Desk.closed_step (valid : desk.link.state.validate checks = .ok ())
    (closed : desk.link.Closed) (live : turn.Live desk) :
    (∀ next, desk.step checks sessionId turn = some next → next.link.Closed) ↔
      turn.Heeds checks sessionId desk := by
  cases turn with
  | call asked exchange =>
      simp only [Desk.step, Turn.Heeds]
      split
      · rename_i unasked
        constructor
        · intro _ intent requested
          cases unasked.symm.trans requested
        · intro _ next stepped
          rcases Option.map_eq_some_iff.mp stepped with ⟨run, _, rfl⟩
          exact closed
      · rename_i intent requested
        have answered := @Link.Closed.answer _ _ _ _ _ _ sessionId _ _ closed valid live
          (bound_of_requested requested)
        constructor
        · intro after other same
          cases requested.symm.trans same
          rcases perform_of_requested requested
            (desk.link.answer checks sessionId exchange intent).1 with ⟨run, performed⟩
          exact answered.mp (after _ (by rw [performed]; rfl))
        · intro heeds next stepped
          rcases Option.map_eq_some_iff.mp stepped with ⟨run, _, rfl⟩
          exact answered.mpr (heeds intent requested)
  | other event =>
      simp only [Turn.Heeds, iff_true, Desk.step]
      intro next stepped
      split at stepped
      · cases stepped
        exact closed
      · rename_i appended
        cases stepped
        constructor
        · exact closed.pending
        · exact closed.sent
        · intro intent member
          exact (closed.concluded intent member).step (validated_of_validate valid)
            (appendEvent_eq_ok appended).1

end Desks

section Closing

variable [Recorded τ] [Recorded κ] (checks : Checks τ κ) (sessionId : String)

/-- What holds of every turn of a run and of the desk it starts from. -/
def Desk.Along (holds : Desk τ κ → Turn τ κ → Prop) :
    Desk τ κ → List (Turn τ κ) → Prop
  | _, [] => True
  | desk, turn :: rest =>
      holds desk turn ∧
        ∀ next, desk.step checks sessionId turn = some next → Along holds next rest

/-- What holds of every desk that a run reaches. -/
def Desk.Throughout (holds : Desk τ κ → Prop) :
    Desk τ κ → List (Turn τ κ) → Prop
  | desk, [] => holds desk
  | desk, turn :: rest =>
      holds desk ∧
        ∀ next, desk.step checks sessionId turn = some next → Throughout holds next rest

/-- A plane over a new gateway. -/
def Desk.open (plane : ManagementPlane) (reservation : ReservedRequest κ)
    (providerClass : ProviderClass) (state : SessionState τ κ) : Desk τ κ :=
  ⟨plane, .new reservation providerClass, state, []⟩

variable {checks sessionId}

theorem Desk.closed_throughout {desk : Desk τ κ} {turns : List (Turn τ κ)}
    (valid : desk.link.state.validate checks = .ok ()) (closed : desk.link.Closed)
    (live : Desk.Along checks sessionId (fun desk turn => turn.Live desk) desk turns) :
    Desk.Throughout checks sessionId (fun desk => desk.link.Closed) desk turns ↔
      Desk.Along checks sessionId (fun desk turn => turn.Heeds checks sessionId desk) desk
        turns := by
  induction turns generalizing desk with
  | nil => exact ⟨fun _ => trivial, fun _ => closed⟩
  | cons turn rest ih =>
      have step := @Desk.closed_step _ _ _ _ checks sessionId desk turn valid closed live.1
      constructor
      · rintro ⟨_, after⟩
        have heeds : turn.Heeds checks sessionId desk := by
          apply step.mp
          intro next stepped
          have reached := after next stepped
          cases rest with
          | nil => exact reached
          | cons _ _ => exact reached.1
        refine ⟨heeds, fun next stepped => ?_⟩
        exact (ih (Desk.valid_step valid stepped) (step.mpr heeds next stepped)
          (live.2 next stepped)).mp (after next stepped)
      · rintro ⟨heeds, after⟩
        refine ⟨closed, fun next stepped => ?_⟩
        exact (ih (Desk.valid_step valid stepped) (step.mpr heeds next stepped)
          (live.2 next stepped)).mpr (after next stepped)

/-- Over every run of management calls from a new gateway, with whatever replies
and whatever events of others between the calls, while the lease is live at every
operation: the gateway is closed after each call exactly when nothing fails behind
the intents that the calls record. -/
theorem closed_iff_heeds (checks : Checks τ κ) (sessionId : String)
    (plane : ManagementPlane) (reservation : ReservedRequest κ)
    (providerClass : ProviderClass) (state : SessionState τ κ)
    (turns : List (Turn τ κ)) (valid : state.validate checks = .ok ())
    (live : Desk.Along checks sessionId (fun desk turn => turn.Live desk)
      (.open plane reservation providerClass state) turns) :
    Desk.Throughout checks sessionId (fun desk => desk.link.Closed)
        (.open plane reservation providerClass state) turns ↔
      Desk.Along checks sessionId (fun desk turn => turn.Heeds checks sessionId desk)
        (.open plane reservation providerClass state) turns := by
  refine Desk.closed_throughout valid ?_ live
  constructor
  · rfl
  · rfl
  · intro intent member
    cases member

end Closing

section Samples

/-- A session whose first branch is held by its first owner. -/
def sampleLog : SessionState Unit Unit :=
  { (SessionState.empty "session" : SessionState Unit Unit) with
    providerEpoch := 1
    cwd := some "/work"
    cwdDev := 1
    cwdIno := 1
    branches := [sampleBranch]
    nextBranchSeq := 1 }

/-- The intent of the first call of the plane. -/
def sampleIntent : CallIntent where
  identity := "session:1:1"
  epoch := 1
  turn := 0
  consumer := .classifierAssist
  configuration := "model"
  bound := 70000
  envelope := SpendRun.sampleEnvelope

def sampleExecute : SpendCall :=
  .execute .classifierAssist "model" 70000 SpendRun.sampleEnvelope SpendRun.sampleAnswers

/-- A transport over a log that never fails. -/
def sampleExchange (reply : Except ManagementError String) : Exchange :=
  ⟨⟨2, .confirmed⟩, ⟨3, .confirmed⟩, reply, ⟨4, .confirmed⟩, ⟨4, .confirmed⟩, ⟨5, .confirmed⟩⟩

def sampleDesk : Desk Unit Unit :=
  .open SpendRun.samplePlane (sampleReservation "first") .atMostOneAttempt sampleLog

/-- What the store makes of the intent. -/
def sampleStamp : SendIntent :=
  stamped "session" sampleLog (sampleReservation "first")
    (sampleDesk.link.gateway.sendIntent sampleIntent)

/-- What is computed about the sample. -/
theorem computed_sample : sampleExecute.requested sampleDesk.plane = some sampleIntent ∧
    sampleLog.validate sampleChecks = .ok () ∧ sampleIntent.bytes.length ≤ 70000 ∧
    (([2, 3, 4, 5] : List UInt64).all fun now =>
      decide (liveBranch sampleLog (sampleReservation "first") now = .ok sampleBranch)) = true := by
  decide +kernel

theorem requested_sample : sampleExecute.requested sampleDesk.plane = some sampleIntent :=
  computed_sample.1

theorem valid_sampleLog : sampleLog.validate sampleChecks = .ok () :=
  computed_sample.2.1

theorem live_sample (reply : Except ManagementError String) :
    (sampleExchange reply).Live sampleDesk.link := by
  intro access member
  refine ⟨sampleBranch,
    of_decide_eq_true (List.all_eq_true.mp computed_sample.2.2.2 access.now ?_)⟩
  simp only [sampleExchange, List.mem_cons, List.not_mem_nil, or_false] at member
  rcases member with rfl | rfl | rfl | rfl | rfl <;> decide

/-- The log with an intent. -/
def recordedLog (intent : SendIntent) : SessionState Unit Unit :=
  { sampleLog with providerTurns := [.fresh intent] }

/-- The log with the reply of the intent. -/
def stagedLog : SessionState Unit Unit :=
  (recordedLog sampleStamp).setTurn (stagedTurn sampleStamp "folded")

/-- What is computed about the intent: its texts, and the sizes of its events and
of the log behind them. -/
theorem computed_stamp : (sampleStamp.identity ≠ "" ∧ sampleStamp.identity.utf8ByteSize ≤ 256 ∧
      hashValid sampleStamp.requestHash = true ∧ hashValid sampleStamp.contractHash = true) ∧
    ([.intent sampleStamp, .stage sampleStamp.identity (utf8 "folded"),
      .admitReply sampleStamp.identity []].all fun command =>
        decide (ceiling (json [(.provider "b1" "first" command : Event Unit Unit)]) ≤ 2 ^ 20)) =
          true ∧
    ([recordedLog sampleStamp, stagedLog,
      stagedLog.setTurn { stagedTurn sampleStamp "folded" with status := .admitted }].all
        fun state => decide (ceiling (json state) ≤ 2 ^ 20)) = true := by
  decide +kernel

theorem sendable_sample : sampleStamp.Sendable := by
  rcases computed_stamp.1 with ⟨identity, length, requestHash, contractHash⟩
  constructor
  case identity => exact identity
  case length => exact length
  case requestHash => exact requestHash
  case contractHash => exact contractHash
  all_goals decide

/-- The log has room for the intent, its reply and the admission. -/
theorem room_sample :
    Room (.provider "b1" "first" (.intent sampleStamp)) (recordedLog sampleStamp) ∧
    Room (.provider "b1" "first" (.stage sampleStamp.identity (utf8 "folded"))) stagedLog ∧
    Room (.provider "b1" "first" (.admitReply sampleStamp.identity []))
      (stagedLog.setTurn { stagedTurn sampleStamp "folded" with status := .admitted }) := by
  rcases computed_stamp.2 with ⟨events, states⟩
  simp only [List.all_cons, List.all_nil, Bool.and_true, Bool.and_eq_true, decide_eq_true_eq]
    at events states
  exact ⟨room_of_ceiling events.1 states.1, room_of_ceiling events.2.1 states.2.1,
    room_of_ceiling events.2.2 states.2.2⟩

/-- The intent is recorded. -/
theorem recording_sample : sampleDesk.link.recording sampleChecks "session" 2 sampleIntent =
    .ok (sampleStamp, recordedLog sampleStamp) := by
  have live : liveBranch sampleLog (sampleReservation "first") 2 = .ok sampleBranch :=
    of_decide_eq_true (List.all_eq_true.mp computed_sample.2.2.2 2 List.mem_cons_self)
  have unused : ∀ record ∈ sampleLog.providerTurns,
      record.intent.identity ≠ sampleStamp.identity :=
    fun _ member => absurd member List.not_mem_nil
  have stamps : stamped "session" sampleLog (sampleReservation "first")
      (sampleDesk.link.gateway.sendIntent sampleIntent) = sampleStamp := rfl
  have recorded := providerIntent_of_room valid_sampleLog live stamps sendable_sample unused
    room_sample.1
  simp only [Link.recording, bind_eq_ok, reject_eq_ok, mapError_eq_ok]
  refine ⟨(), ?_, (), Nat.not_lt.mpr computed_sample.2.2.1, (), by decide, recorded⟩
  decide

/-- A run of one call that is recorded and whose reply is in bounds: the gateway is
closed after it. -/
theorem closed_iff_heeds_folded :
    sampleDesk.link.recording sampleChecks "session" 2 sampleIntent =
      .ok (sampleStamp, recordedLog sampleStamp) ∧
    Desk.Throughout sampleChecks "session" (fun desk => desk.link.Closed) sampleDesk
      [.call sampleExecute (sampleExchange (.ok "folded"))] := by
  refine ⟨recording_sample, (closed_iff_heeds sampleChecks "session" SpendRun.samplePlane
    (sampleReservation "first") .atMostOneAttempt sampleLog
    [.call sampleExecute (sampleExchange (.ok "folded"))] valid_sampleLog
    ⟨live_sample _, fun _ _ => trivial⟩).mpr ⟨?_, fun _ _ => trivial⟩⟩
  intro intent requested stamp state recorded _
  cases requested_sample.symm.trans requested
  cases recording_sample.symm.trans recorded
  exact ⟨rfl, by decide, ⟨by decide, by decide +kernel⟩, ⟨rfl, room_sample.2.1⟩, by decide,
    room_sample.2.2⟩

/-- The transport answers the first call with an empty text.  The plane reports an
error, the reply stays in the gateway, which refuses every later call, and the
intent stays unresolved. -/
theorem empty_reply_unclosed :
    sampleLog.validate sampleChecks = .ok () ∧ (sampleExchange (.ok "")).Live sampleDesk.link ∧
      ∃ next, sampleDesk.step sampleChecks "session"
          (.call sampleExecute (sampleExchange (.ok ""))) = some next ∧
        next.link.recorded = [sampleStamp] ∧ ¬ next.link.Closed ∧
        ∀ now call, next.link.recording sampleChecks "session" now call = .error .gateway := by
  have closed : sampleDesk.link.Closed :=
    ⟨rfl, rfl, fun _ member => absurd member List.not_mem_nil⟩
  have live := live_sample (.ok "")
  rcases Desk.blocked_step closed valid_sampleLog live requested_sample recording_sample rfl
    (by decide) rfl (.inl rfl) with ⟨next, stepped, blocked⟩
  exact ⟨valid_sampleLog, live, next, stepped, blocked.recorded, blocked.unclosed,
    blocked.refuses⟩

end Samples

end Llxprt.Management
