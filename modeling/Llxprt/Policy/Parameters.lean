import Llxprt.Policy.Controller
import Llxprt.Rust.Result
import Mathlib.Data.List.Infix
import Mathlib.Data.List.Nodup

/-!
# The parameter registry

Every calibration of the controller is a declared parameter with a class.  An
update needs the authority of the class and a later logical time, and it is
logged; a safety invariant has no authority.
-/

namespace Llxprt.Policy

open Llxprt.Rust

/-- A 64-bit float, as far as its comparisons and casts tell. -/
inductive Number where
  | finite (value : ℚ)
  | infinity
  | negativeInfinity
  | nan

/-- `as u64`. -/
def Number.asU64 : Number → Nat
  | finite value => min value.floor.toNat u64Max
  | infinity => u64Max
  | negativeInfinity | nan => 0

/-- `as usize as u32`. -/
def Number.asU32 (number : Number) : Nat :=
  number.asU64 % 2 ^ 32

inductive ParameterClass where
  | safetyInvariant
  | profileTunable
  | calibrated
  | operatorEnvelope
  | unknown
  deriving DecidableEq

structure Parameter where
  name : String
  class_ : ParameterClass
  default : ℚ

def parameters : List Parameter :=
  [⟨"safety.classification_floor", .safetyInvariant, 1⟩,
    ⟨"safety.mandatory_reserve", .safetyInvariant, 1⟩,
    ⟨"queue.cycle_slots", .profileTunable, 5⟩,
    ⟨"queue.monitor_share", .profileTunable, 1⟩,
    ⟨"queue.max_retries", .profileTunable, 4⟩,
    ⟨"governor.per_window_quota", .calibrated, 4096⟩,
    ⟨"governor.per_turn_ceiling", .operatorEnvelope, 1024⟩,
    ⟨"governor.alpha", .safetyInvariant, 1 / 2⟩,
    ⟨"governor.quota_floor", .operatorEnvelope, 64⟩,
    ⟨"pressure.arm", .profileTunable, 4 / 5⟩,
    ⟨"pressure.disarm", .profileTunable, 7 / 10⟩,
    ⟨"pressure.target", .profileTunable, 3 / 5⟩,
    ⟨"pressure.minimum_floor", .operatorEnvelope, 0⟩,
    ⟨"ladder.escalation_bound", .operatorEnvelope, 6⟩,
    ⟨"ladder.confidence_floor", .profileTunable, 1 / 2⟩,
    ⟨"monitor.sticky_cap", .profileTunable, 8⟩,
    ⟨"monitor.relaxation_windows", .profileTunable, 1⟩,
    ⟨"progress.mandatory_queue_weight", .profileTunable, 1⟩,
    ⟨"progress.retry_weight", .profileTunable, 1⟩,
    ⟨"progress.terminal_reserve", .safetyInvariant, 1⟩,
    ⟨"profile.reclaim_aggressiveness", .profileTunable, 1⟩,
    ⟨"profile.log_verbosity", .profileTunable, 1⟩]

def lookup (name : String) : Option Parameter :=
  parameters.find? fun parameter => parameter.name = name

inductive UpdateAuthority where
  | profileLoad
  | calibrationTxn
  | operator
  deriving DecidableEq

structure ParameterUpdate where
  name : String
  prior : Number
  value : Number
  logicalTime : UInt64
  authority : UpdateAuthority

inductive UpdateError where
  | unknown
  | safetyInvariant
  | wrongAuthority
  | armedCalibration
  | invalidValue
  | nonMonotonicTime

structure ParameterRegistry where
  values : BTreeMap String Number
  updates : List ParameterUpdate

def validValue (name : String) : Number → Bool
  | .finite value =>
      if value < 0 then false
      else if (name = "governor.per_window_quota" ∨ name = "governor.per_turn_ceiling" ∨
          name = "governor.quota_floor") ∧ value = 0 then false
      else if name = "governor.alpha" ∨ name = "pressure.arm" ∨ name = "pressure.disarm" ∨
          name = "pressure.target" ∨ name = "pressure.minimum_floor" ∨
          name = "ladder.confidence_floor" then value ≤ 1
      else true
  | _ => false

namespace ParameterRegistry

def default : ParameterRegistry where
  values := .ofList (parameters.map fun parameter => (parameter.name, Number.finite parameter.default))
  updates := []

def classOf (name : String) : ParameterClass :=
  ((lookup name).map Parameter.class_).getD .unknown

def value (registry : ParameterRegistry) (name : String) : Option Number :=
  registry.values[name]?

/-- The authority that a class asks for. -/
def expectedAuthority : ParameterClass → Except UpdateError UpdateAuthority
  | .safetyInvariant => .error .safetyInvariant
  | .profileTunable => .ok .profileLoad
  | .calibrated => .ok .calibrationTxn
  | .operatorEnvelope => .ok .operator
  | .unknown => .error .unknown

/-- The checks of an update, up to the declared parameter. -/
def admitUpdate (registry : ParameterRegistry) (name : String) (value : Number)
    (logicalTime : UInt64) (authority : UpdateAuthority) (armed : Bool) :
    Except UpdateError Parameter := do
  let parameter ← okOr (lookup name) .unknown
  let expected ← expectedAuthority parameter.class_
  reject (authority ≠ expected) .wrongAuthority
  reject (armed = true ∧ parameter.class_ = .calibrated) .armedCalibration
  reject (validValue parameter.name value = false) .invalidValue
  let monotonic := (registry.updates.getLast?.map fun entry =>
    decide (entry.logicalTime < logicalTime)).getD true
  reject (monotonic = false) .nonMonotonicTime
  return parameter

/-- An update; there is no result when a declared parameter has no value. -/
def update (registry : ParameterRegistry) (name : String) (value : Number) (logicalTime : UInt64)
    (authority : UpdateAuthority) (armed : Bool) : Option (Except UpdateError ParameterRegistry) :=
  match registry.admitUpdate name value logicalTime authority armed with
  | .error error => some (.error error)
  | .ok parameter =>
      match registry.values[parameter.name]? with
      | none => none
      | some prior => some (.ok
          { values := registry.values.insert parameter.name value
            updates := registry.updates ++
              [⟨parameter.name, prior, value, logicalTime, authority⟩] })

/-- One call of `update` by its arguments. -/
structure Attempt where
  name : String
  value : Number
  logicalTime : UInt64
  authority : UpdateAuthority
  armed : Bool

/-- The registry after an attempt; one that is refused leaves it as it was. -/
def attempt (registry : ParameterRegistry) (attempt : Attempt) : Option ParameterRegistry :=
  (registry.update attempt.name attempt.value attempt.logicalTime attempt.authority
    attempt.armed).map fun
      | .ok later => later
      | .error _ => registry

/-- The registry after a sequence of attempts, each on the default or what the one
before has left. -/
def updated (attempts : List Attempt) : Option ParameterRegistry :=
  attempts.foldlM attempt default

end ParameterRegistry

section Audit

/-- Every default passes its own check. -/
theorem validValue_default :
    ∀ parameter ∈ parameters, validValue parameter.name (.finite parameter.default) = true := by
  simp [parameters, validValue]
  norm_num

/-- What an attempt asks for. -/
def ParameterRegistry.Attempt.request (attempt : ParameterRegistry.Attempt) :
    String × Number × UInt64 × UpdateAuthority :=
  (attempt.name, attempt.value, attempt.logicalTime, attempt.authority)

def ParameterUpdate.request (entry : ParameterUpdate) : String × Number × UInt64 × UpdateAuthority :=
  (entry.name, entry.value, entry.logicalTime, entry.authority)

/-- The value of a parameter after the updates of a log. -/
def valueAfter (updates : List ParameterUpdate) (parameter : Parameter) : Number :=
  (((updates.filter fun entry => entry.name = parameter.name).getLast?).map
    ParameterUpdate.value).getD (.finite parameter.default)

/-- An entry was made under the authority of its class, with a value that the
parameter can take, and notes the value that it replaced. -/
structure ParameterUpdate.Governed (before : List ParameterUpdate) (entry : ParameterUpdate) :
    Prop where
  declared : ∃ parameter, lookup entry.name = some parameter ∧
    entry.prior = valueAfter before parameter ∧
    ParameterRegistry.expectedAuthority parameter.class_ = .ok entry.authority
  valid : validValue entry.name entry.value = true

/-- The log tells every value that the registry holds, and every entry is
governed. -/
structure ParameterRegistry.Audited (registry : ParameterRegistry) : Prop where
  values : ∀ name, registry.values[name]? = (lookup name).map (valueAfter registry.updates)
  ordered : registry.updates.Pairwise fun earlier later => earlier.logicalTime < later.logicalTime
  governed : ∀ before entry after, registry.updates = before ++ entry :: after →
    entry.Governed before

theorem valueAfter_append_self (updates : List ParameterUpdate) (parameter : Parameter)
    (prior value : Number) (logicalTime : UInt64) (authority : UpdateAuthority) :
    valueAfter (updates ++ [⟨parameter.name, prior, value, logicalTime, authority⟩]) parameter =
      value := by
  simp [valueAfter, List.filter_append]

theorem valueAfter_append_other (updates : List ParameterUpdate) {parameter : Parameter}
    {entry : ParameterUpdate} (apart : entry.name ≠ parameter.name) :
    valueAfter (updates ++ [entry]) parameter = valueAfter updates parameter := by
  simp [valueAfter, List.filter_append, apart]

/-- An item that is above the last of an ordered list is above all of it. -/
theorem pairwise_concat {α : Type} {below : α → α → Prop} {items : List α} {item : α}
    (ordered : items.Pairwise below) (trans : ∀ first second third, below first second →
      below second third → below first third)
    (last : ∀ other, items.getLast? = some other → below other item) :
    (items ++ [item]).Pairwise below := by
  rcases List.eq_nil_or_concat items with rfl | ⟨before, other, rfl⟩
  · exact List.pairwise_singleton _ _
  · have above : below other item := last other (by simp)
    rw [List.pairwise_append]
    refine ⟨ordered, List.pairwise_singleton _ _, ?_⟩
    intro earlier member only same
    rw [List.mem_singleton.mp same]
    rw [List.concat_eq_append] at ordered member
    rcases List.mem_append.mp member with old | new
    · exact trans _ _ _ ((List.pairwise_append.mp ordered).2.2 _ old _ List.mem_cons_self) above
    · rw [List.mem_singleton.mp new]
      exact above

/-- Where a list with one more item is split, the split is at that item or inside
the list. -/
theorem split_concat {α : Type} {items before after : List α} {item entry : α}
    (split : items ++ [item] = before ++ entry :: after) :
    (items = before ∧ item = entry) ∨ ∃ rest, items = before ++ entry :: rest := by
  rcases List.eq_nil_or_concat after with rfl | ⟨rest, last, rfl⟩
  · rcases List.append_inj' split rfl with ⟨same, last⟩
    exact .inl ⟨same, List.singleton_inj.mp last⟩
  · rw [List.concat_eq_append, ← List.cons_append, ← List.append_assoc] at split
    exact .inr ⟨rest, List.append_inj_left' split rfl⟩

theorem lookup_name {name : String} {parameter : Parameter} (found : lookup name = some parameter) :
    parameter.name = name := by
  have named := List.find?_some found
  exact of_decide_eq_true named

theorem parameters_nodup : (parameters.map Parameter.name).Nodup := by
  decide

theorem mem_of_lookup {name : String} {parameter : Parameter} (found : lookup name = some parameter) :
    parameter ∈ parameters :=
  List.mem_of_find?_eq_some found

theorem lookup_of_mem {parameter : Parameter} (member : parameter ∈ parameters) :
    lookup parameter.name = some parameter := by
  cases found : lookup parameter.name with
  | none =>
      have apart := List.find?_eq_none.mp found parameter member
      exact absurd (decide_eq_true rfl) apart
  | some other =>
      rw [List.inj_on_of_nodup_map parameters_nodup (mem_of_lookup found) member (lookup_name found)]

namespace ParameterRegistry

theorem values_default (name : String) :
    default.values[name]? = (lookup name).map fun parameter => .finite parameter.default := by
  have keys : (parameters.map fun parameter =>
      (parameter.name, Number.finite parameter.default)).map Prod.fst =
        parameters.map Parameter.name := by
    rw [List.map_map]
    rfl
  cases found : lookup name with
  | none =>
      apply Std.ExtTreeMap.getElem?_ofList_of_contains_eq_false
      rw [keys, ← Bool.not_eq_true, List.contains_iff_mem, List.mem_map]
      rintro ⟨parameter, member, rfl⟩
      rw [lookup_of_mem member] at found
      cases found
  | some parameter =>
      apply Std.ExtTreeMap.getElem?_ofList_of_mem
      · exact Std.LawfulEqOrd.compare_eq_iff_eq.mpr (lookup_name found)
      · have distinct := parameters_nodup
        rw [← keys, List.Nodup, List.pairwise_map] at distinct
        exact distinct.imp fun apart same => apart (Std.LawfulEqOrd.compare_eq_iff_eq.mp same)
      · exact List.mem_map_of_mem (f := fun parameter : Parameter =>
          (parameter.name, Number.finite parameter.default)) (mem_of_lookup found)

theorem audited_default : default.Audited where
  values name := values_default name
  ordered := .nil
  governed before entry after split := by
    simp [default] at split

variable {registry later : ParameterRegistry}

theorem admitUpdate_eq_ok {name : String} {value : Number} {logicalTime : UInt64}
    {authority : UpdateAuthority} {armed : Bool} {parameter : Parameter}
    (admitted : registry.admitUpdate name value logicalTime authority armed = .ok parameter) :
    lookup name = some parameter ∧ expectedAuthority parameter.class_ = .ok authority ∧
      ¬ (armed = true ∧ parameter.class_ = .calibrated) ∧ validValue parameter.name value = true ∧
      ∀ entry, registry.updates.getLast? = some entry → entry.logicalTime < logicalTime := by
  simp only [admitUpdate, bind_eq_ok, okOr_eq_ok, reject_eq_ok, pure_eq_ok, Decidable.not_not,
    Bool.not_eq_false] at admitted
  rcases admitted with ⟨found, declared, expected, asked, _, same, _, disarmed, _, valid, _,
    monotonic, rfl⟩
  refine ⟨declared, same ▸ asked, disarmed, valid, ?_⟩
  intro entry last
  rw [last] at monotonic
  exact of_decide_eq_true monotonic

/-- An accepted update is the next entry of the log. -/
theorem Audited.update (audited : registry.Audited) {name : String} {value : Number}
    {logicalTime : UInt64} {authority : UpdateAuthority} {armed : Bool} :
    (∃ error, registry.update name value logicalTime authority armed = some (.error error)) ∨
    ∃ later parameter prior, registry.update name value logicalTime authority armed =
        some (.ok later) ∧
      lookup name = some parameter ∧ ¬ (armed = true ∧ parameter.class_ = .calibrated) ∧
      later.updates = registry.updates ++ [⟨name, prior, value, logicalTime, authority⟩] ∧
      later.Audited := by
  unfold ParameterRegistry.update
  cases admitted : registry.admitUpdate name value logicalTime authority armed with
  | error error => exact .inl ⟨error, rfl⟩
  | ok parameter =>
      right
      rcases admitUpdate_eq_ok admitted with ⟨declared, asked, disarmed, valid, monotonic⟩
      have named := lookup_name declared
      subst named
      have prior : registry.values[parameter.name]? =
          some (valueAfter registry.updates parameter) := by
        rw [audited.values, declared, Option.map_some]
      simp only [prior]
      refine ⟨_, parameter, valueAfter registry.updates parameter, rfl, declared, disarmed, rfl, ?_⟩
      constructor
      · intro other
        rw [Std.ExtTreeMap.getElem?_insert]
        split
        · rename_i same
          rw [← Std.LawfulEqOrd.compare_eq_iff_eq.mp same, declared, Option.map_some,
            valueAfter_append_self]
        · rename_i apart
          rw [audited.values]
          cases found : lookup other with
          | none => rfl
          | some foreign =>
              rw [Option.map_some, Option.map_some, valueAfter_append_other]
              rw [lookup_name found]
              rintro rfl
              exact apart Std.ReflOrd.compare_self
      · exact pairwise_concat audited.ordered (fun _ _ _ => UInt64.lt_trans) monotonic
      · intro before entry after split
        rcases split_concat split with ⟨rfl, rfl⟩ | ⟨rest, earlier⟩
        · exact ⟨⟨parameter, declared, rfl, asked⟩, valid⟩
        · exact audited.governed before entry rest earlier

/-- Nothing moves a safety invariant. -/
theorem Audited.safety (audited : registry.Audited) {parameter : Parameter}
    (member : parameter ∈ parameters) (invariant : parameter.class_ = .safetyInvariant) :
    registry.value parameter.name = some (.finite parameter.default) := by
  have untouched : registry.updates.filter (fun entry => entry.name = parameter.name) = [] := by
    rw [List.filter_eq_nil_iff]
    intro entry inside named
    rcases List.append_of_mem inside with ⟨before, after, split⟩
    rcases (audited.governed before entry after split).declared with ⟨found, declared, _, asked⟩
    rw [of_decide_eq_true named, lookup_of_mem member, Option.some.injEq] at declared
    subst declared
    rw [invariant] at asked
    cases asked
  rw [ParameterRegistry.value, audited.values, lookup_of_mem member, Option.map_some, valueAfter,
    untouched]
  rfl

/-- Every declared parameter has a finite value that it can take. -/
theorem Audited.finite (audited : registry.Audited) {parameter : Parameter}
    (member : parameter ∈ parameters) : ∃ value : ℚ,
    registry.value parameter.name = some (.finite value) ∧
      validValue parameter.name (.finite value) = true := by
  rw [ParameterRegistry.value, audited.values, lookup_of_mem member, Option.map_some]
  unfold valueAfter
  cases last : (registry.updates.filter fun entry => entry.name = parameter.name).getLast? with
  | none =>
      refine ⟨parameter.default, rfl, ?_⟩
      exact validValue_default parameter member
  | some entry =>
      have listed := List.mem_filter.mp (List.mem_of_getLast? last)
      rcases List.append_of_mem listed.1 with ⟨before, after, split⟩
      have valid := (audited.governed before entry after split).valid
      rw [of_decide_eq_true listed.2] at valid
      cases held : entry.value with
      | finite value =>
          rw [held] at valid
          exact ⟨value, congrArg some held, valid⟩
      | infinity => rw [held] at valid; cases valid
      | negativeInfinity => rw [held] at valid; cases valid
      | nan => rw [held] at valid; cases valid

theorem updated_concat {attempts : List Attempt} (reached : updated attempts = some registry)
    (last : Attempt) : updated (attempts ++ [last]) = registry.attempt last := by
  simp only [updated, List.foldlM_append, List.foldlM_cons, List.foldlM_nil, bind_pure]
  rw [show attempts.foldlM attempt default = some registry from reached]
  rfl

/-- An attempt leaves an audited registry as it is, or logs one more update. -/
theorem Audited.attempt (audited : registry.Audited) (made : Attempt) :
    registry.attempt made = some registry ∨
    ∃ later parameter prior, registry.attempt made = some later ∧
      lookup made.name = some parameter ∧ ¬ (made.armed = true ∧ parameter.class_ = .calibrated) ∧
      later.updates = registry.updates ++
        [⟨made.name, prior, made.value, made.logicalTime, made.authority⟩] ∧
      later.Audited := by
  rcases @Audited.update registry audited made.name made.value made.logicalTime made.authority
      made.armed with ⟨error, refused⟩ |
    ⟨later, parameter, prior, accepts, declared, free, entries, laterAudited⟩
  · left
    rw [ParameterRegistry.attempt, refused]
    rfl
  · right
    refine ⟨later, parameter, prior, ?_, declared, free, entries, laterAudited⟩
    rw [ParameterRegistry.attempt, accepts]
    rfl

/-- Every sequence of attempts ends, and leaves an audited registry. -/
theorem updated_succeeds (attempts : List Attempt) :
    ∃ registry, updated attempts = some registry ∧ registry.Audited := by
  induction attempts using List.reverseRecOn with
  | nil => exact ⟨default, rfl, audited_default⟩
  | append_singleton before last ih =>
      rcases ih with ⟨registry, reached, audited⟩
      rw [updated_concat reached]
      rcases audited.attempt last with same | ⟨later, _, _, moved, _, _, _, laterAudited⟩
      · exact ⟨registry, same, audited⟩
      · exact ⟨later, moved, laterAudited⟩

/-- The log of a registry is a selection of the attempts in their order.  A safety
invariant keeps its default, and a calibrated parameter is moved by no attempt that
is made while armed. -/
theorem updated_audited (attempts : List Attempt) :
    ∃ (registry : ParameterRegistry) (accepted : List Attempt),
      updated attempts = some registry ∧ registry.Audited ∧ accepted.Sublist attempts ∧
      registry.updates.map ParameterUpdate.request = accepted.map Attempt.request ∧
      (∀ attempt ∈ accepted, attempt.armed = true → classOf attempt.name ≠ .calibrated) ∧
      ∀ parameter ∈ parameters, parameter.class_ = .safetyInvariant →
        registry.value parameter.name = some (.finite parameter.default) := by
  induction attempts using List.reverseRecOn with
  | nil =>
      exact ⟨default, [], rfl, audited_default, List.Sublist.refl _, rfl, by simp,
        fun parameter member invariant => audited_default.safety member invariant⟩
  | append_singleton before last ih =>
      rcases ih with ⟨registry, accepted, reached, audited, chosen, logged, disarmed, _⟩
      rw [updated_concat reached]
      rcases audited.attempt last with same |
        ⟨later, parameter, prior, moved, declared, free, entries, laterAudited⟩
      · refine ⟨registry, accepted, same, audited, ?_, logged, disarmed, ?_⟩
        · exact chosen.trans (List.sublist_append_left _ _)
        · exact fun parameter member invariant => audited.safety member invariant
      · refine ⟨later, accepted ++ [last], moved, laterAudited, ?_, ?_, ?_, ?_⟩
        · exact chosen.append (List.Sublist.refl _)
        · rw [entries, List.map_append, List.map_append, logged]
          rfl
        · intro attempt member armed same
          rcases List.mem_append.mp member with old | new
          · exact disarmed attempt old armed same
          · rw [List.mem_singleton.mp new] at armed same
            rw [classOf, declared] at same
            exact free ⟨armed, same⟩
        · exact fun parameter member invariant => laterAudited.safety member invariant

end ParameterRegistry

end Audit

section Calibration

/-- `alpha.is_finite() && alpha > 0.0 && alpha <= 1.0`. -/
def alphaValid : Number → Bool
  | .finite alpha => 0 < alpha && alpha ≤ 1
  | _ => false

def Number.toFinite : Number → Option ℚ
  | finite value => some value
  | _ => none

/-- The calibrations that a controller reads from the registry.  There are none
when a parameter has no value; thresholds that are not finite are refused as well.
The test of the reclamation rate is part of the calibration. -/
def policyConfig (within : Number → Nat → Nat → Bool) (registry : ParameterRegistry) :
    Option PolicyConfig := do
  let quota ← registry.value "governor.per_window_quota"
  let ceiling ← registry.value "governor.per_turn_ceiling"
  let alpha ← registry.value "governor.alpha"
  let floor ← registry.value "governor.quota_floor"
  let arm ← (← registry.value "pressure.arm").toFinite
  let disarm ← (← registry.value "pressure.disarm").toFinite
  let target ← (← registry.value "pressure.target").toFinite
  let minimum ← (← registry.value "pressure.minimum_floor").toFinite
  let cap ← registry.value "monitor.sticky_cap"
  return {
    governor :=
      { perWindowQuota := quota.asU64
        perTurnCeiling := ceiling.asU64
        quotaFloor := floor.asU64
        alphaValid := alphaValid alpha
        withinAlpha := within alpha }
    arm := arm
    disarm := disarm
    target := target
    minimumFloor := minimum
    stickyCap := cap.asU32 }

/-- A ratio between zero and one. -/
theorem unit_of_validValue {name : String} {value : ℚ}
    (bounded : name = "pressure.arm" ∨ name = "pressure.disarm" ∨ name = "pressure.target" ∨
      name = "pressure.minimum_floor")
    (valid : validValue name (.finite value) = true) : 0 ≤ value ∧ value ≤ 1 := by
  simp only [validValue] at valid
  split at valid
  · cases valid
  · rename_i nonnegative
    split at valid
    · cases valid
    · rw [if_pos (by tauto)] at valid
      exact ⟨not_lt.mp nonnegative, of_decide_eq_true valid⟩

/-- Each parameter is checked by itself when it is updated.  What is left to the
assertions of the constructor is exactly how the parameters fit together, and that
none of those that are cut to integers is cut to zero. -/
theorem fromRegistry_updated (within : Number → Nat → Nat → Bool)
    (attempts : List ParameterRegistry.Attempt) :
    ∃ registry config, ParameterRegistry.updated attempts = some registry ∧
      policyConfig within registry = some config ∧
      (0 ≤ config.minimumFloor ∧ config.minimumFloor ≤ 1) ∧
      ((ProposalOnlyController.fromRegistry config).isSome = true ↔
        0 < config.governor.perTurnCeiling ∧ 0 < config.governor.quotaFloor ∧
          config.governor.quotaFloor ≤ config.governor.perWindowQuota ∧
          config.target < config.disarm ∧ config.disarm < config.arm ∧ 0 < config.stickyCap) := by
  rcases ParameterRegistry.updated_succeeds attempts with ⟨registry, reached, audited⟩
  have quotaMember : ⟨"governor.per_window_quota", .calibrated, 4096⟩ ∈ parameters :=
    List.mem_of_getElem? (i := 5) rfl
  have ceilingMember : ⟨"governor.per_turn_ceiling", .operatorEnvelope, 1024⟩ ∈ parameters :=
    List.mem_of_getElem? (i := 6) rfl
  have alphaMember : ⟨"governor.alpha", .safetyInvariant, 1 / 2⟩ ∈ parameters :=
    List.mem_of_getElem? (i := 7) rfl
  have floorMember : ⟨"governor.quota_floor", .operatorEnvelope, 64⟩ ∈ parameters :=
    List.mem_of_getElem? (i := 8) rfl
  have armMember : ⟨"pressure.arm", .profileTunable, 4 / 5⟩ ∈ parameters :=
    List.mem_of_getElem? (i := 9) rfl
  have disarmMember : ⟨"pressure.disarm", .profileTunable, 7 / 10⟩ ∈ parameters :=
    List.mem_of_getElem? (i := 10) rfl
  have targetMember : ⟨"pressure.target", .profileTunable, 3 / 5⟩ ∈ parameters :=
    List.mem_of_getElem? (i := 11) rfl
  have minimumMember : ⟨"pressure.minimum_floor", .operatorEnvelope, 0⟩ ∈ parameters :=
    List.mem_of_getElem? (i := 12) rfl
  have capMember : ⟨"monitor.sticky_cap", .profileTunable, 8⟩ ∈ parameters :=
    List.mem_of_getElem? (i := 15) rfl
  rcases audited.finite quotaMember with ⟨quota, quotaHeld, _⟩
  rcases audited.finite ceilingMember with ⟨ceiling, ceilingHeld, _⟩
  rcases audited.finite floorMember with ⟨floor, floorHeld, _⟩
  rcases audited.finite armMember with ⟨arm, armHeld, armValid⟩
  rcases audited.finite disarmMember with ⟨disarm, disarmHeld, disarmValid⟩
  rcases audited.finite targetMember with ⟨target, targetHeld, targetValid⟩
  rcases audited.finite minimumMember with ⟨minimum, minimumHeld, minimumValid⟩
  rcases audited.finite capMember with ⟨cap, capHeld, _⟩
  have alphaHeld := audited.safety alphaMember rfl
  have armUnit := unit_of_validValue (.inl rfl) armValid
  have disarmUnit := unit_of_validValue (.inr (.inl rfl)) disarmValid
  have targetUnit := unit_of_validValue (.inr (.inr (.inl rfl))) targetValid
  have minimumUnit := unit_of_validValue (.inr (.inr (.inr rfl))) minimumValid
  have alpha : alphaValid (.finite (1 / 2)) = true := by
    norm_num [alphaValid]
  have read : policyConfig within registry = some
      { governor :=
          { perWindowQuota := (Number.finite quota).asU64
            perTurnCeiling := (Number.finite ceiling).asU64
            quotaFloor := (Number.finite floor).asU64
            alphaValid := true
            withinAlpha := within (.finite (1 / 2)) }
        arm := arm
        disarm := disarm
        target := target
        minimumFloor := minimum
        stickyCap := (Number.finite cap).asU32 } := by
    unfold policyConfig
    rw [quotaHeld, ceilingHeld, alphaHeld, floorHeld, armHeld, disarmHeld, targetHeld, minimumHeld,
      capHeld, ← alpha]
    rfl
  refine ⟨registry, _, reached, read, minimumUnit, ?_⟩
  simp only [ProposalOnlyController.fromRegistry, Governor.new, Thresholds.new, RuntimeMonitor.new,
    armUnit, disarmUnit, targetUnit, true_and, and_true]
  constructor
  · intro built
    split at built
    · rename_i positive
      split at built
      · rename_i apart
        split at built
        · rename_i capped
          exact ⟨positive.2.1, positive.2.2.1, positive.2.2.2, apart.1, apart.2, capped⟩
        · cases built
      · cases built
    · cases built
  · rintro ⟨ceilingPositive, floorPositive, below, low, high, capped⟩
    rw [if_pos ⟨Nat.lt_of_lt_of_le floorPositive below, ceilingPositive, floorPositive, below⟩,
      if_pos ⟨low, high⟩, if_pos capped]
    rfl

end Calibration

end Llxprt.Policy
