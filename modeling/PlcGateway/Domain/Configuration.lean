/-
  The configured connections, tag groups and tags, and the read requests made of
  them (`domain/models.py`).  The `init` functions are the constructors of the source.
-/
import PlcGateway.Domain.Json
import PlcGateway.Library.Fallible

namespace PlcGateway

inductive OverlapPolicy where
  | skip
  deriving DecidableEq, Repr

/-- `OverlapPolicy.value` -/
def OverlapPolicy.value : OverlapPolicy → String
  | skip => "skip"

/-- `_require_positive_int` -/
def requirePositiveInt (value : ℤ) (fieldName : String) : Except PyError {n : ℕ // 0 < n} :=
  if h : 0 < value then .ok ⟨value.toNat, by omega⟩
  else .error (.configuration s!"{fieldName} must be a positive integer.")

structure ConnectionConfig where
  id : Stripped
  protocol : Stripped
  endpoint : Stripped
  enabled : Bool
  timeoutMs : ℕ
  protocolOptions : JsonDict
  timeout_pos : 0 < timeoutMs

/-- `ConnectionConfig.__post_init__` -/
def ConnectionConfig.init (id protocol endpoint : String) (enabled : Bool) (timeoutMs : ℤ)
    (protocolOptions : JsonDict) : Except PyError ConnectionConfig := do
  let id ← setStripped "id" id
  let protocol ← setStripped "protocol" protocol
  let endpoint ← setStripped "endpoint" endpoint
  let ⟨timeoutMs, timeout_pos⟩ ← requirePositiveInt timeoutMs "timeout_ms"
  return { id, protocol, endpoint, enabled, timeoutMs, protocolOptions, timeout_pos }

structure TagGroupConfig where
  id : Stripped
  connectionId : Stripped
  intervalMs : ℕ
  timeoutMs : ℕ
  overlapPolicy : OverlapPolicy
  enabled : Bool
  interval_pos : 0 < intervalMs
  timeout_pos : 0 < timeoutMs
  deriving DecidableEq

/-- `TagGroupConfig.__post_init__` -/
def TagGroupConfig.init (id connectionId : String) (intervalMs timeoutMs : ℤ)
    (overlapPolicy : OverlapPolicy) (enabled : Bool) : Except PyError TagGroupConfig := do
  let id ← setStripped "id" id
  let connectionId ← setStripped "connection_id" connectionId
  let ⟨intervalMs, interval_pos⟩ ← requirePositiveInt intervalMs "interval_ms"
  let ⟨timeoutMs, timeout_pos⟩ ← requirePositiveInt timeoutMs "timeout_ms"
  return { id, connectionId, intervalMs, timeoutMs, overlapPolicy, enabled, interval_pos, timeout_pos }

structure TagConfig where
  id : Stripped
  tagGroupId : Stripped
  name : Stripped
  address : Stripped
  valueType : ValueType
  enabled : Bool
  metadata : JsonDict

/-- `TagConfig.__post_init__` -/
def TagConfig.init (id tagGroupId name address : String) (valueType : ValueType) (enabled : Bool)
    (metadata : JsonDict) : Except PyError TagConfig := do
  let id ← setStripped "id" id
  let tagGroupId ← setStripped "tag_group_id" tagGroupId
  let name ← setStripped "name" name
  let address ← setStripped "address" address
  return { id, tagGroupId, name, address, valueType, enabled, metadata }

structure TagRequest where
  tagId : Stripped
  address : Stripped
  valueType : ValueType
  timeoutMs : Option ℕ
  timeout_pos : ∀ t ∈ timeoutMs, 0 < t

/-! ## What the constructors accept -/

section
open Fallible

theorem setStripped_eq_ok_iff {fieldName value : String} {a : Stripped} :
    setStripped fieldName value = .ok a ↔ a.text = strip value := by
  rw [setStripped, ← Stripped.ofText_eq_some_iff]
  cases Stripped.ofText value with
  | none =>
    constructor
    · intro h
      cases h
    · intro h
      cases h
  | some b => exact ⟨fun h => congrArg some (Except.ok.inj h), fun h => congrArg _ (Option.some.inj h)⟩

theorem requirePositiveInt_eq_ok_iff {value : ℤ} {fieldName : String} {n : {n : ℕ // 0 < n}} :
    requirePositiveInt value fieldName = .ok n ↔ (n.1 : ℤ) = value := by
  obtain ⟨n, hn⟩ := n
  unfold requirePositiveInt
  split_ifs with h
  · rw [Except.ok.injEq, Subtype.mk.injEq]
    show value.toNat = n ↔ (n : ℤ) = value
    omega
  · refine iff_of_false nofun ?_
    rintro rfl
    exact h (Int.natCast_pos.2 hn)

theorem ConnectionConfig.init_eq_ok_iff {id protocol endpoint : String} {enabled : Bool}
    {timeoutMs : ℤ} {protocolOptions : JsonDict} {c : ConnectionConfig} :
    init id protocol endpoint enabled timeoutMs protocolOptions = .ok c ↔
      c.id.text = strip id ∧ c.protocol.text = strip protocol ∧ c.endpoint.text = strip endpoint ∧
        c.enabled = enabled ∧ (c.timeoutMs : ℤ) = timeoutMs ∧ c.protocolOptions = protocolOptions := by
  simp only [init, bind_eq_ok_iff, setStripped_eq_ok_iff, requirePositiveInt_eq_ok_iff,
    pure_eq_ok_iff]
  constructor
  · rintro ⟨_, hid, _, hprotocol, _, hendpoint, ⟨_, _⟩, htimeout, rfl⟩
    exact ⟨hid, hprotocol, hendpoint, rfl, htimeout, rfl⟩
  · rintro ⟨hid, hprotocol, hendpoint, rfl, htimeout, rfl⟩
    exact ⟨_, hid, _, hprotocol, _, hendpoint, ⟨_, c.timeout_pos⟩, htimeout, rfl⟩

theorem TagGroupConfig.init_eq_ok_iff {id connectionId : String} {intervalMs timeoutMs : ℤ}
    {overlapPolicy : OverlapPolicy} {enabled : Bool} {g : TagGroupConfig} :
    init id connectionId intervalMs timeoutMs overlapPolicy enabled = .ok g ↔
      g.id.text = strip id ∧ g.connectionId.text = strip connectionId ∧
        (g.intervalMs : ℤ) = intervalMs ∧ (g.timeoutMs : ℤ) = timeoutMs ∧
        g.overlapPolicy = overlapPolicy ∧ g.enabled = enabled := by
  simp only [init, bind_eq_ok_iff, setStripped_eq_ok_iff, requirePositiveInt_eq_ok_iff,
    pure_eq_ok_iff]
  constructor
  · rintro ⟨_, hid, _, hconnection, ⟨_, _⟩, hinterval, ⟨_, _⟩, htimeout, rfl⟩
    exact ⟨hid, hconnection, hinterval, htimeout, trivial, rfl⟩
  · rintro ⟨hid, hconnection, hinterval, htimeout, -, rfl⟩
    exact ⟨_, hid, _, hconnection, ⟨_, g.interval_pos⟩, hinterval, ⟨_, g.timeout_pos⟩, htimeout, rfl⟩

theorem TagConfig.init_eq_ok_iff {id tagGroupId name address : String} {valueType : ValueType}
    {enabled : Bool} {metadata : JsonDict} {t : TagConfig} :
    init id tagGroupId name address valueType enabled metadata = .ok t ↔
      t.id.text = strip id ∧ t.tagGroupId.text = strip tagGroupId ∧ t.name.text = strip name ∧
        t.address.text = strip address ∧ t.valueType = valueType ∧ t.enabled = enabled ∧
        t.metadata = metadata := by
  simp only [init, bind_eq_ok_iff, setStripped_eq_ok_iff, pure_eq_ok_iff]
  constructor
  · rintro ⟨_, hid, _, hgroup, _, hname, _, haddress, rfl⟩
    exact ⟨hid, hgroup, hname, haddress, rfl, rfl, rfl⟩
  · rintro ⟨hid, hgroup, hname, haddress, rfl, rfl, rfl⟩
    exact ⟨_, hid, _, hgroup, _, hname, _, haddress, rfl⟩

end

/-- The group of the tests. -/
def fastGroupConfig : TagGroupConfig :=
  ⟨fastGroup, mockConnection, 1000, 500, .skip, true, by decide, by decide⟩

end PlcGateway
