/-
  Loading and validation of the configuration (`app/config.py`).

  `Builtins` and `Pydantic` are what the loader uses of Python and of pydantic: the
  functions on texts that depend on Unicode tables, and the coercions of field values.
  The models, their defaults and bounds, the overrides and the reference checks are
  those of the source.
-/
import PlcGateway.App.Texts
import PlcGateway.Domain.Configuration
import PlcGateway.Library.Fallible

namespace PlcGateway

/-- `GatewayConfig` -/
structure GatewayConfig where
  connections : List ConnectionConfig
  tagGroups : List TagGroupConfig
  tags : List TagConfig

/-! ## What pydantic does -/

/-- The first error of a `ValidationError`: where it is, and its message. -/
structure ValidationError where
  loc : List String
  msg : String
  deriving DecidableEq, Repr

/-- The error of a part of a value. -/
def ValidationError.within (part : String) (e : ValidationError) : ValidationError :=
  { e with loc := part :: e.loc }

/-- The coercions of pydantic to the types of the fields, with the message if there is no
    value.  Texts are stripped, as `str_strip_whitespace` says. -/
structure Pydantic where
  str (minLength : ℕ) : Json → Except String String
  int (gt : ℤ) : Json → Except String ℤ
  bool : Json → Except String Bool
  overlapPolicy : Json → Except String OverlapPolicy
  valueType : Json → Except String ValueType
  dict : Json → Except String JsonDict
  list (minLength : ℕ) : Json → Except String (List Json)
  model : Json → Except String JsonDict
  missing : String
  extraForbidden : String

/-- What the loader relies on. -/
structure Pydantic.Lawful (p : Pydantic) : Prop where
  str_iff : ∀ n value s, p.str n value = .ok s ↔ ∃ t, value = .str t ∧ s = trim t ∧ n ≤ s.length
  int_iff : ∀ gt n m, p.int gt (.int n) = .ok m ↔ gt < n ∧ m = n
  bool_bool : ∀ b, p.bool (.bool b) = .ok b
  list_iff : ∀ n value items, p.list n value = .ok items ↔ value = .list items ∧ n ≤ items.length
  model_iff : ∀ value fields, p.model value = .ok fields ↔ value = .dict fields

/-- Coercions that accept values of the very types. -/
def strictPydantic : Pydantic where
  str minLength value := match value with
    | .str s =>
      if minLength ≤ (trim s).length then .ok (trim s)
      else .error s!"String should have at least {minLength} character"
    | _ => .error "Input should be a valid string"
  int gt value := match value with
    | .int n => if gt < n then .ok n else .error s!"Input should be greater than {gt}"
    | _ => .error "Input should be a valid integer"
  bool value := match value with
    | .bool b => .ok b
    | _ => .error "Input should be a valid boolean"
  overlapPolicy value := match value with
    | .str "skip" => .ok .skip
    | _ => .error "Input should be 'skip'"
  valueType value := match value with
    | .str s => (ValueType.ofValue s).mapError PyError.message
    | _ => .error "Input should be a value type"
  dict value := match value with
    | .dict fields => .ok fields
    | _ => .error "Input should be a valid dictionary"
  list minLength value := match value with
    | .list items =>
      if minLength ≤ items.length then .ok items
      else .error s!"List should have at least {minLength} item"
    | _ => .error "Input should be a valid list"
  model value := match value with
    | .dict fields => .ok fields
    | _ => .error "Input should be a valid dictionary"
  missing := "Field required"
  extraForbidden := "Extra inputs are not permitted"

theorem strictPydantic_lawful : strictPydantic.Lawful where
  str_iff n value s := by
    cases value with
    | str t =>
      simp only [strictPydantic, Json.str.injEq]
      split_ifs with hlen
      · constructor
        · rintro ⟨⟩
          exact ⟨t, rfl, rfl, hlen⟩
        · rintro ⟨_, rfl, rfl, -⟩
          rfl
      · refine iff_of_false nofun ?_
        rintro ⟨_, rfl, rfl, h⟩
        exact hlen h
    | null | bool | int | float | list | dict =>
      refine iff_of_false nofun ?_
      rintro ⟨_, ⟨⟩, -⟩
  int_iff gt n m := by
    simp only [strictPydantic]
    split_ifs with hgt
    · rw [Except.ok.injEq]
      exact ⟨fun h => ⟨hgt, h.symm⟩, fun h => h.2.symm⟩
    · exact iff_of_false nofun fun h => hgt h.1
  bool_bool _ := rfl
  list_iff n value items := by
    cases value with
    | list xs =>
      simp only [strictPydantic, Json.list.injEq]
      split_ifs with hlen
      · rw [Except.ok.injEq]
        exact ⟨fun h => ⟨h, h ▸ hlen⟩, And.left⟩
      · exact iff_of_false nofun fun h => hlen (h.1 ▸ h.2)
    | null | bool | int | float | str | dict => exact iff_of_false nofun fun h => nomatch h.1
  model_iff value fields := by
    cases value with
    | dict xs => rw [strictPydantic, Except.ok.injEq, Json.dict.injEq]
    | null | bool | int | float | str | list => exact iff_of_false nofun nofun

section
variable {α : Type} (p : Pydantic)

/-- The value of a field without a default. -/
def requiredField (read : Json → Except String α) (fields : JsonDict) (name : String) :
    Except ValidationError α :=
  match fields.lookup name with
  | none => .error ⟨[name], p.missing⟩
  | some value => (read value).mapError fun msg => ⟨[name], msg⟩

/-- The value of a field with a default. -/
def optionalField (default : α) (read : Json → Except String α) (fields : JsonDict)
    (name : String) : Except ValidationError α :=
  match fields.lookup name with
  | none => .ok default
  | some value => (read value).mapError fun msg => ⟨[name], msg⟩

/-- `extra="forbid"` -/
def forbidExtra (names : List String) (fields : JsonDict) : Except ValidationError Unit :=
  match fields.find? fun field => !names.contains field.1 with
  | none => .ok ()
  | some field => .error ⟨[field.1], p.extraForbidden⟩

/-- The items of a list field; an error names the index. -/
def validateItems (validate : Json → Except ValidationError α) :
    ℕ → List Json → Except ValidationError (List α)
  | _, [] => return []
  | index, item :: items => do
    let a ← (validate item).mapError (·.within (toString index))
    let as ← validateItems validate (index + 1) items
    return a :: as

/-- A field with a list of models. -/
def modelsField (validate : Json → Except ValidationError α) (fields : JsonDict) (name : String) :
    Except ValidationError (List α) := do
  let items ← requiredField p (p.list 1) fields name
  (validateItems validate 0 items).mapError (·.within name)

end

/-! ## The input models -/

structure ConnectionConfigModel where
  id : String
  protocol : String
  endpoint : String
  enabled : Bool
  timeoutMs : ℤ
  protocolOptions : JsonDict

structure TagGroupConfigModel where
  id : String
  connectionId : String
  intervalMs : ℤ
  timeoutMs : ℤ
  overlapPolicy : OverlapPolicy
  enabled : Bool

structure TagConfigModel where
  id : String
  tagGroupId : String
  name : String
  address : String
  valueType : ValueType
  enabled : Bool
  metadata : JsonDict

structure GatewayConfigModel where
  connections : List ConnectionConfigModel
  tagGroups : List TagGroupConfigModel
  tags : List TagConfigModel

section
variable (p : Pydantic)

/-- The fields of a nested model. -/
def modelFields (value : Json) : Except ValidationError JsonDict :=
  (p.model value).mapError fun msg => ⟨[], msg⟩

def ConnectionConfigModel.validate (value : Json) : Except ValidationError ConnectionConfigModel := do
  let fields ← modelFields p value
  let id ← requiredField p (p.str 1) fields "id"
  let protocol ← requiredField p (p.str 1) fields "protocol"
  let endpoint ← requiredField p (p.str 1) fields "endpoint"
  let enabled ← optionalField true p.bool fields "enabled"
  let timeoutMs ← optionalField 3000 (p.int 0) fields "timeout_ms"
  let protocolOptions ← optionalField [] p.dict fields "protocol_options"
  forbidExtra p ["id", "protocol", "endpoint", "enabled", "timeout_ms", "protocol_options"] fields
  return { id, protocol, endpoint, enabled, timeoutMs, protocolOptions }

def TagGroupConfigModel.validate (value : Json) : Except ValidationError TagGroupConfigModel := do
  let fields ← modelFields p value
  let id ← requiredField p (p.str 1) fields "id"
  let connectionId ← requiredField p (p.str 1) fields "connection_id"
  let intervalMs ← requiredField p (p.int 0) fields "interval_ms"
  let timeoutMs ← optionalField 3000 (p.int 0) fields "timeout_ms"
  let overlapPolicy ← optionalField .skip p.overlapPolicy fields "overlap_policy"
  let enabled ← optionalField true p.bool fields "enabled"
  forbidExtra p ["id", "connection_id", "interval_ms", "timeout_ms", "overlap_policy", "enabled"]
    fields
  return { id, connectionId, intervalMs, timeoutMs, overlapPolicy, enabled }

def TagConfigModel.validate (value : Json) : Except ValidationError TagConfigModel := do
  let fields ← modelFields p value
  let id ← requiredField p (p.str 1) fields "id"
  let tagGroupId ← requiredField p (p.str 1) fields "tag_group_id"
  let name ← requiredField p (p.str 1) fields "name"
  let address ← requiredField p (p.str 1) fields "address"
  let valueType ← requiredField p p.valueType fields "value_type"
  let enabled ← optionalField true p.bool fields "enabled"
  let metadata ← optionalField [] p.dict fields "metadata"
  forbidExtra p ["id", "tag_group_id", "name", "address", "value_type", "enabled", "metadata"] fields
  return { id, tagGroupId, name, address, valueType, enabled, metadata }

def GatewayConfigModel.validate (fields : JsonDict) : Except ValidationError GatewayConfigModel := do
  let connections ← modelsField p (ConnectionConfigModel.validate p) fields "connections"
  let tagGroups ← modelsField p (TagGroupConfigModel.validate p) fields "tag_groups"
  let tags ← modelsField p (TagConfigModel.validate p) fields "tags"
  forbidExtra p ["connections", "tag_groups", "tags"] fields
  return { connections, tagGroups, tags }

end

/-! ## References -/

/-- A `ConfigurationError` with a code. -/
def configurationError (code message : String) : PyError :=
  { PyError.configuration message with code := .text code }

/-- `_reference_error` -/
def referenceError (location message : String) : PyError :=
  configurationError "invalid_configuration_reference"
    s!"Invalid configuration at {location}: {message}."

/-- The loop of `_unique_ids`. -/
def uniqueIdsFrom (place : String) : List String → ℕ → List String → Except PyError (List String)
  | seen, _, [] => return seen
  | seen, index, id :: ids =>
    if id ∈ seen then throw (referenceError s!"{place}[{index}].id" s!"duplicate id '{id}'")
    else uniqueIdsFrom place (seen ++ [id]) (index + 1) ids

/-- `_unique_ids` -/
def uniqueIds (place : String) (ids : List String) : Except PyError (List String) :=
  uniqueIdsFrom place [] 0 ids

/-- A loop over references: each of them is among the known ids. -/
def requireReferences (place field what : String) (known : List String) :
    ℕ → List String → Except PyError Unit
  | _, [] => return ()
  | index, reference :: references =>
    if reference ∈ known then requireReferences place field what known (index + 1) references
    else throw (referenceError s!"{place}[{index}].{field}"
      s!"references unknown {what} '{reference}'")

/-- `GatewayConfigModel.validate_references` -/
def GatewayConfigModel.validateReferences (m : GatewayConfigModel) : Except PyError Unit := do
  let connectionIds ← uniqueIds "connections" (m.connections.map (·.id))
  let groupIds ← uniqueIds "tag_groups" (m.tagGroups.map (·.id))
  let _ ← uniqueIds "tags" (m.tags.map (·.id))
  requireReferences "tag_groups" "connection_id" "connection" connectionIds 0
    (m.tagGroups.map (·.connectionId))
  requireReferences "tags" "tag_group_id" "tag group" groupIds 0 (m.tags.map (·.tagGroupId))

/-! ## Mapping to the domain -/

def ConnectionConfigModel.toDomain (m : ConnectionConfigModel) : Except PyError ConnectionConfig :=
  ConnectionConfig.init m.id m.protocol m.endpoint m.enabled m.timeoutMs m.protocolOptions

def TagGroupConfigModel.toDomain (m : TagGroupConfigModel) : Except PyError TagGroupConfig :=
  TagGroupConfig.init m.id m.connectionId m.intervalMs m.timeoutMs m.overlapPolicy m.enabled

def TagConfigModel.toDomain (m : TagConfigModel) : Except PyError TagConfig :=
  TagConfig.init m.id m.tagGroupId m.name m.address m.valueType m.enabled m.metadata

/-- `GatewayConfigModel.to_domain` -/
def GatewayConfigModel.toDomain (m : GatewayConfigModel) : Except PyError GatewayConfig :=
  Except.mapError
    (fun e => configurationError "invalid_configuration" s!"Invalid configuration: {e.message}") do
    let connections ← m.connections.mapM (·.toDomain)
    let tagGroups ← m.tagGroups.mapM (·.toDomain)
    let tags ← m.tags.mapM (·.toDomain)
    return { connections, tagGroups, tags }

/-! ## Acceptance -/

section
variable {α : Type} {p : Pydantic}

open Fallible

theorem validateItems_eq_ok_iff {validate : Json → Except ValidationError α} {index : ℕ}
    {items : List Json} {as : List α} :
    validateItems validate index items = .ok as ↔
      List.Forall₂ (fun item a => validate item = .ok a) items as := by
  induction items generalizing index as with
  | nil =>
    rw [validateItems, pure_eq_ok_iff, List.forall₂_nil_left_iff]
    exact eq_comm
  | cons item items ih =>
    rw [validateItems, bind_eq_ok_iff, List.forall₂_cons_left_iff]
    constructor
    · rintro ⟨a, ha, h⟩
      obtain ⟨as', has, h⟩ := bind_eq_ok_iff.1 h
      exact ⟨a, as', mapError_eq_ok_iff.1 ha, ih.1 has, (pure_eq_ok_iff.1 h).symm⟩
    · rintro ⟨a, as', ha, has, rfl⟩
      exact ⟨a, mapError_eq_ok_iff.2 ha, bind_eq_ok_iff.2 ⟨as', ih.2 has, rfl⟩⟩

theorem requiredField_eq_ok_iff {read : Json → Except String α} {fields : JsonDict} {name : String}
    {a : α} :
    requiredField p read fields name = .ok a ↔
      ∃ value, fields.lookup name = some value ∧ read value = .ok a := by
  rw [requiredField]
  cases fields.lookup name with
  | none => exact iff_of_false nofun nofun
  | some value =>
    rw [mapError_eq_ok_iff]
    exact ⟨fun h => ⟨value, rfl, h⟩, fun ⟨_, hv, h⟩ => Option.some.inj hv ▸ h⟩

theorem modelsField_eq_ok_iff {validate : Json → Except ValidationError α} {fields : JsonDict}
    {name : String} {as : List α} :
    modelsField p validate fields name = .ok as ↔
      ∃ value items, fields.lookup name = some value ∧ p.list 1 value = .ok items ∧
        List.Forall₂ (fun item a => validate item = .ok a) items as := by
  rw [modelsField, bind_eq_ok_iff]
  constructor
  · rintro ⟨items, hitems, h⟩
    obtain ⟨value, hvalue, hlist⟩ := requiredField_eq_ok_iff.1 hitems
    exact ⟨value, items, hvalue, hlist, validateItems_eq_ok_iff.1 (mapError_eq_ok_iff.1 h)⟩
  · rintro ⟨value, items, hvalue, hlist, h⟩
    exact ⟨items, requiredField_eq_ok_iff.2 ⟨value, hvalue, hlist⟩,
      mapError_eq_ok_iff.2 (validateItems_eq_ok_iff.2 h)⟩

theorem ConnectionConfigModel.validate_eq_ok_iff {value : Json} {m : ConnectionConfigModel} :
    validate p value = .ok m ↔ ∃ fields, p.model value = .ok fields ∧
      requiredField p (p.str 1) fields "id" = .ok m.id ∧
      requiredField p (p.str 1) fields "protocol" = .ok m.protocol ∧
      requiredField p (p.str 1) fields "endpoint" = .ok m.endpoint ∧
      optionalField true p.bool fields "enabled" = .ok m.enabled ∧
      optionalField 3000 (p.int 0) fields "timeout_ms" = .ok m.timeoutMs ∧
      optionalField [] p.dict fields "protocol_options" = .ok m.protocolOptions ∧
      forbidExtra p ["id", "protocol", "endpoint", "enabled", "timeout_ms", "protocol_options"]
        fields = .ok () := by
  simp only [validate, modelFields, bind_eq_ok_iff, mapError_eq_ok_iff, pure_eq_ok_iff]
  constructor
  · rintro ⟨fields, hfields, _, hid, _, hprotocol, _, hendpoint, _, henabled, _, htimeout, _, hoptions,
      _, hextra, rfl⟩
    exact ⟨fields, hfields, hid, hprotocol, hendpoint, henabled, htimeout, hoptions, hextra⟩
  · rintro ⟨fields, hfields, hid, hprotocol, hendpoint, henabled, htimeout, hoptions, hextra⟩
    exact ⟨fields, hfields, _, hid, _, hprotocol, _, hendpoint, _, henabled, _, htimeout, _, hoptions,
      _, hextra, rfl⟩

theorem GatewayConfigModel.validate_eq_ok_iff {fields : JsonDict} {m : GatewayConfigModel} :
    validate p fields = .ok m ↔
      modelsField p (ConnectionConfigModel.validate p) fields "connections" = .ok m.connections ∧
      modelsField p (TagGroupConfigModel.validate p) fields "tag_groups" = .ok m.tagGroups ∧
      modelsField p (TagConfigModel.validate p) fields "tags" = .ok m.tags ∧
      forbidExtra p ["connections", "tag_groups", "tags"] fields = .ok () := by
  simp only [validate, bind_eq_ok_iff, pure_eq_ok_iff]
  constructor
  · rintro ⟨_, hconnections, _, hgroups, _, htags, _, hextra, rfl⟩
    exact ⟨hconnections, hgroups, htags, hextra⟩
  · rintro ⟨hconnections, hgroups, htags, hextra⟩
    exact ⟨_, hconnections, _, hgroups, _, htags, _, hextra, rfl⟩

theorem GatewayConfigModel.toDomain_eq_ok_iff {m : GatewayConfigModel} {config : GatewayConfig} :
    m.toDomain = .ok config ↔
      List.Forall₂ (fun m c => m.toDomain = .ok c) m.connections config.connections ∧
      List.Forall₂ (fun m g => m.toDomain = .ok g) m.tagGroups config.tagGroups ∧
      List.Forall₂ (fun m t => m.toDomain = .ok t) m.tags config.tags := by
  simp only [toDomain, mapError_eq_ok_iff, bind_eq_ok_iff, mapM_eq_ok_iff, pure_eq_ok_iff]
  constructor
  · rintro ⟨_, hconnections, _, hgroups, _, htags, rfl⟩
    exact ⟨hconnections, hgroups, htags⟩
  · rintro ⟨hconnections, hgroups, htags⟩
    exact ⟨_, hconnections, _, hgroups, _, htags, rfl⟩

/-! ## References that hold -/

theorem uniqueIdsFrom_eq_ok_iff {place : String} {seen ids known : List String} {index : ℕ} :
    uniqueIdsFrom place seen index ids = .ok known ↔
      known = seen ++ ids ∧ ids.Nodup ∧ ∀ id ∈ ids, id ∉ seen := by
  induction ids generalizing seen index with
  | nil =>
    rw [uniqueIdsFrom, pure_eq_ok_iff, List.append_nil]
    exact ⟨fun h => ⟨h.symm, List.nodup_nil, nofun⟩, fun h => h.1.symm⟩
  | cons id ids ih =>
    rw [uniqueIdsFrom]
    split_ifs with hseen
    · exact iff_of_false nofun fun h => h.2.2 id List.mem_cons_self hseen
    · rw [ih, List.append_assoc, List.singleton_append, List.nodup_cons, List.forall_mem_cons]
      simp only [List.mem_append, List.mem_singleton, not_or]
      constructor
      · rintro ⟨rfl, hnodup, hnew⟩
        exact ⟨rfl, ⟨fun hid => (hnew id hid).2 rfl, hnodup⟩, hseen, fun x hx => (hnew x hx).1⟩
      · rintro ⟨rfl, ⟨hid, hnodup⟩, -, hnew⟩
        refine ⟨rfl, hnodup, fun x hx => ⟨hnew x hx, ?_⟩⟩
        rintro rfl
        exact hid hx

theorem uniqueIds_eq_ok_iff {place : String} {ids known : List String} :
    uniqueIds place ids = .ok known ↔ known = ids ∧ ids.Nodup := by
  rw [uniqueIds, uniqueIdsFrom_eq_ok_iff, List.nil_append]
  exact and_congr_right fun _ => ⟨And.left, fun h => ⟨h, fun _ _ => List.not_mem_nil⟩⟩

theorem requireReferences_eq_ok_iff {place field what : String} {known references : List String}
    {index : ℕ} :
    requireReferences place field what known index references = .ok () ↔
      ∀ reference ∈ references, reference ∈ known := by
  induction references generalizing index with
  | nil => exact iff_of_true rfl nofun
  | cons reference references ih =>
    rw [requireReferences, List.forall_mem_cons]
    split_ifs with hknown
    · rw [ih]
      exact ⟨fun h => ⟨hknown, h⟩, And.right⟩
    · exact iff_of_false nofun fun h => hknown h.1

theorem GatewayConfigModel.validateReferences_eq_ok_iff {m : GatewayConfigModel} :
    m.validateReferences = .ok () ↔
      (m.connections.map (·.id)).Nodup ∧ (m.tagGroups.map (·.id)).Nodup ∧
      (m.tags.map (·.id)).Nodup ∧
      (∀ g ∈ m.tagGroups, g.connectionId ∈ m.connections.map (·.id)) ∧
      ∀ t ∈ m.tags, t.tagGroupId ∈ m.tagGroups.map (·.id) := by
  simp only [validateReferences, bind_eq_ok_iff, uniqueIds_eq_ok_iff, requireReferences_eq_ok_iff,
    List.forall_mem_map]
  constructor
  · rintro ⟨_, ⟨rfl, hconnections⟩, _, ⟨rfl, hgroups⟩, _, ⟨rfl, htags⟩, ⟨⟩, hgroup, htag⟩
    rw [requireReferences_eq_ok_iff, List.forall_mem_map] at hgroup
    exact ⟨hconnections, hgroups, htags, hgroup, htag⟩
  · rintro ⟨hconnections, hgroups, htags, hgroup, htag⟩
    rw [← List.forall_mem_map (P := fun i => i ∈ m.connections.map (·.id)),
      ← requireReferences_eq_ok_iff] at hgroup
    exact ⟨_, ⟨rfl, hconnections⟩, _, ⟨rfl, hgroups⟩, _, ⟨rfl, htags⟩, (), hgroup, htag⟩

end

end PlcGateway
