/-
  Loading of the configuration file, with the overrides of the environment
  (`app/config.py`).

  `load_eq_ok_iff` says when a file and an environment are accepted, and what is
  loaded from them: every variable is well formed (`decodeOverride`), every entry is
  valid, and the references hold.
-/
import PlcGateway.App.Config

namespace PlcGateway

open Fallible

/-- The functions on texts that depend on Unicode tables, `int` and `str`. -/
structure Builtins extends CaseMapping where
  int : String → Option ℤ
  str : Json → String
  str_str : ∀ s, str (.str s) = s

/-- On ASCII texts. -/
def asciiBuiltins : Builtins :=
  { asciiCase with
    int := String.toInt?
    str := fun value => match value with
      | .str s => s
      | _ => ""
    str_str := fun _ => rfl }

/-! ## Reading -/

/-- What is at the path of the configuration file. -/
inductive FileContent where
  | missing
  | invalidJson (lineno colno : ℕ) (msg : String)
  | json (loaded : Json)

structure ConfigFile where
  path : String
  suffix : String
  content : FileContent

/-- `_read_json_object` -/
def readJsonObject (b : Builtins) (file : ConfigFile) : Except PyError JsonDict :=
  if b.lower file.suffix ≠ ".json" then
    throw (configurationError "unsupported_configuration_format"
      s!"Unsupported configuration format at {file.path}: expected .json.")
  else match file.content with
    | .missing =>
      throw (configurationError "configuration_not_found"
        s!"Configuration file not found at {file.path}.")
    | .invalidJson lineno colno msg =>
      throw (configurationError "invalid_configuration_json"
        s!"Invalid JSON at line {lineno}, column {colno}: {msg}.")
    | .json (.dict fields) => return fields
    | .json _ =>
      throw (configurationError "invalid_configuration_shape"
        s!"Configuration root at {file.path} must be a JSON object.")

/-! ## Overrides -/

/-- The fields that a variable can override. -/
inductive OverrideField where
  | endpoint
  | enabled
  | timeoutMs
  deriving DecidableEq, Repr

def OverrideField.name : OverrideField → String
  | endpoint => "endpoint"
  | enabled => "enabled"
  | timeoutMs => "timeout_ms"

def OverrideField.ofName (name : String) : Option OverrideField :=
  if name = "endpoint" then some .endpoint
  else if name = "enabled" then some .enabled
  else if name = "timeout_ms" then some .timeoutMs
  else none

/-- `payload[key] = value` -/
def JsonDict.set (key : String) (value : Json) : JsonDict → JsonDict
  | [] => [(key, value)]
  | field :: fields =>
    if field.1 = key then (key, value) :: fields else field :: JsonDict.set key value fields

/-- `ENV_PREFIX` -/
def envPrefix : String := "PLC_GATEWAY_"

/-- A variable of the environment. -/
abbrev Variable := String × String

section
variable (b : Builtins)

/-- The key of a connection in `by_id`. -/
def connectionKey : Json → Option String
  | .dict fields => match fields.lookup "id" with
    | none | some .null => none
    | some id => some (b.upper (b.str id))
  | _ => none

/-- `by_id.get`: the index of the last connection with the key. -/
def byId (key : String) : List Json → Option ℕ
  | [] => none
  | connection :: connections => match byId key connections with
    | some i => some (i + 1)
    | none => if connectionKey b connection = some key then some 0 else none

/-- `_coerce_override_value` -/
def coerceOverrideValue (field : OverrideField) (value : String) : Except PyError Json :=
  match field with
  | .enabled =>
    let normalized := b.lower (strip value)
    if normalized ∈ ["1", "true", "yes", "on"] then return .bool true
    else if normalized ∈ ["0", "false", "no", "off"] then return .bool false
    else throw (configurationError "invalid_environment_override"
      s!"Invalid boolean environment override for {field.name}: '{value}'.")
  | .timeoutMs => match b.int value with
    | some n => return .int n
    | none => throw (configurationError "invalid_environment_override"
      s!"Invalid integer environment override for {field.name}: '{value}'.")
  | .endpoint => return .str value

/-- What a variable assigns: the index of a connection, a field and a value. -/
structure Assignment where
  index : ℕ
  field : OverrideField
  value : Json

def overrideError (key reason : String) : PyError :=
  configurationError "invalid_environment_override" s!"Invalid environment override '{key}': {reason}."

/-- The loop body of `_apply_environment_overrides`, up to the assignment. -/
def decodeOverride (connections : List Json) : Variable → Except PyError (Option Assignment)
  | (key, value) =>
    if (envPrefix ++ "CONNECTIONS__").toList <+: key.toList then
      match (splitDunder (key.toList.drop envPrefix.toList.length)).map String.ofList with
      | [_, connectionId, fieldName] =>
        match byId b (b.upper connectionId) connections with
        | none => throw (overrideError key s!"unknown connection '{connectionId}'")
        | some index => match OverrideField.ofName (b.lower fieldName) with
          | none => throw (overrideError key s!"unsupported field '{fieldName}'")
          | some field => do
            let value ← coerceOverrideValue b field value
            return some { index, field, value }
      | _ => throw (overrideError key "expected PLC_GATEWAY_CONNECTIONS__<ID>__<FIELD>")
    else return none

/-- `connection[normalized_field] = value` -/
def Assignment.assign (a : Assignment) : Json → Json
  | .dict fields => .dict (JsonDict.set a.field.name a.value fields)
  | connection => connection

def Assignment.apply (a : Assignment) (connections : List Json) : List Json :=
  connections.modify a.index a.assign

/-- The loop of `_apply_environment_overrides`.  What a variable addresses depends on the
    connections of the file. -/
def overrideConnections (file : List Json) : List Variable → List Json → Except PyError (List Json)
  | [], connections => return connections
  | v :: environ, connections => do
    match ← decodeOverride b file v with
    | none => overrideConnections file environ connections
    | some a => overrideConnections file environ (a.apply connections)

/-- `_apply_environment_overrides` -/
def applyEnvironmentOverrides (rawConfig : JsonDict) (environ : List Variable) :
    Except PyError JsonDict :=
  match rawConfig.lookup "connections" with
  | some (.list connections) => do
    let connections ← overrideConnections b connections environ connections
    return JsonDict.set "connections" (.list connections) rawConfig
  | _ => return rawConfig

end

/-! ## Loading -/

/-- `_format_validation_error` -/
def formatValidationError (e : ValidationError) : String :=
  let joined := ".".intercalate e.loc
  let location := if joined = "" then "$" else joined
  s!"Invalid configuration at {location}: {e.msg}."

/-- `load_gateway_config` -/
def loadGatewayConfig (p : Pydantic) (b : Builtins) (file : ConfigFile) (environ : List Variable) :
    Except PyError GatewayConfig := do
  let rawConfig ← readJsonObject b file
  let rawConfig ← applyEnvironmentOverrides b rawConfig environ
  let model ← (GatewayConfigModel.validate p rawConfig).mapError fun e =>
    configurationError "invalid_configuration" (formatValidationError e)
  model.validateReferences
  model.toDomain

/-! ## What overrides change -/

namespace JsonDict

theorem lookup_set (d : JsonDict) (key : String) (value : Json) (key' : String) :
    (set key value d).lookup key' = if key' = key then some value else d.lookup key' := by
  induction d with
  | nil =>
    by_cases h : key' = key
    · simp [set, h]
    · simp [set, List.lookup_cons, h, beq_false_of_ne h]
  | cons field d ih =>
    obtain ⟨k, v⟩ := field
    by_cases hk : k = key
    · subst hk
      by_cases h : key' = k
      · simp [set, h]
      · simp [set, List.lookup_cons, h, beq_false_of_ne h]
    · rw [set, if_neg hk, List.lookup_cons, List.lookup_cons, ih]
      by_cases h : key' = key
      · rw [if_pos h, if_pos h, h, beq_eq_false_iff_ne.2 (Ne.symm hk)]
      · rw [if_neg h, if_neg h]

theorem lookup_set_ne {d : JsonDict} {key key' : String} (h : key' ≠ key) (value : Json) :
    (set key value d).lookup key' = d.lookup key' := by
  rw [lookup_set, if_neg h]

end JsonDict

/-- The id of an entry of a section, if it is a text. -/
def entryId : Json → Option String
  | .dict fields => match fields.lookup "id" with
    | some (.str id) => some id
    | _ => none
  | _ => none

theorem entryId_assign (a : Assignment) (connection : Json) :
    entryId (a.assign connection) = entryId connection := by
  cases connection with
  | dict fields =>
    have hid : "id" ≠ a.field.name := by cases a.field <;> decide
    simp only [Assignment.assign, entryId, JsonDict.lookup_set_ne hid]
  | null | bool | int | float | str | list => rfl

/-- The assignments to one connection. -/
def assignmentsTo (i : ℕ) (as : List Assignment) : List Assignment := as.filter (·.index = i)

theorem getElem_foldl_apply (as : List Assignment) (connections : List Json) (i : ℕ) :
    (as.foldl (fun cs a => a.apply cs) connections)[i]? =
      connections[i]?.map fun c => (assignmentsTo i as).foldl (fun c a => a.assign c) c := by
  induction as generalizing connections with
  | nil => exact Option.map_id'.symm
  | cons a as ih =>
    rw [List.foldl_cons, ih, Assignment.apply, List.getElem?_modify, Option.map_eq_map, Option.map_map,
      assignmentsTo, assignmentsTo, List.filter_cons]
    congr 1
    funext c
    by_cases h : a.index = i
    · simp only [Function.comp_apply, h, if_true, decide_true, List.foldl_cons]
    · simp only [Function.comp_apply, h, if_false, decide_false, Bool.false_eq_true]

theorem entryId_foldl (as : List Assignment) (connection : Json) :
    entryId (as.foldl (fun c a => a.assign c) connection) = entryId connection := by
  induction as generalizing connection with
  | nil => rfl
  | cons a as ih => rw [List.foldl_cons, ih, entryId_assign]

/-- No override changes an id. -/
theorem map_entryId_foldl_apply (as : List Assignment) (connections : List Json) :
    (as.foldl (fun cs a => a.apply cs) connections).map entryId = connections.map entryId := by
  refine List.ext_getElem? fun i => ?_
  rw [List.getElem?_map, List.getElem?_map, getElem_foldl_apply, Option.map_map]
  congr 1
  funext c
  exact entryId_foldl _ c

/-- **When all variables are accepted, and what they make of the connections.** -/
theorem overrideConnections_eq_ok_iff {b : Builtins} {file connections connections' : List Json}
    {environ : List Variable} :
    overrideConnections b file environ connections = .ok connections' ↔
      ∃ as, environ.mapM (decodeOverride b file) = .ok as ∧
        connections' = (as.filterMap id).foldl (fun cs a => a.apply cs) connections := by
  induction environ generalizing connections with
  | nil =>
    rw [overrideConnections, pure_eq_ok_iff, List.mapM_nil]
    constructor
    · rintro rfl
      exact ⟨[], rfl, rfl⟩
    · rintro ⟨as, has, rfl⟩
      cases has
      rfl
  | cons v environ ih =>
    rw [overrideConnections, bind_eq_ok_iff, List.mapM_cons]
    constructor
    · rintro ⟨a, ha, h⟩
      cases a with
      | none =>
        obtain ⟨as, has, rfl⟩ := ih.1 h
        exact ⟨none :: as, bind_eq_ok_iff.2 ⟨none, ha, bind_eq_ok_iff.2 ⟨as, has, rfl⟩⟩, rfl⟩
      | some a =>
        obtain ⟨as, has, rfl⟩ := ih.1 h
        exact ⟨some a :: as, bind_eq_ok_iff.2 ⟨some a, ha, bind_eq_ok_iff.2 ⟨as, has, rfl⟩⟩, rfl⟩
    · rintro ⟨as, has, rfl⟩
      obtain ⟨a, ha, has⟩ := bind_eq_ok_iff.1 has
      obtain ⟨as', has', has⟩ := bind_eq_ok_iff.1 has
      cases has
      refine ⟨a, ha, ?_⟩
      cases a with
      | none => exact ih.2 ⟨as', has', rfl⟩
      | some a => exact ih.2 ⟨as', has', rfl⟩

/-! ## Acceptance -/

theorem readJsonObject_eq_ok_iff {b : Builtins} {file : ConfigFile} {raw : JsonDict} :
    readJsonObject b file = .ok raw ↔
      b.lower file.suffix = ".json" ∧ file.content = .json (.dict raw) := by
  rw [readJsonObject]
  split_ifs with hsuffix
  · exact iff_of_false nofun fun h => hsuffix h.1
  · rw [not_not] at hsuffix
    rw [hsuffix, eq_self_iff_true, true_and]
    cases file.content with
    | missing => exact iff_of_false nofun nofun
    | invalidJson => exact iff_of_false nofun nofun
    | json loaded =>
      cases loaded with
      | dict fields =>
        rw [pure_eq_ok_iff, FileContent.json.injEq, Json.dict.injEq]
      | null | bool | int | float | str | list => exact iff_of_false nofun nofun

/-- The file after the overrides. -/
def overridden (raw : JsonDict) (connections : List Json) (as : List (Option Assignment)) : JsonDict :=
  JsonDict.set "connections"
    (.list ((as.filterMap id).foldl (fun cs a => a.apply cs) connections)) raw

/-- **When a file and an environment are accepted.** -/
theorem load_eq_ok_iff {p : Pydantic} (hp : p.Lawful) {b : Builtins} {file : ConfigFile}
    {environ : List Variable} {config : GatewayConfig} :
    loadGatewayConfig p b file environ = .ok config ↔
      ∃ raw connections as m, readJsonObject b file = .ok raw ∧
        raw.lookup "connections" = some (.list connections) ∧
        environ.mapM (decodeOverride b connections) = .ok as ∧
        GatewayConfigModel.validate p (overridden raw connections as) = .ok m ∧
        m.validateReferences = .ok () ∧ m.toDomain = .ok config := by
  simp only [loadGatewayConfig, bind_eq_ok_iff, mapError_eq_ok_iff]
  constructor
  · rintro ⟨raw, hraw, raw', hoverrides, m, hm, ⟨⟩, hreferences, hdomain⟩
    have hlist (value : Json) (items : List Json) (hvalue : raw'.lookup "connections" = some value)
        (hitems : p.list 1 value = .ok items) : ∃ connections, raw.lookup "connections" =
          some (.list connections) := by
      rw [applyEnvironmentOverrides] at hoverrides
      split at hoverrides
      · exact ⟨_, ‹_›⟩
      · rw [pure_eq_ok_iff] at hoverrides
        rw [hoverrides, hvalue, ((hp.list_iff _ _ _).1 hitems).1]
        exact ⟨items, rfl⟩
    obtain ⟨value, items, hvalue, hitems, -⟩ :=
      modelsField_eq_ok_iff.1 (GatewayConfigModel.validate_eq_ok_iff.1 hm).1
    obtain ⟨connections, hconnections⟩ := hlist value items hvalue hitems
    simp only [applyEnvironmentOverrides, hconnections, bind_eq_ok_iff, pure_eq_ok_iff] at hoverrides
    obtain ⟨connections', hoverride, rfl⟩ := hoverrides
    obtain ⟨as, has, rfl⟩ := overrideConnections_eq_ok_iff.1 hoverride
    exact ⟨raw, connections, as, m, hraw, hconnections, has, hm, hreferences, hdomain⟩
  · rintro ⟨raw, connections, as, m, hraw, hconnections, has, hm, hreferences, hdomain⟩
    refine ⟨raw, hraw, _, ?_, m, hm, (), hreferences, hdomain⟩
    simp only [applyEnvironmentOverrides, hconnections, bind_eq_ok_iff, pure_eq_ok_iff]
    exact ⟨_, overrideConnections_eq_ok_iff.2 ⟨as, has, rfl⟩, rfl⟩

/-! ## Files -/

/-- An entry of the connections. -/
def connectionEntry (id : String) : Json :=
  .dict [("id", .str id), ("protocol", .str "opcua"), ("endpoint", .str "opc.tcp://127.0.0.1:4840"),
    ("timeout_ms", .int 5000)]

/-- A file with these connections, and a group and a tag of the first one. -/
def exampleRaw (ids : List String) : JsonDict :=
  [("connections", .list (ids.map connectionEntry)),
    ("tag_groups", .list [.dict [("id", .str "fast"), ("connection_id", .str (ids.headD "")),
      ("interval_ms", .int 1000)]]),
    ("tags", .list [.dict [("id", .str "temperature"), ("tag_group_id", .str "fast"),
      ("name", .str "Temperature"), ("address", .str "ns=2;s=Machine.Temperature"),
      ("value_type", .str "numeric")]])]

def exampleFile (ids : List String) : ConfigFile :=
  ⟨"gateway.config.json", ".json", .json (.dict (exampleRaw ids))⟩

end PlcGateway
