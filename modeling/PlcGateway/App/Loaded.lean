/-
  What an accepted configuration is loaded from.

  Every connection is loaded from its entry after the overrides, field by field
  (`loadedFrom_iff`); the other sections are loaded from the file as it is
  (`load_eq_ok_iff_loaded`).
-/
import PlcGateway.App.References

namespace PlcGateway

open Fallible

/-! ## What a connection is loaded from -/

/-- A field of a connection, as a JSON value. -/
def ConnectionConfig.field (c : ConnectionConfig) : OverrideField → Json
  | .endpoint => .str c.endpoint.text
  | .enabled => .bool c.enabled
  | .timeoutMs => .int c.timeoutMs

/-- The value of a field that is loaded from an entry. -/
def FileValue (p : Pydantic) (entry : JsonDict) : OverrideField → Json → Prop
  | .endpoint, x => ∃ s, requiredField p (p.str 1) entry "endpoint" = .ok s ∧ x = .str (strip s)
  | .enabled, x => ∃ b, optionalField true p.bool entry "enabled" = .ok b ∧ x = .bool b
  | .timeoutMs, x => ∃ n, optionalField 3000 (p.int 0) entry "timeout_ms" = .ok n ∧ x = .int n

/-- The fields that no variable overrides are those of the entry. -/
structure KeepsEntry (p : Pydantic) (entry : JsonDict) (c : ConnectionConfig) : Prop where
  id : ∃ s, requiredField p (p.str 1) entry "id" = .ok s ∧ c.id.text = strip s
  protocol : ∃ s, requiredField p (p.str 1) entry "protocol" = .ok s ∧ c.protocol.text = strip s
  protocolOptions : optionalField [] p.dict entry "protocol_options" = .ok c.protocolOptions

/-- The keys of a connection. -/
def connectionKeys : List String :=
  ["id", "protocol", "endpoint", "enabled", "timeout_ms", "protocol_options"]

/-- The connection is loaded from the item. -/
def LoadedFrom (p : Pydantic) (item : Json) (c : ConnectionConfig) : Prop :=
  ∃ m, ConnectionConfigModel.validate p item = .ok m ∧ m.toDomain = .ok c

theorem loadedFrom_iff {p : Pydantic} (hp : p.Lawful) {item : Json} {c : ConnectionConfig} :
    LoadedFrom p item c ↔ ∃ entry, item = .dict entry ∧ KeepsEntry p entry c ∧
      (∀ f, FileValue p entry f (c.field f)) ∧ forbidExtra p connectionKeys entry = .ok () := by
  constructor
  · rintro ⟨m, hm, hc⟩
    obtain ⟨entry, hentry, hid, hprotocol, hendpoint, henabled, htimeout, hoptions, hextra⟩ :=
      ConnectionConfigModel.validate_eq_ok_iff.1 hm
    obtain ⟨cid, cprotocol, cendpoint, cenabled, ctimeout, coptions⟩ :=
      ConnectionConfig.init_eq_ok_iff.1 hc
    refine ⟨entry, (hp.model_iff _ _).1 hentry, ⟨⟨_, hid, cid⟩, ⟨_, hprotocol, cprotocol⟩, ?_⟩, ?_,
      hextra⟩
    · rw [coptions, hoptions]
    · rintro (_ | _ | _)
      · exact ⟨_, hendpoint, congrArg Json.str cendpoint⟩
      · exact ⟨_, henabled, congrArg Json.bool cenabled⟩
      · exact ⟨_, htimeout, congrArg Json.int ctimeout⟩
  · rintro ⟨entry, rfl, ⟨⟨id, hid, cid⟩, ⟨protocol, hprotocol, cprotocol⟩, hoptions⟩, hfields, hextra⟩
    obtain ⟨endpoint, hendpoint, cendpoint⟩ := hfields .endpoint
    obtain ⟨enabled, henabled, cenabled⟩ := hfields .enabled
    obtain ⟨timeout, htimeout, ctimeout⟩ := hfields .timeoutMs
    refine ⟨⟨id, protocol, endpoint, enabled, timeout, c.protocolOptions⟩,
      ConnectionConfigModel.validate_eq_ok_iff.2 ⟨entry, (hp.model_iff _ _).2 rfl, hid, hprotocol,
        hendpoint, henabled, htimeout, hoptions, hextra⟩, ConnectionConfig.init_eq_ok_iff.2 ?_⟩
    exact ⟨cid, cprotocol, Json.str.inj cendpoint, Json.bool.inj cenabled, Json.int.inj ctimeout, rfl⟩

/-! ## What is loaded from the other sections -/

/-- Ids are distinct, and references are among them. -/
def ReferencesHold (connectionIds : List String) (groups : List TagGroupConfigModel)
    (tags : List TagConfigModel) : Prop :=
  connectionIds.Nodup ∧ (groups.map (·.id)).Nodup ∧ (tags.map (·.id)).Nodup ∧
    (∀ g ∈ groups, g.connectionId ∈ connectionIds) ∧ ∀ t ∈ tags, t.tagGroupId ∈ groups.map (·.id)

/-- The configuration has the other sections of the file, and references hold. -/
def LoadedBeside (p : Pydantic) (raw : JsonDict) (connections : List Json) (config : GatewayConfig) :
    Prop :=
  1 ≤ connections.length ∧ forbidExtra p ["connections", "tag_groups", "tags"] raw = .ok () ∧
    ∃ groups tags, modelsField p (TagGroupConfigModel.validate p) raw "tag_groups" = .ok groups ∧
      modelsField p (TagConfigModel.validate p) raw "tags" = .ok tags ∧
      List.Forall₂ (fun m g => m.toDomain = .ok g) groups config.tagGroups ∧
      List.Forall₂ (fun m t => m.toDomain = .ok t) tags config.tags ∧
      ReferencesHold ((connections.filterMap entryId).map trim) groups tags

theorem forbidExtra_eq_ok_iff {p : Pydantic} {names : List String} {fields : JsonDict} :
    forbidExtra p names fields = .ok () ↔ ∀ key, (fields.lookup key).isSome → key ∈ names := by
  rw [forbidExtra]
  cases hfind : fields.find? fun field => !names.contains field.1 with
  | none =>
    refine iff_of_true rfl fun key hkey => ?_
    rw [List.lookup_isSome_iff] at hkey
    obtain ⟨field, hfield, hkey⟩ := hkey
    have hnames := List.find?_eq_none.1 hfind field hfield
    rw [beq_iff_eq] at hkey
    simpa [hkey] using hnames
  | some field =>
    refine iff_of_false nofun fun h => ?_
    have hfield := List.mem_of_find?_eq_some hfind
    have hnames := List.find?_some hfind
    have hkey := h field.1 (List.lookup_isSome_iff.2 ⟨field, hfield, beq_self_eq_true _⟩)
    simp [hkey] at hnames

theorem forbidExtra_congr {p : Pydantic} {names : List String} {fields fields' : JsonDict}
    (h : ∀ key, (fields.lookup key).isSome = (fields'.lookup key).isSome) :
    forbidExtra p names fields = .ok () ↔ forbidExtra p names fields' = .ok () := by
  simp only [forbidExtra_eq_ok_iff, h]

theorem modelsField_congr {α : Type} {p : Pydantic} {validate : Json → Except ValidationError α}
    {fields fields' : JsonDict} {name : String} (h : fields.lookup name = fields'.lookup name) :
    modelsField p validate fields name = modelsField p validate fields' name := by
  rw [modelsField, modelsField, requiredField, requiredField, h]

section
variable {raw : JsonDict} {connections : List Json} {as : List (Option Assignment)}

theorem lookup_overridden_ne {name : String} (hname : name ≠ "connections") :
    (overridden raw connections as).lookup name = raw.lookup name :=
  JsonDict.lookup_set_ne hname _

theorem isSome_lookup_overridden (hconnections : raw.lookup "connections" = some (.list connections))
    (key : String) :
    ((overridden raw connections as).lookup key).isSome = (raw.lookup key).isSome := by
  rw [overridden, JsonDict.lookup_set]
  split_ifs with hkey
  · rw [hkey, hconnections]
    rfl
  · rfl

theorem length_foldl_apply (as : List Assignment) (connections : List Json) :
    (as.foldl (fun cs a => a.apply cs) connections).length = connections.length := by
  induction as generalizing connections with
  | nil => rfl
  | cons a as ih => rw [List.foldl_cons, ih, Assignment.apply, List.length_modify]

end

/-- **What is loaded, section by section.** -/
theorem load_eq_ok_iff_loaded {p : Pydantic} (hp : p.Lawful) {b : Builtins} {file : ConfigFile}
    {environ : List Variable} {config : GatewayConfig} {raw : JsonDict} {connections : List Json}
    (hraw : file.content = .json (.dict raw))
    (hconnections : raw.lookup "connections" = some (.list connections)) :
    loadGatewayConfig p b file environ = .ok config ↔
      b.lower file.suffix = ".json" ∧ LoadedBeside p raw connections config ∧
        ∃ as, environ.mapM (decodeOverride b connections) = .ok as ∧
          List.Forall₂ (LoadedFrom p)
            ((as.filterMap id).foldl (fun cs a => a.apply cs) connections) config.connections := by
  rw [load_eq_ok_iff hp]
  constructor
  · rintro ⟨raw', connections', as, m, hread, hconnections', has, hm, hreferences, hdomain⟩
    obtain ⟨hsuffix, hcontent⟩ := readJsonObject_eq_ok_iff.1 hread
    cases hraw.symm.trans hcontent
    cases hconnections.symm.trans hconnections'
    obtain ⟨hids, -, -⟩ := validated_ids hp hconnections hm
    obtain ⟨hmodels, hgroups, htags, hextra⟩ := GatewayConfigModel.validate_eq_ok_iff.1 hm
    obtain ⟨hcs, hgs, hts⟩ := GatewayConfigModel.toDomain_eq_ok_iff.1 hdomain
    obtain ⟨value, items, hvalue, hitems, hall⟩ := modelsField_eq_ok_iff.1 hmodels
    rw [overridden, JsonDict.lookup_set, if_pos rfl] at hvalue
    cases hvalue
    obtain ⟨hlist, hlen⟩ := (hp.list_iff _ _ _).1 hitems
    cases hlist
    rw [length_foldl_apply] at hlen
    rw [modelsField_congr (lookup_overridden_ne (by decide))] at hgroups htags
    rw [forbidExtra_congr (isSome_lookup_overridden hconnections)] at hextra
    have hhold := GatewayConfigModel.validateReferences_eq_ok_iff.1 hreferences
    rw [hids, sectionIds, hconnections] at hhold
    exact ⟨hsuffix, ⟨hlen, hextra, _, _, hgroups, htags, hgs, hts, hhold⟩, as, has,
      forall₂_exists_iff.2 ⟨_, hall, hcs⟩⟩
  · rintro ⟨hsuffix, ⟨hlen, hextra, groups, tags, hgroups, htags, hgs, hts, hhold⟩, as, has, hloaded⟩
    obtain ⟨ms, hall, hcs⟩ := forall₂_exists_iff.1 hloaded
    have hm : GatewayConfigModel.validate p (overridden raw connections as) = .ok ⟨ms, groups, tags⟩ := by
      rw [GatewayConfigModel.validate_eq_ok_iff,
        forbidExtra_congr (isSome_lookup_overridden hconnections)]
      refine ⟨modelsField_eq_ok_iff.2 ⟨_, _, ?_, (hp.list_iff _ _ _).2 ⟨rfl, ?_⟩, hall⟩, ?_, ?_, hextra⟩
      · rw [overridden, JsonDict.lookup_set, if_pos rfl]
      · rw [length_foldl_apply]
        exact hlen
      · rw [modelsField_congr (lookup_overridden_ne (by decide))]
        exact hgroups
      · rw [modelsField_congr (lookup_overridden_ne (by decide))]
        exact htags
    obtain ⟨hids, -, -⟩ := validated_ids hp hconnections hm
    refine ⟨raw, connections, as, _, readJsonObject_eq_ok_iff.2 ⟨hsuffix, hraw⟩, hconnections, has, hm,
      GatewayConfigModel.validateReferences_eq_ok_iff.2 ?_,
      GatewayConfigModel.toDomain_eq_ok_iff.2 ⟨hcs, hgs, hts⟩⟩
    rw [hids, sectionIds, hconnections]
    exact hhold

end PlcGateway
