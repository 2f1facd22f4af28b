/-
  The references of an accepted configuration.

  Ids are checked as pydantic leaves them (`trim`) and loaded as the domain models leave
  them (`strip`).  What is loaded is referentially sound exactly if the second
  normalisation does not identify ids that the first one tells apart.
-/
import PlcGateway.App.Loading
import Mathlib.Data.List.Nodup

namespace PlcGateway

open Fallible

/-- Ids are distinct, and each reference is the id of exactly one thing.  That ids are
    not empty and stripped is in their type. -/
structure GatewayConfig.ReferentiallySound (config : GatewayConfig) : Prop where
  connections : (config.connections.map (·.id)).Nodup
  tagGroups : (config.tagGroups.map (·.id)).Nodup
  tags : (config.tags.map (·.id)).Nodup
  connectionOf : ∀ g ∈ config.tagGroups, (config.connections.map (·.id)).count g.connectionId = 1
  tagGroupOf : ∀ t ∈ config.tags, (config.tagGroups.map (·.id)).count t.tagGroupId = 1

/-- The ids of a section of the file. -/
def sectionIds (raw : JsonDict) (name : String) : List String :=
  match raw.lookup name with
  | some (.list items) => items.filterMap entryId
  | _ => []

/-- `strip` identifies only ids that `trim` identifies. -/
def ToldApart (ids : List String) : Prop := ∀ a ∈ ids, ∀ b ∈ ids, strip a = strip b → trim a = trim b

theorem nodup_strip_iff {ids : List String} (h : (ids.map trim).Nodup) :
    (ids.map strip).Nodup ↔ ToldApart ids := by
  constructor
  · intro hstrip a ha b hb hab
    rw [List.inj_on_of_nodup_map hstrip ha hb hab]
  · intro happart
    refine List.Nodup.map_on (fun a ha b hb hab => ?_) (List.Nodup.of_map _ h)
    exact List.inj_on_of_nodup_map h ha hb (happart a ha b hb hab)

section
variable {p : Pydantic} {α β : Type}

theorem entryId_of_validate (hp : p.Lawful) {value : Json} {fields : JsonDict} {id : String}
    (hfields : p.model value = .ok fields)
    (hid : requiredField p (p.str 1) fields "id" = .ok id) :
    ∃ t, entryId value = some t ∧ id = trim t := by
  obtain ⟨v, hv, hread⟩ := requiredField_eq_ok_iff.1 hid
  obtain ⟨t, rfl, rfl, -⟩ := (hp.str_iff 1 v id).1 hread
  refine ⟨t, ?_, rfl⟩
  rw [(hp.model_iff _ _).1 hfields, entryId, hv]

theorem TagGroupConfigModel.fields_of_validate {value : Json} {m : TagGroupConfigModel}
    (h : validate p value = .ok m) :
    ∃ fields, p.model value = .ok fields ∧ requiredField p (p.str 1) fields "id" = .ok m.id := by
  simp only [validate, modelFields, bind_eq_ok_iff, mapError_eq_ok_iff, pure_eq_ok_iff] at h
  obtain ⟨fields, hfields, _, hid, _, _, _, _, _, _, _, _, _, _, _, _, rfl⟩ := h
  exact ⟨fields, hfields, hid⟩

theorem TagConfigModel.fields_of_validate {value : Json} {m : TagConfigModel}
    (h : validate p value = .ok m) :
    ∃ fields, p.model value = .ok fields ∧ requiredField p (p.str 1) fields "id" = .ok m.id := by
  simp only [validate, modelFields, bind_eq_ok_iff, mapError_eq_ok_iff, pure_eq_ok_iff] at h
  obtain ⟨fields, hfields, _, hid, _, _, _, _, _, _, _, _, _, _, _, _, _, _, rfl⟩ := h
  exact ⟨fields, hfields, hid⟩

/-- The ids of a section, as pydantic leaves them. -/
theorem map_id_of_validate {validate : Json → Except ValidationError α} {idOf : α → String}
    (hid : ∀ item m, validate item = .ok m → ∃ t, entryId item = some t ∧ idOf m = trim t)
    {items : List Json} {ms : List α}
    (h : List.Forall₂ (fun item m => validate item = .ok m) items ms) :
    ms.map idOf = (items.filterMap entryId).map trim := by
  induction h with
  | nil => rfl
  | cons hm _ ih =>
    obtain ⟨t, ht, hm⟩ := hid _ _ hm
    rw [List.filterMap_cons_some ht, List.map_cons, List.map_cons, hm, ih]

/-- The ids of a section, as the domain models leave them. -/
theorem map_id_of_toDomain {toDomain : α → Except PyError β} {idOf : α → String} {id : β → Stripped}
    (hid : ∀ m c, toDomain m = .ok c → (id c).text = strip (idOf m)) {ms : List α} {cs : List β}
    (h : List.Forall₂ (fun m c => toDomain m = .ok c) ms cs) :
    cs.map (fun c => (id c).text) = (ms.map idOf).map strip := by
  induction h with
  | nil => rfl
  | cons hc _ ih => rw [List.map_cons, List.map_cons, List.map_cons, hid _ _ hc, ih]

/-- Two normalisations of the ids of a section. -/
theorem section_ids {ids : List String} {ms : List String} {texts : List String}
    (hms : ms = ids.map trim) (htexts : texts = ms.map strip) (hnodup : ms.Nodup) :
    texts.Nodup ↔ ToldApart ids := by
  have hstrip : texts = ids.map strip := by
    rw [htexts, hms, List.map_map]
    exact List.map_congr_left fun id _ => strip_trim id
  rw [hstrip]
  exact nodup_strip_iff (hms ▸ hnodup)

theorem nodup_id_iff {cs : List β} {id : β → Stripped} :
    (cs.map id).Nodup ↔ (cs.map fun c => (id c).text).Nodup := by
  have hmap : (cs.map fun c => (id c).text) = (cs.map id).map Stripped.text := by
    rw [List.map_map]
    rfl
  rw [hmap]
  exact (List.nodup_map_iff fun _ _ h => Stripped.ext h).symm

end

/-! ## The sections of an accepted file -/

theorem filterMap_entryId (as : List Assignment) (connections : List Json) :
    (as.foldl (fun cs a => a.apply cs) connections).filterMap entryId =
      connections.filterMap entryId := by
  have hmap := congrArg (List.filterMap id) (map_entryId_foldl_apply as connections)
  rwa [List.filterMap_map, List.filterMap_map] at hmap

section
variable {p : Pydantic} {raw : JsonDict} {connections : List Json} {as : List (Option Assignment)}

/-- The overrides leave the ids of every section. -/
theorem sectionIds_overridden (as : List (Option Assignment))
    (hconnections : raw.lookup "connections" = some (.list connections)) (name : String) :
    sectionIds (overridden raw connections as) name = sectionIds raw name := by
  rw [sectionIds, sectionIds, overridden, JsonDict.lookup_set]
  split_ifs with hname
  · rw [hname, hconnections]
    exact filterMap_entryId _ connections
  · rfl

theorem modelsField_ids {α : Type} (hp : p.Lawful) {fields : JsonDict}
    {validate : Json → Except ValidationError α} {idOf : α → String}
    (hid : ∀ item m, validate item = .ok m → ∃ t, entryId item = some t ∧ idOf m = trim t)
    {name : String} {ms : List α} (h : modelsField p validate fields name = .ok ms) :
    ms.map idOf = (sectionIds fields name).map trim := by
  obtain ⟨value, items, hvalue, hitems, hall⟩ := modelsField_eq_ok_iff.1 h
  rw [map_id_of_validate hid hall, sectionIds, hvalue, ((hp.list_iff _ _ _).1 hitems).1]

/-- **The ids of an accepted file, as pydantic leaves them.** -/
theorem validated_ids (hp : p.Lawful) (hconnections : raw.lookup "connections" = some (.list connections))
    {m : GatewayConfigModel}
    (hm : GatewayConfigModel.validate p (overridden raw connections as) = .ok m) :
    m.connections.map (·.id) = (sectionIds raw "connections").map trim ∧
    m.tagGroups.map (·.id) = (sectionIds raw "tag_groups").map trim ∧
    m.tags.map (·.id) = (sectionIds raw "tags").map trim := by
  obtain ⟨hconnection, hgroup, htag, -⟩ := GatewayConfigModel.validate_eq_ok_iff.1 hm
  rw [← sectionIds_overridden as hconnections "connections",
    ← sectionIds_overridden as hconnections "tag_groups",
    ← sectionIds_overridden as hconnections "tags"]
  refine ⟨modelsField_ids hp (fun item m h => ?_) hconnection,
    modelsField_ids hp (fun item m h => ?_) hgroup, modelsField_ids hp (fun item m h => ?_) htag⟩
  · obtain ⟨fields, hfields, hid, -⟩ := ConnectionConfigModel.validate_eq_ok_iff.1 h
    exact entryId_of_validate hp hfields hid
  · obtain ⟨fields, hfields, hid⟩ := TagGroupConfigModel.fields_of_validate h
    exact entryId_of_validate hp hfields hid
  · obtain ⟨fields, hfields, hid⟩ := TagConfigModel.fields_of_validate h
    exact entryId_of_validate hp hfields hid

end

/-! ## References -/

section
variable {m : ConnectionConfigModel} {c : ConnectionConfig}

theorem ConnectionConfigModel.text_id {m : ConnectionConfigModel} {c : ConnectionConfig}
    (h : m.toDomain = .ok c) : c.id.text = strip m.id :=
  (ConnectionConfig.init_eq_ok_iff.1 h).1

theorem TagGroupConfigModel.text_ids {m : TagGroupConfigModel} {g : TagGroupConfig}
    (h : m.toDomain = .ok g) :
    g.id.text = strip m.id ∧ g.connectionId.text = strip m.connectionId :=
  let hinit := TagGroupConfig.init_eq_ok_iff.1 h
  ⟨hinit.1, hinit.2.1⟩

theorem TagConfigModel.text_ids {m : TagConfigModel} {t : TagConfig} (h : m.toDomain = .ok t) :
    t.id.text = strip m.id ∧ t.tagGroupId.text = strip m.tagGroupId :=
  let hinit := TagConfig.init_eq_ok_iff.1 h
  ⟨hinit.1, hinit.2.1⟩

end

/-- A reference that holds for what pydantic leaves holds for what is loaded. -/
theorem count_eq_one {β : Type} {cs : List β} {id : β → Stripped} (hnodup : (cs.map id).Nodup)
    {ids : List String} (hids : cs.map (fun c => (id c).text) = ids.map strip)
    {reference : Stripped} {r : String} (hr : reference.text = strip r) (hmem : r ∈ ids) :
    (cs.map id).count reference = 1 := by
  refine List.count_eq_one_of_mem hnodup ?_
  have htext : strip r ∈ cs.map fun c => (id c).text := hids ▸ List.mem_map_of_mem hmem
  obtain ⟨c, hc, hcr⟩ := List.mem_map.1 htext
  exact List.mem_map.2 ⟨c, hc, Stripped.ext (hcr.trans hr.symm)⟩

/-- **Accepted configurations are referentially sound exactly if the ids of each section
    are told apart.** -/
theorem loaded_sound_iff {p : Pydantic} (hp : p.Lawful) {b : Builtins} {file : ConfigFile}
    {environ : List Variable} {config : GatewayConfig}
    (hload : loadGatewayConfig p b file environ = .ok config) {raw : JsonDict}
    (hraw : file.content = .json (.dict raw)) :
    config.ReferentiallySound ↔
      ∀ name ∈ ["connections", "tag_groups", "tags"], ToldApart (sectionIds raw name) := by
  obtain ⟨raw', connections, as, m, hread, hconnections, -, hm, hreferences, hdomain⟩ :=
    (load_eq_ok_iff hp).1 hload
  obtain ⟨-, hcontent⟩ := readJsonObject_eq_ok_iff.1 hread
  cases hraw.symm.trans hcontent
  obtain ⟨hconnectionIds, hgroupIds, htagIds⟩ := validated_ids hp hconnections hm
  obtain ⟨hconnectionNodup, hgroupNodup, htagNodup, hconnectionOf, hgroupOf⟩ :=
    GatewayConfigModel.validateReferences_eq_ok_iff.1 hreferences
  obtain ⟨hcs, hgs, hts⟩ := GatewayConfigModel.toDomain_eq_ok_iff.1 hdomain
  have hconnectionTexts := map_id_of_toDomain (fun m c h => ConnectionConfigModel.text_id h) hcs
  have hgroupTexts := map_id_of_toDomain (fun m g h => (TagGroupConfigModel.text_ids h).1) hgs
  have htagTexts := map_id_of_toDomain (fun m t h => (TagConfigModel.text_ids h).1) hts
  have hconnection := section_ids hconnectionIds hconnectionTexts hconnectionNodup
  have hgroup := section_ids hgroupIds hgroupTexts hgroupNodup
  have htag := section_ids htagIds htagTexts htagNodup
  rw [← nodup_id_iff] at hconnection hgroup htag
  simp only [List.forall_mem_cons, ← hconnection, ← hgroup, ← htag]
  constructor
  · intro h
    exact ⟨h.connections, h.tagGroups, h.tags, nofun⟩
  · rintro ⟨hc, hg, ht, -⟩
    refine ⟨hc, hg, ht, fun g hmem => ?_, fun t hmem => ?_⟩
    · obtain ⟨mg, hmg, hinit⟩ := exists_of_mem_right hgs hmem
      exact count_eq_one hc hconnectionTexts (TagGroupConfigModel.text_ids hinit).2
        (hconnectionOf mg hmg)
    · obtain ⟨mt, hmt, hinit⟩ := exists_of_mem_right hts hmem
      exact count_eq_one hg hgroupTexts (TagConfigModel.text_ids hinit).2 (hgroupOf mt hmt)

theorem loaded_sound_iff_two :
    ∃ config, loadGatewayConfig strictPydantic asciiBuiltins (exampleFile ["a", "b"]) [] = .ok config ∧
      (config.ReferentiallySound ↔ ∀ name ∈ ["connections", "tag_groups", "tags"],
        ToldApart (sectionIds (exampleRaw ["a", "b"]) name)) := by
  have haccepted : (loadGatewayConfig strictPydantic asciiBuiltins (exampleFile ["a", "b"])
      []).toOption.isSome := by decide +kernel
  cases hload : loadGatewayConfig strictPydantic asciiBuiltins (exampleFile ["a", "b"]) [] with
  | error e =>
    rw [hload] at haccepted
    cases haccepted
  | ok config => exact ⟨config, rfl, loaded_sound_iff strictPydantic_lawful hload rfl⟩

/-- `strip` removes the unit separator, and `trim` does not: two connections are loaded
    with the id `a`. -/
theorem unit_separator_identifies_connections :
    ∃ config, loadGatewayConfig strictPydantic asciiBuiltins (exampleFile ["a", "a\x1f"]) [] =
        .ok config ∧
      config.connections.map (·.id.text) = ["a", "a"] ∧ ¬ config.ReferentiallySound := by
  have hids : (loadGatewayConfig strictPydantic asciiBuiltins (exampleFile ["a", "a\x1f"])
      []).toOption.map (fun c => c.connections.map (·.id.text)) = some ["a", "a"] := by
    decide +kernel
  cases hload : loadGatewayConfig strictPydantic asciiBuiltins (exampleFile ["a", "a\x1f"]) [] with
  | error e =>
    rw [hload] at hids
    cases hids
  | ok config =>
    rw [hload] at hids
    have htexts : config.connections.map (·.id.text) = ["a", "a"] := Option.some.inj hids
    refine ⟨config, rfl, htexts, fun hsound => ?_⟩
    have hnodup := nodup_id_iff.1 hsound.connections
    rw [htexts] at hnodup
    exact absurd hnodup (by decide)

end PlcGateway
