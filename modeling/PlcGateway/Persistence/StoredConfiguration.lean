/-
  Storing a configuration.

  A referentially sound configuration is stored exactly if its integers fit into the
  columns (`seedConfiguration_spec`): then the tables have it row for row, nothing else has
  changed, and storing it again changes nothing.
-/
import PlcGateway.App.References
import PlcGateway.Persistence.Integrity

namespace PlcGateway

open Tables Fallible

/-- `seed_configuration` of the release tests -/
def seedConfiguration (config : GatewayConfig) (db : GatewayDatabase) :
    Except PyError GatewayDatabase := do
  let db ← ConfigurationRepository.upsertConnections config.connections db
  let db ← ConfigurationRepository.upsertTagGroups config.tagGroups db
  ConfigurationRepository.upsertTags config.tags db

/-! ## Rows of the configuration -/

structure ConnectionRow.Represents (row : ConnectionRow) (c : ConnectionConfig) : Prop where
  protocol : row.protocol = c.protocol.text
  endpoint : row.endpoint = c.endpoint.text
  enabled : row.enabled = c.enabled
  timeoutMs : row.timeoutMs.1.1 = c.timeoutMs
  protocolOptions : row.protocolOptions = c.protocolOptions

structure TagGroupRow.Represents (row : TagGroupRow) (g : TagGroupConfig) : Prop where
  connectionId : row.connectionId = g.connectionId.text
  intervalMs : row.intervalMs.1.1 = g.intervalMs
  timeoutMs : row.timeoutMs.1.1 = g.timeoutMs
  overlapPolicy : row.overlapPolicy = g.overlapPolicy.value
  enabled : row.enabled = g.enabled

structure TagRow.Represents (row : TagRow) (t : TagConfig) : Prop where
  tagGroupId : row.tagGroupId = t.tagGroupId.text
  name : row.name = t.name.text
  address : row.address = t.address.text
  valueType : row.valueType = some t.valueType.value
  enabled : row.enabled = t.enabled
  metadataJson : row.metadataJson = t.metadata

/-- The integers of a configuration fit into their columns. -/
structure GatewayConfig.Fits (config : GatewayConfig) : Prop where
  connections : ∀ c ∈ config.connections, FitsInt64 c.timeoutMs
  tagGroups : ∀ g ∈ config.tagGroups, FitsInt64 g.intervalMs ∧ FitsInt64 g.timeoutMs

theorem bindPositive_eq_ok_iff {n : ℕ} {m : SqlPositive} :
    bindPositive n = .ok m ↔ m.1.1 = n := by
  obtain ⟨m, hm⟩ := m
  rw [bindPositive]
  cases h : bindInteger n with
  | error e =>
    refine iff_of_false (by rintro ⟨⟩) fun heq => ?_
    rw [bindInteger_eq_ok_iff.2 heq] at h
    cases h
  | ok k =>
    have hk := bindInteger_eq_ok_iff.1 h
    simp only
    split_ifs with hpos
    · rw [Except.ok.injEq, Subtype.mk.injEq, ← hk, Subtype.coe_inj]
      exact eq_comm
    · refine iff_of_false (by rintro ⟨⟩) fun heq => hpos ?_
      rw [hk, ← heq]
      exact hm

theorem exists_bindPositive_iff {n : ℕ} (hn : 0 < n) :
    (∃ m, bindPositive n = .ok m) ↔ FitsInt64 n := by
  constructor
  · rintro ⟨m, hm⟩
    rw [← bindPositive_eq_ok_iff.1 hm]
    exact m.1.2
  · intro h
    exact ⟨⟨⟨n, h⟩, Int.natCast_pos.2 hn⟩, bindPositive_eq_ok_iff.2 rfl⟩

theorem connectionValues_eq_ok_iff {c : ConnectionConfig} {r : String × ConnectionRow} :
    connectionValues c = .ok r ↔ r.1 = c.id.text ∧ r.2.Represents c := by
  simp only [connectionValues, bind_eq_ok_iff, bindPositive_eq_ok_iff, pure_eq_ok_iff]
  constructor
  · rintro ⟨timeoutMs, htimeout, rfl⟩
    exact ⟨rfl, rfl, rfl, rfl, htimeout, rfl⟩
  · obtain ⟨id, protocol, endpoint, enabled, timeoutMs, options⟩ := r
    rintro ⟨rfl, rfl, rfl, rfl, htimeout, rfl⟩
    exact ⟨timeoutMs, htimeout, rfl⟩

theorem tagGroupValues_eq_ok_iff {g : TagGroupConfig} {r : String × TagGroupRow} :
    tagGroupValues g = .ok r ↔ r.1 = g.id.text ∧ r.2.Represents g := by
  simp only [tagGroupValues, bind_eq_ok_iff, bindPositive_eq_ok_iff, pure_eq_ok_iff]
  constructor
  · rintro ⟨intervalMs, hinterval, timeoutMs, htimeout, rfl⟩
    exact ⟨rfl, rfl, hinterval, htimeout, rfl, rfl⟩
  · obtain ⟨id, connectionId, intervalMs, timeoutMs, overlapPolicy, enabled⟩ := r
    rintro ⟨rfl, rfl, hinterval, htimeout, rfl, rfl⟩
    exact ⟨intervalMs, hinterval, timeoutMs, htimeout, rfl⟩

theorem exists_connectionValues_iff {c : ConnectionConfig} :
    (∃ r, connectionValues c = .ok r) ↔ FitsInt64 c.timeoutMs := by
  rw [← exists_bindPositive_iff c.timeout_pos]
  simp only [connectionValues, bind_eq_ok_iff, pure_eq_ok_iff]
  constructor
  · rintro ⟨r, timeoutMs, htimeout, -⟩
    exact ⟨timeoutMs, htimeout⟩
  · rintro ⟨timeoutMs, htimeout⟩
    exact ⟨_, timeoutMs, htimeout, rfl⟩

theorem exists_tagGroupValues_iff {g : TagGroupConfig} :
    (∃ r, tagGroupValues g = .ok r) ↔ FitsInt64 g.intervalMs ∧ FitsInt64 g.timeoutMs := by
  rw [← exists_bindPositive_iff g.interval_pos, ← exists_bindPositive_iff g.timeout_pos]
  simp only [tagGroupValues, bind_eq_ok_iff, pure_eq_ok_iff]
  constructor
  · rintro ⟨r, intervalMs, hinterval, timeoutMs, htimeout, -⟩
    exact ⟨⟨intervalMs, hinterval⟩, timeoutMs, htimeout⟩
  · rintro ⟨⟨intervalMs, hinterval⟩, timeoutMs, htimeout⟩
    exact ⟨_, intervalMs, hinterval, timeoutMs, htimeout, rfl⟩

theorem tagValues_represents {t : TagConfig} {r : String × TagRow}
    (h : (.ok (tagValues t) : Except PyError (String × TagRow)) = .ok r) :
    r.1 = t.id.text ∧ r.2.Represents t := by
  cases h
  exact ⟨rfl, rfl, rfl, rfl, rfl, rfl, rfl⟩

/-! ## The sections -/

/-- What storing the configuration does to the tables. -/
structure GatewayConfig.StoredIn (config : GatewayConfig) (db db' : GatewayDatabase) : Prop where
  connections : ∀ c ∈ config.connections, ∃ row,
    db'.connections.lookup c.id.text = some row ∧ row.Represents c
  tagGroups : ∀ g ∈ config.tagGroups, ∃ row,
    db'.tagGroups.lookup g.id.text = some row ∧ row.Represents g
  tags : ∀ t ∈ config.tags, ∃ row, db'.tags.lookup t.id.text = some row ∧ row.Represents t
  otherConnections : ∀ id ∉ config.connections.map fun c => c.id.text,
    db'.connections.lookup id = db.connections.lookup id
  otherTagGroups : ∀ id ∉ config.tagGroups.map fun g => g.id.text,
    db'.tagGroups.lookup id = db.tagGroups.lookup id
  otherTags : ∀ id ∉ config.tags.map fun t => t.id.text, db'.tags.lookup id = db.tags.lookup id
  pollExecutions : db'.pollExecutions = db.pollExecutions
  tagReadings : db'.tagReadings = db.tagReadings
  runtimeComponents : db'.runtimeComponents = db.runtimeComponents

/-- The three batches of a configuration that is stored. -/
theorem seedConfiguration_eq_ok_iff {config : GatewayConfig} {db db' : GatewayDatabase} :
    seedConfiguration config db = .ok db' ↔
      upsertAll connectionValues (fun _ => True) foreignKeyFailed config.connections db.connections =
        .ok db'.connections ∧
      upsertAll tagGroupValues (fun row => row.connectionId ∈ db'.connections.keys) foreignKeyFailed
        config.tagGroups db.tagGroups = .ok db'.tagGroups ∧
      upsertAll (fun config => .ok (tagValues config))
        (fun row => row.tagGroupId ∈ db'.tagGroups.keys) foreignKeyFailed config.tags db.tags =
        .ok db'.tags ∧
      db'.pollExecutions = db.pollExecutions ∧ db'.tagReadings = db.tagReadings ∧
      db'.runtimeComponents = db.runtimeComponents := by
  simp only [seedConfiguration, ConfigurationRepository.upsertConnections,
    ConfigurationRepository.upsertTagGroups, ConfigurationRepository.upsertTags, bind_eq_ok_iff,
    pure_eq_ok_iff]
  constructor
  · rintro ⟨_, ⟨connections, hconnections, rfl⟩, _, ⟨tagGroups, htagGroups, rfl⟩, tags, htags, rfl⟩
    exact ⟨hconnections, htagGroups, htags, rfl, rfl, rfl⟩
  · obtain ⟨connections, tagGroups, tags, pollExecutions, tagReadings, runtimeComponents⟩ := db'
    rintro ⟨hconnections, htagGroups, htags, rfl, rfl, rfl⟩
    exact ⟨_, ⟨_, hconnections, rfl⟩, _, ⟨_, htagGroups, rfl⟩, _, htags, rfl⟩

section
variable {config : GatewayConfig} {db db' : GatewayDatabase}

theorem GatewayConfig.ReferentiallySound.exists_connection (h : config.ReferentiallySound)
    {g : TagGroupConfig} (hg : g ∈ config.tagGroups) :
    ∃ c ∈ config.connections, c.id = g.connectionId := by
  have hcount := h.connectionOf g hg
  exact List.mem_map.1 (List.count_pos_iff.1 (hcount ▸ Nat.one_pos))

theorem GatewayConfig.ReferentiallySound.exists_tagGroup (h : config.ReferentiallySound)
    {t : TagConfig} (ht : t ∈ config.tags) : ∃ g ∈ config.tagGroups, g.id = t.tagGroupId := by
  have hcount := h.tagGroupOf t ht
  exact List.mem_map.1 (List.count_pos_iff.1 (hcount ▸ Nat.one_pos))

/-- What a stored configuration has, and what it leaves. -/
theorem storedIn_of_seed (hsound : config.ReferentiallySound)
    (h : seedConfiguration config db = .ok db') : config.StoredIn db db' := by
  obtain ⟨hconnections, htagGroups, htags, hexecutions, hreadings, hcomponents⟩ :=
    seedConfiguration_eq_ok_iff.1 h
  have hkeyC : ∀ c r, connectionValues c = .ok r → r.1 = c.id.text :=
    fun c r hr => (connectionValues_eq_ok_iff.1 hr).1
  have hkeyG : ∀ g r, tagGroupValues g = .ok r → r.1 = g.id.text :=
    fun g r hr => (tagGroupValues_eq_ok_iff.1 hr).1
  have hkeyT : ∀ t r, (.ok (tagValues t) : Except PyError (String × TagRow)) = .ok r → r.1 = t.id.text :=
    fun t r hr => (tagValues_represents hr).1
  refine ⟨fun c hc => ?_, fun g hg => ?_, fun t ht => ?_, fun id hid => ?_, fun id hid => ?_,
    fun id hid => ?_, hexecutions, hreadings, hcomponents⟩
  · obtain ⟨r, hr, hlookup⟩ :=
      lookup_upsertAll_of_mem hkeyC (nodup_id_iff.1 hsound.connections) hconnections hc
    exact ⟨r.2, hlookup, (connectionValues_eq_ok_iff.1 hr).2⟩
  · obtain ⟨r, hr, hlookup⟩ :=
      lookup_upsertAll_of_mem hkeyG (nodup_id_iff.1 hsound.tagGroups) htagGroups hg
    exact ⟨r.2, hlookup, (tagGroupValues_eq_ok_iff.1 hr).2⟩
  · obtain ⟨r, hr, hlookup⟩ :=
      lookup_upsertAll_of_mem hkeyT (nodup_id_iff.1 hsound.tags) htags ht
    exact ⟨r.2, hlookup, (tagValues_represents hr).2⟩
  · exact lookup_upsertAll_of_notMem hkeyC hconnections hid
  · exact lookup_upsertAll_of_notMem hkeyG htagGroups hid
  · exact lookup_upsertAll_of_notMem hkeyT htags hid

theorem exists_seed_of_fits (hsound : config.ReferentiallySound) (hfits : config.Fits)
    (db : GatewayDatabase) : ∃ db', seedConfiguration config db = .ok db' := by
  obtain ⟨connections, hconnections⟩ : ∃ t', upsertAll connectionValues (fun _ => True)
      foreignKeyFailed config.connections db.connections = .ok t' := by
    refine exists_upsertAll_iff.2 fun c hc => ?_
    obtain ⟨r, hr⟩ := exists_connectionValues_iff.2 (hfits.connections c hc)
    exact ⟨r, hr, trivial⟩
  obtain ⟨tagGroups, htagGroups⟩ : ∃ t', upsertAll tagGroupValues
      (fun row => row.connectionId ∈ connections.keys) foreignKeyFailed config.tagGroups
      db.tagGroups = .ok t' := by
    refine exists_upsertAll_iff.2 fun g hg => ?_
    obtain ⟨r, hr⟩ := exists_tagGroupValues_iff.2 (hfits.tagGroups g hg)
    refine ⟨r, hr, ?_⟩
    obtain ⟨c, hc, hid⟩ := hsound.exists_connection hg
    obtain ⟨row, -, hlookup⟩ := lookup_upsertAll_of_mem
      (fun c r hr => (connectionValues_eq_ok_iff.1 hr).1) (nodup_id_iff.1 hsound.connections)
      hconnections hc
    rw [(tagGroupValues_eq_ok_iff.1 hr).2.connectionId, ← hid]
    exact Finmap.mem_keys.2 (Finmap.mem_of_lookup_eq_some hlookup)
  obtain ⟨tags, htags⟩ : ∃ t', upsertAll (fun config => .ok (tagValues config))
      (fun row => row.tagGroupId ∈ tagGroups.keys) foreignKeyFailed config.tags db.tags = .ok t' := by
    refine exists_upsertAll_iff.2 fun t ht => ⟨_, rfl, ?_⟩
    obtain ⟨g, hg, hid⟩ := hsound.exists_tagGroup ht
    obtain ⟨row, -, hlookup⟩ := lookup_upsertAll_of_mem
      (fun g r hr => (tagGroupValues_eq_ok_iff.1 hr).1) (nodup_id_iff.1 hsound.tagGroups)
      htagGroups hg
    rw [hid] at hlookup
    exact Finmap.mem_keys.2 (Finmap.mem_of_lookup_eq_some hlookup)
  exact ⟨{ db with connections, tagGroups, tags },
    seedConfiguration_eq_ok_iff.2 ⟨hconnections, htagGroups, htags, rfl, rfl, rfl⟩⟩

theorem fits_of_seed (h : seedConfiguration config db = .ok db') : config.Fits := by
  obtain ⟨hconnections, htagGroups, -⟩ := seedConfiguration_eq_ok_iff.1 h
  constructor
  · intro c hc
    obtain ⟨r, hr, -⟩ := exists_upsertAll_iff.1 ⟨_, hconnections⟩ c hc
    exact exists_connectionValues_iff.1 ⟨r, hr⟩
  · intro g hg
    obtain ⟨r, hr, -⟩ := exists_upsertAll_iff.1 ⟨_, htagGroups⟩ g hg
    exact exists_tagGroupValues_iff.1 ⟨r, hr⟩

theorem seed_again (h : seedConfiguration config db = .ok db') :
    seedConfiguration config db' = .ok db' := by
  obtain ⟨hconnections, htagGroups, htags, -⟩ := seedConfiguration_eq_ok_iff.1 h
  exact seedConfiguration_eq_ok_iff.2 ⟨upsertAll_again hconnections fun _ => id,
    upsertAll_again htagGroups fun _ => id, upsertAll_again htags fun _ => id, rfl, rfl, rfl⟩

end

/-- **A referentially sound configuration is stored exactly if its integers fit.**  Then
    every entry has its row, every other row is left, and storing the configuration again
    changes nothing. -/
theorem seedConfiguration_spec {config : GatewayConfig} (hsound : config.ReferentiallySound)
    (db : GatewayDatabase) :
    ((∃ db', seedConfiguration config db = .ok db') ↔ config.Fits) ∧
      ∀ db', seedConfiguration config db = .ok db' →
        config.StoredIn db db' ∧ seedConfiguration config db' = .ok db' := by
  refine ⟨⟨?_, fun hfits => exists_seed_of_fits hsound hfits db⟩, fun db' h => ?_⟩
  · rintro ⟨db', h⟩
    exact fits_of_seed h
  · exact ⟨storedIn_of_seed hsound h, seed_again h⟩

/-- One connection with one tag. -/
def releaseConfiguration : GatewayConfig :=
  ⟨[fakeConfig.connection], [fastGroupConfig], [temperatureConfig]⟩

theorem releaseConfiguration_sound : releaseConfiguration.ReferentiallySound := by
  refine ⟨List.nodup_singleton _, List.nodup_singleton _, List.nodup_singleton _, ?_, ?_⟩
  · intro g hg
    rw [List.mem_singleton.1 hg]
    rfl
  · intro t ht
    rw [List.mem_singleton.1 ht]
    rfl

theorem releaseConfiguration_fits : releaseConfiguration.Fits := by
  constructor
  · intro c hc
    rw [List.mem_singleton.1 hc]
    decide
  · intro g hg
    rw [List.mem_singleton.1 hg]
    decide

def spareConnection : ConnectionConfig :=
  ⟨⟨"spare_connection", by decide, by decide⟩, fakeConfig.connection.protocol,
    ⟨"fake://spare", by decide, by decide⟩, true, 1000, [], fastGroupConfig.interval_pos⟩

def spareGroup : TagGroupConfig :=
  { fastGroupConfig with id := ⟨"spare", by decide, by decide⟩, connectionId := spareConnection.id }

def spareTag : TagConfig :=
  { pressureConfig with tagGroupId := spareGroup.id }

/-- The connection of the release is disabled, and another one is there with a tag. -/
def extendedConfiguration : GatewayConfig :=
  ⟨[{ fakeConfig.connection with enabled := false }, spareConnection], [fastGroupConfig, spareGroup],
    [temperatureConfig, spareTag]⟩

theorem extendedConfiguration_sound : extendedConfiguration.ReferentiallySound := by
  refine ⟨by decide, by decide, by decide, ?_, ?_⟩
  · intro g hg
    simp only [extendedConfiguration, List.mem_cons, List.not_mem_nil, or_false] at hg
    rcases hg with rfl | rfl <;> decide
  · intro t ht
    simp only [extendedConfiguration, List.mem_cons, List.not_mem_nil, or_false] at ht
    rcases ht with rfl | rfl <;> decide

theorem extendedConfiguration_fits : extendedConfiguration.Fits := by
  constructor
  · intro c hc
    simp only [extendedConfiguration, List.mem_cons, List.not_mem_nil, or_false] at hc
    rcases hc with rfl | rfl <;> decide
  · intro g hg
    simp only [extendedConfiguration, List.mem_cons, List.not_mem_nil, or_false] at hg
    rcases hg with rfl | rfl <;> decide

/-- A larger configuration is stored over that of the release. -/
theorem seedConfiguration_spec_extended : ∃ db db',
    seedConfiguration releaseConfiguration .empty = .ok db ∧
      seedConfiguration extendedConfiguration db = .ok db' ∧ extendedConfiguration.StoredIn db db' ∧
      seedConfiguration extendedConfiguration db' = .ok db' := by
  obtain ⟨db, hdb⟩ := exists_seed_of_fits releaseConfiguration_sound releaseConfiguration_fits .empty
  obtain ⟨hstored, hspec⟩ := seedConfiguration_spec extendedConfiguration_sound db
  obtain ⟨db', h⟩ := hstored.2 extendedConfiguration_fits
  exact ⟨db, db', hdb, h, hspec db' h⟩

end PlcGateway
