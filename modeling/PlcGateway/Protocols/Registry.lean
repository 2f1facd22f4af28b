/-
  The registry of driver factories.

  A protocol name counts without the spaces around it and in lower case.  A registry is built
  exactly if no two names count as the same, and then the order of the registrations does not
  matter: each connection gets its driver from the factory under its protocol
  (`registry_resolves`).
-/
import Mathlib.Data.List.Sort
import Mathlib.Data.String.Basic
import PlcGateway.App.Texts
import PlcGateway.Domain.Configuration
import PlcGateway.Library.Fallible

namespace PlcGateway

open Fallible

variable {D : Type}

/-- `DriverFactory` -/
abbrev DriverFactory (D : Type) := ConnectionConfig → Except PyError D

/-- `DriverRegistry`, with the factories in the order of their registration -/
@[ext]
structure DriverRegistry (D : Type) where
  factories : List (String × DriverFactory D)
  distinct : (factories.map Prod.fst).Nodup

def invalidDriverProtocol : PyError :=
  { PyError.configuration "Driver protocol cannot be empty." with
    code := .text "invalid_driver_protocol" }

def duplicateDriverProtocol (protocol : String) : PyError :=
  { PyError.configuration s!"Driver for protocol '{protocol}' is already registered." with
    code := .text "duplicate_driver_protocol" }

def unknownDriverProtocol (protocol : String) : PyError :=
  { PyError.configuration s!"No communication driver registered for protocol '{protocol}'." with
    code := .text "unknown_driver_protocol" }

/-- `protocol.strip().lower()` -/
def protocolKey (case : CaseMapping) (protocol : String) : String := case.lower (strip protocol)

/-- `_normalize_protocol` -/
def normalizeProtocol (case : CaseMapping) (protocol : String) : Except PyError String :=
  if protocolKey case protocol = "" then throw invalidDriverProtocol
  else return protocolKey case protocol

namespace DriverRegistry

def empty : DriverRegistry D := ⟨[], List.nodup_nil⟩

def protocols (r : DriverRegistry D) : List String := r.factories.map Prod.fst

theorem distinct_append {factories : List (String × DriverFactory D)} {protocol : String}
    (hdistinct : (factories.map Prod.fst).Nodup) (hnew : protocol ∉ factories.map Prod.fst)
    (factory : DriverFactory D) :
    ((factories ++ [(protocol, factory)]).map Prod.fst).Nodup := by
  rw [List.map_append, List.nodup_append]
  refine ⟨hdistinct, List.nodup_singleton _, ?_⟩
  rintro a ha b hb rfl
  rw [List.map_singleton, List.mem_singleton] at hb
  rw [hb] at ha
  exact hnew ha

def register (case : CaseMapping) (protocol : String) (factory : DriverFactory D)
    (r : DriverRegistry D) : Except PyError (DriverRegistry D) := do
  let normalized ← normalizeProtocol case protocol
  if hnew : normalized ∉ r.factories.map Prod.fst then
    return ⟨r.factories ++ [(normalized, factory)], distinct_append r.distinct hnew factory⟩
  else throw (duplicateDriverProtocol normalized)

def createDriver (case : CaseMapping) (connection : ConnectionConfig) (r : DriverRegistry D) :
    Except PyError D := do
  let protocol ← normalizeProtocol case connection.protocol.text
  match r.factories.lookup protocol with
  | none => throw (unknownDriverProtocol protocol)
  | some factory => factory connection

/-- `sorted(self._factories)` -/
def registeredProtocols (r : DriverRegistry D) : List String :=
  r.protocols.insertionSort (· ≤ ·)

end DriverRegistry

/-- `build_driver_registry` -/
def buildDriverRegistry (case : CaseMapping) (registrations : List (String × DriverFactory D)) :
    Except PyError (DriverRegistry D) :=
  registrations.foldlM (fun r (protocol, factory) => r.register case protocol factory) .empty

/-! ## Building a registry -/

theorem normalizeProtocol_eq_ok_iff {case : CaseMapping} {protocol normalized : String} :
    normalizeProtocol case protocol = .ok normalized ↔
      protocolKey case protocol ≠ "" ∧ normalized = protocolKey case protocol := by
  rw [normalizeProtocol]
  split_ifs with hempty
  · exact iff_of_false (by rintro ⟨⟩) fun h => h.1 hempty
  · rw [pure_eq_ok_iff]
    exact ⟨fun h => ⟨hempty, h.symm⟩, fun h => h.2.symm⟩

/-- The entry of a registration. -/
def registryEntry (case : CaseMapping) (p : String × DriverFactory D) : String × DriverFactory D :=
  (protocolKey case p.1, p.2)

namespace DriverRegistry
variable {case : CaseMapping} {r r' : DriverRegistry D}

theorem register_eq_ok_iff {protocol : String} {factory : DriverFactory D} :
    r.register case protocol factory = .ok r' ↔ protocolKey case protocol ≠ "" ∧
      protocolKey case protocol ∉ r.protocols ∧
      r'.factories = r.factories ++ [(protocolKey case protocol, factory)] := by
  rw [register, bind_eq_ok_iff]
  constructor
  · rintro ⟨normalized, hnormalized, hregistered⟩
    obtain ⟨hne, rfl⟩ := normalizeProtocol_eq_ok_iff.1 hnormalized
    split_ifs at hregistered with hnew
    · rw [← pure_eq_ok_iff.1 hregistered]
      exact ⟨hne, hnew, rfl⟩
  · rintro ⟨hne, hnew, hfactories⟩
    refine ⟨_, normalizeProtocol_eq_ok_iff.2 ⟨hne, rfl⟩, ?_⟩
    rw [dif_pos (show _ ∉ r.factories.map Prod.fst from hnew), pure_eq_ok_iff]
    exact DriverRegistry.ext hfactories.symm

/-- The loop registers every name, if none is empty or counts as an earlier one. -/
theorem foldlM_register_eq_ok_iff {registrations : List (String × DriverFactory D)} :
    registrations.foldlM (fun r p => r.register case p.1 p.2) r = .ok r' ↔
      (∀ p ∈ registrations, protocolKey case p.1 ≠ "") ∧
      (r.protocols ++ registrations.map fun p => protocolKey case p.1).Nodup ∧
      r'.factories = r.factories ++ registrations.map (registryEntry case) := by
  induction registrations generalizing r with
  | nil =>
    rw [List.foldlM_nil, pure_eq_ok_iff, List.map_nil, List.map_nil, List.append_nil,
      List.append_nil]
    constructor
    · rintro rfl
      refine ⟨?_, r.distinct, rfl⟩
      intro p hp
      cases hp
    · rintro ⟨-, -, hfactories⟩
      exact DriverRegistry.ext hfactories.symm
  | cons p registrations ih =>
    have hprotocols : ∀ r₁ : DriverRegistry D,
        r₁.factories = r.factories ++ [registryEntry case p] →
        r₁.protocols ++ registrations.map (fun p => protocolKey case p.1) =
          r.protocols ++ protocolKey case p.1 :: registrations.map fun p => protocolKey case p.1 := by
      intro r₁ hr₁
      rw [protocols, hr₁, List.map_append, List.append_assoc]
      rfl
    rw [List.foldlM_cons, bind_eq_ok_iff]
    simp only [ih, register_eq_ok_iff, List.forall_mem_cons, List.map_cons]
    constructor
    · rintro ⟨r₁, ⟨hne, hnew, hr₁⟩, hrest, hnodup, hr'⟩
      refine ⟨⟨hne, hrest⟩, ?_, ?_⟩
      · rw [← hprotocols r₁ hr₁]
        exact hnodup
      · rw [hr', hr₁, List.append_assoc]
        rfl
    · rintro ⟨⟨hne, hrest⟩, hnodup, hr'⟩
      have hnew : protocolKey case p.1 ∉ r.protocols := by
        intro hmem
        exact (List.nodup_append.1 hnodup).2.2 _ hmem _ List.mem_cons_self rfl
      refine ⟨⟨_, distinct_append r.distinct hnew p.2⟩, ⟨hne, hnew, rfl⟩, hrest, ?_, ?_⟩
      · rw [hprotocols _ rfl]
        exact hnodup
      · rw [hr', List.append_assoc]
        rfl

theorem build_eq_ok_iff {registrations : List (String × DriverFactory D)} :
    buildDriverRegistry case registrations = .ok r ↔
      (∀ p ∈ registrations, protocolKey case p.1 ≠ "") ∧
      (registrations.map fun p => protocolKey case p.1).Nodup ∧
      r.factories = registrations.map (registryEntry case) := by
  refine foldlM_register_eq_ok_iff.trans ?_
  simp only [protocols, empty, List.map_nil, List.nil_append]

/-! ## Looking a factory up -/

theorem mem_protocols {p : String × DriverFactory D} (hmem : p ∈ r.factories) :
    p.1 ∈ r.protocols :=
  List.mem_map.2 ⟨p, hmem, rfl⟩

theorem lookup_factories {protocol : String} {factory : DriverFactory D}
    (hmem : (protocol, factory) ∈ r.factories) : r.factories.lookup protocol = some factory := by
  obtain ⟨before, after, hsplit⟩ := List.append_of_mem hmem
  refine List.lookup_eq_some_iff.2 ⟨before, after, hsplit, fun p hp => ?_⟩
  have hdistinct := r.distinct
  rw [hsplit, List.map_append, List.map_cons, List.nodup_append] at hdistinct
  rw [bne_iff_ne]
  exact fun heq => hdistinct.2.2 _ (List.mem_map_of_mem hp) _ List.mem_cons_self heq.symm

/-- `create_driver` calls the factory under the protocol, or raises. -/
theorem createDriver_cases (case : CaseMapping) (connection : ConnectionConfig)
    (r : DriverRegistry D) :
    let key := protocolKey case connection.protocol.text
    key = "" ∧ r.createDriver case connection = .error invalidDriverProtocol ∨
    key ≠ "" ∧ key ∉ r.protocols ∧
      r.createDriver case connection = .error (unknownDriverProtocol key) ∨
    key ≠ "" ∧ ∃ factory, (key, factory) ∈ r.factories ∧
      r.createDriver case connection = factory connection := by
  intro key
  by_cases hempty : key = ""
  · refine .inl ⟨hempty, ?_⟩
    rw [createDriver, normalizeProtocol, if_pos hempty]
    rfl
  · have hnormalized : normalizeProtocol case connection.protocol.text = .ok key :=
      normalizeProtocol_eq_ok_iff.2 ⟨hempty, rfl⟩
    refine .inr ?_
    rw [createDriver, hnormalized, ok_bind]
    by_cases hmem : key ∈ r.protocols
    · obtain ⟨⟨protocol, factory⟩, hfactory, hprotocol⟩ := List.mem_map.1 hmem
      simp only at hprotocol
      rw [hprotocol] at hfactory
      refine .inr ⟨hempty, factory, hfactory, ?_⟩
      rw [lookup_factories hfactory]
    · refine .inl ⟨hempty, hmem, ?_⟩
      have hnone : r.factories.lookup key = none := by
        refine List.lookup_eq_none_iff.2 fun p hp => ?_
        rw [bne_iff_ne]
        rintro heq
        rw [heq] at hmem
        exact hmem (mem_protocols hp)
      rw [hnone]
      rfl

theorem lookup_perm (h : r'.factories.Perm r.factories) (protocol : String) :
    r'.factories.lookup protocol = r.factories.lookup protocol := by
  cases hlookup : r.factories.lookup protocol with
  | some factory =>
    obtain ⟨before, after, hsplit, -⟩ := List.lookup_eq_some_iff.1 hlookup
    refine lookup_factories (h.mem_iff.2 ?_)
    rw [hsplit]
    exact List.mem_append_right _ List.mem_cons_self
  | none =>
    refine List.lookup_eq_none_iff.2 fun p hp => ?_
    exact List.lookup_eq_none_iff.1 hlookup p (h.mem_iff.1 hp)

/-- What a connection gets depends on the entries only, not on their order. -/
theorem createDriver_perm (h : r'.factories.Perm r.factories) (connection : ConnectionConfig) :
    r'.createDriver case connection = r.createDriver case connection := by
  rw [createDriver, createDriver]
  simp only [lookup_perm h]

theorem registeredProtocols_perm (h : r'.factories.Perm r.factories) :
    r'.registeredProtocols = r.registeredProtocols := by
  have hprotocols : r'.protocols.Perm r.protocols := h.map Prod.fst
  have hsorted : r'.registeredProtocols.Perm r.registeredProtocols :=
    (List.perm_insertionSort _ _).trans (hprotocols.trans (List.perm_insertionSort _ _).symm)
  exact hsorted.eq_of_sortedLE List.sortedLE_insertionSort List.sortedLE_insertionSort

end DriverRegistry

/-- **Each connection gets its driver from the factory of its protocol.**  A registry is built
    exactly if no name is blank and no two count as the same.  Then the order of the registrations
    does not matter, `create_driver` calls the factory whose name counts as the protocol of the
    connection, and it refuses a protocol that has none. -/
theorem registry_resolves (case : CaseMapping) (registrations : List (String × DriverFactory D)) :
    ((∃ r, buildDriverRegistry case registrations = .ok r) ↔
      (∀ p ∈ registrations, protocolKey case p.1 ≠ "") ∧
        (registrations.map fun p => protocolKey case p.1).Nodup) ∧
    ∀ r, buildDriverRegistry case registrations = .ok r →
      (∀ order, order.Perm registrations → ∃ r', buildDriverRegistry case order = .ok r' ∧
        r'.registeredProtocols = r.registeredProtocols ∧
        ∀ connection, r'.createDriver case connection = r.createDriver case connection) ∧
      ∀ connection, let key := protocolKey case connection.protocol.text
        (∀ p ∈ registrations, protocolKey case p.1 = key →
          r.createDriver case connection = p.2 connection) ∧
        (key ≠ "" → (∀ p ∈ registrations, protocolKey case p.1 ≠ key) →
          r.createDriver case connection = .error (unknownDriverProtocol key)) := by
  simp only [DriverRegistry.build_eq_ok_iff]
  have hdistinct : ∀ order : List (String × DriverFactory D),
      (order.map fun p => protocolKey case p.1).Nodup →
      ((order.map (registryEntry case)).map Prod.fst).Nodup := by
    intro order hnodup
    rw [List.map_map]
    exact hnodup
  refine ⟨⟨?_, ?_⟩, ?_⟩
  · rintro ⟨r, hne, hnodup, -⟩
    exact ⟨hne, hnodup⟩
  · rintro ⟨hne, hnodup⟩
    exact ⟨⟨_, hdistinct _ hnodup⟩, hne, hnodup, rfl⟩
  rintro r ⟨hne, hnodup, hr⟩
  have hmem : ∀ p ∈ registrations, registryEntry case p ∈ r.factories := by
    intro p hp
    rw [hr]
    exact List.mem_map_of_mem hp
  constructor
  · intro order hperm
    have hkeys : (registrations.map fun p => protocolKey case p.1).Perm
        (order.map fun p => protocolKey case p.1) := hperm.symm.map _
    have hnodup' := hkeys.nodup hnodup
    have hfactories : (order.map (registryEntry case)).Perm r.factories := by
      rw [hr]
      exact hperm.map _
    refine ⟨⟨_, hdistinct order hnodup'⟩, ⟨?_, hnodup', rfl⟩,
      DriverRegistry.registeredProtocols_perm hfactories,
      DriverRegistry.createDriver_perm hfactories⟩
    intro p hp
    exact hne p (hperm.mem_iff.1 hp)
  · intro connection
    rcases DriverRegistry.createDriver_cases case connection r with
      ⟨hempty, -⟩ | ⟨-, hnew, hcreate⟩ | ⟨-, factory, hfactory, hcreate⟩
    · refine ⟨fun p hp hkey => ?_, fun hkey => absurd hempty hkey⟩
      exact absurd (hkey.trans hempty) (hne p hp)
    · refine ⟨fun p hp hkey => ?_, fun _ _ => hcreate⟩
      have hprotocol := DriverRegistry.mem_protocols (hmem p hp)
      rw [registryEntry, hkey] at hprotocol
      exact absurd hprotocol hnew
    · constructor
      · intro p hp hkey
        have hp' : (protocolKey case connection.protocol.text, p.2) ∈ r.factories := by
          rw [← hkey]
          exact hmem p hp
        have hsame : p.2 = factory := Option.some.inj
          ((DriverRegistry.lookup_factories hp').symm.trans
            (DriverRegistry.lookup_factories hfactory))
        rw [hcreate, hsame]
      · intro _ hnone
        rw [hr] at hfactory
        obtain ⟨p, hp, hentry⟩ := List.mem_map.1 hfactory
        rw [registryEntry, Prod.mk.injEq] at hentry
        exact absurd hentry.1 (hnone p hp)

example : ((buildDriverRegistry asciiCase [(" Mock ", fun _ => .ok true)]).toOption.map
    DriverRegistry.registeredProtocols) = some ["mock"] := by decide +kernel

end PlcGateway
