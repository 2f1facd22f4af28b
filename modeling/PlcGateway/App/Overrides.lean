/-
  The overrides of an accepted configuration.

  A variable names the connections with its id (`Names`), and reaches the last one whose
  id in the file is the same in upper case (`Reaches`).  The overrides hit what they
  name, in whatever order they come, exactly if every field is `Settled`: there is one
  value that the variables that reach it hold, and one that names it.  Else ids are equal
  ignoring case or have space around them, or variables that name one field disagree
  (`overridesExact_of_apart`).
-/
import PlcGateway.App.Loaded

namespace PlcGateway

open Fallible

/-! ## What variables name, reach and hold -/

/-- The name of a variable that overrides a field of a connection. -/
def variableName (connectionId fieldName : String) : String :=
  envPrefix ++ "CONNECTIONS__" ++ connectionId ++ "__" ++ fieldName

/-- The variable names the field of the connections with this id, ignoring case. -/
def Names (b : Builtins) (id : String) (f : OverrideField) (v : Variable) : Prop :=
  ∃ connectionId fieldName, v.1 = variableName connectionId fieldName ∧
    b.upper connectionId = b.upper id ∧ b.lower fieldName = f.name

/-- The variable reaches the field of the connection at this index. -/
def Reaches (b : Builtins) (connections : List Json) (i : ℕ) (f : OverrideField) (v : Variable) :
    Prop :=
  ∃ connectionId fieldName, v.1 = variableName connectionId fieldName ∧
    byId b (b.upper connectionId) connections = some i ∧ b.lower fieldName = f.name

/-- A value as it is loaded. -/
def loadedValue : Json → Json
  | .str s => .str (strip s)
  | value => value

/-- The variable holds a value of the field. -/
def Holds (b : Builtins) (f : OverrideField) (v : Variable) (x : Json) : Prop :=
  ∃ value, coerceOverrideValue b f v.2 = .ok value ∧ x = loadedValue value

theorem ofName_eq_some_iff {name : String} {f : OverrideField} :
    OverrideField.ofName name = some f ↔ name = f.name := by
  constructor
  · intro h
    rw [OverrideField.ofName] at h
    split_ifs at h with h₁ h₂ h₃ <;> cases h <;> assumption
  · rintro rfl
    cases f <;> rfl

theorem OverrideField.name_injective : Function.Injective OverrideField.name := by
  intro f g h
  rw [← Option.some.injEq, ← ofName_eq_some_iff.2 h, ofName_eq_some_iff.2 rfl]

theorem toList_envPrefix_append : (envPrefix ++ "CONNECTIONS__").toList =
    envPrefix.toList ++ ("CONNECTIONS".toList ++ ['_', '_']) := by
  rw [String.toList_append]
  rfl

theorem toList_variableName (connectionId fieldName : String) :
    (variableName connectionId fieldName).toList = envPrefix.toList ++
      ("CONNECTIONS".toList ++ '_' :: '_' :: (connectionId.toList ++ '_' :: '_' :: fieldName.toList)) := by
  have hdunder : "__".toList = ['_', '_'] := rfl
  rw [variableName, String.toList_append, String.toList_append, String.toList_append,
    toList_envPrefix_append, hdunder]
  simp only [List.append_assoc, List.cons_append, List.nil_append]

section
variable {b : Builtins} {connections : List Json} {v : Variable}

theorem splitDunder_variable (r : List Char) :
    splitDunder ((envPrefix.toList ++ ("CONNECTIONS".toList ++ '_' :: '_' :: r)).drop
      envPrefix.toList.length) = "CONNECTIONS".toList :: splitDunder r := by
  rw [List.drop_left, splitDunder_append (by decide)]

/-- A variable with the prefix of the overrides. -/
theorem exists_of_prefix {key : List Char} (h : (envPrefix ++ "CONNECTIONS__").toList <+: key) :
    ∃ r, key = envPrefix.toList ++ ("CONNECTIONS".toList ++ '_' :: '_' :: r) := by
  obtain ⟨r, rfl⟩ := h
  refine ⟨r, ?_⟩
  rw [toList_envPrefix_append, List.append_assoc, List.append_assoc]
  rfl

/-- What an accepted variable is, and what it assigns. -/
theorem decodeOverride_cases {o : Option Assignment} (h : decodeOverride b connections v = .ok o) :
    (o = none ∧ ¬ (envPrefix ++ "CONNECTIONS__").toList <+: v.1.toList) ∨
      ∃ r x y a, v.1.toList = envPrefix.toList ++ ("CONNECTIONS".toList ++ '_' :: '_' :: r) ∧
        splitDunder r = [x, y] ∧ o = some a ∧
        byId b (b.upper (String.ofList x)) connections = some a.index ∧
        b.lower (String.ofList y) = a.field.name ∧ coerceOverrideValue b a.field v.2 = .ok a.value := by
  obtain ⟨key, value⟩ := v
  rw [decodeOverride] at h
  split_ifs at h with hprefix
  swap
  · cases h
    exact .inl ⟨rfl, hprefix⟩
  obtain ⟨r, hkey⟩ := exists_of_prefix hprefix
  rw [hkey, splitDunder_variable] at h
  split at h
  swap
  · cases h
  rename_i place connectionId fieldName hsplit
  rw [List.map_cons, List.cons.injEq] at hsplit
  obtain ⟨x, rest, hr, rfl, hrest⟩ := List.map_eq_cons_iff.1 hsplit.2
  obtain ⟨y, rest', rfl, rfl, hnil⟩ := List.map_eq_cons_iff.1 hrest
  rw [List.map_eq_nil_iff.1 hnil] at hr
  split at h
  · cases h
  rename_i index hindex
  split at h
  · cases h
  rename_i field hfield
  obtain ⟨y', hvalue, hsome⟩ := bind_eq_ok_iff.1 h
  cases hsome
  exact .inr ⟨r, x, y, _, hkey, hr, rfl, hindex, ofName_eq_some_iff.1 hfield, hvalue⟩

/-- **What an accepted variable assigns, it assigns to what it reaches.** -/
theorem decodeOverride_some {a : Assignment} (h : decodeOverride b connections v = .ok (some a)) :
    Reaches b connections a.index a.field v ∧ coerceOverrideValue b a.field v.2 = .ok a.value := by
  rcases decodeOverride_cases h with ⟨hnone, -⟩ | ⟨r, x, y, a', hkey, hr, hsome, hindex, hfield, hvalue⟩
  · cases hnone
  · cases hsome
    refine ⟨⟨String.ofList x, String.ofList y, ?_, hindex, hfield⟩, hvalue⟩
    have hx : (String.ofList x).toList = x := String.toList_ofList
    have hy : (String.ofList y).toList = y := String.toList_ofList
    rw [← String.toList_inj, hkey, toList_variableName, hx, hy, eq_of_splitDunder_pair hr]

/-- An accepted variable assigns to what it reaches. -/
theorem decodeOverride_of_reaches {o : Option Assignment} (h : decodeOverride b connections v = .ok o)
    {i : ℕ} {f : OverrideField} (hreaches : Reaches b connections i f v) :
    ∃ value, o = some ⟨i, f, value⟩ := by
  obtain ⟨connectionId, fieldName, hname, hreached, hnamed⟩ := hreaches
  have hvariable := (congrArg String.toList hname).trans (toList_variableName _ _)
  rcases decodeOverride_cases h with ⟨-, hprefix⟩ | ⟨r, x, y, a, hkey, hr, rfl, hindex, hfield, -⟩
  · refine absurd ?_ hprefix
    rw [hvariable, toList_envPrefix_append, List.prefix_append_right_inj, List.prefix_append_right_inj]
    exact List.prefix_append ['_', '_'] _
  · rw [hvariable, List.append_cancel_left_eq, List.append_cancel_left_eq, List.cons.injEq,
      List.cons.injEq] at hkey
    rw [← hkey.2.2] at hr
    obtain ⟨index, field, value⟩ := a
    rcases splitDunder_pair hr with ⟨hx, hy⟩ | hunderscore
    · rw [← hx, String.ofList_toList, hreached, Option.some.injEq] at hindex
      rw [← hy, String.ofList_toList, hnamed] at hfield
      exact ⟨value, by rw [hindex, OverrideField.name_injective hfield]⟩
    · -- no field begins with an underscore
      have hlower := b.lower_underscore (String.ofList y) (by rw [String.toList_ofList]; exact hunderscore)
      replace hlower : field.name.toList.head? = some '_' := hfield ▸ hlower
      cases field <;> cases hlower

end

/-! ## What the last assignment leaves -/

/-- The entry after the assignments. -/
def assigned (as : List Assignment) (entry : JsonDict) : JsonDict :=
  as.foldl (fun fields a => JsonDict.set a.field.name a.value fields) entry

/-- The last assignment to a field. -/
def lastTo (f : OverrideField) (as : List Assignment) : Option Assignment :=
  (as.filter (·.field = f)).getLast?

/-- What is loaded of a field after the last assignment to it. -/
def Left (p : Pydantic) (entry : JsonDict) (f : OverrideField) (x : Json) : Option Assignment → Prop
  | some a => x = loadedValue a.value
  | none => FileValue p entry f x

section
variable {as : List Assignment} {entry : JsonDict}

theorem foldl_assign (as : List Assignment) (entry : JsonDict) :
    as.foldl (fun c a => a.assign c) (.dict entry) = .dict (assigned as entry) := by
  induction as generalizing entry with
  | nil => rfl
  | cons a as ih => exact ih (JsonDict.set a.field.name a.value entry)

theorem exists_of_foldl_assign {connection : Json} {fields : JsonDict}
    (h : as.foldl (fun c a => a.assign c) connection = .dict fields) :
    ∃ entry, connection = .dict entry ∧ fields = assigned as entry := by
  induction as generalizing connection with
  | nil => exact ⟨fields, h, rfl⟩
  | cons a as ih =>
    obtain ⟨entry, hassign, rfl⟩ := ih h
    cases connection with
    | dict entry' =>
      cases hassign
      exact ⟨entry', rfl, rfl⟩
    | null | bool | int | float | str | list => cases hassign

theorem lookup_assigned (as : List Assignment) (entry : JsonDict) (f : OverrideField) :
    (assigned as entry).lookup f.name =
      (match lastTo f as with
        | some a => some a.value
        | none => entry.lookup f.name) := by
  induction as using List.reverseRecOn with
  | nil => rfl
  | append_singleton as a ih =>
    rw [assigned, List.foldl_append, List.foldl_cons, List.foldl_nil, JsonDict.lookup_set, lastTo,
      List.filter_append, List.filter_singleton]
    by_cases hf : a.field = f
    · rw [if_pos (congrArg _ hf.symm), decide_eq_true hf, cond_true, List.getLast?_concat]
    · have hname : f.name ≠ a.field.name := fun h => hf (OverrideField.name_injective h.symm)
      rw [if_neg hname, decide_eq_false hf, cond_false, List.append_nil]
      exact ih

theorem lookup_assigned_ne (as : List Assignment) (entry : JsonDict) {name : String}
    (hname : ∀ f : OverrideField, name ≠ f.name) :
    (assigned as entry).lookup name = entry.lookup name := by
  induction as generalizing entry with
  | nil => rfl
  | cons a as ih => exact (ih _).trans (JsonDict.lookup_set_ne (hname a.field) _)

theorem forbidExtra_assigned {p : Pydantic} :
    forbidExtra p connectionKeys (assigned as entry) = .ok () ↔
      forbidExtra p connectionKeys entry = .ok () := by
  rw [forbidExtra_eq_ok_iff, forbidExtra_eq_ok_iff]
  refine forall_congr' fun key => ?_
  by_cases hkey : ∃ f : OverrideField, key = f.name
  · obtain ⟨f, rfl⟩ := hkey
    have hmem : f.name ∈ connectionKeys := by cases f <;> decide
    exact iff_of_true (fun _ => hmem) fun _ => hmem
  · rw [lookup_assigned_ne as entry fun f h => hkey ⟨f, h⟩]

theorem keepsEntry_assigned {p : Pydantic} {c : ConnectionConfig} :
    KeepsEntry p (assigned as entry) c ↔ KeepsEntry p entry c := by
  have hlookup (name : String) (hname : ∀ f : OverrideField, name ≠ f.name) :=
    lookup_assigned_ne as entry hname
  have hid := hlookup "id" (by rintro (_ | _ | _) <;> decide)
  have hprotocol := hlookup "protocol" (by rintro (_ | _ | _) <;> decide)
  have hoptions := hlookup "protocol_options" (by rintro (_ | _ | _) <;> decide)
  constructor
  · rintro ⟨h₁, h₂, h₃⟩
    rw [requiredField, hid] at h₁
    rw [requiredField, hprotocol] at h₂
    rw [optionalField, hoptions] at h₃
    exact ⟨h₁, h₂, h₃⟩
  · rintro ⟨h₁, h₂, h₃⟩
    rw [requiredField, ← hid] at h₁
    rw [requiredField, ← hprotocol] at h₂
    rw [optionalField, ← hoptions] at h₃
    exact ⟨h₁, h₂, h₃⟩

theorem fileValue_congr {p : Pydantic} {entry entry' : JsonDict} {f : OverrideField}
    (h : entry.lookup f.name = entry'.lookup f.name) (x : Json) :
    FileValue p entry f x ↔ FileValue p entry' f x := by
  cases f with
  | endpoint => rw [FileValue, FileValue, requiredField, requiredField, ← OverrideField.name, h]
  | enabled => rw [FileValue, FileValue, optionalField, optionalField, ← OverrideField.name, h]
  | timeoutMs => rw [FileValue, FileValue, optionalField, optionalField, ← OverrideField.name, h]

theorem optionalField_of_lookup {α : Type} {default : α} {read : Json → Except String α} {name : String}
    {value : Json} (h : entry.lookup name = some value) {x : α} :
    optionalField default read entry name = .ok x ↔ read value = .ok x := by
  rw [optionalField, h]
  exact mapError_eq_ok_iff

/-- A value of a variable is loaded as it is held. -/
theorem fileValue_coerced {p : Pydantic} (hp : p.Lawful) {b : Builtins} {f : OverrideField}
    {text : String} {y : Json} (hy : coerceOverrideValue b f text = .ok y) {entry : JsonDict}
    (hentry : entry.lookup f.name = some y) (c : ConnectionConfig) :
    FileValue p entry f (c.field f) ↔ c.field f = loadedValue y := by
  cases f with
  | endpoint =>
    cases hy
    simp only [FileValue, requiredField_eq_ok_iff, ConnectionConfig.field, loadedValue, Json.str.injEq]
    constructor
    · rintro ⟨s, ⟨value, hvalue, hs⟩, hc⟩
      cases hentry.symm.trans hvalue
      obtain ⟨t, ht, rfl, -⟩ := (hp.str_iff _ _ _).1 hs
      cases ht
      rw [hc, strip_trim]
    · intro hc
      refine ⟨trim text, ⟨_, hentry, (hp.str_iff _ _ _).2 ⟨text, rfl, rfl, ?_⟩⟩, by rw [hc, strip_trim]⟩
      -- an endpoint is not empty
      refine Nat.one_le_iff_ne_zero.2 fun hlen => c.endpoint.ne ?_
      rw [hc, ← strip_trim, String.length_eq_zero_iff.1 hlen]
      rfl
  | enabled =>
    obtain ⟨v, rfl⟩ : ∃ v, y = .bool v := by
      rw [coerceOverrideValue] at hy
      split_ifs at hy <;> cases hy
      · exact ⟨true, rfl⟩
      · exact ⟨false, rfl⟩
    replace hentry : entry.lookup "enabled" = some (.bool v) := hentry
    simp only [FileValue, optionalField_of_lookup hentry, hp.bool_bool, Except.ok.injEq]
    constructor
    · rintro ⟨_, rfl, hc⟩
      exact hc
    · intro hc
      exact ⟨v, rfl, hc⟩
  | timeoutMs =>
    obtain ⟨n, rfl⟩ : ∃ n, y = .int n := by
      rw [coerceOverrideValue] at hy
      split at hy <;> cases hy
      exact ⟨_, rfl⟩
    replace hentry : entry.lookup "timeout_ms" = some (.int n) := hentry
    simp only [FileValue, optionalField_of_lookup hentry, hp.int_iff, ConnectionConfig.field,
      loadedValue, Json.int.injEq]
    constructor
    · rintro ⟨_, ⟨-, rfl⟩, hc⟩
      exact hc
    · intro hc
      refine ⟨n, ⟨?_, rfl⟩, hc⟩
      rw [← hc]
      exact Int.natCast_pos.2 c.timeout_pos

/-- **What is loaded from an entry after assignments.** -/
theorem loadedFrom_assigned_iff {p : Pydantic} (hp : p.Lawful) {b : Builtins}
    (has : ∀ a ∈ as, ∃ text, coerceOverrideValue b a.field text = .ok a.value) {connection : Json}
    {c : ConnectionConfig} :
    LoadedFrom p (as.foldl (fun c a => a.assign c) connection) c ↔
      ∃ entry, connection = .dict entry ∧ KeepsEntry p entry c ∧
        (∀ f, Left p entry f (c.field f) (lastTo f as)) ∧
        forbidExtra p connectionKeys entry = .ok () := by
  have hfield (entry : JsonDict) (f : OverrideField) :
      FileValue p (assigned as entry) f (c.field f) ↔ Left p entry f (c.field f) (lastTo f as) := by
    have hlookup := lookup_assigned as entry f
    cases hlast : lastTo f as with
    | none =>
      rw [hlast] at hlookup
      exact fileValue_congr hlookup _
    | some a =>
      rw [hlast] at hlookup
      have hmem := List.mem_of_getLast? hlast
      rw [List.mem_filter, decide_eq_true_eq] at hmem
      obtain ⟨text, htext⟩ := has a hmem.1
      rw [hmem.2] at htext
      exact fileValue_coerced hp htext hlookup c
  rw [loadedFrom_iff hp]
  constructor
  · rintro ⟨fields, hfields, hkeeps, hvalues, hextra⟩
    obtain ⟨entry, hentry, rfl⟩ := exists_of_foldl_assign hfields
    exact ⟨entry, hentry, keepsEntry_assigned.1 hkeeps, fun f => (hfield entry f).1 (hvalues f),
      forbidExtra_assigned.1 hextra⟩
  · rintro ⟨entry, rfl, hkeeps, hvalues, hextra⟩
    exact ⟨_, foldl_assign as entry, keepsEntry_assigned.2 hkeeps,
      fun f => (hfield entry f).2 (hvalues f), forbidExtra_assigned.2 hextra⟩

end

/-! ## What the variables assign -/

/-- The last assignment to a field of the connection at an index. -/
def lastAt (i : ℕ) (f : OverrideField) (as : List (Option Assignment)) : Option Assignment :=
  lastTo f (assignmentsTo i (as.filterMap id))

section
variable {b : Builtins} {connections : List Json} {environ : List Variable}
  {as : List (Option Assignment)} {i : ℕ} {f : OverrideField}

theorem holds_unique {v : Variable} {x y : Json} (hx : Holds b f v x) (hy : Holds b f v y) : x = y := by
  obtain ⟨value, hvalue, rfl⟩ := hx
  obtain ⟨value', hvalue', rfl⟩ := hy
  rw [hvalue, Except.ok.injEq] at hvalue'
  rw [hvalue']

theorem fileValue_unique {p : Pydantic} {entry : JsonDict} {x y : Json} (hx : FileValue p entry f x)
    (hy : FileValue p entry f y) : x = y := by
  cases f with
  | endpoint | enabled | timeoutMs =>
    obtain ⟨value, hvalue, rfl⟩ := hx
    obtain ⟨value', hvalue', rfl⟩ := hy
    rw [hvalue, Except.ok.injEq] at hvalue'
    rw [hvalue']

/-- What is assigned, a variable assigns that reaches it. -/
theorem exists_reaches (has : environ.mapM (decodeOverride b connections) = .ok as) {a : Assignment}
    (ha : a ∈ as.filterMap id) :
    ∃ v ∈ environ, Reaches b connections a.index a.field v ∧
      coerceOverrideValue b a.field v.2 = .ok a.value := by
  obtain ⟨o, ho, hsome⟩ := List.mem_filterMap.1 ha
  cases hsome
  obtain ⟨v, hv, hdecode⟩ := exists_of_mem_right (mapM_eq_ok_iff.1 has) ho
  exact ⟨v, hv, decodeOverride_some hdecode⟩

theorem holds_of_lastAt (has : environ.mapM (decodeOverride b connections) = .ok as) {a : Assignment}
    (ha : lastAt i f as = some a) :
    ∃ v ∈ environ, Reaches b connections i f v ∧ Holds b f v (loadedValue a.value) := by
  have hmem := List.mem_of_getLast? ha
  simp only [assignmentsTo, List.mem_filter, decide_eq_true_eq] at hmem
  obtain ⟨⟨hmem, rfl⟩, rfl⟩ := hmem
  obtain ⟨v, hv, hreaches, hvalue⟩ := exists_reaches has hmem
  exact ⟨v, hv, hreaches, _, hvalue, rfl⟩

theorem lastAt_eq_none_iff (has : environ.mapM (decodeOverride b connections) = .ok as) :
    lastAt i f as = none ↔ ∀ v ∈ environ, ¬ Reaches b connections i f v := by
  constructor
  · intro hnone v hv hreaches
    obtain ⟨o, ho, hdecode⟩ := exists_of_mem_left (mapM_eq_ok_iff.1 has) hv
    obtain ⟨value, rfl⟩ := decodeOverride_of_reaches hdecode hreaches
    rw [lastAt, lastTo, List.getLast?_eq_none_iff, List.filter_eq_nil_iff] at hnone
    refine hnone ⟨i, f, value⟩ (List.mem_filter.2 ⟨List.mem_filterMap.2 ⟨_, ho, rfl⟩, ?_⟩) ?_
    · exact decide_eq_true rfl
    · exact decide_eq_true rfl
  · intro hnone
    cases hlast : lastAt i f as with
    | none => rfl
    | some a =>
      obtain ⟨v, hv, hreaches, -⟩ := holds_of_lastAt has hlast
      exact absurd hreaches (hnone v hv)

/-- **The last variable that reaches a field has its way.** -/
theorem lastAt_concat {v : Variable}
    (has : (environ ++ [v]).mapM (decodeOverride b connections) = .ok as)
    (hreaches : Reaches b connections i f v) :
    ∃ a, lastAt i f as = some a ∧ Holds b f v (loadedValue a.value) := by
  rw [List.mapM_append, bind_eq_ok_iff] at has
  obtain ⟨before, -, has⟩ := has
  obtain ⟨_, hlast, hconcat⟩ := bind_eq_ok_iff.1 has
  cases hconcat
  rw [List.mapM_cons, List.mapM_nil] at hlast
  obtain ⟨o, ho, hlast⟩ := bind_eq_ok_iff.1 hlast
  cases hlast
  obtain ⟨value, rfl⟩ := decodeOverride_of_reaches ho hreaches
  refine ⟨⟨i, f, value⟩, ?_, value, (decodeOverride_some ho).2, rfl⟩
  rw [lastAt, lastTo, assignmentsTo, List.filterMap_append, List.filter_append, List.filter_append]
  simp

end

/-- What a connection is loaded from, by its index. -/
theorem loadedFrom_getElem_iff {p : Pydantic} (hp : p.Lawful) {b : Builtins} {connections : List Json}
    {environ : List Variable} {as : List (Option Assignment)}
    (has : environ.mapM (decodeOverride b connections) = .ok as) {i : ℕ} {connection : Json}
    (hconnection : connections[i]? = some connection) {c : ConnectionConfig} :
    (∀ item, ((as.filterMap id).foldl (fun cs a => a.apply cs) connections)[i]? = some item →
      LoadedFrom p item c) ↔
      ∃ entry, connection = .dict entry ∧ KeepsEntry p entry c ∧
        (∀ f, Left p entry f (c.field f) (lastAt i f as)) ∧
        forbidExtra p connectionKeys entry = .ok () := by
  have hcoerced : ∀ a ∈ assignmentsTo i (as.filterMap id), ∃ text,
      coerceOverrideValue b a.field text = .ok a.value := by
    intro a ha
    obtain ⟨v, -, -, hvalue⟩ := exists_reaches has (List.mem_filter.1 ha).1
    exact ⟨v.2, hvalue⟩
  rw [getElem_foldl_apply, hconnection, Option.map_some]
  constructor
  · intro h
    exact (loadedFrom_assigned_iff hp hcoerced).1 (h _ rfl)
  · rintro h _ ⟨⟩
    exact (loadedFrom_assigned_iff hp hcoerced).2 h

/-! ## Exact overrides -/

/-- The value that a variable that names the field holds; of the file, if none names it. -/
def AsNamed (p : Pydantic) (b : Builtins) (environ : List Variable) (entry : JsonDict) (id : String)
    (f : OverrideField) (x : Json) : Prop :=
  ((∃ v ∈ environ, Names b id f v) → ∃ v ∈ environ, Names b id f v ∧ Holds b f v x) ∧
    ((∀ v ∈ environ, ¬ Names b id f v) → FileValue p entry f x)

/-- One value is held by all variables that reach the field, or is that of the file if none
    reaches it, and it is the value as named. -/
def Settled (p : Pydantic) (b : Builtins) (environ : List Variable) (connections : List Json) (i : ℕ)
    (entry : JsonDict) (id : String) (f : OverrideField) : Prop :=
  ∃ x, (∀ v ∈ environ, Reaches b connections i f v → Holds b f v x) ∧
    ((∀ v ∈ environ, ¬ Reaches b connections i f v) → FileValue p entry f x) ∧
    AsNamed p b environ entry id f x

/-- The overrides hit what they name, everything else is as in the file, and the order of
    the variables does not matter. -/
structure OverridesExact (p : Pydantic) (b : Builtins) (file : ConfigFile) (environ : List Variable)
    (raw : JsonDict) (connections : List Json) (config : GatewayConfig) : Prop where
  connections : List.Forall₂ (fun item c => ∃ entry, item = .dict entry ∧ KeepsEntry p entry c ∧
    ∀ f, AsNamed p b environ entry c.id.text f (c.field f)) connections config.connections
  tagGroups : ∃ groups, modelsField p (TagGroupConfigModel.validate p) raw "tag_groups" = .ok groups ∧
    List.Forall₂ (fun m g => m.toDomain = .ok g) groups config.tagGroups
  tags : ∃ tags, modelsField p (TagConfigModel.validate p) raw "tags" = .ok tags ∧
    List.Forall₂ (fun m t => m.toDomain = .ok t) tags config.tags
  orders : ∀ environ', environ'.Perm environ → loadGatewayConfig p b file environ' = .ok config

section
variable {p : Pydantic} {b : Builtins} {environ environ' : List Variable} {connections : List Json}
  {as as' : List (Option Assignment)} {i : ℕ} {f : OverrideField} {entry : JsonDict}

theorem KeepsEntry.text_id (hp : p.Lawful) {c : ConnectionConfig} (h : KeepsEntry p entry c) :
    ∃ t, entryId (.dict entry) = some t ∧ c.id.text = strip t := by
  obtain ⟨s, hs, hc⟩ := h.id
  obtain ⟨value, hvalue, hstr⟩ := requiredField_eq_ok_iff.1 hs
  obtain ⟨t, rfl, rfl, -⟩ := (hp.str_iff _ _ _).1 hstr
  refine ⟨t, ?_, by rw [hc, strip_trim]⟩
  rw [entryId, hvalue]

/-- What is left is the settled value, whatever the order. -/
theorem Settled.eq_of_left (hperm : environ'.Perm environ)
    (has : environ'.mapM (decodeOverride b connections) = .ok as) {x y : Json}
    (hreaching : ∀ v ∈ environ, Reaches b connections i f v → Holds b f v x)
    (hfile : (∀ v ∈ environ, ¬ Reaches b connections i f v) → FileValue p entry f x)
    (hy : Left p entry f y (lastAt i f as)) : y = x := by
  cases hlast : lastAt i f as with
  | none =>
    rw [hlast] at hy
    rw [lastAt_eq_none_iff has] at hlast
    exact fileValue_unique hy (hfile fun v hv => hlast v (hperm.mem_iff.2 hv))
  | some a =>
    rw [hlast] at hy
    obtain ⟨v, hv, hreaches, hholds⟩ := holds_of_lastAt has hlast
    rw [hy]
    exact holds_unique hholds (hreaching v (hperm.mem_iff.1 hv) hreaches)

/-- The settled value is left, whatever the order. -/
theorem Settled.left (hperm : environ'.Perm environ)
    (has : environ'.mapM (decodeOverride b connections) = .ok as) {x : Json}
    (hreaching : ∀ v ∈ environ, Reaches b connections i f v → Holds b f v x)
    (hfile : (∀ v ∈ environ, ¬ Reaches b connections i f v) → FileValue p entry f x) :
    Left p entry f x (lastAt i f as) := by
  cases hlast : lastAt i f as with
  | none =>
    rw [lastAt_eq_none_iff has] at hlast
    exact hfile fun v hv => hlast v (hperm.mem_iff.2 hv)
  | some a =>
    obtain ⟨v, hv, hreaches, hholds⟩ := holds_of_lastAt has hlast
    exact holds_unique (hreaching v (hperm.mem_iff.1 hv) hreaches) hholds

end

section
variable {p : Pydantic} {b : Builtins} {file : ConfigFile} {environ environ' : List Variable}
  {config : GatewayConfig} {raw : JsonDict} {connections : List Json}

/-- **What is loaded, connection by connection.** -/
theorem load_eq_ok_iff_left (hp : p.Lawful) (hraw : file.content = .json (.dict raw))
    (hconnections : raw.lookup "connections" = some (.list connections)) :
    loadGatewayConfig p b file environ = .ok config ↔
      b.lower file.suffix = ".json" ∧ LoadedBeside p raw connections config ∧
        ∃ as, environ.mapM (decodeOverride b connections) = .ok as ∧
          connections.length = config.connections.length ∧
          ∀ (i : ℕ) connection c, connections[i]? = some connection → config.connections[i]? = some c →
            ∃ entry, connection = .dict entry ∧ KeepsEntry p entry c ∧
              (∀ f, Left p entry f (c.field f) (lastAt i f as)) ∧
              forbidExtra p connectionKeys entry = .ok () := by
  rw [load_eq_ok_iff_loaded hp hraw hconnections]
  refine and_congr_right fun _ => and_congr_right fun _ => exists_congr fun as =>
    and_congr_right fun has => ?_
  rw [forall₂_iff_getElem, length_foldl_apply]
  refine and_congr_right fun _ => ⟨fun h i connection c hconnection hc => ?_, fun h i item c hitem hc => ?_⟩
  · exact (loadedFrom_getElem_iff hp has hconnection).1 fun item hitem => h i item c hitem hc
  · obtain ⟨connection, hconnection, -⟩ := Option.map_eq_some_iff.1
      ((getElem_foldl_apply _ _ _).symm.trans hitem)
    exact (loadedFrom_getElem_iff hp has hconnection).2 (h i connection c hconnection hc) item hitem

/-- What is loaded from an entry of the file. -/
theorem exists_left (hp : p.Lawful) (hraw : file.content = .json (.dict raw))
    (hconnections : raw.lookup "connections" = some (.list connections))
    (hload : loadGatewayConfig p b file environ = .ok config) {i : ℕ} {entry : JsonDict}
    (hentry : connections[i]? = some (.dict entry)) :
    ∃ as c, environ.mapM (decodeOverride b connections) = .ok as ∧
      config.connections[i]? = some c ∧ KeepsEntry p entry c ∧
        ∀ f, Left p entry f (c.field f) (lastAt i f as) := by
  obtain ⟨-, -, as, has, hlength, hall⟩ := (load_eq_ok_iff_left hp hraw hconnections).1 hload
  have hi : i < config.connections.length := hlength ▸ (List.getElem?_eq_some_iff.1 hentry).1
  have hc := List.getElem?_eq_getElem hi
  obtain ⟨_, hdict, hkeeps, hleft, -⟩ := hall i _ _ hentry hc
  cases hdict
  exact ⟨as, _, has, hc, hkeeps, hleft⟩

/-- In some order, a variable comes last. -/
theorem holds_of_orders (hp : p.Lawful) (hraw : file.content = .json (.dict raw))
    (hconnections : raw.lookup "connections" = some (.list connections))
    (horders : ∀ environ', environ'.Perm environ → loadGatewayConfig p b file environ' = .ok config)
    {v : Variable} (hv : v ∈ environ) {i : ℕ} {f : OverrideField} (hreaches : Reaches b connections i f v)
    {connection : Json} (hconnection : connections[i]? = some connection) {c : ConnectionConfig}
    (hc : config.connections[i]? = some c) : Holds b f v (c.field f) := by
  have hperm : (environ.erase v ++ [v]).Perm environ :=
    (List.perm_append_singleton v _).trans (List.perm_cons_erase hv).symm
  obtain ⟨-, -, as, has, -, hall⟩ :=
    (load_eq_ok_iff_left hp hraw hconnections).1 (horders _ hperm)
  obtain ⟨entry, -, -, hleft, -⟩ := hall i connection c hconnection hc
  obtain ⟨a, ha, hholds⟩ := lastAt_concat has hreaches
  have hfield := hleft f
  rw [ha] at hfield
  rw [hfield]
  exact hholds

/-- If every field is settled, the overrides hit what they name, in any order. -/
theorem overridesExact_of_settled (hp : p.Lawful) (hraw : file.content = .json (.dict raw))
    (hconnections : raw.lookup "connections" = some (.list connections))
    (hload : loadGatewayConfig p b file environ = .ok config)
    (hsettled : ∀ (i : ℕ) entry id, connections[i]? = some (.dict entry) →
      entryId (.dict entry) = some id → ∀ f, Settled p b environ connections i entry (strip id) f) :
    OverridesExact p b file environ raw connections config := by
  obtain ⟨hsuffix, hbeside, as, has, hlength, hall⟩ :=
    (load_eq_ok_iff_left hp hraw hconnections).1 hload
  have hentry {i : ℕ} {connection : Json} {c : ConnectionConfig}
      (hconnection : connections[i]? = some connection) (hc : config.connections[i]? = some c) :
      ∃ entry id, connection = .dict entry ∧ KeepsEntry p entry c ∧
        forbidExtra p connectionKeys entry = .ok () ∧ c.id.text = strip id ∧
        (∀ f, Left p entry f (c.field f) (lastAt i f as)) ∧
        ∀ f, Settled p b environ connections i entry (strip id) f := by
    obtain ⟨entry, rfl, hkeeps, hleft, hextra⟩ := hall i connection c hconnection hc
    obtain ⟨t, ht, htext⟩ := hkeeps.text_id hp
    exact ⟨entry, t, rfl, hkeeps, hextra, htext, hleft, hsettled i entry t hconnection ht⟩
  obtain ⟨-, -, groups, tags, hgroups, htags, hgs, hts, -⟩ := id hbeside
  refine ⟨forall₂_iff_getElem.2 ⟨hlength, fun i connection c hconnection hc => ?_⟩,
    ⟨groups, hgroups, hgs⟩, ⟨tags, htags, hts⟩, fun environ' hperm => ?_⟩
  · obtain ⟨entry, t, rfl, hkeeps, -, htext, hleft, hfields⟩ := hentry hconnection hc
    refine ⟨entry, rfl, hkeeps, fun f => ?_⟩
    obtain ⟨x, hreaching, hfile, hnamed⟩ := hfields f
    rwa [htext, Settled.eq_of_left (List.Perm.refl _) has hreaching hfile (hleft f)]
  · obtain ⟨as', has'⟩ : ∃ as', environ'.mapM (decodeOverride b connections) = .ok as' :=
      exists_mapM_eq_ok_iff.2 fun v hv =>
        exists_mapM_eq_ok_iff.1 ⟨as, has⟩ v (hperm.mem_iff.1 hv)
    refine (load_eq_ok_iff_left hp hraw hconnections).2
      ⟨hsuffix, hbeside, as', has', hlength, fun i connection c hconnection hc => ?_⟩
    obtain ⟨entry, t, rfl, hkeeps, hextra, -, hleft, hfields⟩ := hentry hconnection hc
    refine ⟨entry, rfl, hkeeps, fun f => ?_, hextra⟩
    obtain ⟨x, hreaching, hfile, -⟩ := hfields f
    rw [Settled.eq_of_left (List.Perm.refl _) has hreaching hfile (hleft f)]
    exact Settled.left hperm has' hreaching hfile

/-- **Overrides of an accepted configuration are exact precisely if every field of every
    connection is settled.** -/
theorem overrides_exact_iff (hp : p.Lawful) (hraw : file.content = .json (.dict raw))
    (hconnections : raw.lookup "connections" = some (.list connections))
    (hload : loadGatewayConfig p b file environ = .ok config) :
    OverridesExact p b file environ raw connections config ↔
      ∀ (i : ℕ) entry id, connections[i]? = some (.dict entry) → entryId (.dict entry) = some id →
        ∀ f, Settled p b environ connections i entry (strip id) f := by
  refine ⟨fun hexact i entry id hentry hid f => ?_,
    overridesExact_of_settled hp hraw hconnections hload⟩
  obtain ⟨as, c, has, hc, hkeeps, hleft⟩ := exists_left hp hraw hconnections hload hentry
  obtain ⟨_, hdict, -, hnamed⟩ := (forall₂_iff_getElem.1 hexact.connections).2 i _ c hentry hc
  cases hdict
  obtain ⟨t, ht, htext⟩ := hkeeps.text_id hp
  cases ht.symm.trans hid
  refine ⟨c.field f, fun v hv hreaches => ?_, fun hnone => ?_, htext ▸ hnamed f⟩
  · exact holds_of_orders hp hraw hconnections hexact.orders hv hreaches hentry hc
  · have hfield := hleft f
    rwa [(lastAt_eq_none_iff has).2 hnone] at hfield

end

/-- Disables the connection `a`. -/
def disableA : Variable := ("PLC_GATEWAY_CONNECTIONS__A__ENABLED", "false")

theorem overrides_exact_iff_two :
    ∃ config, loadGatewayConfig strictPydantic asciiBuiltins (exampleFile ["a", "b"]) [disableA] =
        .ok config ∧
      (OverridesExact strictPydantic asciiBuiltins (exampleFile ["a", "b"]) [disableA]
          (exampleRaw ["a", "b"]) (["a", "b"].map connectionEntry) config ↔
        ∀ (i : ℕ) entry id, (["a", "b"].map connectionEntry)[i]? = some (.dict entry) →
          entryId (.dict entry) = some id → ∀ f, Settled strictPydantic asciiBuiltins [disableA]
            (["a", "b"].map connectionEntry) i entry (strip id) f) := by
  have haccepted : (loadGatewayConfig strictPydantic asciiBuiltins (exampleFile ["a", "b"])
      [disableA]).toOption.isSome := by decide +kernel
  cases hload : loadGatewayConfig strictPydantic asciiBuiltins (exampleFile ["a", "b"]) [disableA] with
  | error e =>
    rw [hload] at haccepted
    cases haccepted
  | ok config => exact ⟨config, rfl, overrides_exact_iff strictPydantic_lawful rfl rfl hload⟩

/-- Of two connections whose ids differ in case, only the last one is overridden, also by a
    variable with the id of the first one. -/
theorem first_of_two_cases_missed :
    ∃ config, loadGatewayConfig strictPydantic asciiBuiltins (exampleFile ["A", "a"]) [disableA] =
        .ok config ∧
      config.connections.map (fun c => (c.id.text, c.enabled)) = [("A", true), ("a", false)] ∧
      ¬ OverridesExact strictPydantic asciiBuiltins (exampleFile ["A", "a"]) [disableA]
        (exampleRaw ["A", "a"]) (["A", "a"].map connectionEntry) config := by
  have henabled : (loadGatewayConfig strictPydantic asciiBuiltins (exampleFile ["A", "a"])
      [disableA]).toOption.map (fun config => config.connections.map fun c => (c.id.text, c.enabled)) =
        some [("A", true), ("a", false)] := by
    decide +kernel
  cases hload : loadGatewayConfig strictPydantic asciiBuiltins (exampleFile ["A", "a"]) [disableA] with
  | error e =>
    rw [hload] at henabled
    cases henabled
  | ok config =>
    rw [hload] at henabled
    have hconnections : config.connections.map (fun c => (c.id.text, c.enabled)) =
        [("A", true), ("a", false)] := Option.some.inj henabled
    refine ⟨config, rfl, hconnections, fun hexact => ?_⟩
    obtain ⟨c, cs, hc, hfirst, -⟩ := List.map_eq_cons_iff.1 hconnections
    rw [Prod.mk.injEq] at hfirst
    have hall := hexact.connections
    rw [hc] at hall
    obtain ⟨entry, -, -, hnamed⟩ := (List.forall₂_cons.1 hall).1
    have hnames : Names asciiBuiltins c.id.text .enabled disableA := by
      rw [hfirst.1]
      exact ⟨"A", "ENABLED", rfl, rfl, by decide⟩
    obtain ⟨v, hv, -, hholds⟩ := (hnamed .enabled).1 ⟨_, List.mem_singleton.2 rfl, hnames⟩
    rw [List.mem_singleton.1 hv] at hholds
    have hfalse : Holds asciiBuiltins .enabled disableA (.bool false) := by
      refine ⟨.bool false, ?_, rfl⟩
      rw [coerceOverrideValue, if_neg (by decide +kernel), if_pos (by decide +kernel)]
      rfl
    have hfield := holds_unique hfalse hholds
    rw [ConnectionConfig.field, hfirst.2] at hfield
    cases hfield

/-! ## Ids that are apart -/

section
variable {b : Builtins} {connections : List Json} {i : ℕ} {f : OverrideField}

theorem connectionKey_of_entryId {entry : JsonDict} {id : String}
    (h : entryId (.dict entry) = some id) : connectionKey b (.dict entry) = some (b.upper id) := by
  rw [entryId] at h
  rw [connectionKey]
  cases hvalue : entry.lookup "id" with
  | none =>
    rw [hvalue] at h
    cases h
  | some value =>
    rw [hvalue] at h
    cases value with
    | str s =>
      cases h
      exact congrArg _ (congrArg _ (b.str_str _))
    | null | bool | int | float | list | dict => cases h

theorem key_of_byId {key : String} (h : byId b key connections = some i) :
    (connections.map (connectionKey b))[i]? = some (some key) := by
  induction connections generalizing i with
  | nil => cases h
  | cons connection connections ih =>
    rw [byId] at h
    cases hlast : byId b key connections with
    | some k =>
      rw [hlast] at h
      cases h
      exact ih hlast
    | none =>
      rw [hlast] at h
      simp only at h
      split_ifs at h with hkey
      cases h
      exact congrArg some hkey

theorem exists_byId {key : String} (h : some key ∈ connections.map (connectionKey b)) :
    ∃ i, byId b key connections = some i := by
  induction connections with
  | nil => cases h
  | cons connection connections ih =>
    rw [byId]
    cases hlast : byId b key connections with
    | some k => exact ⟨_, rfl⟩
    | none =>
      rcases List.mem_cons.1 h with hkey | h
      · exact ⟨0, if_pos hkey.symm⟩
      · obtain ⟨k, hk⟩ := ih h
        rw [hlast] at hk
        cases hk

/-- If no two keys are equal, a variable reaches what it names by the id in the file. -/
theorem reaches_iff_names (hapart : (connections.map (connectionKey b)).Nodup) {entry : JsonDict}
    {id : String} (hentry : connections[i]? = some (.dict entry))
    (hid : entryId (.dict entry) = some id) (v : Variable) :
    Reaches b connections i f v ↔ Names b id f v := by
  have hkey : (connections.map (connectionKey b))[i]? = some (some (b.upper id)) := by
    rw [List.getElem?_map, hentry]
    exact congrArg some (connectionKey_of_entryId hid)
  refine exists_congr fun connectionId => exists_congr fun fieldName =>
    and_congr_right fun _ => and_congr_left fun _ => ⟨fun h => ?_, fun h => ?_⟩
  · have hreached := key_of_byId h
    rw [hkey] at hreached
    exact (Option.some.inj (Option.some.inj hreached)).symm
  · obtain ⟨j, hj⟩ := exists_byId (List.mem_of_getElem? hkey)
    have hi := (List.getElem?_eq_some_iff.1 hkey).1
    rw [h, hj, (List.getElem?_inj hi hapart).1 (hkey.trans (key_of_byId hj).symm)]

/-- **Overrides are exact** if the ids in the file have no space around them, none are equal
    ignoring case, and the variables that name one field hold the same value. -/
theorem overridesExact_of_apart {p : Pydantic} {file : ConfigFile} {environ : List Variable}
    {config : GatewayConfig} {raw : JsonDict} (hp : p.Lawful)
    (hraw : file.content = .json (.dict raw))
    (hconnections : raw.lookup "connections" = some (.list connections))
    (hload : loadGatewayConfig p b file environ = .ok config)
    (hstrip : ∀ connection ∈ connections, ∀ id, entryId connection = some id → strip id = id)
    (hapart : (connections.map (connectionKey b)).Nodup)
    (hagree : ∀ v ∈ environ, ∀ v' ∈ environ, ∀ id f x, Names b id f v → Names b id f v' →
      Holds b f v x → Holds b f v' x) :
    OverridesExact p b file environ raw connections config := by
  refine overridesExact_of_settled hp hraw hconnections hload fun i entry id hentry hid f => ?_
  obtain ⟨as, c, has, -, -, hleft⟩ := exists_left hp hraw hconnections hload hentry
  have hfield := hleft f
  have hnames (v : Variable) : Reaches b connections i f v ↔ Names b (strip id) f v := by
    rw [hstrip _ (List.mem_of_getElem? hentry) id hid]
    exact reaches_iff_names hapart hentry hid v
  have hholds : ∀ v ∈ environ, Reaches b connections i f v → Holds b f v (c.field f) := by
    intro v hv hreaches
    cases hlast : lastAt i f as with
    | none => exact absurd hreaches ((lastAt_eq_none_iff has).1 hlast v hv)
    | some a =>
      rw [hlast] at hfield
      obtain ⟨v', hv', hreaches', hholds'⟩ := holds_of_lastAt has hlast
      rw [hfield]
      exact hagree v' hv' v hv _ f _ ((hnames v').1 hreaches') ((hnames v).1 hreaches) hholds'
  have hfile : (∀ v ∈ environ, ¬ Reaches b connections i f v) → FileValue p entry f (c.field f) := by
    intro hnone
    rwa [(lastAt_eq_none_iff has).2 hnone] at hfield
  refine ⟨c.field f, hholds, hfile, ?_, fun hnone => hfile fun v hv hreaches => ?_⟩
  · rintro ⟨v, hv, hnamed⟩
    exact ⟨v, hv, hnamed, hholds v hv ((hnames v).2 hnamed)⟩
  · exact hnone v hv ((hnames v).1 hreaches)

end

end PlcGateway
