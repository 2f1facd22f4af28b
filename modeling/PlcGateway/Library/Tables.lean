/-
  Tables of rows under keys, as a relational store keeps them.

  * `mapRows` is a view of a table, with the same keys.
  * `upsertAll` is a batch of inserts that replace; `upsertAll_eq_ok_iff` says when it
    succeeds, and what the table holds afterwards.
  * `Every` is an invariant of the rows, such as a foreign key, and `Retained` relates a table
    to a later one that has lost no row.
-/
import PlcGateway.Library.Fallible
import Mathlib.Data.Finmap

namespace PlcGateway
namespace Tables

open Fallible

variable {κ α β γ ε : Type}

/-- At most one row under each key. -/
abbrev Table (κ β : Type) := Finmap fun _ : κ => β

/-! ## Views -/

theorem nodupKeys_map (f : β → γ) (t : Table κ β) :
    (t.entries.map fun p => (⟨p.1, f p.2⟩ : Sigma fun _ : κ => γ)).NodupKeys := by
  rw [← Multiset.nodup_keys, Multiset.keys, Multiset.map_map]
  exact t.nodupKeys.nodup_keys

/-- The table of the images of the rows. -/
def mapRows (f : β → γ) (t : Table κ β) : Table κ γ where
  entries := t.entries.map fun p => ⟨p.1, f p.2⟩
  nodupKeys := nodupKeys_map f t

variable [DecidableEq κ]

theorem lookup_mapRows (f : β → γ) (t : Table κ β) (k : κ) :
    (mapRows f t).lookup k = (t.lookup k).map f := by
  ext c
  rw [← Option.mem_def, Finmap.mem_lookup_iff, Option.map_eq_some_iff]
  show ⟨k, c⟩ ∈ t.entries.map (fun p => (⟨p.1, f p.2⟩ : Sigma fun _ : κ => γ)) ↔ _
  rw [Multiset.mem_map]
  constructor
  · rintro ⟨⟨k', b⟩, hb, heq⟩
    cases heq
    exact ⟨b, Finmap.mem_lookup_iff.2 hb, rfl⟩
  · rintro ⟨b, hb, rfl⟩
    exact ⟨⟨k, b⟩, Finmap.mem_lookup_iff.1 hb, rfl⟩

theorem mem_mapRows {f : β → γ} {t : Table κ β} {k : κ} : k ∈ mapRows f t ↔ k ∈ t := by
  rw [← Finmap.lookup_isSome, ← Finmap.lookup_isSome, lookup_mapRows, Option.isSome_map]

/-! ## Batches -/

/-- The rows are inserted in order; a later one replaces an earlier one. -/
def insertAll (rows : List (κ × β)) (t : Table κ β) : Table κ β :=
  rows.foldl (fun t r => t.insert r.1 r.2) t

@[simp] theorem insertAll_nil (t : Table κ β) : insertAll [] t = t := rfl

@[simp] theorem insertAll_cons (r : κ × β) (rows : List (κ × β)) (t : Table κ β) :
    insertAll (r :: rows) t = insertAll rows (t.insert r.1 r.2) := rfl

theorem lookup_insert_eq (t : Table κ β) (k k' : κ) (b : β) :
    (t.insert k' b).lookup k = if k = k' then some b else t.lookup k := by
  split_ifs with h
  · subst h
    exact Finmap.lookup_insert t
  · exact Finmap.lookup_insert_of_ne t h

/-- The last row of a batch under a key, or else the row of the table. -/
theorem lookup_insertAll (rows : List (κ × β)) (t : Table κ β) (k : κ) :
    (insertAll rows t).lookup k = (rows.reverse.lookup k).or (t.lookup k) := by
  induction rows generalizing t with
  | nil => rfl
  | cons r rows ih =>
    rw [insertAll_cons, ih, lookup_insert_eq, List.reverse_cons, List.lookup_append, Option.or_assoc]
    congr 1
    rw [List.lookup_cons]
    by_cases h : k = r.1
    · rw [if_pos h, h, beq_self_eq_true]
      rfl
    · rw [if_neg h, beq_false_of_ne h]
      rfl

theorem lookup_insertAll_of_notMem {rows : List (κ × β)} {k : κ} (h : k ∉ rows.map Prod.fst)
    (t : Table κ β) : (insertAll rows t).lookup k = t.lookup k := by
  induction rows generalizing t with
  | nil => rfl
  | cons r rows ih =>
    rw [List.map_cons, List.mem_cons, not_or] at h
    rw [insertAll_cons, ih h.2, Finmap.lookup_insert_of_ne t h.1]

/-- Under distinct keys every row of a batch is in the table. -/
theorem lookup_insertAll_of_mem {rows : List (κ × β)} (hnodup : (rows.map Prod.fst).Nodup)
    {r : κ × β} (hr : r ∈ rows) (t : Table κ β) : (insertAll rows t).lookup r.1 = some r.2 := by
  induction rows generalizing t with
  | nil => cases hr
  | cons s rows ih =>
    rw [List.map_cons, List.nodup_cons] at hnodup
    rcases List.mem_cons.1 hr with rfl | hr
    · rw [insertAll_cons, lookup_insertAll_of_notMem hnodup.1, Finmap.lookup_insert]
    · exact ih hnodup.2 hr _

theorem mem_insertAll {rows : List (κ × β)} {t : Table κ β} {k : κ} :
    k ∈ insertAll rows t ↔ k ∈ rows.map Prod.fst ∨ k ∈ t := by
  induction rows generalizing t with
  | nil => exact (or_iff_right List.not_mem_nil).symm
  | cons r rows ih =>
    rw [insertAll_cons, ih, Finmap.mem_insert, List.map_cons, List.mem_cons]
    tauto

/-- A batch a second time changes nothing. -/
theorem insertAll_idem (rows : List (κ × β)) (t : Table κ β) :
    insertAll rows (insertAll rows t) = insertAll rows t := by
  refine Finmap.ext_lookup fun k => ?_
  rw [lookup_insertAll rows (insertAll rows t), lookup_insertAll rows t, ← Option.or_assoc,
    Option.or_self]

/-- One upsert for each item: its values are bound, what they refer to is looked up, and the
    row is inserted or replaced. -/
def upsertAll (values : α → Except ε (κ × β)) (refers : β → Prop) [DecidablePred refers]
    (violated : ε) : List α → Table κ β → Except ε (Table κ β)
  | [], t => .ok t
  | x :: xs, t =>
    match values x with
    | .error e => .error e
    | .ok row =>
      if refers row.2 then upsertAll values refers violated xs (t.insert row.1 row.2)
      else .error violated

/-- **When a batch of upserts succeeds**: every row can be bound and refers to something. -/
theorem upsertAll_eq_ok_iff {values : α → Except ε (κ × β)} {refers : β → Prop}
    [DecidablePred refers] {violated : ε} {xs : List α} {t t' : Table κ β} :
    upsertAll values refers violated xs t = .ok t' ↔
      ∃ rows, List.Forall₂ (fun x row => values x = .ok row) xs rows ∧ (∀ r ∈ rows, refers r.2) ∧
        t' = insertAll rows t := by
  induction xs generalizing t with
  | nil =>
    constructor
    · intro h
      cases h
      exact ⟨[], .nil, fun r hr => absurd hr List.not_mem_nil, rfl⟩
    · rintro ⟨rows, hrows, -, rfl⟩
      cases hrows
      rfl
  | cons x xs ih =>
    rw [upsertAll]
    cases hx : values x with
    | error e =>
      constructor
      · intro h
        cases h
      · rintro ⟨rows, hrows, -⟩
        obtain ⟨hrow, -⟩ | ⟨hrow, -⟩ := hrows
        rw [hx] at hrow
        cases hrow
    | ok row =>
      simp only
      split_ifs with hrefers
      · rw [ih]
        constructor
        · rintro ⟨rows, hrows, hall, rfl⟩
          exact ⟨row :: rows, .cons hx hrows, List.forall_mem_cons.2 ⟨hrefers, hall⟩, rfl⟩
        · rintro ⟨rows, hrows, hall, rfl⟩
          cases hrows with
          | cons hrow hrows =>
            rw [hx] at hrow
            cases hrow
            exact ⟨_, hrows, (List.forall_mem_cons.1 hall).2, rfl⟩
      · constructor
        · intro h
          cases h
        · rintro ⟨rows, hrows, hall, -⟩
          cases hrows with
          | cons hrow hrows =>
            rw [hx] at hrow
            cases hrow
            exact absurd (List.forall_mem_cons.1 hall).1 hrefers

section
variable {values : α → Except ε (κ × β)} {refers refers' : β → Prop} [DecidablePred refers]
  [DecidablePred refers'] {violated : ε} {xs : List α} {t t' : Table κ β}

theorem exists_upsertAll_iff :
    (∃ t', upsertAll values refers violated xs t = .ok t') ↔
      ∀ x ∈ xs, ∃ row, values x = .ok row ∧ refers row.2 := by
  constructor
  · rintro ⟨t', h⟩ x hx
    obtain ⟨rows, hrows, hrefers, -⟩ := upsertAll_eq_ok_iff.1 h
    obtain ⟨row, hrow, hvalues⟩ := exists_of_mem_left hrows hx
    exact ⟨row, hvalues, hrefers row hrow⟩
  · intro h
    obtain ⟨rows, hrows⟩ := exists_mapM_eq_ok_iff.2 fun x hx => (h x hx).imp fun _ => And.left
    rw [mapM_eq_ok_iff] at hrows
    refine ⟨_, upsertAll_eq_ok_iff.2 ⟨rows, hrows, fun r hr => ?_, rfl⟩⟩
    obtain ⟨x, hx, hvalues⟩ := exists_of_mem_right hrows hr
    obtain ⟨row, hrow, hrefers⟩ := h x hx
    rw [hvalues] at hrow
    cases hrow
    exact hrefers

/-- A batch that has succeeded once succeeds again, and changes nothing. -/
theorem upsertAll_again (h : upsertAll values refers violated xs t = .ok t')
    (hrefers : ∀ row, refers row → refers' row) :
    upsertAll values refers' violated xs t' = .ok t' := by
  obtain ⟨rows, hrows, hall, rfl⟩ := upsertAll_eq_ok_iff.1 h
  exact upsertAll_eq_ok_iff.2
    ⟨rows, hrows, fun r hr => hrefers _ (hall r hr), (insertAll_idem rows t).symm⟩

variable {key : α → κ}

omit [DecidableEq κ] in
theorem map_fst_of_values (hkey : ∀ x row, values x = .ok row → row.1 = key x)
    {rows : List (κ × β)} (hrows : List.Forall₂ (fun x row => values x = .ok row) xs rows) :
    rows.map Prod.fst = xs.map key := by
  induction hrows with
  | nil => rfl
  | cons hrow _ ih => rw [List.map_cons, List.map_cons, hkey _ _ hrow, ih]

/-- Items with distinct keys all have their rows afterwards. -/
theorem lookup_upsertAll_of_mem (hkey : ∀ x row, values x = .ok row → row.1 = key x)
    (hnodup : (xs.map key).Nodup) (h : upsertAll values refers violated xs t = .ok t') {x : α}
    (hx : x ∈ xs) : ∃ row, values x = .ok row ∧ t'.lookup (key x) = some row.2 := by
  obtain ⟨rows, hrows, -, rfl⟩ := upsertAll_eq_ok_iff.1 h
  obtain ⟨row, hrow, hvalues⟩ := exists_of_mem_left hrows hx
  rw [← map_fst_of_values hkey hrows] at hnodup
  refine ⟨row, hvalues, ?_⟩
  rw [← hkey x row hvalues]
  exact lookup_insertAll_of_mem hnodup hrow t

theorem lookup_upsertAll_of_notMem (hkey : ∀ x row, values x = .ok row → row.1 = key x)
    (h : upsertAll values refers violated xs t = .ok t') {k : κ} (hk : k ∉ xs.map key) :
    t'.lookup k = t.lookup k := by
  obtain ⟨rows, hrows, -, rfl⟩ := upsertAll_eq_ok_iff.1 h
  rw [← map_fst_of_values hkey hrows] at hk
  exact lookup_insertAll_of_notMem hk t

theorem keys_subset_upsertAll (h : upsertAll values refers violated xs t = .ok t') :
    t.keys ⊆ t'.keys := by
  obtain ⟨rows, -, -, rfl⟩ := upsertAll_eq_ok_iff.1 h
  intro k hk
  exact Finmap.mem_keys.2 (mem_insertAll.2 (.inr (Finmap.mem_keys.1 hk)))

end

/-! ## Invariants of rows -/

/-- Every row of the table is in `P`. -/
def Every (P : β → Prop) (t : Table κ β) : Prop := ∀ k row, t.lookup k = some row → P row

section
variable {P Q : β → Prop} {t : Table κ β}

theorem every_empty (P : β → Prop) : Every P (∅ : Table κ β) := by
  intro k row h
  rw [Finmap.lookup_empty] at h
  cases h

theorem Every.insert (h : Every P t) {row : β} (hrow : P row) (k : κ) : Every P (t.insert k row) := by
  intro k' row' hlookup
  rw [lookup_insert_eq] at hlookup
  split_ifs at hlookup with hk
  · cases hlookup
    exact hrow
  · exact h k' row' hlookup

theorem Every.insertAll (h : Every P t) {rows : List (κ × β)} (hrows : ∀ r ∈ rows, P r.2) :
    Every P (insertAll rows t) := by
  induction rows generalizing t with
  | nil => exact h
  | cons r rows ih =>
    obtain ⟨hr, hrows⟩ := List.forall_mem_cons.1 hrows
    exact ih (h.insert hr r.1) hrows

/-- A foreign key survives a parent that gains rows. -/
theorem Every.mono (h : Every P t) (hPQ : ∀ row, P row → Q row) : Every Q t :=
  fun k row hlookup => hPQ row (h k row hlookup)

end

/-! ## Histories -/

/-- Every row is still there, up to `R`. -/
def Retained (R : β → β → Prop) (t t' : Table κ β) : Prop :=
  ∀ k row, t.lookup k = some row → ∃ row', t'.lookup k = some row' ∧ R row row'

section
variable {R : β → β → Prop} {t t' t'' : Table κ β}

theorem Retained.refl (hR : ∀ b, R b b) (t : Table κ β) : Retained R t t :=
  fun _ row h => ⟨row, h, hR row⟩

theorem Retained.trans (hR : ∀ {a b c}, R a b → R b c → R a c) (h : Retained R t t') (h' : Retained R t' t'') :
    Retained R t t'' := by
  intro k row hlookup
  obtain ⟨row', hlookup', hrow⟩ := h k row hlookup
  obtain ⟨row'', hlookup'', hrow'⟩ := h' k row' hlookup'
  exact ⟨row'', hlookup'', hR hrow hrow'⟩

/-- An insert keeps a table that has nothing else under its key. -/
theorem retained_insert (hR : ∀ b, R b b) {k : κ} {row : β}
    (h : ∀ old, t.lookup k = some old → R old row) : Retained R t (t.insert k row) := by
  intro k' old hold
  rw [lookup_insert_eq]
  split_ifs with hk
  · subst hk
    exact ⟨row, rfl, h old hold⟩
  · exact ⟨old, hold, hR old⟩

end

/-- A batch keeps a table whose rows it may replace. -/
theorem retained_insertAll {R : β → β → Prop} (hrefl : ∀ b, R b b) (htrans : ∀ {a b c}, R a b → R b c → R a c)
    {rows : List (κ × β)} (hrows : ∀ r ∈ rows, ∀ old, R old r.2) (t : Table κ β) :
    Retained R t (insertAll rows t) := by
  induction rows generalizing t with
  | nil => exact Retained.refl hrefl t
  | cons r rows ih =>
    obtain ⟨hr, hrows⟩ := List.forall_mem_cons.1 hrows
    exact (retained_insert hrefl fun old _ => hr old).trans htrans (ih hrows _)

end Tables
end PlcGateway
