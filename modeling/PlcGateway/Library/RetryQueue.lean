/-
  A bounded retry queue.

  The queue is a finite map: under each key it has an item, the number of its
  retries, the instant of the next one and the instant of its creation.  Items are
  appended when all of them fit, and entries are removed or postponed by their
  keys; those that are due are taken in the order of their creation.
-/
import Mathlib.Data.Finset.Sort
import Mathlib.Data.Prod.Lex

namespace RetryQueue

open Classical

/-- What the queue has under a key. -/
structure Entry (α τ : Type) where
  item : α
  retryCount : ℕ
  nextRetry : τ
  created : τ

/-- An item that has just been added. -/
def Entry.new {α τ : Type} (now : τ) (item : α) : Entry α τ := ⟨item, 0, now, now⟩

/-- An entry with one more retry, the next one at `next`. -/
def Entry.postpone {α τ : Type} (next : τ) (e : Entry α τ) : Entry α τ :=
  { e with retryCount := e.retryCount + 1, nextRetry := next }

/-- A finite map from keys to entries. -/
@[ext] structure Queue (κ α τ : Type) where
  entries : Finset (κ × Entry α τ)
  functional : ∀ p ∈ entries, ∀ r ∈ entries, p.1 = r.1 → p = r

namespace Queue
variable {κ α τ : Type}

def empty : Queue κ α τ := ⟨∅, nofun⟩

/-- The queue has an entry under the key. -/
def Mem (q : Queue κ α τ) (k : κ) : Prop := ∃ p ∈ q.entries, p.1 = k

/-- The items under keys that the queue does not have. -/
noncomputable def fresh (items : List (κ × α)) (q : Queue κ α τ) : List (κ × α) :=
  items.filter fun p => ¬ q.Mem p.1

/-- The new items fit, and no two of them have the same key. -/
def Accepts (capacity : ℕ) (items : List (κ × α)) (q : Queue κ α τ) : Prop :=
  q.entries.card + (q.fresh items).length ≤ capacity ∧ ((q.fresh items).map Prod.fst).Nodup

theorem not_mem_of_fresh {items : List (κ × α)} {q : Queue κ α τ} {x : κ × α} (h : x ∈ q.fresh items)
    {p : κ × Entry α τ} (hp : p ∈ q.entries) : p.1 ≠ x.1 := fun hk =>
  of_decide_eq_true (List.mem_filter.1 h).2 ⟨p, hp, hk⟩

/-- Add the new items, if the queue accepts them. -/
noncomputable def append (capacity : ℕ) (now : τ) (items : List (κ × α)) (q : Queue κ α τ) :
    Queue κ α τ :=
  if h : q.Accepts capacity items then {
    entries := q.entries ∪ ((q.fresh items).map (Prod.map id (Entry.new now))).toFinset
    functional := by
      intro p hp r hr hk
      rw [Finset.mem_union, List.mem_toFinset, List.mem_map] at hp hr
      rcases hp with hp | ⟨x, hx, rfl⟩ <;> rcases hr with hr | ⟨y, hy, rfl⟩
      · exact q.functional p hp r hr hk
      · exact absurd hk (not_mem_of_fresh hy hp)
      · exact absurd hk.symm (not_mem_of_fresh hx hr)
      · rw [List.inj_on_of_nodup_map h.2 hx hy hk] }
  else q

/-- Remove the entries under the keys `ks`. -/
noncomputable def remove (ks : Set κ) (q : Queue κ α τ) : Queue κ α τ where
  entries := q.entries.filter fun p => p.1 ∉ ks
  functional p hp r hr := q.functional p (Finset.mem_filter.1 hp).1 r (Finset.mem_filter.1 hr).1

/-- Postpone the entries under the keys `ks`, and leave the others as they are. -/
noncomputable def postpone (ks : Set κ) (next : τ) (q : Queue κ α τ) : Queue κ α τ where
  entries := q.entries.image fun p => if p.1 ∈ ks then (p.1, p.2.postpone next) else p
  functional := by
    intro p hp r hr hk
    rw [Finset.mem_image] at hp hr
    obtain ⟨p', hp', rfl⟩ := hp
    obtain ⟨r', hr', rfl⟩ := hr
    have hk' : p'.1 = r'.1 := by
      split_ifs at hk <;> exact hk
    rw [q.functional p' hp' r' hr' hk']

theorem mem_remove {ks : Set κ} {q : Queue κ α τ} {x : κ × Entry α τ} :
    x ∈ (q.remove ks).entries ↔ x ∈ q.entries ∧ x.1 ∉ ks := Finset.mem_filter

theorem mem_postpone {ks : Set κ} {next : τ} {q : Queue κ α τ} {x : κ × Entry α τ} :
    x ∈ (q.postpone ks next).entries ↔
      (∃ p ∈ q.entries, p.1 ∈ ks ∧ x = (p.1, p.2.postpone next)) ∨ x ∈ q.entries ∧ x.1 ∉ ks := by
  rw [postpone, Finset.mem_image]
  constructor
  · rintro ⟨p, hp, rfl⟩
    by_cases hk : p.1 ∈ ks
    · rw [if_pos hk]
      exact Or.inl ⟨p, hp, hk, rfl⟩
    · rw [if_neg hk]
      exact Or.inr ⟨hp, hk⟩
  · rintro (⟨p, hp, hk, rfl⟩ | ⟨hx, hk⟩)
    · exact ⟨p, hp, if_pos hk⟩
    · exact ⟨x, hx, if_neg hk⟩

theorem mem_append {capacity : ℕ} {now : τ} {items : List (κ × α)} {q : Queue κ α τ}
    (h : q.Accepts capacity items) {x : κ × Entry α τ} :
    x ∈ (q.append capacity now items).entries ↔
      x ∈ q.entries ∨ ∃ p ∈ q.fresh items, x = (p.1, Entry.new now p.2) := by
  rw [append, dif_pos h, Finset.mem_union, List.mem_toFinset, List.mem_map]
  simp only [Prod.map, id, eq_comm]

theorem append_of_not_accepts {capacity : ℕ} {now : τ} {items : List (κ × α)} {q : Queue κ α τ}
    (h : ¬ q.Accepts capacity items) : q.append capacity now items = q := dif_neg h

section
variable [LinearOrder κ] [LinearOrder τ]

/-- Entries are taken in the order of their creation, and then of their keys. -/
def rank (p : κ × Entry α τ) : τ ×ₗ κ := toLex (p.2.created, p.1)

/-- The keys of the first `limit` entries that are due. -/
noncomputable def due (limit : ℕ) (now : τ) (q : Queue κ α τ) : List κ :=
  (((q.entries.filter fun p => p.2.nextRetry ≤ now).image rank).sort.take limit).map fun x => (ofLex x).2

/-- A list of the entries that are due, in their order, begins with those that are taken. -/
theorem due_eq {limit : ℕ} {now : τ} {q : Queue κ α τ} {l : List (κ × Entry α τ)}
    (hmem : ∀ p, p ∈ l ↔ p ∈ q.entries ∧ p.2.nextRetry ≤ now) (hkeys : (l.map Prod.fst).Nodup)
    (hsorted : l.Pairwise fun p r => rank p ≤ rank r) :
    q.due limit now = (l.take limit).map Prod.fst := by
  have hnodup : (l.map rank).Nodup := by
    refine List.Nodup.of_map (fun x => (ofLex x).2) ?_
    rwa [List.map_map]
  have himage : (q.entries.filter fun p => p.2.nextRetry ≤ now).image rank = (l.map rank).toFinset := by
    ext x
    simp only [Finset.mem_image, Finset.mem_filter, List.mem_toFinset, List.mem_map, hmem]
  rw [due, himage, (List.toFinset_sort (· ≤ ·) hnodup).2 (List.pairwise_map.2 hsorted), ← List.map_take,
    List.map_map]
  rfl

end

end Queue

end RetryQueue
