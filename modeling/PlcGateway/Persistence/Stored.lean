/-
  What it means that a poll result is in the main database, and that it stays there.
-/
import PlcGateway.Persistence.ExactlyOnce

namespace PlcGateway

open Absorption

namespace Put

/-- The row of the put is in its table. -/
def Holds : Put → Database → Prop
  | execution i row, db => db.pollExecutions.lookup i = some row
  | reading e row, db => db.tagReadings.lookup e = some row

/-- The table has no other row under the key of the put. -/
def Agrees : Put → Database → Prop
  | execution i row, db => ∀ old, db.pollExecutions.lookup i = some old → old = row
  | reading e row, db => ∀ old, db.tagReadings.lookup e = some old → old = row

theorem holds_apply {p : Put} {db : Database} (h : p.Agrees db) : p.Holds (p.apply db) := by
  cases p with
  | execution i row =>
    simp only [Holds, apply, Finmap.lookup_insert]
    cases hl : db.pollExecutions.lookup i with
    | none => rfl
    | some old => rw [h old hl]; rfl
  | reading e row =>
    simp only [Holds, apply]
    split_ifs with hm
    · obtain ⟨old, hl⟩ := Finmap.mem_iff.1 hm
      rw [hl, h old hl]
    · exact Finmap.lookup_insert _

theorem Holds.apply {p q : Put} {db : Database} (h : p.Holds db) (hc : p.Consistent q) :
    p.Holds (q.apply db) := by
  cases p with
  | reading e row => exact lookup_reading_apply q h
  | execution i row =>
    cases q with
    | reading f row' =>
      simp only [Put.apply]
      split_ifs <;> exact h
    | execution j row' =>
      by_cases hij : i = j
      · subst hij
        have hrow : row = row' := hc rfl
        subst hrow
        simp only [Holds, Put.apply, Finmap.lookup_insert] at h ⊢
        rw [h]
        rfl
      · exact (Finmap.lookup_insert_of_ne _ hij).trans h

theorem Agrees.apply {p q : Put} {db : Database} (h : p.Agrees db) (hc : p.Consistent q) :
    p.Agrees (q.apply db) := by
  cases p with
  | reading e row =>
    cases q with
    | execution j row' => exact h
    | reading f row' =>
      simp only [Put.apply]
      split_ifs with hm
      · exact h
      · by_cases hef : e = f
        · subst hef
          intro old hl
          rw [Finmap.lookup_insert] at hl
          exact (Option.some.inj hl).symm.trans (hc rfl).symm
        · intro old hl
          rw [Finmap.lookup_insert_of_ne _ hef] at hl
          exact h old hl
  | execution i row =>
    cases q with
    | reading f row' =>
      simp only [Put.apply]
      split_ifs <;> exact h
    | execution j row' =>
      intro old hl
      by_cases hij : i = j
      · subst hij
        have hrow : row = row' := hc rfl
        subst hrow
        simp only [Put.apply, Finmap.lookup_insert, Option.some.injEq] at hl
        rw [← hl]
        cases hl' : db.pollExecutions.lookup i with
        | none => rfl
        | some old' => rw [h old' hl']; rfl
      · simp only [Put.apply, Finmap.lookup_insert_of_ne _ hij] at hl
        exact h old hl

end Put

/-- **The poll result is in the main database**: its execution and all of its
    readings have their rows. -/
structure Stored (db : Database) (r : WorkerPollResult) : Prop where
  storable : ∃ ps, putsOf db.config r = .ok ps
  rows : ∀ p ∈ puts db.config r, p.Holds db

/-- What the database has under the keys of the poll results in `P` is theirs. -/
def DatabaseAgrees (P : WorkerPollResult → Prop) (db : Database) : Prop :=
  ∀ r, P r → ∀ p ∈ puts db.config r, p.Agrees db

/-- A stored poll result has its execution. -/
theorem not_stored_of_lookup {db : Database} {r : WorkerPollResult}
    (h : db.pollExecutions.lookup r.executionId = none) : ¬ Stored db r := by
  rintro ⟨⟨ps, hps⟩, hrows⟩
  obtain ⟨row, -, hp⟩ := execution_mem_puts hps
  have hhold := hrows _ hp
  simp only [Put.Holds, h] at hhold
  cases hhold

theorem databaseAgrees_testDatabase (P : WorkerPollResult → Prop) : DatabaseAgrees P testDatabase := by
  rintro r - (⟨i, row⟩ | ⟨e, row⟩) - old hl <;> cases hl

section
variable {P : WorkerPollResult → Prop} (hP : SameContent P)
include hP

theorem Stored.apply {db : Database} {r r' : WorkerPollResult} {q : Put} (h : Stored db r)
    (hr : P r) (hr' : P r') (hq : q ∈ puts db.config r') : Stored (q.apply db) r := by
  refine ⟨by rw [Put.apply_config]; exact h.storable, fun p hp => ?_⟩
  rw [Put.apply_config] at hp
  exact (h.rows p hp).apply (puts_consistent hP hr hr' hp hq)

theorem DatabaseAgrees.apply {db : Database} {r' : WorkerPollResult} {q : Put}
    (h : DatabaseAgrees P db) (hr' : P r') (hq : q ∈ puts db.config r') :
    DatabaseAgrees P (q.apply db) := by
  intro r hr p hp
  rw [Put.apply_config] at hp
  exact (h r hr p hp).apply (puts_consistent hP hr hr' hp hq)

/-- The puts of poll results in `P` keep what is stored. -/
theorem Stored.actAll {db : Database} {r : WorkerPollResult} (hr : P r) {ps : List Put}
    (hps : ∀ q ∈ ps, ∃ r', P r' ∧ q ∈ puts db.config r') (h : Stored db r) :
    Stored (actAll Put.apply ps db) r := by
  induction ps generalizing db with
  | nil => exact h
  | cons q ps ih =>
    obtain ⟨⟨r', hr', hq⟩, hrest⟩ := List.forall_mem_cons.1 hps
    exact ih (by rw [Put.apply_config]; exact hrest) (h.apply hP hr hr' hq)

theorem DatabaseAgrees.actAll {db : Database} {ps : List Put}
    (hps : ∀ q ∈ ps, ∃ r', P r' ∧ q ∈ puts db.config r') (h : DatabaseAgrees P db) :
    DatabaseAgrees P (actAll Put.apply ps db) := by
  induction ps generalizing db with
  | nil => exact h
  | cons q ps ih =>
    obtain ⟨⟨r', hr', hq⟩, hrest⟩ := List.forall_mem_cons.1 hps
    exact ih (by rw [Put.apply_config]; exact hrest) (h.apply hP hr' hq)

/-- A put that was done holds. -/
theorem holds_actAll {db : Database} {r : WorkerPollResult} (hr : P r) {p : Put}
    (hp : p ∈ puts db.config r) {ps : List Put}
    (hps : ∀ q ∈ ps, ∃ r', P r' ∧ q ∈ puts db.config r')
    (h : p ∈ ps ∧ p.Agrees db ∨ p.Holds db) : p.Holds (actAll Put.apply ps db) := by
  induction ps generalizing db with
  | nil => exact h.elim (fun h => (List.not_mem_nil h.1).elim) id
  | cons q ps ih =>
    obtain ⟨⟨r', hr', hq⟩, hrest⟩ := List.forall_mem_cons.1 hps
    have hc := puts_consistent hP hr hr' hp hq
    refine ih (by rw [Put.apply_config]; exact hp) (by rw [Put.apply_config]; exact hrest) ?_
    rcases h with ⟨hm, ha⟩ | h
    · rcases List.mem_cons.1 hm with rfl | hm
      · exact .inr (Put.holds_apply ha)
      · exact .inl ⟨hm, ha.apply hc⟩
    · exact .inr (h.apply hc)

/-- **A transaction that commits stores its poll results**, and keeps those that
    are stored. -/
theorem stored_of_save {db db' : Database} {rs : List WorkerPollResult} {n : ℕ}
    (hagree : DatabaseAgrees P db) (hrs : ∀ r ∈ rs, P r)
    (h : savePollResults rs db = .ok (n, db')) :
    (∀ r ∈ rs, Stored db' r) ∧ (∀ r, P r → Stored db r → Stored db' r) ∧ DatabaseAgrees P db' := by
  obtain ⟨hs, rfl, -⟩ := savePollResults_ok h
  have hps : ∀ q ∈ rs.flatMap (puts db.config), ∃ r', P r' ∧ q ∈ puts db.config r' := by
    intro q hq
    obtain ⟨r', hr', hq⟩ := List.mem_flatMap.1 hq
    exact ⟨r', hrs r' hr', hq⟩
  refine ⟨fun r hr => ⟨?_, fun p hp => ?_⟩, fun r hr hst => hst.actAll hP hr hps,
    hagree.actAll hP hps⟩
  · rw [Put.actAll_config]
    exact hs r hr
  · rw [Put.actAll_config] at hp
    exact holds_actAll hP (hrs r hr) hp hps
      (.inl ⟨List.mem_flatMap.2 ⟨r, hr, hp⟩, hagree r (hrs r hr) p hp⟩)

end

end PlcGateway
