/-
  Which poll results the repository accepts.

  `savePollResults_accepts` says when a transaction commits: each of its puts is
  allowed when its turn comes.  A transaction of poll results that are accepted
  on their own commits; under consistent ids no other transaction does.
-/
import PlcGateway.Persistence.Stored

namespace PlcGateway

open Absorption

namespace Put

/-- The key of the put is in its table. -/
def Present : Put → Database → Prop
  | execution i _, db => i ∈ db.pollExecutions
  | reading e _, db => e ∈ db.tagReadings

/-- The statement does not raise: its key is there, or its foreign keys are. -/
def Allowed (p : Put) (db : Database) : Prop :=
  p.Present db ∨ match p with
    | execution _ row => row.connectionId ∈ db.config.connections ∧ row.tagGroupId ∈ db.config.tagGroups
    | reading _ row => row.connectionId ∈ db.config.connections ∧
        row.tagGroupId ∈ db.config.tagGroups ∧ row.tagId ∈ db.config.tags

theorem present_apply (p : Put) (db : Database) : p.Present (p.apply db) := by
  cases p with
  | execution i row => exact Finmap.mem_insert.2 (.inl rfl)
  | reading e row =>
    simp only [Present, apply]
    split_ifs with hm
    · exact hm
    · exact Finmap.mem_insert.2 (.inl rfl)

theorem Present.apply {p : Put} {db : Database} (h : p.Present db) (q : Put) :
    p.Present (q.apply db) := by
  cases p <;> cases q
  · exact Finmap.mem_insert.2 (.inr h)
  · simp only [Put.apply]
    split_ifs <;> exact h
  · exact h
  · simp only [Put.apply]
    split_ifs
    · exact h
    · exact Finmap.mem_insert.2 (.inr h)

/-- A put adds its own key only. -/
theorem present_of_apply {p q : Put} {db : Database} (h : p.Present (q.apply db)) :
    p.Present db ∨ match p, q with
      | execution i _, execution j _ => i = j
      | reading e _, reading f _ => e = f
      | _, _ => False := by
  cases p <;> cases q
  · exact (Finmap.mem_insert.1 h).symm
  · simp only [Put.apply] at h
    split_ifs at h <;> exact .inl h
  · exact .inl h
  · simp only [Put.apply] at h
    split_ifs at h
    · exact .inl h
    · exact (Finmap.mem_insert.1 h).symm

theorem Allowed.apply {p : Put} {db : Database} (h : p.Allowed db) (q : Put) :
    p.Allowed (q.apply db) := by
  rcases h with h | h
  · exact .inl (h.apply q)
  · refine .inr ?_
    rw [apply_config]
    exact h

/-- A put enables no other put under a consistent key. -/
theorem allowed_of_apply {p q : Put} {db : Database} (hc : p.Consistent q) (hq : q.Allowed db)
    (h : p.Allowed (q.apply db)) : p.Allowed db := by
  rcases h with h | h
  · rcases present_of_apply h with h | hkey
    · exact .inl h
    · cases p with
      | execution i row =>
        cases q with
        | execution j row' =>
          cases hkey
          cases hc rfl
          exact hq
        | reading f row' => exact hkey.elim
      | reading e row =>
        cases q with
        | execution j row' => exact hkey.elim
        | reading f row' =>
          cases hkey
          cases hc rfl
          exact hq
  · rw [apply_config] at h
    exact .inr h

end Put

/-! ## When the statements do not raise -/

theorem savePollExecution_accepts {e : PollExecution} {db : Database} :
    (∃ db', savePollExecution e db = .ok db') ↔
      ∃ row, executionValues e = .ok row ∧ (Put.execution e.executionId.text row).Allowed db := by
  unfold savePollExecution
  cases executionValues e with
  | error x => simp only [error_bind, reduceCtorEq, false_and, exists_false]
  | ok row =>
    simp only [ok_bind, Except.ok.injEq, exists_eq_left']
    cases hl : db.pollExecutions.lookup e.executionId.text with
    | some old =>
      exact iff_of_true ⟨_, rfl⟩ (.inl (Finmap.mem_iff.2 ⟨old, hl⟩))
    | none =>
      have hm : e.executionId.text ∉ db.pollExecutions := Finmap.lookup_eq_none.1 hl
      simp only [Put.Allowed, Put.Present, hm, false_or]
      split_ifs with hk
      · exact iff_of_true ⟨_, rfl⟩ hk
      · exact iff_of_false (by rintro ⟨db', h⟩; cases h) hk

theorem saveTagReading_accepts {rec : TagReadingRecord} {db : Database} :
    (∃ n db', saveTagReading rec db = .ok (n, db')) ↔
      ∃ row, readingValues db.config rec = .ok row ∧ (Put.reading rec.eventId row).Allowed db := by
  unfold saveTagReading
  cases readingValues db.config rec with
  | error x => simp only [error_bind, reduceCtorEq, false_and, exists_false]
  | ok row =>
    simp only [ok_bind, Except.ok.injEq, exists_eq_left', Put.Allowed, Put.Present]
    split_ifs with hm hk
    · exact iff_of_true ⟨_, _, rfl⟩ (.inl hm)
    · exact iff_of_true ⟨_, _, rfl⟩ (.inr hk)
    · exact iff_of_false (by rintro ⟨n, db', h⟩; cases h) (by simp only [hm, hk, or_self, not_false_eq_true])

/-- Every put is allowed when its turn comes. -/
abbrev PutsAllowed (ps : List Put) (db : Database) : Prop := AllowedAll Put.Allowed Put.apply ps db

theorem saveTagReadings_accepts {e : PollExecution} {results : List TagResult} {index : ℕ}
    {db : Database} :
    (∃ n db', saveTagReadings e index results db = .ok (n, db')) ↔
      ∃ ps, readingPuts db.config e index results = .ok ps ∧ PutsAllowed ps db := by
  induction results generalizing index db with
  | nil => exact iff_of_true ⟨0, db, rfl⟩ ⟨[], rfl, trivial⟩
  | cons result results ih =>
    constructor
    · rintro ⟨n, db', h⟩
      rw [saveTagReadings] at h
      cases h₁ : saveTagReading (readingRecord e index result) db with
      | error x => rw [h₁] at h; cases h
      | ok p =>
        obtain ⟨n₁, db₁⟩ := p
        rw [h₁, ok_bind] at h
        obtain ⟨row, hrow, hallowed⟩ := saveTagReading_accepts.1 ⟨n₁, db₁, h₁⟩
        obtain ⟨row', hrow', hdb, -⟩ := saveTagReading_ok h₁
        rw [hrow] at hrow'
        cases hrow'
        cases h₂ : saveTagReadings e (index + 1) results db₁ with
        | error x => simp only [h₂] at h; cases h
        | ok p =>
          obtain ⟨ps, hps, hall⟩ := ih.1 ⟨p.1, p.2, h₂⟩
          rw [hdb] at hps hall
          rw [Put.apply_config] at hps
          refine ⟨_ :: ps, ?_, hallowed, hall⟩
          rw [readingPuts, hrow, hps]
          rfl
    · rintro ⟨ps, hps, hall⟩
      rw [readingPuts] at hps
      cases hrow : readingValues db.config (readingRecord e index result) with
      | error x => rw [hrow] at hps; cases hps
      | ok row =>
        cases hps' : readingPuts db.config e (index + 1) results with
        | error x => rw [hrow, ok_bind, hps'] at hps; cases hps
        | ok ps' =>
          rw [hrow, ok_bind, hps'] at hps
          cases hps
          obtain ⟨n₁, db₁, h₁⟩ := saveTagReading_accepts.2 ⟨row, hrow, hall.1⟩
          obtain ⟨row', hrow', hdb, -⟩ := saveTagReading_ok h₁
          rw [hrow] at hrow'
          cases hrow'
          rw [← Put.apply_config (.reading (readingRecord e index result).eventId row) db] at hps'
          obtain ⟨n₂, db₂, h₂⟩ := ih.2 ⟨ps', hps', hall.2⟩
          refine ⟨n₁ + n₂, db₂, ?_⟩
          rw [saveTagReadings, h₁, ok_bind]
          simp only [hdb]
          rw [h₂]
          rfl

/-- The repository accepts the poll result on its own. -/
def Accepts (db : Database) (r : WorkerPollResult) : Prop := ∃ o, savePollResults [r] db = .ok o

theorem savePollResult_accepts {r : WorkerPollResult} {db : Database} :
    (∃ n db', savePollResult r db = .ok (n, db')) ↔
      ∃ ps, putsOf db.config r = .ok ps ∧ PutsAllowed ps db := by
  constructor
  · rintro ⟨n, db', h⟩
    rw [savePollResult] at h
    cases h₁ : savePollExecution r.execution db with
    | error x => rw [h₁] at h; cases h
    | ok db₁ =>
      rw [h₁, ok_bind] at h
      obtain ⟨row, hrow, hallowed⟩ := savePollExecution_accepts.1 ⟨db₁, h₁⟩
      obtain ⟨row', hrow', rfl⟩ := savePollExecution_ok h₁
      rw [hrow] at hrow'
      cases hrow'
      obtain ⟨ps, hps, hall⟩ := saveTagReadings_accepts.1 ⟨n, db', h⟩
      rw [Put.apply_config] at hps
      refine ⟨_ :: ps, ?_, hallowed, hall⟩
      rw [putsOf, hrow, ok_bind, hps]
      rfl
  · rintro ⟨ps, hps, hall⟩
    rw [putsOf] at hps
    cases hrow : executionValues r.execution with
    | error x => rw [hrow] at hps; cases hps
    | ok row =>
      cases hps' : readingPuts db.config r.execution 0 r.results with
      | error x => rw [hrow, ok_bind, hps'] at hps; cases hps
      | ok ps' =>
        rw [hrow, ok_bind, hps'] at hps
        cases hps
        obtain ⟨db₁, h₁⟩ := savePollExecution_accepts.2 ⟨row, hrow, hall.1⟩
        obtain ⟨row', hrow', rfl⟩ := savePollExecution_ok h₁
        rw [hrow] at hrow'
        cases hrow'
        rw [← Put.apply_config (.execution r.execution.executionId.text row) db] at hps'
        obtain ⟨n, db₂, h₂⟩ := saveTagReadings_accepts.2 ⟨ps', hps', hall.2⟩
        refine ⟨n, db₂, ?_⟩
        rw [savePollResult, h₁, ok_bind]
        exact h₂

/-- **When a transaction commits**: its values can be bound, and its puts are
    allowed one after the other. -/
theorem savePollResults_accepts {rs : List WorkerPollResult} {db : Database} :
    (∃ n db', savePollResults rs db = .ok (n, db')) ↔
      (∀ r ∈ rs, ∃ ps, putsOf db.config r = .ok ps) ∧ PutsAllowed (rs.flatMap (puts db.config)) db := by
  induction rs generalizing db with
  | nil => exact iff_of_true ⟨0, db, rfl⟩ ⟨by simp, trivial⟩
  | cons r rs ih =>
    rw [List.flatMap_cons, PutsAllowed, allowedAll_append, List.forall_mem_cons]
    constructor
    · rintro ⟨n, db', h⟩
      rw [savePollResults] at h
      cases h₁ : savePollResult r db with
      | error x => rw [h₁] at h; cases h
      | ok p =>
        obtain ⟨n₁, db₁⟩ := p
        rw [h₁, ok_bind] at h
        obtain ⟨ps, hps, hall⟩ := savePollResult_accepts.1 ⟨n₁, db₁, h₁⟩
        obtain ⟨ps', hps', hdb, -⟩ := savePollResult_ok h₁
        rw [hps] at hps'
        cases hps'
        cases h₂ : savePollResults rs db₁ with
        | error x => simp only [h₂] at h; cases h
        | ok p =>
          obtain ⟨hs, halls⟩ := ih.1 ⟨p.1, p.2, h₂⟩
          rw [hdb, Put.actAll_config] at hs halls
          rw [puts_eq hps]
          exact ⟨⟨⟨ps, hps⟩, hs⟩, hall, halls⟩
    · rintro ⟨⟨⟨ps, hps⟩, hs⟩, hall, halls⟩
      rw [puts_eq hps] at hall halls
      obtain ⟨n₁, db₁, h₁⟩ := savePollResult_accepts.2 ⟨ps, hps, hall⟩
      obtain ⟨ps', hps', hdb, -⟩ := savePollResult_ok h₁
      rw [hps] at hps'
      cases hps'
      rw [← Put.actAll_config ps db, ← hdb] at hs halls
      obtain ⟨n₂, db₂, h₂⟩ := ih.2 ⟨hs, halls⟩
      refine ⟨n₁ + n₂, db₂, ?_⟩
      rw [savePollResults, h₁, ok_bind]
      simp only [h₂]
      rfl

/-! ## Accepted together, and on their own -/

/-- The puts of accepted poll results are all allowed. -/
theorem accepts_iff {r : WorkerPollResult} {db : Database} :
    Accepts db r ↔ (∃ ps, putsOf db.config r = .ok ps) ∧ ∀ p ∈ puts db.config r, p.Allowed db := by
  have hsame : SameContent (· = r) := by
    rintro _ _ rfl rfl -
    rfl
  have hone : Accepts db r ↔ ∃ n db', savePollResults [r] db = .ok (n, db') := Prod.exists
  rw [hone, savePollResults_accepts, List.flatMap_cons, List.flatMap_nil, List.append_nil,
    List.forall_mem_singleton]
  refine and_congr_right fun _ => ⟨fun h => ?_, allowedAll_of_forall fun a b s ha => ha.apply b⟩
  refine forall_of_allowedAll (P := (· ∈ puts db.config r)) ?_ (fun _ hp => hp) h
  exact fun a b s ha hb => Put.allowed_of_apply (puts_consistent hsame rfl rfl ha hb)

/-- **A transaction of poll results that are accepted on their own commits.** -/
theorem savePollResults_of_accepts {rs : List WorkerPollResult} {db : Database}
    (h : ∀ r ∈ rs, Accepts db r) : ∃ n db', savePollResults rs db = .ok (n, db') := by
  refine savePollResults_accepts.2 ⟨fun r hr => (accepts_iff.1 (h r hr)).1, ?_⟩
  refine allowedAll_of_forall (fun a b s ha => ha.apply b) fun p hp => ?_
  obtain ⟨r, hr, hp⟩ := List.mem_flatMap.1 hp
  exact (accepts_iff.1 (h r hr)).2 p hp

/-- Under consistent ids a transaction that commits has no poll result that is
    rejected on its own. -/
theorem accepts_of_savePollResults {rs : List WorkerPollResult} {db : Database}
    (hsame : SameContent (· ∈ rs)) (h : ∃ n db', savePollResults rs db = .ok (n, db')) :
    ∀ r ∈ rs, Accepts db r := by
  obtain ⟨hs, hall⟩ := savePollResults_accepts.1 h
  have hputs := forall_of_allowedAll (P := (· ∈ rs.flatMap (puts db.config))) ?_ (fun _ hp => hp) hall
  · exact fun r hr => accepts_iff.2 ⟨hs r hr, fun p hp => hputs p (List.mem_flatMap.2 ⟨r, hr, hp⟩)⟩
  · intro a b s ha hb
    obtain ⟨r, hr, ha⟩ := List.mem_flatMap.1 ha
    obtain ⟨r', hr', hb⟩ := List.mem_flatMap.1 hb
    exact Put.allowed_of_apply (puts_consistent hsame hr hr' ha hb)

/-- The ids of the poll result are in the tables. -/
structure Recorded (db : Database) (r : WorkerPollResult) : Prop where
  execution : r.executionId ∈ db.pollExecutions
  readings : ∀ index < r.results.length, eventId r.executionId index ∈ db.tagReadings

theorem present_actAll {p : Put} {ps : List Put} {db : Database} (h : p ∈ ps ∨ p.Present db) :
    p.Present (actAll Put.apply ps db) := by
  induction ps generalizing db with
  | nil => exact h.resolve_left (List.not_mem_nil)
  | cons q ps ih =>
    refine ih ?_
    rcases h with h | h
    · rcases List.mem_cons.1 h with rfl | h
      · exact .inr (Put.present_apply p db)
      · exact .inl h
    · exact .inr (h.apply q)

/-- A transaction that commits records its poll results. -/
theorem recorded_of_save {rs : List WorkerPollResult} {db db' : Database} {n : ℕ}
    (h : savePollResults rs db = .ok (n, db')) : ∀ r ∈ rs, Recorded db' r := by
  obtain ⟨hs, rfl, -⟩ := savePollResults_ok h
  intro r hr
  obtain ⟨ps, hps⟩ := hs r hr
  have hpresent : ∀ p ∈ puts db.config r,
      p.Present (actAll Put.apply (rs.flatMap (puts db.config)) db) :=
    fun p hp => present_actAll (.inl (List.mem_flatMap.2 ⟨r, hr, hp⟩))
  constructor
  · obtain ⟨row, -, hp⟩ := execution_mem_puts hps
    exact hpresent _ hp
  · intro index hi
    obtain ⟨row, -, hp⟩ := reading_mem_puts hps (List.getElem?_eq_getElem hi)
    exact hpresent _ hp

end PlcGateway
