/-
  Handles that share a spool file.

  An `append` counts the rows, looks for the ids it knows and inserts under one write
  lock, and gives the lock up with a commit or a rollback.  So the operations that
  return have done one after the other what they do alone, the table never has more
  rows than the handles allow, and an operation that raises has committed nothing.
-/
import PlcGateway.Persistence.SpoolTransactions

namespace PlcGateway

open Calendar Coroutine Transactions

namespace SpoolOperation

/-- The table has at most the rows that a handle allows. -/
def Bounded (maxItems : ℕ+) (t : SpoolTable) : Prop := t.rows.length ≤ maxItems

variable {maxItems : ℕ+} {c : ℕ} {s : SpoolFile} {made : List (Commit SpoolTable)} {b t : SpoolTable}

/-! ## Append -/

theorem transacts_insertRows {rows : List SpoolRow} {inserted : ℕ}
    (hI : s.Inv (Bounded maxItems) .empty) (hs : s.Knows c (some (b, t)) made) :
    Transacts (Bounded maxItems) .empty c (insertRows c rows inserted) (fun r s' => match r with
      | .ok n => n = inserted + rows.length ∧
        ∃ t', t.insertAll rows = .ok t' ∧ s'.Knows c (some (b, t')) made
      | .error _ => ∃ lock, s'.Knows c lock made) s := by
  induction rows generalizing s t inserted with
  | nil => exact transacts_conclude (.ok inserted) hI ⟨rfl, t, rfl, hs⟩
  | cons row rows ih =>
    refine transacts_bind (transacts_write hI hs ?_ ?_)
    · exact fun e s' hs' => ⟨_, hs'⟩
    · intro s' a t' hinsert hs' hI'
      have hrow : t.insert row = .ok t' := by
        cases hi : t.insert row with
        | error e => rw [hi] at hinsert; cases hinsert
        | ok t'' => rw [hi] at hinsert; cases hinsert; rfl
      refine stretches_mono ?_ (ih hI' hs')
      rintro (e | n) s'' - h
      · exact h
      · obtain ⟨hn, t'', hrows, hs''⟩ := h
        refine ⟨?_, t'', ?_, hs''⟩
        · rw [hn, List.length_cons, Nat.add_assoc, Nat.add_comm 1]
        · rw [SpoolTable.insertAll, hrow]
          exact hrows

/-- What `_existing_ids` finds tells the items that are stored. -/
theorem filter_existingIds (maxItems : ℕ+) (t : SpoolTable) (items : List WorkerPollResult) :
    (items.filter fun item => item.executionId ∉ t.ids.filter (· ∈ items.map WorkerPollResult.executionId)) =
      (t.handle maxItems).newItems items := by
  refine List.filter_congr fun item hitem => decide_eq_decide.2 (not_congr ?_)
  have hid : item.executionId ∈ items.map WorkerPollResult.executionId := List.mem_map_of_mem hitem
  rw [List.mem_filter, decide_eq_true_eq, and_iff_left hid]
  rfl

/-- The new items fit, and are all inserted. -/
structure Inserts (maxItems : ℕ+) (now : DateTime) (items : List WorkerPollResult) (b t : SpoolTable)
    (n : ℕ) : Prop where
  fits : b.rows.length + ((b.handle maxItems).newItems items).length ≤ maxItems
  inserted : b.insertAll (((b.handle maxItems).newItems items).map (spoolRow now)) = .ok t
  number : n = ((b.handle maxItems).newItems items).length

theorem transacts_insertNewItems {now : DateTime} {items : List WorkerPollResult}
    (hI : s.Inv (Bounded maxItems) .empty) (hs : s.Knows c (some (b, b)) made) (hne : items ≠ []) :
    Transacts (Bounded maxItems) .empty c (insertNewItems c maxItems now items) (fun r s' => match r with
      | .ok n => ∃ t, Inserts maxItems now items b t n ∧ s'.Knows c (some (b, t)) made
      | .error _ => ∃ lock, s'.Knows c lock made) s := by
  refine transacts_bind (transacts_view hI hs ?_ ?_)
  · exact fun e s' hs' => ⟨_, hs'⟩
  intro s₁ hs₁ hI₁
  refine transacts_bind ?_
  rw [existingIds, if_neg (by simp [hne])]
  refine transacts_view hI₁ hs₁ ?_ ?_
  · exact fun e s' hs' => ⟨_, hs'⟩
  intro s₂ hs₂ hI₂
  have hnew := filter_existingIds maxItems b items
  simp only [hnew]
  split_ifs with hfull
  · exact transacts_conclude _ hI₂ ⟨_, hs₂⟩
  · refine stretches_mono ?_ (transacts_insertRows hI₂ hs₂)
    rintro (e | n) s₃ - h
    · exact h
    · obtain ⟨hn, t, hinserted, hs₃⟩ := h
      rw [Nat.zero_add, List.length_map] at hn
      exact ⟨t, ⟨by omega, hinserted, hn⟩, hs₃⟩

/-- The rows that are inserted are those that `append` adds alone. -/
theorem Inserts.append_eq {now : DateTime} {items : List WorkerPollResult} {n : ℕ}
    (h : Inserts maxItems now items b t n) (hne : items ≠ []) :
    (b.handle maxItems).append now items = (.ok n, { b.handle maxItems with table := t }) := by
  have hempty : items.isEmpty = false := List.isEmpty_eq_false_iff.2 hne
  have hfits : ¬ ((maxItems : ℕ) : ℤ) - b.rows.length < ((b.handle maxItems).newItems items).length := by
    have hle := h.fits
    omega
  rw [DurableSqliteSpool.append, hempty, if_neg Bool.false_ne_true]
  simp only [SpoolTable.handle_maxItems, SpoolTable.handle_table, if_neg hfits, h.inserted, h.number]

theorem Inserts.bounded {now : DateTime} {items : List WorkerPollResult} {n : ℕ}
    (h : Inserts maxItems now items b t n) : Bounded maxItems t := by
  rw [Bounded, SpoolTable.insertAll_rows h.inserted, List.length_append, List.length_map]
  exact h.fits

theorem transacts_appendProg (now : DateTime) (items : List WorkerPollResult)
    (hI : s.Inv (Bounded maxItems) .empty) (hs : s.Knows c none []) :
    Transacts (Bounded maxItems) .empty c (appendProg c maxItems now items)
      (EndsTransaction c [] fun n => Serial maxItems c (.append now items) (.number n)) s := by
  rw [appendProg]
  split_ifs with hempty
  · refine transacts_conclude (.ok 0) hI ⟨[], hs, .empty, .empty, .inl ⟨rfl, rfl⟩, ?_⟩
    rw [execute, DurableSqliteSpool.append, if_pos hempty]
    exact ⟨rfl, rfl⟩
  have hne : items ≠ [] := fun h => hempty (List.isEmpty_iff.2 h)
  refine transacts_withConnection (transacts_bind (transacts_beginImmediate hI hs ?_ ?_))
  · exact fun e s' hs' => ⟨none, hs'⟩
  intro s₁ b hb hs₁ hI₁
  refine transacts_bind (stretches_attempt (Store.move_refl c) (Store.move_trans c)
    (stretches_mono ?_ (transacts_insertNewItems hI₁ hs₁ hne)))
  rintro ((e | _) | n) s₂ - h
  · intro hI₂
    obtain ⟨lock, hs₂⟩ := h
    exact transacts_rollback_raise (.error e) hI₂ hs₂ fun e' s₃ lock' hs₃ => ⟨lock', hs₃⟩
  · exact h
  · intro hI₂
    obtain ⟨t, hinserts, hs₂⟩ := h
    refine transacts_bind (transacts_commit hI₂ hs₂ hinserts.bounded ?_ ?_)
    · exact fun e s₃ hs₃ => ⟨_, hs₃⟩
    · intro s₃ hs₃ hI₃
      refine transacts_conclude (.ok n) hI₃ (.inl ⟨_, hs₃, b, t, .inr rfl, ?_⟩)
      rw [execute, hinserts.append_eq hne]
      exact ⟨rfl, rfl⟩

/-! ## The other operations -/

/-- A statement that changes rows where they are, or deletes them, keeps the bound. -/
theorem transacts_updateRows {op : SpoolOperation} {f : SpoolTable → ℕ × SpoolTable}
    (hle : ∀ t, (f t).2.rows.length ≤ t.rows.length)
    (hop : ∀ t, (op.execute (t.handle maxItems)).1 = .ok (.number (f t).1) ∧
      (op.execute (t.handle maxItems)).2.table = (f t).2)
    (hI : s.Inv (Bounded maxItems) .empty) (hs : s.Knows c none []) :
    Transacts (Bounded maxItems) .empty c (updateRows c f)
      (EndsTransaction c [] fun n => Serial maxItems c op (.number n)) s := by
  refine transacts_withConnection (transacts_write_committed hI hs ?_ ?_)
  · exact fun e s' lock hs' => ⟨lock, hs'⟩
  · intro s' n b t hb hf hs'
    have hft : f b = (n, t) := Except.ok.inj hf
    have hbounded := hle b
    have hserial := hop b
    rw [hft] at hbounded hserial
    exact .inr ⟨b, t, hs', hbounded.trans hb, b, t, .inr rfl, hserial⟩

/-- An operation that returns without a statement. -/
theorem transacts_idle {op : SpoolOperation} {n : ℕ} (hI : s.Inv (Bounded maxItems) .empty)
    (hs : s.Knows c none [])
    (hop : op.execute (SpoolTable.empty.handle maxItems) = (.ok (.number n), SpoolTable.empty.handle maxItems)) :
    Transacts (Bounded maxItems) .empty c (pure n : SpoolProg ℕ)
      (EndsTransaction c [] fun n => Serial maxItems c op (.number n)) s := by
  refine transacts_conclude (.ok n) hI ⟨[], hs, .empty, .empty, .inl ⟨rfl, rfl⟩, ?_⟩
  rw [hop]
  exact ⟨rfl, rfl⟩

theorem transacts_markReplayedProg (ids : List String) (hI : s.Inv (Bounded maxItems) .empty)
    (hs : s.Knows c none []) :
    Transacts (Bounded maxItems) .empty c (markReplayedProg c ids)
      (EndsTransaction c [] fun n => Serial maxItems c (.markReplayed ids) (.number n)) s := by
  rw [markReplayedProg]
  split_ifs with hempty
  · refine transacts_idle hI hs ?_
    rw [execute, DurableSqliteSpool.markReplayed, if_pos hempty]
    rfl
  · refine transacts_updateRows (fun t => List.length_filter_le _ _) (fun t => ?_) hI hs
    rw [execute, DurableSqliteSpool.markReplayed, if_neg hempty]
    exact ⟨rfl, rfl⟩

theorem transacts_markFailedProg (ids : List String) (delay : ℚ) (now : AwareDateTime)
    (hI : s.Inv (Bounded maxItems) .empty) (hs : s.Knows c none []) :
    Transacts (Bounded maxItems) .empty c (markFailedProg c ids delay now)
      (EndsTransaction c [] fun n => Serial maxItems c (.markFailed ids delay now) (.number n)) s := by
  rw [markFailedProg]
  split_ifs with hdelay hempty
  · exact transacts_conclude _ hI hs
  · refine transacts_idle hI hs ?_
    rw [execute, DurableSqliteSpool.markFailedAt, if_neg hdelay, if_pos hempty]
    rfl
  · cases hnext : (now.addMicros (microsOfSeconds delay)).bind AwareDateTime.astimezone with
    | none => exact transacts_conclude _ hI hs
    | some next =>
      refine transacts_updateRows (fun t => (List.length_map _).le) (fun t => ?_) hI hs
      rw [execute, DurableSqliteSpool.markFailedAt, if_neg hdelay, if_neg hempty, hnext]
      exact ⟨rfl, rfl⟩

/-- A transaction that only reads has seen a committed table. -/
theorem transacts_read {α : Type} (f : SpoolTable → α) (hI : s.Inv (Bounded maxItems) .empty)
    (hs : s.Knows c none []) :
    Transacts (Bounded maxItems) .empty c (withConnection c (view c f) : SpoolProg α)
      (EndsTransaction c [] fun a made => made = [] ∧ ∃ b, a = f b) s := by
  refine transacts_withConnection (transacts_view_committed hI hs ?_ ?_)
  · exact fun e s' hs' => ⟨none, hs'⟩
  · exact fun s' b _ hs' => .inl ⟨[], hs', rfl, b, rfl⟩

/-- The rows that are due are those of a committed table. -/
theorem transacts_dueRowsProg (limit : ℤ) (dueAt : DateTime)
    (hI : s.Inv (Bounded maxItems) .empty) (hs : s.Knows c none []) :
    Transacts (Bounded maxItems) .empty c (dueRowsProg c limit dueAt)
      (EndsBody (Bounded maxItems) c [] fun rows made => made = [] ∧ limit < 2 ^ 63 ∧
        ∃ b : SpoolTable, rows = b.dueRows (datetimeToJson dueAt) limit.toNat) s := by
  rw [dueRowsProg]
  split_ifs with hbound
  · exact transacts_conclude _ hI ⟨none, hs⟩
  · refine transacts_view_committed hI hs ?_ ?_
    · exact fun e s' hs' => ⟨none, hs'⟩
    · exact fun s' b _ hs' => .inl ⟨[], hs', rfl, not_le.1 hbound, b, rfl⟩

theorem transacts_fetchDueProg (limit : ℤ) (now : AwareDateTime)
    (hI : s.Inv (Bounded maxItems) .empty) (hs : s.Knows c none []) :
    Transacts (Bounded maxItems) .empty c (fetchDueProg c limit now)
      (EndsTransaction c [] fun l => Serial maxItems c (.fetchDue limit now) (.entries l)) s := by
  rw [fetchDueProg]
  split_ifs with hlimit
  · exact transacts_conclude _ hI hs
  cases hdue : now.astimezone with
  | none => exact transacts_conclude _ hI hs
  | some dueAt =>
    refine transacts_bind (stretches_mono ?_
      (transacts_withConnection (transacts_dueRowsProg limit dueAt hI hs)))
    rintro (e | rows) s' - h
    · exact h
    · intro hI'
      obtain ⟨made, hs', rfl, hbound, b, rfl⟩ := h
      refine transacts_conclude _ hI' ?_
      have hfetch : (b.handle maxItems).fetchDueAt limit now =
          (b.dueRows (datetimeToJson dueAt) limit.toNat).mapM spoolEntry := by
        rw [DurableSqliteSpool.fetchDueAt, if_neg hlimit, hdue]
        exact DurableSqliteSpool.fetchDue_of_bound (by omega) (by omega)
      cases hentries : (b.dueRows (datetimeToJson dueAt) limit.toNat).mapM spoolEntry with
      | error e => exact hs'
      | ok l =>
        refine ⟨[], hs', b, b, .inl ⟨rfl, rfl⟩, ?_, rfl⟩
        rw [execute, hfetch, hentries]
        rfl

theorem transacts_countProg (hI : s.Inv (Bounded maxItems) .empty) (hs : s.Knows c none []) :
    Transacts (Bounded maxItems) .empty c (countProg c)
      (EndsTransaction c [] fun n => Serial maxItems c .count (.number n)) s := by
  refine stretches_mono ?_ (transacts_read (fun t => t.rows.length) hI hs)
  rintro (e | n) s' - h
  · exact h
  · obtain ⟨made, hs', rfl, b, rfl⟩ := h
    exact ⟨[], hs', b, b, .inl ⟨rfl, rfl⟩, rfl, rfl⟩

/-! ## Runs -/

/-- The spool file with the operations on it, a connection for each. -/
abbrev SpoolTasks := Tasks StatementCalls SpoolFile PyError SpoolReply SpoolOperation

/-- The operations keep the bound, and do what they do alone. -/
def spoolDiscipline (maxItems : ℕ+) : Discipline SpoolFile PyError SpoolReply SpoolOperation :=
  transactionDiscipline (Bounded maxItems) .empty (Serial maxItems)

theorem endsTransaction_map {α : Type} {g : α → SpoolReply} {op : SpoolOperation}
    {m : SpoolProg α} (hm : Transacts (Bounded maxItems) .empty c m
      (EndsTransaction c [] fun a => Serial maxItems c op (g a)) s) :
    Transacts (Bounded maxItems) .empty c (.mapResult g m)
      (EndsTransaction c [] (Serial maxItems c op)) s := by
  refine stretches_mapResult (stretches_mono ?_ hm)
  rintro (e | a) s' - h <;> exact h

/-- **Every operation keeps to the discipline.** -/
theorem keeps_run (maxItems : ℕ+) : Tasks.Keeps (spoolDiscipline maxItems) (run maxItems) := by
  intro c op s hI hs
  cases op with
  | append now items => exact endsTransaction_map (transacts_appendProg now items hI hs)
  | fetchDue limit now => exact endsTransaction_map (transacts_fetchDueProg limit now hI hs)
  | markReplayed ids => exact endsTransaction_map (transacts_markReplayedProg ids hI hs)
  | markFailed ids delay now =>
    exact endsTransaction_map (transacts_markFailedProg ids delay now hI hs)
  | count => exact endsTransaction_map (transacts_countProg hI hs)

/-- A new spool file, before the first operation. -/
def newSpoolFile : SpoolTasks := ⟨⟨.empty, none, []⟩, []⟩

theorem tame_newSpoolFile (maxItems : ℕ+) : newSpoolFile.Tame (spoolDiscipline maxItems) where
  inv := ⟨Nat.zero_le _, rfl⟩
  fresh _ _ := ⟨rfl, nofun, rfl⟩
  ready _ _ _ h := by cases h

/-- A commit of the connection has added a row under the id. -/
def Inserted (c : ℕ) (id : String) (s : SpoolFile) : Prop :=
  ∃ e ∈ s.commits c, id ∉ e.before.ids ∧ id ∈ e.after.ids

/-- The table is within the bound, every row is one that a connection has committed, and an
    append that has ended has committed as many rows as it returned, or none if it raised. -/
structure Consistent (maxItems : ℕ+) (s : SpoolTasks) : Prop where
  bounded : s.state.committed.rows.length ≤ maxItems
  unique : s.state.committed.ids.Nodup
  inserted : ∀ id ∈ s.state.committed.ids, ∃ c, Inserted c id s.state
  raised : ∀ c now items t e, s.tasks[c]? = some (append now items, t) →
    t.ended = some (.error e) → s.state.commits c = []
  returned : ∀ c now items t reply, s.tasks[c]? = some (append now items, t) →
    t.ended = some (.ok reply) → ∃ n new, reply = .number n ∧ new.Sublist items ∧ new.length = n ∧
      (s.state.commits c = [] ∧ new = [] ∨ ∃ before after, s.state.commits c = [⟨c, before, after⟩] ∧
        after.rows = before.rows ++ new.map (spoolRow now))

section
variable {turns : List (Turn StatementCalls PyError SpoolOperation)} {s : SpoolTasks}

/-- **An operation that has returned did what it does alone**, and committed just that. -/
theorem serial_of_ended (hplay : newSpoolFile.play (run maxItems) turns = some s)
    {op : SpoolOperation} {t : Coro StatementCalls SpoolFile PyError SpoolReply} {reply : SpoolReply}
    (htask : s.tasks[c]? = some (op, t)) (hended : t.ended = some (.ok reply)) :
    Serial maxItems c op reply (s.state.commits c) := by
  have htame := Tasks.tame_play (keeps_run maxItems) (tame_newSpoolFile maxItems) hplay
  obtain ⟨s', r⟩ | _ := t
  · cases hended
    obtain ⟨made, hs, hserial⟩ := htame.ready c op _ htask
    rw [hs.commits]
    exact hserial
  · cases hended

/-- **An operation that has raised has committed nothing.** -/
theorem commits_of_raised (hplay : newSpoolFile.play (run maxItems) turns = some s)
    {op : SpoolOperation} {t : Coro StatementCalls SpoolFile PyError SpoolReply} {e : Raised PyError}
    (htask : s.tasks[c]? = some (op, t)) (hended : t.ended = some (.error e)) :
    s.state.commits c = [] := by
  have htame := Tasks.tame_play (keeps_run maxItems) (tame_newSpoolFile maxItems) hplay
  obtain ⟨s', r⟩ | _ := t
  · cases hended
    have hs : s.state.Knows c none [] := htame.ready c op _ htask
    exact hs.commits
  · cases hended

/-- What an append that does what it does alone has added. -/
theorem added_of_serial {now : DateTime} {items : List WorkerPollResult} {reply : SpoolReply}
    (h : Serial maxItems c (append now items) reply made) :
    ∃ n new, reply = .number n ∧ new.Sublist items ∧ new.length = n ∧
      (made = [] ∧ new = [] ∨ ∃ before after, made = [⟨c, before, after⟩] ∧
        after.rows = before.rows ++ new.map (spoolRow now)) := by
  obtain ⟨b, t, hmade, hreply, htable⟩ := h
  cases happend : ((b.handle maxItems).append now items).1 with
  | error e =>
    rw [execute, Prod.map_fst, happend] at hreply
    cases hreply
  | ok n =>
    obtain ⟨hrows, hn⟩ := DurableSqliteSpool.append_ok happend
    rw [execute, Prod.map_fst, happend] at hreply
    rw [execute, Prod.map_snd, id] at htable
    rw [htable, SpoolTable.handle_table] at hrows
    cases hreply
    refine ⟨n, (b.handle maxItems).newItems items, rfl, List.filter_sublist, hn.symm, ?_⟩
    rcases hmade with ⟨hmade, rfl⟩ | hmade
    · have hnone := List.self_eq_append_right.1 hrows
      exact .inl ⟨hmade, List.map_eq_nil_iff.1 hnone⟩
    · exact .inr ⟨b, t, hmade, hrows⟩

/-- **Handles that share a file keep it consistent**, whatever the order of their statements. -/
theorem shared_spool_consistent (hplay : newSpoolFile.play (run maxItems) turns = some s) :
    Consistent maxItems s where
  bounded := (Tasks.tame_play (keeps_run maxItems) (tame_newSpoolFile maxItems) hplay).inv.bounded
  unique := s.state.committed.primary_key
  inserted id hid := by
    have hinv := (Tasks.tame_play (keeps_run maxItems) (tame_newSpoolFile maxItems) hplay).inv
    have hempty : id ∉ SpoolTable.empty.ids := by nofun
    obtain ⟨e, he, hchange⟩ := linked_change (P := (id ∈ ·.ids)) hinv.linked hempty hid
    exact ⟨e.connection, e, List.mem_filter.2 ⟨he, decide_eq_true rfl⟩, hchange⟩
  raised _ _ _ _ _ htask hended := commits_of_raised hplay htask hended
  returned _ _ _ _ _ htask hended := added_of_serial (serial_of_ended hplay htask hended)

end

/-- Every statement has its effect. -/
def granted : (c : Unit) → Outcome PyError Unit := fun _ => .ok ()

/-- Two appends race for the one place of the file: the second asks for the lock while the
    first has it, and a third finds the file full. -/
def racingAppends : List (Turn StatementCalls PyError SpoolOperation) :=
  let one := makePollResult pollOne (.boolean true)
  let two := makePollResult pollTwo (.boolean true)
  [.start (.append timestamp [one]), .start (.append timestamp [two]), .resume 0 granted,
    .resume 0 granted, .resume 1 granted, .resume 0 granted, .resume 0 granted, .resume 0 granted,
    .start (.append timestamp [two]), .resume 2 granted, .resume 2 granted, .resume 2 granted,
    .resume 2 granted]

theorem racing_appends_consistent :
    ∃ s, newSpoolFile.play (run 1) racingAppends = some s ∧ s.Idle ∧
      s.state.committed.rows.length = 1 ∧ Consistent 1 s := by
  have hend : (newSpoolFile.play (run 1) racingAppends).any (fun s =>
      s.tasks.all (·.2.ended.isSome) && (s.state.committed.rows.length == 1)) = true := by
    decide +kernel
  obtain ⟨s, hplay, hs⟩ := (Option.any_eq_true _ _).1 hend
  rw [Bool.and_eq_true, List.all_eq_true, beq_iff_eq] at hs
  exact ⟨s, hplay, hs.1, hs.2, shared_spool_consistent hplay⟩

end SpoolOperation

end PlcGateway
