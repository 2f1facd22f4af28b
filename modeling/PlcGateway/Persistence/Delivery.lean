/-
  The last items of a writer that was asked to stop.

  Nothing is put any more, and every job is executed.  A round replays entries that are due,
  or takes an item, or flushes the batch; so `workLeft` gets less in every round, and when
  the loop is left all items are in the main database (`stopped_writer_delivers`).
-/
import PlcGateway.Persistence.Recovery

namespace PlcGateway

open Coroutine Relation

/-! ## The items of a writer that was asked to stop -/

/-- The items that the writer still has to save. -/
def WriterState.unsaved (s : WriterState) : List WorkerPollResult := s.pendingBatch ++ s.queue.items

/-- The files have advanced, and the items are stored unless they are still to be saved. -/
structure Delivers (P : WorkerPollResult → Prop) (s : WriterState) (st : Stores) (s' : WriterState)
    (st' : Stores) : Prop extends st.Advances P st' where
  accepting : st'.Accepting P
  items : ∀ r ∈ s.unsaved, r ∈ s'.unsaved ∨ Stored st'.database r
  unsaved : s'.unsaved ⊆ s.unsaved

theorem Idle.unsaved {s s' : WriterState} (h : Idle s s') : s'.unsaved = s.unsaved := by
  rw [WriterState.unsaved, h.pendingBatch, h.items, WriterState.unsaved]

section
variable {P : WorkerPollResult → Prop} {s s' s'' : WriterState} {st st' st'' : Stores}

theorem Delivers.trans (h : Delivers P s st s' st') (h' : Delivers P s' st' s'' st'')
    (hs : ∀ r ∈ s.unsaved, P r) : Delivers P s st s'' st'' := by
  refine ⟨h.toAdvances.trans h'.toAdvances, h'.accepting, fun r hr => ?_,
    fun r hr => h.unsaved (h'.unsaved hr)⟩
  rcases h.items r hr with hleft | hstored
  · exact h'.items r hleft
  · exact .inr (h'.stored r (hs r hr) hstored)

/-- The same items are still to be saved. -/
theorem Delivers.same (hst : st'.Accepting P) (hadvances : st.Advances P st')
    (h : s'.unsaved = s.unsaved) : Delivers P s st s' st' := by
  refine ⟨hadvances, hst, fun r hr => .inl ?_, ?_⟩
  · rw [h]
    exact hr
  · rw [h]
    exact fun r hr => hr

end

/-- No matter what, a writer without a get task stays idle. -/
theorem unbooked_idle : Unbooked fun s s' => s.getTask = none → Idle s s' where
  refl _ := .refl
  trans _ _ _ h h' hg := (h hg).trans (h' (h hg).getTask)
  books _ _ c e h hg := (h hg).books c e

namespace Writer

/-- There is something to do while the loop goes on. -/
theorem work_pos {s : WriterState} (hstop : s.stopRequested = true)
    (hgo : s.shouldStop = false) : 0 < work s := by
  rw [Nat.pos_iff_ne_zero]
  intro hz
  have hi : s.queue.items = [] := List.length_eq_zero_iff.1 (by unfold work at hz; omega)
  have hp : s.pendingBatch = [] := List.length_eq_zero_iff.1 (by unfold work at hz; omega)
  rw [WriterState.shouldStop, hstop, ReadingQueue.size, hi, hp] at hgo
  cases hgo

section
variable {P : WorkerPollResult → Prop} {τ : Type} {env : Answers τ} {files : τ → Stores}
  {maxItems : ℕ+} {cfg : WriterConfig} {s : WriterState} {x : τ}
  (hP : SameContent P) (henv : env.Serves files maxItems) (hd : env.Drains)
include hd

/-- A drain runs a method to an end that its contract allows. -/
theorem exec_drain {α : Type} {t : Coro WriterCalls WriterState PyError α}
    {Q : Outcome PyError α → WriterState → Prop}
    (ht : t.wp drainContract (fun r s' _ => Q r s') []) :
    Q (t.exec env x).1 (t.exec env x).2.1 :=
  wp_exec (K := drainContract) (fun c s x => ⟨hd.rely c s x, hd.answer c s x, hd.alive c s x⟩) ht x

/-- While it waits for an item the writer keeps what no thread breaks. -/
theorem exec_waitForItemOrStop_drain {J : τ → Prop}
    (hother : ∀ c s x, (∀ job t, c ≠ .toThread job t) → J x → J (env c s x).2.2)
    (cfg : WriterConfig) {item : WorkerPollResult} {rest : List WorkerPollResult}
    (hs : s.stopRequested = true) (hitems : s.queue.items = item :: rest) :
    ∃ s' x', ((waitForItemOrStop cfg) s).exec env x = (.ok (some item), s', x') ∧
      Takes item rest s s' ∧ (J x → J x') := by
  have hkeeps : Prog.Keeps env J (waitForItemOrStop cfg) := by
    have hcall : ∀ c : WriterCall, (∀ job t, c ≠ .toThread job t) →
        Prog.Keeps env J (Prog.await (C := WriterCalls) c) :=
      fun c hc => Prog.keeps_await fun s x' => hother c s x' hc
    refine Prog.keeps_bind (Prog.keeps_modify _) fun _ =>
      Prog.keeps_bind (hcall _ ?_) fun stopDone => ?_
    · rintro job t ⟨⟩
    · refine Prog.keeps_bind (fun _ _ hx' => hx') fun a => ?_
      split
      · split_ifs
        · exact Prog.keeps_bind (Prog.keeps_modify _) fun _ => Prog.keeps_pure _
        · exact Prog.keeps_bind (hcall _ (by rintro job t ⟨⟩)) fun _ =>
            Prog.keeps_bind (Prog.keeps_modify _) fun _ => Prog.keeps_pure _
      · exact Prog.keeps_bind (Prog.keeps_modify _) fun _ =>
          Prog.keeps_bind (hcall _ (by rintro job t ⟨⟩)) fun _ => Prog.keeps_pure _
  obtain ⟨hr, htakes⟩ := exec_drain (x := x) (t := (waitForItemOrStop cfg) s) hd
    (wp_waitForItemOrStop_drain [] hs hitems)
  exact ⟨_, _, Prod.ext hr rfl, htakes, hkeeps s x⟩

/-- Without a replay, a round flushes, or takes an item and flushes a batch that is full. -/
theorem exec_consume_cases {J : τ → Prop}
    (hother : ∀ c s x, (∀ job t, c ≠ .toThread job t) → J x → J (env c s x).2.2)
    (hinv : DrainInv cfg s) :
    (s.queue.items = [] ∧ ((consume cfg) s).exec env x = ((flushPending cfg) s).exec env x) ∨
    ∃ item rest s₁ x₁, s.queue.items = item :: rest ∧ Takes item rest s s₁ ∧ (J x → J x₁) ∧
      let s₂ : WriterState := { s₁ with pendingBatch := s₁.pendingBatch ++ [item] }
      ((consume cfg) s).exec env x = if cfg.batchSize ≤ s₂.pendingBatch.length
        then ((flushPending cfg) s₂).exec env x₁ else (.ok (), s₂, x₁) := by
  rw [consume, exec_bind_of_ok (show ((Prog.get : WriterProg WriterState) s).exec env x =
    (.ok s, s, x) from rfl)]
  split_ifs with hfull hstop
  · exact absurd hinv.room (not_lt.2 hfull)
  · simp only [Bool.and_eq_true, beq_iff_eq, ReadingQueue.size, List.length_eq_zero_iff] at hstop
    exact .inl ⟨hstop.2, rfl⟩
  · have hitems : s.queue.items ≠ [] := by
      intro hn
      apply hstop
      simp only [hinv.stop, ReadingQueue.size, hn, List.length_nil, beq_self_eq_true, Bool.and_self]
    obtain ⟨item, rest, hcons⟩ := List.exists_cons_of_ne_nil hitems
    obtain ⟨s₁, x₁, hwait, htakes, hx₁⟩ :=
      exec_waitForItemOrStop_drain hd hother cfg hinv.stop hcons
    refine .inr ⟨item, rest, s₁, x₁, hcons, htakes, hx₁, ?_⟩
    set s₂ : WriterState := { s₁ with pendingBatch := s₁.pendingBatch ++ [item] }
    rw [exec_bind_of_ok hwait]
    simp only
    rw [exec_bind_of_ok (exec_modify _ _ _ _), exec_bind_of_ok (show
      ((Prog.get : WriterProg WriterState) s₂).exec env x₁ = (.ok s₂, s₂, x₁) from rfl)]
    split_ifs <;> rfl

/-- A round of a drain that goes on replays, or else does what is done without a replay. -/
theorem exec_runIteration_cases {J : τ → Prop}
    (hkept : ∀ limit t s x, J x → J (env (.toThread (.fetchDue limit) t) s x).2.2)
    (hinv : DrainInv cfg s) (hgo : s.shouldStop = false) :
    (Finds cfg env s x ∧ ∀ s' x', ((replaySpoolOnce cfg) s).exec env x = (.ok true, s', x') →
      ((runIteration cfg) s).exec env x = (.ok true, s', x')) ∨
    ¬ Finds cfg env s x ∧ ∃ s₁ x₁, Idle s s₁ ∧ (J x → J x₁) ∧
      ∀ s' x', ((consume cfg) s₁).exec env x₁ = (.ok (), s', x') →
        ((runIteration cfg) s).exec env x = (.ok true, s', x') := by
  by_cases hp : s.pendingBatch = []
  swap
  · refine .inr ⟨fun hfinds => hp hfinds.2.1, s, x, .refl hinv.getTask, id, fun s' x' hexec => ?_⟩
    have hbody : consumeOrFlush cfg s = consume cfg s :=
      congrFun (if_neg fun hempty => hp (List.isEmpty_iff.1 hempty)) s
    exact exec_runIteration_goes hgo (hbody ▸ hexec)
  by_cases hfinds : Finds cfg env s x
  · refine .inl ⟨hfinds, fun s' x' hexec => exec_runIteration_goes hgo ?_⟩
    rw [consumeOrFlush_of_empty hp, exec_bind_of_ok hexec]
    rfl
  · obtain ⟨s₁, x₁, hexec, hidle, hx₁⟩ := exec_replaySpoolOnce_nothing unbooked_idle
      (fun c s x hg => idle_of_rely hg (hd.rely c s x)) (hkept _ cfg.spoolTimeoutS s x)
      (hd.alive _ s x) (fun hspool entries hfetch => by
        by_contra hne
        exact hfinds ⟨hspool, hp, entries, hne, hfetch⟩)
    refine .inr ⟨hfinds, s₁, x₁, hidle hinv.getTask, hx₁, fun s' x' hexec' =>
      exec_runIteration_goes hgo ?_⟩
    rw [consumeOrFlush_of_empty hp, exec_bind_of_ok hexec]
    exact hexec'

omit hd in
/-- The item that was taken is still to be saved. -/
theorem unsaved_of_takes {item : WorkerPollResult} {rest : List WorkerPollResult}
    {s₁ : WriterState} (hcons : s.queue.items = item :: rest) (h : Takes item rest s s₁) :
    WriterState.unsaved { s₁ with pendingBatch := s₁.pendingBatch ++ [item] } = s.unsaved := by
  simp only [WriterState.unsaved, h.pendingBatch, h.items, hcons, List.append_assoc,
    List.singleton_append]

omit hd in
/-- What the queue counts as unfinished covers the batch with the item that was taken. -/
theorem length_le_unfinished_of_takes {item : WorkerPollResult} {rest : List WorkerPollResult}
    {s₁ : WriterState} (hinv : DrainInv cfg s) (hcons : s.queue.items = item :: rest)
    (h : Takes item rest s s₁) : (s₁.pendingBatch ++ [item]).length ≤ s₁.queue.unfinished := by
  have hun := hinv.unfinished
  rw [hcons, List.length_cons] at hun
  rw [h.pendingBatch, h.unfinished, List.length_append, List.length_singleton]
  omega

include henv

include hP

/-- A flush stores the batch. -/
theorem exec_flushPending_drain (cfg : WriterConfig) (hst : (files x).Accepting P)
    (hg : s.getTask = none) (hun : s.pendingBatch.length ≤ s.queue.unfinished)
    (hin : ∀ r ∈ s.pendingBatch, P r) :
    ∃ s' x', ((flushPending cfg) s).exec env x = (.ok (), s', x') ∧ Flushes s s' ∧
      (files x).Advances P (files x') ∧ (files x').Accepting P ∧
      (∀ r ∈ s.pendingBatch, Stored (files x').database r) ∧
      (files x').spool = (files x).spool := by
  obtain ⟨hr, hflushes⟩ := exec_drain (x := x) (t := (flushPending cfg) s) hd
    (wp_flushPending_drain [] hg hun)
  obtain ⟨n, db, hsave, hsaved, hadvances, hstored⟩ := hst.save hP hin
  have hfiles : files (((flushPending cfg) s).exec env x).2.2 =
      { files x with database := db } := by
    rw [flushPending, exec_bind_of_ok (show ((Prog.get : WriterProg WriterState) s).exec env x =
      (.ok s, s, x) from rfl)]
    simp only
    split_ifs with hempty
    · rw [List.isEmpty_iff.1 hempty] at hsave
      cases hsave
      rfl
    · obtain ⟨c, hpersist, hx'⟩ := exec_persistBatch_saved henv.reachable cfg s hsave
      have hkeeps : ∀ f : WriterState → WriterState, Prog.Keeps env
          (fun x' => files x' = { files x with database := db })
          (Prog.modify f >>= fun _ => ackBatch s.pendingBatch.length .persisted) :=
        fun f => Prog.keeps_bind (Prog.keeps_modify f) fun _ => keeps_ackBatch _ _ _
      rw [exec_bind_of_ok hpersist]
      exact hkeeps _ _ _ hx'
  refine ⟨_, _, Prod.ext hr rfl, hflushes, ?_⟩
  rw [hfiles]
  exact ⟨hadvances, hsaved, hstored, rfl⟩

omit hP henv hd in
/-- A flush delivers the batch. -/
theorem delivers_flush {s' : WriterState} {st st' : Stores} (hflushes : Flushes s s')
    (hadvances : st.Advances P st') (hst' : st'.Accepting P)
    (hstored : ∀ r ∈ s.pendingBatch, Stored st'.database r) : Delivers P s st s' st' := by
  have hleft : s'.unsaved = s.queue.items := by
    rw [WriterState.unsaved, hflushes.pendingBatch, hflushes.items, List.nil_append]
  refine ⟨hadvances, hst', fun r hr => ?_, ?_⟩
  · rw [hleft]
    rcases List.mem_append.1 hr with hbatch | hitem
    · exact .inr (hstored r hbatch)
    · exact .inl hitem
  · rw [hleft]
    exact List.subset_append_right _ _

/-- A round without a replay delivers what it flushes. -/
theorem exec_consume_drain (hst : (files x).Accepting P) (hinv : DrainInv cfg s)
    (hin : ∀ r ∈ s.unsaved, P r) :
    ∃ s' x', ((consume cfg) s).exec env x = (.ok (), s', x') ∧
      Delivers P s (files x) s' (files x') ∧ (files x').spool = (files x).spool := by
  have hun := hinv.unfinished
  obtain ⟨-, hconsume⟩ | ⟨item, rest, s₁, x₁, hcons, htakes, hkept, hconsume⟩ :=
    exec_consume_cases (J := fun x' => files x' = files x) hd
      (fun c s x' hc hx' => (henv.other c s x' hc).trans hx') hinv
  · obtain ⟨s', x', hexec, hflushes, hadvances, hst', hstored, hspool⟩ :=
      exec_flushPending_drain hP henv hd cfg hst hinv.getTask (by omega)
        fun r hr => hin r (List.mem_append_left _ hr)
    rw [hconsume]
    exact ⟨s', x', hexec, delivers_flush hflushes hadvances hst' hstored, hspool⟩
  · have hx₁ : files x₁ = files x := hkept rfl
    set s₂ : WriterState := { s₁ with pendingBatch := s₁.pendingBatch ++ [item] }
    have hunsaved : s₂.unsaved = s.unsaved := unsaved_of_takes hcons htakes
    have htook : Delivers P s (files x) s₂ (files x₁) := by
      rw [hx₁]
      exact .same hst (.refl _) hunsaved
    rw [hconsume]
    split_ifs
    · rw [← hx₁] at hst
      have hg₂ : s₂.getTask = none := htakes.getTask
      obtain ⟨s', x', hexec, hflushes, hadvances, hst', hstored, hspool⟩ :=
        exec_flushPending_drain hP henv hd cfg hst hg₂
          (length_le_unfinished_of_takes hinv hcons htakes)
          fun r hr => hin r (hunsaved ▸ List.mem_append_left _ hr)
      refine ⟨s', x', hexec, htook.trans (delivers_flush hflushes hadvances hst' hstored) hin, ?_⟩
      rw [hspool, hx₁]
    · exact ⟨s₂, x₁, rfl, htook, by rw [hx₁]⟩

end

end Writer

/-- A writer that was asked to stop, with items in `P` over files that accept them. -/
structure Draining (P : WorkerPollResult → Prop) (cfg : WriterConfig) (s : WriterState)
    (st : Stores) : Prop where
  inv : Writer.DrainInv cfg s
  accepting : st.Accepting P
  items : ∀ r ∈ s.unsaved, P r

/-- The work and the spooled entries that are left. -/
def workLeft (s : WriterState) (st : Stores) : ℕ := Writer.work s + st.spool.rows.length

theorem SpoolTable.length_delete_lt {t : SpoolTable} {ids : List String} {row : SpoolRow}
    (hrow : row ∈ t.rows) (hid : row.executionId ∈ ids) :
    (t.delete ids).rows.length < t.rows.length := by
  refine List.length_filter_lt_length_iff_exists.2 ⟨row, hrow, ?_⟩
  simp only [decide_eq_true_eq, not_not]
  exact hid

section
variable {P : WorkerPollResult → Prop} {τ : Type} {files : τ → Stores} {maxItems : ℕ+}
  {cfg : WriterConfig} {s : WriterState} {x : τ}

/-- What a round has done that goes on. -/
structure Proceeds (P : WorkerPollResult → Prop) (cfg : WriterConfig) (s : WriterState)
    (st : Stores) (s' : WriterState) (st' : Stores) : Prop extends Delivers P s st s' st' where
  inv : Writer.DrainInv cfg s'
  less : workLeft s' st' < workLeft s st

/-- A round that takes an item or flushes. -/
theorem Draining.consume {env : Answers τ} (hP : SameContent P) (henv : env.Serves files maxItems)
    (hd : env.Drains) (h : Draining P cfg s (files x)) (hwork : 0 < Writer.work s) :
    ∃ s' x', ((Writer.consume cfg) s).exec env x = (.ok (), s', x') ∧
      Proceeds P cfg s (files x) s' (files x') := by
  obtain ⟨s', x', hexec, hdelivers, hspool⟩ :=
    Writer.exec_consume_drain hP henv hd h.accepting h.inv h.items
  have hpost := Writer.exec_drain (x := x) hd (Writer.wp_consume_drain [] h.inv hwork)
  rw [hexec] at hpost
  obtain ⟨-, hinv', hless⟩ := hpost
  refine ⟨s', x', hexec, hdelivers, hinv', ?_⟩
  rw [workLeft, workLeft, hspool]
  exact Nat.add_lt_add_right hless _

/-- A round that finds due entries replays them. -/
theorem Draining.replay {env : Answers τ} (hP : SameContent P) (henv : env.Serves files maxItems)
    (hd : env.Drains) (h : Draining P cfg s (files x)) (hfinds : Finds cfg env s x) :
    ∃ s' x', ((Writer.replaySpoolOnce cfg) s).exec env x = (.ok true, s', x') ∧
      Proceeds P cfg s (files x) s' (files x') := by
  obtain ⟨hspool, -, entries, hne, hfetch⟩ := hfinds
  obtain ⟨-, hrows⟩ := fetchDue_served henv hfetch
  obtain ⟨n, db, hsave, haccepting, hadvances⟩ := h.accepting.replay hP hrows
  obtain ⟨s', x', hexec, hidle, hx'⟩ := Writer.exec_replaySpoolOnce_found unbooked_idle henv
    (fun c s x hg => idle_of_rely hg (hd.rely c s x)) hspool hfetch hne hsave
  obtain ⟨hinv', hwork⟩ := Writer.drainInv_of_idle h.inv (hidle h.inv.getTask)
  rw [← hx'] at haccepting hadvances
  refine ⟨s', x', hexec, .same haccepting hadvances (hidle h.inv.getTask).unsaved, hinv', ?_⟩
  obtain ⟨e, he⟩ := List.exists_mem_of_ne_nil _ hne
  obtain ⟨row, hrow, hentry⟩ := hrows e he
  have hid : row.executionId ∈ entries.map SpoolEntry.executionId := by
    rw [← executionId_of_spoolEntry hentry]
    exact List.mem_map_of_mem he
  have hless := SpoolTable.length_delete_lt hrow hid
  rw [workLeft, workLeft, hwork, hx']
  exact Nat.add_lt_add_left hless _

/-- A round that is not the last. -/
theorem Draining.goes {env : Answers τ} (hP : SameContent P) (henv : env.Serves files maxItems)
    (hd : env.Drains) (h : Draining P cfg s (files x)) (hgo : s.shouldStop = false) :
    ∃ s' x', (Writer.runIteration cfg s).exec env x = (.ok true, s', x') ∧
      Proceeds P cfg s (files x) s' (files x') := by
  have hwork := Writer.work_pos h.inv.stop hgo
  have hfetch : ∀ limit t s x', files x' = files x →
      files (env (.toThread (.fetchDue limit) t) s x').2.2 = files x :=
    fun limit t s x' hx' => (henv.job (.fetchDue limit) t s x').choose_spec.2.trans hx'
  obtain ⟨hfinds, hround⟩ | ⟨-, s₁, x₁, hidle, hkept, hround⟩ :=
    Writer.exec_runIteration_cases hd hfetch h.inv hgo
  · obtain ⟨s', x', hexec, hproceeds⟩ := h.replay hP henv hd hfinds
    exact ⟨s', x', hround s' x' hexec, hproceeds⟩
  · have hx₁ : files x₁ = files x := hkept rfl
    obtain ⟨hinv₁, hwork₁⟩ := Writer.drainInv_of_idle h.inv hidle
    have h₁ : Draining P cfg s₁ (files x₁) := by
      refine ⟨hinv₁, ?_, ?_⟩
      · rw [hx₁]
        exact h.accepting
      · rw [hidle.unsaved]
        exact h.items
    rw [← hwork₁] at hwork
    obtain ⟨s', x', hexec, hdelivers, hinv', hless⟩ := h₁.consume hP henv hd hwork
    refine ⟨s', x', hround s' x' hexec, ?_, hinv', ?_⟩
    · have hsame : Delivers P s (files x) s₁ (files x₁) := by
        rw [hx₁]
        exact .same h.accepting (.refl _) hidle.unsaved
      exact hsame.trans hdelivers h.items
    · rw [workLeft, workLeft, hwork₁, hx₁] at hless
      exact hless

/-- The last round. -/
theorem Draining.stops (h : Draining P cfg s (files x)) (hstop : s.shouldStop = true)
    (env : Answers τ) :
    let y := (Writer.runIteration cfg s).exec env x
    Drained y ∧ Delivers P s (files x) y.2.1 (files y.2.2) := by
  have hempty := hstop
  simp only [WriterState.shouldStop, Bool.and_eq_true, beq_iff_eq, ReadingQueue.size,
    List.length_eq_zero_iff, List.isEmpty_iff] at hempty
  rw [Writer.exec_runIteration_stops hstop hempty.2]
  exact ⟨⟨rfl, hempty.1.2, hempty.2⟩, .same h.accepting (.refl _) rfl⟩

theorem Proceeds.draining {s' : WriterState} {st st' : Stores} (h : Proceeds P cfg s st s' st')
    (hs : ∀ r ∈ s.unsaved, P r) : Draining P cfg s' st' :=
  ⟨h.inv, h.accepting, fun r hr => hs r (h.unsaved hr)⟩

variable {env : ℕ → Answers τ}

/-- After `n` rounds the loop has been left, or each of them has done something. -/
theorem Draining.rounds (hP : SameContent P) (henv : ∀ n, (env n).Serves files maxItems)
    (hd : ∀ n, (env n).Drains) (h : Draining P cfg s (files x)) (n : ℕ) :
    (∃ m ≤ n, let y := drain cfg env s x m
      Drained y ∧ Delivers P s (files x) y.2.1 (files y.2.2)) ∨
    let y := drain cfg env s x n
    y.1 = .ok true ∧ Draining P cfg y.2.1 (files y.2.2) ∧
      Delivers P s (files x) y.2.1 (files y.2.2) ∧
      workLeft y.2.1 (files y.2.2) + n ≤ workLeft s (files x) := by
  induction n with
  | zero => exact .inr ⟨rfl, h, .same h.accepting (.refl _) rfl, le_rfl⟩
  | succ n ih =>
    rcases ih with ⟨m, hm, hleft⟩ | ⟨hok, hdraining, hdelivers, hle⟩
    · exact .inl ⟨m, hm.trans (Nat.le_succ n), hleft⟩
    · cases hstop : (drain cfg env s x n).2.1.shouldStop with
      | true =>
        obtain ⟨hdrained, hdelivers'⟩ := hdraining.stops hstop (env n)
        refine .inl ⟨n + 1, le_rfl, ?_⟩
        rw [drain_succ hok]
        exact ⟨hdrained, hdelivers.trans hdelivers' h.items⟩
      | false =>
        obtain ⟨s', x', hexec, hproceeds⟩ := hdraining.goes hP (henv n) (hd n) hstop
        refine .inr ?_
        rw [drain_succ hok, hexec]
        refine ⟨rfl, hproceeds.draining hdraining.items,
          hdelivers.trans hproceeds.toDelivers h.items, ?_⟩
        have hless := hproceeds.less
        simp only
        omega

/-- The loop is left, with all items in the main database. -/
theorem Draining.delivered (hP : SameContent P) (henv : ∀ n, (env n).Serves files maxItems)
    (hd : ∀ n, (env n).Drains) (h : Draining P cfg s (files x)) :
    ∃ n ≤ workLeft s (files x) + 1, let z := drain cfg env s x n
      Drained z ∧ (∀ r ∈ s.unsaved, Stored (files z.2.2).database r) ∧
        (files x).Advances P (files z.2.2) ∧ (files z.2.2).Accepting P := by
  rcases h.rounds hP henv hd (workLeft s (files x) + 1) with
    ⟨m, hm, hdrained, hdelivers⟩ | ⟨-, -, -, hle⟩
  · refine ⟨m, hm, hdrained, fun r hr => ?_, hdelivers.toAdvances, hdelivers.accepting⟩
    refine (hdelivers.items r hr).resolve_left fun hleft => ?_
    rw [WriterState.unsaved, hdrained.2.1, hdrained.2.2] at hleft
    cases hleft
  · omega

/-- The items that a good writer still has to save were put. -/
theorem unsaved_subset_puts {y : Config WriterCalls WriterState PyError}
    (hgood : y.Good (writerContract cfg) (WriterInv cfg) (WriterEnd cfg)) :
    y.state.unsaved ⊆ y.state.log.puts := by
  have ha := Writer.account_of_good hgood
  intro r hr
  rw [ha.queued, ha.taken]
  rcases List.mem_append.1 hr with hbatch | hitem
  · exact List.mem_append_left _ (List.mem_append_left _ (List.mem_append_right _ hbatch))
  · exact List.mem_append_right _ hitem

/-- **A writer that is asked to stop delivers what it has.**  When nothing is put any more,
    every job is executed and the database accepts the poll results, the loop is left within a
    bounded number of rounds, with every item of the batch and the queue in the main database;
    no spooled entry is lost, and none is added. -/
theorem stopped_writer_delivers (hP : SameContent P) {maxSize : ℕ}
    {y : Config WriterCalls WriterState PyError} (hrun : Writer.Run cfg (.empty maxSize) y)
    (hb : y.control = .boundary) (hstop : y.state.stopRequested = true)
    (hputs : ∀ r ∈ y.state.log.puts, P r) (henv : ∀ n, (env n).Serves files maxItems)
    (hd : ∀ n, (env n).Drains) (hst : (files x).Accepting P) :
    ∃ n ≤ 2 * y.state.queue.items.length + y.state.pendingBatch.length +
        (files x).spool.rows.length + 1,
      let z := drain cfg env y.state x n
      Drained z ∧ (∀ r ∈ y.state.unsaved, Stored (files z.2.2).database r) ∧
        (files z.2.2).spool.rows.Sublist (files x).spool.rows ∧
        ∀ r ∈ (files x).appended, (files z.2.2).Keeps r := by
  have hgood := Writer.good_run hrun
  have hdraining : Draining P cfg y.state (files x) :=
    ⟨drainInv_of_good hgood hb hstop, hst, fun r hr => hputs r (unsaved_subset_puts hgood hr)⟩
  obtain ⟨n, hn, hdrained, hstored, hadvances, -⟩ := hdraining.delivered hP henv hd
  refine ⟨n, hn, hdrained, hstored, hadvances.rows, fun r hr => ?_⟩
  obtain ⟨hPr, hkept⟩ := hst.kept r hr
  exact hadvances.kept r hPr hkept

end

/-- Every job is executed, and a get task that is waited for takes an item. -/
def serveWaiting : Answers Stores := .ofThreads fun job => job.execute testMaxItems timestamp

theorem serveWaiting_serves : serveWaiting.Serves id testMaxItems where
  job _ _ _ _ := ⟨timestamp, rfl, rfl⟩
  other c s x hc := by
    cases c with
    | toThread job t => exact absurd rfl (hc job t)
    | _ => rfl
  sleep _ _ _ := rfl

theorem nodup_otherItem : ([otherItem].map WorkerPollResult.executionId).Nodup :=
  List.nodup_singleton _

/-- One item in the queue, and an entry of an earlier outage in the spool. -/
theorem stopped_writer_delivers_both : ∃ n ≤ 4,
    let z := drain (testConfig true) (fun _ => serveWaiting) stoppedState
      (replayStores [otherItem] nodup_otherItem) n
    Drained z ∧ Stored z.2.2.database testItem ∧ z.2.2.Keeps otherItem := by
  have hst : (id (replayStores [otherItem] nodup_otherItem)).Accepting
      (· ∈ [testItem, otherItem]) :=
    accepting_replayStores nodup_otherItem fun r hr => List.mem_cons_of_mem _ hr
  obtain ⟨n, hn, hdrained, hstored, -, hkept⟩ := stopped_writer_delivers
    sameContent_pair run_stoppedState rfl rfl
    (fun r hr => List.mem_cons.2 (.inl (List.mem_singleton.1 hr))) (fun _ => serveWaiting_serves)
    (fun _ => drains_ofThreads _) hst
  exact ⟨n, hn, hdrained, hstored testItem (List.mem_singleton_self _),
    hkept otherItem (List.mem_singleton_self _)⟩

end PlcGateway
