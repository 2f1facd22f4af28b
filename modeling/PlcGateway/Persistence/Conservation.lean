/-
  What a run of the writer does with the items of the queue: they are conserved
  between two rounds, and a cancelled run is clean if and only if its cancellations
  spare the get task and the `finally`.
-/
import PlcGateway.Persistence.WriterRun

namespace PlcGateway

open Coroutine Relation

theorem itemCount_cons (b : List WorkerPollResult × Verdict)
    (batches : List (List WorkerPollResult × Verdict)) :
    itemCount (b :: batches) = b.1.length + itemCount batches := List.sum_cons

theorem itemCount_filter (p : List WorkerPollResult × Verdict → Bool)
    (batches : List (List WorkerPollResult × Verdict)) :
    itemCount (batches.filter p) + itemCount (batches.filter fun b => !p b) =
      (batches.map Prod.fst).flatten.length := by
  induction batches with
  | nil => rfl
  | cons b batches ih =>
    rw [List.map_cons, List.flatten_cons, List.length_append, ← ih]
    cases hp : p b with
    | true =>
      rw [List.filter_cons_of_pos hp, List.filter_cons_of_neg (by rw [hp]; decide), itemCount_cons]
      omega
    | false =>
      rw [List.filter_cons_of_neg (by rw [hp]; decide), List.filter_cons_of_pos (by rw [hp]; rfl),
        itemCount_cons]
      omega

/-- The acknowledged items are those that are counted. -/
theorem Account.counted {cfg : WriterConfig} {s : WriterState} {h : WriterHistory}
    (ha : Account cfg s h) : s.counters.successfulPollResults + s.counters.failedPollResults =
      (s.log.flushed.map Prod.fst).flatten.length := by
  rw [ha.successful, ha.failed, ← itemCount_filter fun b => b.2 = .persisted]
  simp only [ne_eq, decide_not]

/-- **Items are conserved.**  Between two rounds: (a) the taken items are the
    successful, the failed and the pending ones; (b) the unfinished tasks of the
    queue are its items and the pending ones; (c) the pending batch has room;
    (d) what was put is the flushed batches, the pending batch and the queue, in
    this order; (e) the successful items are those of batches whose save returned,
    the failed items those of batches whose `append` returned, raised, timed out or
    had no spool to go to. -/
theorem writer_conserves_items {cfg : WriterConfig} {maxSize : ℕ}
    {x : Config WriterCalls WriterState PyError} (hrun : Writer.Run cfg (.empty maxSize) x)
    (hb : x.control = .boundary) :
    let s := x.state
    (s.log.gets.length = s.counters.successfulPollResults + s.counters.failedPollResults +
      s.pendingBatch.length) ∧
    (s.queue.unfinished = s.queue.size + s.pendingBatch.length) ∧
    (s.pendingBatch.length < cfg.batchSize) ∧
    (s.log.gets = (s.log.flushed.map Prod.fst).flatten ++ s.pendingBatch ∧
      s.log.puts = s.log.gets ++ s.queue.items ∧
      ∀ b ∈ s.log.flushed, 1 ≤ b.1.length ∧ b.1.length ≤ cfg.batchSize) ∧
    (s.counters.successfulPollResults = itemCount (s.log.flushed.filter fun b => b.2 = .persisted) ∧
      s.counters.failedPollResults = itemCount (s.log.flushed.filter fun b => b.2 ≠ .persisted) ∧
      ∀ b ∈ s.log.flushed, VerdictHolds cfg x.history b.1 b.2) := by
  intro s
  have hgood := Writer.good_run hrun
  obtain ⟨s, h, control⟩ := x
  subst hb
  obtain ⟨⟨ha, hg, hlt⟩, -⟩ := hgood
  have hheld : s.held = [] := by rw [WriterState.held, hg]
  have htaken := ha.taken
  have hun := ha.unfinished
  rw [hheld] at htaken hun
  rw [List.append_nil] at htaken
  refine ⟨?_, hun, hlt, ⟨htaken, ha.queued, ha.sizes⟩, ha.successful, ha.failed, ha.verdicts⟩
  have hc := ha.counted
  rw [htaken, List.length_append, hc]

/-- A batch that is persisted between two rounds. -/
theorem writer_conserves_items_persisted : ∃ x : Config WriterCalls WriterState PyError,
    Writer.Run (testConfig false) (.empty 1) x ∧ x.control = .boundary ∧
      x.state.counters.successfulPollResults = 1 ∧
      x.state.log.gets.length = x.state.counters.successfulPollResults +
        x.state.counters.failedPollResults + x.state.pendingBatch.length := by
  have h₀ : ReflTransGen (Writer.Step (testConfig false)) ⟨testState, [], .boundary⟩
    ⟨testState, [], .boundary⟩ := .refl
  have h₁ := h₀.tail (.env (@WriterEnv.put _ (makePollResult pollOne (.boolean true)) _ rfl))
  have h₂ := (h₁.tail .enter).tail (.env (.getTakes (.inl rfl) rfl))
  have h₃ := h₂.tail
    (.resume (C := WriterCalls) (c := WriterCall.wait 1) (r := .ok false) ⟨by simp, by simp⟩)
  have h₄ := h₃.tail
    (.resume (C := WriterCalls) (c := WriterCall.gather _) (r := .ok ()) (.inl rfl))
  have h₅ := h₄.tail
    (.resume (C := WriterCalls) (c := WriterCall.toThread (.savePollResults _) _) (r := .ok 1) trivial)
  have hrun : Writer.Run (testConfig false) (.empty 1) _ := ⟨testState, rfl, h₅⟩
  exact ⟨_, hrun, rfl, rfl, (writer_conserves_items hrun rfl).1⟩

/-- Without a spool, a failed batch is counted though no `append` was called. -/
theorem writer_counts_unspooled_items : ∃ x : Config WriterCalls WriterState PyError,
    Writer.Run (testConfig false) (.empty 1) x ∧ x.control = .boundary ∧
      x.state.counters.failedPollResults = 1 ∧
      ∀ batch n, ¬ Returned x.history (.append batch) n := by
  have h₀ : ReflTransGen (Writer.Step (testConfig false)) ⟨testState, [], .boundary⟩
    ⟨testState, [], .boundary⟩ := .refl
  have h₁ := h₀.tail (.env (@WriterEnv.put _ (makePollResult pollOne (.boolean true)) _ rfl))
  have h₂ := (h₁.tail .enter).tail (.env (.getTakes (.inl rfl) rfl))
  have h₃ := h₂.tail
    (.resume (C := WriterCalls) (c := WriterCall.wait 1) (r := .ok false) ⟨by simp, by simp⟩)
  have h₄ := h₃.tail
    (.resume (C := WriterCalls) (c := WriterCall.gather _) (r := .ok ()) (.inl rfl))
  have h₅ := h₄.tail
    (.resume (C := WriterCalls) (c := WriterCall.toThread (.savePollResults _) _)
      (r := .error (.error (.operationalError "database is locked"))) trivial)
  refine ⟨_, ⟨testState, rfl, h₅⟩, rfl, rfl, ?_⟩
  rintro batch n ⟨t, hm⟩
  rcases List.mem_cons.1 hm with hm | hm
  · cases hm
  rcases List.mem_cons.1 hm with hm | hm
  · cases hm
  · cases List.mem_singleton.1 hm

/-! ## Cancellation -/

/-- The run is over for every item that it has taken, and takes no more. -/
structure CleanlyEnded (s : WriterState) : Prop where
  acknowledged : s.log.gets = (s.log.flushed.map Prod.fst).flatten
  counted : s.counters.successfulPollResults + s.counters.failedPollResults = s.log.gets.length
  unfinished : s.queue.unfinished = s.queue.size
  getTask : s.getTask = none
  running : s.running = false
  stopped : s.stopped = true

theorem cleanlyEnded_iff {cfg : WriterConfig} {s : WriterState} {h : WriterHistory}
    (hend : Ended cfg s h) : CleanlyEnded s ↔ losses h = 0 ∧ cancellations h ≤ 2 := by
  obtain ⟨ha, hl, hout⟩ := hend
  constructor
  · intro hc
    rw [hc.getTask] at hl
    refine ⟨hl, ?_⟩
    rcases hout with ⟨hle, -⟩ | ⟨-, hr⟩
    · exact hle
    · rw [hc.running] at hr
      cases hr
  · rintro ⟨hl0, hle⟩
    rw [hl0] at hl
    have hg : s.getTask = none := by
      cases hs : s.getTask with
      | none => rfl
      | some g => rw [hs] at hl; cases hl
    have hheld : s.held = [] := by rw [WriterState.held, hg]
    rcases hout with ⟨-, hr, hst, hp⟩ | ⟨h3, -⟩
    · have htaken := ha.taken
      have hun := ha.unfinished
      rw [hheld, hp] at htaken hun
      simp only [List.append_nil, List.length_nil, Nat.add_zero] at htaken hun
      exact ⟨htaken, by rw [ha.counted, htaken], hun, hg, hr, hst⟩
    · omega

/-- A run that has ended only waits for its environment. -/
theorem ended_steps {cfg : WriterConfig} {x y : Config WriterCalls WriterState PyError}
    {r : Outcome PyError Unit} (hx : x.control = .ended r)
    (hs : ReflTransGen (Writer.Step cfg) x y) : y.control = .ended r ∧ y.history = x.history := by
  induction hs with
  | refl => exact ⟨hx, rfl⟩
  | tail _ hstep ih =>
    cases hstep with
    | env _ => exact ih
    | enter => exact absurd ih.1 (by simp)
    | resume _ => exact absurd ih.1 (by simp)

/-- **When cancelling the writer is safe.**  A run that has ended is clean from
    then on if and only if no cancellation was delivered at `asyncio.wait`, or at
    `gather` when the get task was done, and at most two were delivered at all. -/
theorem writer_cancellation_safe_iff {cfg : WriterConfig} {maxSize : ℕ}
    {x : Config WriterCalls WriterState PyError} {r : Outcome PyError Unit}
    (hrun : Writer.Run cfg (.empty maxSize) x) (hend : x.control = .ended r) :
    (∀ y, ReflTransGen (Writer.Step cfg) x y → CleanlyEnded y.state) ↔
      (∀ a ∈ x.history, losesItem a = false) ∧ cancellations x.history ≤ 2 := by
  have hgood : ∀ y, ReflTransGen (Writer.Step cfg) x y → Ended cfg y.state x.history := by
    intro y hy
    obtain ⟨s, hs, hsteps⟩ := hrun
    have hy' : y.Good (writerContract cfg) (WriterInv cfg) (WriterEnd cfg) :=
      Writer.good_run ⟨s, hs, hsteps.trans hy⟩
    obtain ⟨hc, hh⟩ := ended_steps hend hy
    obtain ⟨sy, hy₀, cy⟩ := y
    subst hc
    rw [← hh]
    exact hy'
  have hl : losses x.history = 0 ↔ ∀ a ∈ x.history, losesItem a = false := by
    simp only [losses, List.countP_eq_zero, Bool.not_eq_true]
  constructor
  · intro hclean
    have h := (cleanlyEnded_iff (hgood x .refl)).1 (hclean x .refl)
    exact ⟨hl.1 h.1, h.2⟩
  · rintro ⟨hno, hle⟩ y hy
    exact (cleanlyEnded_iff (hgood y hy)).2 ⟨hl.2 hno, hle⟩

/-- A save and the flush of the handler are cancelled; the `finally` saves the item that was
    taken, and the run ends cleanly. -/
theorem writer_cancellation_safe_save : ∃ x : Config WriterCalls WriterState PyError,
    Writer.Run (testConfig false) (.empty 1) x ∧ x.control = .ended (.error .cancelled) ∧
      cancellations x.history = 2 ∧ x.state.log.gets.length = 1 ∧
      ∀ y, ReflTransGen (Writer.Step (testConfig false)) x y → CleanlyEnded y.state := by
  have h₀ : ReflTransGen (Writer.Step (testConfig false)) ⟨testState, [], .boundary⟩
    ⟨testState, [], .boundary⟩ := .refl
  have h₁ := h₀.tail (.env (@WriterEnv.put _ (makePollResult pollOne (.boolean true)) _ rfl))
  have h₂ := (h₁.tail .enter).tail (.env (.getTakes (.inl rfl) rfl))
  have h₃ := h₂.tail
    (.resume (C := WriterCalls) (c := WriterCall.wait 1) (r := .ok false) ⟨by simp, by simp⟩)
  have h₄ := h₃.tail
    (.resume (C := WriterCalls) (c := WriterCall.gather _) (r := .ok ()) (.inl rfl))
  have h₅ := h₄.tail (.resume (C := WriterCalls)
    (c := WriterCall.toThread (.savePollResults _) _) (r := .error .cancelled) trivial)
  have h₆ := h₅.tail (.resume (C := WriterCalls)
    (c := WriterCall.toThread (.savePollResults _) _) (r := .error .cancelled) trivial)
  have h₇ := h₆.tail (.resume (C := WriterCalls)
    (c := WriterCall.toThread (.savePollResults _) _) (r := .ok 1) trivial)
  have hrun : Writer.Run (testConfig false) (.empty 1) _ := ⟨testState, rfl, h₇⟩
  refine ⟨_, hrun, rfl, rfl, rfl, (writer_cancellation_safe_iff hrun (r := .error .cancelled) rfl).2
    ⟨fun a ha => ?_, le_rfl⟩⟩
  exact Bool.eq_false_iff.2 (List.countP_eq_zero.1 (show losses _ = 0 from rfl) a ha)

/-- A cancellation at `asyncio.wait` leaves a get task behind, which then takes an
    item that nobody acknowledges. -/
theorem writer_cancellation_loses_item : ∃ x y : Config WriterCalls WriterState PyError,
    Writer.Run (testConfig false) (.empty 1) x ∧ x.control = .ended (.error .cancelled) ∧
      ReflTransGen (Writer.Step (testConfig false)) x y ∧ ¬ CleanlyEnded y.state ∧
      y.state.log.gets.length = 1 ∧ y.state.log.flushed = [] := by
  have h₀ : ReflTransGen (Writer.Step (testConfig false)) ⟨testState, [], .boundary⟩
    ⟨testState, [], .boundary⟩ := .refl
  have h₁ := (h₀.tail .enter).tail
    (.resume (C := WriterCalls) (c := WriterCall.wait 1) (r := .error .cancelled) rfl)
  refine ⟨_, _, ⟨testState, rfl, h₁⟩, rfl,
    (ReflTransGen.refl.tail (.env (@WriterEnv.put _ (makePollResult pollOne (.boolean true)) _ rfl))).tail
      (.env (.getTakes (.inl rfl) rfl)), ?_, rfl, rfl⟩
  exact fun hc => absurd hc.getTask (by simp)

end PlcGateway
