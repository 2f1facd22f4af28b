/-
  The writer in time.

  The inputs of a writer (items that enter its queue, and the stop) come at instants,
  and only `asyncio.wait` takes time: storage, spool and replay calls are instantaneous.
  A round of the loop replays spooled entries, or waits: until an input comes or the
  flush interval is over (`Goes`).
-/
import PlcGateway.Persistence.WriterIdle
import Mathlib.Algebra.Order.Field.Rat

namespace PlcGateway

open Coroutine Relation

/-! ## Inputs and instants -/

inductive WriterInput where
  | arrives (item : WorkerPollResult)
  | stop

/-- An input to come.  An `early` one comes before a wait that times out at its instant. -/
structure TimedInput where
  instant : ℚ
  early : Bool
  input : WriterInput

/-- The input comes before a wait with this deadline times out. -/
def TimedInput.Before (e : TimedInput) (deadline : ℚ) : Prop :=
  e.instant < deadline ∨ e.instant = deadline ∧ e.early = true

instance (e : TimedInput) (deadline : ℚ) : Decidable (e.Before deadline) :=
  inferInstanceAs (Decidable (_ ∨ _))

/-- The present, and the inputs to come. -/
structure Timeline where
  now : ℚ
  inputs : List TimedInput

/-- The inputs are in the order in which they come. -/
def Timeline.Ordered (x : Timeline) : Prop :=
  (x.now :: x.inputs.map TimedInput.instant).Pairwise (· ≤ ·)

/-- A `put` for which there is space. -/
def WriterState.arrive (item : WorkerPollResult) (s : WriterState) : WriterState :=
  match s.queue.putNowait item with
  | some queue => { s with queue, log := { s.log with puts := s.log.puts ++ [item] } }
  | none => s

/-- `asyncio.wait` for the get task and the stop task: it returns at once if one of
    them can finish, or else at the next input or at its deadline. -/
def Timeline.wait (x : Timeline) (timeoutS : ℚ) (s : WriterState) : Bool × WriterState × Timeline :=
  if s.queue.items ≠ [] ∨ s.stopRequested then (s.stopRequested, runGetTask s, x)
  else
    let deadline := x.now + timeoutS
    match x.inputs with
    | [] => (false, runGetTask s, { x with now := deadline })
    | e :: inputs =>
      if e.Before deadline then
        match e.input with
        | .arrives item => (false, runGetTask (s.arrive item), { now := e.instant, inputs })
        | .stop => (true, { runGetTask s with stopRequested := true }, { now := e.instant, inputs })
      else (false, runGetTask s, { x with now := deadline })

/-- What threads and sleeps answer, with a state of their own; they may fail. -/
abbrev Storage (τ : Type) := (c : WriterCall) → WriterState → τ → Except PyError c.Res × τ

/-- The answers of timed surroundings. -/
def timedAnswers {τ : Type} (storage : Storage τ) : Answers (Timeline × τ)
  | .wait timeoutS, s, (x, y) =>
    let (stopDone, s', x') := x.wait timeoutS s
    (.ok stopDone, s', x', y)
  | .gather _, s, z => (.ok (), s, z)
  | .toThread job timeoutS, s, (x, y) =>
    let (r, y') := storage (.toThread job timeoutS) s y
    (ofExcept r, s, x, y')
  | .sleep delayS, s, (x, y) =>
    let (r, y') := storage (.sleep delayS) s y
    (ofExcept r, s, x, y')

/-! ## The surroundings are those of the writer -/

theorem runGetTask_env (s : WriterState) : ReflTransGen WriterEnv s (runGetTask s) := by
  rcases runGetTask_cases s with ⟨item, queue, hg, hq, he⟩ | ⟨hg, hi, he⟩ | ⟨-, he⟩ <;> rw [he]
  · exact .single (.getTakes (.inl hg) hq)
  · exact .single (.getWaits hg hi)

theorem arrive_env (item : WorkerPollResult) (s : WriterState) :
    ReflTransGen WriterEnv s (s.arrive item) := by
  unfold WriterState.arrive
  split
  · exact .single (.put ‹_›)
  · exact .refl

/-- **What the timed surroundings do and answer, the surroundings of a writer may.** -/
theorem timedAnswers_sound {τ : Type} (storage : Storage τ) (c : WriterCall) (s : WriterState)
    (z : Timeline × τ) :
    ReflTransGen WriterEnv s (timedAnswers storage c s z).2.1 ∧
      writerAnswer c (timedAnswers storage c s z).2.1 (timedAnswers storage c s z).1 := by
  cases c with
  | gather held => exact ⟨.refl, .inl rfl⟩
  | toThread job timeoutS => exact ⟨.refl, trivial⟩
  | sleep delayS => exact ⟨.refl, trivial⟩
  | wait timeoutS =>
    have hquiet (s' : WriterState) (hs : ReflTransGen WriterEnv s s') :
        ReflTransGen WriterEnv s (runGetTask s') ∧ (runGetTask s').getTask ≠ some .created :=
      ⟨hs.trans (runGetTask_env s'), runGetTask_ne_created s'⟩
    simp only [timedAnswers, Timeline.wait, writerAnswer]
    split_ifs with hready
    · obtain ⟨he, hg⟩ := hquiet s .refl
      exact ⟨he, hg, fun h => (runGetTask_stopRequested s).trans h⟩
    · split
      · obtain ⟨he, hg⟩ := hquiet s .refl
        exact ⟨he, hg, nofun⟩
      · split_ifs
        · split
          · obtain ⟨he, hg⟩ := hquiet _ (arrive_env _ s)
            exact ⟨he, hg, nofun⟩
          · obtain ⟨he, hg⟩ := hquiet s .refl
            exact ⟨he.tail .stop, hg, fun _ => rfl⟩
        · obtain ⟨he, hg⟩ := hquiet s .refl
          exact ⟨he, hg, nofun⟩

/-! ## The methods of the writer in time -/

/-- Between two waits nothing happens to the writer. -/
def stillContract : Contract WriterCalls WriterState PyError where
  issue
    | .toThread .., _, _ | .sleep _, _, _ => True
    | .wait _, _, _ | .gather _, _, _ => False
  rely := Eq
  answer _ _ r := r ≠ .error .cancelled

theorem resting_still : Resting stillContract Still where
  thread _ _ _ _ := trivial
  sleep _ _ _ := trivial
  rely s s' hg he := ⟨hg, s.counters, s.lastError, he ▸ rfl⟩
  thread_alive _ _ _ _ ha := ha
  sleep_alive _ _ _ ha := ha
  idle := by
    rintro s s' ⟨hg, c, e, rfl⟩
    exact ⟨hg, rfl, rfl, rfl, id⟩
  refl s hg := ⟨hg, s.counters, s.lastError, rfl⟩
  trans := by
    rintro s s₁ s₂ ⟨hg, c, e, rfl⟩ ⟨-, c', e', rfl⟩
    exact ⟨hg, c', e', rfl⟩
  books := by
    rintro s s₁ c e ⟨hg, c', e', rfl⟩
    exact ⟨hg, c, e, rfl⟩

namespace Writer

/-- The batch was acknowledged, and nothing else has changed. -/
structure Cleared (s s' : WriterState) : Prop where
  getTask : s'.getTask = none
  pendingBatch : s'.pendingBatch = []
  queue : s'.queue = { s.queue with unfinished := s.queue.unfinished - s.pendingBatch.length }
  stopRequested : s'.stopRequested = s.stopRequested

section
variable {τ α : Type} (cfg : WriterConfig) (storage : Storage τ) {s : WriterState}

/-- A method that does not wait takes no time. -/
theorem exec_of_still {m : WriterProg α}
    {Q : Outcome PyError α → WriterState → WriterHistory → Prop}
    (hm : (m s).wp stillContract Q []) (x : Timeline) (y : τ) :
    ∃ r s' y', (m s).exec (timedAnswers storage) (x, y) = (r, s', x, y') ∧ ∃ h, Q r s' h := by
  have henv : ∀ c s h (z : Timeline × τ), stillContract.issue c s h → z.1 = x →
      stillContract.rely s (timedAnswers storage c s z).2.1 ∧
        stillContract.answer c (timedAnswers storage c s z).2.1 (timedAnswers storage c s z).1 ∧
        (timedAnswers storage c s z).2.2.1 = x := by
    intro c s h z hc hz
    cases c with
    | toThread job timeoutS =>
      refine ⟨rfl, ?_, hz⟩
      simp only [timedAnswers]
      cases (storage (.toThread job timeoutS) s z.2).1 <;> exact nofun
    | sleep delayS =>
      refine ⟨rfl, ?_, hz⟩
      simp only [timedAnswers]
      cases (storage (.sleep delayS) s z.2).1 <;> exact nofun
    | wait timeoutS => exact hc.elim
    | gather held => exact hc.elim
  obtain ⟨hq, hx⟩ := wp_exec_issued (J := fun z => z.1 = x) henv hm (x := (x, y)) rfl
  exact ⟨_, _, _, Prod.ext rfl (Prod.ext rfl (Prod.ext hx rfl)), _, hq⟩

theorem exec_flushPending (hg : s.getTask = none) (hun : s.pendingBatch.length ≤ s.queue.unfinished)
    (x : Timeline) (y : τ) :
    ∃ s' y', (flushPending cfg s).exec (timedAnswers storage) (x, y) = (.ok (), s', x, y') ∧
      Cleared s s' := by
  have hm : ((flushPending cfg) s).wp stillContract _ [] :=
    wp_flushPending_rest resting_still [] hg hun
  obtain ⟨r, s', y', hexec, h, rfl, ⟨hempty, rfl⟩ | ⟨s₁, v, ⟨-, c, e, rfl⟩, rfl⟩⟩ :=
    exec_of_still storage hm x y
  · refine ⟨_, y', hexec, hg, hempty, ?_, rfl⟩
    rw [hempty]
    rfl
  · exact ⟨_, y', hexec, hg, rfl, rfl, rfl⟩

/-- A replay that finds due entries. -/
def FetchFinds (s : WriterState) (y : τ) : Prop :=
  cfg.hasSpool = true ∧ ∃ entries, entries ≠ [] ∧
    (storage (.toThread (.fetchDue cfg.spoolReplayBatchSize) cfg.spoolTimeoutS) s y).1 = .ok entries

theorem exec_replaySpoolOnce (hg : s.getTask = none) (x : Timeline) (y : τ) :
    ∃ b s' y', (replaySpoolOnce cfg s).exec (timedAnswers storage) (x, y) = (.ok b, s', x, y') ∧
      Still s s' ∧ (b = true → FetchFinds cfg storage s y) := by
  have hm : ((replaySpoolOnce cfg) s).wp stillContract _ [] :=
    tame_replaySpoolOnce resting_still s [] hg
  obtain ⟨r, s', y', hexec, h, hstill, b, rfl⟩ := exec_of_still storage hm x y
  refine ⟨b, s', y', hexec, hstill, fun hb => ?_⟩
  subst hb
  rw [replaySpoolOnce] at hexec
  split_ifs at hexec with hspool
  swap
  · cases hexec
  refine ⟨hspool, ?_⟩
  have hthread : (toThread (.fetchDue cfg.spoolReplayBatchSize) cfg.spoolTimeoutS s).exec
      (timedAnswers storage) (x, y) =
        (ofExcept (storage (.toThread (.fetchDue cfg.spoolReplayBatchSize) cfg.spoolTimeoutS) s y).1,
          s, x, (storage (.toThread (.fetchDue cfg.spoolReplayBatchSize) cfg.spoolTimeoutS) s y).2) :=
    rfl
  rw [exec_bind, exec_attempt, hthread] at hexec
  cases hr : (storage (.toThread (.fetchDue cfg.spoolReplayBatchSize) cfg.spoolTimeoutS) s y).1 with
  | error e => rw [hr] at hexec; cases hexec
  | ok entries =>
    refine ⟨entries, ?_, rfl⟩
    rintro rfl
    rw [hr] at hexec
    cases hexec

/-! ## Waiting -/

/-- The get task is cancelled or hands over its item. -/
theorem exec_collectItem (stopDone : Bool) (z : Timeline × τ) :
    (collectItem stopDone s).exec (timedAnswers storage) z =
      (.ok (match s.getTask with
        | some (.holding item) => some item
        | _ => none), { s with getTask := none }, z) := by
  obtain ⟨queue, stop, getTask, pendingBatch, running, stopped, counters, lastError, log⟩ := s
  rcases getTask with _ | (_ | _ | item)
  · rfl
  · rfl
  · rfl
  · cases stopDone <;> rfl

theorem exec_waitForItemOrStop {x x' : Timeline} {stopDone : Bool} {s' : WriterState}
    (h : x.wait cfg.flushIntervalS { s with getTask := some .created } = (stopDone, s', x')) (y : τ) :
    (waitForItemOrStop cfg s).exec (timedAnswers storage) (x, y) =
      (.ok (match s'.getTask with
        | some (.holding item) => some item
        | _ => none), { s' with getTask := none }, x', y) := by
  have hwait : ((Prog.await (C := WriterCalls) (.wait cfg.flushIntervalS) : WriterProg Bool)
      { s with getTask := some .created }).exec (timedAnswers storage) (x, y) =
        (.ok stopDone, s', x', y) := by
    rw [exec_await, timedAnswers, h]
  refine (exec_bind_of_ok (exec_modify (C := WriterCalls) (timedAnswers storage) s (x, y) _)).trans ?_
  exact (exec_bind_of_ok hwait).trans (exec_collectItem storage _ _)

/-- What a wait of a writer with an empty queue leads to. -/
inductive Waits (x : Timeline) (s : WriterState) :
    Option WorkerPollResult → WriterState → Timeline → Prop
  | timesOut : (∀ e ∈ x.inputs.head?, ¬ e.Before (x.now + cfg.flushIntervalS)) →
      Waits x s none s { x with now := x.now + cfg.flushIntervalS }
  | stops {e : TimedInput} {inputs : List TimedInput} : x.inputs = e :: inputs →
      e.Before (x.now + cfg.flushIntervalS) → e.input = .stop →
      Waits x s none { s with stopRequested := true } ⟨e.instant, inputs⟩
  | takes {e : TimedInput} {inputs : List TimedInput} {item : WorkerPollResult} {log : WriterLog} :
      x.inputs = e :: inputs → e.Before (x.now + cfg.flushIntervalS) → e.input = .arrives item →
      Waits x s (some item)
        { s with queue := { s.queue with items := [], unfinished := s.queue.unfinished + 1 }, log }
        ⟨e.instant, inputs⟩

theorem runGetTask_empty (hg : s.getTask = some .created) (hitems : s.queue.items = []) :
    runGetTask s = { s with getTask := some .waiting } := by
  rcases runGetTask_cases s with ⟨item, queue, -, hq, -⟩ | ⟨-, -, he⟩ | ⟨hne, -⟩
  · rw [ReadingQueue.getNowait, hitems] at hq
    cases hq
  · exact he
  · exact absurd hg hne

/-- An item that enters an empty queue is taken. -/
theorem runGetTask_arrive (hg : s.getTask = some .created) (hitems : s.queue.items = [])
    (hsize : 0 < s.queue.maxSize) (item : WorkerPollResult) :
    ∃ log, runGetTask (s.arrive item) =
      { s with
        queue := { s.queue with items := [], unfinished := s.queue.unfinished + 1 }
        getTask := some (.holding item), log } := by
  have hput : s.queue.putNowait item =
      some { s.queue with items := [item], unfinished := s.queue.unfinished + 1 } := by
    rw [← List.length_eq_zero_iff] at hitems
    rw [ReadingQueue.putNowait, if_pos (by omega), List.length_eq_zero_iff.1 hitems]
    rfl
  rw [WriterState.arrive, hput]
  refine ⟨{ s.log with puts := s.log.puts ++ [item], gets := s.log.gets ++ [item] }, ?_⟩
  simp only [runGetTask, hg, ReadingQueue.getNowait]

theorem exec_wait_of_empty (hg : s.getTask = none) (hitems : s.queue.items = [])
    (hsize : 0 < s.queue.maxSize) (hstop : s.stopRequested = false) (x : Timeline) (y : τ) :
    ∃ r s' x', (waitForItemOrStop cfg s).exec (timedAnswers storage) (x, y) = (.ok r, s', x', y) ∧
      Waits cfg x s r s' x' := by
  have hready : ¬ (s.queue.items ≠ [] ∨ s.stopRequested = true) := by
    rintro (hne | hs)
    · exact hne hitems
    · rw [hstop] at hs
      cases hs
  have hback : { s with getTask := none } = s := by rw [← hg]
  have hwaiting : runGetTask { s with getTask := some .created } =
      { s with getTask := some .waiting } := runGetTask_empty rfl hitems
  have hout (hnone : ∀ e ∈ x.inputs.head?, ¬ e.Before (x.now + cfg.flushIntervalS)) :
      x.wait cfg.flushIntervalS { s with getTask := some .created } =
        (false, { s with getTask := some .waiting }, { x with now := x.now + cfg.flushIntervalS }) := by
    rw [Timeline.wait, if_neg hready]
    cases hin : x.inputs with
    | nil => simp only [hwaiting]
    | cons e inputs =>
      rw [hin] at hnone
      simp only [if_neg (hnone e rfl), hwaiting]
  cases hin : x.inputs with
  | nil =>
    have hnone : ∀ e ∈ x.inputs.head?, ¬ e.Before (x.now + cfg.flushIntervalS) := by
      intro e he
      rw [hin] at he
      cases he
    refine ⟨_, _, _, exec_waitForItemOrStop cfg storage (hout hnone) y, ?_⟩
    rw [hback]
    exact .timesOut hnone
  | cons e inputs =>
    by_cases hbefore : e.Before (x.now + cfg.flushIntervalS)
    · cases he : e.input with
      | stop =>
        have hwait : x.wait cfg.flushIntervalS { s with getTask := some .created } =
            (true, { s with getTask := some .waiting, stopRequested := true }, ⟨e.instant, inputs⟩) := by
          rw [Timeline.wait, if_neg hready]
          simp only [hin, if_pos hbefore, he, hwaiting]
        refine ⟨_, _, _, exec_waitForItemOrStop cfg storage hwait y, ?_⟩
        rw [← hback]
        exact .stops hin hbefore he
      | arrives item =>
        obtain ⟨log, htake⟩ := runGetTask_arrive (s := { s with getTask := some .created }) rfl hitems
          hsize item
        have hwait : x.wait cfg.flushIntervalS { s with getTask := some .created } =
            (false, { s with
              queue := { s.queue with items := [], unfinished := s.queue.unfinished + 1 }
              getTask := some (.holding item), log }, ⟨e.instant, inputs⟩) := by
          rw [Timeline.wait, if_neg hready]
          simp only [hin, if_pos hbefore, he, htake]
        refine ⟨_, _, _, exec_waitForItemOrStop cfg storage hwait y, ?_⟩
        rw [← hback]
        exact .takes hin hbefore he
    · have hnone : ∀ e ∈ x.inputs.head?, ¬ e.Before (x.now + cfg.flushIntervalS) := by
        rw [hin]
        rintro _ ⟨⟩
        exact hbefore
      refine ⟨_, _, _, exec_waitForItemOrStop cfg storage (hout hnone) y, ?_⟩
      rw [hback]
      exact .timesOut hnone

/-! ## A round -/

/-- The item of the get task was appended to the batch. -/
def appended (item : WorkerPollResult) (log : WriterLog) (s : WriterState) : WriterState :=
  { s with
    queue := { s.queue with items := [], unfinished := s.queue.unfinished + 1 }
    pendingBatch := s.pendingBatch ++ [item], log }

/-- What a round does that waits: it flushes the batch, or appends an item and flushes
    a full batch. -/
inductive Consumes (x : Timeline) (s : WriterState) :
    WriterState → Timeline → Prop
  | timesOut {s' : WriterState} : (∀ e ∈ x.inputs.head?, ¬ e.Before (x.now + cfg.flushIntervalS)) →
      Cleared s s' → Consumes x s s' { x with now := x.now + cfg.flushIntervalS }
  | stops {e : TimedInput} {inputs : List TimedInput} {s' : WriterState} : x.inputs = e :: inputs →
      e.Before (x.now + cfg.flushIntervalS) → e.input = .stop →
      Cleared { s with stopRequested := true } s' → Consumes x s s' ⟨e.instant, inputs⟩
  | takes {e : TimedInput} {inputs : List TimedInput} {item : WorkerPollResult} {s' : WriterState}
      (log : WriterLog) : x.inputs = e :: inputs →
      e.Before (x.now + cfg.flushIntervalS) → e.input = .arrives item →
      (if cfg.batchSize ≤ s.pendingBatch.length + 1 then Cleared (appended item log s) s'
        else s' = appended item log s) →
      Consumes x s s' ⟨e.instant, inputs⟩

theorem exec_consume (hg : s.getTask = none) (hitems : s.queue.items = [])
    (hsize : 0 < s.queue.maxSize) (hun : s.pendingBatch.length ≤ s.queue.unfinished)
    (hroom : s.pendingBatch.length < cfg.batchSize) (hstop : s.stopRequested = false)
    (x : Timeline) (y : τ) :
    ∃ s' x' y', (consume cfg s).exec (timedAnswers storage) (x, y) = (.ok (), s', x', y') ∧
      Consumes cfg x s s' x' := by
  have hflush : ¬ (s.stopRequested && s.queue.size == 0) = true := by
    rw [hstop]
    exact Bool.false_ne_true
  obtain ⟨next, hconsume, hflushes, htakes⟩ : ∃ next : Option WorkerPollResult → WriterProg Unit,
      consume cfg s = (waitForItemOrStop cfg >>= next) s ∧ next none = flushPending cfg ∧
        ∀ item, next (some item) = (do
          .modify fun s => { s with pendingBatch := s.pendingBatch ++ [item] }
          if cfg.batchSize ≤ (← Prog.get).pendingBatch.length then flushPending cfg) :=
    ⟨_, (congrFun (if_neg (not_le.2 hroom)) s).trans (congrFun (if_neg hflush) s), rfl, fun _ => rfl⟩
  rw [hconsume]
  obtain ⟨r, s₁, x', hexec, hwaits⟩ := exec_wait_of_empty cfg storage hg hitems hsize
    hstop x y
  rw [exec_bind_of_ok hexec]
  cases hwaits with
  | timesOut hnone =>
    obtain ⟨s', y', hexec', hc⟩ := exec_flushPending cfg storage hg hun _ y
    rw [hflushes]
    exact ⟨s', _, y', hexec', .timesOut hnone hc⟩
  | stops hin hbefore he =>
    obtain ⟨s', y', hexec', hc⟩ := exec_flushPending cfg storage
      (s := { s with stopRequested := true }) hg hun _ y
    rw [hflushes]
    exact ⟨s', _, y', hexec', .stops hin hbefore he hc⟩
  | @takes e inputs item log hin hbefore he =>
    have hlen : (appended item log s).pendingBatch.length = s.pendingBatch.length + 1 := by
      rw [appended, List.length_append, List.length_singleton]
    have htail : ∃ s' y', ((if cfg.batchSize ≤ (appended item log s).pendingBatch.length then
        flushPending cfg else pure () : WriterProg Unit) (appended item log s)).exec
          (timedAnswers storage) (⟨e.instant, inputs⟩, y) = (.ok (), s', ⟨e.instant, inputs⟩, y') ∧
        if cfg.batchSize ≤ s.pendingBatch.length + 1 then Cleared (appended item log s) s'
          else s' = appended item log s := by
      rw [hlen]
      split_ifs with hfull
      · have hun' : (appended item log s).pendingBatch.length ≤ (appended item log s).queue.unfinished := by
          rw [hlen]
          exact Nat.succ_le_succ hun
        exact exec_flushPending cfg storage (s := appended item log s) hg hun' _ y
      · exact ⟨_, y, rfl, rfl⟩
    obtain ⟨s', y', hexec', hs'⟩ := htail
    rw [htakes]
    exact ⟨s', _, y', hexec', .takes log hin hbefore he hs'⟩

/-- The writer stands between two rounds, and what it has taken waits in its batch. -/
structure Between (s : WriterState) : Prop where
  getTask : s.getTask = none
  items : s.queue.items = []
  size : 0 < s.queue.maxSize
  unfinished : s.pendingBatch.length ≤ s.queue.unfinished
  room : s.pendingBatch.length < cfg.batchSize
  stopped : s.stopRequested = true → s.pendingBatch = []

theorem between_of_cleared {s' : WriterState} (hitems : s.queue.items = [])
    (hsize : 0 < s.queue.maxSize) (hc : Cleared s s') : Between cfg s' where
  getTask := hc.getTask
  items := by rw [hc.queue]; exact hitems
  size := by rw [hc.queue]; exact hsize
  unfinished := by rw [hc.pendingBatch]; exact Nat.zero_le _
  room := by rw [hc.pendingBatch]; exact cfg.batchSize_pos
  stopped _ := hc.pendingBatch

theorem between_of_still {s' : WriterState} (hb : Between cfg s) (hstill : Still s s') :
    Between cfg s' := by
  obtain ⟨-, c, e, rfl⟩ := hstill
  exact ⟨hb.1, hb.2, hb.3, hb.4, hb.5, hb.6⟩

/-- What a round does. -/
inductive Goes (x : Timeline) (y : τ) (s : WriterState) :
    WriterState → Timeline → Prop
  | replays {s' : WriterState} : s.pendingBatch = [] → FetchFinds cfg storage s y → Still s s' →
      Goes x y s s' x
  | consumes {s₁ s' : WriterState} {x' : Timeline} : Still s s₁ → Consumes cfg x s₁ s' x' →
      Goes x y s s' x'

theorem exec_consumeOrFlush (hb : Between cfg s) (hstop : s.stopRequested = false) (x : Timeline)
    (y : τ) :
    ∃ s' x' y', (consumeOrFlush cfg s).exec (timedAnswers storage) (x, y) = (.ok (), s', x', y') ∧
      Goes cfg storage x y s s' x' := by
  have hconsume {s₁ : WriterState} (hstill : Still s s₁) (y₁ : τ) :
      ∃ s' x' y', (consume cfg s₁).exec (timedAnswers storage) (x, y₁) = (.ok (), s', x', y') ∧
        Goes cfg storage x y s s' x' := by
    have hb₁ := between_of_still cfg hb hstill
    have hstop₁ : s₁.stopRequested = false := by
      obtain ⟨-, c, e, rfl⟩ := hstill
      exact hstop
    obtain ⟨s', x', y', hexec, hc⟩ := exec_consume cfg storage hb₁.getTask
      hb₁.items hb₁.size hb₁.unfinished hb₁.room hstop₁ x y₁
    exact ⟨s', x', y', hexec, .consumes hstill hc⟩
  by_cases hp : s.pendingBatch.isEmpty
  · have hfirst : consumeOrFlush cfg s = (do
        if ← replaySpoolOnce cfg then return () else consume cfg : WriterProg Unit) s :=
      congrFun (if_pos hp) s
    obtain ⟨b, s₁, y₁, hexec, hstill, hfound⟩ :=
      exec_replaySpoolOnce cfg storage hb.getTask x y
    rw [hfirst, exec_bind_of_ok hexec]
    cases b with
    | true => exact ⟨s₁, x, y₁, rfl, .replays (List.isEmpty_iff.1 hp) (hfound rfl) hstill⟩
    | false => exact hconsume hstill y₁
  · have hfirst : consumeOrFlush cfg s = consume cfg s := congrFun (if_neg hp) s
    rw [hfirst]
    exact hconsume ⟨hb.getTask, s.counters, s.lastError, rfl⟩ y

/-- The body of `run`, with a round that returns. -/
theorem exec_runIteration {b : Bool} {s' : WriterState} {z z' : Timeline × τ}
    (h : (round cfg s).exec (timedAnswers storage) z = (.ok b, s', z')) :
    (runIteration cfg s).exec (timedAnswers storage) z =
      if b then (.ok true, s', z') else (leave cfg (.ok false) s').exec (timedAnswers storage) z' := by
  have hcancel : ((Prog.onCancelled (round cfg) (flushPending cfg)) s).exec (timedAnswers storage) z =
      (.ok b, s', z') := by
    rw [exec_onCancelled, h]
  have houtcome : ((Prog.outcome (Prog.onCancelled (round cfg) (flushPending cfg))) s).exec
      (timedAnswers storage) z = (.ok (.ok b), s', z') := by
    refine (exec_andThen _ _ _ _).trans ?_
    rw [hcancel]
    rfl
  rw [runIteration, exec_bind_of_ok houtcome]
  cases b <;> rfl

/-- **A round of the loop in time.** -/
theorem exec_round_of_between (hb : Between cfg s) (hstop : s.stopRequested = false) (x : Timeline)
    (y : τ) :
    ∃ s' x' y', (runIteration cfg s).exec (timedAnswers storage) (x, y) =
      (.ok true, s', x', y') ∧ Goes cfg storage x y s s' x' := by
  have hgo : s.shouldStop = false := by
    rw [WriterState.shouldStop, hstop]
    rfl
  obtain ⟨s', x', y', hexec, hgoes⟩ := exec_consumeOrFlush cfg storage hb hstop x y
  have hround : (round cfg s).exec (timedAnswers storage) (x, y) = (.ok true, s', x', y') := by
    have hbody : round cfg s = (do
        consumeOrFlush cfg
        return true : WriterProg Bool) s := congrFun (if_neg (Bool.eq_false_iff.1 hgo)) s
    rw [hbody, exec_bind_of_ok hexec]
    rfl
  exact ⟨s', x', y', exec_runIteration cfg storage hround, hgoes⟩

/-- After a stop the loop is left. -/
theorem exec_round_stopped (hb : Between cfg s) (hstop : s.stopRequested = true) (z : Timeline × τ) :
    ((runIteration cfg s).exec (timedAnswers storage) z).1 = .ok false := by
  have hp := hb.stopped hstop
  have hleave : s.shouldStop = true := by
    rw [WriterState.shouldStop, hstop, ReadingQueue.size, hb.items, hp]
    rfl
  have hround : (round cfg s).exec (timedAnswers storage) z = (.ok false, s, z) := by
    have hbody : round cfg s = (return false : WriterProg Bool) s := congrFun (if_pos hleave) s
    rw [hbody]
    rfl
  have hflush : flushPending cfg s = .done s (.ok ()) := by
    have hbody : flushPending cfg s = (return () : WriterProg Unit) s :=
      congrFun (if_pos (List.isEmpty_iff.2 hp)) s
    rw [hbody]
    rfl
  have hexec : (flushPending cfg s).exec (timedAnswers storage) z = (.ok (), s, z) := by
    rw [hflush]
    rfl
  rw [exec_runIteration cfg storage hround, leave, if_neg Bool.false_ne_true, exec_bind_of_ok hexec]
  rfl

end

end Writer

end PlcGateway
