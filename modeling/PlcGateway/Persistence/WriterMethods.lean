/-
  The specifications of the writer's methods, from `_persist_batch` up to a whole
  round of `run`.
-/
import PlcGateway.Persistence.WriterSpec

namespace PlcGateway

open Coroutine Relation

namespace Writer
variable {cfg : WriterConfig} {s : WriterState} {h : WriterHistory}

/-! ## Jobs -/

theorem losesItem_toThread (job : Job) (t : ℚ) (r : Outcome PyError job.Res) :
    losesItem ⟨.toThread job t, r⟩ = false := Bool.and_false _

theorem losesItem_sleep (d : ℚ) (r : Outcome PyError Unit) : losesItem ⟨.sleep d, r⟩ = false :=
  Bool.and_false _

theorem returned_last (job : Job) (t : ℚ) (r : job.Res) : Returned (h ++ [⟨.toThread job t, .ok r⟩]) job r :=
  ⟨t, List.mem_append_right _ (List.mem_singleton_self _)⟩

theorem failed_last (job : Job) (t : ℚ) (e : PyError) :
    Failed (h ++ [⟨.toThread job t, .error (.error e)⟩]) job :=
  ⟨t, e, List.mem_append_right _ (List.mem_singleton_self _)⟩

/-- How a job ends: quietly, with the answer last in the history. -/
def JobPost (s : WriterState) (h : WriterHistory) (job : Job) :
    Outcome PyError job.Res → WriterState → WriterHistory → Prop
  | .ok r, s', h' => Later s h 0 s' h' ∧ Returned h' job r
  | .error (.error _), s', h' => Later s h 0 s' h' ∧ Failed h' job
  | .error .cancelled, s', h' => Later s h 1 s' h'

theorem wp_toThread (job : Job) (t : ℚ) (ha : Account cfg s h)
    (hi : writerIssue cfg (.toThread job t) s h) :
    ((toThread job t) s).wp (writerContract cfg) (JobPost s h job) h := by
  refine (wp_await s h _ _).2 ⟨⟨ha, hi⟩, fun s' r hr _ => ?_⟩
  have hl := later_await (h := h) (c := .toThread job t) hr (losesItem_toThread job t) r
  match r with
  | .ok r => exact ⟨hl, returned_last job t r⟩
  | .error (.error e) => exact ⟨hl, failed_last job t e⟩
  | .error .cancelled => exact hl

/-- The batch may be saved: it was put into the queue, or fetched from the spool. -/
def MaySave (cfg : WriterConfig) (s : WriterState) (h : WriterHistory)
    (batch : List WorkerPollResult) : Prop :=
  (∀ r ∈ batch, r ∈ s.log.puts) ∨ ∃ entries,
    Returned h (.fetchDue cfg.spoolReplayBatchSize) entries ∧ batch = entries.map SpoolEntry.pollResult

theorem MaySave.later {s' : WriterState} {h' : WriterHistory} {n : ℕ}
    {batch : List WorkerPollResult} (hm : MaySave cfg s h batch) (hl : Later s h n s' h') :
    MaySave cfg s' h' batch := by
  obtain ⟨q, t, rfl, -⟩ := hl
  rcases hm with hm | ⟨entries, he, hb⟩
  · exact .inl fun r hr => (kept_of_quiet q).puts.subset (hm r hr)
  · exact .inr ⟨entries, he.mono, hb⟩

/-- How `_persist_batch` ends. -/
def PersistPost (s : WriterState) (h : WriterHistory) (batch : List WorkerPollResult) :
    Outcome PyError Bool → WriterState → WriterHistory → Prop
  | .ok persisted, s', h' => Later s h 0 s' h' ∧ (persisted = true → Saved h' batch)
  | .error .cancelled, s', h' => Later s h 1 s' h'
  | .error (.error _), _, _ => False

theorem wp_persistBatch {batch : List WorkerPollResult} (ha : Account cfg s h)
    (hm : MaySave cfg s h batch) :
    ((persistBatch cfg batch) s).wp (writerContract cfg) (PersistPost s h batch) h := by
  rw [persistBatch, wp_bind, wp_attempt]
  refine wp_runWithRetry (I := fun s' h' => Later s h 0 s' h') ?_ (Later.refl s h)
  intro s₁ h₁ hl₁
  refine wp_mono ?_ (wp_toThread _ _ (hl₁.account ha) (hm.later hl₁))
  rintro ((e | _) | n) s₂ h₂ hp
  · have hl₂ := hl₁.trans hp.1
    refine ⟨fun e' => ⟨hl₂.books rfl rfl, fun hf => by cases hf⟩, fun delay k => ?_⟩
    -- the sleep before the next attempt
    have hretry : Later s h 0 (recordRetry e delay k s₂) h₂ := hl₂.books rfl rfl
    refine (wp_await _ _ _ _).2 ⟨⟨hretry.account ha, trivial⟩, fun s₃ r hr _ => ?_⟩
    have hsleep := later_await (h := h₂) (c := .sleep delay) hr (losesItem_sleep delay) r
    have hl₃ := hretry.trans hsleep
    match r with
    | .ok _ => exact hl₃
    | .error (.error e'') => exact ⟨hl₃.books rfl rfl, fun hf => by cases hf⟩
    | .error .cancelled => exact hl₃
  · exact hl₁.trans hp
  · intro o
    exact ⟨(hl₁.trans hp.1).books rfl rfl, fun _ => ⟨n, hp.2⟩⟩

/-- How `_spool_batch` ends. -/
def SpoolPost (cfg : WriterConfig) (s : WriterState) (h : WriterHistory)
    (batch : List WorkerPollResult) : Outcome PyError Bool → WriterState → WriterHistory → Prop
  | .ok spooled, s', h' => Later s h 0 s' h' ∧
      VerdictHolds cfg h' batch (if spooled then .spooled else .failed)
  | .error .cancelled, s', h' => Later s h 1 s' h'
  | .error (.error _), _, _ => False

theorem wp_spoolBatch {batch : List WorkerPollResult} (ha : Account cfg s h)
    (hm : ∀ r ∈ batch, r ∈ s.log.puts) :
    ((spoolBatch cfg batch) s).wp (writerContract cfg) (SpoolPost cfg s h batch) h := by
  unfold spoolBatch
  split_ifs with hs
  · rw [wp_bind, wp_attempt]
    refine wp_mono ?_ (wp_toThread _ _ ha hm)
    rintro ((e | _) | n) s' h' hp
    · exact ⟨(hp.1.books rfl rfl).books rfl rfl, .inr hp.2⟩
    · exact hp
    · exact ⟨hp.1.books rfl rfl, n, hp.2⟩
  · exact ⟨Later.refl s h, .inl (Bool.eq_false_iff.2 hs)⟩

/-- How a method that only replays ends. -/
def ReplayPost (s : WriterState) (h : WriterHistory) {α : Type} :
    Outcome PyError α → WriterState → WriterHistory → Prop
  | .ok _, s', h' => Later s h 0 s' h'
  | .error .cancelled, s', h' => Later s h 1 s' h'
  | .error (.error _), _, _ => False

theorem wp_markReplayed {entries : List SpoolEntry} (ha : Account cfg s h)
    (hf : Returned h (.fetchDue cfg.spoolReplayBatchSize) entries)
    (hs : Saved h (entries.map SpoolEntry.pollResult)) :
    ((markReplayed cfg entries) s).wp (writerContract cfg) (ReplayPost s h) h := by
  rw [markReplayed, wp_bind, wp_attempt]
  refine wp_mono ?_ (wp_toThread _ _ ha ⟨entries, hf, rfl, hs⟩)
  rintro ((e | _) | n) s' h' hp
  · exact hp.1.books rfl rfl
  · exact hp
  · exact hp.1.books rfl rfl

theorem wp_markFailed (entries : List SpoolEntry) (ha : Account cfg s h) :
    ((markFailed cfg entries) s).wp (writerContract cfg) (ReplayPost s h) h := by
  rw [markFailed, wp_bind, wp_attempt]
  refine wp_mono ?_ (wp_toThread _ _ ha trivial)
  rintro ((e | _) | n) s' h' hp
  · exact hp.1.books rfl rfl
  · exact hp
  · exact hp.1.books rfl rfl

/-- Going on quietly to a replay keeps its end. -/
theorem ReplayPost.trans {α : Type} {s₁ s₂ : WriterState} {h₁ h₂ : WriterHistory}
    (hl : Later s h 0 s₁ h₁) {r : Outcome PyError α} (hp : ReplayPost s₁ h₁ r s₂ h₂) :
    ReplayPost s h r s₂ h₂ := by
  match r with
  | .ok _ => exact hl.trans hp
  | .error .cancelled => exact hl.trans hp
  | .error (.error _) => exact hp

theorem wp_replaySpoolOnce (ha : Account cfg s h) :
    ((replaySpoolOnce cfg) s).wp (writerContract cfg) (ReplayPost s h) h := by
  unfold replaySpoolOnce
  split_ifs with hs
  swap
  · exact Later.refl s h
  rw [wp_bind, wp_attempt]
  refine wp_mono ?_ (wp_toThread _ _ ha trivial)
  rintro ((e | _) | entries) s₁ h₁ hp
  · exact hp.1.books rfl rfl
  · exact hp
  obtain ⟨hl₁, hf⟩ := hp
  simp only
  split_ifs with he
  · exact hl₁
  rw [wp_bind]
  refine wp_mono ?_ (wp_persistBatch (hl₁.account ha) (.inr ⟨entries, hf, rfl⟩))
  rintro ((e | _) | persisted) s₂ h₂ hq
  · exact hq
  · exact hl₁.trans hq
  obtain ⟨hl₂, hsaved⟩ := hq
  have hf₂ : Returned h₂ (.fetchDue cfg.spoolReplayBatchSize) entries := by
    obtain ⟨-, t, rfl, -⟩ := hl₂
    exact hf.mono
  cases persisted with
  | true =>
    simp only [if_true, wp_bind]
    refine wp_mono ?_ (wp_markReplayed ((hl₁.trans hl₂).account ha) hf₂ (hsaved rfl))
    rintro ((e | _) | _) s₃ h₃ hr <;> exact ReplayPost.trans (hl₁.trans hl₂) hr
  | false =>
    simp only [Bool.false_eq_true, if_false, wp_bind]
    refine wp_mono ?_ (wp_markFailed entries ((hl₁.trans hl₂).account ha))
    rintro ((e | _) | _) s₃ h₃ hr <;> exact ReplayPost.trans (hl₁.trans hl₂) hr

/-! ## Flushing -/

theorem tasksDone_eq (n : ℕ) (s : WriterState) (hn : n ≤ s.queue.unfinished) :
    tasksDone n s = .done
      { s with queue := { s.queue with unfinished := s.queue.unfinished - n } } (.ok ()) := by
  induction n generalizing s with
  | zero => rfl
  | succ n ih =>
    have hne : s.queue.unfinished ≠ 0 := by omega
    have h₁ : taskDone s = .done
        { s with queue := { s.queue with unfinished := s.queue.unfinished - 1 } } (.ok ()) := by
      simp only [taskDone, ReadingQueue.taskDone, if_neg hne]
      rfl
    have h₂ : tasksDone (n + 1) s = tasksDone n
        { s with queue := { s.queue with unfinished := s.queue.unfinished - 1 } } := by
      show (taskDone s).andThen _ = _
      rw [h₁]
      rfl
    rw [h₂, ih _ (by simp only; omega)]
    simp only [Nat.sub_sub, Nat.add_comm 1 n]

theorem ackBatch_eq (v : Verdict) (hs : s.pendingBatch.length ≤ s.queue.unfinished) :
    ackBatch s.pendingBatch.length v s = .done (s.acknowledge v) (.ok ()) := by
  have h₁ : ackBatch s.pendingBatch.length v s = tasksDone s.pendingBatch.length
      { s with
        pendingBatch := s.pendingBatch.drop s.pendingBatch.length
        log := { s.log with
          flushed := s.log.flushed ++ [(s.pendingBatch.take s.pendingBatch.length, v)] } } := rfl
  refine (h₁.trans (tasksDone_eq _ _ hs)).trans ?_
  simp only [List.drop_length, List.take_length]
  rfl

/-- The batch is acknowledged and counted. -/
theorem account_acknowledge {v : Verdict} (ha : Account cfg s h) (hpos : s.pendingBatch ≠ [])
    (hle : s.pendingBatch.length ≤ cfg.batchSize) (hv : VerdictHolds cfg h s.pendingBatch v)
    {c : WriterCounters} {e : Option String}
    (hc : c.successfulPollResults = s.counters.successfulPollResults +
      if v = .persisted then s.pendingBatch.length else 0)
    (hc' : c.failedPollResults = s.counters.failedPollResults +
      if v = .persisted then 0 else s.pendingBatch.length) :
    Account cfg ({ s with counters := c, lastError := e }.acknowledge v) h := by
  obtain ⟨h1, h2, h3, h4, h5, h6, h7⟩ := ha
  refine ⟨?_, h2, ?_, ?_, ?_, ?_, ?_⟩
  · simp only [WriterState.acknowledge, List.map_append, List.flatten_append, h1]
    simp [WriterState.held]
  · have h3' : s.queue.unfinished - s.pendingBatch.length =
        s.queue.size + 0 + s.held.length := by omega
    exact h3'
  · show c.successfulPollResults = _
    rw [hc, h4, WriterState.acknowledge, List.filter_append, itemCount, itemCount, List.map_append,
      List.sum_append]
    cases v <;> simp
  · show c.failedPollResults = _
    rw [hc', h5, WriterState.acknowledge, List.filter_append, itemCount, itemCount, List.map_append,
      List.sum_append]
    cases v <;> simp
  · intro b hb
    rcases List.mem_append.1 hb with hb | hb
    · exact h6 b hb
    · rw [List.mem_singleton.1 hb]
      exact ⟨List.length_pos_iff.2 hpos, hle⟩
  · intro b hb
    rcases List.mem_append.1 hb with hb | hb
    · exact h7 b hb
    · rw [List.mem_singleton.1 hb]
      exact hv

/-- A flush that ran to its end. -/
structure Flushed (cfg : WriterConfig) (s : WriterState) (h : WriterHistory) (s' : WriterState)
    (h' : WriterHistory) : Prop where
  pendingBatch : s'.pendingBatch = []
  account : Account cfg s' h'
  getTask : s'.getTask.isSome = s.getTask.isSome
  running : s'.running = s.running
  stopped : s'.stopped = s.stopped
  history : ∃ t, h' = h ++ t ∧ cancellations t = 0 ∧ losses t = 0

/-- How `_flush_pending` ends. -/
def FlushPost (cfg : WriterConfig) (s : WriterState) (h : WriterHistory) :
    Outcome PyError Unit → WriterState → WriterHistory → Prop
  | .ok _, s', h' => Flushed cfg s h s' h'
  | .error .cancelled, s', h' => Later s h 1 s' h' ∧ s.pendingBatch ≠ []
  | .error (.error _), _, _ => False

theorem flushed_acknowledge {s' : WriterState} {h' : WriterHistory} {v : Verdict}
    (ha : Account cfg s h) (hpos : s.pendingBatch ≠ []) (hle : s.pendingBatch.length ≤ cfg.batchSize)
    (hl : Later s h 0 s' h') (hv : VerdictHolds cfg h' s.pendingBatch v)
    {c : WriterCounters} {e : Option String}
    (hc : c.successfulPollResults = s'.counters.successfulPollResults +
      if v = .persisted then s.pendingBatch.length else 0)
    (hc' : c.failedPollResults = s'.counters.failedPollResults +
      if v = .persisted then 0 else s.pendingBatch.length) :
    ((ackBatch s.pendingBatch.length v) { s' with counters := c, lastError := e }).wp
      (writerContract cfg) (FlushPost cfg s h) h' := by
  have hk := kept_of_quiet hl.quiet
  have ha' := hl.account ha
  rw [← hk.pendingBatch] at hpos hle hv hc hc'
  have hun : s'.pendingBatch.length ≤ s'.queue.unfinished := by have := ha'.unfinished; omega
  have hack : ackBatch s.pendingBatch.length v { s' with counters := c, lastError := e } =
      .done ({ s' with counters := c, lastError := e }.acknowledge v) (.ok ()) := by
    rw [← hk.pendingBatch]
    exact ackBatch_eq (s := { s' with counters := c, lastError := e }) v hun
  rw [hack]
  exact ⟨rfl, account_acknowledge ha' hpos hle hv hc hc', hk.getTask, hk.running, hk.stopped,
    hl.history⟩

theorem wp_flushPending (ha : Account cfg s h) (hle : s.pendingBatch.length ≤ cfg.batchSize) :
    ((flushPending cfg) s).wp (writerContract cfg) (FlushPost cfg s h) h := by
  rw [flushPending, wp_bind, wp_get]
  simp only
  split_ifs with he
  · exact ⟨List.isEmpty_iff.1 he, ha, rfl, rfl, rfl, [], (List.append_nil h).symm, rfl, rfl⟩
  have hpos : s.pendingBatch ≠ [] := fun hn => he (List.isEmpty_iff.2 hn)
  have hputs : ∀ r ∈ s.pendingBatch, r ∈ s.log.puts := by
    intro r hr
    rw [ha.queued, ha.taken]
    exact List.mem_append_left _ (List.mem_append_left _ (List.mem_append_right _ hr))
  rw [wp_bind]
  refine wp_mono ?_ (wp_persistBatch ha (.inl hputs))
  rintro ((e | _) | persisted) s₁ h₁ hp
  · exact hp
  · exact ⟨hp, hpos⟩
  obtain ⟨hl₁, hsaved⟩ := hp
  cases persisted with
  | true =>
    simp only [if_true, wp_bind, wp_modify]
    exact flushed_acknowledge ha hpos hle hl₁ (v := .persisted) (hsaved rfl) rfl rfl
  | false =>
    simp only [Bool.false_eq_true, if_false]
    rw [wp_bind]
    have hputs₁ : ∀ r ∈ s.pendingBatch, r ∈ s₁.log.puts := fun r hr =>
      (kept_of_quiet hl₁.quiet).puts.subset (hputs r hr)
    refine wp_mono ?_ (wp_spoolBatch (hl₁.account ha) hputs₁)
    rintro ((e | _) | spooled) s₂ h₂ hq
    · exact hq
    · exact ⟨hl₁.trans hq, hpos⟩
    obtain ⟨hl₂, hv⟩ := hq
    have hl := hl₁.trans hl₂
    cases spooled with
    | true =>
      simp only [if_true, wp_bind]
      exact flushed_acknowledge ha hpos hle hl (v := .spooled) hv rfl rfl
    | false =>
      simp only [Bool.false_eq_true, if_false, wp_bind]
      exact flushed_acknowledge ha hpos hle hl (v := .failed) hv rfl rfl

/-! ## A round -/

/-- The history has gone on with `n` cancellations, `l` of them a loss. -/
def Extends (h h' : WriterHistory) (n l : ℕ) : Prop :=
  ∃ t, h' = h ++ t ∧ cancellations t = n ∧ losses t = l

theorem Extends.trans {h₁ h₂ h₃ : WriterHistory} {m k n l : ℕ} (a : Extends h₁ h₂ m k)
    (b : Extends h₂ h₃ n l) : Extends h₁ h₃ (m + n) (k + l) := by
  obtain ⟨t, rfl, rfl, rfl⟩ := a
  obtain ⟨u, rfl, rfl, rfl⟩ := b
  exact ⟨t ++ u, List.append_assoc _ _ _, cancellations_append _ _, losses_append _ _⟩

theorem Extends.last {c : WriterCall} (r : Outcome PyError c.Res) :
    Extends h (h ++ [⟨c, r⟩]) (if isCancelled ⟨c, r⟩ then 1 else 0)
      (if losesItem ⟨c, r⟩ then 1 else 0) :=
  ⟨_, rfl, List.countP_singleton, List.countP_singleton⟩

/-- The writer is between two rounds, as far as its fields go. -/
structure Ready (cfg : WriterConfig) (s : WriterState) (h : WriterHistory) : Prop where
  account : Account cfg s h
  getTask : s.getTask = none
  room : s.pendingBatch.length < cfg.batchSize

/-- The writer was cancelled in the middle of a round. -/
structure Interrupted (cfg : WriterConfig) (s : WriterState) (h : WriterHistory) (s' : WriterState)
    (h' : WriterHistory) : Prop where
  account : Account cfg s' h'
  room : s'.pendingBatch.length ≤ cfg.batchSize
  running : s'.running = s.running
  stopped : s'.stopped = s.stopped
  history : Extends h h' 1 (if s'.getTask.isSome then 1 else 0)

/-- How a part of a round ends. -/
def RoundPost (cfg : WriterConfig) (s : WriterState) (h : WriterHistory) {α : Type} :
    Outcome PyError α → WriterState → WriterHistory → Prop
  | .ok _, s', h' => Ready cfg s' h' ∧ s'.running = s.running ∧ s'.stopped = s.stopped ∧
      Extends h h' 0 0
  | .error .cancelled, s', h' => Interrupted cfg s h s' h'
  | .error (.error _), _, _ => False

theorem RoundPost.after {α : Type} {s₁ s₂ : WriterState} {h₁ h₂ : WriterHistory}
    {r : Outcome PyError α} (hp : RoundPost cfg s₁ h₁ r s₂ h₂) (hr : s₁.running = s.running)
    (hs : s₁.stopped = s.stopped) (he : Extends h h₁ 0 0) : RoundPost cfg s h r s₂ h₂ := by
  match r with
  | .ok _ =>
    obtain ⟨hready, hr', hs', he'⟩ := hp
    exact ⟨hready, hr'.trans hr, hs'.trans hs, he.trans he'⟩
  | .error .cancelled =>
    obtain ⟨ha, hle, hr', hs', he'⟩ := hp
    have hcat := he.trans he'
    rw [Nat.zero_add, Nat.zero_add] at hcat
    exact ⟨ha, hle, hr'.trans hr, hs'.trans hs, hcat⟩
  | .error (.error _) => exact hp

/-- A flush without a get task ends a round. -/
theorem wp_flush_round (ha : Account cfg s h) (hg : s.getTask = none)
    (hle : s.pendingBatch.length ≤ cfg.batchSize) :
    ((flushPending cfg) s).wp (writerContract cfg) (RoundPost cfg s h) h := by
  refine wp_mono ?_ (wp_flushPending ha hle)
  rintro ((e | _) | _) s' h' hp
  · exact hp
  · have hk := kept_of_quiet hp.1.quiet
    have hg' : s'.getTask.isSome = false := by rw [hk.getTask, hg]; rfl
    refine ⟨hp.1.account ha, by rw [hk.pendingBatch]; exact hle, hk.running, hk.stopped, ?_⟩
    rw [hg']
    exact hp.1.history
  · have hg' : s'.getTask.isSome = false := by rw [hp.getTask, hg]; rfl
    refine ⟨⟨hp.account, ?_, ?_⟩, hp.running, hp.stopped, hp.history⟩
    · exact Option.not_isSome_iff_eq_none.1 (by rw [hg']; exact Bool.false_ne_true)
    · rw [hp.pendingBatch]
      exact cfg.batchSize_pos

/-- How `_wait_for_item_or_stop` ends; the item it returns is pending from then on. -/
def WaitPost (cfg : WriterConfig) (s : WriterState) (h : WriterHistory) :
    Outcome PyError (Option WorkerPollResult) → WriterState → WriterHistory → Prop
  | .ok item, s', h' =>
    Account cfg { s' with pendingBatch := s'.pendingBatch ++ item.toList } h' ∧
      s'.pendingBatch = s.pendingBatch ∧ s'.getTask = none ∧ s'.running = s.running ∧
      s'.stopped = s.stopped ∧ Extends h h' 0 0
  | .error .cancelled, s', h' => Interrupted cfg s h s' h'
  | .error (.error _), _, _ => False

theorem getTask_holding_env {s' : WriterState} {item : WorkerPollResult}
    (hr : ReflTransGen WriterEnv s s') (hg : s.getTask = some (.holding item)) :
    s'.getTask = some (.holding item) := by
  induction hr with
  | refl => exact hg
  | tail _ he ih =>
    cases he with
    | put => exact ih
    | putTimeout => exact ih
    | close => exact ih
    | stop => exact ih
    | getWaits hc => rw [ih] at hc; cases hc
    | getTakes hc => rw [ih] at hc; rcases hc with hc | hc <;> cases hc

/-- The get task may be changed while it holds nothing. -/
theorem account_setGetTask {g : Option GetTask} (ha : Account cfg s h) (hh : s.held = [])
    (hh' : WriterState.held { s with getTask := g } = []) :
    Account cfg { s with getTask := g } h := by
  obtain ⟨h1, h2, h3, h4, h5, h6, h7⟩ := ha
  rw [hh, ← hh'] at h1 h3
  exact ⟨h1, h2, h3, h4, h5, h6, h7⟩

/-- The item of the get task becomes pending. -/
theorem account_takeItem {item : WorkerPollResult} (ha : Account cfg s h)
    (hg : s.getTask = some (.holding item)) :
    Account cfg { s with getTask := none, pendingBatch := s.pendingBatch ++ [item] } h := by
  obtain ⟨h1, h2, h3, h4, h5, h6, h7⟩ := ha
  rw [held_of_getTask hg] at h1 h3
  refine ⟨?_, h2, ?_, h4, h5, h6, h7⟩
  · simp only [h1, List.append_assoc]; simp [WriterState.held]
  · simp only [List.length_append, List.length_singleton] at h3 ⊢
    simp only [WriterState.held, List.length_nil]
    omega

/-- The item is handed over, once it is collected. -/
theorem waitPost_item {s' : WriterState} {h' : WriterHistory} {item : WorkerPollResult}
    (ha : Account cfg s' h') (hg : s'.getTask = some (.holding item))
    (hp : s'.pendingBatch = s.pendingBatch) (hr : s'.running = s.running)
    (hs : s'.stopped = s.stopped) (he : Extends h h' 0 0) :
    WaitPost cfg s h (.ok (some item)) { s' with getTask := none } h' :=
  ⟨account_takeItem (s := s') ha hg, hp, rfl, hr, hs, he⟩

theorem wp_collectItem (stopDone : Bool) (ha : Account cfg s h)
    (hle : s.pendingBatch.length ≤ cfg.batchSize) :
    ((collectItem stopDone) s).wp (writerContract cfg) (WaitPost cfg s h) h := by
  rw [collectItem, wp_bind, wp_get]
  have hnone : (∀ item, s.getTask ≠ some (.holding item)) →
      ((do
        .modify fun s => { s with getTask := none }
        Prog.await (C := WriterCalls) (.gather none)
        return none : WriterProg (Option WorkerPollResult)) s).wp
          (writerContract cfg) (WaitPost cfg s h) h := by
    intro hg
    have hheld : s.held = [] := by
      unfold WriterState.held
      split
      · next item hi => exact absurd hi (hg item)
      · rfl
    have ha₀ : Account cfg { s with getTask := none } h := account_setGetTask ha hheld rfl
    simp only [wp_bind, wp_modify]
    refine ⟨⟨ha₀, trivial⟩, fun s' r hr hans => ?_⟩
    have hk := kept_of_quiet (quiet_of_rely hr)
    have hg' : s'.getTask = none := Option.not_isSome_iff_eq_none.1 (by
      rw [hk.getTask]; exact Bool.false_ne_true)
    rcases hans with rfl | rfl
    · refine ⟨?_, hk.pendingBatch, hg', hk.running, hk.stopped, Extends.last (c := .gather none) _⟩
      simp only [Option.toList_none, List.append_nil]
      exact (hk.account ha₀).mono
    · refine ⟨(hk.account ha₀).mono, by rw [hk.pendingBatch]; exact hle, hk.running, hk.stopped, ?_⟩
      rw [hg']
      exact Extends.last (c := .gather none) _
  cases hg : s.getTask with
  | none =>
    simp only [hg]
    exact hnone fun item hi => by rw [hg] at hi; cases hi
  | some g =>
    cases g with
    | created =>
      simp only [hg]
      exact hnone fun item hi => by rw [hg] at hi; cases hi
    | waiting =>
      simp only [hg]
      exact hnone fun item hi => by rw [hg] at hi; cases hi
    | holding item =>
      simp only [hg]
      cases stopDone with
      | true => exact waitPost_item ha hg rfl rfl rfl ⟨[], (List.append_nil h).symm, rfl, rfl⟩
      | false =>
        simp only [Bool.false_eq_true, not_false_eq_true, if_true, wp_bind]
        refine ⟨⟨ha, trivial⟩, fun s' r hr hans => ?_⟩
        have hk := kept_of_quiet (quiet_of_rely hr)
        have hg' := getTask_holding_env hr hg
        have ha' := (hk.account ha).mono (t := [⟨.gather (some item), r⟩])
        rcases hans with rfl | rfl
        · exact waitPost_item ha' hg' hk.pendingBatch hk.running hk.stopped
            (Extends.last (c := .gather (some item)) _)
        · refine ⟨ha', by rw [hk.pendingBatch]; exact hle, hk.running, hk.stopped, ?_⟩
          rw [hg']
          exact Extends.last (c := .gather (some item)) _

theorem wp_waitForItemOrStop (ha : Account cfg s h) (hg : s.getTask = none)
    (hlt : s.pendingBatch.length < cfg.batchSize) :
    ((waitForItemOrStop cfg) s).wp (writerContract cfg) (WaitPost cfg s h) h := by
  have hheld : s.held = [] := by rw [WriterState.held, hg]
  have ha₀ : Account cfg { s with getTask := some .created } h := account_setGetTask ha hheld rfl
  simp only [waitForItemOrStop, wp_bind, wp_modify]
  refine ⟨⟨ha₀, trivial⟩, fun s₁ r hr₁ hans => ?_⟩
  have hk₁ := kept_of_quiet (quiet_of_rely hr₁)
  have ha₁ := (hk₁.account ha₀).mono (t := [⟨.wait cfg.flushIntervalS, r⟩])
  have he₁ := Extends.last (h := h) (c := .wait cfg.flushIntervalS) r
  have hle₁ : s₁.pendingBatch.length ≤ cfg.batchSize := by
    rw [hk₁.pendingBatch]; exact hlt.le
  match r with
  | .error (.error e) => cases hans
  | .error .cancelled =>
    refine ⟨ha₁, hle₁, hk₁.running, hk₁.stopped, ?_⟩
    rw [hk₁.getTask]
    exact he₁
  | .ok stopDone =>
    show ((collectItem stopDone) s₁).wp _ _ _
    refine wp_mono ?_ (wp_collectItem stopDone ha₁ hle₁)
    rintro ((e | _) | item) s₂ h₂ hp
    · exact hp
    · obtain ⟨ha₂, hle₂, hr₂, hs₂, he₂⟩ := hp
      have he := he₁.trans he₂
      simp only [isCancelled, losesItem, Bool.false_and, Bool.false_eq_true, if_false, Nat.zero_add] at he
      exact ⟨ha₂, hle₂, hr₂.trans hk₁.running, hs₂.trans hk₁.stopped, he⟩
    · obtain ⟨ha₂, hp₂, hg₂, hr₂, hs₂, he₂⟩ := hp
      exact ⟨ha₂, hp₂.trans hk₁.pendingBatch, hg₂, hr₂.trans hk₁.running, hs₂.trans hk₁.stopped,
        he₁.trans he₂⟩

theorem wp_consume (hready : Ready cfg s h) :
    ((consume cfg) s).wp (writerContract cfg) (RoundPost cfg s h) h := by
  obtain ⟨ha, hg, hlt⟩ := hready
  rw [consume, wp_bind, wp_get]
  simp only
  split_ifs with hfull hstop
  · exact wp_flush_round ha hg hlt.le
  · exact wp_flush_round ha hg hlt.le
  rw [wp_bind]
  refine wp_mono ?_ (wp_waitForItemOrStop ha hg hlt)
  rintro ((e | _) | item) s₁ h₁ hp
  · exact hp
  · exact hp
  obtain ⟨ha₁, hp₁, hg₁, hr₁, hs₁, he₁⟩ := hp
  cases item with
  | none =>
    simp only [Option.toList_none, List.append_nil] at ha₁
    have hle₁ : s₁.pendingBatch.length ≤ cfg.batchSize := by rw [hp₁]; exact hlt.le
    exact wp_mono (fun _ _ _ hp₂ => RoundPost.after hp₂ hr₁ hs₁ he₁) (wp_flush_round ha₁ hg₁ hle₁)
  | some item =>
    simp only [Option.toList_some] at ha₁
    have hlen : (s₁.pendingBatch ++ [item]).length = s.pendingBatch.length + 1 := by
      rw [hp₁, List.length_append, List.length_singleton]
    simp only [wp_bind, wp_modify, wp_get]
    split_ifs with hfull'
    · refine wp_mono ?_ (wp_flush_round ha₁ hg₁ ?_)
      · exact fun _ _ _ hp₂ => RoundPost.after hp₂ hr₁ hs₁ he₁
      · simp only [hlen]
        omega
    · exact ⟨⟨ha₁, hg₁, not_le.1 hfull'⟩, hr₁, hs₁, he₁⟩

theorem wp_consumeOrFlush (hready : Ready cfg s h) :
    ((consumeOrFlush cfg) s).wp (writerContract cfg) (RoundPost cfg s h) h := by
  rw [consumeOrFlush, wp_bind, wp_get]
  simp only
  split_ifs with he
  swap
  · exact wp_consume hready
  rw [wp_bind]
  refine wp_mono ?_ (wp_replaySpoolOnce hready.account)
  rintro ((e | _) | replayed) s₁ h₁ hp
  · exact hp
  · have hk := kept_of_quiet hp.quiet
    have hg : s₁.getTask.isSome = false := by rw [hk.getTask, hready.getTask]; rfl
    refine ⟨hp.account hready.account, ?_, hk.running, hk.stopped, ?_⟩
    · rw [hk.pendingBatch]
      exact hready.room.le
    · rw [hg]
      exact hp.history
  · have hk := kept_of_quiet hp.quiet
    have hready₁ : Ready cfg s₁ h₁ := by
      refine ⟨hp.account hready.account, ?_, by rw [hk.pendingBatch]; exact hready.room⟩
      exact Option.not_isSome_iff_eq_none.1 (by rw [hk.getTask, hready.getTask]; exact Bool.false_ne_true)
    simp only
    split_ifs
    · exact ⟨hready₁, hk.running, hk.stopped, hp.history⟩
    · exact wp_mono (fun _ _ _ hp₂ => RoundPost.after hp₂ hk.running hk.stopped hp.history)
        (wp_consume hready₁)

end Writer

end PlcGateway
