/-
  The drain after a stop.

  Once the writer was asked to stop and nothing more is put, a round either replays
  spooled entries and leaves the queue alone, or takes an item or flushes.  So the
  loop of `run` ends unless it replays in every round from some round on
  (`drain_ends_or_replays`).
-/
import PlcGateway.Persistence.Script
import PlcGateway.Persistence.WriterIdle
import Mathlib.Order.WellFounded

namespace PlcGateway

open Coroutine Relation

/-! ## The surroundings of a drain -/

/-- Nothing is put. -/
def DrainEnv (s s' : WriterState) : Prop := WriterEnv s s' ∧ s'.log.puts = s.log.puts

/-- Every call may succeed, fail or time out, but none is cancelled. -/
structure Answers.Drains {τ : Type} (env : Answers τ) : Prop where
  rely : ∀ c s x, ReflTransGen DrainEnv s (env c s x).2.1
  answer : ∀ c s x, writerAnswer c (env c s x).2.1 (env c s x).1
  alive : ∀ c s x, (env c s x).1 ≠ .error .cancelled

/-- What a drain answers. -/
def drainContract : Contract WriterCalls WriterState PyError where
  issue _ _ _ := True
  rely := ReflTransGen DrainEnv
  answer c s r := writerAnswer c s r ∧ r ≠ .error .cancelled

section
variable {s s₁ s₂ : WriterState}

theorem idle_of_env (hg : s.getTask = none) (he : DrainEnv s s₁) : Idle s s₁ := by
  obtain ⟨he, hputs⟩ := he
  cases he with
  | put hq => exact absurd hputs (by simp)
  | putTimeout => exact ⟨hg, rfl, rfl, rfl, id⟩
  | close => exact ⟨hg, rfl, rfl, rfl, id⟩
  | stop => exact ⟨hg, rfl, rfl, rfl, fun _ => rfl⟩
  | getWaits hg' => rw [hg] at hg'; cases hg'
  | getTakes hg' => rw [hg] at hg'; rcases hg' with hg' | hg' <;> cases hg'

theorem idle_of_rely (hg : s.getTask = none) (hr : ReflTransGen DrainEnv s s₁) : Idle s s₁ := by
  induction hr with
  | refl => exact .refl hg
  | tail _ he ih => exact ih.trans (idle_of_env ih.getTask he)

end

theorem resting_drain : Resting drainContract Idle where
  thread _ _ _ _ := trivial
  sleep _ _ _ := trivial
  rely _ _ := idle_of_rely
  thread_alive _ _ _ _ ha := ha.2
  sleep_alive _ _ _ ha := ha.2
  idle _ _ := id
  refl _ := .refl
  trans _ _ _ := .trans
  books _ _ c e hi := hi.books c e

/-! ## Flushing and taking -/

namespace Writer
variable {cfg : WriterConfig}

/-- The batch is gone, and the queue is as it was. -/
structure Flushes (s s' : WriterState) : Prop where
  getTask : s'.getTask = none
  pendingBatch : s'.pendingBatch = []
  items : s'.queue.items = s.queue.items
  unfinished : s'.queue.unfinished = s.queue.unfinished - s.pendingBatch.length
  stop : s.stopRequested = true → s'.stopRequested = true

theorem wp_flushPending_drain {s : WriterState} (h : WriterHistory) (hg : s.getTask = none)
    (hun : s.pendingBatch.length ≤ s.queue.unfinished) :
    ((flushPending cfg) s).wp drainContract (fun r s' _ => r = .ok () ∧ Flushes s s') h := by
  refine wp_mono ?_ (wp_flushPending_rest resting_drain h hg hun)
  rintro r s' h' ⟨rfl, ⟨hempty, rfl⟩ | ⟨s₁, v, hi, rfl⟩⟩
  · refine ⟨rfl, hg, hempty, rfl, ?_, id⟩
    rw [hempty]
    rfl
  · refine ⟨rfl, hi.getTask, rfl, hi.items, ?_, hi.stop⟩
    rw [← hi.unfinished, ← hi.pendingBatch]
    rfl

/-- What a get task may do while nothing is put. -/
def Fetching (item : WorkerPollResult) (rest : List WorkerPollResult) (s s' : WriterState) : Prop :=
  s'.pendingBatch = s.pendingBatch ∧ s'.queue.unfinished = s.queue.unfinished ∧
    s'.stopRequested = true ∧
    (s'.getTask = some .created ∧ s'.queue.items = item :: rest ∨
      s'.getTask = some (.holding item) ∧ s'.queue.items = rest)

theorem fetching_env {item : WorkerPollResult} {rest : List WorkerPollResult}
    {s₀ s s' : WriterState} (hf : Fetching item rest s₀ s) (he : DrainEnv s s') :
    Fetching item rest s₀ s' := by
  obtain ⟨hp, hun, hs, hg⟩ := hf
  obtain ⟨he, hputs⟩ := he
  cases he with
  | put hq => exact absurd hputs (by simp)
  | putTimeout => exact ⟨hp, hun, hs, hg⟩
  | close => exact ⟨hp, hun, hs, hg⟩
  | stop => exact ⟨hp, hun, rfl, hg⟩
  | getWaits hg' hi =>
    rcases hg with ⟨-, hi'⟩ | ⟨hg, -⟩
    · rw [hi'] at hi
      cases hi
    · rw [hg] at hg'
      cases hg'
  | @getTakes item' queue hg' hq =>
    rcases hg with ⟨-, hi⟩ | ⟨hg, -⟩
    · simp only [ReadingQueue.getNowait, hi] at hq
      cases hq
      exact ⟨hp, hun, hs, .inr ⟨rfl, rfl⟩⟩
    · rw [hg] at hg'
      rcases hg' with hg' | hg' <;> cases hg'

theorem fetching_rely {item : WorkerPollResult} {rest : List WorkerPollResult}
    {s₀ s s' : WriterState} (hf : Fetching item rest s₀ s) (hr : ReflTransGen DrainEnv s s') :
    Fetching item rest s₀ s' := by
  induction hr with
  | refl => exact hf
  | tail _ he ih => exact fetching_env ih he

/-- The writer has taken the first item of the queue. -/
structure Takes (item : WorkerPollResult) (rest : List WorkerPollResult) (s s' : WriterState) :
    Prop where
  getTask : s'.getTask = none
  pendingBatch : s'.pendingBatch = s.pendingBatch
  items : s'.queue.items = rest
  unfinished : s'.queue.unfinished = s.queue.unfinished
  stop : s'.stopRequested = true

theorem wp_waitForItemOrStop_drain {s : WriterState} (h : WriterHistory) {item : WorkerPollResult}
    {rest : List WorkerPollResult} (hs : s.stopRequested = true)
    (hitems : s.queue.items = item :: rest) :
    ((waitForItemOrStop cfg) s).wp drainContract
      (fun r s' _ => r = .ok (some item) ∧ Takes item rest s s') h := by
  simp only [waitForItemOrStop, wp_bind, wp_modify]
  refine ⟨trivial, fun s₁ r hr ha => ?_⟩
  have hstart : Fetching item rest s { s with getTask := some .created } :=
    ⟨rfl, rfl, hs, .inl ⟨rfl, hitems⟩⟩
  have hf₁ := fetching_rely hstart hr
  match r with
  | .error (.error e) => cases ha.1
  | .error .cancelled => exact absurd rfl ha.2
  | .ok stopDone =>
    obtain ⟨hp₁, hun₁, hs₁, hg₁⟩ := hf₁
    -- `asyncio.wait` returns after the get task has had its first step
    rcases hg₁ with ⟨hg₁, -⟩ | ⟨hg₁, hi₁⟩
    · exact absurd hg₁ ha.1.1
    show ((collectItem stopDone) s₁).wp _ _ _
    simp only [collectItem, wp_bind, wp_get, hg₁]
    cases stopDone with
    | true => exact ⟨rfl, rfl, hp₁, hi₁, hun₁, hs₁⟩
    | false =>
      simp only [Bool.false_eq_true, not_false_eq_true, if_true, wp_bind]
      refine ⟨trivial, fun s₂ r hr₂ ha₂ => ?_⟩
      have hf : Fetching item rest s s₁ := ⟨hp₁, hun₁, hs₁, .inr ⟨hg₁, hi₁⟩⟩
      obtain ⟨hp₂, hun₂, hs₂, hg₂⟩ := fetching_rely hf hr₂
      have hhold := getTask_holding_env (ReflTransGen.mono (fun _ _ he => he.1) _ _ hr₂) hg₁
      have hi₂ : s₂.queue.items = rest := by
        rcases hg₂ with ⟨hg₂, -⟩ | ⟨-, hi₂⟩
        · rw [hhold] at hg₂
          cases hg₂
        · exact hi₂
      rcases ha₂.1 with rfl | rfl
      · exact ⟨rfl, rfl, hp₂, hi₂, hun₂, hs₂⟩
      · exact absurd rfl ha₂.2

/-! ## A round of a drain -/

/-- The writer is between two rounds of a drain. -/
structure DrainInv (cfg : WriterConfig) (s : WriterState) : Prop where
  getTask : s.getTask = none
  stop : s.stopRequested = true
  room : s.pendingBatch.length < cfg.batchSize
  unfinished : s.pendingBatch.length + s.queue.items.length ≤ s.queue.unfinished

/-- What is left to do: to take every item, and to flush it. -/
def work (s : WriterState) : ℕ := 2 * s.queue.items.length + s.pendingBatch.length

theorem drainInv_of_idle {s s' : WriterState} (hinv : DrainInv cfg s) (hi : Idle s s') :
    DrainInv cfg s' ∧ work s' = work s := by
  refine ⟨⟨hi.getTask, hi.stop hinv.stop, ?_, ?_⟩, ?_⟩
  · rw [hi.pendingBatch]
    exact hinv.room
  · rw [hi.pendingBatch, hi.items, hi.unfinished]
    exact hinv.unfinished
  · rw [work, work, hi.pendingBatch, hi.items]

theorem drainInv_of_flushes (cfg : WriterConfig) {s s' : WriterState} (hs : s.stopRequested = true)
    (hun : s.pendingBatch.length + s.queue.items.length ≤ s.queue.unfinished)
    (hf : Flushes s s') : DrainInv cfg s' ∧ work s' = 2 * s.queue.items.length := by
  refine ⟨⟨hf.getTask, hf.stop hs, ?_, ?_⟩, ?_⟩
  · rw [hf.pendingBatch]
    exact cfg.batchSize_pos
  · rw [hf.pendingBatch, hf.items, hf.unfinished, List.length_nil]
    omega
  · rw [work, hf.pendingBatch, hf.items]
    rfl

/-- Without a replay, a round does some of the work. -/
theorem wp_consume_drain {s : WriterState} (h : WriterHistory) (hinv : DrainInv cfg s)
    (hwork : 0 < work s) :
    ((consume cfg) s).wp drainContract
      (fun r s' _ => r = .ok () ∧ DrainInv cfg s' ∧ work s' < work s) h := by
  have hun := hinv.unfinished
  rw [consume, wp_bind, wp_get]
  simp only
  split_ifs with hfull hstop
  · exact absurd hinv.room (not_lt.2 hfull)
  · have hitems : s.queue.items = [] := by
      simp only [Bool.and_eq_true, beq_iff_eq, ReadingQueue.size, List.length_eq_zero_iff] at hstop
      exact hstop.2
    refine wp_mono ?_ (wp_flushPending_drain h hinv.getTask (by omega))
    rintro r s' h' ⟨rfl, hf⟩
    obtain ⟨hinv', hw⟩ := drainInv_of_flushes cfg hinv.stop hun hf
    refine ⟨rfl, hinv', ?_⟩
    rw [hw, hitems]
    exact hwork
  · have hitems : s.queue.items ≠ [] := by
      intro hn
      apply hstop
      simp only [hinv.stop, ReadingQueue.size, hn, List.length_nil, beq_self_eq_true, Bool.and_self]
    obtain ⟨item, rest, hcons⟩ := List.exists_cons_of_ne_nil hitems
    rw [wp_bind]
    refine wp_mono ?_ (wp_waitForItemOrStop_drain h hinv.stop hcons)
    rintro r s₁ h₁ ⟨rfl, ht⟩
    have hroom := hinv.room
    have hlen : (s₁.pendingBatch ++ [item]).length = s.pendingBatch.length + 1 := by
      rw [ht.pendingBatch, List.length_append, List.length_singleton]
    have hun₁ : (s₁.pendingBatch ++ [item]).length + s₁.queue.items.length ≤
        s₁.queue.unfinished := by
      rw [hcons, List.length_cons] at hun
      rw [hlen, ht.items, ht.unfinished]
      omega
    have hw : work s = 2 * rest.length + 2 + s.pendingBatch.length := by
      rw [work, hcons, List.length_cons]
      omega
    simp only [wp_bind, wp_modify, wp_get]
    split_ifs with hfull'
    · refine wp_mono ?_ (wp_flushPending_drain h₁ ht.getTask (by
        simp only
        omega))
      rintro r s₂ h₂ ⟨rfl, hf⟩
      obtain ⟨hinv₂, hw₂⟩ := drainInv_of_flushes cfg
        (s := { s₁ with pendingBatch := s₁.pendingBatch ++ [item] }) ht.stop hun₁ hf
      refine ⟨rfl, hinv₂, ?_⟩
      rw [hw₂, hw]
      simp only [ht.items]
      omega
    · refine ⟨rfl, ⟨ht.getTask, ht.stop, not_le.1 hfull', hun₁⟩, ?_⟩
      rw [hw]
      simp only [work, hlen, ht.items]
      omega

/-- The answers begin with a `fetch_due` that returned entries. -/
def Found (cfg : WriterConfig) (h : WriterHistory) : Prop :=
  cfg.hasSpool = true ∧ ∃ entries : List SpoolEntry, entries ≠ [] ∧
    [(⟨.toThread (.fetchDue cfg.spoolReplayBatchSize) cfg.spoolTimeoutS, .ok entries⟩ :
      (c : WriterCall) × Outcome PyError c.Res)] <+: h

/-- A replay that finds nothing is no replay, whatever follows. -/
theorem not_found_of_prefix {h : WriterHistory}
    {r : Outcome PyError (List SpoolEntry)} (hr : ∀ entries, r = .ok entries → entries = [])
    (hp : [(⟨.toThread (.fetchDue cfg.spoolReplayBatchSize) cfg.spoolTimeoutS, r⟩ :
      (c : WriterCall) × Outcome PyError c.Res)] <+: h) : ¬ Found cfg h := by
  rintro ⟨-, entries, hne, hp'⟩
  have heq := List.prefix_of_prefix_length_le hp hp' le_rfl
  rw [List.cons_prefix_cons] at heq
  cases heq.1
  exact hne (hr entries rfl)

theorem wp_replaySpoolOnce_drain {s : WriterState} (hg : s.getTask = none) :
    ((replaySpoolOnce cfg) s).wp drainContract (fun r s' h' => Idle s s' ∧
      ∃ replayed, r = .ok replayed ∧ (replayed = true → Found cfg h') ∧
        (replayed = false → ∀ u, h' <+: u → ¬ Found cfg u)) [] := by
  unfold replaySpoolOnce
  split_ifs with hs
  swap
  · exact ⟨.refl hg, false, rfl, fun hf => (by cases hf), fun _ u _ hf => hs hf.1⟩
  rw [wp_bind, wp_attempt]
  refine (wp_await _ _ _ _).2 ⟨trivial, fun s₁ r hr ha => ?_⟩
  have hi₁ := idle_of_rely hg hr
  match r with
  | .error .cancelled => exact absurd rfl ha.2
  | .error (.error e) =>
    exact ⟨hi₁.books _ _, false, rfl, fun hf => (by cases hf), fun _ u hu =>
      not_found_of_prefix (r := .error (.error e)) (fun _ he => by cases he) hu⟩
  | .ok entries =>
    simp only
    split_ifs with he
    · rw [List.isEmpty_iff] at he
      subst he
      exact ⟨hi₁, false, rfl, fun hf => (by cases hf), fun _ u hu =>
        not_found_of_prefix (r := .ok []) (fun _ he => by cases he; rfl) hu⟩
    have hne : entries ≠ [] := fun hn => he (List.isEmpty_iff.2 hn)
    refine wp_mono ?_ (wp_history (wp_replayEntries resting_drain cfg entries _ hi₁.getTask))
    rintro r s₂ h₂ ⟨⟨rfl, hi₂⟩, hp⟩
    exact ⟨hi₁.trans hi₂, true, rfl, fun _ => ⟨hs, entries, hne, hp⟩, fun hf => (by cases hf)⟩

/-- How a round of a drain ends: it does some of the work, or replays and does
    none, or leaves the loop. -/
def DrainPost (cfg : WriterConfig) (s : WriterState) :
    Outcome PyError Bool → WriterState → WriterHistory → Prop
  | .ok true, s', h' => DrainInv cfg s' ∧ s.shouldStop = false ∧
    (work s' < work s ∧ ¬ (s.pendingBatch = [] ∧ Found cfg h') ∨
      Idle s s' ∧ s.pendingBatch = [] ∧ Found cfg h')
  | .ok false, s', _ => s.shouldStop = true ∧ s'.queue.items = [] ∧ s'.pendingBatch = []
  | .error _, _, _ => False

theorem wp_round_drain {s : WriterState} (hinv : DrainInv cfg s) :
    ((round cfg) s).wp drainContract (fun r s' h' => DrainPost cfg s r s' h' ∧
      (r = .ok false → s' = s)) [] := by
  rw [round, wp_bind, wp_get]
  simp only
  split_ifs with hstop
  · have hempty := hstop
    simp only [WriterState.shouldStop, Bool.and_eq_true, beq_iff_eq, ReadingQueue.size,
      List.length_eq_zero_iff, List.isEmpty_iff] at hempty
    exact ⟨⟨hstop, hempty.1.2, hempty.2⟩, fun _ => rfl⟩
  have hgo : s.shouldStop = false := Bool.eq_false_iff.2 hstop
  have hwork : 0 < work s := by
    rw [Nat.pos_iff_ne_zero]
    intro hz
    apply hstop
    have hi : s.queue.items = [] := List.length_eq_zero_iff.1 (by unfold work at hz; omega)
    have hp : s.pendingBatch = [] := List.length_eq_zero_iff.1 (by unfold work at hz; omega)
    simp only [WriterState.shouldStop, hinv.stop, ReadingQueue.size, hi, hp, List.length_nil,
      beq_self_eq_true, List.isEmpty_nil, Bool.and_self]
  rw [wp_bind, consumeOrFlush, wp_bind, wp_get]
  simp only
  split_ifs with he
  · rw [wp_bind]
    refine wp_mono ?_ (wp_replaySpoolOnce_drain hinv.getTask)
    rintro r s₁ h₁ ⟨hi, replayed, rfl, hfound, hnot⟩
    obtain ⟨hinv₁, hw₁⟩ := drainInv_of_idle hinv hi
    cases replayed with
    | true =>
      exact ⟨⟨hinv₁, hgo, .inr ⟨hi, List.isEmpty_iff.1 he, hfound rfl⟩⟩, fun hr => by cases hr⟩
    | false =>
      simp only [Bool.false_eq_true, if_false]
      refine wp_mono ?_ (wp_history (wp_consume_drain h₁ hinv₁ (by rw [hw₁]; exact hwork)))
      rintro r s₂ h₂ ⟨⟨rfl, hinv₂, hlt⟩, hp⟩
      exact ⟨⟨hinv₂, hgo, .inl ⟨hw₁ ▸ hlt, fun hf => hnot rfl h₂ hp hf.2⟩⟩, fun hr => by cases hr⟩
  · refine wp_mono ?_ (wp_consume_drain [] hinv hwork)
    rintro r s₂ h₂ ⟨rfl, hinv₂, hlt⟩
    refine ⟨⟨hinv₂, hgo, .inl ⟨hlt, fun hf => he ?_⟩⟩, fun hr => by cases hr⟩
    rw [hf.1]
    rfl

theorem wp_runIteration_drain {s : WriterState} (hinv : DrainInv cfg s) :
    ((runIteration cfg) s).wp drainContract (DrainPost cfg s) [] := by
  rw [runIteration, wp_bind, wp_outcome, wp_onCancelled]
  refine wp_mono ?_ (wp_round_drain hinv)
  rintro (e | again) s₁ h₁ ⟨hp, hsame⟩
  · exact hp.elim
  cases again with
  | true => exact hp
  | false =>
    obtain rfl := hsame rfl
    simp only [leave, wp_bind]
    refine wp_mono ?_ (wp_flushPending_drain h₁ hinv.getTask (by have := hinv.unfinished; omega))
    rintro r s₂ h₂ ⟨rfl, hf⟩
    exact ⟨hp.1, hf.items.trans hp.2.1, hf.pendingBatch⟩

/-- The first call of a round that begins with an empty batch is `fetch_due`. -/
theorem runIteration_fetches {s : WriterState} (hspool : cfg.hasSpool = true)
    (hp : s.pendingBatch = []) (hstop : s.shouldStop = false) :
    ∃ k, runIteration cfg s =
      .await s (.toThread (.fetchDue cfg.spoolReplayBatchSize) cfg.spoolTimeoutS) k := by
  have hand : ∀ {α β : Type}
      {f : Outcome PyError α → WriterState → Coro WriterCalls WriterState PyError β}
      {t : Coro WriterCalls WriterState PyError α} {c : WriterCall},
      (∃ k, t = .await s c k) → ∃ k, t.andThen f = .await s c k := by
    rintro α β f t c ⟨k, rfl⟩
    exact ⟨_, rfl⟩
  have hreplay : ∃ k, replaySpoolOnce cfg s =
      .await s (.toThread (.fetchDue cfg.spoolReplayBatchSize) cfg.spoolTimeoutS) k := by
    rw [replaySpoolOnce, if_pos hspool]
    exact ⟨_, rfl⟩
  have hconsume : consumeOrFlush cfg s = (do
      if ← replaySpoolOnce cfg then return () else consume cfg : WriterProg Unit) s :=
    congrFun (if_pos (List.isEmpty_iff.2 hp)) s
  have hround : round cfg s = (do
      consumeOrFlush cfg
      return true : WriterProg Bool) s :=
    congrFun (if_neg (Bool.eq_false_iff.1 hstop)) s
  refine hand (hand (hand ?_))
  rw [hround]
  refine hand ?_
  rw [hconsume]
  exact hand hreplay

end Writer

/-! ## The loop of a drain -/

section
variable {τ : Type} (cfg : WriterConfig)

/-- The outcome and the states after `n` rounds; a loop that has been left stays so. -/
def drain (env : ℕ → Answers τ) (s : WriterState) (x : τ) :
    ℕ → Outcome PyError Bool × WriterState × τ
  | 0 => (.ok true, s, x)
  | n + 1 =>
    match drain env s x n with
    | (.ok true, s', x') => (Writer.runIteration cfg s').exec (env n) x'
    | left => left

/-- The loop has been left, and nothing remains. -/
def Drained (y : Outcome PyError Bool × WriterState × τ) : Prop :=
  y.1 = .ok false ∧ y.2.1.queue.items = [] ∧ y.2.1.pendingBatch = []

/-- A round that begins in `s` finds due entries in the spool. -/
def Finds (env : Answers τ) (s : WriterState) (x : τ) : Prop :=
  cfg.hasSpool = true ∧ s.pendingBatch = [] ∧ ∃ entries, entries ≠ [] ∧
    (env (.toThread (.fetchDue cfg.spoolReplayBatchSize) cfg.spoolTimeoutS) s x).1 = .ok entries

variable {cfg} {env : ℕ → Answers τ} {s : WriterState} {x : τ}

/-- **A round of a drain** leaves the loop with nothing left, or does some of the
    work, or finds due entries and does none. -/
theorem drain_round {answers : Answers τ} (henv : answers.Drains)
    (hinv : Writer.DrainInv cfg s) :
    let y := (Writer.runIteration cfg s).exec answers x
    s.shouldStop = true ∧ Drained y ∨ y.1 = .ok true ∧ Writer.DrainInv cfg y.2.1 ∧
      (Writer.work y.2.1 < Writer.work s ∧ ¬ Finds cfg answers s x ∨
        Idle s y.2.1 ∧ Finds cfg answers s x) := by
  intro y
  have hpost := wp_exec (K := drainContract)
    (fun c s x => ⟨henv.rely c s x, henv.answer c s x, henv.alive c s x⟩)
    (Writer.wp_runIteration_drain hinv) x
  rw [List.nil_append] at hpost
  change Writer.DrainPost cfg s y.1 y.2.1 _ at hpost
  match hr : y.1 with
  | .error e => rw [hr] at hpost; exact hpost.elim
  | .ok false => rw [hr] at hpost; exact .inl ⟨hpost.1, hr, hpost.2⟩
  | .ok true =>
    rw [hr] at hpost
    obtain ⟨hinv', hgo, hcases⟩ := hpost
    have hfirst : cfg.hasSpool = true → s.pendingBatch = [] → ∃ u,
        (Writer.runIteration cfg s).answers answers x = (⟨_, (answers (.toThread
          (.fetchDue cfg.spoolReplayBatchSize) cfg.spoolTimeoutS) s x).1⟩ :
            (c : WriterCall) × Outcome PyError c.Res) :: u := by
      intro hspool hp
      obtain ⟨k, hk⟩ := Writer.runIteration_fetches hspool hp hgo
      rw [hk]
      exact ⟨_, rfl⟩
    refine .inr ⟨rfl, hinv', ?_⟩
    rcases hcases with ⟨hlt, hnot⟩ | ⟨hi, hp, hspool, entries, hne, hpre⟩
    · refine .inl ⟨hlt, ?_⟩
      rintro ⟨hspool, hp, entries, hne, ha⟩
      obtain ⟨u, hu⟩ := hfirst hspool hp
      refine hnot ⟨hp, hspool, entries, hne, ?_⟩
      rw [hu, ha]
      exact ⟨u, rfl⟩
    · refine .inr ⟨hi, hspool, hp, entries, hne, ?_⟩
      obtain ⟨u, hu⟩ := hfirst hspool hp
      rw [hu, List.cons_prefix_cons] at hpre
      exact (eq_of_heq (Sigma.mk.inj hpre.1).2).symm

theorem drain_succ {n : ℕ} (h : (drain cfg env s x n).1 = .ok true) :
    drain cfg env s x (n + 1) =
      (Writer.runIteration cfg (drain cfg env s x n).2.1).exec (env n) (drain cfg env s x n).2.2 := by
  rw [drain]
  split
  · next heq => rw [heq]
  · next hne =>
    exact absurd (Prod.ext h rfl : drain cfg env s x n = (.ok true, _, _)) (hne _ _)

/-- A good writer between two rounds that was asked to stop is ready to drain. -/
theorem drainInv_of_good {y : Config WriterCalls WriterState PyError}
    (hgood : y.Good (writerContract cfg) (WriterInv cfg) (WriterEnd cfg))
    (hb : y.control = .boundary) (hstop : y.state.stopRequested = true) :
    Writer.DrainInv cfg y.state := by
  obtain ⟨s, h, ctl⟩ := y
  subst hb
  obtain ⟨⟨ha, hg, hlt⟩, -⟩ := hgood
  have hun := ha.unfinished
  have hheld : s.held = [] := by rw [WriterState.held, hg]
  rw [hheld, ReadingQueue.size] at hun
  refine ⟨hg, hstop, hlt, ?_⟩
  simp only [hun, List.length_nil]
  omega

/-- A writer between two rounds that was asked to stop is ready to drain. -/
theorem drainInv_of_run {maxSize : ℕ} {y : Config WriterCalls WriterState PyError}
    (hrun : Writer.Run cfg (.empty maxSize) y) (hb : y.control = .boundary)
    (hstop : y.state.stopRequested = true) : Writer.DrainInv cfg y.state :=
  drainInv_of_good (Writer.good_run hrun) hb hstop

/-- A drain that does not end finds due entries in every round from some round on. -/
theorem drain_ends_or_replays (hinv : Writer.DrainInv cfg s) (henv : ∀ n, (env n).Drains)
    (hnever : ¬ ∃ n, Drained (drain cfg env s x n)) :
    (∀ n, (drain cfg env s x n).1 = .ok true ∧ Writer.DrainInv cfg (drain cfg env s x n).2.1) ∧
      ∃ m, ∀ n, m ≤ n →
        Finds cfg (env n) (drain cfg env s x n).2.1 (drain cfg env s x n).2.2 := by
  -- the loop goes on for ever, and the work never grows
  have hgoes : ∀ n, (drain cfg env s x n).1 = .ok true ∧
      Writer.DrainInv cfg (drain cfg env s x n).2.1 := by
    intro n
    induction n with
    | zero => exact ⟨rfl, hinv⟩
    | succ n ih =>
      rw [drain_succ ih.1]
      rcases drain_round (henv n) ih.2 with ⟨-, hd⟩ | ⟨hok, hinv', -⟩
      · rw [← drain_succ ih.1] at hd
        exact absurd ⟨_, hd⟩ hnever
      · exact ⟨hok, hinv'⟩
  have hround : ∀ n, let z := drain cfg env s x n
      Writer.work (drain cfg env s x (n + 1)).2.1 < Writer.work z.2.1 ∨
        Writer.work (drain cfg env s x (n + 1)).2.1 = Writer.work z.2.1 ∧
          Finds cfg (env n) z.2.1 z.2.2 := by
    intro n z
    rcases drain_round (x := z.2.2) (henv n) (hgoes n).2 with
      ⟨-, hd⟩ | ⟨-, -, hlt | ⟨hi, hfinds⟩⟩
    · rw [← drain_succ (hgoes n).1] at hd
      exact absurd ⟨_, hd⟩ hnever
    · rw [drain_succ (hgoes n).1]
      exact .inl hlt.1
    · rw [drain_succ (hgoes n).1]
      exact .inr ⟨(Writer.drainInv_of_idle (hgoes n).2 hi).2, hfinds⟩
  have hanti : Antitone fun n => Writer.work (drain cfg env s x n).2.1 := by
    refine antitone_nat_of_succ_le fun n => ?_
    rcases hround n with hlt | ⟨heq, -⟩
    · exact hlt.le
    · exact heq.le
  -- from the least amount of work on, every round replays
  refine ⟨hgoes, Function.argmin fun n => Writer.work (drain cfg env s x n).2.1, fun n hn => ?_⟩
  rcases hround n with hlt | ⟨-, hfinds⟩
  · have hmin := Function.argmin_le (fun n => Writer.work (drain cfg env s x n).2.1) (n + 1)
    have hle := hanti hn
    simp only at hmin hle
    omega
  · exact hfinds

end

/-! ## A writer that was asked to stop -/

/-- Every job comes out as `threads` says, and a get task that is waited for takes an item. -/
def Answers.ofThreads (threads : (job : Job) → Stores → Except PyError job.Res × Stores) :
    Answers Stores
  | .wait _, s, st => (.ok s.stopRequested, runGetTask s, st)
  | .gather _, s, st => (.ok (), s, st)
  | .sleep _, s, st => (.ok (), s, st)
  | .toThread job _, s, st => (jobOutcome (threads job st).1, s, (threads job st).2)

theorem runGetTask_drain (s : WriterState) : ReflTransGen DrainEnv s (runGetTask s) := by
  rcases runGetTask_cases s with ⟨item, queue, hg, hq, he⟩ | ⟨hg, hi, he⟩ | ⟨-, he⟩ <;> rw [he]
  · exact .single ⟨.getTakes (.inl hg) hq, rfl⟩
  · exact .single ⟨.getWaits hg hi, rfl⟩

theorem drains_ofThreads (threads : (job : Job) → Stores → Except PyError job.Res × Stores) :
    (Answers.ofThreads threads).Drains where
  rely c s st := by
    cases c with
    | wait t => exact runGetTask_drain s
    | _ => exact .refl
  answer c s st := by
    cases c with
    | wait t => exact ⟨runGetTask_ne_created s, fun h => (runGetTask_stopRequested s).trans h⟩
    | gather held => exact .inl rfl
    | sleep d => trivial
    | toThread job t => trivial
  alive c s st := by
    cases c with
    | toThread job t =>
      simp only [Answers.ofThreads]
      cases (threads job st).1 <;> rintro ⟨⟩
    | _ => rintro ⟨⟩

/-- A writer that was asked to stop with one item in its queue. -/
def stoppedState : WriterState :=
  { testState with
    stopRequested := true
    queue := ⟨1, [testItem], 1, false, 0, 0⟩
    log := ⟨[testItem], [], []⟩ }

theorem run_stoppedState {cfg : WriterConfig} :
    Writer.Run cfg (.empty 1) ⟨stoppedState, [], .boundary⟩ :=
  ⟨testState, rfl, (ReflTransGen.refl.tail (.env (@WriterEnv.put _ testItem _ rfl))).tail (.env .stop)⟩

theorem patientDelay_nonneg : (0 : ℚ) ≤ 60 := by norm_num

/-- A writer that tries again after a minute what it could not replay. -/
def patientConfig : WriterConfig :=
  { testConfig true with spoolRetryDelayS := 60, retryDelay_nonneg := patientDelay_nonneg }

end PlcGateway
