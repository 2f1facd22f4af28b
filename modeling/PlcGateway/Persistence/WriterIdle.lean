/-
  What the writer does between two waits.

  While it replays and flushes, the writer awaits threads and sleeps only.  If its
  surroundings leave the batch and the queue alone in the meantime and cancel
  nothing (`Resting`), these methods return, a replay changes nothing of the batch
  and the queue, and a flush acknowledges the batch.
-/
import PlcGateway.Persistence.WriterMethods

namespace PlcGateway

open Coroutine Relation

/-- The writer without a get task has left the batch and the queue alone. -/
structure Idle (s s' : WriterState) : Prop where
  getTask : s'.getTask = none
  pendingBatch : s'.pendingBatch = s.pendingBatch
  items : s'.queue.items = s.queue.items
  unfinished : s'.queue.unfinished = s.queue.unfinished
  stop : s.stopRequested = true → s'.stopRequested = true

section
variable {s s₁ s₂ : WriterState}

theorem Idle.refl (hg : s.getTask = none) : Idle s s := ⟨hg, rfl, rfl, rfl, id⟩

theorem Idle.trans (a : Idle s s₁) (b : Idle s₁ s₂) : Idle s s₂ :=
  ⟨b.getTask, b.pendingBatch.trans a.pendingBatch, b.items.trans a.items,
    b.unfinished.trans a.unfinished, fun hs => b.stop (a.stop hs)⟩

theorem Idle.books (a : Idle s s₁) (c : WriterCounters) (e : Option String) :
    Idle s { s₁ with counters := c, lastError := e } := ⟨a.1, a.2, a.3, a.4, a.5⟩

end

/-- Nothing but the books of the writer has changed. -/
def Still (s s' : WriterState) : Prop :=
  s.getTask = none ∧ ∃ counters lastError, s' = { s with counters, lastError }

/-- Threads and sleeps may be awaited, and while one is awaited nothing is cancelled
    and the writer rests in `R`. -/
structure Resting (K : Contract WriterCalls WriterState PyError)
    (R : WriterState → WriterState → Prop) : Prop where
  thread : ∀ job t s h, K.issue (.toThread job t) s h
  sleep : ∀ d s h, K.issue (.sleep d) s h
  rely : ∀ s s', s.getTask = none → K.rely s s' → R s s'
  thread_alive : ∀ job t s r, K.answer (.toThread job t) s r → r ≠ .error .cancelled
  sleep_alive : ∀ d s r, K.answer (.sleep d) s r → r ≠ .error .cancelled
  idle : ∀ s s', R s s' → Idle s s'
  refl : ∀ s, s.getTask = none → R s s
  trans : ∀ s s₁ s₂, R s s₁ → R s₁ s₂ → R s s₂
  books : ∀ s s₁ counters lastError, R s s₁ → R s { s₁ with counters, lastError }

/-! ## Methods that leave the queue alone -/

namespace Writer
variable {cfg : WriterConfig} {α β : Type} {K : Contract WriterCalls WriterState PyError}
  {R : WriterState → WriterState → Prop}

/-- The method is not cancelled, and leaves the writer resting. -/
def Calm (K : Contract WriterCalls WriterState PyError) (R : WriterState → WriterState → Prop)
    (m : WriterProg α) : Prop :=
  ∀ s h, s.getTask = none → (m s).wp K (fun r s' _ => R s s' ∧ r ≠ .error .cancelled) h

/-- The method returns, and leaves the writer resting. -/
def Tame (K : Contract WriterCalls WriterState PyError) (R : WriterState → WriterState → Prop)
    (m : WriterProg α) : Prop :=
  ∀ s h, s.getTask = none → (m s).wp K (fun r s' _ => R s s' ∧ ∃ a, r = .ok a) h

section
variable (hK : Resting K R)
include hK

theorem calm_toThread (job : Job) (t : ℚ) : Calm K R (toThread job t) := by
  intro s h hg
  refine (wp_await _ _ _ _).2 ⟨hK.thread _ _ _ _, fun s' r hr ha => ?_⟩
  exact ⟨hK.rely _ _ hg hr, hK.thread_alive _ _ _ _ ha⟩

theorem calm_sleep (d : ℚ) : Calm K R (sleep d) := by
  intro s h hg
  refine (wp_await _ _ _ _).2 ⟨hK.sleep _ _ _, fun s' r hr ha => ?_⟩
  exact ⟨hK.rely _ _ hg hr, hK.sleep_alive _ _ _ ha⟩

theorem calm_runWithRetry {operation : WriterProg α} (policy : RetryPolicy)
    (hop : Calm K R operation) :
    Calm K R (runWithRetry operation policy sleep (fun _ => defaultRandom) recordRetry) := by
  intro s h hg
  refine wp_runWithRetry (I := fun s' _ => R s s') ?_ (hK.refl s hg)
  intro s₁ h₁ hi₁
  refine wp_mono ?_ (hop s₁ h₁ (hK.idle _ _ hi₁).getTask)
  rintro ((e | _) | a) s₂ h₂ ⟨hi₂, hne⟩
  · have hi := hK.trans _ _ _ hi₁ hi₂
    refine ⟨fun e' => ⟨hi, by simp⟩, fun delay n => ?_⟩
    refine wp_mono ?_ (calm_sleep hK delay (recordRetry e delay n s₂) h₂ (hK.idle _ _ hi₂).getTask)
    rintro (e' | _) s₃ h₃ ⟨hi₃, hne₃⟩
    · exact ⟨hK.trans _ _ _ (hK.books _ _ _ _ hi) hi₃, fun he => hne₃ (by cases he; rfl)⟩
    · exact hK.trans _ _ _ (hK.books _ _ _ _ hi) hi₃
  · exact absurd rfl hne
  · exact fun o => ⟨hK.trans _ _ _ hi₁ hi₂, by simp⟩

omit hK in
theorem tame_attempt {m : WriterProg α} (hm : Calm K R m) : Tame K R (Prog.attempt m) := by
  intro s h hg
  rw [wp_attempt]
  refine wp_mono ?_ (hm s h hg)
  rintro ((e | _) | a) s' h' ⟨hi, hne⟩
  · exact ⟨hi, _, rfl⟩
  · exact absurd rfl hne
  · exact ⟨hi, _, rfl⟩

theorem tame_pure (a : α) : Tame K R (pure a : WriterProg α) :=
  fun _ _ hg => ⟨hK.refl _ hg, a, rfl⟩

theorem tame_bind {m : WriterProg α} {f : α → WriterProg β} (hm : Tame K R m)
    (hf : ∀ a, Tame K R (f a)) : Tame K R (m >>= f) := by
  intro s h hg
  rw [wp_bind]
  refine wp_mono ?_ (hm s h hg)
  rintro r s₁ h₁ ⟨hi₁, a, rfl⟩
  refine wp_mono ?_ (hf a s₁ h₁ (hK.idle _ _ hi₁).getTask)
  rintro r s₂ h₂ ⟨hi₂, hr⟩
  exact ⟨hK.trans _ _ _ hi₁ hi₂, hr⟩

theorem tame_setLastError (e : PyError) : Tame K R (setLastError e) :=
  fun _ _ hg => ⟨hK.books _ _ _ _ (hK.refl _ hg), (), rfl⟩

theorem tame_count (f : WriterCounters → WriterCounters) : Tame K R (count f) :=
  fun _ _ hg => ⟨hK.books _ _ _ _ (hK.refl _ hg), (), rfl⟩

theorem tame_persistBatch (batch : List WorkerPollResult) : Tame K R (persistBatch cfg batch) := by
  refine tame_bind hK (tame_attempt (calm_runWithRetry hK _ (calm_toThread hK _ _))) ?_
  rintro (e | ⟨inserted, o⟩)
  · exact tame_bind hK (tame_setLastError hK e) fun _ => tame_pure hK false
  · exact tame_bind hK (tame_count hK _) fun _ => tame_pure hK true

theorem tame_spoolBatch (batch : List WorkerPollResult) : Tame K R (spoolBatch cfg batch) := by
  unfold spoolBatch
  split_ifs
  · refine tame_bind hK (tame_attempt (calm_toThread hK _ _)) ?_
    rintro (e | inserted)
    · exact tame_bind hK (tame_setLastError hK e) fun _ =>
        tame_bind hK (tame_count hK _) fun _ => tame_pure hK false
    · exact tame_bind hK (tame_count hK _) fun _ => tame_pure hK true
  · exact tame_pure hK false

theorem tame_markReplayed (entries : List SpoolEntry) : Tame K R (markReplayed cfg entries) := by
  refine tame_bind hK (tame_attempt (calm_toThread hK _ _)) ?_
  rintro (e | n)
  · exact tame_setLastError hK e
  · exact tame_count hK _

theorem tame_markFailed (entries : List SpoolEntry) : Tame K R (markFailed cfg entries) := by
  refine tame_bind hK (tame_attempt (calm_toThread hK _ _)) ?_
  rintro (e | n)
  · exact tame_setLastError hK e
  · exact tame_count hK _

/-- The rest of a replay that found entries. -/
theorem wp_replayEntries (cfg : WriterConfig) (entries : List SpoolEntry) {s : WriterState}
    (h : WriterHistory) (hg : s.getTask = none) :
    ((do
      if ← persistBatch cfg (entries.map SpoolEntry.pollResult) then markReplayed cfg entries
      else markFailed cfg entries
      return true : WriterProg Bool) s).wp K (fun r s' _ => r = .ok true ∧ R s s') h := by
  rw [wp_bind]
  refine wp_mono ?_ (tame_persistBatch hK _ s h hg)
  rintro r s₁ h₁ ⟨hi₁, persisted, rfl⟩
  have hg₁ := (hK.idle _ _ hi₁).getTask
  cases persisted with
  | true =>
    simp only [if_true, wp_bind]
    refine wp_mono ?_ (tame_markReplayed hK entries s₁ h₁ hg₁)
    rintro r s₂ h₂ ⟨hi₂, _, rfl⟩
    exact ⟨rfl, hK.trans _ _ _ hi₁ hi₂⟩
  | false =>
    simp only [Bool.false_eq_true, if_false, wp_bind]
    refine wp_mono ?_ (tame_markFailed hK entries s₁ h₁ hg₁)
    rintro r s₂ h₂ ⟨hi₂, _, rfl⟩
    exact ⟨rfl, hK.trans _ _ _ hi₁ hi₂⟩

theorem tame_replaySpoolOnce : Tame K R (replaySpoolOnce cfg) := by
  unfold replaySpoolOnce
  split_ifs
  swap
  · exact tame_pure hK false
  refine tame_bind hK (tame_attempt (calm_toThread hK _ _)) ?_
  rintro (e | entries)
  · exact tame_bind hK (tame_setLastError hK e) fun _ => tame_pure hK false
  · simp only
    split_ifs
    · exact tame_pure hK false
    · intro s h hg
      refine wp_mono ?_ (wp_replayEntries hK cfg entries h hg)
      rintro r s' h' ⟨hr, hi⟩
      exact ⟨hi, true, hr⟩

/-! ## Flushing -/

theorem wp_ackBatch_rest {s s₁ : WriterState} {h : WriterHistory} (hi : R s s₁)
    (hun : s.pendingBatch.length ≤ s.queue.unfinished) (v : Verdict) (c : WriterCounters)
    (e : Option String) :
    ((ackBatch s.pendingBatch.length v) { s₁ with counters := c, lastError := e }).wp K
      (fun r s' _ => r = .ok () ∧ ∃ s₂ v, R s s₂ ∧ s' = s₂.acknowledge v) h := by
  have hidle := hK.idle _ _ hi
  rw [← hidle.pendingBatch, ← hidle.unfinished] at hun
  have hack : ackBatch s.pendingBatch.length v { s₁ with counters := c, lastError := e } =
      .done ({ s₁ with counters := c, lastError := e }.acknowledge v) (.ok ()) := by
    rw [← hidle.pendingBatch]
    exact ackBatch_eq (s := { s₁ with counters := c, lastError := e }) v hun
  rw [hack]
  exact ⟨rfl, _, v, hK.books _ _ c e hi, rfl⟩

/-- A flush acknowledges the batch, if there is one. -/
theorem wp_flushPending_rest {s : WriterState} (h : WriterHistory) (hg : s.getTask = none)
    (hun : s.pendingBatch.length ≤ s.queue.unfinished) :
    ((flushPending cfg) s).wp K (fun r s' _ => r = .ok () ∧
      (s.pendingBatch = [] ∧ s' = s ∨ ∃ s₁ v, R s s₁ ∧ s' = s₁.acknowledge v)) h := by
  rw [flushPending, wp_bind, wp_get]
  simp only
  split_ifs with he
  · exact ⟨rfl, .inl ⟨List.isEmpty_iff.1 he, rfl⟩⟩
  have hright : ∀ (r : Outcome PyError Unit) s' (_ : WriterHistory),
      r = .ok () ∧ (∃ s₁ v, R s s₁ ∧ s' = s₁.acknowledge v) →
      r = .ok () ∧ (s.pendingBatch = [] ∧ s' = s ∨ ∃ s₁ v, R s s₁ ∧ s' = s₁.acknowledge v) :=
    fun r s' _ => And.imp_right Or.inr
  rw [wp_bind]
  refine wp_mono ?_ (tame_persistBatch hK s.pendingBatch s h hg)
  rintro r s₁ h₁ ⟨hi₁, persisted, rfl⟩
  cases persisted with
  | true =>
    simp only [if_true, wp_bind, wp_modify]
    exact wp_mono hright (wp_ackBatch_rest hK hi₁ hun .persisted _ _)
  | false =>
    simp only [Bool.false_eq_true, if_false]
    rw [wp_bind]
    refine wp_mono ?_ (tame_spoolBatch hK s.pendingBatch s₁ h₁ (hK.idle _ _ hi₁).getTask)
    rintro r s₂ h₂ ⟨hi₂, spooled, rfl⟩
    have hi := hK.trans _ _ _ hi₁ hi₂
    cases spooled with
    | true =>
      simp only [if_true, wp_bind]
      exact wp_mono hright (wp_ackBatch_rest hK hi hun .spooled _ _)
    | false =>
      simp only [Bool.false_eq_true, if_false, wp_bind]
      exact wp_mono hright (wp_ackBatch_rest hK hi hun .failed _ _)

end

end Writer

end PlcGateway
