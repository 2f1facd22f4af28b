/-
  Whole runs of the writer.

  A round of `run` restores `WriterInv`, and whatever ends the loop leaves the
  writer as `Ended` says.  The conservation of items and the safety of cancelling
  the writer are read off these two.
-/
import PlcGateway.Persistence.WriterMethods

namespace PlcGateway

open Coroutine Relation

/-- The writer is between two rounds. -/
structure WriterInv (cfg : WriterConfig) (s : WriterState) (h : WriterHistory) : Prop where
  ready : Writer.Ready cfg s h
  running : s.running = true
  stopped : s.stopped = false
  cancellations : cancellations h = 0
  losses : losses h = 0

/-- `run` has ended: a third cancellation stops the `finally` before its end, and a
    loss leaves the get task behind. -/
structure Ended (cfg : WriterConfig) (s : WriterState) (h : WriterHistory) : Prop where
  account : Account cfg s h
  losses : losses h = if s.getTask.isSome then 1 else 0
  outcome : cancellations h ≤ 2 ∧ s.running = false ∧ s.stopped = true ∧ s.pendingBatch = [] ∨
    cancellations h = 3 ∧ s.running = true

/-- The end of the loop, whatever its outcome. -/
def WriterEnd (cfg : WriterConfig) (_ : Outcome PyError Unit) (s : WriterState)
    (h : WriterHistory) : Prop := Ended cfg s h

namespace Writer
variable {cfg : WriterConfig} {s : WriterState} {h : WriterHistory}

theorem wp_round (hinv : WriterInv cfg s h) :
    ((round cfg) s).wp (writerContract cfg)
      (fun r s' h' => RoundPost cfg s h r s' h' ∧ (r = .ok false → s'.pendingBatch = [])) h := by
  rw [round, wp_bind, wp_get]
  simp only
  split_ifs with hstop
  · have he : s.pendingBatch = [] := by
      simp only [WriterState.shouldStop, Bool.and_eq_true, List.isEmpty_iff] at hstop
      exact hstop.2
    exact ⟨⟨hinv.ready, rfl, rfl, [], (List.append_nil h).symm, rfl, rfl⟩, fun _ => he⟩
  · rw [wp_bind]
    refine wp_mono ?_ (wp_consumeOrFlush hinv.ready)
    rintro ((e | _) | _) s' h' hp
    · exact hp.elim
    · exact ⟨hp, fun hr => by cases hr⟩
    · exact ⟨hp, fun hr => by cases hr⟩

/-- The `finally` ends the run; it is cut short by a third cancellation only. -/
theorem wp_leave (r : Outcome PyError Bool) (hr : r ≠ .ok true) (ha : Account cfg s h)
    (hle : s.pendingBatch.length ≤ cfg.batchSize) (hrun : s.running = true)
    (hl : losses h = if s.getTask.isSome then 1 else 0) (hc : cancellations h ≤ 2)
    (hp : s.pendingBatch ≠ [] → cancellations h = 2) :
    ((leave cfg r) s).wp (writerContract cfg) (loopPost (WriterInv cfg) (WriterEnd cfg)) h := by
  rw [leave, wp_bind]
  refine wp_mono ?_ (wp_flushPending ha hle)
  rintro ((e | _) | _) s' h' hf
  · exact hf.elim
  · obtain ⟨hlater, hne⟩ := hf
    have hk := kept_of_quiet hlater.quiet
    obtain ⟨t, ht, hct, hlt⟩ := hlater.history
    refine ⟨hlater.account ha, ?_, .inr ⟨?_, hk.running.trans hrun⟩⟩
    · rw [ht, losses_append, hl, hlt, hk.getTask]
      rfl
    · rw [ht, cancellations_append, hp hne, hct]
  · obtain ⟨hp', ha', hg', -, -, t, ht, hct, hlt⟩ := hf
    have hend : Ended cfg { s' with running := false, stopped := true } h' := by
      refine ⟨⟨ha'.1, ha'.2, ha'.3, ha'.4, ha'.5, ha'.6, ha'.7⟩, ?_, .inl ⟨?_, rfl, rfl, hp'⟩⟩
      · rw [ht, losses_append, hl, hlt, hg']
        rfl
      · rw [ht, cancellations_append, hct]
        exact hc
    match r with
    | .ok true => exact absurd rfl hr
    | .ok false => exact hend
    | .error e => exact hend

/-- **A round restores the invariant, or ends the run.** -/
theorem wp_runIteration (hinv : WriterInv cfg s h) :
    ((runIteration cfg) s).wp (writerContract cfg) (loopPost (WriterInv cfg) (WriterEnd cfg)) h := by
  rw [runIteration, wp_bind, wp_outcome, wp_onCancelled]
  refine wp_mono ?_ (wp_round hinv)
  rintro ((e | _) | again) s₁ h₁ ⟨hp, hempty⟩
  · exact hp.elim
  · obtain ⟨ha, hle, hr, -, t, ht, hct, hlt⟩ := hp
    have hrun := hr.trans hinv.running
    have hc₁ : cancellations h₁ = 1 := by rw [ht, cancellations_append, hct, hinv.cancellations]
    have hl₁ : losses h₁ = if s₁.getTask.isSome then 1 else 0 := by
      rw [ht, losses_append, hlt, hinv.losses, Nat.zero_add]
    simp only
    refine wp_mono ?_ (wp_flushPending ha hle)
    rintro ((e | _) | _) s₂ h₂ hf
    · exact hf.elim
    · obtain ⟨hlater, hne⟩ := hf
      have hk := kept_of_quiet hlater.quiet
      obtain ⟨u, hu, hcu, hlu⟩ := hlater.history
      have hc₂ : cancellations h₂ = 2 := by rw [hu, cancellations_append, hc₁, hcu]
      refine wp_leave _ (by simp) (hlater.account ha) ?_ (hk.running.trans hrun) ?_ hc₂.le
        fun _ => hc₂
      · rw [hk.pendingBatch]
        exact hle
      · rw [hu, losses_append, hl₁, hlu, hk.getTask]
        rfl
    · obtain ⟨hp', ha', hg', hr', -, u, hu, hcu, hlu⟩ := hf
      refine wp_leave _ (by simp) ha' ?_ (hr'.trans hrun) ?_ ?_ fun hne => absurd hp' hne
      · rw [hp']
        exact Nat.zero_le _
      · rw [hu, losses_append, hl₁, hlu, hg']
        rfl
      · rw [hu, cancellations_append, hc₁, hcu]
        omega
  · obtain ⟨hready, hr, hs, t, ht, hct, hlt⟩ := hp
    have hc₁ : cancellations h₁ = 0 := by rw [ht, cancellations_append, hct, hinv.cancellations]
    have hl₁ : losses h₁ = 0 := by rw [ht, losses_append, hlt, hinv.losses]
    cases again with
    | true => exact ⟨hready, hr.trans hinv.running, hs.trans hinv.stopped, hc₁, hl₁⟩
    | false =>
      refine wp_leave _ (by simp) hready.account hready.room.le (hr.trans hinv.running) ?_ ?_
        fun hne => absurd (hempty rfl) hne
      · rw [hl₁, hready.getTask]
        rfl
      · rw [hc₁]
        exact Nat.zero_le 2

theorem inv_env {s' : WriterState} (hinv : WriterInv cfg s h) (he : WriterEnv s s') :
    WriterInv cfg s' h := by
  obtain ⟨⟨ha, hg, hlt⟩, hr, hs, hc, hl⟩ := hinv
  have hk := kept_of_env he
  refine ⟨⟨hk.account ha, ?_, by rw [hk.pendingBatch]; exact hlt⟩, hk.running.trans hr,
    hk.stopped.trans hs, hc, hl⟩
  exact Option.not_isSome_iff_eq_none.1 (by rw [hk.getTask, hg]; exact Bool.false_ne_true)

theorem ended_env {s' : WriterState} (hend : Ended cfg s h) (he : WriterEnv s s') :
    Ended cfg s' h := by
  have hk := kept_of_env he
  refine ⟨hk.account hend.account, by rw [hk.getTask]; exact hend.losses, ?_⟩
  rw [hk.running, hk.stopped, hk.pendingBatch]
  exact hend.outcome

/-- The loop of `run` keeps the invariant. -/
theorem loopInvariant (cfg : WriterConfig) :
    LoopInvariant (runIteration cfg) WriterEnv (writerContract cfg) (WriterInv cfg)
      (WriterEnd cfg) where
  body _ _ hinv := wp_runIteration hinv
  rely_refl _ := .refl
  rely_step _ _ _ hr he := hr.tail he
  inv_env _ _ _ hinv he := inv_env hinv he
  end_env _ _ _ _ hend he := ended_env hend he

/-- The account is settled in every good configuration. -/
theorem account_of_good {x : Config WriterCalls WriterState PyError}
    (hx : x.Good (writerContract cfg) (WriterInv cfg) (WriterEnd cfg)) :
    Account cfg x.state x.history := by
  obtain ⟨s, h, ctl⟩ := x
  cases ctl with
  | boundary => exact hx.ready.account
  | ended r => exact hx.account
  | suspended c k =>
    obtain ⟨s₀, hr, ⟨ha, -⟩, -⟩ := hx
    exact (kept_of_quiet (quiet_of_rely hr)).account ha

/-- A writer starts with nothing taken. -/
theorem start_inv {maxSize : ℕ} (hs : (WriterState.init (.empty maxSize)).start = .ok s) :
    WriterInv cfg s [] := by
  cases hs
  exact ⟨⟨⟨rfl, rfl, rfl, rfl, rfl, by simp [WriterState.init], by simp [WriterState.init]⟩, rfl,
    cfg.batchSize_pos⟩, rfl, rfl, rfl, rfl⟩

/-- **Every configuration of a run is good.** -/
theorem good_run {maxSize : ℕ} {x : Config WriterCalls WriterState PyError}
    (hrun : Run cfg (.empty maxSize) x) :
    x.Good (writerContract cfg) (WriterInv cfg) (WriterEnd cfg) := by
  obtain ⟨s, hs, hsteps⟩ := hrun
  have hinv : WriterInv cfg s [] := start_inv hs
  exact (loopInvariant cfg).good_run (x := ⟨s, [], .boundary⟩) hinv hsteps

end Writer

end PlcGateway
