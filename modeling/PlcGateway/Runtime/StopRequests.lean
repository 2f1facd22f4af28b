/-
  Stop requests.

  `stop()` sets a flag that the first step of `run()` clears.  A stop that comes
  after the first step is obeyed at the next check of the loop; one that comes
  between `run()` and its first step is lost.
-/
import PlcGateway.Runtime.SchedulerRuns

namespace PlcGateway

namespace SchedulerEvent

/-- Whether a stop is pending after the event. -/
def pending (before : Bool) : SchedulerEvent → Bool
  | .stop => true
  | .invokeRun => false
  | _ => before

end SchedulerEvent

/-- `stop()` was called, and `run()` was not called after it. -/
def stopPending (events : List SchedulerEvent) : Bool := events.foldl SchedulerEvent.pending false

namespace SchedulerSystem

/-- An event after a stop starts no cycle, and the loop is left at the check. -/
structure ObeysStop (x : SchedulerSystem) (e : SchedulerEvent) (y : SchedulerSystem) : Prop where
  no_cycle : y.scheduler.cycles.length = x.scheduler.cycles.length
  leaves : e.checks x.scheduler = true → y.scheduler.control = .idle

/-- Every event with a pending stop obeys it. -/
def StopsObeyed (x₀ : SchedulerSystem) (events : List SchedulerEvent) : Prop :=
  ∀ pre e post x y, events = pre ++ e :: post → x₀.run pre = some x → x.step e = some y →
    stopPending pre = true → x.ObeysStop e y

/-- No task of `run` begins its loop with a pending stop: if one takes its first step
    then, the scheduler runs already. -/
def NoLateStart (x₀ : SchedulerSystem) (events : List SchedulerEvent) : Prop :=
  ∀ pre r now post x, events = pre ++ .startRun r now :: post → x₀.run pre = some x →
    stopPending pre = true → x.scheduler.running = true

variable {x₀ x y : SchedulerSystem} {e : SchedulerEvent} {events : List SchedulerEvent}

theorem cycles_requestCancel (x : PollScheduler) :
    x.requestCancel.cycles.length = x.cycles.length := List.length_mapIdx

/-- A requested stop stays requested and is obeyed, unless `run` begins. -/
theorem obeysStop_step (h : x.step e = some y)
    (hlate : ∀ r now, e = .startRun r now → x.scheduler.running = true)
    (hstop : x.scheduler.stopRequested = true) :
    y.scheduler.stopRequested = true ∧ x.ObeysStop e y := by
  have hacts := step_acts h
  generalize hy : y.scheduler = s at hacts ⊢
  have hobeys (hlen : s.cycles.length = x.scheduler.cycles.length)
      (hleaves : e.checks x.scheduler = true → s.control = .idle) : x.ObeysStop e y :=
    ⟨hy ▸ hlen, hy ▸ hleaves⟩
  cases hacts with
  | keep hquiet => exact ⟨hstop, hobeys rfl fun hchecks => by rw [hquiet] at hchecks; cases hchecks⟩
  | begin hidle => rw [hlate _ _ rfl] at hidle; cases hidle
  | leave => exact ⟨hstop, hobeys rfl fun _ => rfl⟩
  | round _ hgo => rw [hstop] at hgo; cases hgo
  | sleepFails => exact ⟨hstop, hobeys rfl nofun⟩
  | cancelRun => exact ⟨hstop, hobeys (cycles_requestCancel _) nofun⟩
  | cancelAlone => exact ⟨hstop, hobeys (cycles_requestCancel _) nofun⟩
  | collected => exact ⟨hstop, hobeys rfl fun _ => rfl⟩
  | stop => exact ⟨rfl, hobeys rfl nofun⟩
  | cancelActive => exact ⟨hstop, hobeys (cycles_requestCancel _) nofun⟩
  | handle => exact ⟨hstop, hobeys List.length_set nofun⟩
  | drop => exact ⟨hstop, hobeys List.length_set nofun⟩
  | finish => exact ⟨hstop, hobeys List.length_set nofun⟩

theorem stopPending_concat (pre : List SchedulerEvent) (e : SchedulerEvent) :
    stopPending (pre ++ [e]) = e.pending (stopPending pre) := by
  rw [stopPending, List.foldl_append]
  rfl

/-- While a stop is pending the flag is set, if no task of `run` begins late. -/
theorem stopRequested_of_pending (hlate : NoLateStart x₀ events) {pre : List SchedulerEvent} :
    ∀ {post x}, events = pre ++ post → x₀.run pre = some x → stopPending pre = true →
      x.scheduler.stopRequested = true := by
  induction pre using List.reverseRecOn with
  | nil => intro post x _ _ hpending; cases hpending
  | append_singleton pre e ih =>
    intro post y hevents hrun hpending
    rw [List.append_assoc, List.singleton_append] at hevents
    obtain ⟨x, hx, he⟩ := run_concat hrun
    rw [stopPending_concat] at hpending
    have hkeep (hbefore : stopPending pre = true) : y.scheduler.stopRequested = true := by
      refine (obeysStop_step he ?_ (ih hevents hx hbefore)).1
      rintro r now rfl
      exact hlate pre r now post x hevents hx hbefore
    cases e with
    | stop => cases he; rfl
    | invokeRun => cases hpending
    | _ => exact hkeep hpending

/-- **A stop is obeyed exactly if no task of `run` begins with it pending.** -/
theorem stops_obeyed_iff (h : (x₀.run events).isSome) :
    x₀.StopsObeyed events ↔ x₀.NoLateStart events := by
  constructor
  · intro hobeyed pre r now post x hevents hx hpending
    by_contra hidle
    obtain ⟨x', y, hx', he⟩ := run_split (hevents ▸ h)
    cases hx.symm.trans hx'
    have hchecks : (SchedulerEvent.startRun r now).checks x.scheduler = true := by
      rw [SchedulerEvent.checks, Bool.eq_false_of_not_eq_true hidle]
      rfl
    have hleft := (hobeyed pre _ post x y hevents hx he hpending).leaves hchecks
    -- the flag is cleared before the check, and a round begins
    simp only [step, if_neg hidle, Option.ite_none_right_eq_some] at he
    obtain ⟨-, he⟩ := he
    obtain ⟨hstop, -⟩ | ⟨-, -, rfl⟩ := check_cases he
    · cases hstop
    · cases hleft
  · intro hlate pre e post x y hevents hx he hpending
    refine (obeysStop_step he ?_ (stopRequested_of_pending hlate hevents hx hpending)).2
    rintro r now rfl
    exact hlate pre r now post x hevents hx hpending

/-- A stop in the first sleep. -/
theorem stop_in_sleep_obeyed :
    (ofFastGroup.run [.invokeRun, .startRun 0 0, .stop, .wake 1]).isSome = true ∧
      (ofFastGroup.StopsObeyed [.invokeRun, .startRun 0 0, .stop, .wake 1] ↔
        ofFastGroup.NoLateStart [.invokeRun, .startRun 0 0, .stop, .wake 1]) :=
  have h : (ofFastGroup.run [.invokeRun, .startRun 0 0, .stop, .wake 1]).isSome = true := by
    decide +kernel
  ⟨h, stops_obeyed_iff h⟩

/-- A stop between `run()` and its first step: the run starts a cycle and sleeps. -/
theorem stop_before_first_step_lost :
    init [fastGroupConfig] 0 = .ok ofFastGroup ∧ ∃ x y,
      ofFastGroup.run [.invokeRun, .stop] = some x ∧ x.step (.startRun 0 0) = some y ∧
        stopPending [.invokeRun, .stop] = true ∧ y.scheduler.stopRequested = false ∧
        y.scheduler.cycles.length = 1 ∧ ¬ x.ObeysStop (.startRun 0 0) y := by
  refine ⟨init_fastGroup, _, _, rfl, rfl, rfl, rfl, rfl, ?_⟩
  rintro ⟨hcycles, -⟩
  cases hcycles

end SchedulerSystem

end PlcGateway
