/-
  Cancelled cycles.

  `_run_cycle` clears the active task of its schedule in a `finally`.  A task that is
  cancelled before its first step never comes to it, and its group is skipped for
  ever.
-/
import PlcGateway.Runtime.SchedulerRuns

namespace PlcGateway

namespace PollScheduler

/-- The task is a cycle of the group that is not finished. -/
def Unfinished (x : PollScheduler) (groupId : Stripped) (task : ℕ) : Prop :=
  ∃ c, x.cycles[task]? = some c ∧ c.groupId = groupId ∧ c.status ≠ .finished

/-- No group is stuck: its active task is a cycle that goes on, and without one it
    starts a cycle as soon as a slot has come. -/
structure Schedulable (x : PollScheduler) : Prop where
  active : ∀ s ∈ x.schedules, ∀ task, s.activeTask = some task → x.Unfinished s.group.id task
  starts : ∀ s ∈ x.schedules, (∀ task, s.activeTask = some task → x.done task = true) →
    ∀ now task, s.nextDueAt ≤ now →
      (s.startDueCycle now task).1.startedCycles = s.startedCycles + 1 ∧
        (s.startDueCycle now task).2 = [⟨s.group.id, .created, false⟩]

variable {x y : PollScheduler}

theorem done_iff {task : ℕ} :
    x.done task = true ↔ ∀ c, x.cycles[task]? = some c → c.status = .finished := by
  rw [done, Option.all_eq_true]
  simp only [decide_eq_true_eq]

theorem Unfinished.not_done {groupId : Stripped} {task : ℕ} (h : x.Unfinished groupId task) :
    ¬ x.done task = true := by
  obtain ⟨c, hc, -, hopen⟩ := h
  exact fun hdone => hopen (done_iff.1 hdone c hc)

/-- It is enough that the active tasks go on. -/
theorem schedulable_of_active
    (h : ∀ s ∈ x.schedules, ∀ task, s.activeTask = some task → x.Unfinished s.group.id task) :
    x.Schedulable := by
  refine ⟨h, fun s hs hdone now task hdue => ?_⟩
  have hidle : s.activeTask = none := by
    rw [Option.eq_none_iff_forall_ne_some]
    intro t ht
    exact (h s hs t ht).not_done (hdone t ht)
  rcases s.startDueCycle_cases now task with ⟨hnot, -⟩ | ⟨-, hactive, -⟩ | ⟨-, -, missed, -, he⟩
  · exact absurd hdue (not_le.2 hnot)
  · rw [hidle] at hactive
    cases hactive
  · rw [he]
    exact ⟨rfl, rfl⟩

/-- Whether a group is stuck depends on the schedules and the tasks only. -/
theorem schedulable_control (h : x.Schedulable) {stopRequested running : Bool}
    {control : LoopControl} : Schedulable { x with stopRequested, running, control } :=
  ⟨h.active, h.starts⟩

/-! ## The active tasks of a tick -/

/-- A tick keeps the tasks and appends new ones. -/
theorem cycles_startDueCycles {now : ℚ} {ss : List GroupSchedule} {cycles : List Cycle} {task : ℕ}
    {c : Cycle} (h : cycles[task]? = some c) : (startDueCycles now ss cycles).2[task]? = some c := by
  induction ss generalizing cycles with
  | nil => exact h
  | cons s ss ih =>
    have hlt : task < cycles.length := (List.getElem?_eq_some_iff.1 h).1
    refine ih ?_
    rw [List.getElem?_append_left hlt, h]

theorem active_of_startDueCycles {now : ℚ} {ss : List GroupSchedule} {cycles : List Cycle}
    {s' : GroupSchedule} {task : ℕ} (hs' : s' ∈ (startDueCycles now ss cycles).1)
    (h : s'.activeTask = some task) :
    (∃ s ∈ ss, s.group.id = s'.group.id ∧ s.activeTask = some task) ∨
      (startDueCycles now ss cycles).2[task]? = some ⟨s'.group.id, .created, false⟩ := by
  induction ss generalizing cycles with
  | nil => cases hs'
  | cons s ss ih =>
    simp only [startDueCycles, List.mem_cons] at hs' ⊢
    rcases hs' with rfl | hs'
    · rcases s.startDueCycle_cases now cycles.length with
        ⟨-, he⟩ | ⟨-, -, he⟩ | ⟨-, -, missed, -, he⟩ <;> rw [he] at h ⊢
      · exact .inl ⟨s, .inl rfl, rfl, h⟩
      · exact .inl ⟨s, .inl rfl, rfl, h⟩
      · cases h
        refine .inr (cycles_startDueCycles ?_)
        rw [List.getElem?_append_right le_rfl, Nat.sub_self]
        rfl
    · rcases ih hs' with ⟨s₁, hs₁, hid, ha⟩ | hnew
      · exact .inl ⟨s₁, .inr hs₁, hid, ha⟩
      · exact .inr hnew

/-! ## The steps -/

theorem schedulable_tick (h : x.Schedulable) (now : ℚ) : (x.tick now).Schedulable := by
  refine schedulable_of_active fun s' hs' task ha => ?_
  rcases active_of_startDueCycles hs' ha with ⟨s, hs, hid, ha⟩ | hnew
  · obtain ⟨c, hc, hgroup, hopen⟩ := h.active s hs task ha
    exact ⟨c, cycles_startDueCycles hc, hgroup.trans hid, hopen⟩
  · exact ⟨_, hnew, rfl, nofun⟩

theorem schedulable_requestCancel (h : x.Schedulable) : x.requestCancel.Schedulable := by
  refine schedulable_of_active fun s hs task ha => ?_
  obtain ⟨c, hc, hgroup, hopen⟩ := h.active s hs task ha
  refine ⟨if task ∈ x.schedules.filterMap GroupSchedule.activeTask then
    { c with cancelRequested := true } else c, ?_, ?_, ?_⟩
  · simp only [requestCancel, List.getElem?_mapIdx, hc, Option.map_some]
  · split_ifs <;> exact hgroup
  · split_ifs <;> exact hopen

/-- A task of a schedule goes on. -/
theorem schedulable_set (h : x.Schedulable) {task : ℕ} {c c' : Cycle}
    (hc : x.cycles[task]? = some c) (hid : c'.groupId = c.groupId) (hopen : c'.status ≠ .finished) :
    Schedulable { x with cycles := x.cycles.set task c' } := by
  refine schedulable_of_active fun s hs t ha => ?_
  obtain ⟨d, hd, hgroup, hdopen⟩ := h.active s hs t ha
  by_cases htask : task = t
  · subst htask
    cases hc.symm.trans hd
    exact ⟨c', List.getElem?_set_self (List.getElem?_eq_some_iff.1 hc).1, hid.trans hgroup, hopen⟩
  · exact ⟨d, (List.getElem?_set_ne htask).trans hd, hgroup, hdopen⟩

/-- A cycle finishes, and the schedules of its group become free. -/
theorem schedulable_finish (h : x.Schedulable) {task : ℕ} {c : Cycle}
    (hc : x.cycles[task]? = some c) (c' : Cycle) (r : HandlerEnd) (finishedAt : ℚ) :
    Schedulable { x with
      clock := finishedAt
      schedules := x.updateSchedule c.groupId (GroupSchedule.finishCycle r finishedAt)
      cycles := x.cycles.set task c' } := by
  refine schedulable_of_active fun s' hs' t ha => ?_
  obtain ⟨s, hs, rfl⟩ := List.mem_map.1 hs'
  split_ifs at ha ⊢ with hid
  · cases ha
  · obtain ⟨d, hd, hgroup, hopen⟩ := h.active s hs t ha
    have htask : task ≠ t := by
      rintro rfl
      cases hc.symm.trans hd
      exact hid hgroup.symm
    exact ⟨d, (List.getElem?_set_ne htask).trans hd, hgroup, hopen⟩

/-- A schedule keeps a task that is over: the group is stuck. -/
theorem not_schedulable_drop (h : x.Inv) {task : ℕ} {groupId : Stripped}
    (hc : x.cycles[task]? = some ⟨groupId, .created, true⟩) :
    ¬ Schedulable { x with cycles := x.cycles.set task ⟨groupId, .finished, true⟩ } := by
  intro hsched
  obtain ⟨s, hs, -, ha⟩ := h.owned task _ hc nofun
  obtain ⟨c, hc', -, hopen⟩ := hsched.active s hs task ha
  rw [List.getElem?_set_self (List.getElem?_eq_some_iff.1 hc).1] at hc'
  cases hc'
  exact hopen rfl

theorem active_buildSchedules {startTime : ℚ} {groups : List TagGroupConfig}
    {ss ss' : List GroupSchedule} (h : buildSchedules startTime groups ss = .ok ss')
    (hss : ∀ s ∈ ss, s.activeTask = none) : ∀ s ∈ ss', s.activeTask = none := by
  induction groups generalizing ss with
  | nil => cases h; exact hss
  | cons group groups ih =>
    rw [buildSchedules] at h
    split_ifs at h
    · refine ih h fun s hs => ?_
      rcases List.mem_append.1 hs with hs | hs
      · exact hss s hs
      · rw [List.mem_singleton.1 hs]
    · exact ih h hss

theorem schedulable_init {groups : List TagGroupConfig} {startTime : ℚ}
    (h : init groups startTime = .ok x) : x.Schedulable := by
  rw [init] at h
  cases hb : buildSchedules startTime groups [] with
  | error e => rw [hb] at h; cases h
  | ok ss =>
    rw [hb] at h
    cases h
    refine schedulable_of_active fun s hs task ha => ?_
    rw [active_buildSchedules hb (fun s hs => (by cases hs)) s hs] at ha
    cases ha

end PollScheduler

namespace SchedulerSystem

/-- The tasks of the call of `cancel_active_cycles` that returns at the event. -/
def returning (x : SchedulerSystem) : SchedulerEvent → List ℕ
  | .cancelRunReturns => x.gathered
  | .cancelReturns call => x.cancels[call]?.getD []
  | _ => []

/-- In every state no group is stuck, and when a call of `cancel_active_cycles` returns
    no group is still marked with a task that was active at the call. -/
def CyclesReleased (x₀ : SchedulerSystem) (events : List SchedulerEvent) : Prop :=
  (∀ pre post x, events = pre ++ post → x₀.run pre = some x → x.scheduler.Schedulable) ∧
  ∀ pre e post x y, events = pre ++ e :: post → x₀.run pre = some x → x.step e = some y →
    ∀ task ∈ x.returning e, ∀ s ∈ y.scheduler.schedules, s.activeTask ≠ some task

/-- No task of `_run_cycle` is cancelled before its first step. -/
def NoneDropped (x₀ : SchedulerSystem) (events : List SchedulerEvent) : Prop :=
  ∀ pre task post x groupId, events = pre ++ .startCycle task :: post → x₀.run pre = some x →
    x.scheduler.cycles[task]? ≠ some ⟨groupId, .created, true⟩

variable {x₀ x y : SchedulerSystem} {e : SchedulerEvent} {events : List SchedulerEvent}

theorem schedulable_step (h : x.scheduler.Schedulable) (he : x.step e = some y)
    (hdrop : ∀ task groupId, e = .startCycle task →
      x.scheduler.cycles[task]? ≠ some ⟨groupId, .created, true⟩) :
    y.scheduler.Schedulable := by
  have hacts := step_acts he
  generalize y.scheduler = s at hacts ⊢
  cases hacts with
  | keep => exact h
  | begin => exact PollScheduler.schedulable_tick (PollScheduler.schedulable_control h) _
  | leave => exact PollScheduler.schedulable_control h
  | round => exact PollScheduler.schedulable_tick h _
  | sleepFails => exact PollScheduler.schedulable_control h
  | cancelRun =>
    exact PollScheduler.schedulable_control (PollScheduler.schedulable_requestCancel h)
  | cancelAlone =>
    exact PollScheduler.schedulable_control (PollScheduler.schedulable_requestCancel h)
  | collected => exact PollScheduler.schedulable_control h
  | stop => exact PollScheduler.schedulable_control h
  | cancelActive => exact PollScheduler.schedulable_requestCancel h
  | handle hc => exact PollScheduler.schedulable_set h hc rfl nofun
  | drop hc => exact absurd hc (hdrop _ _ rfl)
  | finish hc => exact PollScheduler.schedulable_finish h hc _ _ _

/-- A call of `cancel_active_cycles` returns when its tasks are over. -/
theorem returning_done (he : x.step e = some y) {task : ℕ} (htask : task ∈ x.returning e) :
    x.scheduler.done task = true ∧ y.scheduler.schedules = x.scheduler.schedules := by
  cases e with
  | cancelRunReturns =>
    simp only [step, Option.ite_none_right_eq_some, List.all_eq_true] at he
    obtain ⟨⟨-, hdone⟩, he⟩ := he
    cases he
    exact ⟨hdone task htask, rfl⟩
  | cancelReturns call =>
    simp only [step] at he
    split at he
    next tasks htasks =>
      rw [Option.ite_none_right_eq_some, List.all_eq_true] at he
      obtain ⟨hdone, he⟩ := he
      cases he
      rw [returning, htasks] at htask
      exact ⟨hdone task htask, rfl⟩
    next => cases he
  | _ => cases htask

theorem schedulable_run (h₀ : x₀.scheduler.Schedulable) (hdrop : NoneDropped x₀ events)
    {pre : List SchedulerEvent} : ∀ {post x}, events = pre ++ post → x₀.run pre = some x →
      x.scheduler.Schedulable := by
  induction pre using List.reverseRecOn with
  | nil =>
    intro post x _ hrun
    cases hrun
    exact h₀
  | append_singleton pre e ih =>
    intro post y hevents hrun
    rw [List.append_assoc, List.singleton_append] at hevents
    obtain ⟨x, hx, he⟩ := run_concat hrun
    refine schedulable_step (ih hevents hx) he ?_
    rintro task groupId rfl
    exact hdrop pre task post x groupId hevents hx

/-- **Cancelled cycles leave every group schedulable exactly if no task is cancelled
    before its first step.** -/
theorem cycles_released_iff {groups : List TagGroupConfig} {startTime : ℚ}
    (h₀ : init groups startTime = .ok x₀) (h : (x₀.run events).isSome) :
    x₀.CyclesReleased events ↔ x₀.NoneDropped events := by
  constructor
  · rintro ⟨hsched, -⟩ pre task post x groupId hevents hx hc
    obtain ⟨x', y, hx', he⟩ := run_split (hevents ▸ h)
    cases hx.symm.trans hx'
    have hy : x₀.run (pre ++ [.startCycle task]) = some y := by
      rw [run_append, hx, Option.bind_some, run_cons, he]
      rfl
    have hafter := hsched (pre ++ [.startCycle task]) post y (by rw [hevents, List.append_assoc]; rfl) hy
    simp only [step, hc] at he
    cases he
    exact PollScheduler.not_schedulable_drop (inv_of_run h₀ hx) hc hafter
  · intro hdrop
    have hsched := @schedulable_run x₀ events (PollScheduler.schedulable_init (init_scheduler h₀)) hdrop
    refine ⟨fun pre post x hevents hx => hsched hevents hx, fun pre e post x y hevents hx he task htask s hs ha => ?_⟩
    obtain ⟨hdone, hsame⟩ := returning_done he htask
    rw [hsame] at hs
    exact ((hsched hevents hx).active s hs task ha).not_done hdone

/-- A handler that is cancelled while it runs. -/
theorem handler_cancelled_released :
    let events : List SchedulerEvent := [.invokeRun, .startRun 0 0, .startCycle 0, .cancelActive,
      .finishCycle 0 .cancelled 0, .cancelReturns 0]
    init [fastGroupConfig] 0 = .ok ofFastGroup ∧ (ofFastGroup.run events).isSome = true ∧
      (ofFastGroup.CyclesReleased events ↔ ofFastGroup.NoneDropped events) := by
  intro events
  have h : (ofFastGroup.run events).isSome = true := by decide +kernel
  exact ⟨init_fastGroup, h, cycles_released_iff init_fastGroup h⟩

/-- A task that is cancelled before its first step: the call returns, the group is still
    marked, and the next run misses its slot. -/
theorem dropped_cycle_blocks_group :
    let events : List SchedulerEvent := [.invokeRun, .startRun 0 0, .cancelActive, .startCycle 0,
      .cancelReturns 0]
    init [fastGroupConfig] 0 = .ok ofFastGroup ∧ ¬ ofFastGroup.CyclesReleased events ∧
      ∃ x y, ofFastGroup.run events = some x ∧
        x.scheduler.schedules.map GroupSchedule.activeTask = [some 0] ∧
        x.scheduler.done 0 = true ∧
        x.run [.stop, .wake 0, .invokeRun, .startRun 1 1] = some y ∧
        y.scheduler.schedules.map GroupSchedule.startedCycles = [1] ∧
        y.scheduler.schedules.map GroupSchedule.missedCycles = [1] := by
  intro events
  refine ⟨init_fastGroup, ?_, ?_⟩
  · rintro ⟨-, hreturn⟩
    refine hreturn [.invokeRun, .startRun 0 0, .cancelActive, .startCycle 0] (.cancelReturns 0) []
      _ _ rfl rfl rfl 0 (List.mem_singleton.2 rfl) _ (List.mem_singleton.2 rfl) rfl
  · refine ⟨_, _, rfl, rfl, rfl, rfl, ?_, ?_⟩
    · decide +kernel
    · decide +kernel

end SchedulerSystem

end PlcGateway
