/-
  The accounting of the scheduler.

  Every slot of a group, `startTime + k * interval`, that has come is counted once,
  as started or as missed.  Every task that is not finished is the active task of
  its schedule, so that a group has at most one.
-/
import PlcGateway.Runtime.Scheduler
import Mathlib.Data.List.Nodup

namespace PlcGateway

open Relation

/-! ## Counting slots -/

section
variable {now due interval : ℚ}

theorem lt_add_dueCount (hi : 0 < interval) (hd : due ≤ now) :
    now < due + dueCount now due interval * interval := by
  have hq : 0 ≤ (now - due) / interval := div_nonneg (sub_nonneg.2 hd) hi.le
  have hfloor : ((⌊(now - due) / interval⌋.toNat : ℕ) : ℚ) = (⌊(now - due) / interval⌋ : ℤ) := by
    exact_mod_cast Int.toNat_of_nonneg (Int.floor_nonneg.2 hq)
  have hlt := Int.lt_floor_add_one ((now - due) / interval)
  rw [div_lt_iff₀ hi] at hlt
  simp only [dueCount, if_neg (not_lt.2 hd), Nat.cast_add, Nat.cast_one, hfloor]
  linarith

theorem add_dueCount_le (hi : 0 < interval) (hd : due ≤ now) :
    due + dueCount now due interval * interval ≤ now + interval := by
  have hq : 0 ≤ (now - due) / interval := div_nonneg (sub_nonneg.2 hd) hi.le
  have hfloor : ((⌊(now - due) / interval⌋.toNat : ℕ) : ℚ) = (⌊(now - due) / interval⌋ : ℤ) := by
    exact_mod_cast Int.toNat_of_nonneg (Int.floor_nonneg.2 hq)
  have hle := Int.floor_le ((now - due) / interval)
  rw [le_div_iff₀ hi] at hle
  simp only [dueCount, if_neg (not_lt.2 hd), Nat.cast_add, Nat.cast_one, hfloor]
  linarith

theorem one_le_dueCount (interval : ℚ) (hd : due ≤ now) : 1 ≤ dueCount now due interval := by
  simp only [dueCount, if_neg (not_lt.2 hd)]
  omega

end

theorem TagGroupConfig.intervalS_pos (g : TagGroupConfig) : 0 < g.intervalS :=
  div_pos (Nat.cast_pos.2 g.interval_pos) (by norm_num)

/-- The books of a schedule at a reading of the clock. -/
structure GroupSchedule.Accounted (startTime clock : ℚ) (s : GroupSchedule) : Prop where
  slot : s.nextDueAt = startTime + (s.startedCycles + s.missedCycles : ℕ) * s.group.intervalS
  within : s.nextDueAt ≤ clock + s.group.intervalS
  failed : s.failedCycles ≤ s.startedCycles
  active : s.activeTask.isSome → s.failedCycles < s.startedCycles

section
variable {startTime clock now : ℚ} {s : GroupSchedule}

theorem GroupSchedule.Accounted.later (h : s.Accounted startTime clock) (hle : clock ≤ now) :
    s.Accounted startTime now :=
  ⟨h.slot, h.within.trans (by linarith), h.failed, h.active⟩

/-- What a tick does to a schedule. -/
theorem GroupSchedule.startDueCycle_cases (now : ℚ) (task : ℕ) (s : GroupSchedule) :
    (now < s.nextDueAt ∧ s.startDueCycle now task = (s, [])) ∨
    (s.nextDueAt ≤ now ∧ s.activeTask.isSome ∧ s.startDueCycle now task =
      ({ s with
        nextDueAt := s.nextDueAt + dueCount now s.nextDueAt s.group.intervalS * s.group.intervalS
        missedCycles := s.missedCycles + dueCount now s.nextDueAt s.group.intervalS }, [])) ∨
    (s.nextDueAt ≤ now ∧ s.activeTask = none ∧ ∃ missed,
      s.startedCycles + 1 + missed =
        s.startedCycles + s.missedCycles + dueCount now s.nextDueAt s.group.intervalS ∧
      s.startDueCycle now task =
        ({ s with
          nextDueAt := s.nextDueAt + dueCount now s.nextDueAt s.group.intervalS * s.group.intervalS
          startedCycles := s.startedCycles + 1
          lastStartedAt := some now
          lastError := none
          missedCycles := missed
          activeTask := some task }, [⟨s.group.id, .created, false⟩])) := by
  simp only [startDueCycle]
  split_ifs with hnot hactive hdue
  · exact .inl ⟨hnot, rfl⟩
  · exact .inr (.inl ⟨not_lt.1 hnot, hactive, rfl⟩)
  · refine .inr (.inr ⟨not_lt.1 hnot, Option.not_isSome_iff_eq_none.1 hactive, _, ?_, rfl⟩)
    omega
  · have hone := one_le_dueCount s.group.intervalS (not_lt.1 hnot)
    refine .inr (.inr ⟨not_lt.1 hnot, Option.not_isSome_iff_eq_none.1 hactive, _, ?_, rfl⟩)
    omega

theorem GroupSchedule.startDueCycle_group (task : ℕ) :
    (s.startDueCycle now task).1.group = s.group := by
  rcases s.startDueCycle_cases now task with ⟨-, h⟩ | ⟨-, -, h⟩ | ⟨-, -, missed, -, h⟩ <;> rw [h]

/-- A tick accounts for the slots that have come. -/
theorem GroupSchedule.Accounted.startDueCycle (h : s.Accounted startTime clock) (hle : clock ≤ now)
    (task : ℕ) :
    (s.startDueCycle now task).1.Accounted startTime now ∧
      now < (s.startDueCycle now task).1.nextDueAt := by
  have hi := s.group.intervalS_pos
  rcases s.startDueCycle_cases now task with
    ⟨hnot, he⟩ | ⟨hd, hactive, he⟩ | ⟨hd, hidle, missed, hcount, he⟩ <;> rw [he]
  · exact ⟨h.later hle, hnot⟩
  · refine ⟨⟨?_, add_dueCount_le hi hd, h.failed, h.active⟩, lt_add_dueCount hi hd⟩
    simp only [← add_assoc]
    rw [Nat.cast_add, add_mul, ← add_assoc, ← h.slot]
  · refine ⟨⟨?_, add_dueCount_le hi hd, h.failed.trans (Nat.le_succ _), fun _ =>
      Nat.lt_succ_of_le h.failed⟩, lt_add_dueCount hi hd⟩
    simp only [hcount]
    rw [Nat.cast_add, add_mul, ← add_assoc, ← h.slot]

theorem GroupSchedule.Accounted.finishCycle (h : s.Accounted startTime clock) (hle : clock ≤ now)
    (hactive : s.activeTask.isSome) (r : HandlerEnd) :
    (s.finishCycle r now).Accounted startTime now := by
  have hlt := h.active hactive
  cases r with
  | failed e => exact ⟨h.slot, (h.later hle).within, hlt, fun hs => (by cases hs)⟩
  | returned => exact ⟨h.slot, (h.later hle).within, h.failed, fun hs => (by cases hs)⟩
  | cancelled => exact ⟨h.slot, (h.later hle).within, h.failed, fun hs => (by cases hs)⟩

end

/-! ## The tasks of a tick -/

section
variable {now : ℚ}

theorem GroupSchedule.startDueCycle_active {s : GroupSchedule} {t : ℕ} (task : ℕ)
    (h : s.activeTask = some t) : (s.startDueCycle now task).1.activeTask = some t := by
  rcases s.startDueCycle_cases now task with ⟨-, he⟩ | ⟨-, -, he⟩ | ⟨-, hidle, missed, -, he⟩ <;> rw [he]
  · exact h
  · exact h
  · rw [h] at hidle
    cases hidle

/-- A new task is the active task of its schedule. -/
theorem GroupSchedule.startDueCycle_created (s : GroupSchedule) (now : ℚ) (task : ℕ) :
    (s.startDueCycle now task).2 = [] ∨
      (s.startDueCycle now task).2 = [⟨s.group.id, .created, false⟩] ∧
        (s.startDueCycle now task).1.activeTask = some task := by
  rcases s.startDueCycle_cases now task with ⟨-, he⟩ | ⟨-, -, he⟩ | ⟨-, -, missed, -, he⟩ <;> rw [he]
  · exact .inl rfl
  · exact .inl rfl
  · exact .inr ⟨rfl, rfl⟩

theorem startDueCycles_groups (now : ℚ) (ss : List GroupSchedule) (cycles : List Cycle) :
    (startDueCycles now ss cycles).1.map GroupSchedule.group = ss.map GroupSchedule.group := by
  induction ss generalizing cycles with
  | nil => rfl
  | cons s ss ih => simp only [startDueCycles, List.map_cons, ih, GroupSchedule.startDueCycle_group]

theorem of_mem_startDueCycles {ss : List GroupSchedule} {cycles : List Cycle} {s' : GroupSchedule}
    (h : s' ∈ (startDueCycles now ss cycles).1) :
    ∃ s ∈ ss, ∃ task, s' = (s.startDueCycle now task).1 := by
  induction ss generalizing cycles with
  | nil => cases h
  | cons s ss ih =>
    simp only [startDueCycles, List.mem_cons] at h
    rcases h with rfl | h
    · exact ⟨s, List.mem_cons_self, _, rfl⟩
    · obtain ⟨s₁, hs₁, task, rfl⟩ := ih h
      exact ⟨s₁, List.mem_cons_of_mem _ hs₁, task, rfl⟩

theorem active_startDueCycles {ss : List GroupSchedule} {cycles : List Cycle} {s : GroupSchedule}
    {t : ℕ} (hs : s ∈ ss) (h : s.activeTask = some t) :
    ∃ s' ∈ (startDueCycles now ss cycles).1, s'.group = s.group ∧ s'.activeTask = some t := by
  induction ss generalizing cycles with
  | nil => cases hs
  | cons s₁ ss ih =>
    simp only [startDueCycles]
    rcases List.mem_cons.1 hs with rfl | hs
    · exact ⟨_, List.mem_cons_self, GroupSchedule.startDueCycle_group _,
        GroupSchedule.startDueCycle_active _ h⟩
    · obtain ⟨s', hs', hg, ha⟩ := ih hs
      exact ⟨s', List.mem_cons_of_mem _ hs', hg, ha⟩

/-- The tasks after a tick are the ones before, and the active tasks of their schedules. -/
theorem task_startDueCycles {ss : List GroupSchedule} {cycles : List Cycle} {task : ℕ} {c : Cycle}
    (h : (startDueCycles now ss cycles).2[task]? = some c) :
    cycles[task]? = some c ∨ ∃ s' ∈ (startDueCycles now ss cycles).1,
      s'.group.id = c.groupId ∧ s'.activeTask = some task := by
  induction ss generalizing cycles with
  | nil => exact .inl h
  | cons s ss ih =>
    simp only [startDueCycles] at h ⊢
    rcases ih h with hold | ⟨s', hs', hid, ha⟩
    · rcases s.startDueCycle_created now cycles.length with hnew | ⟨hnew, hactive⟩
      · rw [hnew, List.append_nil] at hold
        exact .inl hold
      · rw [hnew] at hold
        by_cases hlt : task < cycles.length
        · rw [List.getElem?_append_left hlt] at hold
          exact .inl hold
        · rw [List.getElem?_append_right (not_lt.1 hlt), List.getElem?_singleton] at hold
          split_ifs at hold with hzero
          have htask : task = cycles.length := by omega
          cases hold
          refine .inr ⟨_, List.mem_cons_self, ?_, htask ▸ hactive⟩
          rw [GroupSchedule.startDueCycle_group]
    · exact .inr ⟨s', List.mem_cons_of_mem _ hs', hid, ha⟩

end

/-! ## The earliest due slot -/

theorem earliestDue_le {ss : List GroupSchedule} {due : ℚ} (h : earliestDue ss = some due) :
    (∃ s ∈ ss, due = s.nextDueAt) ∧ ∀ s ∈ ss, due ≤ s.nextDueAt := by
  induction ss generalizing due with
  | nil => cases h
  | cons s ss ih =>
    rw [earliestDue] at h
    cases hrest : earliestDue ss with
    | none =>
      rw [hrest] at h
      cases h
      refine ⟨⟨s, List.mem_cons_self, rfl⟩, fun s' hs' => ?_⟩
      rcases List.mem_cons.1 hs' with rfl | hs'
      · exact le_rfl
      · cases ss with
        | nil => cases hs'
        | cons s₁ ss =>
          rw [earliestDue] at hrest
          split at hrest <;> cases hrest
    | some d =>
      rw [hrest] at h
      cases h
      obtain ⟨⟨s₁, hs₁, hd⟩, hle⟩ := ih hrest
      refine ⟨?_, fun s' hs' => ?_⟩
      · rcases min_choice s.nextDueAt d with hmin | hmin
        · exact ⟨s, List.mem_cons_self, hmin⟩
        · exact ⟨s₁, List.mem_cons_of_mem _ hs₁, hmin.trans hd⟩
      · rcases List.mem_cons.1 hs' with rfl | hs'
        · exact min_le_left _ _
        · exact (min_le_right _ _).trans (hle s' hs')

/-- The delay is positive, and ends at the earliest due slot at the latest. -/
theorem secondsUntilNextDue_spec {now : ℚ} {ss : List GroupSchedule}
    (h : ∀ s ∈ ss, now < s.nextDueAt) :
    0 < secondsUntilNextDue now ss ∧ ∀ s ∈ ss, now + secondsUntilNextDue now ss ≤ s.nextDueAt := by
  unfold secondsUntilNextDue
  cases hd : earliestDue ss with
  | none =>
    refine ⟨by norm_num, fun s hs => ?_⟩
    cases ss with
    | nil => cases hs
    | cons s₁ ss =>
      rw [earliestDue] at hd
      split at hd <;> cases hd
  | some due =>
    obtain ⟨⟨s, hs, rfl⟩, hle⟩ := earliestDue_le hd
    have hpos : 0 < s.nextDueAt - now := sub_pos.2 (h s hs)
    simp only [max_eq_right hpos.le]
    refine ⟨hpos, fun s' hs' => ?_⟩
    rw [add_sub_cancel]
    exact hle s' hs'

/-! ## The invariant -/

namespace PollScheduler

/-- The task is the active task of its schedule. -/
def Owns (schedules : List GroupSchedule) (task : ℕ) (c : Cycle) : Prop :=
  ∃ s ∈ schedules, s.group.id = c.groupId ∧ s.activeTask = some task

structure Inv (x : PollScheduler) : Prop where
  accounted : ∀ s ∈ x.schedules, s.Accounted x.startTime x.clock
  ids : (x.schedules.map fun s => s.group.id).Nodup
  owned : ∀ task c, x.cycles[task]? = some c → c.status ≠ .finished → Owns x.schedules task c

variable {x y : PollScheduler}

theorem inv_tick (h : x.Inv) {now : ℚ} (hle : x.clock ≤ now) :
    (x.tick now).Inv ∧ ∀ s ∈ (x.tick now).schedules, now < s.nextDueAt := by
  have hstep : ∀ s' ∈ (x.tick now).schedules, s'.Accounted x.startTime now ∧ now < s'.nextDueAt := by
    intro s' hs'
    obtain ⟨s, hs, task, rfl⟩ := of_mem_startDueCycles hs'
    exact (h.accounted s hs).startDueCycle hle task
  refine ⟨⟨fun s' hs' => (hstep s' hs').1, ?_, fun task c hc hopen => ?_⟩, fun s' hs' => (hstep s' hs').2⟩
  · have hids := congrArg (List.map TagGroupConfig.id) (startDueCycles_groups now x.schedules x.cycles)
    simp only [List.map_map] at hids
    exact hids ▸ h.ids
  · rcases task_startDueCycles hc with hold | hnew
    · obtain ⟨s, hs, hid, ha⟩ := h.owned task c hold hopen
      obtain ⟨s', hs', hg, ha'⟩ := active_startDueCycles hs ha
      exact ⟨s', hs', by rw [hg, hid], ha'⟩
    · exact hnew

/-- The invariant reads the schedules, the tasks and the clock only. -/
theorem inv_control (h : x.Inv) {stopRequested running : Bool} {control : LoopControl} :
    Inv { x with stopRequested, running, control } := ⟨h.accounted, h.ids, h.owned⟩

theorem inv_requestCancel (h : x.Inv) : x.requestCancel.Inv := by
  refine ⟨h.accounted, h.ids, fun task c hc hopen => ?_⟩
  simp only [requestCancel, List.getElem?_mapIdx, Option.map_eq_some_iff] at hc
  obtain ⟨c₀, hc₀, rfl⟩ := hc
  have hsame : ∀ c₁ : Cycle, c₁ = (if task ∈ x.schedules.filterMap GroupSchedule.activeTask then
      { c₀ with cancelRequested := true } else c₀) → c₁.groupId = c₀.groupId ∧ c₁.status = c₀.status := by
    rintro c₁ rfl
    split_ifs <;> exact ⟨rfl, rfl⟩
  obtain ⟨hid, hst⟩ := hsame _ rfl
  rw [hst] at hopen
  obtain ⟨s, hs, hs', ha⟩ := h.owned task c₀ hc₀ hopen
  exact ⟨s, hs, by rw [hid]; exact hs', ha⟩

/-- A task goes on, and stays the active task of its schedule. -/
theorem inv_set (h : x.Inv) {task : ℕ} {c c' : Cycle} (hc : x.cycles[task]? = some c)
    (hid : c'.groupId = c.groupId) (hopen : c'.status ≠ .finished → c.status ≠ .finished) :
    Inv { x with cycles := x.cycles.set task c' } := by
  refine ⟨h.accounted, h.ids, fun t d hd hdopen => ?_⟩
  simp only [List.getElem?_set] at hd
  split_ifs at hd with htask hlt
  · subst htask
    cases hd
    obtain ⟨s, hs, hs', ha⟩ := h.owned task c hc (hopen hdopen)
    exact ⟨s, hs, hs'.trans hid.symm, ha⟩
  · exact h.owned t d hd hdopen

/-- The ids tell the schedules apart. -/
theorem Inv.schedule_eq (h : x.Inv) {s s' : GroupSchedule} (hs : s ∈ x.schedules)
    (hs' : s' ∈ x.schedules) (hid : s.group.id = s'.group.id) : s = s' :=
  List.inj_on_of_nodup_map h.ids hs hs' hid

theorem finishCycle_group (r : HandlerEnd) (t : ℚ) (s : GroupSchedule) :
    (s.finishCycle r t).group = s.group := by
  cases r <;> rfl

theorem inv_finish (h : x.Inv) {task : ℕ} {c : Cycle} (hc : x.cycles[task]? = some c)
    (hopen : c.status ≠ .finished) {finishedAt : ℚ} (hle : x.clock ≤ finishedAt) (r : HandlerEnd)
    (cancelRequested : Bool) :
    Inv { x with
      clock := finishedAt
      schedules := x.updateSchedule c.groupId (GroupSchedule.finishCycle r finishedAt)
      cycles := x.cycles.set task ⟨c.groupId, .finished, cancelRequested⟩ } := by
  obtain ⟨s₀, hs₀, hid₀, ha₀⟩ := h.owned task c hc hopen
  refine ⟨fun s' hs' => ?_, ?_, fun t d hd hdopen => ?_⟩
  · obtain ⟨s, hs, rfl⟩ := List.mem_map.1 hs'
    split_ifs with hid
    · have hsame := h.schedule_eq hs hs₀ (hid.trans hid₀.symm)
      subst hsame
      exact (h.accounted s hs).finishCycle hle (by rw [ha₀]; rfl) r
    · exact (h.accounted s hs).later hle
  · have hids : (x.updateSchedule c.groupId (GroupSchedule.finishCycle r finishedAt)).map
        (fun s => s.group.id) = x.schedules.map fun s => s.group.id := by
      rw [updateSchedule, List.map_map]
      refine List.map_congr_left fun s hs => ?_
      simp only [Function.comp_apply]
      split_ifs
      · rw [finishCycle_group]
      · rfl
    simp only [hids]
    exact h.ids
  · simp only [List.getElem?_set] at hd
    split_ifs at hd with htask hlt
    · cases hd
      exact absurd rfl hdopen
    · obtain ⟨s, hs, hid, ha⟩ := h.owned t d hd hdopen
      refine ⟨s, List.mem_map.2 ⟨s, hs, if_neg fun hg => htask ?_⟩, hid, ha⟩
      have hsame := h.schedule_eq hs hs₀ (hg.trans hid₀.symm)
      rw [hsame, ha₀] at ha
      exact Option.some.inj ha

/-- **Every step keeps the books.** -/
theorem inv_step (hs : SchedulerStep x y) (h : x.Inv) : y.Inv := by
  cases hs with
  | run => exact inv_control h
  | stop => exact inv_control h
  | leave => exact inv_control h
  | tick _ _ hle => exact (inv_tick h hle).1
  | wake => exact inv_control h
  | sleepFails => exact inv_control h
  | cancelRun => exact inv_control (inv_requestCancel h)
  | cancelled => exact inv_control h
  | cancelActive => exact inv_requestCancel h
  | handle hc => exact inv_set h hc rfl fun _ => nofun
  | drop hc => exact inv_set h hc rfl fun hf => absurd rfl hf
  | finish hc hle => exact inv_finish h hc nofun hle _ _

theorem buildSchedules_spec {startTime : ℚ} {groups : List TagGroupConfig}
    {ss ss' : List GroupSchedule} (h : buildSchedules startTime groups ss = .ok ss')
    (hss : ∀ s ∈ ss, s.Accounted startTime startTime) (hids : (ss.map fun s => s.group.id).Nodup) :
    (∀ s ∈ ss', s.Accounted startTime startTime) ∧ (ss'.map fun s => s.group.id).Nodup := by
  induction groups generalizing ss with
  | nil => cases h; exact ⟨hss, hids⟩
  | cons group groups ih =>
    rw [buildSchedules] at h
    split_ifs at h with henabled hpolicy hdup
    · refine ih h (fun s hs => ?_) ?_
      · rcases List.mem_append.1 hs with hs | hs
        · exact hss s hs
        · rw [List.mem_singleton.1 hs]
          have hi := group.intervalS_pos
          refine ⟨by simp, by simp only; linarith, le_rfl, fun ha => (by cases ha)⟩
      · rw [List.map_append, List.nodup_append]
        refine ⟨hids, List.nodup_singleton _, ?_⟩
        rintro _ ha _ hb rfl
        rw [List.map_singleton, List.mem_singleton] at hb
        exact hdup (hb ▸ ha)
    · exact ih h hss hids

theorem inv_init {groups : List TagGroupConfig} {startTime : ℚ} (h : init groups startTime = .ok x) :
    x.Inv ∧ x.startTime = startTime := by
  unfold init at h
  cases hb : buildSchedules startTime groups [] with
  | error e => rw [hb] at h; cases h
  | ok ss =>
    rw [hb] at h
    cases h
    obtain ⟨hacc, hids⟩ := buildSchedules_spec hb (fun s hs => (by cases hs)) List.nodup_nil
    exact ⟨⟨hacc, hids, fun task c hc => (by cases hc)⟩, rfl⟩

theorem step_startTime (hs : SchedulerStep x y) : y.startTime = x.startTime := by cases hs <;> rfl

theorem inv_run {groups : List TagGroupConfig} {startTime : ℚ} {x₀ : PollScheduler}
    (h₀ : init groups startTime = .ok x₀) (hx : ReflTransGen SchedulerStep x₀ x) :
    x.Inv ∧ x.startTime = startTime := by
  induction hx with
  | refl => exact inv_init h₀
  | tail _ hs ih => exact ⟨inv_step hs ih.1, (step_startTime hs).trans ih.2⟩

end PollScheduler

/-! ## The accounting of a run -/

/-- The slots of a schedule up to `now` are counted, and the next one is due after it. -/
structure GroupSchedule.OnTime (startTime now : ℚ) (s : GroupSchedule) : Prop where
  due : now < s.nextDueAt
  within : s.nextDueAt ≤ now + s.group.intervalS
  slot : ∃ k : ℕ, s.nextDueAt = startTime + k * s.group.intervalS ∧
    s.startedCycles + s.missedCycles = k

/-- **The scheduler counts every slot once, and never overlaps the cycles of a
    group.**  After every tick each group is on time and the loop sleeps until the
    earliest due slot; at any time a group has at most one handler in progress, and
    no more failed cycles than started ones. -/
theorem scheduler_counts_every_slot {groups : List TagGroupConfig} {startTime : ℚ}
    {x₀ x : PollScheduler} (h₀ : PollScheduler.init groups startTime = .ok x₀)
    (hx : ReflTransGen SchedulerStep x₀ x) :
    (∀ now, x.control = .checking → x.stopRequested = false → x.clock ≤ now →
      (∀ s ∈ (x.tick now).schedules, s.OnTime startTime now) ∧
        let delay := secondsUntilNextDue now (x.tick now).schedules
        (x.tick now).control = .sleeping delay ∧ 0 < delay ∧
          ∀ s ∈ (x.tick now).schedules, now + delay ≤ s.nextDueAt) ∧
    (∀ (task task' : ℕ) (c c' : Cycle), x.cycles[task]? = some c → x.cycles[task']? = some c' →
      c.status = .handling → c'.status = .handling → c.groupId = c'.groupId → task = task') ∧
    ∀ s ∈ x.schedules, s.failedCycles ≤ s.startedCycles := by
  obtain ⟨hinv, hstart⟩ := PollScheduler.inv_run h₀ hx
  refine ⟨fun now _ _ hle => ?_, fun task task' c c' hc hc' hst hst' hid => ?_, fun s hs =>
    (hinv.accounted s hs).failed⟩
  · obtain ⟨hinv', hdue⟩ := PollScheduler.inv_tick hinv hle
    refine ⟨fun s hs => ?_, rfl, secondsUntilNextDue_spec hdue⟩
    have hacc := hinv'.accounted s hs
    exact ⟨hdue s hs, hacc.within, _, hstart ▸ hacc.slot, rfl⟩
  · obtain ⟨s, hs, hg, ha⟩ := hinv.owned task c hc (by rw [hst]; exact nofun)
    obtain ⟨s', hs', hg', ha'⟩ := hinv.owned task' c' hc' (by rw [hst']; exact nofun)
    have hsame := hinv.schedule_eq hs hs' (hg.trans (hid.trans hg'.symm))
    rw [hsame, ha'] at ha
    exact (Option.some.inj ha).symm

/-- A first tick that comes two and a half intervals late. -/
theorem scheduler_counts_every_slot_late : ∃ x₀,
    PollScheduler.init [fastGroupConfig] 0 = .ok x₀ ∧
      ∀ s ∈ (({ x₀ with running := true, stopRequested := false, control := .checking } :
        PollScheduler).tick (5 / 2)).schedules, s.OnTime 0 (5 / 2) := by
  have h₀ : PollScheduler.init [fastGroupConfig] 0 = .ok ⟨0, 0, false, false, .idle,
      [{ group := fastGroupConfig, nextDueAt := 0 }], []⟩ := rfl
  refine ⟨_, h₀, ?_⟩
  exact ((scheduler_counts_every_slot h₀ (.single (.run rfl))).1 (5 / 2) rfl rfl (by norm_num)).1

end PlcGateway
