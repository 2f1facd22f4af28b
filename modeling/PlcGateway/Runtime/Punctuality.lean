/-
  The scheduler whose sleeps end in time.

  A sleep may end late, but by less than `ε`, and `ε` is at most the interval of every group.
  `punctual_run_visits_every_slot` says that then every tick at which a group is due visits
  just one slot of it, less than `ε` late: no slot is passed over, and the missed cycles of a
  group are those that came while its cycle before was still active.
-/
import PlcGateway.Runtime.SchedulerRuns

namespace PlcGateway

open Relation

/-! ## Visits -/

/-- A tick at which a group is due: it starts a cycle, or finds the last one active. -/
structure Visit where
  time : ℚ
  started : Bool

/-- A tick, with the schedules before it. -/
structure Round where
  now : ℚ
  before : List GroupSchedule

def GroupSchedule.visit (now : ℚ) (s : GroupSchedule) : Option Visit :=
  if now < s.nextDueAt then none else some ⟨now, s.activeTask.isNone⟩

def Round.visit (groupId : Stripped) (r : Round) : Option Visit :=
  (r.before.find? fun s => s.group.id = groupId).bind (GroupSchedule.visit r.now)

/-- The visits of a group. -/
def visits (groupId : Stripped) (rounds : List Round) : List Visit :=
  rounds.filterMap (Round.visit groupId)

/-- The tick that an event makes. -/
def SchedulerEvent.tickAt (x : PollScheduler) : SchedulerEvent → Option ℚ
  | .startRun _ now => if x.running then none else some now
  | .wake now => if x.stopRequested then none else some now
  | _ => none

/-- A run, with its ticks and the end of the sleep that the last one asked for. -/
structure TimedRun where
  rounds : List Round
  deadline : ℚ
  system : SchedulerSystem

namespace TimedRun

/-- The first tick is due when the scheduler is built. -/
def init (x₀ : SchedulerSystem) : TimedRun := ⟨[], x₀.scheduler.startTime, x₀⟩

/-- An event, if it can happen and its tick is less than `ε` late. -/
def step (ε : ℚ) (p : TimedRun) (e : SchedulerEvent) : Option TimedRun :=
  match p.system.step e, e.tickAt p.system.scheduler with
  | none, _ => none
  | some y, none => some { p with system := y }
  | some y, some now =>
    if now < p.deadline + ε then
      some ⟨p.rounds ++ [⟨now, p.system.scheduler.schedules⟩],
        now + secondsUntilNextDue now y.scheduler.schedules, y⟩
    else none

def run (ε : ℚ) (p : TimedRun) (events : List SchedulerEvent) : Option TimedRun :=
  events.foldlM (step ε) p

end TimedRun

/-- The visits are those of the slots up to the next due time, each less than `ε` late. -/
structure GroupSchedule.Visited (startTime ε : ℚ) (vs : List Visit) (s : GroupSchedule) : Prop where
  due : s.nextDueAt = startTime + vs.length * s.group.intervalS
  started : s.startedCycles = vs.countP Visit.started
  missed : s.missedCycles = vs.countP fun v => !v.started
  punctual : ∀ (k : ℕ) (v : Visit), vs[k]? = some v → startTime + k * s.group.intervalS ≤ v.time ∧
    v.time < startTime + k * s.group.intervalS + ε

/-! ## One tick -/

section
variable {startTime ε now : ℚ} {vs : List Visit} {s : GroupSchedule}

theorem dueCount_eq_one {due interval : ℚ} (hi : 0 < interval) (hd : due ≤ now)
    (hlt : now < due + interval) : dueCount now due interval = 1 := by
  have hfloor : ⌊(now - due) / interval⌋ = 0 := by
    rw [Int.floor_eq_zero_iff]
    exact ⟨div_nonneg (sub_nonneg.2 hd) hi.le, (div_lt_one hi).2 (by linarith)⟩
  rw [dueCount, if_neg (not_lt.2 hd)]
  simp only [hfloor]
  rfl

/-- A visit in time is one more visit, of the slot that was due. -/
theorem GroupSchedule.Visited.concat (h : s.Visited startTime ε vs) {v : Visit} {s' : GroupSchedule}
    (hgroup : s'.group = s.group) (hle : s.nextDueAt ≤ v.time) (hlt : v.time < s.nextDueAt + ε)
    (hdue : s'.nextDueAt = s.nextDueAt + s.group.intervalS)
    (hstarted : s'.startedCycles = s.startedCycles + v.started.toNat)
    (hmissed : s'.missedCycles = s.missedCycles + (!v.started).toNat) :
    s'.Visited startTime ε (vs ++ [v]) := by
  refine ⟨?_, ?_, ?_, fun k v' hv' => ?_⟩
  · rw [hdue, h.due, hgroup, List.length_append, List.length_singleton, Nat.cast_add, Nat.cast_one]
    ring
  · rw [hstarted, h.started, List.countP_append, List.countP_singleton]
    cases v.started <;> rfl
  · rw [hmissed, h.missed, List.countP_append, List.countP_singleton]
    cases v.started <;> rfl
  · rw [hgroup]
    by_cases hk : k < vs.length
    · rw [List.getElem?_append_left hk] at hv'
      exact h.punctual k v' hv'
    · rw [List.getElem?_append_right (not_lt.1 hk), List.getElem?_singleton] at hv'
      split_ifs at hv' with hzero
      have hlast : k = vs.length := by omega
      cases hv'
      rw [hlast, ← h.due]
      exact ⟨hle, hlt⟩

/-- **A tick visits a group once, if it is due.** -/
theorem GroupSchedule.Visited.startDueCycle (h : s.Visited startTime ε vs)
    (hε : ε ≤ s.group.intervalS) (hlt : now < s.nextDueAt + ε) (task : ℕ) :
    (s.startDueCycle now task).1.Visited startTime ε (vs ++ (s.visit now).toList) := by
  have hi := s.group.intervalS_pos
  rcases s.startDueCycle_cases now task with
    ⟨hnot, he⟩ | ⟨hd, hactive, he⟩ | ⟨hd, hidle, missed, hcount, he⟩
  · rw [he, visit, if_pos hnot, Option.toList_none, List.append_nil]
    exact h
  · have hone := dueCount_eq_one hi hd (hlt.trans_le (by linarith))
    rw [he, visit, if_neg (not_lt.2 hd), Option.toList_some, hone]
    refine h.concat rfl hd hlt ?_ ?_ ?_
    · simp only [Nat.cast_one, one_mul]
    · obtain ⟨t, ht⟩ := Option.isSome_iff_exists.1 hactive
      simp only [ht]
      rfl
    · obtain ⟨t, ht⟩ := Option.isSome_iff_exists.1 hactive
      simp only [ht]
      rfl
  · have hone := dueCount_eq_one hi hd (hlt.trans_le (by linarith))
    rw [he, visit, if_neg (not_lt.2 hd), Option.toList_some, hidle, hone]
    rw [hone] at hcount
    refine h.concat rfl hd hlt ?_ rfl ?_
    · simp only [Nat.cast_one, one_mul]
    · show missed = s.missedCycles + 0
      omega

end

/-! ## Events -/

namespace SchedulerEvent
variable {x y : PollScheduler} {e : SchedulerEvent}

theorem checks_of_tickAt {now : ℚ} (h : e.tickAt x = some now) : e.checks x = true := by
  cases e with
  | startRun run now' =>
    rw [checks]
    cases hrunning : x.running with
    | false => rfl
    | true =>
      rw [tickAt, hrunning] at h
      cases h
  | wake now' => rfl
  | _ => cases h

/-- A tick starts the cycles that are due. -/
theorem Acts.of_tickAt (h : e.Acts x y) {now : ℚ} (htick : e.tickAt x = some now) :
    x.clock ≤ now ∧ y.schedules = (startDueCycles now x.schedules x.cycles).1 := by
  cases h with
  | begin hidle hle =>
    rw [tickAt, hidle] at htick
    cases htick
    exact ⟨hle, rfl⟩
  | round hc hstop hle =>
    rw [tickAt, hstop] at htick
    cases htick
    exact ⟨hle, rfl⟩
  | leave hc hstop =>
    rw [tickAt, hstop] at htick
    cases htick
  | keep hchecks =>
    rw [checks_of_tickAt htick] at hchecks
    cases hchecks
  | collected hchecks =>
    rw [checks_of_tickAt htick] at hchecks
    cases hchecks
  | sleepFails => cases htick
  | cancelRun => cases htick
  | cancelAlone => cases htick
  | stop => cases htick
  | cancelActive => cases htick
  | handle => cases htick
  | drop => cases htick
  | finish => cases htick

/-- Between two ticks no slot is counted. -/
theorem Acts.of_tickAt_none (h : e.Acts x y) (htick : e.tickAt x = none) {s' : GroupSchedule}
    (hs' : s' ∈ y.schedules) :
    ∃ s ∈ x.schedules, s'.group = s.group ∧ s'.nextDueAt = s.nextDueAt ∧
      s'.startedCycles = s.startedCycles ∧ s'.missedCycles = s.missedCycles := by
  have hsame : s' ∈ x.schedules → ∃ s ∈ x.schedules, s'.group = s.group ∧ s'.nextDueAt = s.nextDueAt ∧
      s'.startedCycles = s.startedCycles ∧ s'.missedCycles = s.missedCycles :=
    fun hs => ⟨s', hs, rfl, rfl, rfl, rfl⟩
  cases h with
  | begin hidle hle =>
    rw [tickAt, hidle] at htick
    cases htick
  | round hc hstop hle =>
    rw [tickAt, hstop] at htick
    cases htick
  | @finish task groupId cancelRequested r finishedAt hc hle =>
    obtain ⟨s, hs, rfl⟩ := List.mem_map.1 hs'
    refine ⟨s, hs, ?_⟩
    split_ifs
    · cases r <;> exact ⟨rfl, rfl, rfl, rfl⟩
    · exact ⟨rfl, rfl, rfl, rfl⟩
  | keep => exact hsame hs'
  | leave => exact hsame hs'
  | collected => exact hsame hs'
  | sleepFails => exact hsame hs'
  | cancelRun => exact hsame hs'
  | cancelAlone => exact hsame hs'
  | stop => exact hsame hs'
  | cancelActive => exact hsame hs'
  | handle => exact hsame hs'
  | drop => exact hsame hs'

end SchedulerEvent

/-! ## Runs -/

theorem buildSchedules_eq {startTime : ℚ} {groups : List TagGroupConfig} {ss ss' : List GroupSchedule}
    (h : buildSchedules startTime groups ss = .ok ss') {s : GroupSchedule} (hs : s ∈ ss') :
    s ∈ ss ∨ ∃ group ∈ groups, group.enabled = true ∧ s = { group, nextDueAt := startTime } := by
  induction groups generalizing ss with
  | nil =>
    cases h
    exact .inl hs
  | cons group groups ih =>
    rw [buildSchedules] at h
    split_ifs at h with henabled hpolicy hdup
    · rcases ih h with hold | ⟨g, hg, hen, rfl⟩
      · rcases List.mem_append.1 hold with hold | hnew
        · exact .inl hold
        · exact .inr ⟨group, List.mem_cons_self, henabled, List.mem_singleton.1 hnew⟩
      · exact .inr ⟨g, List.mem_cons_of_mem _ hg, hen, rfl⟩
    · rcases ih h with hold | ⟨g, hg, hen, rfl⟩
      · exact .inl hold
      · exact .inr ⟨g, List.mem_cons_of_mem _ hg, hen, rfl⟩

/-- A new schedule is that of an enabled group, and is due at once. -/
theorem PollScheduler.schedules_init {groups : List TagGroupConfig} {startTime : ℚ} {x : PollScheduler}
    (h : init groups startTime = .ok x) :
    x.startTime = startTime ∧ ∀ s ∈ x.schedules, ∃ group ∈ groups, group.enabled = true ∧
      s = { group, nextDueAt := startTime } := by
  unfold init at h
  cases hbuild : buildSchedules startTime groups [] with
  | error e =>
    rw [hbuild] at h
    cases h
  | ok ss =>
    rw [hbuild] at h
    cases h
    refine ⟨rfl, fun s hs => ?_⟩
    rcases buildSchedules_eq hbuild hs with hnil | hgroup
    · cases hnil
    · exact hgroup

theorem PollScheduler.inv_reaches {x y : PollScheduler} (h : ReflTransGen SchedulerStep x y)
    (hx : x.Inv) : y.Inv := by
  induction h with
  | refl => exact hx
  | tail _ hs ih => exact inv_step hs ih

theorem visits_concat {x : PollScheduler} (h : x.Inv) {s : GroupSchedule} (hs : s ∈ x.schedules)
    (rounds : List Round) (now : ℚ) :
    visits s.group.id (rounds ++ [⟨now, x.schedules⟩]) =
      visits s.group.id rounds ++ (s.visit now).toList := by
  have hfind : (x.schedules.find? fun s' => s'.group.id = s.group.id) = some s := by
    cases hfound : x.schedules.find? fun s' => s'.group.id = s.group.id with
    | none =>
      have hnot := List.find?_eq_none.1 hfound s hs
      rw [decide_eq_true rfl] at hnot
      exact absurd rfl hnot
    | some s' =>
      have hid : s'.group.id = s.group.id := by simpa using List.find?_some hfound
      rw [h.schedule_eq (List.mem_of_find?_eq_some hfound) hs hid]
  have hvisit : Round.visit s.group.id ⟨now, x.schedules⟩ = s.visit now := by
    rw [Round.visit, hfind]
    rfl
  rw [visits, visits, List.filterMap_append, List.filterMap_cons, List.filterMap_nil, hvisit]
  cases s.visit now <;> rfl

/-- The visits so far, and the next due time. -/
structure GroupSchedule.Kept (startTime ε deadline : ℚ) (vs : List Visit) (s : GroupSchedule) : Prop where
  visited : s.Visited startTime ε vs
  later : deadline ≤ s.nextDueAt
  tolerant : ε ≤ s.group.intervalS

namespace TimedRun

structure Punctual (startTime ε : ℚ) (p : TimedRun) : Prop where
  inv : p.system.scheduler.Inv
  kept : ∀ s ∈ p.system.scheduler.schedules,
    s.Kept startTime ε p.deadline (visits s.group.id p.rounds)

variable {startTime ε : ℚ} {p p' : TimedRun} {e : SchedulerEvent}

theorem punctual_init {groups : List TagGroupConfig} {x₀ : SchedulerSystem}
    (h₀ : SchedulerSystem.init groups startTime = .ok x₀)
    (hε : ∀ group ∈ groups, group.enabled = true → ε ≤ group.intervalS) :
    (init x₀).Punctual startTime ε := by
  have hinit := SchedulerSystem.init_scheduler h₀
  obtain ⟨hstart, hschedules⟩ := PollScheduler.schedules_init hinit
  refine ⟨(PollScheduler.inv_init hinit).1, fun s hs => ?_⟩
  obtain ⟨group, hgroup, henabled, rfl⟩ := hschedules s hs
  refine ⟨⟨?_, rfl, rfl, fun k v hv => ?_⟩, hstart.le, hε group hgroup henabled⟩
  · show startTime = startTime + (0 : ℕ) * _
    rw [Nat.cast_zero, zero_mul, add_zero]
  · cases hv

theorem punctual_between (h : p.Punctual startTime ε) {y : SchedulerSystem}
    (he : e.Acts p.system.scheduler y.scheduler) (htick : e.tickAt p.system.scheduler = none)
    (hinv : y.scheduler.Inv) : Punctual startTime ε { p with system := y } := by
  refine ⟨hinv, fun s' hs' => ?_⟩
  obtain ⟨s, hs, hgroup, hdue, hstarted, hmissed⟩ := he.of_tickAt_none htick hs'
  obtain ⟨⟨hd, hst, hm, hp⟩, hlater, htol⟩ := h.kept s hs
  refine ⟨⟨?_, ?_, ?_, ?_⟩, ?_, ?_⟩
  · rw [hdue, hgroup]
    exact hd
  · rw [hstarted, hgroup]
    exact hst
  · rw [hmissed, hgroup]
    exact hm
  · rw [hgroup]
    exact hp
  · rw [hdue]
    exact hlater
  · rw [hgroup]
    exact htol

theorem punctual_tick (h : p.Punctual startTime ε) {y : SchedulerSystem} {now : ℚ}
    (he : e.Acts p.system.scheduler y.scheduler) (htick : e.tickAt p.system.scheduler = some now)
    (hlt : now < p.deadline + ε) (hinv : y.scheduler.Inv) :
    Punctual startTime ε ⟨p.rounds ++ [⟨now, p.system.scheduler.schedules⟩],
      now + secondsUntilNextDue now y.scheduler.schedules, y⟩ := by
  obtain ⟨hclock, hschedules⟩ := he.of_tickAt htick
  have hdue : ∀ s' ∈ y.scheduler.schedules, now < s'.nextDueAt := by
    rw [hschedules]
    intro s' hs'
    obtain ⟨s, hs, task, rfl⟩ := of_mem_startDueCycles hs'
    exact ((h.inv.accounted s hs).startDueCycle hclock task).2
  refine ⟨hinv, fun s' hs' => ?_⟩
  have hnext := (secondsUntilNextDue_spec hdue).2 s' hs'
  change s' ∈ y.scheduler.schedules at hs'
  rw [hschedules] at hs'
  obtain ⟨s, hs, task, rfl⟩ := of_mem_startDueCycles hs'
  obtain ⟨hvisited, hlater, htol⟩ := h.kept s hs
  rw [GroupSchedule.startDueCycle_group, visits_concat h.inv hs]
  refine ⟨hvisited.startDueCycle htol (hlt.trans_le (by linarith)) task, hnext, ?_⟩
  rw [GroupSchedule.startDueCycle_group]
  exact htol

theorem punctual_step (h : p.Punctual startTime ε) (he : p.step ε e = some p') :
    p'.Punctual startTime ε := by
  rw [step] at he
  cases hy : p.system.step e with
  | none =>
    rw [hy] at he
    cases he
  | some y =>
    have hacts := SchedulerSystem.step_acts hy
    have hinv : y.scheduler.Inv := PollScheduler.inv_reaches hacts.reaches h.inv
    rw [hy] at he
    cases htick : e.tickAt p.system.scheduler with
    | none =>
      rw [htick] at he
      cases he
      exact punctual_between h hacts htick hinv
    | some now =>
      rw [htick] at he
      simp only [Option.ite_none_right_eq_some] at he
      obtain ⟨hlt, he⟩ := he
      cases he
      exact punctual_tick h hacts htick hlt hinv

theorem punctual_run (h : p.Punctual startTime ε) {events : List SchedulerEvent}
    (he : p.run ε events = some p') : p'.Punctual startTime ε := by
  induction events generalizing p with
  | nil =>
    cases he
    exact h
  | cons e events ih =>
    rw [run, List.foldlM_cons, Option.bind_eq_bind, Option.bind_eq_some_iff] at he
    obtain ⟨q, hq, he⟩ := he
    exact ih (punctual_step h hq) he

/-- **A punctual scheduler passes over no slot.**  If every sleep ends less than `ε` late, and
    no interval is shorter than `ε`, then every tick at which a group is due visits one slot of
    it, less than `ε` late, and the slots are visited in their order; so the missed cycles are
    those that found the last cycle of the group still active. -/
theorem punctual_run_visits_every_slot {groups : List TagGroupConfig} {x₀ : SchedulerSystem}
    {events : List SchedulerEvent} (h₀ : SchedulerSystem.init groups startTime = .ok x₀)
    (hε : ∀ group ∈ groups, group.enabled = true → ε ≤ group.intervalS)
    (h : (init x₀).run ε events = some p) :
    ∀ s ∈ p.system.scheduler.schedules, s.Visited startTime ε (visits s.group.id p.rounds) :=
  fun s hs => ((punctual_run (punctual_init h₀ hε) h).kept s hs).visited

/-- The second tick is late and finds the first cycle finished; the third finds the second
    cycle active. -/
theorem punctual_run_visits_every_slot_overlapping : ∃ p,
    (init .ofFastGroup).run (1 / 2) [.invokeRun, .startRun 0 0, .startCycle 0,
      .finishCycle 0 .returned (1 / 4), .wake (5 / 4), .wake 2] = some p ∧
      (∀ s ∈ p.system.scheduler.schedules, s.Visited 0 (1 / 2) (visits s.group.id p.rounds)) ∧
      p.system.scheduler.schedules.map GroupSchedule.missedCycles = [1] := by
  have hmissed : ((init .ofFastGroup).run (1 / 2) [.invokeRun, .startRun 0 0, .startCycle 0,
      .finishCycle 0 .returned (1 / 4), .wake (5 / 4), .wake 2]).map
        (fun p => p.system.scheduler.schedules.map GroupSchedule.missedCycles) = some [1] := by
    decide +kernel
  obtain ⟨p, hp, hmissed⟩ := Option.map_eq_some_iff.1 hmissed
  refine ⟨p, hp, ?_, hmissed⟩
  refine punctual_run_visits_every_slot SchedulerSystem.init_fastGroup (fun group hgroup _ => ?_) hp
  rw [List.mem_singleton.1 hgroup]
  decide +kernel

end TimedRun

end PlcGateway
