/-
  The tasks around a poll scheduler.

  `run()` and `cancel_active_cycles()` are coroutines: a task of `run` exists before
  its first step, and a call of `cancel_active_cycles` waits for the tasks that it
  has cancelled.  A run of the system is a list of events.  Each event is what the
  code does between two suspensions, so that the scheduler moves by the steps of
  `SchedulerStep`.
-/
import PlcGateway.Runtime.SlotAccounting

namespace PlcGateway

open Relation

/-- How far a task of `run` is. -/
inductive RunStatus where
  | created
  | inLoop
  | finished
  deriving DecidableEq, Repr

/-- The scheduler, the tasks of `run`, and the tasks that each call of
    `cancel_active_cycles` gathers: `gathered` for the one of a cancelled `run`. -/
structure SchedulerSystem where
  scheduler : PollScheduler
  runs : List RunStatus
  gathered : List ℕ
  cancels : List (List ℕ)

inductive SchedulerEvent where
  | invokeRun
  /-- the first step of a task of `run` -/
  | startRun (run : ℕ) (now : ℚ)
  /-- a task of `run` is cancelled before its first step -/
  | dropRun (run : ℕ)
  | wake (now : ℚ)
  | sleepFails
  /-- the task of `run` is cancelled in its sleep -/
  | cancelRun
  | cancelRunReturns
  /-- the task of `run` is cancelled again, in its `gather` -/
  | abandonRun
  | stop
  | cancelActive
  | cancelReturns (call : ℕ)
  /-- the caller of `cancel_active_cycles` is cancelled -/
  | abandonCancel (call : ℕ)
  /-- the first step of a task of `_run_cycle` -/
  | startCycle (task : ℕ)
  | finishCycle (task : ℕ) (r : HandlerEnd) (finishedAt : ℚ)

namespace PollScheduler

/-- The tasks that `cancel_active_cycles` collects. -/
def activeTasks (x : PollScheduler) : List ℕ := x.schedules.filterMap GroupSchedule.activeTask

/-- The task is done. -/
def done (x : PollScheduler) (task : ℕ) : Bool :=
  (x.cycles[task]?).all fun c => c.status = .finished

end PollScheduler

/-- The loop sleeps. -/
def LoopControl.isSleeping : LoopControl → Bool
  | .sleeping _ => true
  | _ => false

namespace SchedulerSystem

def init (groups : List TagGroupConfig) (startTime : ℚ) : Except PyError SchedulerSystem := do
  let scheduler ← PollScheduler.init groups startTime
  return { scheduler, runs := [], gathered := [], cancels := [] }

/-- `run` ends, and its `finally` marks the scheduler as not running. -/
def leaveLoop (x : SchedulerSystem) : SchedulerSystem :=
  { x with
    scheduler := { x.scheduler with running := false, control := .idle }
    runs := x.runs.map fun status => if status = .inLoop then .finished else status }

/-- The condition of the `while` of `run`, and the round that it lets begin. -/
def check (x : SchedulerSystem) (now : ℚ) : Option SchedulerSystem :=
  if x.scheduler.stopRequested then some x.leaveLoop
  else if x.scheduler.clock ≤ now then some { x with scheduler := x.scheduler.tick now }
  else none

/-- The first lines of `run`, of a scheduler that does not run. -/
def enterLoop (x : SchedulerSystem) (run : ℕ) : SchedulerSystem :=
  { x with
    scheduler := { x.scheduler with running := true, stopRequested := false, control := .checking }
    runs := x.runs.set run .inLoop }

/-- What an event does, if it can happen. -/
def step (x : SchedulerSystem) : SchedulerEvent → Option SchedulerSystem
  | .invokeRun => some { x with runs := x.runs ++ [.created] }
  | .startRun run now =>
    if x.runs[run]? = some .created then
      -- a second `run` raises before it clears the stop flag
      if x.scheduler.running then some { x with runs := x.runs.set run .finished }
      else (x.enterLoop run).check now
    else none
  | .dropRun run =>
    if x.runs[run]? = some .created then some { x with runs := x.runs.set run .finished } else none
  | .wake now =>
    if x.scheduler.control.isSleeping then
      check { x with scheduler := { x.scheduler with control := .checking } } now
    else none
  | .sleepFails => if x.scheduler.control.isSleeping then some x.leaveLoop else none
  | .cancelRun =>
    if x.scheduler.control.isSleeping then
      let tasks := x.scheduler.activeTasks
      let x := { x with
        scheduler := { x.scheduler.requestCancel with control := .cancelling }
        gathered := tasks }
      if tasks = [] then some x.leaveLoop else some x
    else none
  | .cancelRunReturns =>
    if x.scheduler.control = .cancelling ∧ x.gathered.all x.scheduler.done then some x.leaveLoop
    else none
  | .abandonRun => if x.scheduler.control = .cancelling then some x.leaveLoop else none
  | .stop => some { x with scheduler := { x.scheduler with stopRequested := true } }
  | .cancelActive =>
    let tasks := x.scheduler.activeTasks
    let x := { x with scheduler := x.scheduler.requestCancel }
    if tasks = [] then some x else some { x with cancels := x.cancels ++ [tasks] }
  | .cancelReturns call => match x.cancels[call]? with
    | some tasks =>
      if tasks.all x.scheduler.done then some { x with cancels := x.cancels.eraseIdx call } else none
    | none => none
  | .abandonCancel call =>
    if call < x.cancels.length then some { x with cancels := x.cancels.eraseIdx call } else none
  | .startCycle task => match x.scheduler.cycles[task]? with
    | some ⟨groupId, .created, cancelRequested⟩ =>
      -- the coroutine of a task that is already cancelled is never entered
      let status := if cancelRequested then .finished else .handling
      some { x with scheduler := { x.scheduler with
        cycles := x.scheduler.cycles.set task ⟨groupId, status, cancelRequested⟩ } }
    | _ => none
  | .finishCycle task r finishedAt => match x.scheduler.cycles[task]? with
    | some ⟨groupId, .handling, cancelRequested⟩ =>
      if x.scheduler.clock ≤ finishedAt then
        some { x with scheduler := { x.scheduler with
          clock := finishedAt
          schedules := x.scheduler.updateSchedule groupId (GroupSchedule.finishCycle r finishedAt)
          cycles := x.scheduler.cycles.set task ⟨groupId, .finished, cancelRequested⟩ } }
      else none
    | _ => none

/-- The events, one after the other. -/
def run (x : SchedulerSystem) (events : List SchedulerEvent) : Option SchedulerSystem :=
  events.foldlM step x

end SchedulerSystem

/-! ## What an event does to the scheduler -/

namespace SchedulerEvent

/-- The event evaluates the condition of the loop. -/
def checks (x : PollScheduler) : SchedulerEvent → Bool
  | .startRun _ _ => !x.running
  | .wake _ => true
  | _ => false

inductive Acts (x : PollScheduler) : SchedulerEvent → PollScheduler → Prop
  | keep {e : SchedulerEvent} : e.checks x = false → Acts x e x
  | begin {run : ℕ} {now : ℚ} : x.running = false → x.clock ≤ now → Acts x (.startRun run now)
      ({ x with running := true, stopRequested := false, control := .checking }.tick now)
  | leave {now delay : ℚ} : x.control = .sleeping delay → x.stopRequested = true →
      Acts x (.wake now) { x with running := false, control := .idle }
  | round {now delay : ℚ} : x.control = .sleeping delay → x.stopRequested = false → x.clock ≤ now →
      Acts x (.wake now) (x.tick now)
  | sleepFails {delay : ℚ} : x.control = .sleeping delay →
      Acts x .sleepFails { x with running := false, control := .idle }
  | cancelRun {delay : ℚ} : x.control = .sleeping delay →
      Acts x .cancelRun { x.requestCancel with control := .cancelling }
  | cancelAlone {delay : ℚ} : x.control = .sleeping delay →
      Acts x .cancelRun { x.requestCancel with running := false, control := .idle }
  | collected {e : SchedulerEvent} : e.checks x = false → x.control = .cancelling →
      Acts x e { x with running := false, control := .idle }
  | stop : Acts x .stop { x with stopRequested := true }
  | cancelActive : Acts x .cancelActive x.requestCancel
  | handle {task : ℕ} {groupId : Stripped} : x.cycles[task]? = some ⟨groupId, .created, false⟩ →
      Acts x (.startCycle task)
        { x with cycles := x.cycles.set task ⟨groupId, .handling, false⟩ }
  | drop {task : ℕ} {groupId : Stripped} : x.cycles[task]? = some ⟨groupId, .created, true⟩ →
      Acts x (.startCycle task)
        { x with cycles := x.cycles.set task ⟨groupId, .finished, true⟩ }
  | finish {task : ℕ} {groupId : Stripped} {cancelRequested : Bool} {r : HandlerEnd}
      {finishedAt : ℚ} :
      x.cycles[task]? = some ⟨groupId, .handling, cancelRequested⟩ → x.clock ≤ finishedAt →
      Acts x (.finishCycle task r finishedAt) { x with
        clock := finishedAt
        schedules := x.updateSchedule groupId (GroupSchedule.finishCycle r finishedAt)
        cycles := x.cycles.set task ⟨groupId, .finished, cancelRequested⟩ }

/-- What an event does is a few steps of the scheduler. -/
theorem Acts.reaches {e : SchedulerEvent} {x y : PollScheduler} (h : e.Acts x y) :
    ReflTransGen SchedulerStep x y := by
  cases h with
  | keep => exact .refl
  | begin hidle hle => exact .head (.run hidle) (.single (.tick rfl rfl hle))
  | leave hc hstop => exact .head (.wake hc) (.single (.leave rfl hstop))
  | round hc hstop hle => exact .head (.wake hc) (.single (.tick rfl hstop hle))
  | sleepFails hc => exact .single (.sleepFails hc)
  | cancelRun hc => exact .single (.cancelRun hc)
  | cancelAlone hc => exact .head (.cancelRun hc) (.single (.cancelled rfl))
  | collected _ hc => exact .single (.cancelled hc)
  | stop => exact .single .stop
  | cancelActive => exact .single .cancelActive
  | handle hc => exact .single (.handle hc)
  | drop hc => exact .single (.drop hc)
  | finish hc hle => exact .single (.finish hc hle)

end SchedulerEvent

namespace SchedulerSystem
variable {x y : SchedulerSystem}

theorem isSleeping_iff {c : LoopControl} : c.isSleeping = true ↔ ∃ delay, c = .sleeping delay := by
  cases c <;> simp [LoopControl.isSleeping]

/-- What the condition of the loop can lead to. -/
theorem check_cases {now : ℚ} (h : x.check now = some y) :
    x.scheduler.stopRequested = true ∧ y = x.leaveLoop ∨
    x.scheduler.stopRequested = false ∧ x.scheduler.clock ≤ now ∧
      y = { x with scheduler := x.scheduler.tick now } := by
  rw [check] at h
  split_ifs at h with hstop hle
  · exact .inl ⟨hstop, (Option.some.inj h).symm⟩
  · exact .inr ⟨Bool.eq_false_of_not_eq_true hstop, hle, (Option.some.inj h).symm⟩

/-- **What an event does to the scheduler.** -/
theorem step_acts {e : SchedulerEvent} (h : x.step e = some y) :
    e.Acts x.scheduler y.scheduler := by
  cases e with
  | invokeRun => cases h; exact .keep rfl
  | startRun r now =>
    simp only [step] at h
    split_ifs at h with hr hrunning
    · cases h
      exact .keep (by rw [SchedulerEvent.checks, hrunning]; rfl)
    · obtain ⟨hstop, -⟩ | ⟨-, hle, rfl⟩ := check_cases h
      · cases hstop
      · exact .begin (Bool.eq_false_of_not_eq_true hrunning) hle
  | dropRun r =>
    simp only [step, Option.ite_none_right_eq_some] at h
    obtain ⟨-, h⟩ := h
    cases h
    exact .keep rfl
  | wake now =>
    simp only [step, Option.ite_none_right_eq_some, isSleeping_iff] at h
    obtain ⟨⟨delay, hc⟩, h⟩ := h
    obtain ⟨hstop, rfl⟩ | ⟨hstop, hle, rfl⟩ := check_cases h
    · exact .leave hc hstop
    · exact .round hc hstop hle
  | sleepFails =>
    simp only [step, Option.ite_none_right_eq_some, isSleeping_iff] at h
    obtain ⟨⟨delay, hc⟩, h⟩ := h
    cases h
    exact .sleepFails hc
  | cancelRun =>
    simp only [step, Option.ite_none_right_eq_some, isSleeping_iff] at h
    obtain ⟨⟨delay, hc⟩, h⟩ := h
    split_ifs at h
    · cases h; exact .cancelAlone hc
    · cases h; exact .cancelRun hc
  | cancelRunReturns =>
    simp only [step, Option.ite_none_right_eq_some] at h
    obtain ⟨⟨hc, -⟩, h⟩ := h
    cases h
    exact .collected rfl hc
  | abandonRun =>
    simp only [step, Option.ite_none_right_eq_some] at h
    obtain ⟨hc, h⟩ := h
    cases h
    exact .collected rfl hc
  | stop => cases h; exact .stop
  | cancelActive =>
    simp only [step] at h
    split_ifs at h <;> cases h <;> exact .cancelActive
  | cancelReturns call =>
    simp only [step] at h
    split at h
    · rw [Option.ite_none_right_eq_some] at h
      obtain ⟨-, h⟩ := h
      cases h
      exact .keep rfl
    · cases h
  | abandonCancel call =>
    simp only [step, Option.ite_none_right_eq_some] at h
    obtain ⟨-, h⟩ := h
    cases h
    exact .keep rfl
  | startCycle task =>
    simp only [step] at h
    split at h
    next groupId cancelRequested hc =>
      cases h
      cases cancelRequested with
      | false => exact .handle hc
      | true => exact .drop hc
    next => cases h
  | finishCycle task r finishedAt =>
    simp only [step] at h
    split at h
    next groupId cancelRequested hc =>
      rw [Option.ite_none_right_eq_some] at h
      obtain ⟨hle, h⟩ := h
      cases h
      exact .finish hc hle
    next => cases h

/-! ## Runs -/

theorem run_append {pre post : List SchedulerEvent} :
    x.run (pre ++ post) = (x.run pre).bind fun y => y.run post := List.foldlM_append

theorem run_cons {e : SchedulerEvent} {post : List SchedulerEvent} :
    x.run (e :: post) = (x.step e).bind fun y => y.run post := List.foldlM_cons

theorem run_concat {pre : List SchedulerEvent} {e : SchedulerEvent} (h : x.run (pre ++ [e]) = some y) :
    ∃ z, x.run pre = some z ∧ z.step e = some y := by
  rw [run_append, Option.bind_eq_some_iff] at h
  obtain ⟨z, hz, h⟩ := h
  rw [run_cons, Option.bind_eq_some_iff] at h
  obtain ⟨w, he, h⟩ := h
  cases h
  exact ⟨z, hz, he⟩

/-- A run that goes on after an event has the state before and after it. -/
theorem run_split {pre post : List SchedulerEvent} {e : SchedulerEvent}
    (h : (x.run (pre ++ e :: post)).isSome) :
    ∃ y z, x.run pre = some y ∧ y.step e = some z := by
  obtain ⟨w, hw⟩ := Option.isSome_iff_exists.1 h
  rw [run_append, Option.bind_eq_some_iff] at hw
  obtain ⟨y, hy, hw⟩ := hw
  rw [run_cons, Option.bind_eq_some_iff] at hw
  obtain ⟨z, he, -⟩ := hw
  exact ⟨y, z, hy, he⟩

theorem run_reaches {events : List SchedulerEvent} (h : x.run events = some y) :
    ReflTransGen SchedulerStep x.scheduler y.scheduler := by
  induction events generalizing x with
  | nil => cases h; exact .refl
  | cons e events ih =>
    rw [run_cons, Option.bind_eq_some_iff] at h
    obtain ⟨z, he, h⟩ := h
    exact (step_acts he).reaches.trans (ih h)

theorem init_scheduler {groups : List TagGroupConfig} {startTime : ℚ} {x₀ : SchedulerSystem}
    (h : init groups startTime = .ok x₀) : PollScheduler.init groups startTime = .ok x₀.scheduler := by
  rw [init] at h
  cases hs : PollScheduler.init groups startTime with
  | error e => rw [hs] at h; cases h
  | ok scheduler => rw [hs] at h; cases h; rfl

/-- **The scheduler keeps its books in every run of the system.** -/
theorem inv_of_run {groups : List TagGroupConfig} {startTime : ℚ} {x₀ : SchedulerSystem}
    (h₀ : init groups startTime = .ok x₀) {events : List SchedulerEvent}
    (h : x₀.run events = some x) : x.scheduler.Inv :=
  (PollScheduler.inv_run (init_scheduler h₀) (run_reaches h)).1

/-! ## A system with one group -/

/-- A scheduler of the group `fastGroupConfig`, at time 0. -/
def ofFastGroup : SchedulerSystem where
  scheduler := ⟨0, 0, false, false, .idle, [{ group := fastGroupConfig, nextDueAt := 0 }], []⟩
  runs := []
  gathered := []
  cancels := []

theorem init_fastGroup : init [fastGroupConfig] 0 = .ok ofFastGroup := rfl

end SchedulerSystem

end PlcGateway
