/-
  The poll scheduler (`runtime/scheduler.py`).

  Time is exact.  A scheduler has a schedule for each enabled group, the tasks
  that its ticks have created, and the loop of `run`, which is suspended only
  while it sleeps or collects cancelled cycles.  `SchedulerStep` lets the loop, the
  tasks and the callers of `run`, `stop` and `cancel_active_cycles` take turns.
-/
import PlcGateway.Domain.Configuration
import Mathlib.Data.Rat.Floor
import Mathlib.Logic.Relation
import Mathlib.Tactic.Linarith

namespace PlcGateway

open Relation

/-! ## Schedules -/

/-- How far a task of `_run_cycle` is. -/
inductive CycleStatus where
  | created
  | handling
  | finished
  deriving DecidableEq, Repr

/-- A task of `_run_cycle`. -/
structure Cycle where
  groupId : Stripped
  status : CycleStatus
  cancelRequested : Bool
  deriving DecidableEq

/-- `interval_ms / 1000` -/
def TagGroupConfig.intervalS (g : TagGroupConfig) : ℚ := g.intervalMs / 1000

/-- `_GroupSchedule`, with the active task as its place among the tasks. -/
structure GroupSchedule where
  group : TagGroupConfig
  nextDueAt : ℚ
  activeTask : Option ℕ := none
  startedCycles : ℕ := 0
  missedCycles : ℕ := 0
  failedCycles : ℕ := 0
  lastStartedAt : Option ℚ := none
  lastFinishedAt : Option ℚ := none
  lastError : Option String := none
  deriving DecidableEq

/-- `_due_count` -/
def dueCount (now nextDueAt intervalS : ℚ) : ℕ :=
  if now < nextDueAt then 0
  else
    let elapsed := now - nextDueAt
    ⌊elapsed / intervalS⌋.toNat + 1

/-- The body of the loop of `_start_due_cycles`: the schedule, and the task that it
    creates under the number `task`. -/
def GroupSchedule.startDueCycle (now : ℚ) (task : ℕ) (s : GroupSchedule) :
    GroupSchedule × List Cycle :=
  if now < s.nextDueAt then (s, [])
  else
    let due := dueCount now s.nextDueAt s.group.intervalS
    let s := { s with nextDueAt := s.nextDueAt + due * s.group.intervalS }
    if s.activeTask.isSome then ({ s with missedCycles := s.missedCycles + due }, [])
    else
      ({ s with
        startedCycles := s.startedCycles + 1
        lastStartedAt := some now
        lastError := none
        missedCycles := if 1 < due then s.missedCycles + (due - 1) else s.missedCycles
        activeTask := some task },
      [⟨s.group.id, .created, false⟩])

/-- `_start_due_cycles` -/
def startDueCycles (now : ℚ) : List GroupSchedule → List Cycle → List GroupSchedule × List Cycle
  | [], cycles => ([], cycles)
  | s :: schedules, cycles =>
    let (s, created) := s.startDueCycle now cycles.length
    let (schedules, cycles) := startDueCycles now schedules (cycles ++ created)
    (s :: schedules, cycles)

/-- The least of the due times. -/
def earliestDue : List GroupSchedule → Option ℚ
  | [] => none
  | s :: schedules => match earliestDue schedules with
    | none => some s.nextDueAt
    | some due => some (min s.nextDueAt due)

/-- `_seconds_until_next_due` -/
def secondsUntilNextDue (now : ℚ) (schedules : List GroupSchedule) : ℚ :=
  match earliestDue schedules with
  | none => 1 / 10
  | some nextDue => max 0 (nextDue - now)

/-! ## The scheduler -/

/-- Where the loop of `run` is. -/
inductive LoopControl where
  | idle
  | checking
  | sleeping (delay : ℚ)
  | cancelling
  deriving DecidableEq

/-- `clock` is the latest reading of the clock, and `startTime` the first one. -/
structure PollScheduler where
  startTime : ℚ
  clock : ℚ
  stopRequested : Bool
  running : Bool
  control : LoopControl
  schedules : List GroupSchedule
  cycles : List Cycle

/-- `_build_schedules` -/
def buildSchedules (startTime : ℚ) : List TagGroupConfig → List GroupSchedule →
    Except PyError (List GroupSchedule)
  | [], schedules => return schedules
  | group :: groups, schedules =>
    if ¬ group.enabled then buildSchedules startTime groups schedules
    else if group.overlapPolicy ≠ .skip then
      throw { PyError.configuration s!"Unsupported overlap policy '{group.overlapPolicy.value}'." with
        code := .text "unsupported_overlap_policy" }
    else if group.id ∈ schedules.map fun s => s.group.id then
      throw { PyError.configuration s!"Duplicate scheduled tag group '{group.id.text}'." with
        code := .text "duplicate_scheduled_tag_group" }
    else buildSchedules startTime groups (schedules ++ [{ group, nextDueAt := startTime }])

namespace PollScheduler

/-- `PollScheduler.__init__` -/
def init (groups : List TagGroupConfig) (startTime : ℚ) : Except PyError PollScheduler := do
  let schedules ← buildSchedules startTime groups []
  return {
    startTime, clock := startTime, stopRequested := false, running := false, control := .idle
    schedules, cycles := [] }

/-- One round of the loop of `run`, up to its sleep. -/
def tick (x : PollScheduler) (now : ℚ) : PollScheduler :=
  let (schedules, cycles) := startDueCycles now x.schedules x.cycles
  { x with
    clock := now, schedules, cycles
    control := .sleeping (secondsUntilNextDue now schedules) }

/-- `task.cancel()` for the active tasks. -/
def requestCancel (x : PollScheduler) : PollScheduler :=
  let active := x.schedules.filterMap GroupSchedule.activeTask
  { x with cycles := x.cycles.mapIdx fun task cycle =>
      if task ∈ active then { cycle with cancelRequested := true } else cycle }

/-- Change the schedule of a group. -/
def updateSchedule (x : PollScheduler) (groupId : Stripped) (f : GroupSchedule → GroupSchedule) :
    List GroupSchedule :=
  x.schedules.map fun s => if s.group.id = groupId then f s else s

end PollScheduler

/-- How a handler ends. -/
inductive HandlerEnd where
  | returned
  | failed (error : String)
  | cancelled

/-- The `except` and `finally` of `_run_cycle`. -/
def GroupSchedule.finishCycle (r : HandlerEnd) (finishedAt : ℚ) (s : GroupSchedule) : GroupSchedule :=
  let s := match r with
    | .failed error => { s with failedCycles := s.failedCycles + 1, lastError := some error }
    | .returned | .cancelled => s
  { s with lastFinishedAt := some finishedAt, activeTask := none }

/-- One step of the scheduler.  The clock never goes back, and a sleep may end at
    any time, or fail. -/
inductive SchedulerStep : PollScheduler → PollScheduler → Prop
  | run {x : PollScheduler} : x.running = false →
      SchedulerStep x { x with running := true, stopRequested := false, control := .checking }
  | stop {x : PollScheduler} : SchedulerStep x { x with stopRequested := true }
  | leave {x : PollScheduler} : x.control = .checking → x.stopRequested = true →
      SchedulerStep x { x with running := false, control := .idle }
  | tick {x : PollScheduler} {now : ℚ} : x.control = .checking → x.stopRequested = false →
      x.clock ≤ now → SchedulerStep x (x.tick now)
  | wake {x : PollScheduler} {delay : ℚ} : x.control = .sleeping delay →
      SchedulerStep x { x with control := .checking }
  | sleepFails {x : PollScheduler} {delay : ℚ} : x.control = .sleeping delay →
      SchedulerStep x { x with running := false, control := .idle }
  | cancelRun {x : PollScheduler} {delay : ℚ} : x.control = .sleeping delay →
      SchedulerStep x { x.requestCancel with control := .cancelling }
  | cancelled {x : PollScheduler} : x.control = .cancelling →
      SchedulerStep x { x with running := false, control := .idle }
  | cancelActive {x : PollScheduler} : SchedulerStep x x.requestCancel
  | handle {x : PollScheduler} {task : ℕ} {groupId : Stripped} {cancelRequested : Bool} :
      x.cycles[task]? = some ⟨groupId, .created, cancelRequested⟩ →
      SchedulerStep x { x with cycles := x.cycles.set task ⟨groupId, .handling, cancelRequested⟩ }
  | drop {x : PollScheduler} {task : ℕ} {groupId : Stripped} :
      -- a task that is cancelled before its first step never enters the `try`
      x.cycles[task]? = some ⟨groupId, .created, true⟩ →
      SchedulerStep x { x with cycles := x.cycles.set task ⟨groupId, .finished, true⟩ }
  | finish {x : PollScheduler} {task : ℕ} {groupId : Stripped} {cancelRequested : Bool}
      {r : HandlerEnd} {finishedAt : ℚ} :
      x.cycles[task]? = some ⟨groupId, .handling, cancelRequested⟩ → x.clock ≤ finishedAt →
      SchedulerStep x { x with
        clock := finishedAt
        schedules := x.updateSchedule groupId (GroupSchedule.finishCycle r finishedAt)
        cycles := x.cycles.set task ⟨groupId, .finished, cancelRequested⟩ }

end PlcGateway
