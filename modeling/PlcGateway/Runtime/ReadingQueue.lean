/-
  The bounded queue between polling and storage (`runtime/reading_queue.py`).

  `asyncio.Queue` keeps the items and the number of unfinished tasks; a `put` of
  the source is the entry of the item when there is space, or its timeout.
-/
import PlcGateway.Domain.Exceptions
import Mathlib.Data.List.Basic

namespace PlcGateway

structure ReadingQueue (R : Type) where
  maxSize : ℕ
  items : List R
  unfinished : ℕ
  closed : Bool
  droppedItems : ℕ
  putTimeouts : ℕ
  deriving DecidableEq, Repr

namespace ReadingQueue
variable {R : Type}

def empty (maxSize : ℕ) : ReadingQueue R := ⟨maxSize, [], 0, false, 0, 0⟩

def size (q : ReadingQueue R) : ℕ := q.items.length

/-- The item of a `put` enters. -/
def putNowait (q : ReadingQueue R) (item : R) : Option (ReadingQueue R) :=
  if q.items.length < q.maxSize then
    some { q with items := q.items ++ [item], unfinished := q.unfinished + 1 }
  else none

/-- A `put` gives up waiting for space. -/
def putTimeout (q : ReadingQueue R) : ReadingQueue R :=
  { q with putTimeouts := q.putTimeouts + 1 }

/-- The item of a `get` leaves. -/
def getNowait (q : ReadingQueue R) : Option (R × ReadingQueue R) :=
  match q.items with
  | [] => none
  | item :: items => some (item, { q with items })

def taskDone (q : ReadingQueue R) : Except PyError (ReadingQueue R) :=
  if q.unfinished = 0 then throw (.valueError "task_done() called too many times")
  else return { q with unfinished := q.unfinished - 1 }

/-- `n` calls of `taskDone`. -/
def tasksDone (q : ReadingQueue R) : ℕ → Except PyError (ReadingQueue R)
  | 0 => return q
  | n + 1 => do (← q.taskDone).tasksDone n

def close (q : ReadingQueue R) : ReadingQueue R := { q with closed := true }

theorem putNowait_eq_some {q q' : ReadingQueue R} {item : R} (h : q.putNowait item = some q') :
    q' = { q with items := q.items ++ [item], unfinished := q.unfinished + 1 } := by
  unfold putNowait at h
  split_ifs at h
  exact (Option.some.inj h).symm

end ReadingQueue

end PlcGateway
