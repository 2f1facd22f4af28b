/-
  Bounded first-in first-out channels.

  A channel is the list of what it holds, the oldest first.  Something may be sent as
  long as there is room, the oldest may be received, and everything may be discarded at
  once.  `Runs.balance` says that what leaves is what was sent, in its order, up to what
  the channel still holds.
-/
import Mathlib.Data.List.Basic

namespace Channel

variable {R : Type}

/-- One use of a channel. -/
inductive Op (R : Type) where
  | send (a : R)
  | receive (a : R)
  | discard (as : List R)

namespace Op

/-- What the use puts in. -/
def sent : Op R → List R
  | send a => [a]
  | receive _ | discard _ => []

/-- What the use hands over. -/
def received : Op R → List R
  | receive a => [a]
  | send _ | discard _ => []

/-- What the use throws away. -/
def discarded : Op R → List R
  | discard as => as
  | send _ | receive _ => []

/-- What the use takes out. -/
def left (o : Op R) : List R := o.received ++ o.discarded

end Op

/-- What a channel of the given capacity holds before and after a use. -/
inductive Step (capacity : ℕ) : List R → Op R → List R → Prop
  | send {as : List R} {a : R} : as.length < capacity → Step capacity as (.send a) (as ++ [a])
  | receive {a : R} {as : List R} : Step capacity (a :: as) (.receive a) as
  | discard {as : List R} : Step capacity as (.discard as) []

inductive Runs (capacity : ℕ) : List R → List (Op R) → List R → Prop
  | nil {as : List R} : Runs capacity as [] as
  | cons {as bs cs : List R} {o : Op R} {os : List (Op R)} :
      Step capacity as o bs → Runs capacity bs os cs → Runs capacity as (o :: os) cs

section
variable {capacity : ℕ} {as bs cs : List R} {o : Op R} {os os' : List (Op R)}

theorem Runs.single (h : Step capacity as o bs) : Runs capacity as [o] bs := .cons h .nil

theorem Runs.append (h : Runs capacity as os bs) (h' : Runs capacity bs os' cs) :
    Runs capacity as (os ++ os') cs := by
  induction h with
  | nil => exact h'
  | cons hstep _ ih => exact .cons hstep (ih h')

theorem Step.balance (h : Step capacity as o bs) : as ++ o.sent = o.left ++ bs := by
  cases h with
  | send => rfl
  | receive => exact List.append_nil _
  | discard => rfl

theorem Step.length_le (h : Step capacity as o bs) (hle : as.length ≤ capacity) :
    bs.length ≤ capacity := by
  cases h with
  | send hlt =>
    rw [List.length_append]
    exact hlt
  | receive => exact Nat.le_of_succ_le hle
  | discard => exact Nat.zero_le _

/-- **First in, first out.** -/
theorem Runs.balance (h : Runs capacity as os bs) :
    as ++ os.flatMap Op.sent = os.flatMap Op.left ++ bs := by
  induction h with
  | nil => exact List.append_nil _
  | cons hstep _ ih =>
    rw [List.flatMap_cons, List.flatMap_cons, ← List.append_assoc, hstep.balance, List.append_assoc,
      ih, List.append_assoc]

/-- A channel never holds more than its capacity. -/
theorem Runs.length_le (h : Runs capacity as os bs) (hle : as.length ≤ capacity) :
    bs.length ≤ capacity := by
  induction h with
  | nil => exact hle
  | cons hstep _ ih => exact ih (hstep.length_le hle)

/-- What is received keeps the order in which it was sent. -/
theorem received_sublist (os : List (Op R)) :
    (os.flatMap Op.received).Sublist (os.flatMap Op.left) := by
  induction os with
  | nil => exact .refl _
  | cons o os ih => exact (List.sublist_append_left _ _).append ih

end

end Channel
