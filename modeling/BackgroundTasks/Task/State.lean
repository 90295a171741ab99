import BackgroundTasks.Json.Fields

/-!
# Task states

A task is enqueued until it is claimed, running until its result arrives, and may go back to the
queue any number of times before it ends. Three states are final: only a new schedule leads out of
them.
-/

namespace BackgroundTasks

/-- Where a task is in its life. -/
inductive State where
  | enqueued
  | running
  | succeeded
  | failed
  | cancelled
deriving DecidableEq, Repr

namespace State

/-- Every state. -/
def all : List State := [enqueued, running, succeeded, failed, cancelled]

/-- The name of a state. -/
def text : State → String
  | enqueued => "enqueued"
  | running => "running"
  | succeeded => "succeeded"
  | failed => "failed"
  | cancelled => "cancelled"

/-- The states that a task does not leave by itself. -/
def isTerminal : State → Bool
  | succeeded | failed | cancelled => true
  | enqueued | running => false

/-- The edges of the life cycle. -/
def canBecome : State → State → Bool
  | enqueued, running | enqueued, cancelled => true
  | running, succeeded | running, failed | running, enqueued | running, cancelled => true
  | _, _ => false

/-- A new schedule is accepted in every state but one. -/
def canReschedule (s : State) : Bool := s != running

/-- The states from which a task can be cancelled. -/
def cancellable : List State := [enqueued, running]

/-- The states that one edge leads to. -/
def successors (s : State) : List State := all.filter s.canBecome

theorem isTerminal_iff_successors (s : State) : s.isTerminal = true ↔ s.successors = [] := by
  cases s <;> decide

theorem mem_cancellable_iff (s : State) : s ∈ cancellable ↔ s.canBecome .cancelled = true := by
  cases s <;> decide

/-- A state in JSON. -/
def toJson (s : State) : Json := .text s.text

/-- The state that a JSON value names. -/
def ofJson? : Json → Option State := Json.choice? (all.map fun s => (s.text, s))

end State

end BackgroundTasks
