import BackgroundTasks.Span
import BackgroundTasks.Task.Spec
import BackgroundTasks.TaskId

/-!
# Registrations

A platform that takes down who wants to be woken and wakes nobody by itself. A task has at most one
registration, and arming it again replaces it. Registrations are held in the order in which they
were made.
-/

namespace BackgroundTasks

/-- A wake-up that was asked for. -/
structure Registration where
  delay : Span
  conditions : Conditions
  /-- How many times any task had been armed before. -/
  sequence : Nat
deriving DecidableEq

/-- The wake-ups that were asked for. -/
structure Registrations where
  armed : List (TaskId × Registration) := []
  /-- The tasks in the order in which they were armed, again and again. -/
  history : List TaskId := []
deriving DecidableEq

namespace Registrations

/-- The registration of a task. -/
def find? (r : Registrations) (id : TaskId) : Option Registration := r.armed.lookup id

/-- Whether a task has a registration. -/
def isArmed (r : Registrations) (id : TaskId) : Bool := (r.find? id).isSome

/-- The registrations without that of a task. -/
def without (r : Registrations) (id : TaskId) : List (TaskId × Registration) :=
  r.armed.filter fun e => e.1 != id

/-- Arms a task. -/
def arm (r : Registrations) (id : TaskId) (delay : Span) (conditions : Conditions) :
    Registrations where
  armed := r.without id ++ [(id, ⟨delay, conditions, r.history.length⟩)]
  history := r.history ++ [id]

/-- The handle of a task's registration. -/
def handle (id : TaskId) : String := "memory-" ++ id.text

/-- Drops a task's registration, if it has one. -/
def disarm (r : Registrations) (id : TaskId) : Registrations := { r with armed := r.without id }

/-- Drops every registration; returns the tasks in the order in which they were armed. -/
def takeAll (r : Registrations) : List TaskId × Registrations :=
  (r.armed.map (·.1), { r with armed := [] })

/-- How many times a task was armed. -/
def armCount (r : Registrations) (id : TaskId) : Nat := r.history.count id

end Registrations

end BackgroundTasks
