import BackgroundTasks.Span
import BackgroundTasks.TaskId

/-!
# Timers

A platform that wakes tasks itself. Arming a task starts a sleeper under a new generation, and the
task's entry names the generation that counts. A sleeper that is replaced or disarmed is told to
stop, but it may be too late for that. So a sleeper that wakes sends its task off only if its
generation still counts, and one that could not be stopped in time does no harm.
-/

namespace BackgroundTasks

/-- A sleeper that was started for a task. -/
structure Sleeper where
  id : TaskId
  generation : UInt64
  /-- The nanosecond before which it does not wake. -/
  due : Nat
  /-- Whether it has been told to stop. -/
  calledOff : Bool := false
deriving DecidableEq, Repr

/-- The first whole millisecond at which a sleeper may wake. -/
def Sleeper.dueMs (s : Sleeper) : Nat := (s.due + 999999) / 1000000

/-- Sleepers, and which of them count. -/
structure Timers where
  /-- The generation that counts, for each armed task. -/
  current : List (TaskId × UInt64) := []
  /-- Who has not ended yet, in the order in which they were started. -/
  sleepers : List Sleeper := []
  /-- The generation of the next sleeper; the largest is followed by zero. -/
  nextGeneration : UInt64 := 0
deriving DecidableEq, Repr

namespace Timers

/-- Whether the sleeper of a task and a generation has not ended yet. -/
def isAsleep (t : Timers) (id : TaskId) (generation : UInt64) : Bool :=
  t.sleepers.any fun s => s.id == id && s.generation == generation

/-- Whether a task has a timer that counts and has not ended. -/
def isArmed (t : Timers) (id : TaskId) : Bool := (t.current.lookup id).any (t.isAsleep id)

/-- The number of tasks that are armed. -/
def armedCount (t : Timers) : Nat := t.current.length

/-- The entries without that of a task. -/
def without (t : Timers) (id : TaskId) : List (TaskId × UInt64) :=
  t.current.filter fun e => e.1 != id

/-- The sleepers, the one that counts for a task being told to stop. -/
def callingOff (t : Timers) (id : TaskId) : List Sleeper :=
  t.sleepers.map fun s =>
    if s.id = id ∧ t.current.lookup id = some s.generation then { s with calledOff := true } else s

/-- Arms a task at a nanosecond. -/
def arm (t : Timers) (now : Nat) (id : TaskId) (delay : Span) : Timers where
  current := t.without id ++ [(id, t.nextGeneration)]
  sleepers := t.callingOff id
    ++ [{ id, generation := t.nextGeneration, due := now + delay.nanos }]
  nextGeneration := t.nextGeneration + 1

/-- The handle of a generation. -/
def handle (generation : UInt64) : String :=
  "tokio-timer-" ++ Number.decimalText generation.toNat

/-- Disarms a task, if it is armed. -/
def disarm (t : Timers) (id : TaskId) : Timers :=
  { t with current := t.without id, sleepers := t.callingOff id }

/-- The sleeper of a generation, if it has not ended yet. -/
def find? (t : Timers) (generation : UInt64) : Option Sleeper :=
  t.sleepers.find? fun s => s.generation == generation

/-- Wakes a sleeper; returns the task that is sent off, if the sleeper counts. -/
def wake (t : Timers) (s : Sleeper) : Option TaskId × Timers :=
  let rest := t.sleepers.erase s
  if t.current.lookup s.id = some s.generation then
    (some s.id, { t with current := t.without s.id, sleepers := rest })
  else (none, { t with sleepers := rest })

end Timers

end BackgroundTasks
