import BackgroundTasks.Platform.Registrations
import BackgroundTasks.Platform.Timers

/-!
# Platforms

A platform is what wakes tasks: it can be asked to, asked not to, and asked whether it is going to.
There are two kinds, one that only takes down what it is asked for and one with timers of its own.
-/

namespace BackgroundTasks

/-- What wakes tasks. -/
inductive Platform where
  | registrations (r : Registrations)
  | timers (t : Timers)
deriving DecidableEq

namespace Platform

/-- The registrations, on a platform that has them. -/
def registrations? : Platform → Option Registrations
  | registrations r => some r
  | timers _ => none

/-- The timers, on a platform that has them. -/
def timers? : Platform → Option Timers
  | registrations _ => none
  | timers t => some t

/-- The generations of the timers that were armed since an earlier state of the platform. -/
def armedSince (p before : Platform) : List UInt64 :=
  match before, p with
  | timers b, timers t =>
    (List.range (t.nextGeneration - b.nextGeneration).toNat).map fun n =>
      b.nextGeneration + UInt64.ofNat n
  | _, _ => []

/-- Arms a task at a millisecond; returns the handle of the wake-up. -/
def arm (p : Platform) (now : Nat) (id : TaskId) (delay : Span) (conditions : Conditions) :
    String × Platform :=
  match p with
  | registrations r => (Registrations.handle id, registrations (r.arm id delay conditions))
  | timers t => (Timers.handle t.nextGeneration, timers (t.arm (now * 1000000) id delay))

/-- Disarms a task, if it is armed. -/
def disarm (p : Platform) (id : TaskId) : Platform :=
  match p with
  | registrations r => registrations (r.disarm id)
  | timers t => timers (t.disarm id)

/-- Whether a task is going to be woken. -/
def isArmed (p : Platform) (id : TaskId) : Bool :=
  match p with
  | registrations r => r.isArmed id
  | timers t => t.isArmed id

end Platform

end BackgroundTasks
