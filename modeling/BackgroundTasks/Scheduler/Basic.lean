import BackgroundTasks.Request.Normalize
import BackgroundTasks.System.Call

/-!
# The scheduler

A scheduler is its configuration and its registry; everything else is in its surroundings. Its
operations are programs.
-/

namespace BackgroundTasks

/-- A scheduler. -/
structure Scheduler where
  config : Config
  registry : Registry

namespace Scheduler

/-- The description of a request made now, or the failure that the request deserves. -/
def normalize (s : Scheduler) (request : Request) (now : UInt64) : Operation NormalizedRequest :=
  match request.normalize s.registry now s.config with
  | .ok normalized => pure normalized
  | .error fault => throw fault.failure

end Scheduler

/-- Arms a task's wake-up and records its handle, unless the row has it already. -/
def Operation.armAndRecord (row : Row) (delay : Span) : Operation Unit := do
  let handle ← arm row.id delay row.spec.conditions
  if handle ≠ row.platformId then store (.setPlatformId row.id handle)

/--
Arms a task for its next run. A failure is passed over: the task is stored, and the watchdog will
find it once it is due.
-/
def Operation.armForNextRun (row : Row) (now : UInt64) : Operation Unit :=
  ignoringFailure (armAndRecord row (.ofMillis (row.delayFrom now)))

end BackgroundTasks
