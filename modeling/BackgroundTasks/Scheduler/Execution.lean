import BackgroundTasks.Scheduler.Basic
import BackgroundTasks.Scheduler.Decision

/-!
# Execution

One cycle of execution: a row is claimed, its payload is handed to its worker, the result is
decided upon, and the completion is stored. The claim and the completion are two transactions, with
the work between them; the completion names its claim, so a result that comes too late changes
nothing but the log.

A cycle ends without an outcome when the claim or the completion found the row taken. Errors of the
worker never come out of it. A payload that cannot be restored fails its task, and the cycle with
it.
-/

namespace BackgroundTasks.Scheduler

open Operation

/-- What a worker is told about the attempt on a claimed row. -/
def attemptOn (row : Row) : Attempt := ⟨row.id, row.attempts, row.retries, row.spec.maxRetries⟩

/-- Stores what was decided about a claimed row; says whether it still counted. -/
def complete (row : Row) (decision : Decision) (now : UInt64) : Operation Bool := do
  let applied : Bool ← store (.complete row.id decision.completion (decision.entry row now))
  if applied then
    publishStatus row.id
    notify decision.event row.id (some row.attempts) (some decision.message)
  return applied

/-- Fails a claimed row whose payload cannot be restored. -/
def failUnavailable (row : Row) (fault : PayloadFault) : Operation (Option RunOutcome) := do
  let now ← now
  let _ ← complete row (.failed row now .payloadUnavailable fault.message) now
  throw (.payload fault)

/-- Hands a claimed row's payload to its worker and stores what comes of it. -/
def runClaimed (s : Scheduler) (row : Row) (payload : Payload) : Operation (Option RunOutcome) := do
  let ending ← ask (.work payload (attemptOn row))
  let now ← now
  let verdict := Verdict.ofResult row now (WorkEnding.result ending)
  let decision ← verdict.decide s.config.maxBackoffMs row now
  let applied ← complete row decision now
  return if applied then some decision.outcome else none

/-- Runs one cycle for a task. -/
def execute (s : Scheduler) (id : TaskId) : Operation (Option RunOutcome) := do
  let claimed : Option Row ← store (.claim id (← now))
  match claimed with
  | none => return none
  | some row =>
    publishStatus id
    notify .started id (some row.attempts) none
    match s.registry.instantiate row.spec.payloadTypeId row.spec.payloadData with
    | .error fault => failUnavailable row fault
    | .ok payload => s.runClaimed row payload

/-- Tells the platform what an outcome asks for. Failing to arm is left to the watchdog. -/
def follow (id : TaskId) : RunOutcome → Operation Unit
  | .again next spec delayMs => do
    let handle ← orElse (some <$> arm next (.ofMillis delayMs) spec.conditions) none
    match handle with
    | some handle => store (.setPlatformId next handle)
    | none => pure ()
  | _ => ignoringFailure (disarm id)

/-- Runs one cycle for a task that has been woken, and arms or disarms it as the outcome asks. -/
def dispatch (s : Scheduler) (id : TaskId) : Operation (Option RunOutcome) := do
  let outcome ← s.execute id
  match outcome with
  | some o => follow id o
  | none => pure ()
  return outcome

end BackgroundTasks.Scheduler
