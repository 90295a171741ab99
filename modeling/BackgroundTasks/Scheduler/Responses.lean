import BackgroundTasks.Request.Submission
import BackgroundTasks.Scheduler.Decision
import BackgroundTasks.Scheduler.Operations

/-!
# Responses

What a scheduler answers over the wire: the state of a task with the reason for a bad end, what a
cycle of execution has come to, and its own health.
-/

namespace BackgroundTasks

/-- The state of a task as it is told over the wire. -/
structure StatusResponse where
  taskId : TaskId
  /-- None if there is no such task. -/
  status : Option State
  /-- The latest message in the log of a task that has failed or was cancelled. -/
  reason : Option String
deriving DecidableEq

namespace StatusResponse

/-- A response in JSON. -/
def toJson (r : StatusResponse) : Json :=
  .record [("task_id", r.taskId.toJson), ("status", .optional State.toJson r.status),
    ("reason", .optional .text r.reason)]

/-- The response that a JSON value holds. -/
def ofJson? (j : Json) : Option StatusResponse := do
  let f ← Json.fields? ["task_id", "status", "reason"] j
  some {
    taskId := ← f.required "task_id" TaskId.ofJson?
    status := ← f.optional "status" State.ofJson?
    reason := ← f.optional "reason" Json.text? }

end StatusResponse

namespace RunOutcome

/-- The name of an outcome. -/
def text : RunOutcome → String
  | succeeded => "terminal_success"
  | failed => "terminal_failure"
  | again .. => "schedule_next"

/-- What is told of the next run: its task, its delay in seconds and nanoseconds, its payload. -/
def nextMembers : RunOutcome → List (String × Json)
  | succeeded | failed => []
  | again id spec delayMs =>
    let delay := Span.ofMillis delayMs
    [("task", id.toJson), ("delay", .array [.nat delay.seconds, .nat delay.subsecond]),
      ("payload", .array [.text spec.payloadTypeId, .text spec.payloadData]),
      ("preconditions", spec.conditions.toJson)]

/-- An outcome in JSON. -/
def toJson (o : RunOutcome) : Json :=
  .record ([("outcome", .text o.text), ("terminal", .bool o.isTerminal)] ++ o.nextMembers)

end RunOutcome

/-- The health of a scheduler. -/
structure Health where
  ok : Bool
  payloadTypes : List String
deriving DecidableEq

namespace Health

/-- A health report in JSON. -/
def toJson (h : Health) : Json :=
  .record [("ok", .bool h.ok), ("payload_types", .array (h.payloadTypes.map Json.text))]

/-- The health report that a JSON value holds. -/
def ofJson? (j : Json) : Option Health := do
  let f ← Json.fields? ["ok", "payload_types"] j
  some {
    ok := ← f.required "ok" Json.bool?
    payloadTypes := ← f.required "payload_types" (Json.list? Json.text?) }

end Health

namespace Scheduler

open Operation

/-- Whether the reason for a state is told. -/
def tellsReason : Option State → Bool
  | some .failed | some .cancelled => true
  | _ => false

/-- The state of a task with the reason for a bad end. -/
def taskStatus (id : TaskId) : Operation StatusResponse := do
  let state ← status id
  if tellsReason state then
    let entries : List LogEntry ← executionLog id
    return ⟨id, state, entries.getLast?.bind LogEntry.message⟩
  else return ⟨id, state, none⟩

/-- Submits what came over the wire and tells the state of the new task. -/
def submitTask (s : Scheduler) (submission : Submission) : Operation StatusResponse := do
  taskStatus (← s.submit submission.toRequest)

/-- The health of a scheduler. -/
def health (s : Scheduler) : Health := ⟨true, s.registry.typeIds⟩

end Scheduler

end BackgroundTasks
