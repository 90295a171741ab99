import BackgroundTasks.Saturating
import BackgroundTasks.TaskId
import BackgroundTasks.Task.State
import BackgroundTasks.Task.Spec

/-!
# Task rows

A row is what the store knows about a task: its description, its state, its counters and its times.
The number of attempts doubles as the name of the latest claim, so it is never reset; the number of
retries counts failures since the last fresh start.
-/

namespace BackgroundTasks

namespace TaskId

/-- An id in JSON. -/
def toJson (id : TaskId) : Json := .text id.text

/-- The id that a JSON value spells. -/
def ofJson? (j : Json) : Option TaskId := j.text?.bind ofText?

end TaskId

/-- A persisted task. -/
structure Row where
  id : TaskId
  state : State
  spec : Spec
  nextRunMs : UInt64
  attempts : UInt32
  retries : UInt32
  /-- The handle of the wake-up that the platform holds for the task. -/
  platformId : Option String
  createdMs : UInt64
  updatedMs : UInt64
deriving DecidableEq

namespace Row

/-- The row of a task that was submitted at `now`. -/
def fresh (id : TaskId) (spec : Spec) (nextRunMs now : UInt64) : Row where
  id := id
  state := .enqueued
  spec := spec
  nextRunMs := nextRunMs
  attempts := 0
  retries := 0
  platformId := none
  createdMs := now
  updatedMs := now

/-- How long it still is until the next run. -/
def delayFrom (r : Row) (now : UInt64) : UInt64 := satSub r.nextRunMs now

/-- The names of a row's own fields. -/
def names : List String :=
  ["id", "state", "next_run_time_ms", "run_attempt_count", "retry_count", "platform_id",
    "created_at_ms", "updated_at_ms"]

/-- A row as members of a record: the description stands between the state and the times. -/
def members (r : Row) : List (String × Json) :=
  [("id", r.id.toJson), ("state", r.state.toJson)] ++ r.spec.members
  ++ [("next_run_time_ms", .word r.nextRunMs), ("run_attempt_count", .counter r.attempts),
    ("retry_count", .counter r.retries), ("platform_id", .optional .text r.platformId),
    ("created_at_ms", .word r.createdMs), ("updated_at_ms", .word r.updatedMs)]

/-- A row in JSON: one flat object. -/
def toJson (r : Row) : Json := .record r.members

/--
The row that a JSON value holds, which has `depth` levels to spare. Rows written before retries
were counted have none.
-/
def ofJson? (depth : Nat) (j : Json) : Option Row := do
  let f ← Json.mergedFields? depth names (Spec.names ++ Conditions.names) j
  some {
    id := ← f.required "id" TaskId.ofJson?
    state := ← f.required "state" State.ofJson?
    spec := ← Spec.ofFields? f
    nextRunMs := ← f.required "next_run_time_ms" Json.word?
    attempts := ← f.required "run_attempt_count" Json.counter?
    retries := ← f.defaulted "retry_count" 0 Json.counter?
    platformId := ← f.optional "platform_id" Json.text?
    createdMs := ← f.required "created_at_ms" Json.word?
    updatedMs := ← f.required "updated_at_ms" Json.word? }

end Row

/-- What a listing shows of a task. -/
structure Summary where
  id : TaskId
  payloadTypeId : String
  state : State
  priority : Priority
  recurrence : Recurrence
  attempts : UInt32
  nextRunMs : UInt64
  lastMessage : Option String
deriving DecidableEq

/-- The summary of a row, with the message of its latest log entry. -/
def Row.summary (r : Row) (lastMessage : Option String) : Summary where
  id := r.id
  payloadTypeId := r.spec.payloadTypeId
  state := r.state
  priority := r.spec.priorityClass
  recurrence := r.spec.recurrence
  attempts := r.attempts
  nextRunMs := r.nextRunMs
  lastMessage := lastMessage

namespace Summary

/-- A summary in JSON. -/
def toJson (s : Summary) : Json :=
  .record [("id", s.id.toJson), ("payload_type_id", .text s.payloadTypeId),
    ("state", s.state.toJson), ("priority", s.priority.toJson),
    ("schedule_type", s.recurrence.toJson), ("run_attempt_count", .counter s.attempts),
    ("next_run_time_ms", .word s.nextRunMs), ("last_message", .optional .text s.lastMessage)]

/-- The names of a summary's fields. -/
def names : List String :=
  ["id", "payload_type_id", "state", "priority", "schedule_type", "run_attempt_count",
    "next_run_time_ms", "last_message"]

/-- The summary that a JSON value holds. -/
def ofJson? (j : Json) : Option Summary := do
  let f ← Json.fields? names j
  some {
    id := ← f.required "id" TaskId.ofJson?
    payloadTypeId := ← f.required "payload_type_id" Json.text?
    state := ← f.required "state" State.ofJson?
    priority := ← f.required "priority" Priority.ofJson?
    recurrence := ← f.required "schedule_type" Recurrence.ofJson?
    attempts := ← f.required "run_attempt_count" Json.counter?
    nextRunMs := ← f.required "next_run_time_ms" Json.word?
    lastMessage := ← f.optional "last_message" Json.text? }

end Summary

end BackgroundTasks
