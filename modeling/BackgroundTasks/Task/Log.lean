import BackgroundTasks.Task.Row

/-!
# The execution log

One entry for each attempt whose result has arrived, also when the result came too late to count.
-/

namespace BackgroundTasks

/-- How an attempt ended. -/
inductive LogKind where
  | succeeded
  | retryScheduled
  | failedPermanent
  | failedRetriesExhausted
  | payloadUnavailable
deriving DecidableEq, Repr

namespace LogKind

/-- Every kind. -/
def all : List LogKind :=
  [succeeded, retryScheduled, failedPermanent, failedRetriesExhausted, payloadUnavailable]

/-- The name of a kind. -/
def text : LogKind → String
  | succeeded => "succeeded"
  | retryScheduled => "retry_scheduled"
  | failedPermanent => "failed_permanent"
  | failedRetriesExhausted => "failed_retries_exhausted"
  | payloadUnavailable => "payload_unavailable"

/-- A kind in JSON. -/
def toJson (k : LogKind) : Json := .text k.text

/-- The kind that a JSON value names. -/
def ofJson? : Json → Option LogKind := Json.choice? (all.map fun k => (k.text, k))

end LogKind

/-- An entry of the execution log. -/
structure LogEntry where
  taskId : TaskId
  createdMs : UInt64
  kind : LogKind
  attempt : UInt32
  message : Option String
deriving DecidableEq

namespace LogEntry

/-- The names of an entry's fields. -/
def names : List String := ["task_id", "created_at_ms", "result_kind", "attempt_number", "message"]

/-- An entry as members of a record. -/
def members (e : LogEntry) : List (String × Json) :=
  [("task_id", e.taskId.toJson), ("created_at_ms", .word e.createdMs),
    ("result_kind", e.kind.toJson), ("attempt_number", .counter e.attempt),
    ("message", .optional .text e.message)]

/-- An entry in JSON. -/
def toJson (e : LogEntry) : Json := .record e.members

/-- The entry that a JSON value holds. -/
def ofJson? (j : Json) : Option LogEntry := do
  let f ← Json.fields? names j
  some {
    taskId := ← f.required "task_id" TaskId.ofJson?
    createdMs := ← f.required "created_at_ms" Json.word?
    kind := ← f.required "result_kind" LogKind.ofJson?
    attempt := ← f.required "attempt_number" Json.counter?
    message := ← f.optional "message" Json.text? }

end LogEntry

end BackgroundTasks
