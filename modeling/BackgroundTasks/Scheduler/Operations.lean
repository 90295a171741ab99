import BackgroundTasks.Scheduler.Basic

/-!
# Operations for callers

Submitting, cancelling, rescheduling, listing and observing tasks. A request is checked before
anything is stored, and a failure of the platform never fails a call: what is stored is found again
by the watchdog.
-/

namespace BackgroundTasks.Scheduler

open Operation

/-- Stores a new task and arms its first wake-up. -/
def submit (s : Scheduler) (request : Request) : Operation TaskId := do
  let now ← now
  let normalized ← s.normalize request now
  let row := Row.fresh (← ask .newId) normalized.spec normalized.nextRunMs now
  store (.insert row)
  publishStatus row.id
  notify .scheduled row.id none none
  armForNextRun row now
  return row.id

/-- What follows from the cancellation of a task. -/
def afterCancel (id : TaskId) : Operation Unit := do
  ignoringFailure (disarm id)
  publishStatus id
  notify .cancelled id none none

/--
Cancels a task; says whether it was still to be cancelled. Work under way is not interrupted, but
its result will be discarded.
-/
def cancel (id : TaskId) : Operation Bool := do
  let found : Option Row ← store (.get id)
  if found.isNone then throw (.notFound id)
  let moved : Nat ← store (.transition id State.cancellable .cancelled (← now))
  if moved = 0 then return false
  afterCancel id
  return true

/-- Cancels every task that is not at its end; counts them. -/
def cancelAll : Operation Nat := do
  let ids : List TaskId ← store (.transitionAll State.cancellable .cancelled (← now))
  ids.forM afterCancel
  return ids.length

/-- The state of a task, if there is one. -/
def status (id : TaskId) : Operation (Option State) := do
  let row : Option Row ← store (.get id)
  return row.map Row.state

/-- The order of listings: higher priority first, then earlier runs, then older tasks. -/
def listedBefore (a b : Row) : Bool :=
  if a.spec.priority ≠ b.spec.priority then b.spec.priority < a.spec.priority
  else if a.nextRunMs ≠ b.nextRunMs then a.nextRunMs < b.nextRunMs
  else a.createdMs ≤ b.createdMs

/-- The summary of a row with the message of its latest log entry. -/
def summarize (row : Row) : Operation Summary := do
  let last : Option LogEntry ← store (.lastLog row.id)
  return row.summary (last.bind LogEntry.message)

/-- The summaries of all tasks; among equals, smaller ids come first. -/
def list : Operation (List Summary) := do
  let rows : List Row ← store .list
  (rows.mergeSort listedBefore).mapM summarize

/-- Gives a task a new description under its old id, and arms it anew. -/
def reschedule (s : Scheduler) (id : TaskId) (request : Request) : Operation TaskId := do
  let now ← now
  let normalized ← s.normalize request now
  let outcome : Replacement ← store (.replaceSpec id normalized.spec normalized.nextRunMs now)
  match outcome with
  | .notFound => throw (.notFound id)
  | .running => throw (.running id)
  | .replaced => pure ()
  let row : Option Row ← store (.get id)
  match row with
  | none => throw (.notFound id)
  | some row =>
    publishStatus id
    notify .rescheduled id none none
    armForNextRun row now
    return id

/-- Subscribes to a task's states; the first one shown is no older than the call. -/
def observe (id : TaskId) : Operation Nat := do
  let row : Option Row ← store (.get id)
  match row with
  | none => throw (.notFound id)
  | some row =>
    let key : Nat ← ask (.subscribe id row.state)
    tryCatch (refresh id) fun failure => do
      ask (.unsubscribe key)
      throw failure
    return key

/-- The log of a task, oldest first. -/
def executionLog (id : TaskId) : Operation (List LogEntry) := store (.logs id)

end BackgroundTasks.Scheduler
