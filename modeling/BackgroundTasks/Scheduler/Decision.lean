import BackgroundTasks.Number.Decimal
import BackgroundTasks.System.Call

/-!
# The decision about a result

When an attempt has ended, its result decides over the task. A success ends a one-time task and
sends a periodic one back to the queue. A permanent failure ends a task at once, a passing one when
no retries are left; otherwise the task goes back to the queue after a delay.

A decision has four faces that have to agree: the update of the row, the log entry, the event, and
what the platform is told.
-/

namespace BackgroundTasks

/-- What is left to do after an attempt. -/
inductive RunOutcome where
  | succeeded
  | failed
  /-- The task is back in the queue and has to be woken after a delay. -/
  | again (id : TaskId) (spec : Spec) (delayMs : UInt64)
deriving DecidableEq

/-- Whether a task has reached its end. -/
def RunOutcome.isTerminal : RunOutcome → Bool
  | succeeded | failed => true
  | again .. => false

/-- What is made of a result, before anything is drawn. -/
inductive Verdict where
  | succeeded
  /-- A periodic task has succeeded and comes back. -/
  | comesBack
  | failed (kind : LogKind) (message : String)
  | retried (baseMs : UInt64) (reason : String)
deriving DecidableEq

namespace Verdict

/-- The reason given for a failure. -/
def reason (e : WorkError) : String := "[" ++ e.category.text ++ "] " ++ e.text

/-- A failure that may pass: it is retried as long as retries are left. -/
def ofTransient (row : Row) (reason : String) (suggested : Option UInt64) : Verdict :=
  if row.spec.maxRetries ≤ row.retries then
    failed .failedRetriesExhausted
      ((WorkError.maxRetriesExceeded row.attempts row.spec.maxRetries).text ++ "; last failure: "
        ++ reason)
  else retried (suggested.getD row.spec.backoffDelayMs) reason

/-- The verdict on the result of a claimed row. -/
def ofResult (row : Row) (now : UInt64) : WorkResult → Verdict
  | .success => if row.spec.isPeriodic then comesBack else succeeded
  | .retry => ofTransient row "retry requested" none
  | .failure .permanent e => failed .failedPermanent (reason e)
  | .failure .transient e => ofTransient row (reason e) (e.suggestedDelay? now)

end Verdict

/-- What is decided about a task after an attempt. -/
structure Decision where
  completion : Completion
  kind : LogKind
  message : String
  event : EventKind
  outcome : RunOutcome
deriving DecidableEq

namespace Decision

/-- A row's task has come to its end. -/
def ended (row : Row) (now : UInt64) (state : State) (kind : LogKind) (message : String)
    (event : EventKind) (outcome : RunOutcome) : Decision where
  completion := ⟨row.attempts, state, none, row.retries, now⟩
  kind := kind
  message := message
  event := event
  outcome := outcome

/-- A row's task has failed for good. -/
def failed (row : Row) (now : UInt64) (kind : LogKind) (message : String) : Decision :=
  ended row now .failed kind message .failed .failed

/-- A row's task has succeeded for good. -/
def succeeded (row : Row) (now : UInt64) : Decision :=
  ended row now .succeeded .succeeded "succeeded" .succeeded .succeeded

/-- A row's task goes back to the queue for a run at `next`. -/
def queued (row : Row) (now next : UInt64) (delayMs : UInt64) (retries : UInt32) (kind : LogKind)
    (message : String) (event : EventKind) : Decision where
  completion := ⟨row.attempts, .enqueued, some next, retries, now⟩
  kind := kind
  message := message
  event := event
  outcome := .again row.id row.spec delayMs

/-- A periodic task has succeeded and runs again at `next`. -/
def comesBack (row : Row) (now next : UInt64) : Decision :=
  let delayMs := next - now
  queued row now next delayMs 0 .succeeded
    ("succeeded; next run in " ++ Number.decimalText delayMs.toNat ++ "ms") .succeeded

/-- The number of the retry that would come next for a row. -/
def nextRetry (row : Row) : UInt32 := row.retries + 1

/-- A row's task is tried again after a delay. -/
def retried (row : Row) (now delayMs : UInt64) (reason : String) : Decision :=
  let retry := nextRetry row
  queued row now (satAdd now delayMs) delayMs retry .retryScheduled
    ("retry " ++ Number.decimalText retry.toNat ++ "/"
      ++ Number.decimalText row.spec.maxRetries.toNat ++ " in "
      ++ Number.decimalText delayMs.toNat ++ "ms after " ++ reason)
    .retryScheduled

/-- The log entry of a decision. -/
def entry (d : Decision) (row : Row) (now : UInt64) : LogEntry :=
  ⟨row.id, now, d.kind, row.attempts, some d.message⟩

end Decision

/-- Carries a verdict out: draws what it needs, delays being cut off at a ceiling. -/
def Verdict.decide (maxBackoffMs : UInt64) (row : Row) (now : UInt64) :
    Verdict → Operation Decision
  | succeeded => pure (.succeeded row now)
  | comesBack => do
    let next ← Operation.ask (.periodicRun now row.spec.intervalMs row.spec.flexMs)
    return .comesBack row now next
  | failed kind message => pure (.failed row now kind message)
  | retried baseMs reason => do
    let backoff := (Backoff.ofSpec row.spec maxBackoffMs).withBase baseMs
    let delayMs ← Operation.ask (.retryDelay backoff (Decision.nextRetry row))
    return .retried row now delayMs reason

end BackgroundTasks
