import BackgroundTasks.TaskId
import BackgroundTasks.Work.Error

/-!
# What comes out of work

A work unit is handed an attempt and comes back in one of three ways: with a result of its own
choosing, with a raised error, or by breaking down. The last two are turned into results, so that
the decision about the task looks at results alone.
-/

namespace BackgroundTasks

/-- Whether a failure may pass. -/
inductive FailureKind where
  | transient
  | permanent
deriving DecidableEq, Repr

namespace FailureKind

/-- The name of a kind of failure. -/
def text : FailureKind → String
  | transient => "transient"
  | permanent => "permanent"

/-- A kind of failure in JSON. -/
def toJson (k : FailureKind) : Json := .text k.text

/-- The kind of failure that a JSON value names. -/
def ofJson? : Json → Option FailureKind :=
  Json.choice? ([transient, permanent].map fun k => (k.text, k))

end FailureKind

/-- The result of a work unit. -/
inductive WorkResult where
  | success
  | retry
  | failure (kind : FailureKind) (error : WorkError)
deriving DecidableEq, Repr

/-- How a work unit came to its end. -/
inductive WorkEnding where
  | returned (result : WorkResult)
  | raised (error : WorkError)
  /-- The unit broke down, with a text if it left one. -/
  | brokeDown (text : Option String)
deriving DecidableEq, Repr

/-- What a work unit is told about the attempt it is. -/
structure Attempt where
  taskId : TaskId
  number : UInt32
  retries : UInt32
  maxRetries : UInt32
deriving DecidableEq

/-- Whether a failure of this attempt would be tried again. -/
def Attempt.hasRetriesLeft (a : Attempt) : Bool := a.retries < a.maxRetries

/-- A raised error is a failure of the kind that fits it. -/
def WorkResult.ofError (e : WorkError) : WorkResult :=
  .failure (if e.isRetryable then .transient else .permanent) e

/-- The result that an ending amounts to; a breakdown may pass. -/
def WorkEnding.result : WorkEnding → WorkResult
  | returned result => result
  | raised error => .ofError error
  | brokeDown text =>
    .failure .transient (.other ("work unit panicked: " ++ text.getD "non-string panic payload"))

end BackgroundTasks
