import BackgroundTasks.Failure
import BackgroundTasks.Task.Log
import BackgroundTasks.Task.Step

/-!
# Calls to a store

Every call is one transaction. What a call asks for is data, and the type of its result follows
from it, so that stores of different kinds can be compared call by call.
-/

namespace BackgroundTasks

/-- What becomes of a row that was to be given a new description. -/
inductive Replacement where
  | replaced
  | notFound
  | running
deriving DecidableEq, Repr

/-- A call to a store. -/
inductive StoreCall where
  /-- Adds a row under a new id. -/
  | insert (row : Row)
  | get (id : TaskId)
  /-- Every row, oldest first. -/
  | list
  /-- The rows in the queue whose time has come, earliest first. -/
  | due (now : UInt64)
  /-- Takes a row from the queue and returns it as claimed, or nothing when it is not there. -/
  | claim (id : TaskId) (now : UInt64)
  /-- Ends a claim and logs it, in one transaction; says whether the row changed. -/
  | complete (id : TaskId) (completion : Completion) (entry : LogEntry)
  /-- Moves a row to `target`, if it is in one of the `origins`; counts the rows moved. -/
  | transition (id : TaskId) (origins : List State) (target : State) (now : UInt64)
  /-- Moves every row it can; returns their ids in order. -/
  | transitionAll (origins : List State) (target : State) (now : UInt64)
  | replaceSpec (id : TaskId) (spec : Spec) (nextRunMs now : UInt64)
  | setPlatformId (id : TaskId) (handle : Option String)
  | appendLog (entry : LogEntry)
  /-- The log of a task, oldest first. -/
  | logs (id : TaskId)
  | lastLog (id : TaskId)

namespace StoreCall

/-- What a call returns. -/
@[reducible] def Result : StoreCall → Type
  | insert _ | setPlatformId .. | appendLog _ => Unit
  | get _ | claim .. => Option Row
  | list | due _ => List Row
  | complete .. => Bool
  | transition .. => Nat
  | transitionAll .. => List TaskId
  | replaceSpec .. => Replacement
  | logs _ => List LogEntry
  | lastLog _ => Option LogEntry

/-- A call returns its result, or fails without having changed anything. -/
abbrev Answer (c : StoreCall) : Type := Except Failure c.Result

/-- Whether a call with this result has changed rows. -/
def changesRows : (c : StoreCall) → c.Result → Bool
  | insert _, _ => true
  | claim .., row => Option.isSome row
  | complete .., applied => applied
  | transition .., (count : Nat) => count != 0
  | transitionAll .., ids => !List.isEmpty ids
  | replaceSpec .., (.replaced : Replacement) => true
  | setPlatformId .., _ => true
  | _, _ => false

end StoreCall

end BackgroundTasks
