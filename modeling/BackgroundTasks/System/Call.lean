import BackgroundTasks.Backoff
import BackgroundTasks.Payload.Schema
import BackgroundTasks.Program
import BackgroundTasks.Store.Call
import BackgroundTasks.Telemetry
import BackgroundTasks.Work.Result

/-!
# Calls to the surroundings

Everything that an operation of the scheduler does is a call: to the store, to the status board, to
the platform, to the clock, to the generators of ids and of random numbers, to a worker, or to the
telemetry sink. Each is one step; between any two of them other operations may make theirs.
-/

namespace BackgroundTasks

/-- A call to the surroundings. -/
inductive Call where
  | store (c : StoreCall)
  /--
  Reads a task's state in order to publish it. From this read to the publication no other operation
  reads in order to publish, so states are published in the order in which they were read.
  -/
  | readStatus (id : TaskId)
  | publish (id : TaskId) (state : State)
  | subscribe (id : TaskId) (current : State)
  | unsubscribe (key : Nat)
  | arm (id : TaskId) (delay : Span) (conditions : Conditions)
  | disarm (id : TaskId)
  | isArmed (id : TaskId)
  | now
  | newId
  /-- Draws the delay before a retry; does not return when the draw is impossible. -/
  | retryDelay (backoff : Backoff) (retry : UInt32)
  /-- Draws the next run of a periodic task. -/
  | periodicRun (now interval flex : UInt64)
  /-- Hands a payload to its worker and waits for the end of the attempt. -/
  | work (payload : Payload) (attempt : Attempt)
  | emit (e : Event)

namespace Call

/-- What a call returns. -/
@[reducible] def Answer : Call → Type
  | store c => c.Answer
  | readStatus _ => Except Failure (Option State)
  | subscribe .. => Nat
  | arm .. => Except Failure (Option String)
  | disarm _ => Except Failure Unit
  | isArmed _ => Except Failure Bool
  | now | retryDelay .. | periodicRun .. => UInt64
  | newId => TaskId
  | work .. => WorkEnding
  | publish .. | unsubscribe _ | emit _ => Unit

/-- Programs that deal with the surroundings. -/
abbrev signature : Signature := ⟨Call, Answer⟩

end Call

/-- An operation: a program that deals with the surroundings and may fail. -/
abbrev Operation (α : Type) : Type := ExceptT Failure (Program Call.signature) α

namespace Operation

/-- Makes a call that always has an answer. -/
def ask (c : Call) : Operation c.Answer := Program.call c fun r => .done (.ok r)

/-- Makes a call to the store. -/
def store (c : StoreCall) : Operation c.Result := Program.call (.store c) Program.done

/-- Asks the platform for a wake-up; returns its handle, if the platform has handles. -/
def arm (id : TaskId) (delay : Span) (conditions : Conditions) : Operation (Option String) :=
  Program.call (.arm id delay conditions) Program.done

/-- Drops a task's wake-up. -/
def disarm (id : TaskId) : Operation Unit := Program.call (.disarm id) Program.done

/-- Asks the platform whether a task is going to be woken. -/
def isArmed (id : TaskId) : Operation Bool := Program.call (.isArmed id) Program.done

/-- The time. -/
def now : Operation UInt64 := ask .now

/-- Goes on after a failure as if there had been none. -/
def ignoringFailure {α : Type} (op : Operation α) : Operation Unit :=
  Program.bind op fun _ => .done (.ok ())

/-- Goes on after a failure with a value in place of the result. -/
def orElse {α : Type} (op : Operation α) (default : α) : Operation α :=
  Program.bind op fun
    | .ok a => .done (.ok a)
    | .error _ => .done (.ok default)

/-- Tells the sink that something has happened. -/
def emit (e : Event) : Operation Unit := ask (.emit e)

/-- Tells the sink what has happened to a task just now. -/
def notify (kind : EventKind) (id : TaskId) (attempt : Option UInt32) (detail : Option String) :
    Operation Unit := do
  emit ⟨kind, some id, attempt, ← now, detail⟩

/-- Publishes a task's state as the store has it. -/
def refresh (id : TaskId) : Operation Unit :=
  Program.call (.readStatus id) fun
    | .ok (some state) => .call (.publish id state) fun _ => .done (.ok ())
    | .ok none => .done (.ok ())
    | .error failure => .done (.error failure)

/-- Publishes a task's state, if it can be read. -/
def publishStatus (id : TaskId) : Operation Unit := ignoringFailure (refresh id)

end Operation

end BackgroundTasks
