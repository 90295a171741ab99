import BackgroundTasks.Clock
import BackgroundTasks.Platform.Basic
import BackgroundTasks.StatusBoard
import BackgroundTasks.Store.Files
import BackgroundTasks.System.Call

/-!
# The system

The surroundings of a scheduler as one state, and what each call does to it. Any call to the store
or the platform can be made to fail or to break down; a call that breaks down never returns.

Work is not done here: whoever runs an operation decides how an attempt ends.
-/

namespace BackgroundTasks

/-- Where the rows are. -/
inductive Store where
  | memory (table : TaskTable)
  /-- The table that a store in files goes by; the files are in the system's folder. -/
  | files (table : TaskTable)

/-- The table that a store answers from. -/
def Store.table : Store → TaskTable
  | memory t => t
  | files t => t

/-- How a call goes wrong. -/
inductive CallFault where
  /-- It fails at once, in these words. -/
  | reports (text : String)
  /-- It breaks down before it does anything. -/
  | breaksDown
  /-- Arming works, but the handle is lost. -/
  | losesHandle
  /-- Arming works, and then breaks down. -/
  | breaksDownArmed
deriving DecidableEq, Repr

/-- The surroundings of a scheduler. -/
structure System where
  store : Store
  /-- The folder of a store in files. -/
  place : Place := .absent
  platform : Platform
  board : StatusBoard := {}
  sink : Sink
  clock : Clock
  /-- The milliseconds that have passed in the process. -/
  elapsed : Nat := 0
  draws : Draws
  /-- The ids that are given out, one after the other. -/
  ids : Nat → TaskId
  issued : Nat := 0
  faults : Call → Option CallFault := fun _ => none

namespace System

/-- The rows and the log. -/
def table (s : System) : TaskTable := s.store.table

/-- The time. -/
def now (s : System) : UInt64 := s.clock.read s.elapsed

/-- What the store answers. -/
def answerStore (c : StoreCall) (s : System) : c.Answer × System :=
  match s.store with
  | .memory t =>
    let (r, t) := t.answer c
    (r, { s with store := .memory t })
  | .files t =>
    let ((r, t), place) := (FileStore.answer t c).eval Place.answer s.place
    (r, { s with store := .files t, place })

/-- What the store answers, unless the call goes wrong. -/
def askStore (c : StoreCall) (s : System) : Option c.Answer × System :=
  match s.faults (.store c) with
  | none => ((s.answerStore c).map some id)
  | some (.reports text) => (some (.error (.store (.reported text))), s)
  | some _ => (none, s)

/-- What a call to the platform answers, unless it goes wrong. -/
def askPlatform {α : Type} (c : Call) (answer : Platform → α × Platform) (s : System) :
    Option (Except Failure α) × System :=
  match s.faults c with
  | some (.reports text) => (some (.error (.platform text)), s)
  | some .breaksDown => (none, s)
  | _ =>
    let (a, platform) := answer s.platform
    (some (.ok a), { s with platform })

/-- What becomes of the handle of a wake-up that was armed. -/
def handOver (fault : Option CallFault) (handle : Except Failure String) :
    Option (Except Failure (Option String)) :=
  match fault with
  | some .losesHandle => some (handle.map fun _ => none)
  | some .breaksDownArmed => none
  | _ => some (handle.map some)

/-- What a call returns, unless it breaks down, and what it does to the system. -/
def answer : (c : Call) → System → Option c.Answer × System
  | .store c, s => s.askStore c
  | .readStatus id, s =>
    let (r, s) := s.askStore (.get id)
    (r.map (Except.map fun row : Option Row => row.map Row.state), s)
  | .publish id state, s => (some (), { s with board := s.board.publish id state })
  | .subscribe id current, s =>
    let (key, board) := s.board.subscribe id (some current)
    (some key, { s with board })
  | .unsubscribe key, s => (some (), { s with board := s.board.unsubscribe key })
  | .arm id delay conditions, s =>
    let c := Call.arm id delay conditions
    let (handle, next) := s.askPlatform c fun p => p.arm s.elapsed id delay conditions
    (handle.bind (handOver (s.faults c)), next)
  | .disarm id, s => s.askPlatform (.disarm id) fun p => ((), p.disarm id)
  | .isArmed id, s => s.askPlatform (.isArmed id) fun p => (p.isArmed id, p)
  | .now, s => (some s.now, s)
  | .newId, s => (some (s.ids s.issued), { s with issued := s.issued + 1 })
  | .retryDelay backoff retry, s =>
    match backoff.delay retry s.draws with
    | some (delay, draws) => (some delay, { s with draws })
    | none => (none, s)
  | .periodicRun now interval flex, s =>
    let (next, draws) := nextPeriodicRun now interval flex s.draws
    (some next, { s with draws })
  | .work _ _, s => (some (.returned .success), s)
  | .emit e, s => (some (), { s with sink := s.sink.emit e })

end System

end BackgroundTasks
