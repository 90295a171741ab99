import BackgroundTasks.Scheduler.Basic
import BackgroundTasks.System.Faults

/-!
# Deployments in one world

A deployment is a scheduler together with surroundings that are its own: a store, a platform, a
status board and a supply of random numbers. The world is what outlives deployments and is shared by
all of them: the folder with its files, a sink, the clock and the supply of ids, and a table in
memory for those deployments whose store is not their own.

A deployment finds the world as the others have left it, whenever it acts, and leaves its own
changes to them. So two deployments never disagree about the world, but the table that a store in
files has read stays as it was read, whatever others write into the folder.
-/

namespace BackgroundTasks

/-- What outlives deployments. -/
structure World where
  /-- The folder in which stores keep their files. -/
  place : Place := .absent
  /-- The table in memory that deployments can share. -/
  table : TaskTable := .empty
  sink : Sink
  clock : Clock
  /-- The milliseconds that have passed. -/
  elapsed : Nat := 0
  ids : Nat → TaskId
  issued : Nat := 0

/-- The time. -/
def World.now (w : World) : UInt64 := w.clock.read w.elapsed

/-- A scheduler and its surroundings. -/
structure Deployment where
  scheduler : Scheduler
  /-- The surroundings as the deployment left them. -/
  system : System
  /-- Whether its rows are in the table that deployments share. -/
  sharesTable : Bool := false
  /-- Whether its files are in the folder that deployments share. -/
  sharesPlace : Bool := true
  /-- Whether the sink that deployments share hears of what happens. -/
  sharesSink : Bool := true
  /-- How far planned faults get at it. -/
  reach : FaultReach := {}
  /-- Whether somebody dispatches the tasks that timers wake. -/
  attended : Bool := true
  /-- The tasks that were woken and that nobody has looked at yet. -/
  woken : List TaskId := []

namespace Deployment

/-- The surroundings of a deployment as it finds them. -/
def systemIn (d : Deployment) (w : World) (plan : FaultPlan) : System :=
  { d.system with
    store := if d.sharesTable then .memory w.table else d.system.store
    place := if d.sharesPlace then w.place else d.system.place
    sink := if d.sharesSink then w.sink else d.system.sink
    clock := w.clock
    elapsed := w.elapsed
    ids := w.ids
    issued := w.issued
    faults := plan.fault? d.reach }

/-- The world as a deployment leaves it. -/
def leave (d : Deployment) (w : World) (s : System) : World :=
  { w with
    table := if d.sharesTable then s.table else w.table
    place := if d.sharesPlace then s.place else w.place
    sink := if d.sharesSink then s.sink else w.sink
    issued := s.issued }

/-- The timers of the platform, if it has any. -/
def timers (d : Deployment) : Timers := d.system.platform.timers?.getD {}

end Deployment

end BackgroundTasks
