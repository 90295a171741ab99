import BackgroundTasks.Setup
import BackgroundTasks.Timeline.Basic

/-!
# Restarting

A deployment may be given up at any point, and another one takes its place. Its watchdog is called
off and its timers wake nobody any more; but what has been begun goes on to its end, on the
platform, on the status board and in the memory that it was begun with. What both share is the
world.
-/

namespace BackgroundTasks

/-- What a deployment starts with. -/
structure Launch where
  setup : Setup
  platform : Platform
  draws : Draws
  /-- Whether rows in memory are in the table that deployments share. -/
  sharesTable : Bool := false
  /-- The folder, if it is not the one that deployments share. -/
  place : Option Place := none
  /-- Whether the sink that deployments share hears of what happens. -/
  sharesSink : Bool := true
  reach : FaultReach := {}
  /-- Whether somebody dispatches the tasks that timers wake. -/
  attended : Bool := true

/-- The deployment that begins in a world with a store that was opened in a folder. -/
def Launch.deployment (l : Launch) (w : World) (scheduler : Scheduler) (store : Store)
    (place : Place) : Deployment where
  scheduler := scheduler
  system := {
    store
    place
    platform := l.platform
    sink := .silent
    clock := w.clock
    draws := l.draws
    ids := w.ids }
  sharesTable := l.sharesTable && store matches .memory _
  sharesPlace := l.place.isNone
  sharesSink := l.sharesSink
  reach := l.reach
  attended := l.attended

namespace Timeline

/-- Gives up the deployment in front. -/
def giveUp (t : Timeline) : Timeline :=
  match t.inFront? with
  | some (k, d) =>
    { t.update k { d with attended := false, woken := [] } with front := none, watch := none }
  | none => t

/--
Gives up the deployment in front and starts another. If that cannot be put together, there is no
deployment in front afterwards.
-/
def restart (t : Timeline) (l : Launch) : Except Failure Unit × Timeline :=
  let t := t.giveUp
  let (built, place) := l.setup.build (l.place.getD t.world.place)
  let t := if l.place.isNone then { t with world := { t.world with place } } else t
  match built with
  | .ok (scheduler, store) =>
    (.ok (), { t with
      deployments := t.deployments ++ [l.deployment t.world scheduler store place]
      front := some t.deployments.length })
  | .error failure => (.error failure, t)

end Timeline

end BackgroundTasks
