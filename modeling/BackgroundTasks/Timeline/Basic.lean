import BackgroundTasks.Scheduler.Execution
import BackgroundTasks.Scheduler.Watchdog
import BackgroundTasks.Timeline.Script
import BackgroundTasks.Timeline.World

/-!
# Timelines

Deployments at work on one line of time. Time is counted in milliseconds and passes only while
somebody in the foreground waits. An errand that has to wait has an appointment; when its time has
come it gets in line, and errands in line are done one after the other, at once and without time
passing. Of several appointments at the same time the one that was made first goes first.

The foreground goes before everybody: when its own wait is over, the errands that got in line at
that very time stay there until the foreground waits again.

Programs run without a break between the points at which they wait, and nothing but a work unit ever
waits. An operation in the background that breaks down is gone without a trace; a watchdog outlives
its ticks.
-/

namespace BackgroundTasks

/-- Something to do in the background. -/
inductive Errand where
  /-- A timer that was armed begins to wait. -/
  | beginTimer (generation : UInt64)
  /-- The wait of a timer is over. -/
  | endTimer (generation : UInt64)
  /-- Whoever dispatches woken tasks looks for them. -/
  | attend
  /-- The cycle of a task that was woken. -/
  | dispatch (id : TaskId)
  /-- What is left of a program whose work unit has some waits before it and then ends. -/
  | resume (waits : List Nat) (rest : Program Call.signature Unit)
  /-- A tick of a watchdog. -/
  | tick (watch : Nat)

/-- An errand of a deployment. -/
structure Duty where
  deployment : Nat
  errand : Errand

/-- A duty and its time. -/
structure Appointment where
  due : Nat
  duty : Duty

/-- Deployments at work. -/
structure Timeline where
  world : World
  plan : FaultPlan := {}
  deployments : List Deployment := []
  /-- The number of the deployment that new operations are for. -/
  front : Option Nat := none
  script : Script := {}
  /-- The attempts that have been started, in order. -/
  started : List (Payload × Attempt) := []
  /-- Who is in line. -/
  line : List Duty := []
  /-- Who waits, in the order in which the appointments were made. -/
  agenda : List Appointment := []
  /-- The watchdog that is out. -/
  watch : Option Nat := none
  nextWatch : Nat := 0

namespace Timeline

/-- The time that has passed. -/
def elapsed (t : Timeline) : Nat := t.world.elapsed

/-- The deployment of a number. -/
def deployment? (t : Timeline) (k : Nat) : Option Deployment := t.deployments[k]?

/-- The deployment in front, with its number. -/
def inFront? (t : Timeline) : Option (Nat × Deployment) :=
  t.front.bind fun k => (t.deployment? k).map fun d => (k, d)

/-- Has other faults planned from now on, for every deployment. -/
def setPlan (t : Timeline) (plan : FaultPlan) : Timeline :=
  { t with plan, world := { t.world with sink := plan.tamper t.world.sink } }

/-- Gets an errand in line. -/
def enqueue (t : Timeline) (k : Nat) (e : Errand) : Timeline :=
  { t with line := t.line ++ [⟨k, e⟩] }

/-- Makes an appointment in some milliseconds. -/
def appoint (t : Timeline) (k : Nat) (ms : Nat) (e : Errand) : Timeline :=
  { t with agenda := t.agenda ++ [⟨t.elapsed + ms, k, e⟩] }

/-- Puts a deployment in the place of the one of its number. -/
def update (t : Timeline) (k : Nat) (d : Deployment) : Timeline :=
  { t with deployments := t.deployments.set k d }

/-- Lets a deployment act on its surroundings. Timers that it arms get in line to begin. -/
def act {α : Type} (t : Timeline) (k : Nat) (d : Deployment) (f : System → α × System) :
    α × Timeline :=
  let (a, system) := f (d.systemIn t.world t.plan)
  let t := { t.update k { d with system } with world := d.leave t.world system }
  let armed := system.platform.armedSince d.system.platform
  (a, armed.foldl (fun t generation => t.enqueue k (.beginTimer generation)) t)

/--
What a call of a deployment returns, unless it breaks down. Nobody answers when there is none.
-/
def answer (k : Nat) (c : Call) (t : Timeline) : Option c.Answer × Timeline :=
  match t.deployment? k with
  | some d => t.act k d (System.answer c)
  | none => (none, t)

/-- Notes that an attempt has started. -/
def noteStart (t : Timeline) (payload : Payload) (attempt : Attempt) : Timeline :=
  { t with started := t.started ++ [(payload, attempt)] }

/-- Starts an attempt that goes by the script. -/
def beginScripted (t : Timeline) (payload : Payload) (attempt : Attempt) : Behaviour × Timeline :=
  let (behaviour, script) := t.script.next payload
  (behaviour, { t.noteStart payload attempt with script })

/-! ## In the background -/

/-- Runs a program in the background, up to where it waits for a work unit or ends. -/
def background (k : Nat) : Program Call.signature Unit → Timeline → Timeline
  | .done (), t => t
  | .call (.work payload attempt) resume, t =>
    let (behaviour, t) := t.beginScripted payload attempt
    match behaviour.waits.dropWhile (· == 0) with
    | [] => background k (resume behaviour.ending) t
    | ms :: waits => t.appoint k ms (.resume waits (resume behaviour.ending))
  | .call c resume, t =>
    match t.answer k c with
    | (some r, t) => background k (resume r) t
    | (none, t) => t

/-- Goes on with a program whose work unit has come to the end of one of its waits. -/
def resume (t : Timeline) (k : Nat) (waits : List Nat) (rest : Program Call.signature Unit) :
    Timeline :=
  match waits.dropWhile (· == 0) with
  | [] => background k rest t
  | ms :: waits => t.appoint k ms (.resume waits rest)

/-- The report of a tick that has broken down. -/
def breakdownReport : String := "watchdog tick panicked"

/-- The program that follows on a tick: nothing, or the report of what went wrong. -/
def tickReport : Program.Outcome Call.signature (Except Failure Nat) → Operation Unit
  | .finished (.ok _) => pure ()
  | .finished (.error failure) => Scheduler.reportTick failure.message
  | .aborted _ => Scheduler.reportTick breakdownReport

/-- One tick of the watchdog, which then waits for the next. -/
def tick (t : Timeline) (k : Nat) (d : Deployment) (watch : Nat) : Timeline :=
  if t.watch = some watch then
    let (outcome, t) := Program.run (answer k) Scheduler.tick t
    let t := background k ((fun _ => ()) <$> (tickReport outcome).run) t
    t.appoint k d.scheduler.config.watchdogIntervalMs.toNat (.tick watch)
  else t

/-- Ends the wait of a timer. A task that it wakes is there for whoever dispatches it. -/
def endTimer (t : Timeline) (k : Nat) (d : Deployment) (s : Sleeper) : Timeline :=
  let (sent, timers) := d.timers.wake s
  let d := { d with system := { d.system with platform := .timers timers } }
  match sent with
  | some id =>
    if !d.attended then t.update k d
    else
      let t := t.update k { d with woken := d.woken ++ [id] }
      if d.woken.isEmpty then t.enqueue k .attend else t
  | none => t.update k d

/-- Begins the wait of a timer; there is none if its time has come. -/
def beginTimer (t : Timeline) (k : Nat) (d : Deployment) (s : Sleeper) : Timeline :=
  if s.dueMs ≤ t.elapsed then t.endTimer k d s
  else { t with agenda := t.agenda ++ [⟨s.dueMs, k, .endTimer s.generation⟩] }

/-- Gets the cycles of all woken tasks in line. -/
def attend (t : Timeline) (k : Nat) (d : Deployment) : Timeline :=
  d.woken.foldl (fun t id => t.enqueue k (.dispatch id)) (t.update k { d with woken := [] })

/-- Does an errand of a deployment. -/
def runErrand (t : Timeline) (k : Nat) (d : Deployment) : Errand → Timeline
  | .beginTimer generation => ((d.timers.find? generation).map (t.beginTimer k d)).getD t
  | .endTimer generation => ((d.timers.find? generation).map (t.endTimer k d)).getD t
  | .attend => t.attend k d
  | .dispatch id => background k ((fun _ => ()) <$> (d.scheduler.dispatch id).run) t
  | .resume waits rest => t.resume k waits rest
  | .tick watch => t.tick k d watch

/-- Does a duty, if its deployment is there. -/
def runDuty (t : Timeline) (duty : Duty) : Timeline :=
  ((t.deployment? duty.deployment).map fun d => t.runErrand duty.deployment d duty.errand).getD t

/-! ## Waiting in the foreground -/

/-- When the next appointment is due. -/
def nextDue? (t : Timeline) : Option Nat := (t.agenda.map Appointment.due).min?

/-- Lets time pass up to a target, and everybody get in line whose time has then come. -/
def reach (t : Timeline) (target : Nat) : Timeline :=
  let (come, agenda) := t.agenda.partition fun a => a.due ≤ target
  { t with
    world := { t.world with elapsed := max t.elapsed target }
    line := t.line ++ come.map Appointment.duty
    agenda }

/-- Lets everybody in line go ahead, and who gets in line meanwhile, but at most `limit` in all. -/
def drain : Nat → Timeline → Timeline
  | 0, t => t
  | limit + 1, t =>
    match t.line with
    | duty :: line => drain limit ({ t with line }.runDuty duty)
    | [] => t

/-- Waits until a target, while at most `limit` things happen. -/
def waitUntil (target : Nat) : Nat → Timeline → Timeline
  | 0, t => t.reach target
  | limit + 1, t =>
    match t.line, t.nextDue? with
    | duty :: line, _ => waitUntil target limit ({ t with line }.runDuty duty)
    | [], some due =>
      if due < target then waitUntil target limit (t.reach due) else t.reach target
    | [], none => t.reach target

/-- More than this can only happen when a task keeps coming back without delay. -/
def limit : Nat := 1000000

/-- Waits for some milliseconds; without any, there is no wait. -/
def wait (t : Timeline) (ms : Nat) : Timeline :=
  if ms = 0 then t else waitUntil (t.elapsed + ms) limit t

/-- Waits for some milliseconds, and then until nobody is in line. -/
def sleep (t : Timeline) (ms : Nat) : Timeline := drain limit (t.wait ms)

/-- Waits for a work unit that behaves in the given way. -/
def await (t : Timeline) (behaviour : Behaviour) : WorkEnding × Timeline :=
  (behaviour.ending, behaviour.waits.foldl wait t)

/-! ## Operations in the foreground -/

/-- What a call in the foreground returns. A work unit goes by the script and is waited for. -/
def answerInFront (k : Nat) : (c : Call) → Timeline → Option c.Answer × Timeline
  | .work payload attempt, t =>
    let (behaviour, t) := t.beginScripted payload attempt
    let (ending, t) := t.await behaviour
    (some ending, t)
  | c, t => t.answer k c

/-- Runs a program of a deployment in the foreground; it may break down. -/
def perform {α : Type} (k : Nat) (program : Program Call.signature α) (t : Timeline) :
    Option α × Timeline :=
  match Program.run (answerInFront k) program t with
  | (.finished a, t) => (some a, t)
  | (.aborted _, t) => (none, t)

/-- A program in the foreground that has come to its first work unit, or has ended before. -/
inductive Progress (α : Type) where
  | ended (result : Option α)
  | working (resume : WorkEnding → Program Call.signature α)

/-- Runs a program in the foreground up to its first work unit, which is started. -/
def start {α : Type} (k : Nat) : Program Call.signature α → Timeline → Progress α × Timeline
  | .done a, t => (.ended (some a), t)
  | .call (.work payload attempt) resume, t => (.working resume, t.noteStart payload attempt)
  | .call c resume, t =>
    match t.answer k c with
    | (some r, t) => start k (resume r) t
    | (none, t) => (.ended none, t)

/-! ## The watchdog -/

/-- Sends a watchdog out in place of the one that is; says whether the configuration wants one. -/
def startWatch (t : Timeline) (k : Nat) (config : Config) : Bool × Timeline :=
  if config.watchdogIntervalMs = 0 then (false, { t with watch := none })
  else
    (true, { t with watch := some t.nextWatch, nextWatch := t.nextWatch + 1 }.enqueue k
      (.tick t.nextWatch))

/-- Calls the watchdog off; says whether one was out. -/
def dropWatch (t : Timeline) : Bool × Timeline := (t.watch.isSome, { t with watch := none })

/-- Calls the watchdog off and waits until it is back. -/
def stopWatch (t : Timeline) : Bool × Timeline :=
  let (out, t) := t.dropWatch
  (out, if out then drain limit t else t)

end Timeline

end BackgroundTasks
