import BackgroundTasks.Config.Basic
import BackgroundTasks.Payload.Registry
import BackgroundTasks.Request.Basic

/-!
# From requests to descriptions

A request is checked, its gaps are filled from the configuration, and its payload is serialized.
The checks come in a fixed order: schedule, jitter, multiplier, payload.
-/

namespace BackgroundTasks

/-- A description ready to be stored, and when it first runs. -/
structure NormalizedRequest where
  spec : Spec
  nextRunMs : UInt64
deriving DecidableEq

/-- The schedule in its persisted form. -/
structure NormalizedSchedule where
  recurrence : Recurrence
  initialDelay : Span
  interval : Span
  flex : Span
deriving DecidableEq

/-- The fault of a schedule, or its persisted form. -/
def Schedule.normalize : Schedule → Except RequestFault NormalizedSchedule
  | oneTime initialDelay => .ok ⟨.oneTime, initialDelay, .zero, .zero⟩
  | periodic interval flex initialDelay =>
    if interval.nanos = 0 then .error .zeroInterval
    else if interval.nanos < flex.nanos then .error (.flexBeyondInterval flex interval)
    else .ok ⟨.periodic, initialDelay, interval, flex⟩

namespace RetryPolicy

/-- The jitter, if it is a fraction. -/
def checkedJitter (p : RetryPolicy) : Except RequestFault Float :=
  if 0.0 ≤ p.jitter && p.jitter ≤ 1.0 then .ok p.jitter else .error (.jitterOutOfRange p.jitter)

/-- The multiplier that is stored: none for linear delays, else a positive number. -/
def checkedMultiplier (p : RetryPolicy) (default : Float) : Except RequestFault (Option Float) :=
  match p.growth, p.multiplier with
  | .linear, _ => .ok none
  | .exponential, none => .ok (some default)
  | .exponential, some m =>
    if Number.Binary64.isPositiveFinite m then .ok (some m) else .error (.multiplierNotPositive m)

end RetryPolicy

/-- What `normalize` can object to. -/
inductive NormalizeFault where
  | request (fault : RequestFault)
  | payload (fault : PayloadFault)
deriving DecidableEq

/-- A fault as the failure of an operation. -/
def NormalizeFault.failure : NormalizeFault → Failure
  | request fault => .invalidRequest fault
  | payload fault => .payload fault

/-- The description of a request that is made at `now`. -/
def Request.normalize (r : Request) (registry : Registry) (now : UInt64) (config : Config) :
    Except NormalizeFault NormalizedRequest := do
  let schedule ← r.schedule.normalize.mapError .request
  let jitter ← r.retry.checkedJitter.mapError .request
  let multiplier ←
    (r.retry.checkedMultiplier config.defaultBackoffMultiplier).mapError .request
  let serialized ← (registry.serialize r.payload).mapError .payload
  let initialDelayMs := schedule.initialDelay.toMillis
  let spec : Spec := {
    payloadTypeId := serialized.typeId
    payloadData := serialized.data
    priority := r.priority.ordinal
    conditions := r.conditions
    recurrence := schedule.recurrence
    initialDelayMs := initialDelayMs
    intervalMs := schedule.interval.toMillis
    flexMs := schedule.flex.toMillis
    growth := r.retry.growth
    backoffDelayMs := (r.retry.delay.map Span.toMillis).getD config.defaultBackoffDelayMs
    backoffMultiplier := multiplier
    backoffJitter := match r.retry.growth with | .exponential => jitter | .linear => 0.0
    maxRetries := min (r.retry.maxRetries.getD config.defaultMaxRetries) config.maxRetriesCeiling }
  return ⟨spec, satAdd now initialDelayMs⟩

end BackgroundTasks
