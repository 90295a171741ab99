import BackgroundTasks.Request.Basic

/-!
# Submissions

A submission is a request in JSON. Its delays are whole milliseconds, an interval makes it
periodic, the conditions are members of the object itself, and all but the payload may be left out.
-/

namespace BackgroundTasks

/-- A request as it comes over the wire. -/
structure Submission where
  payload : Payload
  priority : Priority := Priority.standard
  initialDelayMs : UInt64 := 0
  intervalMs : Option UInt64 := none
  flexMs : UInt64 := 0
  conditions : Conditions := {}
  growth : Growth := Growth.standard
  backoffDelayMs : Option UInt64 := none
  backoffMultiplier : Option Float := none
  backoffJitter : Float := 0.0
  maxRetries : Option UInt32 := none
deriving DecidableEq

namespace Submission

/-- The names of the fields, conditions apart. -/
def names : List String :=
  ["payload", "priority", "initial_delay_ms", "interval_ms", "flex_ms", "backoff_policy",
    "backoff_delay_ms", "backoff_multiplier", "backoff_jitter_factor", "max_retries"]

/-- A submission in JSON. -/
def toJson (s : Submission) : Json :=
  .record ([("payload", s.payload.toJson), ("priority", s.priority.toJson),
      ("initial_delay_ms", .word s.initialDelayMs),
      ("interval_ms", .optional .word s.intervalMs), ("flex_ms", .word s.flexMs)]
    ++ s.conditions.members
    ++ [("backoff_policy", s.growth.toJson),
      ("backoff_delay_ms", .optional .word s.backoffDelayMs),
      ("backoff_multiplier", .optional .float s.backoffMultiplier),
      ("backoff_jitter_factor", .float s.backoffJitter),
      ("max_retries", .optional .counter s.maxRetries)])

/-- The submission of a payload of the given type that a JSON value holds. -/
def ofJson? (type : PayloadType) (j : Json) : Option Submission := do
  let f ← Json.mergedFields? Json.nestingLimit names Conditions.names j
  some {
    payload := ← f.required "payload" type.ofJson?
    priority := ← f.defaulted "priority" Priority.standard Priority.ofJson?
    initialDelayMs := ← f.defaulted "initial_delay_ms" 0 Json.word?
    intervalMs := ← f.optional "interval_ms" Json.word?
    flexMs := ← f.defaulted "flex_ms" 0 Json.word?
    conditions := ← Conditions.ofFields? f
    growth := ← f.defaulted "backoff_policy" Growth.standard Growth.ofJson?
    backoffDelayMs := ← f.optional "backoff_delay_ms" Json.word?
    backoffMultiplier := ← f.optional "backoff_multiplier" Json.float?
    backoffJitter := ← f.defaulted "backoff_jitter_factor" 0.0 Json.float?
    maxRetries := ← f.optional "max_retries" Json.counter? }

/-- The submission in a JSON text. -/
def ofText? (type : PayloadType) (s : String) : Option Submission :=
  (Json.ofText? s).bind (ofJson? type)

/-- The request that a submission stands for. -/
def toRequest (s : Submission) : Request where
  payload := s.payload
  schedule :=
    let initialDelay := Span.ofMillis s.initialDelayMs
    match s.intervalMs with
    | some interval => .periodic (.ofMillis interval) (.ofMillis s.flexMs) initialDelay
    | none => .oneTime initialDelay
  priority := s.priority
  conditions := s.conditions
  retry := {
    growth := s.growth
    delay := s.backoffDelayMs.map Span.ofMillis
    multiplier := s.backoffMultiplier
    jitter := s.backoffJitter
    maxRetries := s.maxRetries }

end Submission

end BackgroundTasks
