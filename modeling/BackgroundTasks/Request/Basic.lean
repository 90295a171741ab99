import BackgroundTasks.Span
import BackgroundTasks.Payload.Schema
import BackgroundTasks.Task.Spec

/-!
# Requests

A request is a task as its caller describes it: spans instead of milliseconds, and nothing filled
in that the caller leaves to the configuration.
-/

namespace BackgroundTasks

/-- When a task runs. -/
inductive Schedule where
  | oneTime (initialDelay : Span)
  /-- Every `interval`, anywhere in the last `flex` of it. -/
  | periodic (interval flex initialDelay : Span)
deriving DecidableEq, Repr

/-- The schedule with another delay before the first run. -/
def Schedule.withInitialDelay : Schedule → Span → Schedule
  | oneTime _, delay => oneTime delay
  | periodic interval flex _, delay => periodic interval flex delay

/-- How a task is retried, as far as the caller cares. -/
structure RetryPolicy where
  growth : Growth := Growth.standard
  delay : Option Span := none
  multiplier : Option Float := none
  jitter : Float := 0.0
  maxRetries : Option UInt32 := none
deriving DecidableEq

namespace RetryPolicy

/-- Delays that grow by the same span. -/
def linear (delay : Span) : RetryPolicy := { growth := .linear, delay := some delay }

/-- Delays that grow by the same factor. -/
def exponential (delay : Span) (multiplier jitter : Float) : RetryPolicy :=
  { growth := .exponential, delay := some delay, multiplier := some multiplier, jitter }

end RetryPolicy

/-- A task as its caller describes it. -/
structure Request where
  payload : Payload
  schedule : Schedule
  priority : Priority := Priority.standard
  conditions : Conditions := {}
  retry : RetryPolicy := {}
deriving DecidableEq

namespace Request

/-- Run once, at once. -/
def oneTime (payload : Payload) : Request := { payload, schedule := .oneTime .zero }

/-- Run again and again. -/
def periodic (payload : Payload) (interval flex : Span) : Request :=
  { payload, schedule := .periodic interval flex .zero }

/-- The request with a delay before the first run. -/
def withInitialDelay (r : Request) (delay : Span) : Request :=
  { r with schedule := r.schedule.withInitialDelay delay }

/-- The request with another retry policy, which keeps a retry limit that it does not set itself. -/
def withRetry (r : Request) (policy : RetryPolicy) : Request :=
  { r with retry := { policy with maxRetries := policy.maxRetries <|> r.retry.maxRetries } }

/-- The request with a retry limit. -/
def withMaxRetries (r : Request) (maxRetries : UInt32) : Request :=
  { r with retry := { r.retry with maxRetries := some maxRetries } }

end Request

end BackgroundTasks
