import BackgroundTasks.Task.Row

/-!
# Telemetry

What happens to tasks is told to a sink, event by event. A sink may keep an event, ignore it, or
break down over it; in the last case the breakdown goes no further than `emit`, so that no operation
can depend on its sink.
-/

namespace BackgroundTasks

/-- What can happen. -/
inductive EventKind where
  | scheduled
  | started
  | succeeded
  | failed
  | retryScheduled
  | cancelled
  | rescheduled
  | orphanRearmed
  | watchdogTickFailed
deriving DecidableEq, Repr

namespace EventKind

/-- Every kind of event. -/
def all : List EventKind :=
  [scheduled, started, succeeded, failed, retryScheduled, cancelled, rescheduled, orphanRearmed,
    watchdogTickFailed]

/-- The name of a kind. -/
def text : EventKind → String
  | scheduled => "scheduled"
  | started => "started"
  | succeeded => "succeeded"
  | failed => "failed"
  | retryScheduled => "retry_scheduled"
  | cancelled => "cancelled"
  | rescheduled => "rescheduled"
  | orphanRearmed => "orphan_rearmed"
  | watchdogTickFailed => "watchdog_tick_failed"

/-- A kind in JSON. -/
def toJson (k : EventKind) : Json := .text k.text

/-- The kind that a JSON value names. -/
def ofJson? : Json → Option EventKind := Json.choice? (all.map fun k => (k.text, k))

end EventKind

/-- Something that has happened. -/
structure Event where
  kind : EventKind
  taskId : Option TaskId
  attempt : Option UInt32
  createdMs : UInt64
  detail : Option String
deriving DecidableEq

namespace Event

/-- The names of an event's fields. -/
def names : List String := ["kind", "task_id", "attempt", "created_at_ms", "detail"]

/-- An event in JSON. -/
def toJson (e : Event) : Json :=
  .record [("kind", e.kind.toJson), ("task_id", .optional TaskId.toJson e.taskId),
    ("attempt", .optional .counter e.attempt), ("created_at_ms", .word e.createdMs),
    ("detail", .optional .text e.detail)]

/-- The outline of an event: its fields in order, without their names. -/
def outline (e : Event) : Json :=
  .array [e.kind.toJson, .optional TaskId.toJson e.taskId, .optional .counter e.attempt,
    .word e.createdMs, .optional .text e.detail]

/-- The event that a JSON value holds. -/
def ofJson? (j : Json) : Option Event := do
  let f ← Json.fields? names j
  some {
    kind := ← f.required "kind" EventKind.ofJson?
    taskId := ← f.optional "task_id" TaskId.ofJson?
    attempt := ← f.optional "attempt" Json.counter?
    createdMs := ← f.required "created_at_ms" Json.word?
    detail := ← f.optional "detail" Json.text? }

end Event

/-! ## The bounded buffer -/

/-- The latest events, as many as there is room for. -/
structure EventBuffer where
  capacity : Nat
  events : List Event := []

namespace EventBuffer

/-- Takes in an event; the oldest one makes room for it. -/
def push (b : EventBuffer) (e : Event) : EventBuffer :=
  if b.capacity = 0 then b
  else if b.events.length < b.capacity then { b with events := b.events ++ [e] }
  else { b with events := b.events.drop 1 ++ [e] }

/-- The events of one kind. -/
def eventsOf (b : EventBuffer) (k : EventKind) : List Event := b.events.filter fun e => e.kind == k

theorem length_push_le (b : EventBuffer) (e : Event) (h : b.events.length ≤ b.capacity) :
    (b.push e).events.length ≤ (b.push e).capacity := by
  simp only [push]
  split
  · exact h
  · split <;> simp <;> omega

end EventBuffer

/-! ## Sinks -/

/-- What a sink does about an event. -/
structure Reaction where
  keeps : Bool
  breaksDown : Bool
deriving DecidableEq, Repr

/-- A sink: its reactions, which may depend on all it has been offered, and what it keeps. -/
structure Sink where
  react : List Event → Event → Reaction
  offered : List Event := []
  buffer : EventBuffer

namespace Sink

/-- The sink that ignores everything. -/
def silent : Sink := { react := fun _ _ => ⟨false, false⟩, buffer := ⟨0, []⟩ }

/-- The sink that keeps the latest events. -/
def bounded (capacity : Nat) : Sink :=
  { react := fun _ _ => ⟨true, false⟩, buffer := ⟨capacity, []⟩ }

/-- The sink that breaks down over everything. -/
def broken : Sink := { react := fun _ _ => ⟨false, true⟩, buffer := ⟨0, []⟩ }

/-- Offers an event to a sink, which returns unless it breaks down. -/
def offer (s : Sink) (e : Event) : Option Unit × Sink :=
  let reaction := s.react s.offered e
  (if reaction.breaksDown then none else some (),
    { s with
      offered := s.offered ++ [e]
      buffer := if reaction.keeps then s.buffer.push e else s.buffer })

/-- Offers an event to a sink, come what may. -/
def emit (s : Sink) (e : Event) : Sink := (s.offer e).2

end Sink

end BackgroundTasks
