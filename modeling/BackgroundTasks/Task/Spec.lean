import BackgroundTasks.Json.Fields

/-!
# Task descriptions

What a task is to do, when, and how it is retried, in the form that is persisted: times in
milliseconds, the payload as serialized data, every default filled in.
-/

namespace BackgroundTasks

/-! ## Kinds -/

/-- A hint to whoever runs tasks first. -/
inductive Priority where
  | low
  | medium
  | high
deriving DecidableEq, Repr

namespace Priority

/-- Every priority, in ascending order. -/
def all : List Priority := [low, medium, high]

/-- The name of a priority. -/
def text : Priority → String
  | low => "low"
  | medium => "medium"
  | high => "high"

/-- The persisted number of a priority. -/
def ordinal : Priority → UInt8
  | low => 0
  | medium => 1
  | high => 2

/-- The priority of a number. What no priority is written as counts as medium. -/
def ofOrdinal (n : UInt8) : Priority := if n = 0 then low else if n = 2 then high else medium

theorem ofOrdinal_ordinal (p : Priority) : ofOrdinal p.ordinal = p := by cases p <;> rfl

/-- The priority of a request that names none. -/
def standard : Priority := medium

/-- Priorities in ascending order. -/
def le (a b : Priority) : Bool := a.ordinal ≤ b.ordinal

/-- A priority in JSON. -/
def toJson (p : Priority) : Json := .text p.text

/-- The priority that a JSON value names. -/
def ofJson? : Json → Option Priority :=
  Json.choice? (all.map fun p => (p.text, p))

end Priority

/-- Whether a task comes back after it has succeeded. -/
inductive Recurrence where
  | oneTime
  | periodic
deriving DecidableEq, Repr

namespace Recurrence

/-- The name of a recurrence. -/
def text : Recurrence → String
  | oneTime => "one_time"
  | periodic => "periodic"

/-- A recurrence in JSON. -/
def toJson (r : Recurrence) : Json := .text r.text

/-- The recurrence that a JSON value names. -/
def ofJson? : Json → Option Recurrence :=
  Json.choice? ([oneTime, periodic].map fun r => (r.text, r))

end Recurrence

/-- How the delay grows from retry to retry. -/
inductive Growth where
  | linear
  | exponential
deriving DecidableEq, Repr

namespace Growth

/-- The name of a growth law. -/
def text : Growth → String
  | linear => "linear"
  | exponential => "exponential"

/-- The growth law of a policy that names none. -/
def standard : Growth := exponential

/-- A growth law in JSON. -/
def toJson (g : Growth) : Json := .text g.text

/-- The growth law that a JSON value names. -/
def ofJson? : Json → Option Growth :=
  Json.choice? ([linear, exponential].map fun g => (g.text, g))

end Growth

/-! ## Conditions -/

/-- What the host should wait for before it wakes a task; advice, not a guarantee. -/
structure Conditions where
  requiresNetwork : Bool := false
  requiresCharging : Bool := false
  requiresBatteryNotLow : Bool := false
deriving DecidableEq, Repr

namespace Conditions

/-- The names of the conditions. -/
def names : List String := ["requires_network", "requires_charging", "requires_battery_not_low"]

/-- The conditions as members of a record. -/
def members (c : Conditions) : List (String × Json) :=
  [("requires_network", .bool c.requiresNetwork), ("requires_charging", .bool c.requiresCharging),
    ("requires_battery_not_low", .bool c.requiresBatteryNotLow)]

/-- Conditions in JSON. -/
def toJson (c : Conditions) : Json := .record c.members

/-- The conditions among the fields of a record; what is missing is not required. -/
def ofFields? (f : Json.Fields) : Option Conditions := do
  some {
    requiresNetwork := ← f.defaulted "requires_network" false Json.bool?
    requiresCharging := ← f.defaulted "requires_charging" false Json.bool?
    requiresBatteryNotLow := ← f.defaulted "requires_battery_not_low" false Json.bool? }

/-- The conditions that a JSON value lists. -/
def ofJson? (j : Json) : Option Conditions := (Json.fields? names j).bind ofFields?

end Conditions

/-! ## The description -/

/-- What a task is to do, when, and how it is retried. -/
structure Spec where
  payloadTypeId : String
  payloadData : String
  /-- The ordinal of the priority. -/
  priority : UInt8
  conditions : Conditions
  recurrence : Recurrence
  initialDelayMs : UInt64
  intervalMs : UInt64
  flexMs : UInt64
  growth : Growth
  backoffDelayMs : UInt64
  backoffMultiplier : Option Float
  backoffJitter : Float
  maxRetries : UInt32
deriving DecidableEq

namespace Spec

/-- The priority of a task. -/
def priorityClass (s : Spec) : Priority := Priority.ofOrdinal s.priority

/-- Whether a task comes back after it has succeeded. -/
def isPeriodic (s : Spec) : Bool := s.recurrence == .periodic

/-- The names of the fields of a description, conditions apart. -/
def names : List String :=
  ["payload_type_id", "payload_data", "priority", "schedule_type", "initial_delay_ms",
    "interval_ms", "flex_ms", "backoff_policy", "backoff_delay_ms", "backoff_multiplier",
    "backoff_jitter_factor", "max_retries"]

/-- A description as members of a record, the conditions among them. -/
def members (s : Spec) : List (String × Json) :=
  [("payload_type_id", .text s.payloadTypeId), ("payload_data", .text s.payloadData),
    ("priority", .nat s.priority.toNat)]
  ++ s.conditions.members
  ++ [("schedule_type", s.recurrence.toJson), ("initial_delay_ms", .word s.initialDelayMs),
    ("interval_ms", .word s.intervalMs), ("flex_ms", .word s.flexMs),
    ("backoff_policy", s.growth.toJson), ("backoff_delay_ms", .word s.backoffDelayMs),
    ("backoff_multiplier", .optional .float s.backoffMultiplier),
    ("backoff_jitter_factor", .float s.backoffJitter), ("max_retries", .counter s.maxRetries)]

/-- A description in JSON. -/
def toJson (s : Spec) : Json := .record s.members

/-- The description among the fields of a record. -/
def ofFields? (f : Json.Fields) : Option Spec := do
  some {
    payloadTypeId := ← f.required "payload_type_id" Json.text?
    payloadData := ← f.required "payload_data" Json.text?
    priority := ← f.required "priority" Json.byte?
    conditions := ← Conditions.ofFields? f
    recurrence := ← f.required "schedule_type" Recurrence.ofJson?
    initialDelayMs := ← f.required "initial_delay_ms" Json.word?
    intervalMs := ← f.required "interval_ms" Json.word?
    flexMs := ← f.required "flex_ms" Json.word?
    growth := ← f.required "backoff_policy" Growth.ofJson?
    backoffDelayMs := ← f.required "backoff_delay_ms" Json.word?
    backoffMultiplier := ← f.optional "backoff_multiplier" Json.float?
    backoffJitter := ← f.required "backoff_jitter_factor" Json.float?
    maxRetries := ← f.required "max_retries" Json.counter? }

/-- The description that a JSON value holds. -/
def ofJson? (j : Json) : Option Spec :=
  (Json.mergedFields? Json.nestingLimit names Conditions.names j).bind ofFields?

end Spec

end BackgroundTasks
