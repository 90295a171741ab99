import BackgroundTasks.Backoff
import BackgroundTasks.Failure
import BackgroundTasks.Json.Reader

/-!
# Configuration

The limits and defaults of a scheduler, and where it keeps its tasks. A configuration is read from
JSON, every missing field taking its default, and is checked before it is used.
-/

namespace BackgroundTasks

/-- Where the tasks are kept. -/
inductive Backend where
  | inMemory
  | file (path : String)
deriving DecidableEq, Repr

namespace Backend

/-- A backend in JSON. -/
def toJson : Backend → Json
  | inMemory => .record [("kind", .text "in_memory")]
  | file path => .record [("kind", .text "file"), ("path", .text path)]

/--
The backend that a JSON value holds: an object with its kind among the members, or an array with
the kind in front. The rest is set aside while the kind is looked for, with `depth` levels to spare
for the whole.
-/
def ofJson? (depth : Nat) : Json → Option Backend
  | .array (kind :: rest) =>
    if Json.keepableItems depth rest then
      match kind.text?, rest with
      | some "in_memory", [] => some inMemory
      | some "file", [path] => path.text?.map file
      | _, _ => none
    else none
  | v => do
    let f ← Json.objectFields? ["kind"] v
    if f.found.all fun (name, value) => name == "kind" || Json.keepable depth value then
      match ← f.required "kind" Json.text? with
      | "in_memory" => some inMemory
      | "file" =>
        if Json.occursOnce f.found "path" then (f.required "path" Json.text?).map file else none
      | _ => none
    else none

end Backend

/-- The limits and defaults of a scheduler. -/
structure Config where
  /-- The bound on the retries of every request. -/
  maxRetriesCeiling : UInt32 := 10
  /-- The retries of a request that does not say. -/
  defaultMaxRetries : UInt32 := 3
  /-- The period of the watchdog; zero turns it off. -/
  watchdogIntervalMs : UInt64 := 60000
  /-- The ceiling of exponential delays. -/
  maxBackoffMs : UInt64 := Backoff.standardCeiling
  defaultBackoffDelayMs : UInt64 := 30000
  defaultBackoffMultiplier : Float := Backoff.standardMultiplier
  /-- Whether a cipher is required. -/
  encryptPayloads : Bool := false
  backend : Backend := .inMemory
deriving DecidableEq

namespace Config

/-- The configuration of defaults. -/
def standard : Config := {}

/-- The first fault of a configuration. -/
def fault? (c : Config) : Option ConfigFault :=
  if c.maxRetriesCeiling < c.defaultMaxRetries then
    some (.retriesBeyondCeiling c.defaultMaxRetries c.maxRetriesCeiling)
  else if c.maxBackoffMs = 0 then some .zeroBackoffCeiling
  else if !Number.Binary64.isPositiveFinite c.defaultBackoffMultiplier then
    some .multiplierNotPositive
  else if c.backend = .file "" then some .emptyStorePath
  else none

/-- The names of the fields. -/
def names : List String :=
  ["max_retries_ceiling", "default_max_retries", "watchdog_interval_ms", "max_backoff_ms",
    "default_backoff_delay_ms", "default_backoff_multiplier", "encrypt_payloads", "store"]

/-- A configuration in JSON. -/
def toJson (c : Config) : Json :=
  .record [("max_retries_ceiling", .counter c.maxRetriesCeiling),
    ("default_max_retries", .counter c.defaultMaxRetries),
    ("watchdog_interval_ms", .word c.watchdogIntervalMs), ("max_backoff_ms", .word c.maxBackoffMs),
    ("default_backoff_delay_ms", .word c.defaultBackoffDelayMs),
    ("default_backoff_multiplier", .float c.defaultBackoffMultiplier),
    ("encrypt_payloads", .bool c.encryptPayloads), ("store", c.backend.toJson)]

/-- The configuration that a JSON value holds, unchecked. -/
def ofJson? (j : Json) : Option Config := do
  let f ← Json.fields? names j
  some {
    maxRetriesCeiling :=
      ← f.defaulted "max_retries_ceiling" standard.maxRetriesCeiling Json.counter?
    defaultMaxRetries :=
      ← f.defaulted "default_max_retries" standard.defaultMaxRetries Json.counter?
    watchdogIntervalMs :=
      ← f.defaulted "watchdog_interval_ms" standard.watchdogIntervalMs Json.word?
    maxBackoffMs := ← f.defaulted "max_backoff_ms" standard.maxBackoffMs Json.word?
    defaultBackoffDelayMs :=
      ← f.defaulted "default_backoff_delay_ms" standard.defaultBackoffDelayMs Json.word?
    defaultBackoffMultiplier :=
      ← f.defaulted "default_backoff_multiplier" standard.defaultBackoffMultiplier Json.float?
    encryptPayloads := ← f.defaulted "encrypt_payloads" standard.encryptPayloads Json.bool?
    backend := ← f.defaulted "store" standard.backend (Backend.ofJson? (Json.nestingLimit - 1)) }

/-- What is wrong with a configuration text. -/
inductive TextFault where
  | unreadable
  | invalid (fault : ConfigFault)
deriving DecidableEq

/-- The checked configuration in a JSON text. -/
def ofText (s : String) : Except TextFault Config :=
  match (Json.ofText? s).bind ofJson? with
  | none => .error .unreadable
  | some c =>
    match c.fault? with
    | some fault => .error (.invalid fault)
    | none => .ok c

end Config

end BackgroundTasks
