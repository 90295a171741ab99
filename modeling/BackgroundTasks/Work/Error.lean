import BackgroundTasks.Saturating
import BackgroundTasks.Json.Fields

/-!
# What goes wrong in work

A work unit may report ten kinds of error. Each has a text, falls into an operational category, and
says whether trying again could help; two of them also say when.
-/

namespace BackgroundTasks

/-- An error of a work unit. -/
inductive WorkError where
  | network (reason : String)
  | rateLimited (message : String) (retryAfterMs : Option UInt64)
  | timeout (reason : String)
  | serviceUnavailable (reason : String)
  | resourceContention (reason : String)
  | circuitOpen (message : String) (openUntilMs : UInt64)
  | maxRetriesExceeded (attempts maxRetries : UInt32)
  | permanent (reason : String)
  | validation (reason : String)
  | other (text : String)
deriving DecidableEq, Repr

/-- The operational categories of errors. -/
inductive Category where
  | network
  | rateLimit
  | timeout
  | serviceUnavailable
  | resourceContention
  | circuitBreaker
  | maxRetriesExceeded
  | unknown
deriving DecidableEq, Repr

namespace Category

/-- Every category. -/
def all : List Category :=
  [network, rateLimit, timeout, serviceUnavailable, resourceContention, circuitBreaker,
    maxRetriesExceeded, unknown]

/-- The name of a category. -/
def text : Category → String
  | network => "network"
  | rateLimit => "rate_limit"
  | timeout => "timeout"
  | serviceUnavailable => "service_unavailable"
  | resourceContention => "resource_contention"
  | circuitBreaker => "circuit_breaker"
  | maxRetriesExceeded => "max_retries_exceeded"
  | unknown => "unknown"

/-- A category in JSON. -/
def toJson (c : Category) : Json := .text c.text

/-- The category that a JSON value names. -/
def ofJson? : Json → Option Category := Json.choice? (all.map fun c => (c.text, c))

end Category

namespace WorkError

/-- The text of an error. -/
def text : WorkError → String
  | network reason => "network error: " ++ reason
  | rateLimited message _ => "rate limited: " ++ message
  | timeout reason => "timed out: " ++ reason
  | serviceUnavailable reason => "service unavailable: " ++ reason
  | resourceContention reason => "resource contention: " ++ reason
  | circuitOpen message _ => "circuit breaker open: " ++ message
  | maxRetriesExceeded attempts maxRetries =>
    "max retries exceeded after " ++ Number.decimalText attempts.toNat ++ " attempts (limit "
      ++ Number.decimalText maxRetries.toNat ++ " retries)"
  | permanent reason => "permanent failure: " ++ reason
  | validation reason => "validation failed: " ++ reason
  | other text => text

/-- The error of a failure with several causes, the outermost first. -/
def ofCauses (causes : List String) : WorkError := other (String.intercalate ": " causes)

/-- The category of an error. -/
def category : WorkError → Category
  | network _ => .network
  | rateLimited _ _ => .rateLimit
  | timeout _ => .timeout
  | serviceUnavailable _ => .serviceUnavailable
  | resourceContention _ => .resourceContention
  | circuitOpen _ _ => .circuitBreaker
  | maxRetriesExceeded _ _ => .maxRetriesExceeded
  | permanent _ | validation _ | other _ => .unknown

/-- Whether trying again could help. Errors of unknown kind get the benefit of the doubt. -/
def isRetryable : WorkError → Bool
  | maxRetriesExceeded _ _ | permanent _ | validation _ => false
  | _ => true

/--
The delay that an error asks for in place of the configured one: a rate limit may say how long to
wait, an open circuit breaker until when.
-/
def suggestedDelay? (e : WorkError) (now : UInt64) : Option UInt64 :=
  match e with
  | rateLimited _ (some ms) => some ms
  | circuitOpen _ openUntil => some (satSub openUntil now)
  | _ => none

/-- An error in JSON: an object whose one member is named for the kind. -/
def toJson : WorkError → Json
  | network reason => .record [("Network", .text reason)]
  | rateLimited message retryAfter =>
    .record [("RateLimited", .record [("message", .text message),
      ("retry_after_ms", .optional .word retryAfter)])]
  | timeout reason => .record [("Timeout", .text reason)]
  | serviceUnavailable reason => .record [("ServiceUnavailable", .text reason)]
  | resourceContention reason => .record [("ResourceContention", .text reason)]
  | circuitOpen message openUntil =>
    .record [("CircuitOpen", .record [("message", .text message),
      ("open_until_ms", .word openUntil)])]
  | maxRetriesExceeded attempts maxRetries =>
    .record [("MaxRetriesExceeded", .record [("attempts", .counter attempts),
      ("max_retries", .counter maxRetries)])]
  | permanent reason => .record [("Permanent", .text reason)]
  | validation reason => .record [("Validation", .text reason)]
  | other text => .record [("Other", .text text)]

/-- The error of a kind with the given content. -/
def ofTagged? (tag : String) (content : Json) : Option WorkError :=
  match tag with
  | "Network" => content.text?.map network
  | "RateLimited" => do
    let f ← Json.fields? ["message", "retry_after_ms"] content
    some (rateLimited (← f.required "message" Json.text?)
      (← f.optional "retry_after_ms" Json.word?))
  | "Timeout" => content.text?.map timeout
  | "ServiceUnavailable" => content.text?.map serviceUnavailable
  | "ResourceContention" => content.text?.map resourceContention
  | "CircuitOpen" => do
    let f ← Json.fields? ["message", "open_until_ms"] content
    some (circuitOpen (← f.required "message" Json.text?) (← f.required "open_until_ms" Json.word?))
  | "MaxRetriesExceeded" => do
    let f ← Json.fields? ["attempts", "max_retries"] content
    some (maxRetriesExceeded (← f.required "attempts" Json.counter?)
      (← f.required "max_retries" Json.counter?))
  | "Permanent" => content.text?.map permanent
  | "Validation" => content.text?.map validation
  | "Other" => content.text?.map other
  | _ => none

/-- The error that a JSON value holds. -/
def ofJson? : Json → Option WorkError
  | .object [(some tag, content)] => ofTagged? tag content
  | _ => none

end WorkError

end BackgroundTasks
