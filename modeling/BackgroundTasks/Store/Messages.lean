import BackgroundTasks.Store.Call

/-!
# Messages to a store

A call to a store can be put into a message, for a journal or for a store that is elsewhere. The
message is an object that names the call under `do` and has its arguments as further members. The
reply is the result alone; where the result is a list of rows, their ids stand for them.
-/

namespace BackgroundTasks

/-- The completion that a message holds. -/
def Completion.ofMessage? (j : Json) : Option Completion := do
  some {
    claimedAttempt := ← (j.member "claimed_attempt").counter?
    state := ← State.ofJson? (j.member "state")
    nextRunMs := (j.member "next_run_time_ms").word?
    retries := ← (j.member "retry_count").counter?
    updatedMs := ← (j.member "updated_at_ms").word? }

/-- The outline of a row: everything that changes in the life of a task, and its id. -/
def Row.outline (r : Row) : Json :=
  .array [r.id.toJson, r.state.toJson, .word r.nextRunMs, .counter r.attempts, .counter r.retries,
    .optional .text r.platformId, .word r.createdMs, .word r.updatedMs]

/-- The name of what became of a row. -/
def Replacement.text : Replacement → String
  | replaced => "replaced"
  | notFound => "not_found"
  | running => "running"

namespace StoreCall

/-- The id that a message is about. -/
def messageId? (j : Json) : Option TaskId := TaskId.ofJson? (j.member "id")

/-- The time that a message was sent. -/
def messageTime? (j : Json) : Option UInt64 := (j.member "now").word?

/-- The states that a message allows a row to come from. -/
def messageOrigins? (j : Json) : Option (List State) :=
  Json.list? State.ofJson? (j.member "from")

/-- The call that a message asks for. -/
def ofMessage? (j : Json) : Option StoreCall := do
  match ← (j.member "do").text? with
  | "insert" => some (insert (← Row.ofJson? Json.nestingLimit (j.member "record")))
  | "get" => some (get (← messageId? j))
  | "list" => some list
  | "due" => some (due (← messageTime? j))
  | "claim" => some (claim (← messageId? j) (← messageTime? j))
  | "complete" =>
    some (complete (← messageId? j) (← Completion.ofMessage? (j.member "completion"))
      (← LogEntry.ofJson? (j.member "entry")))
  | "transition" =>
    some (transition (← messageId? j) (← messageOrigins? j)
      (← State.ofJson? (j.member "to")) (← messageTime? j))
  | "transition_all" =>
    some (transitionAll (← messageOrigins? j) (← State.ofJson? (j.member "to"))
      (← messageTime? j))
  | "replace_spec" =>
    some (replaceSpec (← messageId? j) (← Spec.ofJson? (j.member "spec"))
      (← (j.member "next").word?) (← messageTime? j))
  | "set_platform_id" => some (setPlatformId (← messageId? j) (j.member "platform_id").text?)
  | "append_log" => some (appendLog (← LogEntry.ofJson? (j.member "entry")))
  | "logs" => some (logs (← messageId? j))
  | "last_log" => some (lastLog (← messageId? j))
  | _ => none

/-- The reply to a call with the given result. -/
def reply : (c : StoreCall) → c.Result → Json
  | insert _, _ | setPlatformId .., _ | appendLog _, _ => .null
  | get _, row => .optional Row.toJson row
  | claim .., row => .optional Row.outline row
  | list, rows | due _, rows => .array (rows.map fun r => r.id.toJson)
  | complete .., applied => .bool applied
  | transition .., (count : Nat) => .nat count
  | transitionAll .., ids => .array (ids.map TaskId.toJson)
  | replaceSpec .., outcome => .text outcome.text
  | logs _, entries => .array (entries.map LogEntry.toJson)
  | lastLog _, entry => .optional LogEntry.toJson entry

end StoreCall

end BackgroundTasks
