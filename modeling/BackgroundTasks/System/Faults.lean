import BackgroundTasks.System.Basic

/-!
# Fault plans

A plan names kinds of calls that are to go wrong, and says whether they then fail or break down. It
is how a system is put to the test.
-/

namespace BackgroundTasks

/-- A place where a fault can be planned. -/
inductive FaultPoint where
  | insert
  | get
  | list
  | due
  | claim
  | complete
  | transition
  | transitionAll
  | replaceSpec
  | setPlatformId
  | appendLog
  | logs
  | arm
  | disarm
  | isArmed
  /-- The handle of a wake-up, which may get lost after arming. -/
  | handle
  /-- The sink, which may break down after it has kept an event. -/
  | sink
deriving DecidableEq, Repr

namespace FaultPoint

/-- Every point. -/
def all : List FaultPoint :=
  [insert, get, list, due, claim, complete, transition, transitionAll, replaceSpec, setPlatformId,
    appendLog, logs, arm, disarm, isArmed, handle, sink]

/-- The name of a point. -/
def text : FaultPoint → String
  | insert => "insert"
  | get => "get"
  | list => "list"
  | due => "due"
  | claim => "claim"
  | complete => "complete"
  | transition => "transition"
  | transitionAll => "transition_all"
  | replaceSpec => "replace_spec"
  | setPlatformId => "set_platform_id"
  | appendLog => "append_log"
  | logs => "logs"
  | arm => "arm"
  | disarm => "disarm"
  | isArmed => "is_armed"
  | handle => "handle"
  | sink => "sink"

/-- The point with the given name. -/
def ofText? (s : String) : Option FaultPoint := all.find? fun p => p.text == s

/-- The point at which a call to the store goes wrong; the latest entry is read off the log. -/
def ofStoreCall : StoreCall → FaultPoint
  | .insert _ => insert
  | .get _ => get
  | .list => list
  | .due _ => due
  | .claim .. => claim
  | .complete .. => complete
  | .transition .. => transition
  | .transitionAll .. => transitionAll
  | .replaceSpec .. => replaceSpec
  | .setPlatformId .. => setPlatformId
  | .appendLog _ => appendLog
  | .logs _ | .lastLog _ => logs

end FaultPoint

/-- What is to go wrong. -/
structure FaultPlan where
  points : List FaultPoint := []
  /-- Whether a planned fault is a breakdown. -/
  breakdown : Bool := false
deriving DecidableEq, Repr

/-- Which surroundings of a scheduler a plan can get at. -/
structure FaultReach where
  store : Bool := false
  platform : Bool := true
deriving DecidableEq, Repr

namespace FaultPlan

/-- The fault of a call at a point. -/
def at? (plan : FaultPlan) (point : FaultPoint) : Option CallFault :=
  if plan.points.contains point then
    some (if plan.breakdown then .breaksDown
      else .reports ("injected " ++ point.text ++ " failure"))
  else none

/-- The fault of arming: before it, or else between arming and handing over the handle. -/
def atArm? (plan : FaultPlan) : Option CallFault :=
  if plan.points.contains .arm then plan.at? .arm
  else if plan.points.contains .handle then
    some (if plan.breakdown then .breaksDownArmed else .losesHandle)
  else none

/-- The fault of a call, as far as the plan gets at it. -/
def fault? (plan : FaultPlan) (reach : FaultReach) : Call → Option CallFault
  | .store c => if reach.store then plan.at? (.ofStoreCall c) else none
  | .arm .. => if reach.platform then plan.atArm? else none
  | .disarm _ => if reach.platform then plan.at? .disarm else none
  | .isArmed _ => if reach.platform then plan.at? .isArmed else none
  | _ => none

/-- A sink in which the plan takes effect. -/
def tamper (plan : FaultPlan) (sink : Sink) : Sink :=
  { sink with
    react := fun offered e =>
      { sink.react offered e with breaksDown := plan.points.contains .sink } }

end FaultPlan

end BackgroundTasks
