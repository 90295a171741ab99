import BackgroundTasks.Task.Row

/-!
# Steps of a row

A row changes in five ways: it is claimed, completed, moved along an edge, given a new description,
or told its wake-up's handle. Each step looks at the row it finds and may refuse it, so a step is
one conditional update. No step touches the id or the time of creation.

The number of attempts changes only when a row is claimed. A completion names the claim it belongs
to by that number, and is refused once the row has left that claim.
-/

namespace BackgroundTasks

/-- The update that the result of an execution amounts to. -/
structure Completion where
  /-- The number of attempts that the claim returned. -/
  claimedAttempt : UInt32
  state : State
  /-- The next run, or none when the old one stays. -/
  nextRunMs : Option UInt64
  retries : UInt32
  updatedMs : UInt64
deriving DecidableEq

/-- A conditional update of a row. -/
structure RowStep where
  accepts : Row → Bool
  change : Row → Row
  keepsId : ∀ r, (change r).id = r.id := by intro r; rfl
  keepsCreated : ∀ r, (change r).createdMs = r.createdMs := by intro r; rfl

namespace RowStep

/-- The row after a step, unless the step refuses it. -/
def apply (step : RowStep) (r : Row) : Option Row :=
  if step.accepts r then some (step.change r) else none

/-- The step that takes a row from the queue and counts the attempt. -/
def claim (now : UInt64) : RowStep where
  accepts r := r.state == .enqueued
  change r := { r with state := .running, attempts := satSucc r.attempts, updatedMs := now }

/-- The step that ends the claim which a completion belongs to. -/
def complete (c : Completion) : RowStep where
  accepts r :=
    r.state == .running && r.attempts == c.claimedAttempt && r.state.canBecome c.state
  change r :=
    { r with
      state := c.state
      nextRunMs := c.nextRunMs.getD r.nextRunMs
      retries := c.retries
      updatedMs := c.updatedMs }

/-- The step along the edge to `target` from any of the states in `origins`. -/
def move (origins : List State) (target : State) (now : UInt64) : RowStep where
  accepts r := origins.contains r.state && r.state.canBecome target
  change r := { r with state := target, updatedMs := now }

/-- The step that starts a row afresh under a new description, unless it is running. -/
def replace (spec : Spec) (nextRunMs now : UInt64) : RowStep where
  accepts r := r.state.canReschedule
  change r :=
    { r with
      spec := spec
      state := .enqueued
      nextRunMs := nextRunMs
      retries := 0
      platformId := none
      updatedMs := now }

/-- The step that records the handle of a wake-up. It is no change of the task itself. -/
def setPlatformId (handle : Option String) : RowStep where
  accepts _ := true
  change r := { r with platformId := handle }

/-- The row after a step, or as it was when the step refuses it. -/
def after (step : RowStep) (r : Row) : Row := if step.accepts r then step.change r else r

/-- The row after a step that is meant for one id. -/
def afterAt (step : RowStep) (id : TaskId) (r : Row) : Row := if r.id = id then step.after r else r

theorem id_after (step : RowStep) (r : Row) : (step.after r).id = r.id := by
  unfold after
  split
  · exact step.keepsId r
  · rfl

theorem id_afterAt (step : RowStep) (id : TaskId) (r : Row) : (step.afterAt id r).id = r.id := by
  unfold afterAt
  split
  · exact step.id_after r
  · rfl

end RowStep

end BackgroundTasks
