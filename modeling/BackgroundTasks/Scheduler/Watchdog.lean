import BackgroundTasks.Scheduler.Basic

/-!
# The watchdog

A task that is due but not armed is an orphan: the process ended before it could arm it, or the
platform has lost it. The watchdog looks for orphans and arms them without delay. What goes wrong
with one task does not keep it from the others.
-/

namespace BackgroundTasks.Scheduler

open Operation

/-- Whether a due row is to be armed: what cannot be found out is left alone. -/
def isOrphan (row : Row) : Operation Bool := orElse (Bool.not <$> isArmed row.id) false

/-- Arms a due row that is an orphan; says whether it did. -/
def rescue (now : UInt64) (row : Row) : Operation Bool := do
  if ← isOrphan row then
    let armed ← orElse (do armAndRecord row .zero; return true) false
    if armed then emit ⟨.orphanRearmed, some row.id, none, now, none⟩
    return armed
  else return false

/-- Looks for orphans once; counts those it has armed. -/
def tick : Operation Nat := do
  let now ← now
  let due : List Row ← store (.due now)
  let rescued ← due.mapM (rescue now)
  return rescued.count true

/-- The report of a tick that has gone wrong. -/
def reportTick (detail : String) : Operation Unit := do
  emit ⟨.watchdogTickFailed, none, none, ← now, some detail⟩

end BackgroundTasks.Scheduler
