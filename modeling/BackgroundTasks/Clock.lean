import BackgroundTasks.Saturating

/-!
# The clock

The scheduler reads the time from a clock in milliseconds. A clock stands still until it is moved,
or follows the time that passes in the process.
-/

namespace BackgroundTasks

/-- A clock. -/
structure Clock where
  base : UInt64
  /-- Whether passing time moves the clock. -/
  follows : Bool := false
deriving DecidableEq, Repr

namespace Clock

/-- The time on a clock, when the given time has passed in the process. -/
def read (c : Clock) (elapsed : Nat) : UInt64 :=
  if c.follows then c.base + UInt64.ofNat elapsed else c.base

/-- The clock moved ahead. It starts over at the end of its range. -/
def advance (c : Clock) (ms : UInt64) : Clock := { c with base := c.base + ms }

/-- The clock put to another time. -/
def set (c : Clock) (ms : UInt64) : Clock := { c with base := ms }

end Clock

end BackgroundTasks
