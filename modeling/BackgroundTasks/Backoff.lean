import BackgroundTasks.Saturating
import BackgroundTasks.Number.Binary64
import BackgroundTasks.Random.Draws
import BackgroundTasks.Task.Spec

/-!
# Delays

How long to wait before a retry, and when a periodic task runs next. Linear delays are exact
multiples of the base. Exponential ones are computed in floats, spread by a jitter, and cut off at a
ceiling; the draw behind the jitter can fail, and then there is no delay.
-/

namespace BackgroundTasks

/-- The parameters of a retry delay. -/
structure Backoff where
  growth : Growth
  baseMs : UInt64
  multiplier : Option Float
  jitter : Float
  maxMs : UInt64

namespace Backoff

/-- The ceiling of delays where no configuration sets one: five minutes. -/
def standardCeiling : UInt64 := 300000

/-- The multiplier of an exponential delay that has none of its own. -/
def standardMultiplier : Float := 2.0

/-- The parameters in a description, under a ceiling. -/
def ofSpec (s : Spec) (maxMs : UInt64) : Backoff :=
  ⟨s.growth, s.backoffDelayMs, s.backoffMultiplier, s.backoffJitter, maxMs⟩

/-- The same parameters with another base. -/
def withBase (b : Backoff) (baseMs : UInt64) : Backoff := { b with baseMs := baseMs }

/-- Repeated squaring, `fuel` squarings at most. -/
def powLoop : Nat → Nat → Float → Float → Float
  | 0, _, _, r => r
  | fuel + 1, n, a, r =>
    let r := if n % 2 = 1 then r * a else r
    if n / 2 = 0 then r else powLoop fuel (n / 2) (a * a) r

/-- The `n`-th power, squarings first; `n` has at most 31 bits. -/
def pow (a : Float) (n : Nat) : Float := powLoop 32 n a 1.0

/-- The value, or the nearest end of the interval; what is not a number stays as it is. -/
def clamp (lo hi x : Float) : Float :=
  let x := if x < lo then lo else x
  if x > hi then hi else x

/-- Exponents have 31 bits. -/
def maxExponent : Nat := 2147483647

/-- The exponent of a retry: the first has exponent zero. -/
def exponent (retry : UInt32) : Nat := min (retry.toNat - 1) maxExponent

/-- The exponential delay without jitter. -/
def raw (b : Backoff) (retry : UInt32) : Float :=
  b.baseMs.toFloat * pow (b.multiplier.getD standardMultiplier) (exponent retry)

/--
The delay before the given retry, counted from one. With jitter `f` an exponential delay is drawn
from `raw · (1 - f)` to `raw · (1 + f)`; when all of that lies at or above the ceiling, or `raw` is
too large for a float, the ceiling is taken without a draw.
-/
def delay (b : Backoff) (retry : UInt32) (d : Draws) : Option (UInt64 × Draws) :=
  match b.growth with
  | .linear => some (satMul b.baseMs retry.toUInt64, d)
  | .exponential =>
    let ceiling := b.maxMs.toFloat
    let raw := b.raw retry
    if !raw.isFinite then some (b.maxMs, d)
    else
      let jitter := clamp 0.0 1.0 b.jitter
      if jitter > 0.0 then
        let low := raw * (1.0 - jitter)
        if low ≥ ceiling then some (b.maxMs, d)
        else
          (d.between low (raw * (1.0 + jitter))).map fun (drawn, d) =>
            ((clamp 0.0 ceiling drawn).toUInt64, d)
      else some ((clamp 0.0 ceiling raw).toUInt64, d)

end Backoff

/--
When a periodic task that succeeded at `now` runs again: somewhere in the last `flex` of its
interval. A flex beyond the interval counts as the interval.
-/
def nextPeriodicRun (now interval flex : UInt64) (d : Draws) : UInt64 × Draws :=
  let flex := min flex interval
  let (offset, d) := if flex = 0 then (0, d) else d.upTo flex
  (satAdd (satAdd now (interval - flex)) offset, d)

end BackgroundTasks
