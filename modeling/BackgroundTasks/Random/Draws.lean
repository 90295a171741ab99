import BackgroundTasks.Random.ChaCha

/-!
# Draws

Random numbers are drawn from an infinite sequence of 64-bit words. A draw takes whole words and
moves on; nothing is assumed about where the words come from, so a statement about every sequence
is a statement about every generator.
-/

namespace BackgroundTasks

/-- A word sequence and how many of its words are used up. -/
structure Draws where
  word : Nat → UInt64
  used : Nat := 0

namespace Draws

/-- The words of a seeded generator. -/
def seeded (seed : UInt64) : Draws := { word := Random.seededWord seed }

/-- The given words over and over, and zeros when there are none. -/
def cycling (words : List UInt64) : Draws := { word := fun n => words.getD (n % words.length) 0 }

/-- The next word. -/
def next (d : Draws) : UInt64 × Draws := (d.word d.used, { d with used := d.used + 1 })

/-- The next `count` words. -/
def take : Nat → Draws → List UInt64
  | 0, _ => []
  | count + 1, d =>
    let (w, d) := d.next
    w :: take count d

/-- The float in `[0, 1)` that the upper 52 bits of a word stand for. -/
def unitFloat (w : UInt64) : Float := Float.ofBits ((w >>> 12) ||| 0x3FF0000000000000) - 1.0

/--
A float drawn uniformly between two bounds. There is none when the bounds are not in order, or
when one of them or their distance is not finite; then no word is used.
-/
def between (d : Draws) (lo hi : Float) : Option (Float × Draws) :=
  if !(lo ≤ hi) || !lo.isFinite || !hi.isFinite || !(hi - lo).isFinite then none
  else
    let (w, d) := d.next
    some (unitFloat w * (hi - lo) + lo, d)

/--
An integer drawn uniformly from `0` to `top`. The upper half of the product of a word and the
number of choices is nearly uniform; when its lower half is so large that more bits could carry
into the upper one, a second word decides the carry.
-/
def upTo (d : Draws) (top : UInt64) : UInt64 × Draws :=
  let choices := top + 1
  let (w, d) := d.next
  if choices = 0 then (w, d)
  else
    let product := w.toNat * choices.toNat
    let result := product / UInt64.size
    let low := product % UInt64.size
    if UInt64.size - choices.toNat < low then
      let (w, d) := d.next
      let carry := (low + w.toNat * choices.toNat / UInt64.size) / UInt64.size
      (UInt64.ofNat (result + carry), d)
    else (UInt64.ofNat result, d)

end Draws

end BackgroundTasks
