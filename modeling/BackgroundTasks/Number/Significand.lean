import BackgroundTasks.Number.Decimal

/-!
# Floats by way of a significand

A numeral can be read as a float in three steps. Its digits are gathered in a significand of one
word, as far as they fit; the significand is rounded to a float; and that float is multiplied or
divided by a power of ten, which is a float as well. Every step rounds at most once, so a numeral
of a few digits and a small exponent is read exactly, while one of many digits may come out as a
neighbour of the float that is nearest to it.
-/

namespace BackgroundTasks.Number

/-- The first number that is no significand. -/
def significandBound : Nat := Binary64.twoTo 64

/-- A significand with digits appended as long as they fit, and the digits that are left. -/
def gather (s : Nat) : List Char → Nat × List Char
  | [] => (s, [])
  | c :: rest =>
    let next := s * 10 + (digitValue? c).getD 0
    if next < significandBound then gather next rest else (s, c :: rest)

theorem gather_lt {s : Nat} (h : s < significandBound) (cs : List Char) :
    (gather s cs).1 < significandBound := by
  induction cs generalizing s with
  | nil => exact h
  | cons c rest ih =>
    simp only [gather]
    split
    · next hn => exact ih hn
    · exact h

/--
The significand of a numeral, and the power of ten that it is to be scaled by. Digits of the
whole part that do not fit leave their place behind, so a digit after the point may follow where
one before it was left out.
-/
def Numeral.significand (n : Numeral) : Nat × Int :=
  let (s, left) := gather 0 n.whole
  let (s, unread) := gather s n.fraction
  (s, n.exponent.getD 0 + left.length + unread.length - n.fraction.length)

/-- The largest power of ten that is a float. -/
def greatestPower : Nat := 308

/-- The float nearest to a power of ten. -/
def powerOfTen (n : Nat) : Float := Binary64.nearest false (Decimal.tenTo n) 1

/-- A float times a power of ten, unless that is too large; small results are reached in steps. -/
def timesPowerOfTen (f : Float) (e : Int) : Option Float :=
  if f == 0.0 then some f
  else if (greatestPower : Int) < e then none
  else if 0 ≤ e then
    let product := f * powerOfTen e.toNat
    if product.isFinite then some product else none
  else if -(greatestPower : Int) ≤ e then some (f / powerOfTen (-e).toNat)
  else timesPowerOfTen (f / powerOfTen greatestPower) (e + greatestPower)
termination_by (-e).toNat
decreasing_by
  simp only [greatestPower] at *
  omega

/-- The float that a numeral is read as; a numeral beyond all floats is refused. -/
def Numeral.float? (n : Numeral) : Option Float :=
  let (s, e) := n.significand
  (timesPowerOfTen (Binary64.nearest false s 1) e).map fun f => if n.negative then -f else f

/-- Two nines of the whole part do not fit, and the digit after the point still does. -/
example : (⟨false, decimalDigits 184467440737095516199, ['5'], none⟩ : Numeral).significand
    = (18446744073709551615, 1) := by decide +kernel

end BackgroundTasks.Number
