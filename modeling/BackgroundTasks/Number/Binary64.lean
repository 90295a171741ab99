/-!
# Binary64 values

A finite 64-bit float is `±m · 2^q` with integers `m` and `q`. This file takes floats apart into
that form and goes the other way: the float nearest to a quotient of two naturals, ties to the even
significand. Everything is exact integer arithmetic on the bits.
-/

namespace BackgroundTasks.Number

/-- What a float denotes. -/
inductive Binary64 where
  | nan
  | infinite (negative : Bool)
  /-- The value `±m · 2^q`; the sign also tells the two zeros apart. -/
  | finite (negative : Bool) (m : Nat) (q : Int)
deriving DecidableEq, Repr

namespace Binary64

/-- The exponent of the smallest positive float. -/
def leastExponent : Int := -1074

/-- A power of two. -/
def twoTo (n : Nat) : Nat := Nat.pow 2 n

/-- The first significand of full width. -/
def fullWidth : Nat := twoTo 52

/-- The bit of the sign. -/
def signBit : Nat := twoTo 63

/-- Bits of positive infinity. -/
def infinityBits : Nat := 0x7FF0000000000000

/-- The value that a float denotes, read off its bits. -/
def ofFloat (f : Float) : Binary64 :=
  let bits := f.toBits.toNat
  let negative := bits / signBit == 1
  let exponent : Nat := bits / fullWidth % twoTo 11
  let fraction : Nat := bits % fullWidth
  if exponent = 2047 then
    if fraction = 0 then .infinite negative else .nan
  else if exponent = 0 then .finite negative fraction leastExponent
  else .finite negative (fullWidth + fraction) ((exponent : Int) - 1075)

/-- `num / den` to the nearest integer, a half to the even one. -/
def roundQuotient (num den : Nat) : Nat :=
  let quotient := num / den
  let rest := num % den
  if 2 * rest < den then quotient
  else if den < 2 * rest then quotient + 1
  else quotient + quotient % 2

/-- `num / den · 2^(-q)` as a quotient of naturals. -/
def scaled (num den : Nat) (q : Int) : Nat × Nat :=
  if 0 ≤ q then (num, den * twoTo q.toNat) else (num * twoTo (-q).toNat, den)

/-- The exponent that gives `num / den` a significand of full width, if it is not too small. -/
def exponentFor (num den : Nat) : Int :=
  let q : Int := (num.log2 : Int) - den.log2 - 52
  let (n, d) := scaled num den q
  max leastExponent (if n / d < fullWidth then q - 1 else q)

/-- The bits of the float nearest to `num / den`; from the largest float on, of infinity. -/
def nearestBits (num den : Nat) : Nat :=
  if num = 0 then 0
  else
    let q := exponentFor num den
    let (n, d) := scaled num den q
    let m := roundQuotient n d
    if m < fullWidth then m
    else min infinityBits ((q + 1075).toNat * fullWidth + (m - fullWidth))

/-- The float nearest to `±num / den`. -/
def nearest (negative : Bool) (num den : Nat) : Float :=
  Float.ofBits (UInt64.ofNat ((if negative then signBit else 0) + nearestBits num den))

/-- A finite float above zero. -/
def isPositiveFinite (f : Float) : Bool := f.isFinite && !(f ≤ 0.0)

example : nearestBits 1 10 = 0x3FB999999999999A := by decide

/-- Half the smallest float is a tie, and goes to zero. -/
example : nearestBits 1 (twoTo 1075) = 0 := by decide +kernel

/-- The largest float and half a unit above it. -/
example : nearestBits (twoTo 971 * (twoTo 54 - 1)) 2 = infinityBits := by decide +kernel

end Binary64

end BackgroundTasks.Number
