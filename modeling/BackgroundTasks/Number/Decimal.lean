import BackgroundTasks.Number.Binary64

/-!
# Decimals

A decimal is `±c · 10^e`. Here are the float nearest to a decimal, and the shortest decimal that
denotes a given float: of all decimals that round to the float, one with the fewest digits, and of
those the nearest.
-/

namespace BackgroundTasks.Number

/-- The number `±coefficient · 10^exponent`. -/
structure Decimal where
  negative : Bool
  coefficient : Nat
  exponent : Int
deriving DecidableEq, Repr

/-- The decimal digits of a natural, most significant first. -/
def decimalDigits (n : Nat) : List Char := Nat.toDigits 10 n

/-- The decimal text of a natural. -/
def decimalText (n : Nat) : String := String.ofList (decimalDigits n)

/-- The value of a decimal digit. -/
def digitValue? (c : Char) : Option Nat :=
  if '0' ≤ c && c ≤ '9' then some (c.toNat - '0'.toNat) else none

/-- The number that decimal digits spell, reading on from `start`. -/
def ofDigits (start : Nat) (digits : List Char) : Nat :=
  digits.foldl (fun n c => n * 10 + (digitValue? c).getD 0) start

namespace Decimal

/-- A power of ten. -/
def tenTo (n : Nat) : Nat := Nat.pow 10 n

/-- Beyond this power of ten every float is infinite or zero. -/
def farExponent : Int := 400

/-- The float nearest to a decimal. Magnitudes far outside the range are settled by size alone. -/
def toFloat (d : Decimal) : Float :=
  let size : Int := (decimalDigits d.coefficient).length + d.exponent
  if d.coefficient = 0 || size < -farExponent then Binary64.nearest d.negative 0 1
  else if farExponent < size then
    Float.ofBits
      (UInt64.ofNat ((if d.negative then Binary64.signBit else 0) + Binary64.infinityBits))
  else if 0 ≤ d.exponent then
    Binary64.nearest d.negative (d.coefficient * tenTo d.exponent.toNat) 1
  else Binary64.nearest d.negative d.coefficient (tenTo (-d.exponent).toNat)

/-! ## The shortest decimal of a float -/

/--
The reals that round to a float, in units of a quarter of its last place: the float itself lies at
`4 * m`, and the ends belong to the interval exactly when `m` is even.
-/
structure Rounding where
  low : Nat
  value : Nat
  high : Nat
  /-- One unit is `2^unit`. -/
  unit : Int
  closed : Bool

/-- The interval of `m · 2^q`. Below a power of two the floats lie twice as close. -/
def rounding (m : Nat) (q : Int) : Rounding where
  low := if m = Binary64.fullWidth && Binary64.leastExponent < q then 4 * m - 1 else 4 * m - 2
  value := 4 * m
  high := 4 * m + 2
  unit := q - 2
  closed := m % 2 == 0

/-- One unit divided by `10^p`, as a quotient of naturals. -/
def Rounding.grid (r : Rounding) (p : Int) : Nat × Nat :=
  (Binary64.twoTo r.unit.toNat * tenTo (-p).toNat, Binary64.twoTo (-r.unit).toNat * tenTo p.toNat)

/--
The multiple of `10^p` that lies in the interval and next to the value: of two the nearer one, and
the even one when they are equally near.
-/
def Rounding.onGrid? (r : Rounding) (p : Int) : Option Nat :=
  let (a, b) := r.grid p
  let below := r.value * a / b
  let above := below + 1
  let lowOk := if r.closed then r.low * a ≤ below * b else r.low * a < below * b
  let highOk := if r.closed then above * b ≤ r.high * a else above * b < r.high * a
  let toBelow := r.value * a - below * b
  let toAbove := above * b - r.value * a
  if lowOk && highOk then
    some (if toBelow < toAbove || (toBelow == toAbove && below % 2 == 0) then below else above)
  else if lowOk then some below
  else if highOk then some above
  else none

/-- `10^p ≤ m · 2^q`. -/
def powerBelow (m : Nat) (q p : Int) : Bool :=
  Binary64.twoTo (-q).toNat * tenTo p.toNat ≤ m * Binary64.twoTo q.toNat * tenTo (-p).toNat

/-- The power of ten at or below a positive value, from an estimate that is off by at most one. -/
def magnitude (m : Nat) (q : Int) : Int :=
  let guess := ((m.log2 + q) * 1233).fdiv 4096
  if powerBelow m q (guess + 1) then guess + 1
  else if powerBelow m q guess then guess
  else guess - 1

/--
Grids from coarse to fine, each ten times as fine as the one before. The first is too coarse for any
value but those that round up to the next power of ten; seventeen digits are always enough.
-/
def Rounding.search (r : Rounding) : Nat → Int → Nat × Int
  | 0, p => ((r.onGrid? p).getD 0, p)
  | finer + 1, p =>
    match r.onGrid? p with
    | some c => (c, p)
    | none => r.search finer (p - 1)

/-- The shortest decimal of the positive value `m · 2^q`, and of zero the decimal zero. -/
def shortest (negative : Bool) (m : Nat) (q : Int) : Decimal :=
  if m = 0 then ⟨negative, 0, 0⟩
  else
    let (c, p) := (rounding m q).search 18 (magnitude m q + 1)
    ⟨negative, c, p⟩

end Decimal

/-! ## Layout -/

/-- A number as it is written: its sign, the digits around the point, and a power of ten. -/
structure Numeral where
  negative : Bool
  whole : List Char
  fraction : List Char
  exponent : Option Int
deriving DecidableEq, Repr

namespace Numeral

/-- The numeral of a natural. -/
def ofNat (n : Nat) : Numeral := ⟨false, decimalDigits n, [], none⟩

/-- The numeral of an integer. -/
def ofInt (n : Int) : Numeral := ⟨n < 0, decimalDigits n.natAbs, [], none⟩

/-- The number that a numeral stands for. -/
def value (n : Numeral) : Decimal :=
  ⟨n.negative, ofDigits 0 (n.whole ++ n.fraction), n.exponent.getD 0 - n.fraction.length⟩

/-- A numeral of digits alone. -/
def isWhole (n : Numeral) : Bool := n.fraction.isEmpty && n.exponent.isNone

/-- The text of an exponent, which always has a sign. -/
def exponentChars (e : Int) : List Char := (if e < 0 then '-' else '+') :: decimalDigits e.natAbs

/-- The text of a numeral. -/
def chars (n : Numeral) : List Char :=
  (if n.negative then ['-'] else []) ++ n.whole
    ++ (if n.fraction.isEmpty then [] else '.' :: n.fraction)
    ++ (match n.exponent with | some e => 'e' :: exponentChars e | none => [])

end Numeral

/--
How the digits of a float are laid out. The point is written among digits or zeros when it would
stand after a number of places from `least` to `most` (counted from the first digit, so one before
it is zero); anywhere else an exponent is written.
-/
structure FloatLayout where
  least : Option Int
  most : Option Int
  /-- The fraction of a number that has none. -/
  emptyFraction : List Char

namespace FloatLayout

/-- The layout of floats in JSON texts: an integral number keeps one zero as its fraction. -/
def json : FloatLayout := ⟨some (-4), some 16, ['0']⟩

/-- The layout of floats in messages: never an exponent, never an empty fraction. -/
def message : FloatLayout := ⟨none, none, []⟩

/-- Whether the point is written out after `places` places. -/
def positional (layout : FloatLayout) (places : Int) : Bool :=
  layout.least.all (· ≤ places) && layout.most.all (places ≤ ·)

/-- `count` zeros. -/
def zeros (count : Nat) : List Char := List.replicate count '0'

/-- The numeral of a decimal. -/
def numeral (layout : FloatLayout) (d : Decimal) : Numeral :=
  let digits := decimalDigits d.coefficient
  let places : Int := digits.length + d.exponent
  if d.coefficient = 0 then ⟨d.negative, ['0'], layout.emptyFraction, none⟩
  else if layout.positional places then
    if 0 ≤ d.exponent then
      ⟨d.negative, digits ++ zeros d.exponent.toNat, layout.emptyFraction, none⟩
    else if 0 < places then
      ⟨d.negative, digits.take places.toNat, digits.drop places.toNat, none⟩
    else ⟨d.negative, ['0'], zeros (-places).toNat ++ digits, none⟩
  else ⟨d.negative, digits.take 1, digits.drop 1, some (places - 1)⟩

/-- The numeral of a finite float: its shortest decimal, laid out. -/
def numeral? (layout : FloatLayout) (f : Float) : Option Numeral :=
  match Binary64.ofFloat f with
  | .finite negative m q => some (layout.numeral (Decimal.shortest negative m q))
  | _ => none

/-- The text of a float. -/
def text (layout : FloatLayout) (f : Float) : String :=
  match Binary64.ofFloat f with
  | .nan => "NaN"
  | .infinite negative => if negative then "-inf" else "inf"
  | .finite negative m q => String.ofList (layout.numeral (Decimal.shortest negative m q)).chars

end FloatLayout

/-- The smallest positive float has one digit, not the sixteen of its exact neighbourhood. -/
example : Decimal.shortest false 1 (-1074) = ⟨false, 5, -324⟩ := by decide +kernel

/-- One tenth is the float next to one tenth. -/
example : Decimal.shortest false 0x1999999999999A (-56) = ⟨false, 1, -1⟩ := by decide +kernel

end BackgroundTasks.Number
