/-!
# Base64

Bytes as text over the standard alphabet, four characters for three bytes. Reading is canonical:
the padding is required, and the bits it leaves over must be zero, so each byte string has exactly
one accepted text.
-/

namespace BackgroundTasks.Text.Base64

/-- The character of a six-bit value. -/
def digit (v : Nat) : Char :=
  if v < 26 then Char.ofNat (65 + v)
  else if v < 52 then Char.ofNat (71 + v)
  else if v < 62 then Char.ofNat (v - 4)
  else if v = 62 then '+' else '/'

/-- The six-bit value of a character of the alphabet. -/
def value? (c : Char) : Option Nat :=
  if 'A' ≤ c && c ≤ 'Z' then some (c.toNat - 65)
  else if 'a' ≤ c && c ≤ 'z' then some (c.toNat - 71)
  else if '0' ≤ c && c ≤ '9' then some (c.toNat + 4)
  else if c == '+' then some 62
  else if c == '/' then some 63
  else none

/-- The text of a byte string. -/
def encode : List UInt8 → List Char
  | [] => []
  | [a] => [digit (a.toNat / 4), digit (a.toNat % 4 * 16), '=', '=']
  | [a, b] =>
    [digit (a.toNat / 4), digit (a.toNat % 4 * 16 + b.toNat / 16), digit (b.toNat % 16 * 4), '=']
  | a :: b :: c :: r =>
    digit (a.toNat / 4) :: digit (a.toNat % 4 * 16 + b.toNat / 16)
      :: digit (b.toNat % 16 * 4 + c.toNat / 64) :: digit (c.toNat % 64) :: encode r

/-- The bytes of one group of four characters; only the last group may be padded. -/
def group (last : Bool) (w x y z : Char) : Option (List UInt8) := do
  let p ← value? w
  let q ← value? x
  let first := UInt8.ofNat (p * 4 + q / 16)
  if last && y == '=' && z == '=' then
    if q % 16 = 0 then some [first] else none
  else
    let r ← value? y
    let second := UInt8.ofNat (q % 16 * 16 + r / 4)
    if last && z == '=' then
      if r % 4 = 0 then some [first, second] else none
    else
      let s ← value? z
      some [first, second, UInt8.ofNat (r % 4 * 64 + s)]

/-- The byte string that a text stands for. -/
def decode : List Char → Option (List UInt8)
  | [] => some []
  | w :: x :: y :: z :: r => do
    let bytes ← group r.isEmpty w x y z
    let rest ← decode r
    some (bytes ++ rest)
  | _ => none

example : encode [102, 111, 111, 98] = "Zm9vYg==".toList := by decide

/-- The bits under the padding must be zero. -/
example : decode "Zh==".toList = none := by decide

end BackgroundTasks.Text.Base64
