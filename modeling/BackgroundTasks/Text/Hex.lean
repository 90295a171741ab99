/-!
# Hexadecimal digits

Lower-case digits are written, either case is read.
-/

namespace BackgroundTasks.Text

/-- The digit of a value below sixteen. -/
def hexDigit (v : Nat) : Char := if v < 10 then Char.ofNat (48 + v) else Char.ofNat (87 + v)

/-- The value of a hexadecimal digit. -/
def hexValue? (c : Char) : Option Nat :=
  if '0' ≤ c && c ≤ '9' then some (c.toNat - 48)
  else if 'a' ≤ c && c ≤ 'f' then some (c.toNat - 87)
  else if 'A' ≤ c && c ≤ 'F' then some (c.toNat - 55)
  else none

/-- Exactly `width` digits of a number, the most significant first. -/
def hexDigits : Nat → Nat → List Char
  | 0, _ => []
  | width + 1, n => hexDigits width (n / 16) ++ [hexDigit (n % 16)]

/-- The number that hexadecimal digits spell, reading on from `start`. -/
def ofHexDigits? : Nat → List Char → Option Nat
  | start, [] => some start
  | start, c :: r =>
    match hexValue? c with
    | some v => ofHexDigits? (start * 16 + v) r
    | none => none

example : hexDigits 4 0x1f = ['0', '0', '1', 'f'] := by decide
example : ofHexDigits? 0 ['1', 'F'] = some 31 := by decide

end BackgroundTasks.Text
