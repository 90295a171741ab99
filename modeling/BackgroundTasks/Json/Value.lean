import BackgroundTasks.Number.Significand

/-!
# JSON values

A JSON value keeps what the text says: numerals as written, object members in order and with
repetitions. A string may spell half of a surrogate pair by an escape; it then stands for no text,
which matters only to whoever reads it.
-/

namespace BackgroundTasks

open Number (Numeral)

/-- A JSON value; `none` in place of a string is one whose escapes do not spell a text. -/
inductive Json where
  | null
  | bool (b : Bool)
  | number (n : Numeral)
  | string (s : Option String)
  | array (items : List Json)
  | object (members : List (Option String × Json))

namespace Json

instance : Inhabited Json := ⟨null⟩

/-! ## Making values -/

/-- A text. -/
def text (s : String) : Json := string (some s)

/-- A natural number. -/
def nat (n : Nat) : Json := number (Numeral.ofNat n)

/-- A 64-bit count. -/
def word (n : UInt64) : Json := nat n.toNat

/-- A 32-bit count. -/
def counter (n : UInt32) : Json := nat n.toNat

/-- A float; the ones without a numeral are written as null. -/
def float (f : Float) : Json :=
  match Number.FloatLayout.json.numeral? f with
  | some n => number n
  | none => null

/-- A value or null. -/
def optional {α : Type} (write : α → Json) : Option α → Json
  | some a => write a
  | none => null

/-- An object with the given members. -/
def record (members : List (String × Json)) : Json :=
  object (members.map fun (name, value) => (some name, value))

/-! ## Reading scalars -/

/-- The text of a string. -/
def text? : Json → Option String
  | string s => s
  | _ => none

/-- A truth value. -/
def bool? : Json → Option Bool
  | bool b => some b
  | _ => none

/-- An integer written as digits alone. Minus zero is no integer. -/
def int? : Json → Option Int
  | number n =>
    let c := n.value.coefficient
    if n.isWhole && !(n.negative && c == 0) then
      some (if n.negative then -(c : Int) else c)
    else none
  | _ => none

/-- A natural number below a bound. -/
def natBelow? (bound : Nat) (j : Json) : Option Nat :=
  match j.int? with
  | some (.ofNat n) => if n < bound then some n else none
  | _ => none

/-- A 64-bit count. -/
def word? (j : Json) : Option UInt64 := (j.natBelow? UInt64.size).map UInt64.ofNat

/-- A 32-bit count. -/
def counter? (j : Json) : Option UInt32 := (j.natBelow? UInt32.size).map UInt32.ofNat

/-- An 8-bit count. -/
def byte? (j : Json) : Option UInt8 := (j.natBelow? UInt8.size).map UInt8.ofNat

/-- The first integer beyond the signed 64-bit ones. -/
def signedBound : Int := 9223372036854775808

/-- A signed 64-bit integer. -/
def signed? (j : Json) : Option Int :=
  match j.int? with
  | some n => if -signedBound ≤ n && n < signedBound then some n else none
  | none => none

/-- A number as a float; one too large for any float is refused. -/
def float? : Json → Option Float
  | number n => n.float?
  | _ => none

/-! ## Reading into values -/

/-- A list of values. -/
def list? {α : Type} (read : Json → Option α) : Json → Option (List α)
  | array items => items.mapM read
  | _ => none

/-- The items of an array; any other value has none. -/
def items : Json → List Json
  | array vs => vs
  | _ => []

/-- The first member of that name, or null. -/
def member : Json → String → Json
  | object members, name => (members.lookup (some name)).getD null
  | _, _ => null

/-- The first member of that name, unless it is null. -/
def member? (j : Json) (name : String) : Option Json :=
  match j.member name with
  | null => none
  | v => some v

end Json

end BackgroundTasks
