/-!
# UTF-8

Characters as bytes and back. Decoding is strict: a character has exactly one accepted form,
its shortest, and the code points of surrogates have none.
-/

namespace BackgroundTasks.Text.Utf8

/-- The bytes of one character, the leading one first. -/
def encodeChar (c : Char) : List UInt8 :=
  let n := c.toNat
  if n < 0x80 then [UInt8.ofNat n]
  else if n < 0x800 then [UInt8.ofNat (0xC0 + n / 64), UInt8.ofNat (0x80 + n % 64)]
  else if n < 0x10000 then
    [UInt8.ofNat (0xE0 + n / 4096), UInt8.ofNat (0x80 + n / 64 % 64), UInt8.ofNat (0x80 + n % 64)]
  else
    [UInt8.ofNat (0xF0 + n / 262144), UInt8.ofNat (0x80 + n / 4096 % 64),
      UInt8.ofNat (0x80 + n / 64 % 64), UInt8.ofNat (0x80 + n % 64)]

/-- The bytes of a text. -/
def encode (cs : List Char) : List UInt8 := cs.flatMap encodeChar

/-- A byte that continues a character. -/
def isContinuation (b : UInt8) : Bool := 0x80 ≤ b && b < 0xC0

/-- Six payload bits of a continuation byte. -/
def low (b : UInt8) : Nat := b.toNat - 0x80

/--
The text that the bytes spell, if they spell one. The bounds on the second byte keep out the
longer forms, the surrogates and what lies beyond the last code point.
-/
def decode : List UInt8 → Option (List Char)
  | [] => some []
  | a :: r =>
    if a < 0x80 then (decode r).map (Char.ofNat a.toNat :: ·)
    else match r with
      | [] => none
      | b :: r =>
        if !isContinuation b then none
        else if 0xC2 ≤ a && a < 0xE0 then
          (decode r).map (Char.ofNat ((a.toNat - 0xC0) * 64 + low b) :: ·)
        else match r with
          | [] => none
          | c :: r =>
            if !isContinuation c then none
            else if 0xE0 ≤ a && a < 0xF0 then
              if (a == 0xE0 && b < 0xA0) || (a == 0xED && 0xA0 ≤ b) then none
              else (decode r).map
                (Char.ofNat ((a.toNat - 0xE0) * 4096 + low b * 64 + low c) :: ·)
            else match r with
              | [] => none
              | d :: r =>
                if !isContinuation d then none
                else if 0xF0 ≤ a && a < 0xF5 then
                  if (a == 0xF0 && b < 0x90) || (a == 0xF4 && 0x90 ≤ b) then none
                  else (decode r).map
                    (Char.ofNat ((a.toNat - 0xF0) * 262144 + low b * 4096 + low c * 64 + low d)
                      :: ·)
                else none

/-- The bytes of a string. -/
def ofString (s : String) : List UInt8 := encode s.toList

/-- The string that the bytes spell, if they spell one. -/
def toString? (bytes : List UInt8) : Option String := (decode bytes).map String.ofList

example : decode (encode ['a', 'é', '東', '🚀']) = some ['a', 'é', '東', '🚀'] := by decide

/-- A character cut short spells nothing. -/
example : decode ((encode ['é']).take 1) = none := by decide

end BackgroundTasks.Text.Utf8
