import BackgroundTasks.Text.Hex

/-!
# Task ids

A task is named by 128 bits. They are written as 32 hexadecimal digits in groups of 8, 4, 4, 4
and 12; three more spellings are read. Ids are ordered as numbers, which is the order of their
texts.
-/

namespace BackgroundTasks

/-- The name of a task. -/
structure TaskId where
  bits : BitVec 128
deriving DecidableEq, Repr

namespace TaskId

/-- The id with the given number, modulo `2^128`. -/
def ofNat (n : Nat) : TaskId := ⟨BitVec.ofNat 128 n⟩

/-- Ids in ascending order. -/
def le (a b : TaskId) : Bool := a.bits.toNat ≤ b.bits.toNat

/-- The text of an id. -/
def text (id : TaskId) : String :=
  let d := Text.hexDigits 32 id.bits.toNat
  String.ofList (d.take 8 ++ '-' :: (d.drop 8).take 4 ++ '-' :: (d.drop 12).take 4
    ++ '-' :: (d.drop 16).take 4 ++ '-' :: d.drop 20)

/-- The id that 32 hexadecimal digits spell. -/
def ofDigits? (digits : List Char) : Option TaskId :=
  if digits.length = 32 then (Text.ofHexDigits? 0 digits).map ofNat else none

/-- The id that five groups of digits spell, hyphens between them. -/
def ofHyphenated? (cs : List Char) : Option TaskId :=
  if cs.length = 36 && [8, 13, 18, 23].all (fun i => cs[i]? == some '-') then
    ofDigits? (cs.take 8 ++ (cs.drop 9).take 4 ++ (cs.drop 14).take 4 ++ (cs.drop 19).take 4
      ++ cs.drop 24)
  else none

/-- The name space that an id may be written under, in either case. -/
def nameSpace : List Char := "urn:uuid:".toList

/--
The id that a text spells: bare digits, or hyphenated groups which may also stand in braces or
after the name space.
-/
def ofText? (s : String) : Option TaskId :=
  let cs := s.toList
  if cs.length = 32 then ofDigits? cs
  else if cs.length = 38 && cs.head? == some '\x7b' && cs.getLast? == some '\x7d' then
    ofHyphenated? (cs.drop 1).dropLast
  else if cs.length = 45 && (cs.take 9).map Char.toLower == nameSpace then
    ofHyphenated? (cs.drop 9)
  else ofHyphenated? cs

example : (ofText? "67E5504410B1426F9247BB680E5FE0C8").map text
    = some "67e55044-10b1-426f-9247-bb680e5fe0c8" := by decide +kernel

end TaskId

end BackgroundTasks
