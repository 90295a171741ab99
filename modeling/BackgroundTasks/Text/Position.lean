import BackgroundTasks.Number.Decimal

/-!
# Positions in messages

A message about a text may end in the position it is about, ` at line 3 column 14`. Whoever passes
such a message on takes it apart and puts it together again, so its numbers lose their leading
zeros, and a position at line zero, which is no position, is dropped.
-/

namespace BackgroundTasks.Text

/-- A message, and the position it is about. -/
structure Positioned where
  text : String
  line : Nat
  column : Nat
deriving DecidableEq, Repr

namespace Positioned

/-- What stands before the line. -/
def lineMark : String := " at line "

/-- What stands before the column. -/
def columnMark : String := " column "

/-- The number of one word at the end of a text, which is given back to front, and what is left. -/
def lastNumber? (reversed : List Char) : Option (Nat × List Char) :=
  let digits := reversed.takeWhile Char.isDigit
  let n := Number.ofDigits 0 digits.reverse
  if digits.isEmpty || UInt64.size ≤ n then none else some (n, reversed.dropWhile Char.isDigit)

/-- Takes a mark off the end of a text, which is given back to front. -/
def lastMark? (mark : String) (reversed : List Char) : Option (List Char) :=
  mark.toList.reverse.isPrefixOf? reversed

/-- The parts of a message that ends in a position. -/
def ofMessage? (message : String) : Option Positioned := do
  let (column, rest) ← lastNumber? message.toList.reverse
  let (line, rest) ← lastNumber? (← lastMark? columnMark rest)
  let rest ← lastMark? lineMark rest
  some ⟨String.ofList rest.reverse, line, column⟩

/-- The parts put together. -/
def message (p : Positioned) : String :=
  if p.line = 0 then p.text
  else p.text ++ lineMark ++ Number.decimalText p.line ++ columnMark
    ++ Number.decimalText p.column

end Positioned

/-- A message taken apart and put together again; one without a position stays as it is. -/
def tidyPosition (message : String) : String :=
  match Positioned.ofMessage? message with
  | some p => p.message
  | none => message

example : tidyPosition "x at line 007 column 00" = "x at line 7 column 0" := by decide +kernel
example : tidyPosition "x at line 0 column 5" = "x" := by decide +kernel
example : tidyPosition "x at line 3 column " = "x at line 3 column " := by decide +kernel

end BackgroundTasks.Text
