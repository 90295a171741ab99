/-!
# Blank space

The characters of the Unicode property *White_Space*, and texts without them at either end.
-/

namespace BackgroundTasks.Text

/-- The white space of Unicode: twenty-five characters in ten runs. -/
def isBlank (c : Char) : Bool :=
  (0x09 ≤ c.val && c.val ≤ 0x0D) || c.val == 0x20 || c.val == 0x85 || c.val == 0xA0
    || c.val == 0x1680 || (0x2000 ≤ c.val && c.val ≤ 0x200A) || c.val == 0x2028
    || c.val == 0x2029 || c.val == 0x202F || c.val == 0x205F || c.val == 0x3000

/-- The text without the blanks it starts with. -/
def trimStart (cs : List Char) : List Char := cs.dropWhile isBlank

/-- The text without the blanks at its two ends. -/
def trim (cs : List Char) : List Char := (trimStart (trimStart cs).reverse).reverse

/-- A text of nothing but blanks. -/
def allBlank (cs : List Char) : Bool := cs.all isBlank

example : trim "\t 4\u00a0\n".toList = ['4'] := by decide

end BackgroundTasks.Text
