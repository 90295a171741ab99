import BackgroundTasks.Json.Value
import BackgroundTasks.Text.Hex

/-!
# JSON texts

A value is written compactly, without any blank, or with one member or item to a line. In strings
only the quote, the backslash and the control characters below the blank are escaped.
-/

namespace BackgroundTasks.Json

/-- A character inside a string. -/
def escape (c : Char) : List Char :=
  if c = '"' then ['\\', '"']
  else if c = '\\' then ['\\', '\\']
  else if c = '\x08' then ['\\', 'b']
  else if c = '\x0c' then ['\\', 'f']
  else if c = '\n' then ['\\', 'n']
  else if c = '\r' then ['\\', 'r']
  else if c = '\t' then ['\\', 't']
  else if c.toNat < 0x20 then '\\' :: 'u' :: Text.hexDigits 4 c.toNat
  else [c]

/-- A string between quotes. What spells no text is written as half a surrogate pair. -/
def quoted : Option String → List Char
  | some s => '"' :: s.toList.flatMap escape ++ ['"']
  | none => '"' :: '\\' :: 'u' :: Text.hexDigits 4 0xD800 ++ ['"']

mutual

/-- The text of a value without blanks. -/
def compact : Json → List Char
  | null => ['n', 'u', 'l', 'l']
  | bool true => ['t', 'r', 'u', 'e']
  | bool false => ['f', 'a', 'l', 's', 'e']
  | number n => n.chars
  | string s => quoted s
  | array items => '[' :: compactItems items
  | object members => '\x7b' :: compactMembers members

/-- Items up to the closing bracket. -/
def compactItems : List Json → List Char
  | [] => [']']
  | [v] => compact v ++ [']']
  | v :: r => compact v ++ ',' :: compactItems r

/-- Members up to the closing brace. -/
def compactMembers : List (Option String × Json) → List Char
  | [] => ['\x7d']
  | [(k, v)] => quoted k ++ ':' :: compact v ++ ['\x7d']
  | (k, v) :: r => quoted k ++ ':' :: compact v ++ ',' :: compactMembers r

end

/-- A new line, indented by two blanks a level. -/
def newline (level : Nat) : List Char := '\n' :: List.replicate (2 * level) ' '

mutual

/-- The text of a value over several lines; empty arrays and objects stay on one. -/
def pretty (level : Nat) : Json → List Char
  | array [] => ['[', ']']
  | array items => '[' :: prettyItems (level + 1) items
  | object [] => ['\x7b', '\x7d']
  | object members => '\x7b' :: prettyMembers (level + 1) members
  | null => compact null
  | bool b => compact (bool b)
  | number n => compact (number n)
  | string s => compact (string s)

/-- Items on lines of their own up to the closing bracket. -/
def prettyItems (level : Nat) : List Json → List Char
  | [] => [']']
  | [v] => newline level ++ pretty level v ++ newline (level - 1) ++ [']']
  | v :: r => newline level ++ pretty level v ++ ',' :: prettyItems level r

/-- Members on lines of their own up to the closing brace. -/
def prettyMembers (level : Nat) : List (Option String × Json) → List Char
  | [] => ['\x7d']
  | [(k, v)] =>
    newline level ++ quoted k ++ ':' :: ' ' :: pretty level v ++ newline (level - 1) ++ ['\x7d']
  | (k, v) :: r =>
    newline level ++ quoted k ++ ':' :: ' ' :: pretty level v ++ ',' :: prettyMembers level r

end

/-- The compact text of a value. -/
def compactText (j : Json) : String := String.ofList j.compact

/-- The text of a value over several lines. -/
def prettyText (j : Json) : String := String.ofList (j.pretty 0)

end BackgroundTasks.Json
