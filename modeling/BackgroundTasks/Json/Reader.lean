import BackgroundTasks.Json.Lexer

/-!
# Reading JSON

Tokens, one at a time, drive a machine with a stack of the arrays and objects that are still open.
A text is accepted when its tokens leave exactly one finished value. The grammar is the strict one:
no comments, no trailing commas, nothing after the value.
-/

namespace BackgroundTasks.Json

/-- Members back to front. -/
abbrev Members := List (Option String × Json)

/-- An open array or object, waiting for the value that comes next in it. -/
inductive Frame where
  | items (done : List Json)
  | member (done : Members) (name : Option String)

/-- What the machine waits for. -/
inductive Reader where
  /-- A value. -/
  | value (stack : List Frame)
  /-- The first item of an array, or its end. -/
  | firstItem (stack : List Frame)
  /-- The name of a member, or the end of an object without members. -/
  | name (done : Members) (first : Bool) (stack : List Frame)
  /-- The colon after a name. -/
  | colon (done : Members) (name : Option String) (stack : List Frame)
  /-- A comma, or the end of an array. -/
  | afterItem (done : List Json) (stack : List Frame)
  /-- A comma, or the end of an object. -/
  | afterMember (done : Members) (stack : List Frame)
  /-- The end of the text. -/
  | finished (v : Json)

namespace Reader

/-- Puts a finished value where it belongs. -/
def plug (v : Json) : List Frame → Reader
  | [] => finished v
  | .items done :: stack => afterItem (v :: done) stack
  | .member done key :: stack => afterMember ((key, v) :: done) stack

/-- A token at the start of a value. -/
def stepValue (stack : List Frame) : Token → Option Reader
  | .openArray => some (firstItem stack)
  | .openObject => some (name [] true stack)
  | .null => some (plug .null stack)
  | .bool b => some (plug (.bool b) stack)
  | .number n => some (plug (.number n) stack)
  | .string s => some (plug (.string s) stack)
  | _ => none

/-- One token. -/
def step : Reader → Token → Option Reader
  | value stack, t => stepValue stack t
  | firstItem stack, .closeArray => some (plug (.array []) stack)
  | firstItem stack, t => stepValue (.items [] :: stack) t
  | name done _ stack, .string s => some (colon done s stack)
  | name _ true stack, .closeObject => some (plug (.object []) stack)
  | colon done key stack, .colon => some (value (.member done key :: stack))
  | afterItem done stack, .comma => some (value (.items done :: stack))
  | afterItem done stack, .closeArray => some (plug (.array done.reverse) stack)
  | afterMember done stack, .comma => some (name done false stack)
  | afterMember done stack, .closeObject => some (plug (.object done.reverse) stack)
  | _, _ => none

/-- The value, if it is complete. -/
def result : Reader → Option Json
  | finished v => some v
  | _ => none

end Reader

/-- The value that tokens spell. -/
def ofTokens? (tokens : List Token) : Option Json :=
  (tokens.foldlM Reader.step (.value [])).bind Reader.result

/-- The value that a text spells. -/
def read? (cs : List Char) : Option Json := (tokens? cs).bind ofTokens?

/-- The value that a string spells. -/
def ofText? (s : String) : Option Json := read? s.toList

end BackgroundTasks.Json
