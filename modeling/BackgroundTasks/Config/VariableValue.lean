import BackgroundTasks.Text.Alphanumeric

/-!
# Values of variables

The value in an assignment may be quoted. Within double quotes and outside of quotes a backslash
escapes and a dollar sign refers to another variable, as `$NAME` or with the name in braces; within
single quotes every character stands for itself. A blank outside of quotes ends the value, and only
a comment may follow. A variable that is not set counts as empty.
-/

namespace BackgroundTasks.Config

/-- An assignment to a variable. -/
abbrev Assignment := String × String

/-- What a variable stands for; of two assignments the earlier one counts. -/
def valueOf (env : List Assignment) (name : String) : List Char :=
  ((env.lookup name).getD "").toList

/-- Where in a value the reader is. -/
inductive ValueMode where
  /-- In the value itself, perhaps within double quotes. -/
  | text (inDouble : Bool)
  /-- Within single quotes. -/
  | single
  /-- After a backslash. -/
  | escaped (inDouble : Bool)
  /-- In a reference without braces; its name so far, back to front. -/
  | reference (inDouble : Bool) (name : List Char)
  /-- In a reference with braces; its name so far, back to front. -/
  | braced (inDouble : Bool) (name : List Char)
  /-- After a blank outside of quotes, where only a comment may follow. -/
  | ended
  | comment
deriving DecidableEq

/-- A value under way, back to front. -/
structure PartialValue where
  chars : List Char := []
  mode : ValueMode := .text false

/-- The character that a backslash and `c` stand for in a value. -/
def valueEscape? (c : Char) : Option Char :=
  if c = '\\' || c = '\'' || c = '"' || c = '$' || c = ' ' then some c
  else if c = 'n' then some '\n'
  else none

namespace PartialValue

/-- The value with another character at its end. -/
def push (v : PartialValue) (c : Char) (inDouble : Bool) : PartialValue :=
  ⟨c :: v.chars, .text inDouble⟩

/-- The value with what a name, back to front, refers to at its end. -/
def refer (v : PartialValue) (env : List Assignment) (name : List Char) (mode : ValueMode) :
    PartialValue :=
  ⟨(valueOf env (String.ofList name.reverse)).reverse ++ v.chars, mode⟩

/-- One character of the value itself. -/
def textStep (v : PartialValue) (inDouble : Bool) (c : Char) : PartialValue :=
  if c = '$' then { v with mode := .reference inDouble [] }
  else if c = '\\' then { v with mode := .escaped inDouble }
  else if c = '"' then { v with mode := .text !inDouble }
  else if inDouble then v.push c true
  else if c = '\'' then { v with mode := .single }
  else if c = ' ' || c = '\t' then { v with mode := .ended }
  else v.push c false

/-- One character of a reference without braces. The one that ends it belongs to the value. -/
def referenceStep (v : PartialValue) (env : List Assignment) (inDouble : Bool) (name : List Char)
    (c : Char) : PartialValue :=
  if Text.isAlphanumeric c then { v with mode := .reference inDouble (c :: name) }
  else if c = '\x7b' && name.isEmpty then { v with mode := .braced inDouble [] }
  else if c = '$' then v.refer env name (.reference inDouble [])
  else (v.refer env name (.text inDouble)).push c inDouble

/-- One character of a value. -/
def step (env : List Assignment) (v : PartialValue) (c : Char) : Option PartialValue :=
  match v.mode with
  | .comment => some v
  | .ended =>
    if c = ' ' || c = '\t' then some v
    else if c = '#' then some { v with mode := .comment }
    else none
  | .escaped inDouble => (valueEscape? c).map fun c => v.push c inDouble
  | .single =>
    some (if c = '\'' then { v with mode := .text false } else { v with chars := c :: v.chars })
  | .reference inDouble name => some (v.referenceStep env inDouble name c)
  | .braced inDouble name =>
    some (if c = '\x7d' then v.refer env name (.text inDouble)
      else { v with mode := .braced inDouble (c :: name) })
  | .text inDouble => some (v.textStep inDouble c)

/-- The whole value; its quotes and braces must be closed. -/
def finish? (env : List Assignment) (v : PartialValue) : Option (List Char) :=
  match v.mode with
  | .single | .text true | .escaped true | .reference true _ | .braced .. => none
  | .reference false name => some (v.refer env name .ended).chars.reverse
  | .text false | .escaped false | .ended | .comment => some v.chars.reverse

end PartialValue

/-- The value that the rest of a line spells, given the variables that are set. -/
def readValue? (env : List Assignment) (cs : List Char) : Option String :=
  match cs with
  | [] | '#' :: _ => some ""
  | cs => ((cs.foldlM (PartialValue.step env) {}).bind (·.finish? env)).map String.ofList

example : readValue? [("A", "x")] "\"$\x7bA\x7d\\$A\" # b".toList = some "x$A" := by decide +kernel
example : readValue? [("A", "x")] "$A-'$A'$B".toList = some "x-$A" := by decide +kernel
example : readValue? [("A", "x")] "\"$A\"".toList = none := by decide +kernel

end BackgroundTasks.Config
