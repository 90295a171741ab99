import BackgroundTasks.Config.Variables
import BackgroundTasks.Config.VariableValue

/-!
# Files of variables

A file may set variables that the environment leaves open, one `NAME=value` to a line, with blank
lines and `#` comments between. A line goes on after its end as long as a quote is open. The first
line that is no assignment spoils the file.
-/

namespace BackgroundTasks.Config

/-! ## Lines -/

/-- Where in a line the reader is. -/
inductive LineMode where
  | plain
  /-- After a blank, where a comment may start. -/
  | blank
  | escaped
  | single
  | singleEscaped
  | double
  | doubleEscaped
  | comment
deriving DecidableEq

/-- What is open after a character outside of quotes. -/
def LineMode.opened (c : Char) : LineMode :=
  if c = '\\' then .escaped else if c = '"' then .double else if c = '\'' then .single else .plain

/-- Where the reader is after another character. -/
def LineMode.next (mode : LineMode) (c : Char) : LineMode :=
  match mode with
  | .plain => if Text.isBlank c && c != '\n' && c != '\r' then .blank else opened c
  | .blank => if c = '#' then .comment else opened c
  | .escaped => .plain
  | .single => if c = '\\' then .singleEscaped else if c = '\'' then .plain else .single
  | .singleEscaped => .single
  | .double => if c = '\\' then .doubleEscaped else if c = '"' then .plain else .double
  | .doubleEscaped => .double
  | .comment => .comment

/-- The lines of a file under way, each without its comment. -/
structure PartialLines where
  /-- The lines before this one, last first. -/
  done : List (List Char) := []
  /-- This line so far, back to front. -/
  line : List Char := []
  mode : LineMode := .plain

namespace PartialLines

/-- The lines with this one at its end. -/
def close (p : PartialLines) : PartialLines := { done := p.line.reverse :: p.done }

/-- One character of a file. -/
def step (p : PartialLines) (c : Char) : PartialLines :=
  let mode := if c = '#' && Text.allBlank p.line then .comment else p.mode.next c
  if mode = .comment then
    if c = '\n' then p.close else { p with mode }
  else if mode = .plain && c = '\n' then p.close
  else { p with line := c :: p.line, mode }

end PartialLines

/--
The lines of a file, unless a quote is still open at its end or the blank before a comment is last.
A mark of byte order in front of the lines is no part of the first.
-/
def linesOf? (cs : List Char) : Option (List (List Char)) :=
  let cs := if cs.head? = some '\uFEFF' then cs.tail else cs
  let p := cs.foldl PartialLines.step {}
  if p.mode = .plain || p.mode = .comment then some p.close.done.reverse else none

/-! ## Assignments -/

/-- A character that a name may start with. -/
def startsName (c : Char) : Bool := c.isAlpha || c == '_'

/-- A character that a name may go on with. -/
def continuesName (c : Char) : Bool := c.isAlphanum || c == '_' || c == '.'

/-- The name at the start of a line and what follows it, blanks removed. -/
def readName? (cs : List Char) : Option (List Char × List Char) :=
  match cs with
  | c :: _ =>
    if startsName c then
      some (cs.takeWhile continuesName, Text.trimStart (cs.dropWhile continuesName))
    else none
  | [] => none

/-- The assignment on a line, if it has one; the outer `none` is a line that is spoilt. -/
def readLine? (env : List Assignment) (line : List Char) : Option (Option Assignment) :=
  let assign (name rest : List Char) : Option (Option Assignment) :=
    match rest with
    | '=' :: r =>
      (readValue? env (Text.trimStart r)).map fun value => some (String.ofList name, value)
    | _ => none
  match Text.trim line with
  | [] | '#' :: _ => some none
  | cs =>
    (readName? cs).bind fun (name, rest) =>
      if name = ['e', 'x', 'p', 'o', 'r', 't'] && rest.head? != some '=' then
        (readName? rest).bind fun (name, rest) => assign name rest
      else assign name rest

/-- The variables that are set after a line. -/
def takeLine? (env : List Assignment) (line : List Char) : Option (List Assignment) :=
  (readLine? env line).map fun assignment => env ++ assignment.toList

/-- The variables that are set when a file has been read, given those that were set before. -/
def readFile? (env : List Assignment) (text : String) : Option (List Assignment) :=
  (linesOf? text.toList).bind fun lines => lines.foldlM takeLine? env

/-- What is wrong with an environment. -/
inductive EnvironmentFault where
  | unreadableFile
  | invalid (fault : ConfigFault)
deriving DecidableEq

/--
The configuration that an environment describes, with a file of variables if there is one. What the
environment sets itself wins over the file.
-/
def ofEnvironment (own : List Assignment) (file : Option String) :
    Except EnvironmentFault Config :=
  match (file.map (readFile? own)).getD (some own) with
  | none => .error .unreadableFile
  | some env =>
    match ofVariables fun name => env.lookup name with
    | .ok c => .ok c
    | .error fault => .error (.invalid fault)

end BackgroundTasks.Config
