import BackgroundTasks.Json.Reader
import BackgroundTasks.Json.Printer
import BackgroundTasks.Text.Blank
import BackgroundTasks.Text.Utf8
import BackgroundTasks.Store.Place
import BackgroundTasks.Store.Table

/-!
# The store in files

The rows are kept in a snapshot, which is written anew under a passing name and then renamed; the
log is a file of lines that only grows. Both are read when the store is opened, and from then on the
table in memory answers; a call that changes something writes it down before the table takes it in.

A completion writes its log line first and then the snapshot. When the snapshot fails, the log is
cut back to where it was.
-/

namespace BackgroundTasks.FileStore

/-- The file of the rows. -/
def snapshotName : String := "tasks.json"

/-- The file in which a snapshot is prepared. -/
def draftName : String := "tasks.json.tmp"

/-- The file of the log. -/
def logName : String := "execution_log.jsonl"

/-! ## Contents -/

/-- The content of a snapshot: every row, oldest first. -/
def snapshot (t : TaskTable) : List UInt8 :=
  Text.Utf8.ofString (Json.array (t.list.map Row.toJson)).prettyText

/-- The rows in a snapshot. -/
def rowsOf? (bytes : List UInt8) : Option (List Row) := do
  let text ← Text.Utf8.toString? bytes
  let json ← Json.ofText? text
  json.list? (Row.ofJson? (Json.nestingLimit - 1))

/-- The line of a log entry. -/
def logLine (e : LogEntry) : List UInt8 :=
  Text.Utf8.ofString (e.toJson.compactText ++ "\n")

/-- The byte that ends a line. -/
def lineFeed : UInt8 := 0x0A

/-- The byte that may stand before the end of a line. -/
def carriageReturn : UInt8 := 0x0D

/-- A finished line, given back to front, without what ends it. -/
def finishLine (reversed : List UInt8) : List UInt8 :=
  match reversed with
  | b :: rest => if b = carriageReturn then rest.reverse else reversed.reverse
  | [] => []

/-- Lines on from a line under way, which is given back to front. -/
def linesFrom (reversed : List UInt8) : List UInt8 → List (List UInt8)
  | [] => if reversed.isEmpty then [] else [reversed.reverse]
  | b :: rest =>
    if b = lineFeed then finishLine reversed :: linesFrom [] rest
    else linesFrom (b :: reversed) rest

/-- The lines of a file. What follows the last line feed is a line of its own. -/
def linesOf (bytes : List UInt8) : List (List UInt8) := linesFrom [] bytes

/-- The entry on a line. What does not spell one is passed over, as a torn line has to be. -/
def entryOf? (line : String) : Option LogEntry :=
  if Text.allBlank line.toList then none else (Json.ofText? line).bind LogEntry.ofJson?

/-- The entries in a log; each of its lines has to be a text. -/
def entriesOf? (bytes : List UInt8) : Option (List LogEntry) :=
  ((linesOf bytes).mapM Text.Utf8.toString?).map (·.filterMap entryOf?)

/-! ## Working on the files -/

/-- A program on files that may fail. -/
abbrev Work (α : Type) : Type := ExceptT StoreFault FileProgram α

/-- A call to the file system, whose failure ends the work. -/
def perform (c : FileCall) : Work c.Result :=
  Program.call c fun
    | some r => .done (.ok r)
    | none => .done (.error .storage)

/-- Does the work; when it fails, cuts the log back to a length before it fails. -/
def orCutLog {α : Type} (work : Work α) (length : Nat) : Work α :=
  Program.bind work fun
    | .ok a => .done (.ok a)
    | .error fault => .call (.truncate logName length) fun _ => .done (.error fault)

/-- What is read from a file, or a default when there is no such file. -/
def readOr {α : Type} (name : String) (default : α) (read : List UInt8 → Option α) : Work α := do
  let there : Bool ← perform (.isThere name)
  if there then
    match read (← perform (.read name)) with
    | some a => return a
    | none => throw .unreadable
  else return default

/-- Opens the store, making its folder if there is none. -/
def openTable : Work TaskTable := do
  perform .makeRoot
  let rows ← readOr snapshotName [] rowsOf?
  let log ← readOr logName [] entriesOf?
  return .ofParts rows log

/-- Writes the rows of a table down. -/
def writeSnapshot (t : TaskTable) : Work Unit := do
  perform (.write draftName (snapshot t))
  perform (.rename draftName snapshotName)

/-- Writes a log entry down; returns the length of the log before. -/
def appendToLog (e : LogEntry) : Work Nat := do
  perform (.openAtEnd logName)
  let length ← perform (.size logName)
  orCutLog (perform (.append logName (logLine e))) length
  return length

/-- Takes in what a call has led to, once the work is done. -/
def commit {c : StoreCall} (before after : TaskTable) (result : c.Result) (work : Work Unit) :
    FileProgram (c.Answer × TaskTable) :=
  Program.bind work fun
    | .ok () => .done (.ok result, after)
    | .error fault => .done (.error (.store fault), before)

/-- What a call returns, and the table that the store goes on with. -/
def answer (t : TaskTable) (c : StoreCall) : FileProgram (c.Answer × TaskTable) :=
  match c with
  | .complete id completion entry =>
    let ((applied, stored), next) := t.complete id completion entry
    commit t next applied do
      let length ← appendToLog stored
      if applied then orCutLog (writeSnapshot next) length
  | .appendLog entry =>
    commit t (t.appendLog entry) () do
      let _ ← appendToLog entry
  | c =>
    match t.answer c with
    | (.error failure, _) => .done (.error failure, t)
    | (.ok result, next) =>
      commit t next result (if c.changesRows result then writeSnapshot next else pure ())

end BackgroundTasks.FileStore
