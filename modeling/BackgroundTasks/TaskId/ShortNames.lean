import BackgroundTasks.Number.Decimal
import BackgroundTasks.TaskId

/-!
# Short names

A report about tasks is easier to read when they have short names: `$0`, `$1` and so on, in the
order in which the tasks came up. An id that has no short name is written in full.
-/

namespace BackgroundTasks

/-- The ids that have short names, in order. -/
structure ShortNames where
  ids : List TaskId := []

namespace ShortNames

/-- The ids with their names. -/
def pairs (s : ShortNames) : List (TaskId × String) :=
  s.ids.zipIdx.map fun (id, n) => (id, "$" ++ Number.decimalText n)

/-- The id that a name stands for. -/
def id? (s : ShortNames) (name : String) : Option TaskId :=
  (s.pairs.find? fun e => e.2 == name).map (·.1)

/-- The id that a text names, by a short name or in full. -/
def ofText? (s : ShortNames) (text : String) : Option TaskId :=
  (s.id? text).or (TaskId.ofText? text)

/-- Gives names to the ids that have none yet. -/
def add (s : ShortNames) (ids : List TaskId) : ShortNames :=
  ⟨s.ids ++ ids.filter fun id => !s.ids.contains id⟩

/-- Where an id stands in a report: by its short name, and behind all of these if it has none. -/
def rank (s : ShortNames) (id : TaskId) : Nat :=
  (s.ids.idxOf? id).getD (s.ids.length + id.bits.toNat)

/-- The length of an id in full. -/
def fullLength : Nat := 36

/-- A text with the short names of the ids in it. -/
def shorten (s : ShortNames) (text : String) : String :=
  if text.utf8ByteSize < fullLength then text
  else s.pairs.foldl (fun text (id, name) => text.replace id.text name) text

end ShortNames

end BackgroundTasks
