import BackgroundTasks.Payload.Schema
import BackgroundTasks.Work.Result

/-!
# Scripted workers

A script says what work units do: how long they take, and how they end. It goes by the name in the
payload, one behaviour after the other; whoever is not in the script, or has come to its end,
succeeds at once.
-/

namespace BackgroundTasks

/-- What a work unit does. -/
structure Behaviour where
  /-- The waits it makes one after the other, in milliseconds. -/
  waits : List Nat := []
  ending : WorkEnding := .returned .success
deriving DecidableEq, Repr, Inhabited

/-- What the work units of each name do. -/
structure Script where
  parts : List (String × List Behaviour) := []
deriving DecidableEq

namespace Script

/-- The script with another part for a name. -/
def assign (s : Script) (name : String) (behaviours : List Behaviour) : Script :=
  ⟨(name, behaviours) :: s.parts.filter fun p => p.1 != name⟩

/-- The name that a payload goes by. -/
def nameOf? (p : Payload) : Option String :=
  match p.field? "name" with
  | some (.text name) => some name
  | _ => none

/-- What the next work unit for a payload does. -/
def next (s : Script) (p : Payload) : Behaviour × Script :=
  match nameOf? p with
  | none => ({}, s)
  | some name =>
    match s.parts.lookup name with
    | some (b :: rest) => (b, s.assign name rest)
    | _ => ({}, s)

end Script

end BackgroundTasks
