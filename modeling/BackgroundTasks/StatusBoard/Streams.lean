import BackgroundTasks.StatusBoard

/-!
# Streams by name

Whoever observes several tasks keeps the subscriptions under names. A name stands for one
subscription at most: a new one under the same name takes the place of the old, which ends only
after the new one has begun, so that a channel shared by the two is never taken down between them.
-/

namespace BackgroundTasks

/-- Subscriptions by name. -/
structure Streams where
  held : List (String × Nat) := []
deriving DecidableEq

namespace Streams

/-- The key of the subscription under a name. -/
def find? (s : Streams) (name : String) : Option Nat := s.held.lookup name

/-- The streams without the one of a name. -/
def without (s : Streams) (name : String) : List (String × Nat) :=
  s.held.filter fun e => e.1 != name

/-- Ends the subscription under a name. -/
def endOn (s : Streams) (board : StatusBoard) (name : String) : StatusBoard :=
  match s.find? name with
  | some key => board.unsubscribe key
  | none => board

/-- Keeps a subscription that has begun under a name, and ends the one that was there. -/
def keep (s : Streams) (board : StatusBoard) (name : String) (key : Nat) :
    Streams × StatusBoard :=
  (⟨(name, key) :: s.without name⟩, s.endOn board name)

/-- Drops the stream of a name; says whether there was one. -/
def drop (s : Streams) (board : StatusBoard) (name : String) : Bool × Streams × StatusBoard :=
  ((s.find? name).isSome, ⟨s.without name⟩, s.endOn board name)

/-- Looks at the stream of a name, if there is one. -/
def poll (s : Streams) (board : StatusBoard) (name : String) :
    Option (List (Option State)) × StatusBoard :=
  match s.find? name with
  | some key =>
    let (shown, board) := board.poll key
    (some shown, board)
  | none => (none, board)

end Streams

end BackgroundTasks
