import BackgroundTasks.TaskId
import BackgroundTasks.Task.State

/-!
# The status board

The board carries state changes to whoever observes a task. A task has at most one channel, which
holds the latest state and counts its changes; a subscription remembers up to which change it has
seen, so a slow reader sees the latest state only.

The first look at a subscription always shows what the channel holds. A channel whose state is
final is taken down once nobody subscribes to it.
-/

namespace BackgroundTasks

/-- What is known about a task, and how often it has changed. -/
structure Channel where
  id : TaskId
  value : Option State
  version : Nat := 0
deriving DecidableEq

namespace Channel

/-- The channel with a state published; only a different state counts as a change. -/
def send (c : Channel) (s : State) : Channel :=
  if c.value = some s then c else { c with value := some s, version := c.version + 1 }

/-- Whether a channel holds a final state. -/
def isFinished (c : Channel) : Bool := c.value.any State.isTerminal

end Channel

/-- A reader of a task's channel. -/
structure Subscription where
  key : Nat
  id : TaskId
  /-- The change up to which the reader has seen; none before the first look. -/
  seen : Option Nat := none
deriving DecidableEq

/-- The channels, and who reads them. -/
structure StatusBoard where
  channels : List Channel := []
  subscriptions : List Subscription := []
  /-- The key of the next subscription. -/
  nextKey : Nat := 0
deriving DecidableEq

namespace StatusBoard

/-- The channel of a task. -/
def find? (b : StatusBoard) (id : TaskId) : Option Channel := b.channels.find? fun c => c.id == id

/-- Whether somebody reads a task's channel. -/
def isObserved (b : StatusBoard) (id : TaskId) : Bool := b.subscriptions.any fun s => s.id == id

/-- The channels, with a state sent to the one of a task. -/
def sent (b : StatusBoard) (id : TaskId) (s : State) : List Channel :=
  b.channels.map fun c => if c.id = id then c.send s else c

/--
Publishes a state. A final one makes no channel, and is the occasion to take down the channels that
are finished and that nobody reads.
-/
def publish (b : StatusBoard) (id : TaskId) (s : State) : StatusBoard :=
  if s.isTerminal then
    { b with channels := (b.sent id s).filter fun c => b.isObserved c.id || !c.isFinished }
  else if (b.find? id).isSome then { b with channels := b.sent id s }
  else { b with channels := b.channels ++ [{ id, value := some s }] }

/-- Subscribes to a task; a channel that has to be made first holds what is known by now. -/
def subscribe (b : StatusBoard) (id : TaskId) (current : Option State) : Nat × StatusBoard :=
  (b.nextKey,
    { channels :=
        if (b.find? id).isSome then b.channels else b.channels ++ [{ id, value := current }]
      subscriptions := b.subscriptions ++ [{ key := b.nextKey, id }]
      nextKey := b.nextKey + 1 })

/-- Ends a subscription. -/
def unsubscribe (b : StatusBoard) (key : Nat) : StatusBoard :=
  { b with subscriptions := b.subscriptions.filter fun s => s.key != key }

/-- What a subscription shows: the channel's value, if the reader has not seen it yet. -/
def unseen? (b : StatusBoard) (s : Subscription) : Option Channel :=
  (b.find? s.id).filter fun c => s.seen != some c.version

/-- Looks at a subscription: everything it shows without waiting, which is one value at most. -/
def poll (b : StatusBoard) (key : Nat) : List (Option State) × StatusBoard :=
  match b.subscriptions.find? fun s => s.key == key with
  | none => ([], b)
  | some s =>
    match b.unseen? s with
    | none => ([], b)
    | some c =>
      ([c.value],
        { b with
          subscriptions := b.subscriptions.map fun s =>
            if s.key = key then { s with seen := some c.version } else s })

/-- How many channels there are. -/
def size (b : StatusBoard) : Nat := b.channels.length

end StatusBoard

end BackgroundTasks
