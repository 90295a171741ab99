/-!
# Contexts

A context holds one shared value, which is made when it is first asked for. Making it may fail, and
is then tried again by whoever asks next; once made, the value stays.
-/

namespace BackgroundTasks

/-- The holder of a value that is made when it is needed. -/
structure Context (α : Type) where
  value : Option α := none

namespace Context

variable {α ε : Type}

/-- Whether the value has been made. -/
def isInitialized (c : Context α) : Bool := c.value.isSome

/-- What asking for the value comes to. -/
structure Request (α ε : Type) where
  result : Except ε α
  /-- Whether the value was being made. -/
  ran : Bool

/-- The value, made by `init` if it is not there yet. -/
def getOrInit (c : Context α) (init : Unit → Except ε α) : Request α ε × Context α :=
  match c.value with
  | some a => (⟨.ok a, false⟩, c)
  | none =>
    match init () with
    | .ok a => (⟨.ok a, true⟩, ⟨some a⟩)
    | .error e => (⟨.error e, true⟩, c)

theorem isInitialized_getOrInit (c : Context α) (init : Unit → Except ε α) :
    (c.getOrInit init).2.isInitialized = (c.getOrInit init).1.result.isOk := by
  unfold getOrInit isInitialized
  split
  · next h => simp [h, Except.isOk, Except.toBool]
  · next h => split <;> simp [h, Except.isOk, Except.toBool]

end Context

end BackgroundTasks
