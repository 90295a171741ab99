/-!
# Programs over calls

An operation of the scheduler is a program that makes calls: to the store, to the platform, to the
clock. A program either has its result, or makes one call and goes on with the answer. Calls are
data, so a run can be cut between any two of them, and the calls of several programs can be
interleaved in any order; running one program to its end is the special case in which nothing comes
between.
-/

namespace BackgroundTasks

/-- The calls a program can make, each with the type of its answer. -/
structure Signature where
  Call : Type
  Answer : Call → Type

/-- A computation that makes calls. -/
inductive Program (σ : Signature) (α : Type) where
  | done (result : α)
  | call (c : σ.Call) (resume : σ.Answer c → Program σ α)

namespace Program

variable {σ : Signature} {α β γ : Type}

/-- Runs one program and goes on with its result. -/
def bind : Program σ α → (α → Program σ β) → Program σ β
  | done a, f => f a
  | call c k, f => call c fun r => (k r).bind f

instance : Monad (Program σ) where
  pure := done
  bind := bind

/-- The program that makes one call and returns the answer. -/
def perform (c : σ.Call) : Program σ (σ.Answer c) := call c done

theorem bind_done (p : Program σ α) : p.bind done = p := by
  induction p with
  | done a => rfl
  | call c k ih => exact congrArg (call c) (funext ih)

theorem bind_assoc (p : Program σ α) (f : α → Program σ β) (g : β → Program σ γ) :
    (p.bind f).bind g = p.bind fun a => (f a).bind g := by
  induction p with
  | done a => rfl
  | call c k ih => exact congrArg (call c) (funext ih)

instance : LawfulMonad (Program σ) :=
  LawfulMonad.mk' (Program σ) bind_done (fun _ _ => rfl) bind_assoc

/-! ## Running alone -/

/-- What becomes of a program: a result, or the call that never returned. -/
inductive Outcome (σ : Signature) (α : Type) where
  | finished (result : α)
  | aborted (c : σ.Call)

/--
Runs a program with nothing in between, threading a state through its calls. A call without an
answer ends the run; what it did to the state stays.
-/
def run {S : Type} (answer : (c : σ.Call) → S → Option (σ.Answer c) × S) :
    Program σ α → S → Outcome σ α × S
  | done a, s => (.finished a, s)
  | call c k, s =>
    match answer c s with
    | (some r, s) => run answer (k r) s
    | (none, s) => (.aborted c, s)

/-- Runs a program whose calls all return, with nothing in between. -/
def eval {S : Type} (answer : (c : σ.Call) → S → σ.Answer c × S) : Program σ α → S → α × S
  | done a, s => (a, s)
  | call c k, s =>
    let (r, s) := answer c s
    eval answer (k r) s

theorem eval_bind {S : Type} (answer : (c : σ.Call) → S → σ.Answer c × S) (p : Program σ α)
    (f : α → Program σ β) (s : S) :
    (p.bind f).eval answer s = (f (p.eval answer s).1).eval answer (p.eval answer s).2 := by
  induction p generalizing s with
  | done a => rfl
  | call c k ih => exact ih (answer c s).1 (answer c s).2

end Program

end BackgroundTasks
