import BackgroundTasks.Scheduler.Execution
import BackgroundTasks.Scheduler.Responses
import BackgroundTasks.Scheduler.Watchdog
import BackgroundTasks.Store.Table
import Mathlib.Logic.Relation

/-!
# Operations side by side

Any number of operations are under way over one store. Each of them is a program, and at any time
any one of them may have its next call answered; nothing is said about who comes next, so a
statement about every scene is a statement about every order of calls.

The store answers as the task table does. Everything else is left open: a clock may show any time, a
generator may draw any word, a work unit may end in any way and a platform may hand out any handle.
A call to the store or to the platform may also fail, or break down and take its operation with it.

A scene remembers all that has happened, the latest moment first. What a claim says about the order
of things is said about that history.
-/

namespace BackgroundTasks

/-! ## What can be asked for -/

/-- Something that can be asked of a scheduler. -/
inductive Job where
  | submit (request : Request)
  | execute (id : TaskId)
  | dispatch (id : TaskId)
  | cancel (id : TaskId)
  | cancelAll
  | reschedule (id : TaskId) (request : Request)
  | tick
  | taskStatus (id : TaskId)
  | list
  | executionLog (id : TaskId)
  | observe (id : TaskId)
  | unsubscribe (key : Nat)
  /-- A handle is recorded in a row, wherever it may come from. -/
  | record (id : TaskId) (handle : Option String)

/-- An operation whose result nobody looks at. -/
def Operation.program {α : Type} (op : Operation α) : Program Call.signature Unit :=
  Program.bind op fun _ => .done ()

/-- The program of a job. -/
def Job.program (s : Scheduler) : Job → Program Call.signature Unit
  | submit request => (s.submit request).program
  | execute id => (s.execute id).program
  | dispatch id => (s.dispatch id).program
  | cancel id => (Scheduler.cancel id).program
  | cancelAll => Scheduler.cancelAll.program
  | reschedule id request => (s.reschedule id request).program
  | tick => Scheduler.tick.program
  | taskStatus id => (Scheduler.taskStatus id).program
  | list => Scheduler.list.program
  | executionLog id => (Scheduler.executionLog id).program
  | observe id => (Scheduler.observe id).program
  | unsubscribe key => (Operation.ask (.unsubscribe key)).program
  | record id handle => (Operation.store (.setPlatformId id handle)).program

/-! ## What a call may return -/

namespace Call

/-- Whether a call is one to the platform. -/
def isPlatform : Call → Bool
  | arm .. | disarm _ | isArmed _ => true
  | _ => false

/-- Whether a call concerns neither rows nor wake-ups. Delays before retries are not counted. -/
def isIncidental : Call → Bool
  | store _ | arm .. | disarm _ | isArmed _ | retryDelay .. => false
  | _ => true

/-- Whether an answer is that of a call that fails; some calls cannot. -/
def Fails : (c : Call) → c.Answer → Prop
  | store _, a => ∃ f, a = Except.error f
  | readStatus _, a => ∃ f, a = Except.error f
  | arm .., a => ∃ f, a = Except.error f
  | disarm _, a => ∃ f, a = Except.error f
  | isArmed _, a => ∃ f, a = Except.error f
  | _, _ => False

/-- Whether a call may never return. -/
def mayBreakDown : Call → Bool
  | store _ | readStatus _ | retryDelay .. => true
  | c => c.isPlatform

/-- What a call that neither fails nor breaks down may return, and the table it leaves behind. -/
def Returns (t : TaskTable) : (c : Call) → c.Answer → TaskTable → Prop
  | store c, a, t' => (a, t') = t.answer c
  | readStatus id, a, t' => a = Except.ok ((t.find? id).map Row.state) ∧ t' = t
  | arm .., a, t' => (∃ handle, a = Except.ok handle) ∧ t' = t
  | disarm _, a, t' => a = Except.ok () ∧ t' = t
  | isArmed _, a, t' => (∃ armed, a = Except.ok armed) ∧ t' = t
  | _, _, t' => t' = t

end Call

/-! ## Scenes -/

/-- Something that happens. Operations go by numbers, in the order in which they begin. -/
inductive Occurrence where
  | begins (who : Nat) (job : Job)
  /-- The platform gives a registration up, and the cycle of its task begins. -/
  | wakes (who : Nat) (id : TaskId)
  | answers (who : Nat) (c : Call) (a : c.Answer)
  /-- A call fails; the table is as it was. -/
  | fails (who : Nat) (c : Call) (a : c.Answer)
  /-- A call breaks down, and its operation is gone; the table is as it was. -/
  | breaksDown (who : Nat) (c : Call)

namespace Occurrence

/-- The operation that something happens to. -/
def who : Occurrence → Nat
  | begins who _ | wakes who _ | answers who _ _ | fails who _ _ | breaksDown who _ => who

/-- Whether an operation begins. -/
def isBeginning : Occurrence → Bool
  | begins .. | wakes .. => true
  | _ => false

end Occurrence

/-- Something that has happened, between two states of the table. -/
structure Moment where
  occurrence : Occurrence
  before : TaskTable
  after : TaskTable

/-- The table that a history has led to. -/
def tableAfter : List Moment → TaskTable
  | [] => .empty
  | m :: _ => m.after

/-- Whether a program has come to its end. -/
def Program.isDone {σ : Signature} {α : Type} : Program σ α → Bool
  | done _ => true
  | call .. => false

/-- What is left of the operations that have begun, and what has happened so far. -/
structure Scene where
  /-- By number; nothing is left of an operation that has returned or is gone. -/
  activities : List (Program Call.signature Unit) := []
  /-- The latest moment first. -/
  past : List Moment := []

namespace Scene

/-- The rows and the log. -/
def table (w : Scene) : TaskTable := tableAfter w.past

/-- The scene after something has happened. -/
def on (w : Scene) (activities : List (Program Call.signature Unit)) (o : Occurrence)
    (t : TaskTable) : Scene where
  activities := activities
  past := ⟨o, w.table, t⟩ :: w.past

/-- Every operation that has begun has come to its end. -/
def AllReturned (w : Scene) : Prop := ∀ p ∈ w.activities, p = .done ()

instance (w : Scene) : Decidable w.AllReturned :=
  decidable_of_iff (∀ p ∈ w.activities, p.isDone = true)
    (forall₂_congr fun p _ => by cases p <;> simp [Program.isDone])

end Scene

variable {s : Scheduler}

/-- Something happens. -/
inductive Step (s : Scheduler) : Scene → Scene → Prop where
  | begin (w : Scene) (job : Job) :
      Step s w (w.on (w.activities ++ [job.program s]) (.begins w.activities.length job) w.table)
  | wake (w : Scene) (id : TaskId) :
      Step s w (w.on (w.activities ++ [(Job.dispatch id).program s])
        (.wakes w.activities.length id) w.table)
  | answer {w : Scene} {who : Nat} {c : Call} {k : c.Answer → Program Call.signature Unit}
      {a : c.Answer} {t : TaskTable} (next : w.activities[who]? = some (.call c k))
      (returns : c.Returns w.table a t) :
      Step s w (w.on (w.activities.set who (k a)) (.answers who c a) t)
  | fail {w : Scene} {who : Nat} {c : Call} {k : c.Answer → Program Call.signature Unit}
      {a : c.Answer} (next : w.activities[who]? = some (.call c k)) (failure : c.Fails a) :
      Step s w (w.on (w.activities.set who (k a)) (.fails who c a) w.table)
  | breakDown {w : Scene} {who : Nat} {c : Call} {k : c.Answer → Program Call.signature Unit}
      (next : w.activities[who]? = some (.call c k)) (breaks : c.mayBreakDown = true) :
      Step s w (w.on (w.activities.set who (.done ())) (.breaksDown who c) w.table)

/-- A scene that may come about when nothing is under way at first, over a store without rows. -/
inductive Reachable (s : Scheduler) : Scene → Prop where
  | init : Reachable s {}
  | tail {w w' : Scene} (hr : Reachable s w) (hs : Step s w w') : Reachable s w'

theorem Reachable.run {s : Scheduler} {w : Scene} (hw : Reachable s w) :
    Relation.ReflTransGen (Step s) {} w := by
  induction hw with
  | init => exact .refl
  | tail _ hs ih => exact ih.tail hs

/-- How many operations have begun. -/
def beginnings : List Moment → Nat
  | [] => 0
  | m :: past => beginnings past + if m.occurrence.isBeginning then 1 else 0

theorem beginnings_le (m : Moment) (past : List Moment) :
    beginnings past ≤ beginnings (m :: past) := Nat.le_add_right _ _

theorem beginnings_le_append (later earlier : List Moment) :
    beginnings earlier ≤ beginnings (later ++ earlier) := by
  induction later with
  | nil => exact Nat.le_refl _
  | cons m later ih => exact Nat.le_trans ih (beginnings_le m (later ++ earlier))

/-- Operations are numbered in the order in which they begin. -/
theorem length_activities {w : Scene} (hw : Reachable s w) :
    w.activities.length = beginnings w.past := by
  induction hw with
  | init => rfl
  | tail _ hs ih =>
    cases hs with
    | begin job => simp [Scene.on, beginnings, Occurrence.isBeginning, ih]
    | wake id => simp [Scene.on, beginnings, Occurrence.isBeginning, ih]
    | answer | fail | breakDown => simp [Scene.on, beginnings, Occurrence.isBeginning, ih]

end BackgroundTasks
