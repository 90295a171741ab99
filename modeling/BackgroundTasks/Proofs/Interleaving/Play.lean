import BackgroundTasks.Proofs.Interleaving.Basic
import BackgroundTasks.Proofs.Rows
import BackgroundTasks.System.Basic

/-!
# Scenes played in a system

A system decides what a scene leaves open: what its clock shows, what its generators draw, which
calls go wrong. A play puts the operations of a scene into a system and follows cues, which say who
comes next. Whatever the cues are and wherever the system keeps its rows, the scene of a play is
reachable, so what holds of every reachable scene holds of every play.
-/

namespace BackgroundTasks

/-! ## What a store in files answers -/

namespace FileStore

variable {t before after : TaskTable} {c : StoreCall}

/-- A call is as the table has it, or it fails and leaves the table as it was. -/
def Faithful (t : TaskTable) (c : StoreCall) (r : c.Answer × TaskTable) : Prop :=
  r = t.answer c ∨ ∃ failure, r = (.error failure, t)

/-- Whatever becomes of the files, a call is taken in as a whole or not at all. -/
theorem faithful_commit {result : c.Result} (work : Work Unit) (place : Place)
    (h : t.answer c = (.ok result, after)) :
    Faithful t c ((commit t after result work).eval Place.answer place).1 := by
  unfold commit
  rw [Program.eval_bind]
  cases (Program.eval Place.answer work place).1 with
  | ok => exact .inl h.symm
  | error fault => exact .inr ⟨.store fault, rfl⟩

/-- A call that does its work on the snapshot alone. -/
theorem faithful_plain (place : Place)
    (h : answer t c = match t.answer c with
      | (.error failure, _) => .done (.error failure, t)
      | (.ok result, next) =>
        commit t next result (if c.changesRows result then writeSnapshot next else pure ())) :
    Faithful t c ((answer t c).eval Place.answer place).1 := by
  rw [h]
  rcases hc : t.answer c with ⟨failure | result, next⟩
  · exact .inr ⟨failure, rfl⟩
  · exact faithful_commit _ place hc

theorem faithful_answer (t : TaskTable) (c : StoreCall) (place : Place) :
    Faithful t c ((answer t c).eval Place.answer place).1 := by
  cases c with
  | complete id completion entry => exact faithful_commit _ place rfl
  | appendLog entry => exact faithful_commit _ place rfl
  | _ => exact faithful_plain place rfl

end FileStore

/-! ## What a system answers -/

namespace Call

/-- Whether an answer reports an error. -/
def isError : (c : Call) → c.Answer → Bool
  | store _, Except.error _ | readStatus _, Except.error _ | arm .., Except.error _
  | disarm _, Except.error _ | isArmed _, Except.error _ => true
  | _, _ => false

/-- What happens when an operation makes a call: it gets an answer, or none. -/
def occurrence (who : Nat) (c : Call) : Option c.Answer → Occurrence
  | some a => if c.isError a then .fails who c a else .answers who c a
  | none => .breaksDown who c

theorem fails_of_isError {c : Call} {a : c.Answer} (h : c.isError a = true) : c.Fails a := by
  unfold isError at h
  split at h
  · exact ⟨_, rfl⟩
  · exact ⟨_, rfl⟩
  · exact ⟨_, rfl⟩
  · exact ⟨_, rfl⟩
  · exact ⟨_, rfl⟩
  · cases h

end Call

namespace System

variable {s : Scheduler} {y y' : System}

/-- What a scene makes of an answer: a call that reports an error fails, and changes no row. -/
def Sound (t : TaskTable) (c : Call) (a : c.Answer) (t' : TaskTable) : Prop :=
  if c.isError a = true then t' = t else c.Returns t a t'

theorem sound_answerStore (c : StoreCall) (y : System) :
    Sound y.table (.store c) (y.answerStore c).1 (y.answerStore c).2.table := by
  have faithful :
      FileStore.Faithful y.table c ((y.answerStore c).1, (y.answerStore c).2.table) := by
    unfold answerStore table
    cases y.store with
    | memory t => exact .inl rfl
    | files t => exact FileStore.faithful_answer t c y.place
  unfold Sound
  rcases faithful with htable | ⟨failure, hfailure⟩
  · cases ha : (y.answerStore c).1 with
    | error failure =>
      rw [ha] at htable
      exact TaskTable.answer_error htable.symm
    | ok result =>
      rw [ha] at htable
      exact htable
  · rw [(Prod.mk.inj hfailure).1]
    exact (Prod.mk.inj hfailure).2

theorem sound_askStore {c : StoreCall} {a : c.Answer} (h : y.askStore c = (some a, y')) :
    Sound y.table (.store c) a y'.table := by
  unfold askStore at h
  split at h
  · have hsound := sound_answerStore c y
    rcases hanswer : y.answerStore c with ⟨r, next⟩
    rw [hanswer] at h hsound
    obtain ⟨hr, rfl⟩ := Prod.mk.inj h
    obtain rfl := Option.some.inj hr
    exact hsound
  · obtain ⟨ha, rfl⟩ := Prod.mk.inj h
    obtain rfl := Option.some.inj ha
    exact rfl
  · cases congrArg Prod.fst h

theorem askStore_none {c : StoreCall} (h : y.askStore c = (none, y')) : y' = y := by
  unfold askStore at h
  split at h
  · cases congrArg Prod.fst h
  · cases congrArg Prod.fst h
  · exact (congrArg Prod.snd h).symm

/-- The platform has nothing to do with the table. -/
theorem table_askPlatform {α : Type} (c : Call) (f : Platform → α × Platform) (y : System) :
    (y.askPlatform c f).2.table = y.table := by
  unfold askPlatform
  split <;> rfl

theorem table_answer_platform {c : Call} (hc : c.isPlatform = true) :
    (y.answer c).2.table = y.table := by
  cases c with
  | arm id delay conditions =>
    exact table_askPlatform (.arm id delay conditions)
      (fun p => p.arm y.elapsed id delay conditions) y
  | disarm => exact table_askPlatform _ _ y
  | isArmed => exact table_askPlatform _ _ y
  | _ => cases hc

/-- Whatever a system answers, it answers as a scene allows. -/
theorem sound_answer {c : Call} {a : c.Answer} (h : y.answer c = (some a, y')) :
    Sound y.table c a y'.table := by
  have hsnd : (y.answer c).2 = y' := congrArg Prod.snd h
  cases c with
  | store c => exact sound_askStore h
  | readStatus id =>
    simp only [answer] at h
    rcases hask : y.askStore (.get id) with ⟨r, next⟩
    rw [hask] at h
    obtain ⟨hr, rfl⟩ := Prod.mk.inj h
    obtain ⟨r, rfl, rfl⟩ := Option.map_eq_some_iff.1 hr
    have hsound := sound_askStore hask
    cases r with
    | error failure => exact hsound
    | ok row =>
      obtain ⟨hrow, htable⟩ := Prod.mk.inj hsound
      exact ⟨congrArg (Except.map (Option.map Row.state)) hrow, htable⟩
  | arm id delay conditions =>
    have htable : y'.table = y.table := hsnd ▸ table_answer_platform rfl
    cases a with
    | error failure => exact htable
    | ok handle => exact ⟨⟨handle, rfl⟩, htable⟩
  | disarm id =>
    have htable : y'.table = y.table := hsnd ▸ table_answer_platform rfl
    cases a with
    | error failure => exact htable
    | ok => exact ⟨rfl, htable⟩
  | isArmed id =>
    have htable : y'.table = y.table := hsnd ▸ table_answer_platform rfl
    cases a with
    | error failure => exact htable
    | ok shown => exact ⟨⟨shown, rfl⟩, htable⟩
  | retryDelay backoff retry =>
    simp only [answer] at h
    split at h
    · obtain ⟨-, rfl⟩ := Prod.mk.inj h
      exact rfl
    · cases congrArg Prod.fst h
  | publish | subscribe | unsubscribe | now | newId | periodicRun | work | emit =>
    subst hsnd
    exact rfl

/-- A call that a system does not answer has broken down, and has changed no row. -/
theorem table_of_no_answer {c : Call} (h : y.answer c = (none, y')) :
    c.mayBreakDown = true ∧ y'.table = y.table := by
  have hsnd : (y.answer c).2 = y' := congrArg Prod.snd h
  cases c with
  | store c => exact ⟨rfl, congrArg table (askStore_none h)⟩
  | readStatus id =>
    simp only [answer] at h
    rcases hask : y.askStore (.get id) with ⟨r, next⟩
    rw [hask] at h
    obtain ⟨hr, rfl⟩ := Prod.mk.inj h
    rw [Option.map_eq_none_iff] at hr
    subst hr
    exact ⟨rfl, congrArg table (askStore_none hask)⟩
  | arm => exact ⟨rfl, hsnd ▸ table_answer_platform rfl⟩
  | disarm => exact ⟨rfl, hsnd ▸ table_answer_platform rfl⟩
  | isArmed => exact ⟨rfl, hsnd ▸ table_answer_platform rfl⟩
  | retryDelay backoff retry =>
    simp only [answer] at h
    split at h
    · cases congrArg Prod.fst h
    · obtain ⟨-, rfl⟩ := Prod.mk.inj h
      exact ⟨rfl, rfl⟩
  | publish | subscribe | unsubscribe | now | newId | periodicRun | work | emit =>
    cases congrArg Prod.fst h

end System

/-! ## Plays -/

/-- What comes next in a play. -/
inductive Cue where
  | begin (job : Job)
  /-- The platform wakes a task, if the task is armed. -/
  | wake (id : TaskId)
  /-- An operation makes its next call. -/
  | go (who : Nat)
  /-- The attempt that an operation is waiting for comes to an end. -/
  | finish (who : Nat) (ending : WorkEnding)

/-- A scene and the system that it is played in. -/
structure Play where
  scene : Scene := {}
  system : System

namespace Play

variable {s : Scheduler} {p : Play} {who : Nat} {c : Call}
  {k : c.Answer → Program Call.signature Unit}

/-- An operation has its call answered by the system. -/
def go (p : Play) (who : Nat) (c : Call) (k : c.Answer → Program Call.signature Unit) : Play :=
  let (r, system) := p.system.answer c
  let activities := p.scene.activities.set who (r.elim (.done ()) k)
  { scene := p.scene.on activities (c.occurrence who r) system.table, system }

/-- An operation begins. -/
def begin (s : Scheduler) (p : Play) (job : Job) : Play :=
  let o := .begins p.scene.activities.length job
  { p with scene := p.scene.on (p.scene.activities ++ [job.program s]) o p.scene.table }

/-- The platform gives a registration up, and the cycle of its task begins. -/
def wake (s : Scheduler) (p : Play) (id : TaskId) : Play :=
  let o := .wakes p.scene.activities.length id
  { scene := p.scene.on (p.scene.activities ++ [(Job.dispatch id).program s]) o p.scene.table
    system := { p.system with platform := p.system.platform.disarm id } }

/-- An attempt ends. -/
def finish (p : Play) (who : Nat) (payload : Payload) (attempt : Attempt)
    (k : WorkEnding → Program Call.signature Unit) (ending : WorkEnding) : Play :=
  let o := .answers who (.work payload attempt) ending
  { p with scene := p.scene.on (p.scene.activities.set who (k ending)) o p.scene.table }

/-- The play after a cue. A cue that nobody can follow changes nothing. -/
def next (s : Scheduler) (p : Play) : Cue → Play
  | .begin job => p.begin s job
  | .wake id => if p.system.platform.isArmed id then p.wake s id else p
  | .go who =>
    match p.scene.activities[who]? with
    | some (.call c k) => p.go who c k
    | _ => p
  | .finish who ending =>
    match p.scene.activities[who]? with
    | some (.call (.work payload attempt) k) => p.finish who payload attempt k ending
    | _ => p

/-- The play after some cues. -/
def run (s : Scheduler) (p : Play) (cues : List Cue) : Play := cues.foldl (next s) p

/-- The scene is reachable, and the system has its rows. -/
structure InOrder (s : Scheduler) (p : Play) : Prop where
  reachable : Reachable s p.scene
  table : p.system.table = p.scene.table

theorem inOrder_go (h : InOrder s p) (hnext : p.scene.activities[who]? = some (.call c k)) :
    InOrder s (p.go who c k) := by
  unfold go
  rcases hanswer : p.system.answer c with ⟨_ | a, system⟩
  · obtain ⟨hbreaks, htable⟩ := System.table_of_no_answer hanswer
    dsimp only [Call.occurrence]
    rw [htable, h.table]
    exact ⟨.tail h.reachable (.breakDown hnext hbreaks), htable.trans h.table⟩
  · have hsound := System.sound_answer hanswer
    unfold System.Sound at hsound
    dsimp only [Call.occurrence]
    split at hsound
    · next herror =>
      rw [if_pos herror, hsound, h.table]
      exact ⟨.tail h.reachable (.fail hnext (Call.fails_of_isError herror)), hsound.trans h.table⟩
    · next hfine =>
      rw [h.table] at hsound
      rw [if_neg hfine]
      exact ⟨.tail h.reachable (.answer hnext hsound), rfl⟩

/-- Following one cue is one step, or none. -/
theorem inOrder_next (h : InOrder s p) (cue : Cue) : InOrder s (p.next s cue) := by
  cases cue with
  | begin job => exact ⟨.tail h.reachable (.begin p.scene job), h.table⟩
  | wake id =>
    show InOrder s (if p.system.platform.isArmed id then p.wake s id else p)
    split
    · exact ⟨.tail h.reachable (.wake p.scene id), h.table⟩
    · exact h
  | go who =>
    simp only [next]
    split
    · next hnext => exact inOrder_go h hnext
    · exact h
  | finish who ending =>
    simp only [next]
    split
    · next hnext => exact ⟨.tail h.reachable (.answer hnext rfl), h.table⟩
    · exact h

theorem inOrder_run (h : InOrder s p) (cues : List Cue) : InOrder s (p.run s cues) := by
  induction cues generalizing p with
  | nil => exact h
  | cons cue cues ih => exact ih (inOrder_next h cue)

/-- **Whatever is played, the scene is reachable**, if the system has no rows at first. -/
theorem reachable_run {y : System} (h : y.table = .empty) (cues : List Cue) :
    Reachable s (run s { system := y } cues).scene :=
  (inOrder_run ⟨.init, h⟩ cues).reachable

end Play

/-! ## Rehearsals -/

namespace Rehearsal

/-- Payloads that hold nothing. -/
def bare : PayloadType := { typeId := "bare", fields := [] }

/-- A scheduler that knows bare payloads. -/
def scheduler : Scheduler := ⟨{}, { types := [bare] }⟩

/-- A bare task that is retried after a second, then after two, and so on. -/
def request : Request :=
  { Request.oneTime { type := bare, values := [] } with retry := .linear (.ofMillis 1000) }

/-- A bare task that runs every hour, and is retried as the configuration says. -/
def hourly : Request := .periodic { type := bare, values := [] } ⟨3600000000000⟩ ⟨1500000⟩

/-- A system that works. Its clock stands still, and its ids are numbers. -/
def system : System where
  store := .memory .empty
  platform := .registrations {}
  sink := .silent
  clock := ⟨0, false⟩
  draws := .cycling []
  ids := TaskId.ofNat

/-- The task that is submitted first. -/
def first : TaskId := TaskId.ofNat 0

/-- The task that is submitted second. -/
def second : TaskId := TaskId.ofNat 1

/-- An operation makes several calls, or as many as it has. -/
def goes (who calls : Nat) : List Cue := List.replicate calls (.go who)

/-- An operation begins and comes to its end. -/
def whole (who : Nat) (job : Job) : List Cue := .begin job :: goes who 20

/-- A cycle begins, and claims its row if it can; its attempt is under way then. -/
def claimed (who : Nat) (id : TaskId) : List Cue := .begin (.dispatch id) :: goes who 6

/-- A task is cancelled while its attempt is under way, and is scheduled and claimed anew. -/
def overtaking : List Cue :=
  whole 0 (.submit request) ++ claimed 1 first ++ whole 2 (.cancel first)
    ++ whole 3 (.reschedule first request) ++ claimed 4 first

/-- Both attempts come to their end, the overtaken one first. -/
def overtaken : List Cue := overtaking ++ goes 1 20 ++ goes 4 20

/-- A task is woken, and its attempt asks for a retry. -/
def retrying : List Cue :=
  whole 0 (.submit request) ++ .wake first :: goes 1 6 ++ .finish 1 (.returned .retry) :: goes 1 20

/-- And so it does the next time; its delay has yet to be drawn. -/
def retryingAgain : List Cue :=
  retrying ++ .wake first :: goes 2 6 ++ .finish 2 (.returned .retry) :: goes 2 1

/-- A task is cancelled, and rescheduled before the cancellation has got to the platform. -/
def crossing : List Cue :=
  whole 0 (.submit request) ++ .begin (.cancel first) :: goes 1 3
    ++ whole 2 (.reschedule first request) ++ goes 1 20

/--
After that a cancellation and a new schedule of the same task overlap, and get to the platform in
the order in which they were at the store. Meanwhile, operations cross on the second task.
-/
def overlapping : List Cue :=
  crossing ++ whole 3 (.submit request)
    ++ .begin (.cancel first) :: goes 4 3 ++ .begin (.cancel second) :: goes 5 3
    ++ .begin (.reschedule first request) :: goes 6 2 ++ whole 7 (.reschedule second request)
    ++ goes 4 20 ++ goes 6 20 ++ goes 5 20

/-- The scene after some cues. -/
def scene (cues : List Cue) : Scene := (Play.run scheduler { system } cues).scene

theorem reachable_scene (cues : List Cue) : Reachable scheduler (scene cues) :=
  Play.reachable_run rfl cues

end Rehearsal

end BackgroundTasks
