import BackgroundTasks.Proofs.Files.Durability
import BackgroundTasks.Proofs.Armed

/-!
# Processes

Operations are under way side by side over a store in files, and at any time the process may die
between two of their calls. Nothing is left of it then but the folder: the operations are gone, and
so is everything that was armed. The next process opens the store in that folder.

As in a scene nothing is said about who comes next, and what is not a call to the store may be
answered in any way. Calls to the store are answered from the files, any of whose calls may fail.
-/

namespace BackgroundTasks

open FileStore (MayRun Synced openTable)

/-- What there is of a process. -/
structure Process where
  /-- By number; nothing is left of an operation that has returned or is gone. -/
  activities : List (Program Call.signature Unit) := []
  table : TaskTable := .empty
  place : Place := .folder []
  /-- What the store has been asked, by this process and those before it. -/
  asked : List StoreCall := []

namespace Process

/-- Something happens. -/
inductive Step (s : Scheduler) : Process → Process → Prop where
  | begin (w : Process) (job : Job) :
      Step s w { w with activities := w.activities ++ [job.program s] }
  | store {w : Process} {who : Nat} {c : StoreCall} {k : c.Answer → Program Call.signature Unit}
      {a : c.Answer} {t : TaskTable} {p : Place}
      (next : w.activities[who]? = some (.call (.store c) k))
      (runs : MayRun (FileStore.answer w.table c) w.place (a, t) p) :
      Step s w ⟨w.activities.set who (k a), t, p, c :: w.asked⟩
  | other {w : Process} {who : Nat} {c : Call} {k : c.Answer → Program Call.signature Unit}
      (a : c.Answer) (next : w.activities[who]? = some (.call c k)) (hc : ∀ sc, c ≠ .store sc) :
      Step s w { w with activities := w.activities.set who (k a) }
  | breakDown {w : Process} {who : Nat} {c : Call} {k : c.Answer → Program Call.signature Unit}
      (next : w.activities[who]? = some (.call c k)) :
      Step s w { w with activities := w.activities.set who (.done ()) }
  /-- The process dies, and the next one opens the store. -/
  | restart {w : Process} {t : TaskTable} {p : Place}
      (opens : openTable.eval Place.answer w.place = (.ok t, p)) : Step s w ⟨[], t, p, w.asked⟩

/-- A process that may come about, the first one having begun in an empty folder. -/
inductive Reachable (s : Scheduler) : Process → Prop where
  | init : Reachable s {}
  | tail {w w' : Process} (hr : Reachable s w) (hs : Step s w w') : Reachable s w'

variable {s : Scheduler} {w w' : Process}

/-! ## What the files hold -/

theorem asked_step (h : Step s w w') : w.asked ⊆ w'.asked := by
  cases h with
  | store => exact List.subset_cons_self _ _
  | begin | other | breakDown | restart => exact List.Subset.refl _

theorem synced_step (h : Step s w w') (hasked : ∀ c ∈ w'.asked, c.Faithful)
    (hw : Synced w.table w.place) : Synced w'.table w'.place := by
  cases h with
  | store _ hrun => exact FileStore.synced_answer hw (hasked _ List.mem_cons_self) hrun
  | restart hopens =>
    obtain ⟨t, hopened, -, hsynced⟩ := FileStore.opens hw
    obtain ⟨ht, rfl⟩ := Prod.mk.inj (hopens.symm.trans hopened)
    obtain rfl := Except.ok.inj ht
    exact hsynced
  | begin | other | breakDown => exact hw

/-- At any time the files hold what the table holds. -/
theorem synced_reachable (hw : Reachable s w) (hasked : ∀ c ∈ w.asked, c.Faithful) :
    Synced w.table w.place := by
  induction hw with
  | init => exact FileStore.synced_empty
  | tail _ hs ih => exact synced_step hs hasked (ih fun c hc => hasked c (asked_step hs hc))

/-! ## Plays -/

/-- What a store is asked in a history. -/
def storeCalls (past : List Moment) : List StoreCall :=
  past.filterMap fun m => match m.occurrence with
    | .answers _ (.store c) _ | .fails _ (.store c) _ => some c
    | _ => none

/-- The process that plays in a system. -/
def ofPlay (p : Play) : Process :=
  ⟨p.scene.activities, p.system.table, p.system.place, storeCalls p.scene.past⟩

/-- A system with its store in files in which nothing goes wrong. -/
structure OverFiles (y : System) : Prop where
  store : y.store = .files y.table
  faults : ∀ c, y.faults c = none

variable {y : System} {p : Play}

theorem askStore_overFiles (h : OverFiles y) (c : StoreCall) :
    ∃ a t place, (FileStore.answer y.table c).eval Place.answer y.place = ((a, t), place) ∧
      y.askStore c = (some a, { y with store := .files t, place }) := by
  refine ⟨_, _, _, rfl, ?_⟩
  unfold System.askStore System.answerStore
  rw [h.faults, h.store]
  rfl

/-- Only calls to the store reach the files. -/
theorem rest_overFiles (h : OverFiles y) {c : Call} (hc : ∀ sc, c ≠ .store sc) :
    (y.answer c).2.store = y.store ∧ (y.answer c).2.place = y.place := by
  cases c with
  | store sc => exact absurd rfl (hc sc)
  | readStatus id =>
    obtain ⟨a, t, place, heval, hask⟩ := askStore_overFiles h (.get id)
    -- a question leaves the table and the place as they were
    cases heval
    simp only [System.answer]
    rw [hask]
    exact ⟨h.store.symm, rfl⟩
  | arm | disarm | isArmed =>
    simp only [System.answer, System.askPlatform]
    rw [h.faults]
    exact ⟨rfl, rfl⟩
  | retryDelay =>
    simp only [System.answer]
    split <;> exact ⟨rfl, rfl⟩
  | publish | subscribe | unsubscribe | now | newId | periodicRun | work | emit => exact ⟨rfl, rfl⟩

theorem overFiles_answer (h : OverFiles y) (c : Call) : OverFiles (y.answer c).2 := by
  have hfaults (c' : Call) : (y.answer c).2.faults c' = none := by
    rw [System.faults_answer, h.faults]
  by_cases hc : ∃ sc, c = .store sc
  · obtain ⟨sc, rfl⟩ := hc
    obtain ⟨a, t, place, -, hask⟩ := askStore_overFiles h sc
    refine ⟨?_, hfaults⟩
    simp only [System.answer, System.table]
    rw [hask]
    rfl
  · obtain ⟨hstore, -⟩ := rest_overFiles h fun sc heq => hc ⟨sc, heq⟩
    refine ⟨?_, hfaults⟩
    unfold System.table
    rw [hstore]
    exact h.store

theorem storeCalls_occurrence {who : Nat} {c : StoreCall} {a : c.Answer} {before after : TaskTable}
    (past : List Moment) :
    storeCalls (⟨(Call.store c).occurrence who (some a), before, after⟩ :: past)
      = c :: storeCalls past := by
  unfold Call.occurrence
  dsimp only
  split <;> rfl

theorem storeCalls_rest {who : Nat} {c : Call} (hc : ∀ sc, c ≠ .store sc) (r : Option c.Answer)
    {before after : TaskTable} (past : List Moment) :
    storeCalls (⟨c.occurrence who r, before, after⟩ :: past) = storeCalls past := by
  cases c with
  | store sc => exact absurd rfl (hc sc)
  | _ =>
    unfold Call.occurrence
    cases r with
    | none => rfl
    | some a =>
      dsimp only
      split <;> rfl

/-- What an operation does in a system, it does as a process may. -/
theorem step_go (h : OverFiles p.system) {who : Nat} {c : Call}
    {k : c.Answer → Program Call.signature Unit}
    (next : p.scene.activities[who]? = some (.call c k)) :
    Step s (ofPlay p) (ofPlay (p.go who c k)) := by
  -- a call to the store is one run of its program on the files, without faults
  by_cases hc : ∃ sc, c = .store sc
  · obtain ⟨sc, rfl⟩ := hc
    obtain ⟨a, t, place, heval, hask⟩ := askStore_overFiles h sc
    have hruns := FileStore.mayRun_eval (FileStore.answer p.system.table sc) p.system.place
    rw [heval] at hruns
    have hanswer : p.system.answer (.store sc)
      = (some a, { p.system with store := .files t, place }) := hask
    have hgo : ofPlay (p.go who (.store sc) k)
        = ⟨p.scene.activities.set who (k a), t, place, sc :: storeCalls p.scene.past⟩ := by
      unfold Play.go
      rw [hanswer]
      exact congrArg (Process.mk _ _ _) (storeCalls_occurrence _)
    rw [hgo]
    exact .store (w := ofPlay p) next hruns
  · have hrest : ∀ sc, c ≠ .store sc := fun sc heq => hc ⟨sc, heq⟩
    obtain ⟨hstore, hplace⟩ := rest_overFiles h hrest
    have hgo : ofPlay (p.go who c k)
        = { ofPlay p with
            activities :=
              p.scene.activities.set who ((p.system.answer c).1.elim (.done ()) k) } := by
      have htable : (p.system.answer c).2.table = p.system.table := congrArg Store.table hstore
      unfold ofPlay Play.go Scene.on
      dsimp only
      rw [storeCalls_rest hrest, htable, hplace]
    rw [hgo]
    cases (p.system.answer c).1 with
    | none => exact .breakDown (w := ofPlay p) next
    | some a => exact .other (w := ofPlay p) a next hrest

/-- The process that plays in a system over files can come about. -/
structure Plays (s : Scheduler) (p : Play) : Prop where
  overFiles : OverFiles p.system
  reachable : Reachable s (ofPlay p)

theorem plays_next (h : Plays s p) (cue : Cue) : Plays s (p.next s cue) := by
  obtain ⟨hfiles, hw⟩ := h
  cases cue with
  | begin job => exact ⟨hfiles, .tail hw (.begin (ofPlay p) job)⟩
  | wake id =>
    show Plays s (if p.system.platform.isArmed id then p.wake s id else p)
    split
    · exact ⟨⟨hfiles.store, hfiles.faults⟩, .tail hw (.begin (ofPlay p) (.dispatch id))⟩
    · exact ⟨hfiles, hw⟩
  | go who =>
    simp only [Play.next]
    split
    · next c k hnext => exact ⟨overFiles_answer hfiles c, .tail hw (step_go hfiles hnext)⟩
    · exact ⟨hfiles, hw⟩
  | finish who ending =>
    simp only [Play.next]
    split
    · next payload attempt k hnext =>
      have hc : ∀ sc, Call.work payload attempt ≠ .store sc := fun sc heq => by cases heq
      exact ⟨hfiles, .tail hw (.other (w := ofPlay p) ending hnext hc)⟩
    · exact ⟨hfiles, hw⟩

theorem plays_run (h : Plays s p) (cues : List Cue) : Plays s (p.run s cues) := by
  induction cues generalizing p with
  | nil => exact h
  | cons cue cues ih => exact ih (plays_next h cue)

/-- Whatever is played over an empty folder, the process can come about. -/
theorem reachable_run (hstore : y.store = .files .empty) (hplace : y.place = .folder [])
    (hfaults : ∀ c, y.faults c = none) (cues : List Cue) :
    Reachable s (ofPlay (Play.run s { system := y } cues)) := by
  have htable : y.table = .empty := congrArg Store.table hstore
  have hinit : ofPlay { system := y } = {} := by
    unfold ofPlay
    rw [htable, hplace]
    rfl
  have hfiles : OverFiles y := ⟨by rw [htable, hstore], hfaults⟩
  have hplays : Plays s { system := y } := by
    refine ⟨hfiles, ?_⟩
    rw [hinit]
    exact .init
  exact (plays_run hplays cues).reachable

end Process

end BackgroundTasks
