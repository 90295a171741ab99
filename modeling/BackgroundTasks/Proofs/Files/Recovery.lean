import BackgroundTasks.Proofs.Files.Process
import BackgroundTasks.Proofs.Watchdog

/-!
# Recovery

When a process has died, its rows are all there and nobody is going to be woken. One tick of the
watchdog arms the rows in the queue, as far as their time has come, and leaves every state as it is.
A row whose attempt was under way stays as the attempt has left it: the watchdog looks at the queue
alone, since it cannot tell an attempt that is lost from one that is still going on.

Nothing is armed to begin with and nothing goes wrong, so the orphans of that tick are all the rows
in the queue that are due.
-/

namespace BackgroundTasks

open FileStore (Synced openTable)
open Scheduler

variable {y : System}

/-! ## The next process -/

/-- A system in which a store is opened, with nothing armed and nothing going wrong. -/
structure Resumes (y : System) (t : TaskTable) (p : Place) : Prop where
  store : y.store = .files t
  place : y.place = p
  faults : ∀ c, y.faults c = none
  unarmed : ∀ id, y.platform.isArmed id = false

/-- One tick in the next process. -/
theorem tick_resumed {t : TaskTable} {p : Place} (hy : Resumes y t p) (hsynced : Synced t p)
    (hnow : ∀ row ∈ t.rows, row.nextRunMs ≤ y.now) :
    ∃ n y', tick.Completes y n y' ∧
      ∀ row ∈ t.rows, (y'.table.find? row.id).map Row.state = some row.state ∧
        (y'.platform.isArmed row.id = true ↔ row.state = .enqueued) := by
  have htable : y.table = t := congrArg Store.table hy.store
  subst htable
  have hwritable : FileStore.Writable y.place := hy.place ▸ hsynced.writable
  have hserves : y.Serves := ⟨.inr ⟨_, hy.store, hwritable⟩, fun c => hy.faults (.store c)⟩
  obtain ⟨y', htick, harms⟩ := completes_tick hserves fun c => by simp [hy.faults]
  refine ⟨_, y', htick, fun row hrow => ?_⟩
  have hfound := TaskTable.find?_of_mem hrow
  constructor
  · rw [harms.state_eq (fun row hrow => (System.mem_orphans.1 hrow).1), hfound]
    rfl
  · rw [harms.platform, Platform.isArmed_armAll, hy.unarmed, or_iff_left Bool.false_ne_true]
    constructor
    · intro hid
      obtain ⟨orphan, horphan, hid⟩ := List.mem_map.1 hid
      obtain ⟨hfound', hqueued, -⟩ := System.mem_orphans.1 horphan
      rw [hid, hfound] at hfound'
      rw [Option.some.inj hfound']
      exact hqueued
    · intro hqueued
      refine List.mem_map_of_mem (System.mem_orphans.2 ⟨hfound, hqueued, hnow row hrow, ?_, ?_⟩)
      · exact hy.unarmed row.id
      · simp [System.failsOver, System.refuses, hy.faults]

variable {s : Scheduler} {w : Process}

/--
**Whenever a process dies, its queue is recovered.** The rows and the log that the next process
reads are those that there were, and after one tick of the watchdog, at a time when every row is
due, just the tasks in the queue are armed and every row is in the state in which it was left.
-/
theorem queue_recovered (hw : Process.Reachable s w) (hfloats : ∀ c ∈ w.asked, c.Faithful) :
    ∃ t, openTable.eval Place.answer w.place = (.ok t, w.place) ∧
      t.rows.Perm w.table.rows ∧ t.log = w.table.log ∧
      ∀ y, Resumes y t w.place → (∀ row ∈ w.table.rows, row.nextRunMs ≤ y.now) →
        ∃ n y', tick.Completes y n y' ∧
          ∀ row ∈ w.table.rows, (y'.table.find? row.id).map Row.state = some row.state ∧
            (y'.platform.isArmed row.id = true ↔ row.state = .enqueued) := by
  obtain ⟨t, hopens, halike, hsynced⟩ := FileStore.opens (Process.synced_reachable hw hfloats)
  refine ⟨t, hopens, halike.rows, halike.log, fun y hy hnow => ?_⟩
  obtain ⟨n, y', htick, hrows⟩ :=
    tick_resumed hy hsynced fun row hrow => hnow row (halike.rows.subset hrow)
  exact ⟨n, y', htick, fun row hrow => hrows row (halike.rows.symm.subset hrow)⟩

/-! ## A process that dies during an attempt -/

instance (spec : Spec) : Decidable spec.Faithful :=
  decidable_of_iff ((∀ f ∈ spec.backoffMultiplier, Json.float? (.float f) = some f)
      ∧ Json.float? (.float spec.backoffJitter) = some spec.backoffJitter)
    ⟨fun h => ⟨h.1, h.2⟩, fun h => ⟨h.multiplier, h.jitter⟩⟩

instance : DecidablePred StoreCall.Faithful
  | .insert row => inferInstanceAs (Decidable row.spec.Faithful)
  | .replaceSpec _ spec _ _ => inferInstanceAs (Decidable spec.Faithful)
  | .get _ | .list | .due _ | .claim .. | .complete .. | .transition .. | .transitionAll ..
  | .setPlatformId .. | .appendLog _ | .logs _ | .lastLog _ => .isTrue trivial

namespace Rehearsal

/-- A system that works, with its store in an empty folder. -/
def fileSystem : System := { system with store := .files .empty, place := .folder [] }

/-- The process after some cues. -/
def process (cues : List Cue) : Process :=
  .ofPlay (Play.run scheduler { system := fileSystem } cues)

theorem reachable_process (cues : List Cue) : Process.Reachable scheduler (process cues) :=
  Process.reachable_run rfl rfl (fun _ => rfl) cues

/-- The next process, in a system that works. -/
def nextSystem (t : TaskTable) (p : Place) : System := { system with store := .files t, place := p }

theorem resumes_nextSystem (t : TaskTable) (p : Place) : Resumes (nextSystem t p) t p :=
  ⟨rfl, rfl, fun _ => rfl, fun _ => rfl⟩

/-- Two tasks are submitted, and the attempt of the first is under way. -/
def attempting : List Cue :=
  whole 0 (.submit request) ++ whole 1 (.submit request) ++ claimed 2 first

/-- The rows when the process dies. -/
theorem rows_attempting :
    (∃ row ∈ (process attempting).table.rows, row.id = first ∧ row.state = .running) ∧
      ∃ row ∈ (process attempting).table.rows, row.id = second ∧ row.state = .enqueued := by
  decide +kernel

theorem asked_attempting : ∀ c ∈ (process attempting).asked, c.Faithful := by decide +kernel

theorem due_attempting : ∀ row ∈ (process attempting).table.rows, row.nextRunMs ≤ system.now := by
  decide +kernel

end Rehearsal

/-- The task in the queue is armed after the tick, and the one under way is not. -/
theorem queue_recovered_attempting :
    let w := Rehearsal.process Rehearsal.attempting
    ∃ t n y', openTable.eval Place.answer w.place = (.ok t, w.place) ∧
      tick.Completes (Rehearsal.nextSystem t w.place) n y' ∧
      y'.platform.isArmed Rehearsal.second = true ∧
      y'.platform.isArmed Rehearsal.first = false := by
  obtain ⟨t, hopens, -, -, htick⟩ :=
    queue_recovered (Rehearsal.reachable_process Rehearsal.attempting) Rehearsal.asked_attempting
  obtain ⟨n, y', hcompletes, hrows⟩ :=
    htick _ (Rehearsal.resumes_nextSystem t _) Rehearsal.due_attempting
  obtain ⟨⟨row, hrow, hid, hstate⟩, row', hrow', hid', hstate'⟩ := Rehearsal.rows_attempting
  refine ⟨t, n, y', hopens, hcompletes, ?_, ?_⟩
  · rw [← hid', (hrows row' hrow').2]
    exact hstate'
  · rw [← hid, Bool.eq_false_iff, Ne, (hrows row hrow).2, hstate]
    nofun

/--
A process dies while an attempt is under way. In the next one the tick leaves the row running, with
nobody to run it and nothing armed.
-/
theorem lost_attempt_stays_running :
    let w := Rehearsal.process Rehearsal.attempting
    Process.Reachable Rehearsal.scheduler w ∧ (∀ c ∈ w.asked, c.Faithful) ∧
    ∃ t n y', openTable.eval Place.answer w.place = (.ok t, w.place) ∧
      Resumes (Rehearsal.nextSystem t w.place) t w.place ∧
      (∀ row ∈ w.table.rows, row.nextRunMs ≤ (Rehearsal.nextSystem t w.place).now) ∧
      tick.Completes (Rehearsal.nextSystem t w.place) n y' ∧
      ∃ row, y'.table.find? Rehearsal.first = some row ∧ row.state.isTerminal = false ∧
        row.state ≠ .enqueued ∧ y'.platform.isArmed Rehearsal.first = false := by
  have hw := Rehearsal.reachable_process Rehearsal.attempting
  refine ⟨hw, Rehearsal.asked_attempting, ?_⟩
  obtain ⟨t, hopens, halike, hsynced⟩ :=
    FileStore.opens (Process.synced_reachable hw Rehearsal.asked_attempting)
  obtain ⟨n, y', htick, hrows⟩ := tick_resumed (Rehearsal.resumes_nextSystem t _) hsynced
    fun row hrow => Rehearsal.due_attempting row (halike.rows.subset hrow)
  obtain ⟨⟨row, hrow, hid, hstate⟩, -⟩ := Rehearsal.rows_attempting
  obtain ⟨hstays, harmed⟩ := hrows row (halike.rows.symm.subset hrow)
  obtain ⟨row', hfind, hstate'⟩ := Option.map_eq_some_iff.1 hstays
  rw [hid] at hfind harmed
  rw [hstate] at hstate' harmed
  refine ⟨t, n, y', hopens, Rehearsal.resumes_nextSystem t _, Rehearsal.due_attempting, htick,
    row', hfind, ?_, ?_, ?_⟩
  · rw [hstate']
    rfl
  · rw [hstate']
    nofun
  · exact Bool.eq_false_iff.2 fun h => nomatch harmed.1 h

end BackgroundTasks
