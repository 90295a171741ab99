import BackgroundTasks.Proofs.Files.Refinement
import BackgroundTasks.System.Basic

/-!
# Stores that serve

A store that serves answers every call as its table does, and goes on serving: one in memory always
does, and one in files as long as its folder can be written to, which no call puts an end to.
-/

namespace BackgroundTasks

namespace FileStore

variable {t t' : TaskTable} {p q : Place} {c : StoreCall}

/-- Where files can be written, they can be written after any call. -/
theorem writable_answer {r : c.Answer} (h : Writable p)
    (hrun : MayRun (answer t c) p (r, t') q) : Writable q := by
  cases r with
  | ok a => exact writable_alikeBut h (written_ok hrun).2.alike
  | error failure => exact writable_alikeBut h (unread_of_error hrun).2.alike

end FileStore

namespace System

/-- The store of a system works, and is not made to fail. -/
structure Serves (y : System) : Prop where
  store : (∃ t, y.store = .memory t) ∨ ∃ t, y.store = .files t ∧ FileStore.Writable y.place
  faults : ∀ c, y.faults (.store c) = none

variable {y : System}

/-- A call is answered by the table, changes nothing but the store, and leaves it serving. -/
theorem Serves.asks (h : y.Serves) (c : StoreCall) :
    ∃ store place, y.askStore c = (some (y.table.answer c).1, { y with store, place })
      ∧ store.table = (y.table.answer c).2 ∧ ({ y with store, place } : System).Serves := by
  unfold askStore answerStore table
  rw [h.faults]
  rcases h.store with ⟨t, hstore⟩ | ⟨t, hstore, hplace⟩
  · rw [hstore]
    exact ⟨_, _, rfl, rfl, .inl ⟨_, rfl⟩, h.faults⟩
  · obtain ⟨q, hq⟩ := FileStore.eval_writable hplace t c
    have hrun := FileStore.mayRun_eval (FileStore.answer t c) y.place
    rw [hstore]
    simp only [hq]
    rw [hq] at hrun
    exact ⟨_, _, rfl, rfl, .inr ⟨_, rfl, FileStore.writable_answer hplace hrun⟩, h.faults⟩

end System

end BackgroundTasks
