import BackgroundTasks.Proofs.Alike
import BackgroundTasks.Proofs.Files.Recovery
import BackgroundTasks.Proofs.Watchdog

/-!
# Orphans

The rows that a tick arms are told beforehand, and what goes wrong with one of them makes no
difference to the rest: if the rows over which the platform fails were not there, the same rows
would be armed in the same order, with the same handles. What has been armed is no orphan any more,
so the next tick finds only those with which it went wrong.
-/

namespace BackgroundTasks

open Scheduler

variable {y : System} {row : Row}

/-! ## The rows that are left out -/

namespace TaskTable

variable {t t' : TaskTable} {keeps : Row → Bool}

/-- Without some of the rows, the other due rows come in the same order. -/
theorem due_of_filtered (h : t'.rows = t.rows.filter keeps) (now : UInt64) :
    t'.due now = (t.due now).filter keeps := by
  have hsorted : ((t.due now).filter keeps).mergeSort Row.runsBefore = (t.due now).filter keeps :=
    List.mergeSort_of_pairwise ((pairwise_ordersBy ordersBy_run _).filter keeps)
  rw [← hsorted, due, h]
  refine mergeSort_unique (t := t) ordersBy_run (fun row hrow => ?_) ?_
  · exact (List.mem_filter.1 (List.mem_mergeSort.1 (List.mem_filter.1 hrow).1)).1
  · rw [List.filter_filter]
    refine List.Perm.trans ?_ ((List.mergeSort_perm _ _).symm.filter keeps)
    rw [List.filter_filter]
    simp only [Bool.and_comm]
    exact List.Perm.refl _

theorem find?_of_filtered (h : t'.rows = t.rows.filter keeps) (id : TaskId) :
    t'.find? id = (t.find? id).filter keeps := by
  have hkept (row : Row) (hrow : row ∈ t'.rows) : t.find? row.id = some row ∧ keeps row = true := by
    rw [h] at hrow
    exact ⟨find?_of_mem (List.mem_filter.1 hrow).1, (List.mem_filter.1 hrow).2⟩
  cases hfound : t'.find? id with
  | some row =>
    obtain ⟨hrow, hkeeps⟩ := hkept row (mem_of_find? hfound)
    rw [id_of_find? hfound] at hrow
    rw [hrow, Option.filter_some_pos hkeeps]
  | none =>
    cases hrow : t.find? id with
    | none => rfl
    | some row =>
      -- a row that is kept would have been found
      refine (Option.filter_some_neg (Bool.eq_false_iff.2 fun hkeeps => ?_)).symm
      have hmem : row ∈ t'.rows := h ▸ List.mem_filter.2 ⟨mem_of_find? hrow, hkeeps⟩
      rw [← id_of_find? hrow, find?_of_mem hmem] at hfound
      cases hfound

end TaskTable

/-- A system without the rows over which the platform fails. -/
structure System.Spared (y z : System) : Prop where
  rows : z.table.rows = y.table.rows.filter fun row => !y.failsOver row
  rest : ∃ store place, z = { y with store, place }
  serves : z.Serves

namespace System

variable {y' z z' : System}

theorem nodup_orphans (y : System) : (y.orphans.map Row.id).Nodup :=
  (List.filter_sublist.map Row.id).nodup (y.table.nodup_due y.now)

/-- The rows over which the platform fails make no difference to the orphans. -/
theorem Spared.orphans (h : y.Spared z) : z.orphans = y.orphans := by
  obtain ⟨store, place, hrest⟩ := h.rest
  have hrescues : z.rescues = y.rescues := by rw [hrest]; rfl
  have hnow : z.now = y.now := by rw [hrest]; rfl
  unfold System.orphans
  rw [TaskTable.due_of_filtered h.rows, hrescues, hnow, List.filter_filter]
  refine List.filter_congr fun row _ => ?_
  unfold rescues
  cases y.failsOver row <;> simp

/-- Nor do they to what becomes of the other rows. -/
theorem Spared.find?_eq (h : y.Spared z) (hy : y.Arms y.now y.orphans y')
    (hz : z.Arms z.now z.orphans z') {id : TaskId}
    (hspared : ∀ row, y.table.find? id = some row → y.failsOver row = false) :
    z'.table.find? id = y'.table.find? id := by
  obtain ⟨store, place, hrest⟩ := h.rest
  by_cases hid : id ∈ y.orphans.map Row.id
  · obtain ⟨row, hrow, rfl⟩ := List.mem_map.1 hid
    obtain ⟨before, after, hsplit⟩ := List.append_of_mem hrow
    rw [hy.handles before row after hsplit, hz.handles before row after (h.orphans.trans hsplit),
      hrest]
    rfl
  · rw [(hy.others id hid).1, (hz.others id (h.orphans ▸ hid)).1,
      TaskTable.find?_of_filtered h.rows]
    cases hrow : y.table.find? id with
    | none => rfl
    | some row => rw [Option.filter_some_pos (by rw [hspared row hrow]; rfl)]

/-- Whoever is an orphan after a tick has been one before, and the platform has failed over it. -/
theorem Arms.left_over (h : y.Arms y.now y.orphans y') (hz : z = { y' with faults := z.faults })
    (hrow : row ∈ z.orphans) : row ∈ y.table.due y.now ∧ y.failsOver row = true := by
  obtain ⟨hfound, hqueued, hnow, hunarmed, -⟩ := mem_orphans.1 hrow
  obtain ⟨store, place, hrest⟩ := h.rest
  have hsame : z.now = y.now := by rw [hz, hrest]; rfl
  have hplatform : z.platform = y'.platform := by rw [hz]
  have htable : z.table = y'.table := by rw [hz]; rfl
  rw [hplatform, h.platform, Bool.eq_false_iff, Ne, Platform.isArmed_armAll, not_or] at hunarmed
  rw [htable, (h.others row.id hunarmed.1).1] at hfound
  have hdue : row ∈ y.table.due y.now :=
    TaskTable.mem_due_iff.2 ⟨hfound, hqueued, hsame ▸ hnow⟩
  refine ⟨hdue, eq_true_of_ne_false fun hfails => ?_⟩
  -- else it would have been armed
  have horphan : row ∈ y.orphans :=
    mem_orphans.2 ⟨hfound, hqueued, hsame ▸ hnow, Bool.eq_false_iff.2 hunarmed.2, hfails⟩
  exact hunarmed.1 (List.mem_map_of_mem horphan)

end System

namespace Rehearsal

/-- Two tasks wait in the queue, nothing is armed, and the platform fails over the second. -/
def lost : System :=
  { system with
    store := .memory (scene (whole 0 (.submit request) ++ whole 1 (.submit request))).table
    faults := fun
      | .isArmed id => if id = second then some (.reports "gone") else none
      | _ => none }

theorem serves_lost : lost.Serves := ⟨.inl ⟨_, rfl⟩, fun _ => rfl⟩

theorem returns_lost : lost.Returns := by
  intro c
  have hfault : lost.faults c = none ∨ lost.faults c = some (.reports "gone") := by
    cases c with
    | isArmed id =>
      show (if id = second then _ else _) = _ ∨ (if id = second then _ else _) = _
      split
      · exact .inr rfl
      · exact .inl rfl
    | _ => exact .inl rfl
  rcases hfault with h | h <;> rw [h] <;> exact ⟨nofun, nofun⟩

theorem orphans_lost : lost.orphans.map Row.id = [first] := by
  have hrows : ((lost.table.rows.filter (Row.isDue lost.now)).filter lost.rescues).map Row.id
      = [first] := by decide +kernel
  -- a single row is sorted
  have hperm := ((List.mergeSort_perm (lost.table.rows.filter (Row.isDue lost.now))
    Row.runsBefore).filter lost.rescues).map Row.id
  rw [hrows] at hperm
  exact List.perm_singleton.1 hperm

end Rehearsal

end BackgroundTasks
