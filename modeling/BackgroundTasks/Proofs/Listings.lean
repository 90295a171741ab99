import Mathlib.Data.List.Nodup
import BackgroundTasks.Proofs.Alike
import BackgroundTasks.Proofs.Alone
import BackgroundTasks.Proofs.Interleaving.Play
import BackgroundTasks.Proofs.Rejections
import BackgroundTasks.Proofs.Serving

/-!
# Listings

What a table shows does not depend on how it came about. Tables that hold the same rows, and for
each task the same log, answer every call alike and hold the same rows and logs after it; in which
order rows were added, and how the entries of different tasks came in between each other, never
shows.

The due rows come in the order in which they run, and the tasks of a listing by priority, next run,
age and id. The store hands its rows out by age and id already, and they are sorted again by the
rest. The second sort is stable, so what it leaves undecided stays as the first one has put it:
that is where the id comes in, which the second sort never looks at.
-/

namespace BackgroundTasks

open Scheduler

/-! ## Tables that agree -/

namespace TaskTable

/-- Tables with the same rows and, for each task, the same log. -/
structure Agrees (t t' : TaskTable) : Prop where
  rows : ∀ id, t'.find? id = t.find? id
  logs : ∀ id, t'.logs id = t.logs id

variable {t t' : TaskTable} {row : Row} {id : TaskId} {step : RowStep}

theorem mem_rows : row ∈ t.rows ↔ t.find? row.id = some row := ⟨find?_of_mem, mem_of_find?⟩

theorem nodup_rows (t : TaskTable) : t.rows.Nodup := List.Nodup.of_map Row.id t.nodup

/-- Rows whose ids differ make the same table in any order. -/
theorem agrees_ofParts {rows rows' : List Row} {log log' : List LogEntry} (hperm : rows'.Perm rows)
    (hids : (rows.map Row.id).Nodup)
    (hlog : ∀ id, log'.filter (fun e => e.taskId == id) = log.filter fun e => e.taskId == id) :
    (ofParts rows log).Agrees (ofParts rows' log') := by
  refine ⟨fun id => ?_, hlog⟩
  -- as far as rows go the two may have one log
  have halike : (ofParts rows log).Alike (ofParts rows' log) := by
    refine ⟨?_, rfl⟩
    rw [rows_ofParts hids, rows_ofParts ((hperm.map Row.id).nodup_iff.2 hids)]
    exact hperm
  exact halike.find?_eq id

namespace Agrees

theorem perm (h : t.Agrees t') : t'.rows.Perm t.rows := by
  rw [List.perm_ext_iff_of_nodup t'.nodup_rows t.nodup_rows]
  intro row
  rw [mem_rows, mem_rows, h.rows]

/-- The table in which only the order of the rows is that of the other. -/
theorem alike (h : t.Agrees t') : t.Alike { t' with log := t.log } := ⟨h.perm, rfl⟩

theorem list_eq (h : t.Agrees t') : t'.list = t.list := h.alike.list_eq

theorem due_eq (h : t.Agrees t') (now : UInt64) : t'.due now = t.due now := h.alike.due_eq now

theorem stepAt_eq (h : t.Agrees t') (id : TaskId) (step : RowStep) :
    (t'.stepAt id step).1 = (t.stepAt id step).1 := by
  show (t'.find? id).bind step.apply = (t.find? id).bind step.apply
  rw [h.rows]

theorem stepAll_eq (h : t.Agrees t') (step : RowStep) :
    (t'.stepAll step).1 = (t.stepAll step).1 := by
  have hids : (t'.rows.filterMap fun r => (step.apply r).map Row.id).Perm
      (t.rows.filterMap fun r => (step.apply r).map Row.id) := h.perm.filterMap _
  refine List.Perm.eq_of_pairwise ?_ (TaskId.pairwise_le _) (TaskId.pairwise_le _) ?_
  · intro a b _ _ hab hba
    exact TaskId.le_antisymm hab hba
  · exact (List.mergeSort_perm _ _).trans (hids.trans (List.mergeSort_perm _ _).symm)

theorem complete_eq (h : t.Agrees t') (id : TaskId) (c : Completion) (e : LogEntry) :
    (t'.complete id c e).1 = (t.complete id c e).1 := by
  simp only [complete, applyCompletion, h.stepAt_eq]
  rfl

theorem replaceSpec_eq (h : t.Agrees t') (id : TaskId) (spec : Spec) (next now : UInt64) :
    (t'.replaceSpec id spec next now).1 = (t.replaceSpec id spec next now).1 := by
  have hstep := h.stepAt_eq id (.replace spec next now)
  simp only [replaceSpec, h.rows]
  generalize t.stepAt id (.replace spec next now) = after at hstep ⊢
  generalize t'.stepAt id (.replace spec next now) = after' at hstep ⊢
  obtain ⟨taken, _⟩ := after
  obtain ⟨taken', _⟩ := after'
  obtain rfl : taken' = taken := hstep
  cases t.find? id <;> cases taken' <;> rfl

theorem entries_eq (h : t.Agrees t') (c : StoreCall) : t'.entries c = t.entries c := by
  cases c with
  | complete id completion entry =>
    exact congrArg (fun r : Bool × LogEntry => [r.2]) (h.complete_eq id completion entry)
  | _ => rfl

/-- A new row finds its id free in both or in neither. -/
theorem insert_eq (h : t.Agrees t') (row : Row) :
    (t'.answer (.insert row)).1 = (t.answer (.insert row)).1
      ∧ ∀ id, (t'.answer (.insert row)).2.find? id = (t.answer (.insert row)).2.find? id := by
  cases hfound : t.find? row.id with
  | some found =>
    rw [answer_insert_taken row hfound, answer_insert_taken row ((h.rows row.id).trans hfound)]
    exact ⟨rfl, h.rows⟩
  | none =>
    obtain ⟨u, hanswer, hputs⟩ := answer_insert_free row hfound
    obtain ⟨u', hanswer', hputs'⟩ := answer_insert_free row ((h.rows row.id).trans hfound)
    rw [hanswer, hanswer']
    refine ⟨rfl, fun id => ?_⟩
    by_cases hid : id = row.id
    · rw [hid]
      exact hputs'.stored.trans hputs.stored.symm
    · exact (hputs'.others id hid).trans ((h.rows id).trans (hputs.others id hid).symm)

/-- A handle is recorded in both or in neither. -/
theorem setPlatformId_eq (h : t.Agrees t') (id : TaskId) (handle : Option String) :
    (t'.answer (.setPlatformId id handle)).1 = (t.answer (.setPlatformId id handle)).1
      ∧ ∀ id', (t'.answer (.setPlatformId id handle)).2.find? id'
        = (t.answer (.setPlatformId id handle)).2.find? id' := by
  have hafter (id' : TaskId) : (t'.stepAt id (.setPlatformId handle)).2.find? id'
      = (t.stepAt id (.setPlatformId handle)).2.find? id' := by
    rw [find?_stepAt, find?_stepAt, h.rows]
  have hstep := h.stepAt_eq id (.setPlatformId handle)
  simp only [answer]
  generalize t.stepAt id (.setPlatformId handle) = after at hstep hafter ⊢
  generalize t'.stepAt id (.setPlatformId handle) = after' at hstep hafter ⊢
  obtain ⟨taken, _⟩ := after
  obtain ⟨taken', _⟩ := after'
  obtain rfl : taken' = taken := hstep
  cases taken' <;> exact ⟨rfl, hafter⟩

/-- Tables that agree have the same answer to every call, and agree again after it. -/
theorem answer_eq (h : t.Agrees t') (c : StoreCall) :
    (t'.answer c).1 = (t.answer c).1 ∧ (t.answer c).2.Agrees (t'.answer c).2 := by
  have hlogs (id : TaskId) : (t'.answer c).2.logs id = (t.answer c).2.logs id := by
    have hbefore := h.logs id
    simp only [TaskTable.logs] at hbefore ⊢
    rw [log_answer, log_answer, List.filter_append, List.filter_append, hbefore, h.entries_eq]
  suffices hsame : (t'.answer c).1 = (t.answer c).1
      ∧ ∀ id, (t'.answer c).2.find? id = (t.answer c).2.find? id from
    ⟨hsame.1, hsame.2, hlogs⟩
  have hstepped (id : TaskId) (step : RowStep) (id' : TaskId) :
      (t'.stepAt id step).2.find? id' = (t.stepAt id step).2.find? id' := by
    rw [find?_stepAt, find?_stepAt, h.rows]
  cases c with
  | insert row => exact h.insert_eq row
  | setPlatformId id handle => exact h.setPlatformId_eq id handle
  | get id => exact ⟨congrArg Except.ok (h.rows id), h.rows⟩
  | list => exact ⟨congrArg Except.ok h.list_eq, h.rows⟩
  | due now => exact ⟨congrArg Except.ok (h.due_eq now), h.rows⟩
  | logs id => exact ⟨congrArg Except.ok (h.logs id), h.rows⟩
  | lastLog id =>
    exact ⟨congrArg (fun log => Except.ok (List.getLast? log)) (h.logs id), h.rows⟩
  | appendLog entry => exact ⟨rfl, h.rows⟩
  | claim id now => exact ⟨congrArg Except.ok (h.stepAt_eq id _), hstepped id _⟩
  | transition id origins target now =>
    have hstep := h.stepAt_eq id (.move origins target now)
    exact ⟨congrArg (fun row : Option Row => Except.ok (if row.isSome then 1 else 0)) hstep,
      hstepped id _⟩
  | complete id completion entry =>
    have hcomplete := h.complete_eq id completion entry
    exact ⟨congrArg (fun r : Bool × LogEntry => Except.ok r.1) hcomplete, hstepped id _⟩
  | replaceSpec id spec next now =>
    refine ⟨congrArg Except.ok (h.replaceSpec_eq id spec next now), fun id' => ?_⟩
    show (t'.replaceSpec id spec next now).2.find? id'
      = (t.replaceSpec id spec next now).2.find? id'
    rw [replaceSpec_snd, replaceSpec_snd, hstepped]
  | transitionAll origins target now =>
    refine ⟨congrArg Except.ok (h.stepAll_eq _), fun id => ?_⟩
    show (t'.stepAll _).2.find? id = (t.stepAll _).2.find? id
    rw [find?_stepAll, find?_stepAll, h.rows]

end Agrees

end TaskTable

/-! ## In order -/

/-- Sorting keeps the order of those that tie: they come out as they have come in. -/
theorem pair_sublist_of_mergeSort {α : Type} {le : α → α → Bool}
    (trans : ∀ a b c, le a b = true → le b c = true → le a c = true)
    (total : ∀ a b, (le a b || le b a) = true) {l : List α} {a b : α}
    (hpair : [a, b].Sublist (l.mergeSort le)) (htie : le b a = true) : [a, b].Sublist l := by
  have hab : le a b = true :=
    List.pairwise_iff_forall_sublist.1 (List.pairwise_mergeSort trans total l) hpair
  let ties (c : α) : Bool := le a c && le c a
  have hrefl : le a a = true := by simpa using total a a
  -- those that tie are sorted as they are, so the sort takes them over in their order
  have htaken : (l.filter ties).Sublist (l.mergeSort le) := by
    refine List.sublist_mergeSort trans total ?_ List.filter_sublist
    refine List.pairwise_of_forall_mem_list fun c hc d hd => ?_
    have hca := (Bool.and_eq_true_iff.1 (List.mem_filter.1 hc).2).2
    have had := (Bool.and_eq_true_iff.1 (List.mem_filter.1 hd).2).1
    exact trans c a d hca had
  have hall : l.filter ties = (l.mergeSort le).filter ties := by
    have hsub := htaken.filter ties
    rw [List.filter_filter] at hsub
    simp only [Bool.and_self] at hsub
    exact hsub.eq_of_length (((List.mergeSort_perm l le).filter ties).length_eq.symm)
  have hkept := hpair.filter ties
  rw [← hall, List.filter_cons_of_pos (by simp [ties, hrefl]),
    List.filter_cons_of_pos (by simp [ties, hab, htie]), List.filter_nil] at hkept
  exact hkept.trans List.filter_sublist

namespace Row

/-- Due rows: what runs earlier comes first, then what has the smaller id. -/
def RunsSooner (a b : Row) : Prop :=
  a.nextRunMs < b.nextRunMs ∨ a.nextRunMs = b.nextRunMs ∧ a.id.bits < b.id.bits

/--
Listed tasks: what has the higher priority comes first, then what runs earlier, then what is older,
then what has the smaller id.
-/
def Outranks (a b : Row) : Prop :=
  b.spec.priority < a.spec.priority ∨ a.spec.priority = b.spec.priority ∧
    (a.nextRunMs < b.nextRunMs ∨ a.nextRunMs = b.nextRunMs ∧
      (a.createdMs < b.createdMs ∨ a.createdMs = b.createdMs ∧ a.id.bits < b.id.bits))

variable {a b : Row}

instance : Decidable (a.Outranks b) := inferInstanceAs (Decidable (_ ∨ _))

theorem outranks_asymm (hab : a.Outranks b) (hba : b.Outranks a) : False := by
  simp only [Outranks, UInt8.lt_iff_toNat_lt, UInt64.lt_iff_toNat_lt, BitVec.lt_def,
    ← UInt8.toNat_inj, ← UInt64.toNat_inj] at hab hba
  omega

theorem listedBefore_iff : listedBefore a b = true ↔
    b.spec.priority.toNat < a.spec.priority.toNat ∨ a.spec.priority.toNat = b.spec.priority.toNat ∧
      (a.nextRunMs.toNat < b.nextRunMs.toNat ∨ a.nextRunMs.toNat = b.nextRunMs.toNat ∧
        a.createdMs.toNat ≤ b.createdMs.toNat) := by
  unfold listedBefore
  split
  · next hpriority =>
    rw [ne_eq, ← UInt8.toNat_inj] at hpriority
    simp only [decide_eq_true_eq, UInt8.lt_iff_toNat_lt]
    omega
  · next hpriority =>
    rw [ne_eq, not_not, ← UInt8.toNat_inj] at hpriority
    split
    · next hrun =>
      rw [ne_eq, ← UInt64.toNat_inj] at hrun
      simp only [decide_eq_true_eq, UInt64.lt_iff_toNat_lt]
      omega
    · next hrun =>
      rw [ne_eq, not_not, ← UInt64.toNat_inj] at hrun
      simp only [decide_eq_true_eq, UInt64.le_iff_toNat_le]
      omega

theorem listedBefore_trans (a b c : Row) (hab : listedBefore a b = true)
    (hbc : listedBefore b c = true) : listedBefore a c = true := by
  rw [listedBefore_iff] at hab hbc ⊢
  omega

theorem listedBefore_total (a b : Row) : (listedBefore a b || listedBefore b a) = true := by
  rw [Bool.or_eq_true, listedBefore_iff, listedBefore_iff]
  omega

end Row

namespace TaskTable

variable {t : TaskTable} {row : Row}

/-- Different rows of a table have different ids. -/
theorem id_ne {a b : Row} (ha : a ∈ t.rows) (hb : b ∈ t.rows) (hne : a ≠ b) : a.id ≠ b.id := by
  intro hid
  have hfind := find?_of_mem ha
  rw [hid, find?_of_mem hb] at hfind
  exact hne (Option.some.inj hfind).symm

theorem pairwise_due (t : TaskTable) (now : UInt64) : (t.due now).Pairwise Row.RunsSooner := by
  have hnodup : (t.due now).Nodup := List.Nodup.of_map Row.id (t.nodup_due now)
  have hsorted := pairwise_ordersBy ordersBy_run (t.rows.filter (Row.isDue now))
  refine (hsorted.and hnodup).imp_of_mem ?_
  intro a b ha hb hab
  obtain ⟨hbefore, hne⟩ := hab
  rw [ordersBy_iff ordersBy_run] at hbefore
  have hid : a.id.bits.toNat ≠ b.id.bits.toNat := fun h =>
    id_ne (mem_of_find? (mem_due ha).1) (mem_of_find? (mem_due hb).1) hne (TaskId.eq_of_toNat h)
  simp only [Row.RunsSooner, UInt64.lt_iff_toNat_lt, ← UInt64.toNat_inj, BitVec.lt_def]
  omega

theorem perm_listing (t : TaskTable) : (t.list.mergeSort listedBefore).Perm t.rows :=
  (List.mergeSort_perm _ _).trans (List.mergeSort_perm _ _)

/--
What the order of listings leaves undecided has been decided by the listing of the store. Of two
rows that tie, the one that came first before still comes first.
-/
theorem pairwise_listing (t : TaskTable) :
    (t.list.mergeSort listedBefore).Pairwise Row.Outranks := by
  rw [List.pairwise_iff_forall_sublist]
  intro a b hab
  have hnodup : (t.list.mergeSort listedBefore).Nodup :=
    t.perm_listing.nodup_iff.2 t.nodup_rows
  have hne : a ≠ b := by
    rintro rfl
    exact List.nodup_iff_sublist.1 hnodup a hab
  have ha : a ∈ t.rows := t.perm_listing.subset (hab.subset List.mem_cons_self)
  have hb : b ∈ t.rows :=
    t.perm_listing.subset (hab.subset (List.mem_cons_of_mem _ List.mem_cons_self))
  have hbefore : listedBefore a b = true := List.pairwise_iff_forall_sublist.1
    (List.pairwise_mergeSort Row.listedBefore_trans Row.listedBefore_total t.list) hab
  simp only [Row.Outranks, UInt8.lt_iff_toNat_lt, UInt64.lt_iff_toNat_lt, BitVec.lt_def,
    ← UInt8.toNat_inj, ← UInt64.toNat_inj]
  by_cases htie : listedBefore b a = true
  · have hlisted : [a, b].Sublist t.list :=
      pair_sublist_of_mergeSort Row.listedBefore_trans Row.listedBefore_total hab htie
    have holder : Row.createdBefore a b = true := List.pairwise_iff_forall_sublist.1
      (pairwise_ordersBy ordersBy_created t.rows) hlisted
    have hid : a.id.bits.toNat ≠ b.id.bits.toNat := fun h =>
      id_ne ha hb hne (TaskId.eq_of_toNat h)
    rw [ordersBy_iff ordersBy_created] at holder
    rw [Row.listedBefore_iff] at hbefore htie
    omega
  · rw [Row.listedBefore_iff] at hbefore htie
    omega

end TaskTable

/-! ## Reading from a system -/

/-- A row as a listing shows it: with the message of the latest entry in its log. -/
def TaskTable.summarized (t : TaskTable) (row : Row) : Summary :=
  row.summary ((t.logs row.id).getLast?.bind LogEntry.message)

theorem TaskTable.Agrees.summarized_eq {t t' : TaskTable} (h : t.Agrees t') :
    t'.summarized = t.summarized := by
  funext row
  rw [summarized, summarized, h.logs]

variable {y : System}

/-- A question is answered by the table, which it leaves as it is. -/
theorem System.Serves.reads (hy : y.Serves) {c : StoreCall} (hc : c.isQuestion = true) :
    ∃ y', y.askStore c = (some (y.table.answer c).1, y') ∧ y'.Serves ∧ y'.table = y.table := by
  obtain ⟨store, place, hask, htable, hserves⟩ := hy.asks c
  refine ⟨_, hask, hserves, htable.trans ?_⟩
  cases c <;> first | rfl | cases hc

theorem completes_summarize (hy : y.Serves) (row : Row) :
    ∃ y', (summarize row).Completes y (y.table.summarized row) y' ∧ y'.Serves
      ∧ y'.table = y.table := by
  obtain ⟨y', hask, hserves, htable⟩ := hy.reads (c := .lastLog row.id) rfl
  exact ⟨y', (Operation.completes_store hask).bind Operation.completes_pure, hserves, htable⟩

theorem completes_summaries (hy : y.Serves) (rows : List Row) :
    ∃ y', Operation.Completes (rows.mapM summarize) y (rows.map y.table.summarized) y' ∧ y'.Serves
      ∧ y'.table = y.table := by
  induction rows generalizing y with
  | nil => exact ⟨y, Operation.completes_pure, hy, rfl⟩
  | cons row rest ih =>
    obtain ⟨y₁, hrow, hserves, htable⟩ := completes_summarize hy row
    obtain ⟨y₂, hrest, hserves', htable'⟩ := ih hserves
    rw [htable] at hrest
    refine ⟨y₂, ?_, hserves', htable'.trans htable⟩
    rw [List.mapM_cons]
    exact hrow.bind (hrest.bind Operation.completes_pure)

theorem completes_list (hy : y.Serves) :
    ∃ y', list.Completes y ((y.table.list.mergeSort listedBefore).map y.table.summarized) y'
      ∧ y'.table = y.table := by
  obtain ⟨y₁, hask, hserves, htable⟩ := hy.reads (c := .list) rfl
  obtain ⟨y₂, hrows, -, htable'⟩ :=
    completes_summaries hserves (y.table.list.mergeSort listedBefore)
  rw [htable] at hrows
  exact ⟨y₂, (Operation.completes_store hask).bind hrows, htable'.trans htable⟩

namespace Rehearsal

/-- A row of a priority, all of whose other fields are those of any row. -/
def ranked (n : Nat) (priority : UInt8) : Row :=
  .fresh (.ofNat n)
    { payloadTypeId := "bare"
      payloadData := "[]"
      priority
      conditions := {}
      recurrence := .oneTime
      initialDelayMs := 0
      intervalMs := 0
      flexMs := 0
      growth := .linear
      backoffDelayMs := 1000
      backoffMultiplier := none
      backoffJitter := 0
      maxRetries := 3 } 0 0

/-- An entry in the log of the row of a number. -/
def noted (n : Nat) : LogEntry := ⟨.ofNat n, 0, .retryScheduled, 1, some "later"⟩

end Rehearsal

end BackgroundTasks
