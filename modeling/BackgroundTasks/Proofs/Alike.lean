import BackgroundTasks.Proofs.Rows

/-!
# Tables that answer alike

The order in which a table keeps its rows never shows. A listing is sorted by a time and, among
rows of one time, by the id, and no two rows share an id, so there is only one way to sort them;
a single row is looked up by its id. Two tables with the same rows and the same log therefore
answer every question alike.
-/

namespace BackgroundTasks

/-- A call that only asks. -/
def StoreCall.isQuestion : StoreCall → Bool
  | get _ | list | due _ | logs _ | lastLog _ => true
  | _ => false

namespace TaskId

variable {a b : TaskId}

theorem eq_of_toNat (h : a.bits.toNat = b.bits.toNat) : a = b := by
  cases a
  cases b
  exact congrArg mk (BitVec.eq_of_toNat_eq h)

theorem le_antisymm (hab : a.le b = true) (hba : b.le a = true) : a = b := by
  simp only [le, decide_eq_true_eq] at hab hba
  exact eq_of_toNat (Nat.le_antisymm hab hba)

theorem pairwise_le (ids : List TaskId) : (ids.mergeSort le).Pairwise fun a b => a.le b = true := by
  refine List.pairwise_mergeSort (fun a b c hab hbc => ?_) (fun a b => ?_) ids
  · simp only [le, decide_eq_true_eq] at hab hbc ⊢
    omega
  · simp only [le, Bool.or_eq_true, decide_eq_true_eq]
    omega

end TaskId

namespace TaskTable

/-- Tables with the same rows and the same log. -/
structure Alike (t t' : TaskTable) : Prop where
  rows : t'.rows.Perm t.rows
  log : t'.log = t.log

/-- An order by a time and then by the id. -/
def OrdersBy (time : Row → UInt64) (before : Row → Row → Bool) : Prop :=
  ∀ a b, before a b = (decide (time a < time b) || (time a == time b && a.id.le b.id))

variable {t t' : TaskTable} {time : Row → UInt64} {before : Row → Row → Bool}

theorem ordersBy_iff (h : OrdersBy time before) (a b : Row) :
    before a b = true ↔ (time a).toNat < (time b).toNat
      ∨ (time a).toNat = (time b).toNat ∧ a.id.bits.toNat ≤ b.id.bits.toNat := by
  rw [h, Bool.or_eq_true, Bool.and_eq_true, decide_eq_true_eq, beq_iff_eq, UInt64.lt_iff_toNat_lt,
    UInt64.toNat_inj, TaskId.le, decide_eq_true_eq]

theorem pairwise_ordersBy (h : OrdersBy time before) (rows : List Row) :
    (rows.mergeSort before).Pairwise fun a b => before a b = true := by
  refine List.pairwise_mergeSort (fun a b c hab hbc => ?_) (fun a b => ?_) rows
  · rw [ordersBy_iff h] at hab hbc ⊢
    omega
  · rw [Bool.or_eq_true, ordersBy_iff h, ordersBy_iff h]
    omega

/-- Rows of one table can be sorted in one way only. -/
theorem mergeSort_unique (h : OrdersBy time before) {rows rows' : List Row} (hsub : rows ⊆ t.rows)
    (hperm : rows'.Perm rows) : rows'.mergeSort before = rows.mergeSort before := by
  refine List.Perm.eq_of_pairwise ?_ (pairwise_ordersBy h rows') (pairwise_ordersBy h rows) ?_
  · intro a b ha hb hab hba
    have ha := hsub (hperm.subset (List.mem_mergeSort.1 ha))
    have hb := hsub (List.mem_mergeSort.1 hb)
    rw [ordersBy_iff h] at hab hba
    -- neither comes before the other, so the two have one id
    have hid : a.id = b.id := TaskId.eq_of_toNat (by omega)
    have hfind := find?_of_mem ha
    rw [hid, find?_of_mem hb] at hfind
    exact (Option.some.inj hfind).symm
  · exact (List.mergeSort_perm _ _).trans (hperm.trans (List.mergeSort_perm _ _).symm)

theorem ordersBy_created : OrdersBy Row.createdMs Row.createdBefore := fun _ _ => rfl

theorem ordersBy_run : OrdersBy Row.nextRunMs Row.runsBefore := fun _ _ => rfl

namespace Alike

theorem list_eq (h : t.Alike t') : t'.list = t.list :=
  mergeSort_unique ordersBy_created (List.Subset.refl t.rows) h.rows

theorem due_eq (h : t.Alike t') (now : UInt64) : t'.due now = t.due now :=
  mergeSort_unique ordersBy_run (fun _ hm => (List.mem_filter.1 hm).1)
    (h.rows.filter (Row.isDue now))

theorem find?_eq (h : t.Alike t') (id : TaskId) : t'.find? id = t.find? id := by
  cases hrow : t.find? id with
  | some row =>
    have hmem := h.rows.symm.subset (mem_of_find? hrow)
    rw [← id_of_find? hrow]
    exact find?_of_mem hmem
  | none =>
    rw [find?, List.find?_eq_none] at hrow ⊢
    exact fun row hmem => hrow row (h.rows.subset hmem)

theorem logs_eq (h : t.Alike t') (id : TaskId) : t'.logs id = t.logs id := by
  rw [logs, logs, h.log]

/-- Tables with the same rows and the same log have the same answer to every question. -/
theorem answer_eq (h : t.Alike t') {c : StoreCall} (hc : c.isQuestion = true) :
    (t'.answer c).1 = (t.answer c).1 := by
  cases c with
  | get id => exact congrArg Except.ok (h.find?_eq id)
  | list => exact congrArg Except.ok h.list_eq
  | due now => exact congrArg Except.ok (h.due_eq now)
  | logs id => exact congrArg Except.ok (h.logs_eq id)
  | lastLog id =>
    show Except.ok (t'.logs id).getLast? = _
    rw [h.logs_eq]
    rfl
  | _ => cases hc

end Alike

/-! ## Tables made of parts -/

theorem rows_put {row : Row} (h : row.id ∉ t.rows.map Row.id) :
    (t.put row).rows = t.rows ++ [row] := by
  rw [put, insert?, dif_neg h]

theorem rows_foldl_put {rows : List Row} (h : (t.rows.map Row.id ++ rows.map Row.id).Nodup) :
    (rows.foldl put t).rows = t.rows ++ rows := by
  induction rows generalizing t with
  | nil => exact (List.append_nil _).symm
  | cons row more ih =>
    have hfree : row.id ∉ t.rows.map Row.id := fun hmem =>
      (List.nodup_append.1 h).2.2 row.id hmem row.id List.mem_cons_self rfl
    have hput := rows_put hfree
    rw [List.foldl_cons, ih, hput, List.append_assoc]
    · rfl
    · rw [hput, List.map_append, List.append_assoc]
      exact h

/-- Rows whose ids differ are all kept, in the order in which they come. -/
theorem rows_ofParts {rows : List Row} (h : (rows.map Row.id).Nodup) (log : List LogEntry) :
    (ofParts rows log).rows = rows :=
  rows_foldl_put (t := empty) h

/-- A table comes back from its listing and its log. -/
theorem alike_ofParts (t : TaskTable) : t.Alike (ofParts t.list t.log) := by
  have hperm : t.list.Perm t.rows := List.mergeSort_perm _ _
  refine ⟨?_, rfl⟩
  rw [rows_ofParts ((hperm.map Row.id).nodup_iff.2 t.nodup)]
  exact hperm

end TaskTable

end BackgroundTasks
