import BackgroundTasks.Store.Table

/-!
# One row of the table

What a transaction does to the table is said here row by row: the row of the task it names takes a
step or refuses it, and every other row stays as it is.
-/

namespace BackgroundTasks

theorem le_satSucc (n : UInt32) : n ≤ satSucc n := by
  rw [UInt32.le_iff_toNat_le, toNat_satSucc]
  have h := n.toNat_lt
  have hmax : maxCount.toNat = 4294967295 := rfl
  omega

theorem toNat_satSucc_of_lt {n : UInt32} (h : satSucc n < maxCount) :
    (satSucc n).toNat = n.toNat + 1 := by
  rw [UInt32.lt_iff_toNat_lt, toNat_satSucc] at h
  rw [toNat_satSucc]
  omega

namespace RowStep

/-- A step is taken from one row to another. -/
def Takes (step : RowStep) (r r' : Option Row) : Prop :=
  ∃ row, r = some row ∧ step.accepts row = true ∧ r' = some (step.change row)

theorem after_of_accepts {step : RowStep} {row : Row} (h : step.accepts row = true) :
    step.after row = step.change row := if_pos h

theorem after_of_refuses {step : RowStep} {row : Row} (h : ¬ step.accepts row = true) :
    step.after row = row := if_neg h

theorem apply_eq_some {step : RowStep} {row row' : Row} :
    step.apply row = some row' ↔ step.accepts row = true ∧ step.change row = row' := by
  unfold apply
  split <;> simp [*]

theorem apply_eq_none {step : RowStep} {row : Row} :
    step.apply row = none ↔ ¬ step.accepts row = true := by
  unfold apply
  split <;> simp [*]

theorem complete_accepts {c : Completion} {row : Row} :
    (complete c).accepts row = true ↔ row.state = .running ∧ row.attempts = c.claimedAttempt
      ∧ row.state.canBecome c.state = true := by
  simp [complete, and_assoc]

/-- Nothing runs on after it has been concluded. -/
theorem complete_ends {c : Completion} {row : Row} (h : (complete c).accepts row = true) :
    ((complete c).change row).state ≠ .running := by
  obtain ⟨hstate, -, hbecomes⟩ := complete_accepts.1 h
  rw [hstate] at hbecomes
  rintro (hrunning : c.state = .running)
  rw [hrunning] at hbecomes
  cases hbecomes

end RowStep

namespace TaskTable

variable {t t' : TaskTable} {id id' : TaskId} {row row' : Row} {step : RowStep}

/-! ## Looking rows up -/

theorem id_of_find? (h : t.find? id = some row) : row.id = id := by
  simpa using List.find?_some h

theorem mem_of_find? (h : t.find? id = some row) : row ∈ t.rows := List.mem_of_find?_eq_some h

theorem find?_of_mem (h : row ∈ t.rows) : t.find? row.id = some row := by
  -- ids are pairwise different, so the first row with this id is the row itself
  have byList (rows : List Row) (hnd : (rows.map Row.id).Nodup) (h : row ∈ rows) :
      rows.find? (fun r => r.id == row.id) = some row := by
    induction rows with
    | nil => simp at h
    | cons head rest ih =>
      rw [List.map_cons, List.nodup_cons] at hnd
      rcases List.mem_cons.1 h with rfl | h
      · exact List.find?_cons_of_pos (by simp)
      · have hne : head.id ≠ row.id := fun he => hnd.1 (he ▸ List.mem_map_of_mem h)
        rw [List.find?_cons_of_neg (by simpa using hne)]
        exact ih hnd.2 h
  exact byList t.rows t.nodup h

theorem find?_mapRows (t : TaskTable) (f : Row → Row) (keepsId : ∀ r, (f r).id = r.id)
    (id : TaskId) : (t.mapRows f keepsId).find? id = (t.find? id).map f := by
  unfold find? mapRows
  rw [List.find?_map]
  have h : (fun r => r.id == id) ∘ f = fun r : Row => r.id == id := by
    funext r
    exact congrArg (· == id) (keepsId r)
  rw [h]

/-! ## Steps of one row -/

theorem find?_stepAt (t : TaskTable) (id : TaskId) (step : RowStep) (id' : TaskId) :
    (t.stepAt id step).2.find? id' = (t.find? id').map (step.afterAt id) :=
  find?_mapRows t (step.afterAt id) (step.id_afterAt id) id'

theorem find?_stepAt_self (t : TaskTable) (id : TaskId) (step : RowStep) :
    (t.stepAt id step).2.find? id = (t.find? id).map step.after := by
  rw [find?_stepAt]
  cases h : t.find? id with
  | none => rfl
  | some row => exact congrArg some (if_pos (id_of_find? h))

theorem find?_stepAt_other (t : TaskTable) (step : RowStep) (h : id' ≠ id) :
    (t.stepAt id step).2.find? id' = t.find? id' := by
  rw [find?_stepAt]
  cases hq : t.find? id' with
  | none => rfl
  | some row => exact congrArg some (if_neg (id_of_find? hq ▸ h))

/-- A step that returns a row was taken, and led to that row. -/
theorem stepAt_taken (h : (t.stepAt id step).1 = some row) :
    step.Takes (t.find? id) (some row) ∧ (t.stepAt id step).2.find? id = some row := by
  obtain ⟨q, hq, happly⟩ := Option.bind_eq_some_iff.1 (show (t.find? id).bind step.apply = _ from h)
  obtain ⟨hacc, rfl⟩ := RowStep.apply_eq_some.1 happly
  refine ⟨⟨q, hq, hacc, rfl⟩, ?_⟩
  rw [find?_stepAt_self, hq, Option.map_some, RowStep.after_of_accepts hacc]

/-- A step that returns a row is taken by the row of its task. -/
theorem takes_of_isSome (h : (t.stepAt id step).1.isSome = true) :
    step.Takes (t.find? id) ((t.stepAt id step).2.find? id) := by
  obtain ⟨row, hrow⟩ := Option.isSome_iff_exists.1 h
  obtain ⟨htakes, hafter⟩ := stepAt_taken hrow
  exact hafter ▸ htakes

/-- A step that returns no row leaves the table as it is. -/
theorem stepAt_refused (h : (t.stepAt id step).1 = none) : (t.stepAt id step).2 = t := by
  have h : (t.find? id).bind step.apply = none := h
  -- the only row that could change is the one that refuses
  have hrows : t.rows.map (step.afterAt id) = t.rows := by
    refine (List.map_congr_left fun r hr => ?_).trans (List.map_id t.rows)
    unfold RowStep.afterAt
    split
    · next hid =>
      rw [← hid, find?_of_mem hr] at h
      exact RowStep.after_of_refuses (RowStep.apply_eq_none.1 h)
    · rfl
  unfold stepAt mapRows
  cases t
  simp_all

theorem stepAt_isSome (t : TaskTable) (id : TaskId) (step : RowStep) :
    (t.stepAt id step).1.isSome = (t.find? id).any step.accepts := by
  show ((t.find? id).bind step.apply).isSome = _
  cases t.find? id with
  | none => rfl
  | some row =>
    show (step.apply row).isSome = step.accepts row
    unfold RowStep.apply
    split <;> simp_all

theorem replaceSpec_snd (t : TaskTable) (id : TaskId) (spec : Spec) (next now : UInt64) :
    (t.replaceSpec id spec next now).2 = (t.stepAt id (.replace spec next now)).2 := by
  unfold replaceSpec
  split <;> simp [*]

theorem replaceSpec_replaced (t : TaskTable) (id : TaskId) (spec : Spec) (next now : UInt64) :
    (t.replaceSpec id spec next now).1 = .replaced
      ↔ (t.stepAt id (.replace spec next now)).1.isSome = true := by
  unfold replaceSpec
  split
  · next hnone heq =>
    -- without a row there is no step either
    have h : (t.stepAt id (.replace spec next now)).1 = none := by
      show (t.find? id).bind _ = none
      rw [hnone]
      rfl
    simp [h]
  · next heq => simp [heq]
  · next heq => simp [heq]

/-- A handle can be recorded in any row. -/
theorem answer_setPlatformId (h : t.find? id = some row) (handle : Option String) :
    t.answer (.setPlatformId id handle)
      = (.ok (), (t.stepAt id (.setPlatformId handle)).2) := by
  have hstep : (t.stepAt id (.setPlatformId handle)).1
      = some ((RowStep.setPlatformId handle).change row) := by
    show (t.find? id).bind (RowStep.setPlatformId handle).apply = _
    rw [h]
    rfl
  rw [answer]
  split
  · next heq => rw [heq]
  · next heq =>
    rw [heq] at hstep
    cases hstep

/-! ## Completions -/

/-- A completion is applied just when the row it finds accepts it. -/
theorem complete_applied (t : TaskTable) (id : TaskId) (c : Completion) (e : LogEntry) :
    (t.complete id c e).1.1 = (t.find? id).any (RowStep.complete c).accepts :=
  t.stepAt_isSome id (.complete c)

/-- A completion that is not applied leaves nothing behind but its entry, which is marked. -/
theorem complete_discarded {c : Completion} {e : LogEntry} (h : (t.complete id c e).1.1 = false) :
    (t.complete id c e).2 = t.appendLog e.discarded := by
  have hnone : (t.stepAt id (.complete c)).1 = none :=
    Option.not_isSome_iff_eq_none.1 (Bool.eq_false_iff.1 h)
  show (t.stepAt id (.complete c)).2.appendLog
    (if (t.stepAt id (.complete c)).1.isSome then e else e.discarded) = _
  rw [stepAt_refused hnone, hnone]
  rfl

/-! ## Steps of every row -/

theorem find?_stepAll (t : TaskTable) (step : RowStep) (id : TaskId) :
    (t.stepAll step).2.find? id = (t.find? id).map step.after :=
  find?_mapRows t step.after step.id_after id

theorem mem_stepAll : id ∈ (t.stepAll step).1 ↔ (t.find? id).any step.accepts = true := by
  unfold stepAll
  rw [List.mem_mergeSort, List.mem_filterMap]
  constructor
  · intro h
    obtain ⟨row, hrow, hid⟩ := h
    obtain ⟨_, happly, rfl⟩ := Option.map_eq_some_iff.1 hid
    obtain ⟨hacc, rfl⟩ := RowStep.apply_eq_some.1 happly
    rw [step.keepsId, find?_of_mem hrow]
    exact hacc
  · intro h
    cases hrow : t.find? id with
    | none => simp [hrow] at h
    | some row =>
      have hacc : step.accepts row = true := by simpa [hrow] using h
      refine ⟨row, mem_of_find? hrow, ?_⟩
      rw [RowStep.apply, if_pos hacc, Option.map_some, step.keepsId, id_of_find? hrow]

theorem takes_of_mem_stepAll (h : id ∈ (t.stepAll step).1) :
    step.Takes (t.find? id) ((t.stepAll step).2.find? id) := by
  obtain ⟨row, hrow, hacc⟩ := (Option.any_eq_true _ _).1 (mem_stepAll.1 h)
  refine ⟨row, hrow, hacc, ?_⟩
  rw [find?_stepAll, hrow, Option.map_some, RowStep.after_of_accepts hacc]

theorem find?_of_not_mem_stepAll (h : id ∉ (t.stepAll step).1) :
    (t.stepAll step).2.find? id = t.find? id := by
  rw [mem_stepAll] at h
  rw [find?_stepAll]
  cases hrow : t.find? id with
  | none => rfl
  | some row =>
    rw [hrow] at h
    exact congrArg some (RowStep.after_of_refuses h)

theorem nodup_stepAll (t : TaskTable) (step : RowStep) : (t.stepAll step).1.Nodup := by
  unfold stepAll
  refine (List.mergeSort_perm _ _).nodup_iff.2 ?_
  -- a row gives its own id or nothing
  have hsub :
      (t.rows.filterMap fun r => (step.apply r).map Row.id).Sublist (t.rows.map Row.id) := by
    induction t.rows with
    | nil => exact List.Sublist.slnil
    | cons r rows ih =>
      rw [List.map_cons, List.filterMap_cons]
      cases hr : step.apply r with
      | none => exact ih.cons _
      | some r' =>
        obtain ⟨-, rfl⟩ := RowStep.apply_eq_some.1 hr
        simp only [Option.map_some]
        rw [step.keepsId]
        exact ih.cons_cons _
  exact hsub.nodup t.nodup

/-! ## Due rows -/

theorem mem_due {now : UInt64} (h : row ∈ t.due now) :
    t.find? row.id = some row ∧ row.state = .enqueued := by
  obtain ⟨hrow, hdue⟩ := List.mem_filter.1 (List.mem_mergeSort.1 h)
  refine ⟨find?_of_mem hrow, ?_⟩
  unfold Row.isDue at hdue
  exact eq_of_beq (Bool.and_eq_true_iff.1 hdue).1

theorem nextRun_of_mem_due {now : UInt64} (h : row ∈ t.due now) : row.nextRunMs ≤ now := by
  have hdue := (List.mem_filter.1 (List.mem_mergeSort.1 h)).2
  unfold Row.isDue at hdue
  exact of_decide_eq_true (Bool.and_eq_true_iff.1 hdue).2

theorem mem_due_iff {now : UInt64} :
    row ∈ t.due now ↔ t.find? row.id = some row ∧ row.state = .enqueued ∧ row.nextRunMs ≤ now := by
  constructor
  · intro h
    exact ⟨(mem_due h).1, (mem_due h).2, nextRun_of_mem_due h⟩
  · rintro ⟨hrow, hqueued, hnow⟩
    refine List.mem_mergeSort.2 (List.mem_filter.2 ⟨mem_of_find? hrow, ?_⟩)
    rw [Row.isDue, hqueued, decide_eq_true hnow]
    rfl

theorem nodup_due (t : TaskTable) (now : UInt64) : ((t.due now).map Row.id).Nodup := by
  unfold due
  refine ((List.mergeSort_perm _ _).map Row.id).nodup_iff.2 ?_
  exact (List.filter_sublist.map Row.id).nodup t.nodup

/-! ## New rows -/

theorem find?_insert? (h : t.insert? row = some t') :
    t.find? row.id = none ∧ t'.find? row.id = some row
      ∧ ∀ id, id ≠ row.id → t'.find? id = t.find? id := by
  unfold insert? at h
  split at h
  · cases h
  · next hfree =>
    obtain rfl := Option.some.inj h
    -- a row with this id would have kept the new one out
    have hnone : t.find? row.id = none := by
      rw [find?, List.find?_eq_none]
      intro r hr hid
      exact hfree (eq_of_beq hid ▸ List.mem_map_of_mem hr)
    refine ⟨hnone, ?_, fun id hid => ?_⟩
    · show (t.rows ++ [row]).find? _ = _
      rw [List.find?_append, show t.rows.find? _ = none from hnone]
      simp
    · show (t.rows ++ [row]).find? _ = _
      rw [List.find?_append, List.find?_cons_of_neg (by simpa using Ne.symm hid)]
      simp [find?]

/-! ## The log -/

/-- The entry that a call adds to the log. -/
def entries (t : TaskTable) : StoreCall → List LogEntry
  | .complete id completion entry => [(t.complete id completion entry).1.2]
  | .appendLog entry => [entry]
  | _ => []

theorem log_answer (t : TaskTable) (c : StoreCall) :
    (t.answer c).2.log = t.log ++ t.entries c := by
  cases c with
  | get | list | due | logs | lastLog | claim | transition | transitionAll =>
    exact (List.append_nil _).symm
  | complete | appendLog => rfl
  | insert row =>
    rw [answer]
    split
    · next hinsert =>
      unfold insert? at hinsert
      split at hinsert
      · cases hinsert
      · cases hinsert
        exact (List.append_nil _).symm
    · exact (List.append_nil _).symm
  | replaceSpec id spec nextRun now =>
    show (t.replaceSpec id spec nextRun now).2.log = _
    rw [replaceSpec_snd]
    exact (List.append_nil _).symm
  | setPlatformId id handle =>
    have hlog : (t.stepAt id (.setPlatformId handle)).2.log = t.log ++ [] :=
      (List.append_nil _).symm
    rw [answer]
    split
    · next heq =>
      rw [heq] at hlog
      exact hlog
    · next heq =>
      rw [heq] at hlog
      exact hlog

/-! ## Calls that are refused -/

/-- An error that the table itself reports leaves it as it was. -/
theorem answer_error {c : StoreCall} {failure : Failure}
    (h : t.answer c = (.error failure, t')) : t' = t := by
  cases c with
  | insert row =>
    rw [answer] at h
    split at h
    · cases h
    · cases h
      rfl
  | setPlatformId id handle =>
    rw [answer] at h
    split at h
    · cases h
    · next hstep =>
      cases h
      have hrefused := stepAt_refused (congrArg Prod.fst hstep)
      rw [hstep] at hrefused
      exact hrefused
  | _ => cases h

end TaskTable

end BackgroundTasks
