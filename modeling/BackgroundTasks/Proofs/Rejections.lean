import BackgroundTasks.Proofs.Adverse
import BackgroundTasks.Proofs.Custody

/-!
# Rejected orders

A caller's order is checked, then stored in one transaction, and only then the rest of the world is
told: the status board, the sink, the platform. Whatever there is to object to is found before that
transaction or is its own failure, and nothing that comes after it can fail the call. So an order
that is rejected has left no trace, and one that is stored is never taken for rejected because of
the platform.
-/

namespace BackgroundTasks

/-! ## Orders -/

/-- What a caller may order. -/
inductive Order where
  | submit (request : Request)
  | reschedule (id : TaskId) (request : Request)
  | cancel (id : TaskId)
  | cancelAll
  | observe (id : TaskId)

/-- One row has been put in the place of that with its id, or added. -/
structure TaskTable.Puts (t t' : TaskTable) (row : Row) : Prop where
  stored : t'.find? row.id = some row
  others : ∀ id, id ≠ row.id → t'.find? id = t.find? id
  log : t'.log = t.log

/-- A row whose task has been cancelled. -/
def Row.cancelled (row : Row) (now : UInt64) : Row :=
  { row with state := .cancelled, updatedMs := now }

namespace Order

/-- What comes back from an order. -/
@[reducible] def Result : Order → Type
  | submit _ | reschedule .. => TaskId
  | cancel _ => Bool
  | cancelAll | observe _ => Nat

/-- The operation that carries an order out. -/
def operation (s : Scheduler) : (o : Order) → Operation o.Result
  | submit request => s.submit request
  | reschedule id request => s.reschedule id request
  | cancel id => Scheduler.cancel id
  | cancelAll => Scheduler.cancelAll
  | observe id => Scheduler.observe id

/-- What there is to object to in an order, as things stand. -/
def objection? (s : Scheduler) (y : System) : Order → Option Failure
  | submit request =>
    match request.normalize s.registry y.now s.config with
    | .error fault => some fault.failure
    | .ok _ =>
      let id := y.ids y.issued
      if (y.table.find? id).isSome then some (.store (.taskExists id)) else none
  | reschedule id request =>
    match request.normalize s.registry y.now s.config, y.table.find? id with
    | .error fault, _ => some fault.failure
    | .ok _, none => some (.notFound id)
    | .ok _, some row => if row.state = .running then some (.running id) else none
  | cancel id | observe id => if (y.table.find? id).isNone then some (.notFound id) else none
  | cancelAll => none

/-- The transaction in which an order is stored. -/
def Stores (s : Scheduler) (y : System) : Order → StoreCall → Prop
  | submit request, c => ∃ n, request.normalize s.registry y.now s.config = .ok n
      ∧ c = .insert (Row.fresh (y.ids y.issued) n.spec n.nextRunMs y.now)
  | reschedule id request, c => ∃ n, request.normalize s.registry y.now s.config = .ok n
      ∧ c = .replaceSpec id n.spec n.nextRunMs y.now
  | cancel id, c => c = .transition id State.cancellable .cancelled y.now
  | cancelAll, c => c = .transitionAll State.cancellable .cancelled y.now
  | observe _, _ => False

/-- What has become of the rows when an order has been carried out, and what comes back. -/
inductive Done (s : Scheduler) (y : System) : (o : Order) → o.Result → TaskTable → Prop
  | submitted {request : Request} {n : NormalizedRequest} {handle : Option String} {t : TaskTable}
      (normal : request.normalize s.registry y.now s.config = .ok n)
      (stored : y.table.Puts t
        ((Row.fresh (y.ids y.issued) n.spec n.nextRunMs y.now).withHandle handle)) :
      Done s y (.submit request) (y.ids y.issued) t
  | rescheduled {id : TaskId} {request : Request} {n : NormalizedRequest} {row : Row}
      {handle : Option String} {t : TaskTable}
      (normal : request.normalize s.registry y.now s.config = .ok n)
      (found : y.table.find? id = some row)
      (stored : y.table.Puts t
        (((RowStep.replace n.spec n.nextRunMs y.now).change row).withHandle handle)) :
      Done s y (.reschedule id request) id t
  | cancelled {id : TaskId} {row : Row} {t : TaskTable} (found : y.table.find? id = some row)
      (unfinished : row.state.isTerminal = false) (stored : y.table.Puts t (row.cancelled y.now)) :
      Done s y (.cancel id) true t
  /-- There was nothing left to cancel. -/
  | finished {id : TaskId} {row : Row} (found : y.table.find? id = some row)
      (finished : row.state.isTerminal = true) : Done s y (.cancel id) false y.table
  | allCancelled {ids : List TaskId} {t : TaskTable} (nodup : ids.Nodup)
      (unfinished : ∀ id, id ∈ ids ↔ ∃ row, y.table.find? id = some row
        ∧ row.state.isTerminal = false)
      (rows : ∀ id, t.find? id = (y.table.find? id).map fun row =>
        if row.state.isTerminal then row else row.cancelled y.now)
      (log : t.log = y.table.log) : Done s y .cancelAll ids.length t
  | observed {id : TaskId} {row : Row} {key : Nat} (found : y.table.find? id = some row) :
      Done s y (.observe id) key y.table

/-- Why an order may fail: it is objected to, or the store has failed in its one transaction. -/
def FailsBy (fails : StoreCall → Prop) (s : Scheduler) (y : System) (o : Order)
    (failure : Failure) : Prop :=
  o.objection? s y = some failure
    ∨ o.objection? s y = none ∧ failure = .store .storage
      ∧ ∃ t c, y.store = .files t ∧ o.Stores s y c ∧ fails c

end Order

/-! ## What is stored -/

namespace TaskTable

variable {t t' : TaskTable} {id : TaskId} {row : Row} {step : RowStep}

theorem puts_stepAt (hrow : t.find? id = some row) (h : step.accepts row = true) :
    t.Puts (t.stepAt id step).2 (step.change row) := by
  have hid : (step.change row).id = id := (step.keepsId row).trans (id_of_find? hrow)
  refine ⟨?_, fun id' hne => find?_stepAt_other t step (hid ▸ hne), rfl⟩
  rw [hid, find?_stepAt_self, hrow, Option.map_some, RowStep.after_of_accepts h]

theorem puts_insert (h : t.insert? row = some t') : t.Puts t' row := by
  obtain ⟨-, hrow, hothers⟩ := find?_insert? h
  refine ⟨hrow, hothers, ?_⟩
  have hlog := t.log_answer (.insert row)
  rw [answer, h] at hlog
  exact hlog.trans (List.append_nil _)

/-- A row is added just when its id is free. -/
theorem insert?_isSome (t : TaskTable) (row : Row) :
    (t.insert? row).isSome = (t.find? row.id).isNone := by
  unfold insert?
  split
  · next htaken =>
    obtain ⟨r, hr, hid⟩ := List.mem_map.1 htaken
    rw [← hid, find?_of_mem hr]
    rfl
  · next hfree =>
    cases hrow : t.find? row.id with
    | none => rfl
    | some r => exact absurd (id_of_find? hrow ▸ List.mem_map_of_mem (mem_of_find? hrow)) hfree

theorem answer_insert_free (row : Row) (h : t.find? row.id = none) :
    ∃ t', t.answer (.insert row) = (.ok (), t') ∧ t.Puts t' row := by
  have hsome := t.insert?_isSome row
  rw [h, Option.isNone_none] at hsome
  obtain ⟨t', hinsert⟩ := Option.isSome_iff_exists.1 hsome
  refine ⟨t', ?_, puts_insert hinsert⟩
  rw [answer, hinsert]

theorem answer_insert_taken (row : Row) {found : Row} (h : t.find? row.id = some found) :
    t.answer (.insert row) = (.error (.store (.taskExists row.id)), t) := by
  have hnone := t.insert?_isSome row
  rw [h, Option.isNone_some] at hnone
  rw [answer, Option.not_isSome_iff_eq_none.1 (Bool.eq_false_iff.1 hnone)]

/-- The row that was put is told its handle. -/
theorem Puts.recorded (h : t.Puts t' row) (handle : Option String) :
    t.Puts (t'.stepAt row.id (.setPlatformId handle)).2 (row.withHandle handle) := by
  have haccepts : (RowStep.setPlatformId handle).accepts row = true := rfl
  obtain ⟨hrow, hothers, hlog⟩ := puts_stepAt h.stored haccepts
  exact ⟨hrow, fun id hid => (hothers id hid).trans (h.others id hid), hlog.trans h.log⟩

theorem answer_transition_taken {origins : List State} {target : State} {now : UInt64}
    (hrow : t.find? id = some row) (h : (RowStep.move origins target now).accepts row = true) :
    ∃ t', t.answer (.transition id origins target now) = (.ok (1 : Nat), t')
      ∧ t.Puts t' ((RowStep.move origins target now).change row) := by
  have hmoved := t.stepAt_isSome id (.move origins target now)
  rw [hrow, Option.any_some, h] at hmoved
  exact ⟨_, Prod.ext (congrArg Except.ok (if_pos hmoved)) rfl, puts_stepAt hrow h⟩

theorem answer_transition_refused {origins : List State} {target : State} {now : UInt64}
    (hrow : t.find? id = some row) (h : ¬ (RowStep.move origins target now).accepts row = true) :
    t.answer (.transition id origins target now) = (.ok (0 : Nat), t) := by
  have hmoved : ¬ (t.stepAt id (.move origins target now)).1.isSome = true := by
    rw [stepAt_isSome, hrow]
    exact h
  exact Prod.ext (congrArg Except.ok (if_neg hmoved))
    (stepAt_refused (Option.not_isSome_iff_eq_none.1 hmoved))

section Replacing

variable {spec : Spec} {next now : UInt64}

/-- A row that is not there, or does not accept it, is given no new description. -/
theorem answer_replaceSpec_refused (h : (t.stepAt id (.replace spec next now)).1 = none) :
    t.answer (.replaceSpec id spec next now)
      = (.ok (if (t.find? id).isNone then .notFound else .running), t) := by
  have hstep : t.stepAt id (.replace spec next now) = (none, t) := Prod.ext h (stepAt_refused h)
  cases hfound : t.find? id with
  | none => simp only [answer, replaceSpec, hfound, hstep, Option.isNone_none, if_true]
  | some row => simp only [answer, replaceSpec, hfound, hstep, Option.isNone_some, if_false,
      Bool.false_eq_true]

theorem answer_replaceSpec_missing (h : t.find? id = none) :
    t.answer (.replaceSpec id spec next now) = (.ok .notFound, t) := by
  rw [answer_replaceSpec_refused (by rw [stepAt, h, Option.bind_none]), h]
  rfl

theorem answer_replaceSpec_running (h : t.find? id = some row) (hrunning : row.state = .running) :
    t.answer (.replaceSpec id spec next now) = (.ok .running, t) := by
  have hrefuses : ¬ (RowStep.replace spec next now).accepts row = true := by
    show ¬ row.state.canReschedule = true
    rw [hrunning]
    nofun
  rw [answer_replaceSpec_refused (by
    rw [stepAt, h, Option.bind_some, RowStep.apply_eq_none.2 hrefuses]), h]
  rfl

theorem answer_replaceSpec_idle (spec : Spec) (next now : UInt64) (h : t.find? id = some row)
    (hidle : row.state ≠ .running) :
    ∃ t', t.answer (.replaceSpec id spec next now) = (.ok .replaced, t')
      ∧ t.Puts t' ((RowStep.replace spec next now).change row) := by
  have haccepts : (RowStep.replace spec next now).accepts row = true := bne_iff_ne.2 hidle
  refine ⟨(t.stepAt id (.replace spec next now)).2, ?_, puts_stepAt h haccepts⟩
  rw [← replaceSpec_snd]
  have hreplaced := (t.replaceSpec_replaced id spec next now).2 (by
    rw [stepAt_isSome, h]
    exact haccepts)
  exact Prod.ext (congrArg Except.ok hreplaced) rfl

end Replacing

end TaskTable

/-- What is not at its end can be cancelled. -/
theorem RowStep.accepts_cancel (row : Row) (now : UInt64) :
    (move State.cancellable .cancelled now).accepts row = !row.state.isTerminal := by
  show (State.cancellable.contains row.state && row.state.canBecome .cancelled) = _
  cases row.state <;> rfl

/-! ## What each order endures -/

open Operation

variable {fails : StoreCall → Prop} {s : Scheduler} {y : System}

/-- Whether or not the platform arms the row and the handle is recorded, the row stays. -/
theorem endures_armForNextRun {t : TaskTable} {row : Row} {now : UInt64}
    {ok : Unit → System → Prop} {failed : Failure → System → Prop} (hrow : t.Puts y.table row)
    (h : ∀ y' handle, t.Puts y'.table (row.withHandle handle) → ok () y') :
    (armForNextRun row now).Endures fails y ok failed := by
  have unrecorded {y' : System} (hsame : y'.table = y.table) : ok () y' :=
    h y' row.platformId (hsame ▸ hrow)
  unfold armForNextRun armAndRecord
  rw [Endures, ensures_ignoringFailure, ensures_bind]
  refine endures_arm (fun handle platform => ensures_ite.2 ⟨fun _ => ?_, fun _ => unrecorded rfl⟩)
    fun _ platform => unrecorded rfl
  refine endures_store trivial (TaskTable.answer_setPlatformId hrow.stored handle)
    (fun y' htable _ => h y' handle (htable ▸ hrow.recorded handle))
    fun _ y' _ _ _ huntouched => unrecorded huntouched.table

/-- What follows from a cancellation leaves the rows alone. -/
theorem endures_afterCancel {id : TaskId} {ok : Unit → System → Prop}
    {failed : Failure → System → Prop} (h : ∀ y', y'.table = y.table → ok () y') :
    (Scheduler.afterCancel id).Endures fails y ok failed := by
  unfold Scheduler.afterCancel
  rw [Endures, ensures_bind, ensures_ignoringFailure]
  have shown (platform : Platform) :
      (do publishStatus id; notify .cancelled id none none).Endures fails { y with platform } ok
        failed :=
    (ensures_bind _ _).2 (endures_publishStatus fun board => endures_notify fun sink => h _ rfl)
  exact endures_disarm shown fun _ => shown

/-- What an order is to come to. -/
abbrev Order.Resolves (fails : StoreCall → Prop) (s : Scheduler) (y : System) (o : Order) : Prop :=
  (o.operation s).Endures fails y (fun a y' => o.objection? s y = none ∧ o.Done s y a y'.table)
    fun failure y' => y.Untouched y' ∧ o.FailsBy fails s y failure

/-- A further id has been given out. -/
theorem System.Untouched.ofIssued {y' : System} {issued : Nat}
    (h : ({ y with issued } : System).Untouched y') : y.Untouched y' :=
  ⟨h.table, h.files, h.platform, h.sink, h.board⟩

theorem resolves_submit (request : Request) : (Order.submit request).Resolves fails s y := by
  show (s.submit request).Endures _ _ _ _
  unfold Scheduler.submit
  rw [Endures, ensures_bind]
  refine endures_now ?_
  rw [ensures_bind, ensures_normalize]
  cases hn : request.normalize s.registry y.now s.config with
  | error fault => exact ⟨.refl y, .inl (by simp only [Order.objection?, hn])⟩
  | ok n =>
    have hobjection : (Order.submit request).objection? s y
        = if (y.table.find? (y.ids y.issued)).isSome
          then some (.store (.taskExists (y.ids y.issued))) else none := by
      simp only [Order.objection?, hn]
    let row := Row.fresh (y.ids y.issued) n.spec n.nextRunMs y.now
    dsimp only
    rw [ensures_bind]
    refine endures_ask (c := .newId) (fun _ _ => Iff.rfl) rfl ?_
    rw [ensures_bind]
    cases hfound : y.table.find? (y.ids y.issued) with
    | some found =>
      rw [hfound] at hobjection
      refine endures_store_refused trivial (TaskTable.answer_insert_taken row hfound) ?_
      exact fun y₁ huntouched => ⟨huntouched.ofIssued, .inl hobjection⟩
    | none =>
      rw [hfound] at hobjection
      obtain ⟨t, hanswer, hputs⟩ := TaskTable.answer_insert_free row hfound
      refine endures_store trivial hanswer (fun y₁ htable _ => ?_)
        fun _ y₁ _ hfiles hfails hun => ?_
      · simp only [ensures_bind]
        refine endures_publishStatus fun board => endures_notify fun sink => ?_
        exact endures_armForNextRun (htable ▸ hputs) fun y₂ handle hstored =>
          ⟨hobjection, .submitted hn hstored⟩
      · exact ⟨hun.ofIssued, .inr ⟨hobjection, rfl, _, _, hfiles, ⟨n, hn, rfl⟩, hfails⟩⟩

theorem resolves_reschedule (id : TaskId) (request : Request) :
    (Order.reschedule id request).Resolves fails s y := by
  show (s.reschedule id request).Endures _ _ _ _
  unfold Scheduler.reschedule
  rw [Endures, ensures_bind]
  refine endures_now ?_
  rw [ensures_bind, ensures_normalize]
  cases hn : request.normalize s.registry y.now s.config with
  | error fault => exact ⟨.refl y, .inl (by simp only [Order.objection?, hn])⟩
  | ok n =>
    dsimp only
    rw [ensures_bind]
    cases hfound : y.table.find? id with
    | none =>
      refine endures_store trivial (TaskTable.answer_replaceSpec_missing hfound)
        (fun y₁ _ huntouched => ⟨huntouched rfl, .inl ?_⟩)
        fun _ _ h => absurd h Bool.false_ne_true
      simp only [Order.objection?, hn, hfound]
    | some row =>
      by_cases hrunning : row.state = .running
      · refine endures_store trivial (TaskTable.answer_replaceSpec_running hfound hrunning)
          (fun y₁ _ huntouched => ⟨huntouched rfl, .inl ?_⟩)
          fun _ _ h => absurd h Bool.false_ne_true
        simp only [Order.objection?, hn, hfound, if_pos hrunning]
      have hobjection : (Order.reschedule id request).objection? s y = none := by
        simp only [Order.objection?, hn, hfound, if_neg hrunning]
      obtain ⟨t, hanswer, hputs⟩ :=
        TaskTable.answer_replaceSpec_idle n.spec n.nextRunMs y.now hfound hrunning
      refine endures_store trivial hanswer (fun y₁ htable _ => ?_)
        fun _ y₁ _ hfiles hfails hun => ?_
      · subst htable
        have hid : ((RowStep.replace n.spec n.nextRunMs y.now).change row).id = id :=
          (RowStep.keepsId _ row).trans (TaskTable.id_of_find? hfound)
        have hstored := hputs.stored
        rw [hid] at hstored
        rw [ensures_bind]
        refine endures_get ?_
        rw [hstored]
        simp only [ensures_bind]
        refine endures_publishStatus fun board => endures_notify fun sink => ?_
        exact endures_armForNextRun hputs fun y₂ handle hstored =>
          ⟨hobjection, .rescheduled hn hfound hstored⟩
      · exact ⟨hun, .inr ⟨hobjection, rfl, _, _, hfiles, ⟨n, hn, rfl⟩, hfails⟩⟩

theorem resolves_cancel (id : TaskId) : (Order.cancel id).Resolves fails s y := by
  show (Scheduler.cancel id).Endures _ _ _ _
  unfold Scheduler.cancel
  rw [Endures, ensures_bind]
  refine endures_get ?_
  cases hfound : y.table.find? id with
  | none => exact ⟨.refl y, .inl (by simp only [Order.objection?, hfound]; rfl)⟩
  | some row =>
    have hobjection : (Order.cancel id).objection? s y = none := by
      simp only [Order.objection?, hfound]
      rfl
    show Ensures _ _ (Operation.now >>= _) y _ _
    rw [ensures_bind]
    refine endures_now ?_
    rw [ensures_bind]
    have haccepts := RowStep.accepts_cancel row y.now
    cases hterminal : row.state.isTerminal with
    | true =>
      rw [hterminal] at haccepts
      have hanswer := TaskTable.answer_transition_refused hfound (Bool.eq_false_iff.1 haccepts)
      refine endures_store trivial hanswer (fun y₁ htable _ => ?_)
        fun _ _ h => absurd h Bool.false_ne_true
      exact ⟨hobjection, htable ▸ .finished hfound hterminal⟩
    | false =>
      rw [hterminal] at haccepts
      obtain ⟨t, hanswer, hputs⟩ := TaskTable.answer_transition_taken hfound haccepts
      refine endures_store trivial hanswer (fun y₁ htable _ => ?_)
        fun _ y₁ _ hfiles hfails hun => ?_
      · show Ensures _ _ (Scheduler.afterCancel id >>= _) y₁ _ _
        rw [ensures_bind]
        refine endures_afterCancel fun y₂ hsame => ⟨hobjection, ?_⟩
        exact .cancelled hfound hterminal (hsame.trans htable ▸ hputs)
      · exact ⟨hun, .inr ⟨hobjection, rfl, _, _, hfiles, rfl, hfails⟩⟩

theorem resolves_cancelAll : Order.cancelAll.Resolves fails s y := by
  show Scheduler.cancelAll.Endures _ _ _ _
  unfold Scheduler.cancelAll
  rw [Endures, ensures_bind]
  refine endures_now ?_
  rw [ensures_bind]
  let step := RowStep.move State.cancellable .cancelled y.now
  have hanswer : y.table.answer (.transitionAll State.cancellable .cancelled y.now)
      = (.ok (y.table.stepAll step).1, (y.table.stepAll step).2) := rfl
  refine endures_store trivial hanswer (fun y₁ htable _ => ?_)
    fun _ y₁ _ hfiles hfails hun => ?_
  · rw [ensures_bind]
    have told : ((y.table.stepAll step).1.forM Scheduler.afterCancel).Endures fails y₁
        (fun _ y' => y'.table = y₁.table)
        fun failure y' => y.Untouched y' ∧ Order.cancelAll.FailsBy fails s y failure :=
      ensures_forM (fun _ y' => y'.table = y₁.table)
        (fun id rest y' hsame => endures_afterCancel fun y'' h => h.trans hsame) _ rfl
    refine told.mono (fun _ y₂ hsame => ⟨rfl, ?_⟩) fun _ _ h => h
    rw [hsame, htable]
    refine .allCancelled (y.table.nodup_stepAll step) (fun id => ?_) (fun id => ?_) rfl
    · rw [TaskTable.mem_stepAll, Option.any_eq_true]
      simp only [step, RowStep.accepts_cancel, Bool.not_eq_true']
    · rw [TaskTable.find?_stepAll]
      refine congrArg (Option.map · _) (funext fun row => ?_)
      show (if step.accepts row = true then row.cancelled y.now else row) = _
      rw [RowStep.accepts_cancel]
      cases row.state.isTerminal <;> rfl
  · exact ⟨hun, .inr ⟨rfl, rfl, _, _, hfiles, rfl, hfails⟩⟩

theorem resolves_observe (id : TaskId) : (Order.observe id).Resolves fails s y := by
  show (Scheduler.observe id).Endures _ _ _ _
  unfold Scheduler.observe
  rw [Endures, ensures_bind]
  refine endures_get ?_
  cases hfound : y.table.find? id with
  | none => exact ⟨.refl y, .inl (by simp only [Order.objection?, hfound]; rfl)⟩
  | some row =>
    have hobjection : (Order.observe id).objection? s y = none := by
      simp only [Order.objection?, hfound]
      rfl
    dsimp only
    rw [ensures_bind]
    refine endures_ask (c := .subscribe id row.state) (fun _ _ => Iff.rfl) rfl ?_
    rw [ensures_bind, ensures_tryCatch]
    exact endures_refresh fun board => ⟨hobjection, .observed hfound⟩

/--
**A rejected order leaves no trace, and trouble on the platform rejects none.** Whatever the
platform makes of its calls, and whichever transactions of a store in files may fail, an order comes
to its end. Either there was nothing to object to, and it has been carried out; or it fails and
everything is as it was, and then there was an objection, or its own transaction was one of those
that may fail.
-/
theorem order_done_or_untouched (fails : StoreCall → Prop) (s : Scheduler) (y : System)
    (o : Order) :
    (o.operation s).Ensures (System.Adverse fails) (System.CannotStore fails) y
      (fun a y' => o.objection? s y = none ∧ o.Done s y a y'.table)
      (fun failure y' => y.Untouched y' ∧ o.FailsBy fails s y failure) := by
  cases o with
  | submit request => exact resolves_submit request
  | reschedule id request => exact resolves_reschedule id request
  | cancel id => exact resolves_cancel id
  | cancelAll => exact resolves_cancelAll
  | observe id => exact resolves_observe id

end BackgroundTasks
