import BackgroundTasks.Proofs.Files.Atomic
import BackgroundTasks.Proofs.Files.Contents

/-!
# The store in files against the table

While the files hold what the table holds, a call to the store in files returns what the table
returns, and leaves the files holding what the table then holds. A call writes the snapshot exactly
when it has changed a row: a call that reports no change has left every row as it was. So the two
stores answer every sequence of calls alike, and whenever the store is opened again, the rows and
the log that are read answer every question as the store would have.

A float need not survive being written and read, so this is said of calls whose floats do.
-/

namespace BackgroundTasks

/-- A call whose floats are read back as they were written. -/
def StoreCall.Faithful : StoreCall → Prop
  | insert row => row.spec.Faithful
  | replaceSpec _ spec _ _ => spec.Faithful
  | _ => True

namespace TaskTable

variable {t next : TaskTable}

/-! ## Rows that keep their floats -/

/-- A table whose floats are read back as they were written. -/
def Faithful (t : TaskTable) : Prop := ∀ r ∈ t.rows, r.spec.Faithful

/-- A step that leads from faithful rows to faithful rows. -/
def KeepsFaithful (step : RowStep) : Prop :=
  ∀ r : Row, r.spec.Faithful → (step.change r).spec.Faithful

theorem faithful_mapRows (h : t.Faithful) (f : Row → Row) (keepsId : ∀ r, (f r).id = r.id)
    (hf : ∀ r : Row, r.spec.Faithful → (f r).spec.Faithful) : (t.mapRows f keepsId).Faithful := by
  intro r hr
  obtain ⟨q, hq, rfl⟩ := List.mem_map.1 hr
  exact hf q (h q hq)

variable {step : RowStep}

theorem faithful_after (hstep : KeepsFaithful step) (r : Row) (hr : r.spec.Faithful) :
    (step.after r).spec.Faithful := by
  unfold RowStep.after
  split
  · exact hstep r hr
  · exact hr

theorem faithful_stepAt (h : t.Faithful) (hstep : KeepsFaithful step) (id : TaskId) :
    (t.stepAt id step).2.Faithful := by
  refine faithful_mapRows h _ (step.id_afterAt id) fun r hr => ?_
  unfold RowStep.afterAt
  split
  · exact faithful_after hstep r hr
  · exact hr

theorem faithful_stepAll (h : t.Faithful) (hstep : KeepsFaithful step) :
    (t.stepAll step).2.Faithful :=
  faithful_mapRows h _ step.id_after (faithful_after hstep)

theorem faithful_insert? {row : Row} (h : t.Faithful) (hrow : row.spec.Faithful)
    (hinsert : t.insert? row = some next) : next.Faithful := by
  unfold insert? at hinsert
  split at hinsert
  · cases hinsert
  · cases hinsert
    exact List.forall_mem_append.2 ⟨h, List.forall_mem_singleton.2 hrow⟩

theorem faithful_answer {c : StoreCall} (h : t.Faithful) (hc : c.Faithful) :
    (t.answer c).2.Faithful := by
  cases c with
  | get | list | due | logs | lastLog | appendLog => exact h
  | insert row =>
    rw [answer]
    split
    · next hinsert => exact faithful_insert? h hc hinsert
    · exact h
  | claim id now => exact faithful_stepAt h (show KeepsFaithful (.claim now) from fun _ hr => hr) id
  | complete id completion entry =>
    exact faithful_stepAt h (show KeepsFaithful (.complete completion) from fun _ hr => hr) id
  | transition id origins target now =>
    exact faithful_stepAt h (show KeepsFaithful (.move origins target now) from fun _ hr => hr) id
  | transitionAll origins target now =>
    exact faithful_stepAll h (show KeepsFaithful (.move origins target now) from fun _ hr => hr)
  | replaceSpec id spec nextRun now =>
    show (t.replaceSpec id spec nextRun now).2.Faithful
    rw [replaceSpec_snd]
    exact faithful_stepAt h (show KeepsFaithful (.replace spec nextRun now) from fun _ _ => hc) id
  | setPlatformId id handle =>
    rw [answer]
    have hkeeps : KeepsFaithful (.setPlatformId handle) := fun _ hr => hr
    have hstep := faithful_stepAt h hkeeps id
    split
    · next heq =>
      rw [heq] at hstep
      exact hstep
    · next heq =>
      rw [heq] at hstep
      exact hstep

/-! ## What a call leaves as it was -/

theorem rows_stepAt_refused {id : TaskId} (h : ¬ (t.stepAt id step).1.isSome = true) :
    (t.stepAt id step).2.rows = t.rows := by
  rw [stepAt_refused (Option.not_isSome_iff_eq_none.1 h)]

theorem rows_stepAll_refused (h : (t.stepAll step).1 = []) : (t.stepAll step).2.rows = t.rows := by
  refine (List.map_congr_left fun r hr => ?_).trans (List.map_id t.rows)
  -- a row that took the step would have been named
  refine RowStep.after_of_refuses fun hacc => ?_
  have hmem : r.id ∈ (t.stepAll step).1 := by
    rw [mem_stepAll, find?_of_mem hr]
    exact hacc
  rw [h] at hmem
  cases hmem

/-- A call that reports no change leaves every row as it was. -/
theorem rows_unchanged {c : StoreCall} {result : c.Result} (h : t.answer c = (.ok result, next))
    (hc : c.changesRows result = false) : next.rows = t.rows := by
  cases c with
  | get | list | due | logs | lastLog | appendLog =>
    cases h
    rfl
  | insert => cases hc
  | setPlatformId => cases hc
  | claim id now =>
    cases h
    exact rows_stepAt_refused (by rw [Bool.not_eq_true]; exact hc)
  | complete id completion entry =>
    cases h
    have happlied : (t.complete id completion entry).1.1 = false := hc
    show (t.complete id completion entry).2.rows = t.rows
    rw [complete_discarded happlied]
    rfl
  | transition id origins target now =>
    cases h
    refine rows_stepAt_refused fun hsome => ?_
    have hnone : ((if (t.stepAt id (.move origins target now)).1.isSome then (1 : Nat) else 0) != 0)
      = false := hc
    rw [if_pos hsome] at hnone
    cases hnone
  | transitionAll origins target now =>
    cases h
    refine rows_stepAll_refused ?_
    have hempty : (!(t.stepAll (.move origins target now)).1.isEmpty) = false := hc
    rw [Bool.not_eq_false', List.isEmpty_iff] at hempty
    exact hempty
  | replaceSpec id spec nextRun now =>
    cases h
    show (t.replaceSpec id spec nextRun now).2.rows = t.rows
    rw [replaceSpec_snd]
    refine rows_stepAt_refused fun hsome => ?_
    have hreplaced := (replaceSpec_replaced t id spec nextRun now).2 hsome
    have hc : StoreCall.changesRows (.replaceSpec id spec nextRun now)
      (t.replaceSpec id spec nextRun now).1 = false := hc
    rw [hreplaced] at hc
    cases hc

end TaskTable

namespace FileStore

open Place (AlikeBut)

variable {t t' : TaskTable} {p q : Place} {c : StoreCall}

/-! ## Files that hold what the table holds -/

/-- A snapshot of the rows of a table; for no rows it need not be there. -/
def SnapshotHolds (p : Place) (t : TaskTable) : Prop :=
  p.find? [snapshotName] = some (.file (snapshot t)) ∨
    p.find? [snapshotName] = none ∧ t.rows = []

/-- The files hold what the table holds, and can be written. -/
structure Synced (t : TaskTable) (p : Place) : Prop where
  isFolder : p.IsFolder
  draft : p.find? [draftName] ≠ some .folder
  snapshot : SnapshotHolds p t
  log : LogHolds p (t.log.flatMap logLine)
  faithful : t.Faithful

theorem snapshotHolds_congr (hfile : q.find? [snapshotName] = p.find? [snapshotName])
    (hrows : t'.rows = t.rows) (h : SnapshotHolds p t) : SnapshotHolds q t' := by
  unfold SnapshotHolds snapshot TaskTable.list at h ⊢
  rw [hfile, hrows]
  exact h

theorem logHolds_congr {content : List UInt8} (hfile : q.find? [logName] = p.find? [logName])
    (h : LogHolds p content) : LogHolds q content := by
  unfold LogHolds at h ⊢
  rw [hfile]
  exact h

/-- A log has one content. -/
theorem logHolds_unique {content content' : List UInt8} (h : LogHolds p content)
    (h' : LogHolds p content') : content' = content := by
  rcases h with h | ⟨h, rfl⟩ <;> rcases h' with h' | ⟨h', rfl⟩
  · cases h.symm.trans h'
    rfl
  · cases h.symm.trans h'
  · cases h.symm.trans h'
  · rfl

theorem logHolds_sameLog {content : List UInt8} (h : LogHolds p content) (hsame : SameLog p q) :
    LogHolds q content := by
  rcases hsame with hsame | ⟨content', hp, hq⟩
  · exact logHolds_congr hsame h
  · rw [logHolds_unique hp h]
    exact hq

theorem snapshot_not_folder (h : SnapshotHolds p t) : p.find? [snapshotName] ≠ some .folder := by
  rcases h with h | ⟨h, -⟩ <;> simp [h]

theorem log_not_folder {content : List UInt8} (h : LogHolds p content) :
    p.find? [logName] ≠ some .folder := by
  rcases h with h | ⟨h, -⟩ <;> simp [h]

/-- Calls that fail change nothing that is read. -/
theorem synced_unread (h : Synced t p) (hunread : Unread p q) : Synced t q where
  isFolder := hunread.alike.isFolder h.isFolder
  draft hdraft := h.draft (hunread.alike.noFolder draftName hdraft)
  snapshot := snapshotHolds_congr (hunread.alike.find?_eq snapshotName (by decide)) rfl h.snapshot
  log := logHolds_sameLog h.log hunread.log
  faithful := h.faithful

theorem synced_error {failure : Failure} (h : Synced t p)
    (hrun : MayRun (answer t c) p (.error failure, t') q) : t' = t ∧ Synced t' q := by
  obtain ⟨rfl, hunread⟩ := unread_of_error hrun
  exact ⟨rfl, synced_unread h hunread⟩

/-! ## Calls that succeed -/

theorem commit_ok {before after : TaskTable} {result r : c.Result} {work : Work Unit}
    (h : MayRun (commit before after result work) p (.ok r, t') q) :
    r = result ∧ t' = after ∧ MayRun work p (.ok ()) q := by
  obtain ⟨_ | _, p', hwork, hend⟩ := mayRun_bind.1 h
  · cases (mayRun_done.1 hend).1
  · obtain ⟨⟨⟩, rfl⟩ := mayRun_done.1 hend
    exact ⟨rfl, rfl, hwork⟩

/-- Lines have been added to the log, and the snapshot is still that of the rows. -/
structure Written (t t' : TaskTable) (added : List LogEntry) (p q : Place) : Prop where
  alike : AlikeBut [draftName, snapshotName, logName] p q
  log : ∀ content, LogHolds p content → LogHolds q (content ++ added.flatMap logLine)
  snapshot : q.find? [snapshotName] = some (.file (snapshot t')) ∨
    q.find? [snapshotName] = p.find? [snapshotName] ∧ t'.rows = t.rows

theorem written_nothing (hrows : t'.rows = t.rows) : Written t t' [] p p where
  alike := .refl _ p
  log content h := by
    rw [List.flatMap_nil, List.append_nil]
    exact h
  snapshot := .inr ⟨rfl, hrows⟩

theorem written_line {e : LogEntry} {length : Nat} (hrows : t'.rows = t.rows)
    (hrun : MayRun (appendToLog e) p (.ok length) q) : Written t t' [e] p q := by
  obtain ⟨content, hp, -, hq, halike⟩ := appendToLog_ok hrun
  refine ⟨halike.mono (by simp), fun content' hcontent => ?_, .inr ⟨?_, hrows⟩⟩
  · rw [logHolds_unique hp hcontent, List.flatMap_singleton]
    exact .inl hq
  · exact halike.find?_eq snapshotName (by decide)

theorem written_snapshot (hrun : MayRun (writeSnapshot t') p (.ok ()) q) : Written t t' [] p q := by
  obtain ⟨hsnapshot, halike⟩ := writeSnapshot_ok hrun
  refine ⟨halike.mono (by simp), fun content hcontent => ?_, .inl hsnapshot⟩
  rw [List.flatMap_nil, List.append_nil]
  exact logHolds_congr (halike.find?_eq logName (by decide)) hcontent

theorem Written.trans {t₁ : TaskTable} {p₁ : Place} {added more : List LogEntry}
    (h : Written t t₁ added p p₁) (h' : Written t₁ t' more p₁ q) :
    Written t t' (added ++ more) p q where
  alike := h.alike.trans h'.alike
  log content hcontent := by
    rw [List.flatMap_append, ← List.append_assoc]
    exact h'.log _ (h.log _ hcontent)
  snapshot := by
    rcases h'.snapshot with hnew | ⟨hsame, hrows⟩
    · exact .inl hnew
    rcases h.snapshot with hnew | ⟨hsame', hrows'⟩
    · refine .inl ?_
      rw [hsame, hnew, FileStore.snapshot, FileStore.snapshot, TaskTable.list, TaskTable.list,
        hrows]
    · exact .inr ⟨hsame.trans hsame', hrows.trans hrows'⟩

theorem written_completion {id : TaskId} {completion : Completion} {entry : LogEntry}
    (hrun : MayRun (completionWork (t.complete id completion entry).1.2
      (t.complete id completion entry).2 (t.complete id completion entry).1.1) p (.ok ()) q) :
    Written t (t.complete id completion entry).2 [(t.complete id completion entry).1.2] p q := by
  obtain ⟨length, p', happend, hrest⟩ | ⟨_, ⟨⟩, _⟩ := mayRun_then.1 hrun
  split at hrest
  · have hline : Written t (t.appendLog (t.complete id completion entry).1.2)
        [(t.complete id completion entry).1.2] p p' := written_line rfl happend
    exact hline.trans (written_snapshot (mayRun_orCutLog_ok.1 hrest))
  · next hdiscarded =>
    obtain ⟨-, rfl⟩ := mayRun_pure.1 hrest
    refine written_line ?_ happend
    rw [TaskTable.complete_discarded (Bool.eq_false_iff.2 hdiscarded)]
    rfl

theorem written_plain {result : c.Result} (hplain : t.entries c = [])
    (heq : answer t c = plainAnswer t c) (hrun : MayRun (answer t c) p (.ok result, t') q) :
    t.answer c = (.ok result, t') ∧ Written t t' (t.entries c) p q := by
  rw [heq, plainAnswer] at hrun
  rcases hanswer : t.answer c with ⟨failure | result', next⟩
  · rw [hanswer] at hrun
    cases (mayRun_done.1 hrun).1
  · rw [hanswer] at hrun
    obtain ⟨rfl, rfl, hwork⟩ := commit_ok hrun
    refine ⟨rfl, ?_⟩
    rw [hplain]
    split at hwork
    · exact written_snapshot hwork
    · next hunchanged =>
      -- no snapshot is written, and none has to be
      obtain ⟨-, rfl⟩ := mayRun_pure.1 hwork
      exact written_nothing (TaskTable.rows_unchanged hanswer (Bool.eq_false_iff.2 hunchanged))

/-- A call that succeeds returns what the table returns, and writes down what it has changed. -/
theorem written_ok {result : c.Result} (hrun : MayRun (answer t c) p (.ok result, t') q) :
    t.answer c = (.ok result, t') ∧ Written t t' (t.entries c) p q := by
  cases c with
  | complete id completion entry =>
    rw [answer_complete] at hrun
    obtain ⟨rfl, rfl, hwork⟩ := commit_ok hrun
    exact ⟨rfl, written_completion hwork⟩
  | appendLog entry =>
    obtain ⟨rfl, rfl, hwork⟩ := commit_ok hrun
    obtain ⟨length, p', happend, hrest⟩ | ⟨_, ⟨⟩, _⟩ := mayRun_then.1 hwork
    obtain ⟨-, rfl⟩ := mayRun_pure.1 hrest
    exact ⟨rfl, written_line rfl happend⟩
  | _ => exact written_plain rfl rfl hrun

theorem synced_written {added : List LogEntry} (h : Synced t p) (hwritten : Written t t' added p q)
    (hlog : t'.log = t.log ++ added) (hfaithful : t'.Faithful) : Synced t' q where
  isFolder := hwritten.alike.isFolder h.isFolder
  draft hdraft := h.draft (hwritten.alike.noFolder draftName hdraft)
  snapshot := by
    rcases hwritten.snapshot with hnew | ⟨hsame, hrows⟩
    · exact .inl hnew
    · exact snapshotHolds_congr hsame hrows h.snapshot
  log := by
    rw [hlog, List.flatMap_append]
    exact hwritten.log _ h.log
  faithful := hfaithful

/-- A call that succeeds returns what the table returns, and the files follow the table. -/
theorem synced_ok {result : c.Result} (h : Synced t p) (hc : c.Faithful)
    (hrun : MayRun (answer t c) p (.ok result, t') q) :
    t.answer c = (.ok result, t') ∧ Synced t' q := by
  obtain ⟨hanswer, hwritten⟩ := written_ok hrun
  have hlog := t.log_answer c
  have hfaithful := TaskTable.faithful_answer h.faithful hc
  rw [hanswer] at hlog hfaithful
  exact ⟨hanswer, synced_written h hwritten hlog hfaithful⟩

/-- Whichever calls to the file system fail, the files hold what the table holds. -/
theorem synced_answer {a : c.Answer} (h : Synced t p) (hc : c.Faithful)
    (hrun : MayRun (answer t c) p (a, t') q) : Synced t' q := by
  cases a with
  | error failure => exact (synced_error h hrun).2
  | ok result => exact (synced_ok h hc hrun).2

/-! ## Without faults every call does its work -/

/-- The two calls by which a snapshot is written. -/
theorem eval_draft (t : TaskTable) (hp : p.IsFolder)
    (hdraft : p.find? [draftName] ≠ some .folder)
    (hsnapshot : p.find? [snapshotName] ≠ some .folder) :
    ∃ p' q, (perform (.write draftName (snapshot t))).eval Place.answer p = (.ok (), p') ∧
      (perform (.rename draftName snapshotName)).eval Place.answer p' = (.ok (), q) := by
  obtain ⟨p', hput⟩ := Place.exists_putFile? hp hdraft (snapshot t)
  have hwritten : p'.bytes? [draftName] = some (snapshot t) :=
    Place.bytes?_eq_some.2 (Place.find?_putFile?_self hput)
  have hsnapshot : p'.find? [snapshotName] ≠ some .folder := by
    rw [Place.find?_putFile?_other hput (by decide)]
    exact hsnapshot
  obtain ⟨q, hrename⟩ := Place.exists_rename? hwritten (by decide) hsnapshot
  have hwrite := eval_perform (.write draftName (snapshot t)) p
  have hmove := eval_perform (.rename draftName snapshotName) p'
  rw [Place.answer, hput] at hwrite
  rw [Place.answer, hrename] at hmove
  exact ⟨p', q, hwrite, hmove⟩

theorem eval_writeSnapshot (t : TaskTable) (hp : p.IsFolder)
    (hdraft : p.find? [draftName] ≠ some .folder)
    (hsnapshot : p.find? [snapshotName] ≠ some .folder) :
    ∃ q, (writeSnapshot t).eval Place.answer p = (.ok (), q) := by
  obtain ⟨p', q, hwrite, hrename⟩ := eval_draft t hp hdraft hsnapshot
  exact ⟨q, (eval_then hwrite).trans hrename⟩

theorem eval_orCutLog {α : Type} {w : Work α} {length : Nat} {a : α}
    (h : w.eval Place.answer p = (.ok a, q)) :
    (orCutLog w length).eval Place.answer p = (.ok a, q) := by
  refine (Program.eval_bind _ w _ p).trans ?_
  rw [h]
  rfl

/-- The three calls by which a line is written. -/
theorem eval_line (e : LogEntry) (hp : p.IsFolder) (hlog : p.find? [logName] ≠ some .folder) :
    ∃ length p' q, (perform (.openAtEnd logName)).eval Place.answer p = (.ok (), p') ∧
      (perform (.size logName)).eval Place.answer p' = (.ok length, p') ∧
      (perform (.append logName (logLine e))).eval Place.answer p' = (.ok (), q) := by
  obtain ⟨p', hput⟩ := Place.exists_putFile? hp hlog ((p.bytes? [logName]).getD [])
  have hfile := Place.find?_putFile?_self hput
  have hopened := Place.bytes?_eq_some.2 hfile
  obtain ⟨q, hmore⟩ := Place.exists_putFile? (Place.isFolder_putFile? hput)
    (by rw [hfile]; nofun) ((p.bytes? [logName]).getD [] ++ logLine e)
  have hopen := eval_perform (.openAtEnd logName) p
  have hsize := eval_perform (.size logName) p'
  have happend := eval_perform (.append logName (logLine e)) p'
  rw [Place.answer, hput] at hopen
  rw [Place.answer, hopened] at hsize
  rw [Place.answer, hopened, Option.bind_some, hmore] at happend
  exact ⟨_, p', q, hopen, hsize, happend⟩

theorem eval_appendToLog (e : LogEntry) (hp : p.IsFolder)
    (hlog : p.find? [logName] ≠ some .folder) :
    ∃ length q, (appendToLog e).eval Place.answer p = (.ok length, q) := by
  obtain ⟨length, p', q, hopen, hsize, happend⟩ := eval_line e hp hlog
  refine ⟨length, q, (eval_then hopen).trans ((eval_then hsize).trans ?_)⟩
  exact eval_then (eval_orCutLog happend)

theorem eval_commit {before after : TaskTable} {result : c.Result} {work : Work Unit}
    (h : work.eval Place.answer p = (.ok (), q)) :
    (commit before after result work).eval Place.answer p = ((.ok result, after), q) := by
  refine (Program.eval_bind _ work _ p).trans ?_
  rw [h]
  rfl

/-- Files that can be written. -/
structure Writable (p : Place) : Prop where
  isFolder : p.IsFolder
  noFolder : ∀ name ∈ [draftName, snapshotName, logName], p.find? [name] ≠ some .folder

theorem writable_alikeBut {names : List String} (h : Writable p) (halike : AlikeBut names p q) :
    Writable q where
  isFolder := halike.isFolder h.isFolder
  noFolder name hname hfolder := h.noFolder name hname (halike.noFolder name hfolder)

theorem Synced.writable (h : Synced t p) : Writable p where
  isFolder := h.isFolder
  noFolder := by
    simp only [List.forall_mem_cons]
    exact ⟨h.draft, snapshot_not_folder h.snapshot, log_not_folder h.log, nofun⟩

theorem Writable.evalSnapshot (h : Writable p) (t : TaskTable) :
    ∃ q, (writeSnapshot t).eval Place.answer p = (.ok (), q) :=
  eval_writeSnapshot t h.isFolder (h.noFolder draftName (by simp))
    (h.noFolder snapshotName (by simp))

theorem Writable.evalLine (h : Writable p) (e : LogEntry) :
    ∃ length q, (appendToLog e).eval Place.answer p = (.ok length, q) ∧ Writable q := by
  obtain ⟨length, q, happend⟩ := eval_appendToLog e h.isFolder (h.noFolder logName (by simp))
  have hmay := mayRun_eval (appendToLog e) p
  rw [happend] at hmay
  obtain ⟨_, -, -, -, halike⟩ := appendToLog_ok hmay
  exact ⟨length, q, happend, writable_alikeBut h halike⟩

theorem eval_plain (h : Writable p) (heq : answer t c = plainAnswer t c) :
    ∃ q, (answer t c).eval Place.answer p = (t.answer c, q) := by
  rw [heq, plainAnswer]
  rcases hanswer : t.answer c with ⟨failure | result, next⟩
  · rw [TaskTable.answer_error hanswer]
    exact ⟨p, rfl⟩
  · by_cases hchanges : c.changesRows result = true
    · obtain ⟨q, hwrite⟩ := h.evalSnapshot next
      exact ⟨q, eval_commit (by rw [if_pos hchanges, hwrite])⟩
    · exact ⟨p, eval_commit (by rw [if_neg hchanges]; rfl)⟩

/-- Where files can be written, a call without faults returns what the table returns. -/
theorem eval_writable (h : Writable p) (t : TaskTable) (c : StoreCall) :
    ∃ q, (answer t c).eval Place.answer p = (t.answer c, q) := by
  cases c with
  | appendLog entry =>
    obtain ⟨length, q, happend, -⟩ := h.evalLine entry
    exact ⟨q, eval_commit (eval_then happend)⟩
  | complete id completion entry =>
    rw [answer_complete]
    obtain ⟨length, p', happend, hwritable⟩ := h.evalLine (t.complete id completion entry).1.2
    by_cases happlied : (t.complete id completion entry).1.1 = true
    · obtain ⟨q, hwrite⟩ := hwritable.evalSnapshot (t.complete id completion entry).2
      refine ⟨q, eval_commit ((eval_then happend).trans ?_)⟩
      rw [if_pos happlied]
      exact eval_orCutLog hwrite
    · refine ⟨p', eval_commit ((eval_then happend).trans ?_)⟩
      rw [if_neg happlied]
      rfl
  | _ => exact eval_plain h rfl

/-- Without faults a call returns what the table returns. -/
theorem eval_answer (h : Synced t p) (c : StoreCall) :
    ∃ q, (answer t c).eval Place.answer p = (t.answer c, q) := eval_writable h.writable t c

end FileStore

end BackgroundTasks
