import BackgroundTasks.Proofs.Files.Durability

/-!
# Deaths inside a call

A call to the store is several calls to the file system, and the process may die between any two of
them. What is in the files at that moment is what the next process reads.

Most calls change one of the two files, and in one go: a snapshot counts from the moment at which it
gets its name, and a line is written by a single call. Wherever the process dies, such a call has
happened or it has not. A completion that is applied changes both files, the log first, so there is
one moment between the two at which its entry is there and its row is still running.
-/

namespace BackgroundTasks

/-- A completion that finds its claim still running. -/
def StoreCall.IsApplied (t : TaskTable) (c : StoreCall) : Prop :=
  ∃ id completion entry, c = .complete id completion entry ∧
    (t.complete id completion entry).1.1 = true

namespace FileStore

open Place (AlikeBut)

/--
Where a program may leave the files when the process dies: between two calls, or at either end.
-/
inductive Dies {α : Type} : FileProgram α → Place → Place → Prop
  | now (w : FileProgram α) (p : Place) : Dies w p p
  | later {c : FileCall} {k : c.Answer → FileProgram α} {p q : Place}
      (h : Dies (k (Place.answer c p).1) (Place.answer c p).2 q) : Dies (.call c k) p q

/--
A table and its files, as they may come about: the first store is opened in an empty folder, any
calls to the file system may fail, and whenever the process dies, another one opens the files.
-/
inductive Reachable : TaskTable → Place → Prop
  | init : Reachable .empty (.folder [])
  | answered {t t' : TaskTable} {p q : Place} {c : StoreCall} {a : c.Answer} (hr : Reachable t p)
      (hc : c.Faithful) (runs : MayRun (answer t c) p (a, t') q) : Reachable t' q
  | died {t t' : TaskTable} {p q : Place} {c : StoreCall} (hr : Reachable t p) (hc : c.Faithful)
      (dies : Dies (answer t c) p q) (opens : openTable.eval Place.answer q = (.ok t', q)) :
      Reachable t' q

variable {α β : Type} {t t' : TaskTable} {p q : Place} {c : StoreCall}

/-! ## Programs that are cut off -/

theorem dies_done {a : α} : Dies (.done a) p q ↔ q = p := by
  constructor
  · rintro ⟨⟩
    rfl
  · rintro rfl
    exact .now _ _

theorem dies_call {c : FileCall} {k : c.Answer → FileProgram α} :
    Dies (.call c k) p q ↔
      q = p ∨ Dies (k (Place.answer c p).1) (Place.answer c p).2 q := by
  constructor
  · rintro (_ | h)
    · exact .inl rfl
    · exact .inr h
  · rintro (rfl | h)
    · exact .now _ _
    · exact .later h

/-- The end is one of the moments. -/
theorem dies_end (w : FileProgram α) (p : Place) : Dies w p (w.eval Place.answer p).2 := by
  induction w generalizing p with
  | done a => exact .now _ p
  | call c k ih => exact .later (ih _ _)

/-- A program that is followed by another dies in the one or in the other. -/
theorem dies_bind {w : FileProgram α} {f : α → FileProgram β} :
    Dies (w.bind f) p q ↔
      Dies w p q ∨ Dies (f (w.eval Place.answer p).1) (w.eval Place.answer p).2 q := by
  induction w generalizing p with
  | done a =>
    rw [dies_done]
    refine ⟨.inr, ?_⟩
    rintro (rfl | h)
    · exact .now _ _
    · exact h
  | call c k ih =>
    rw [Program.bind, dies_call, dies_call, ih, or_assoc]
    rfl

/-- Work that is cut off has come to its second part only if the first has succeeded. -/
theorem dies_then {w : Work α} {f : α → Work β} {a : α} {p' : Place}
    (hw : w.eval Place.answer p = (.ok a, p')) :
    Dies (w >>= f : Work β) p q ↔ Dies w p q ∨ Dies (f a) p' q := by
  refine dies_bind.trans ?_
  rw [hw]
  rfl

/-- A single call has been made or it has not. -/
theorem dies_perform {c : FileCall} {r : Except StoreFault c.Result} {p' : Place}
    (hw : (perform c).eval Place.answer p = (r, p')) (h : Dies (perform c) p q) :
    q = p ∨ q = p' := by
  rw [eval_perform] at hw
  obtain ⟨-, rfl⟩ := Prod.mk.inj hw
  refine (dies_call.1 h).imp_right fun hend => ?_
  split at hend <;> exact dies_done.1 hend

theorem dies_orCutLog {w : Work α} {length : Nat} {a : α} {p' : Place}
    (hw : w.eval Place.answer p = (.ok a, p')) (h : Dies (orCutLog w length) p q) : Dies w p q := by
  rcases dies_bind.1 h with h | h
  · exact h
  · rw [hw] at h
    obtain rfl := dies_done.1 h
    have hend := dies_end w p
    rw [hw] at hend
    exact hend

theorem dies_commit {before after : TaskTable} {result : c.Result} {work : Work Unit} :
    Dies (commit before after result work) p q ↔ Dies work p q := by
  refine dies_bind.trans ⟨?_, .inl⟩
  rintro (h | h)
  · exact h
  · have hend : q = (work.eval Place.answer p).2 := by
      split at h <;> exact dies_done.1 h
    rw [hend]
    exact dies_end work p

/-! ## The two files -/

/-- Until the snapshot has its name nothing has changed that is read. -/
theorem dies_snapshot (hp : Writable p) (h : Dies (writeSnapshot t') p q) :
    Unread p q ∨ (writeSnapshot t').eval Place.answer p = (.ok (), q) := by
  obtain ⟨p', q', hwrite, hrename⟩ := eval_draft t' hp.isFolder (hp.noFolder draftName (by simp))
    (hp.noFolder snapshotName (by simp))
  have hmay := mayRun_eval (perform (.write draftName (snapshot t'))) p
  rw [hwrite] at hmay
  have hdraft : AlikeBut [draftName] p p' := alikeBut_perform hmay
  have hunread : Unread p p' :=
    ⟨hdraft.mono (by simp), .inl (hdraft.find?_eq logName (by decide))⟩
  rcases (dies_then hwrite).1 h with h | h
  · rcases dies_perform hwrite h with rfl | rfl
    · exact .inl (.refl _)
    · exact .inl hunread
  · rcases dies_perform hrename h with rfl | rfl
    · exact .inl hunread
    · exact .inr ((eval_then hwrite).trans hrename)

/-- Until the line is written nothing has changed that is read. -/
theorem dies_line {e : LogEntry} (hp : Writable p) (h : Dies (appendToLog e) p q) :
    Unread p q ∨ ∃ length, (appendToLog e).eval Place.answer p = (.ok length, q) := by
  obtain ⟨length, p', q', hopen, hsize, happend⟩ :=
    eval_line e hp.isFolder (hp.noFolder logName (by simp))
  have hcut : (orCutLog (perform (.append logName (logLine e))) length).eval Place.answer p'
      = (.ok (), q') := eval_orCutLog happend
  have hwhole : (appendToLog e).eval Place.answer p = (.ok length, q') :=
    (eval_then hopen).trans ((eval_then hsize).trans (eval_then hcut))
  have hunread : Unread p p' := by
    have hmay := mayRun_eval (perform (.openAtEnd logName)) p
    rw [hopen] at hmay
    obtain ⟨content, hcontent, hlog⟩ := logHolds_open hmay
    exact ⟨(alikeBut_perform hmay).mono (by simp [touched]), .inr ⟨content, hcontent, .inl hlog⟩⟩
  rcases (dies_then hopen).1 h with h | h
  · rcases dies_perform hopen h with rfl | rfl
    · exact .inl (.refl _)
    · exact .inl hunread
  rcases (dies_then hsize).1 h with h | h
  · rcases dies_perform hsize h with rfl | rfl <;> exact .inl hunread
  rcases (dies_then hcut).1 h with h | h
  · rcases dies_perform happend (dies_orCutLog happend h) with rfl | rfl
    · exact .inl hunread
    · exact .inr ⟨length, hwhole⟩
  · obtain rfl := dies_done.1 h
    exact .inr ⟨length, hwhole⟩

/-- A completion that is cut off has written nothing, its line, or everything. -/
theorem dies_completion {stored : LogEntry} {applied : Bool} (hp : Writable p)
    (h : Dies (completionWork stored t' applied) p q) :
    Unread p q ∨
      (applied = true ∧ ∃ length p', (appendToLog stored).eval Place.answer p = (.ok length, p') ∧
        Unread p' q) ∨
      (completionWork stored t' applied).eval Place.answer p = (.ok (), q) := by
  obtain ⟨length, p', happend, hwritable⟩ := hp.evalLine stored
  have hwhole : (completionWork stored t' applied).eval Place.answer p
      = (if applied then orCutLog (writeSnapshot t') length else pure ()).eval Place.answer p' :=
    eval_then happend
  have hrest := (dies_then happend).1 h
  cases applied with
  | false =>
    -- the line is all there is to write
    obtain hline | hend := hrest
    · rcases dies_line hp hline with hunread | ⟨length', heval⟩
      · exact .inl hunread
      · obtain ⟨-, rfl⟩ := Prod.mk.inj (happend.symm.trans heval)
        exact .inr (.inr hwhole)
    · obtain rfl := dies_done.1 hend
      exact .inr (.inr hwhole)
  | true =>
    obtain ⟨q', hsnapshot⟩ := hwritable.evalSnapshot t'
    obtain hline | hend := hrest
    · rcases dies_line hp hline with hunread | ⟨length', heval⟩
      · exact .inl hunread
      · exact .inr (.inl ⟨rfl, length', q, heval, .refl q⟩)
    · rcases dies_snapshot hwritable (dies_orCutLog hsnapshot hend) with hunread | heval
      · exact .inr (.inl ⟨rfl, length, p', happend, hunread⟩)
      · refine .inr (.inr (hwhole.trans ?_))
        rw [if_pos rfl]
        exact eval_orCutLog heval

/-! ## A whole call -/

/-- At the end of a call the files hold what the table then holds. -/
theorem synced_eval {a : c.Answer × TaskTable} (h : Synced t p) (hc : c.Faithful)
    (heval : (answer t c).eval Place.answer p = (a, q)) : Synced (t.answer c).2 q := by
  obtain ⟨q', hanswer⟩ := eval_answer h c
  obtain ⟨-, rfl⟩ := Prod.mk.inj (hanswer.symm.trans heval)
  have hmay := mayRun_eval (answer t c) p
  rw [hanswer] at hmay
  exact synced_answer h hc hmay

/-- What the line of a completion leaves: the rows as they were, and the log as it will be. -/
theorem synced_line {id : TaskId} {completion : Completion} {entry : LogEntry} {length : Nat}
    (h : Synced t p)
    (hline : (appendToLog (t.complete id completion entry).1.2).eval Place.answer p
      = (.ok length, q)) :
    Synced { t with log := (t.answer (.complete id completion entry)).2.log } q := by
  have hmay := mayRun_eval (appendToLog (t.complete id completion entry).1.2) p
  rw [hline] at hmay
  exact synced_written h (written_line rfl hmay) rfl h.faithful

theorem synced_dies_plain (h : Synced t p) (hc : c.Faithful) (heq : answer t c = plainAnswer t c)
    (hd : Dies (answer t c) p q) : Synced t q ∨ Synced (t.answer c).2 q := by
  have heval {a : c.Answer × TaskTable} (heval : (plainAnswer t c).eval Place.answer p = (a, q)) :
      Synced (t.answer c).2 q := synced_eval h hc (heq ▸ heval)
  rw [heq] at hd
  unfold plainAnswer at hd heval
  split at hd
  · obtain rfl := dies_done.1 hd
    exact .inl h
  · next result next hanswer =>
    rw [hanswer] at heval ⊢
    have hwork := dies_commit.1 hd
    split at hwork
    · next hchanges =>
      rcases dies_snapshot h.writable hwork with hunread | hwhole
      · exact .inl (synced_unread h hunread)
      · exact .inr (heval (eval_commit (by rw [if_pos hchanges, hwhole])))
    · obtain rfl := dies_done.1 hwork
      exact .inl h

/-- Wherever a call is cut off, the files hold a table. -/
theorem synced_dies (h : Synced t p) (hc : c.Faithful) (hd : Dies (answer t c) p q) :
    Synced t q ∨ Synced (t.answer c).2 q ∨
      c.IsApplied t ∧ Synced { t with log := (t.answer c).2.log } q := by
  cases c with
  | complete id completion entry =>
    rw [answer_complete] at hd
    rcases dies_completion h.writable (dies_commit.1 hd) with
      hunread | ⟨happlied, length, p', hline, hunread⟩ | hwhole
    · exact .inl (synced_unread h hunread)
    · exact .inr (.inr ⟨⟨id, completion, entry, rfl, happlied⟩,
        synced_unread (synced_line h hline) hunread⟩)
    · exact .inr (.inl (synced_eval h hc (by rw [answer_complete]; exact eval_commit hwhole)))
  | appendLog entry =>
    have hwork := dies_commit.1 hd
    obtain ⟨length, p', happend, -⟩ := h.writable.evalLine entry
    have hend (q : Place) (hline : (appendToLog entry).eval Place.answer p = (.ok length, q)) :
        Synced (t.answer (.appendLog entry)).2 q := synced_eval h hc (eval_commit (eval_then hline))
    rcases (dies_then happend).1 hwork with hline | hdone
    · rcases dies_line h.writable hline with hunread | ⟨length', heval⟩
      · exact .inl (synced_unread h hunread)
      · obtain ⟨⟨⟩, rfl⟩ := Prod.mk.inj (happend.symm.trans heval)
        exact .inr (.inl (hend _ happend))
    · obtain rfl := dies_done.1 hdone
      exact .inr (.inl (hend _ happend))
  | _ => exact (synced_dies_plain h hc rfl hd).imp_right .inl

/-- The files of a store hold its table, whatever has failed and died before. -/
theorem synced_of_reachable (hr : Reachable t p) : Synced t p := by
  have hopened {t t' : TaskTable} {q : Place} (h : Synced t q)
      (hopens : openTable.eval Place.answer q = (.ok t', q)) : Synced t' q := by
    obtain ⟨t₁, hopened, -, hsynced⟩ := opens h
    obtain ⟨⟨⟩, -⟩ := Prod.mk.inj (hopened.symm.trans hopens)
    exact hsynced
  induction hr with
  | init => exact synced_empty
  | answered hr hc hruns ih => exact synced_answer ih hc hruns
  | died hr hc hdies hopens ih =>
    rcases synced_dies ih hc hdies with h | h | ⟨-, h⟩
    · exact hopened h hopens
    · exact hopened h hopens
    · exact hopened h hopens

/-! ## Between the two files -/

/-- A process may die after the line of a completion and before the snapshot. -/
theorem dies_between (h : Synced t p) (happlied : c.IsApplied t) :
    ∃ q, Dies (answer t c) p q ∧ Synced { t with log := (t.answer c).2.log } q := by
  obtain ⟨id, completion, entry, rfl, -⟩ := happlied
  obtain ⟨length, p', happend, -⟩ := h.writable.evalLine (t.complete id completion entry).1.2
  refine ⟨p', ?_, synced_line h happend⟩
  rw [answer_complete]
  have hend := dies_end (appendToLog (t.complete id completion entry).1.2) p
  rw [happend] at hend
  exact dies_commit.2 ((dies_then happend).2 (.inl hend))

/-- A row still running whose entry is there is a state from neither before nor after. -/
theorem not_alike_between (happlied : c.IsApplied t) (hrows : t'.rows.Perm t.rows)
    (hlog : t'.log = (t.answer c).2.log) : ¬ t.Alike t' ∧ ¬ (t.answer c).2.Alike t' := by
  obtain ⟨id, completion, entry, rfl, happlied⟩ := happlied
  constructor
  · intro hbefore
    have hlength := congrArg List.length (hbefore.log.symm.trans hlog)
    rw [t.log_answer] at hlength
    simp [TaskTable.entries] at hlength
  · intro hafter
    rw [TaskTable.complete_applied, Option.any_eq_true] at happlied
    obtain ⟨row, hrow, haccepts⟩ := happlied
    have hfound : t'.find? id = some row := by
      have hbefore : ({ t with log := t'.log } : TaskTable).Alike t' := ⟨hrows, rfl⟩
      exact (hbefore.find?_eq id).trans hrow
    have hended : (t.answer (.complete id completion entry)).2.find? id
        = some ((RowStep.complete completion).change row) := by
      have hstep := TaskTable.find?_stepAt_self t id (.complete completion)
      rw [hrow] at hstep
      refine hstep.trans ?_
      rw [Option.map_some, RowStep.after, if_pos haccepts]
    rw [hafter.find?_eq id, hended] at hfound
    have hrunning := (RowStep.complete_accepts.1 haccepts).1
    refine RowStep.complete_ends haccepts ?_
    rw [Option.some.inj hfound, hrunning]

/--
A store whose process dies inside a call is opened again with the rows and the log from before the
call, or with those from after it, or, where the call was a completion that is applied, with the
rows from before and the log from after. That third state can come about in every such completion,
and in no other call.
-/
theorem reopened_after_death (hr : Reachable t p) (hc : c.Faithful) :
    (∀ q, Dies (answer t c) p q → ∃ t', openTable.eval Place.answer q = (.ok t', q) ∧
      (t.Alike t' ∨ (t.answer c).2.Alike t' ∨
        c.IsApplied t ∧ t'.rows.Perm t.rows ∧ t'.log = (t.answer c).2.log)) ∧
    ((∀ q, Dies (answer t c) p q → ∃ t', openTable.eval Place.answer q = (.ok t', q) ∧
      (t.Alike t' ∨ (t.answer c).2.Alike t')) ↔ ¬ c.IsApplied t) := by
  have hsynced := synced_of_reachable hr
  have hthree : ∀ q, Dies (answer t c) p q → ∃ t', openTable.eval Place.answer q = (.ok t', q) ∧
      (t.Alike t' ∨ (t.answer c).2.Alike t' ∨
        c.IsApplied t ∧ t'.rows.Perm t.rows ∧ t'.log = (t.answer c).2.log) := by
    intro q hd
    rcases synced_dies hsynced hc hd with h | h | ⟨happlied, h⟩
    · obtain ⟨t', hopened, halike, -⟩ := opens h
      exact ⟨t', hopened, .inl halike⟩
    · obtain ⟨t', hopened, halike, -⟩ := opens h
      exact ⟨t', hopened, .inr (.inl halike)⟩
    · obtain ⟨t', hopened, halike, -⟩ := opens h
      exact ⟨t', hopened, .inr (.inr ⟨happlied, halike.rows, halike.log⟩)⟩
  refine ⟨hthree, fun hall happlied => ?_, fun hplain q hd => ?_⟩
  · obtain ⟨q, hd, hbetween⟩ := dies_between hsynced happlied
    obtain ⟨t', hopened, halike, -⟩ := opens hbetween
    obtain ⟨t'', hopened', hone⟩ := hall q hd
    obtain ⟨⟨⟩, -⟩ := Prod.mk.inj (hopened.symm.trans hopened')
    obtain ⟨hbefore, hafter⟩ := not_alike_between happlied halike.rows halike.log
    exact hone.elim hbefore hafter
  · obtain ⟨t', hopened, hone⟩ := hthree q hd
    exact ⟨t', hopened, hone.imp_right fun h => h.resolve_right fun ⟨h, _⟩ => hplain h⟩

theorem reachable_exchanges (hr : Reachable t p) (calls : List StoreCall)
    (hcalls : ∀ c ∈ calls, c.Faithful) : ∃ q, Reachable (t.exchanges calls).2 q := by
  induction calls generalizing t p with
  | nil => exact ⟨p, hr⟩
  | cons c more ih =>
    obtain ⟨hc, hmore⟩ := List.forall_mem_cons.1 hcalls
    obtain ⟨p', hanswer⟩ := eval_answer (synced_of_reachable hr) c
    have hmay := mayRun_eval (answer t c) p
    rw [hanswer] at hmay
    exact ih (.answered hr hc hmay) hmore

/-- A task whose second attempt is under way. -/
def attempting : List StoreCall := [.insert jitteryRow, .claim (.ofNat 1) 4]

theorem faithful_attempting : ∀ c ∈ attempting, c.Faithful :=
  List.forall_mem_cons.2 ⟨faithful_jitteryRow, List.forall_mem_singleton.2 trivial⟩

/-- The result of that attempt. -/
def attempted : StoreCall :=
  .complete (.ofNat 1) ⟨2, .succeeded, none, 0, 5⟩ ⟨.ofNat 1, 5, .succeeded, 2, none⟩

theorem reopened_after_death_attempted :
    let t := (TaskTable.empty.exchanges attempting).2
    attempted.Faithful ∧ attempted.IsApplied t ∧ ∃ p, Reachable t p ∧
      ∀ q, Dies (answer t attempted) p q → ∃ t', openTable.eval Place.answer q = (.ok t', q) ∧
        (t.Alike t' ∨ (t.answer attempted).2.Alike t' ∨
          attempted.IsApplied t ∧ t'.rows.Perm t.rows ∧ t'.log = (t.answer attempted).2.log) := by
  intro t
  obtain ⟨p, hr⟩ := reachable_exchanges .init attempting faithful_attempting
  exact ⟨trivial, ⟨_, _, _, rfl, rfl⟩, p, hr, (reopened_after_death (c := attempted) hr trivial).1⟩

/--
The process dies after the line of a completion: opened again, the store has an entry that says the
task has succeeded, and a row that is still running.
-/
theorem completion_half_done :
    let t := (TaskTable.empty.exchanges attempting).2
    ∃ p q t', Reachable t p ∧ Dies (answer t attempted) p q ∧
      openTable.eval Place.answer q = (.ok t', q) ∧
      (t'.find? (.ofNat 1)).map Row.state = some .running ∧
      (t'.log.map LogEntry.kind) = [.succeeded] ∧
      ¬ t.Alike t' ∧ ¬ (t.answer attempted).2.Alike t' := by
  intro t
  obtain ⟨p, hr⟩ := reachable_exchanges .init attempting faithful_attempting
  have happlied : attempted.IsApplied t := ⟨_, _, _, rfl, rfl⟩
  obtain ⟨q, hd, hbetween⟩ := dies_between (synced_of_reachable hr) happlied
  obtain ⟨t', hopened, halike, -⟩ := opens hbetween
  refine ⟨p, q, t', hr, hd, hopened, ?_, ?_, not_alike_between happlied halike.rows halike.log⟩
  · rw [halike.find?_eq]
    rfl
  · rw [halike.log]
    rfl

end FileStore

end BackgroundTasks
