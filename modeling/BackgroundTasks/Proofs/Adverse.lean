import BackgroundTasks.Proofs.Ensures
import BackgroundTasks.Proofs.Files.Refinement

/-!
# Adverse surroundings

An operation runs alone, and everything else is against it. The platform may answer what it likes
and do what it likes. A store in files may fail at any of the calls that are named, which is to say
that any call to the file system may then fail, at any time and half-way; a call that fails has left
everything as it was.

What can be told of an operation then is said by one rule for each of its calls. All of them but the
calls to the store and to the platform are answered as ever.
-/

namespace BackgroundTasks

open FileStore (MayRun plainAnswer reopened)

/-! ## Calls without a log line -/

/-- A call that adds nothing to the log. -/
def StoreCall.Plain : StoreCall → Prop
  | complete .. | appendLog _ => False
  | _ => True

namespace TaskTable

variable {t t' : TaskTable} {c : StoreCall}

theorem entries_plain (h : c.Plain) (t : TaskTable) : t.entries c = [] := by
  cases c with
  | complete | appendLog => exact h.elim
  | _ => rfl

/-- A call that adds nothing to the log, and reports no change, has made none. -/
theorem plain_unchanged {result : c.Result} (hc : c.Plain) (h : t.answer c = (.ok result, t'))
    (hsame : c.changesRows result = false) : t' = t := by
  have hrows := rows_unchanged h hsame
  have hlog := t.log_answer c
  rw [h, entries_plain hc, List.append_nil] at hlog
  cases t
  cases t'
  simp_all

/-- The table has nothing to do with the files. -/
theorem answer_ne_storage (t : TaskTable) (c : StoreCall) :
    (t.answer c).1 ≠ .error (.store .storage) := by
  cases c with
  | insert row =>
    rw [answer]
    split <;> intro h <;> cases h
  | setPlatformId id handle =>
    rw [answer]
    split <;> intro h <;> cases h
  | _ =>
    intro h
    cases h

end TaskTable

namespace FileStore

variable {t t' : TaskTable} {p q : Place} {c : StoreCall}

theorem answer_plain (h : c.Plain) (t : TaskTable) : answer t c = plainAnswer t c := by
  cases c with
  | complete | appendLog => exact h.elim
  | _ => rfl

theorem error_writeSnapshot {fault : StoreFault} (h : MayRun (writeSnapshot t) p (.error fault) q) :
    fault = .storage := by
  obtain ⟨_, _, -, hrename⟩ | ⟨_, ⟨⟩, hwrite⟩ := mayRun_then.1 h
  · exact (mayRun_perform_error.1 hrename).1
  · exact (mayRun_perform_error.1 hwrite).1

/-- A call that fails without the table's having anything against it had something to write. -/
theorem mayRun_plain_error {failure : Failure} (hc : c.Plain)
    (h : MayRun (answer t c) p (.error failure, t') q) :
    (t.answer c).1 = .error failure
      ∨ failure = .store .storage ∧ ∃ a, (t.answer c).1 = .ok a ∧ c.changesRows a = true := by
  rw [answer_plain hc, plainAnswer] at h
  rcases hanswer : t.answer c with ⟨refusal | result, next⟩
  · rw [hanswer] at h
    obtain ⟨⟨⟩, -⟩ := mayRun_done.1 h
    exact .inl rfl
  · rw [hanswer] at h
    obtain ⟨fault | _, p', hwork, hend⟩ := mayRun_bind.1 h
    · obtain ⟨⟨⟩, -⟩ := mayRun_done.1 hend
      split at hwork
      · next hchanges =>
        rw [error_writeSnapshot hwork]
        exact .inr ⟨rfl, result, rfl, hchanges⟩
      · cases (mayRun_pure.1 hwork).1
    · cases (mayRun_done.1 hend).1

/-- A call that changes no row writes nothing. -/
theorem mayRun_plain_ok {result : c.Result} (hc : c.Plain)
    (h : MayRun (answer t c) p (.ok result, t') q) (hsame : c.changesRows result = false) :
    q = p := by
  obtain ⟨hanswer, -⟩ := written_ok h
  rw [answer_plain hc, plainAnswer, hanswer] at h
  obtain ⟨-, -, hwork⟩ := commit_ok h
  rw [if_neg (by rw [hsame]; exact Bool.false_ne_true)] at hwork
  exact (mayRun_pure.1 hwork).2

end FileStore

/-! ## Adverse surroundings -/

namespace System

/-- What a call to the store may return. In files it may fail, if it is one that may. -/
def StoreMay (fails : StoreCall → Prop) (y : System) (c : StoreCall) (r : c.Answer)
    (y' : System) : Prop :=
  match y.store with
  | .memory t => r = (t.answer c).1 ∧ y' = { y with store := .memory (t.answer c).2 }
  | .files t => ∃ t' p, MayRun (FileStore.answer t c) y.place (r, t') p
      ∧ (r = .error (.store .storage) → fails c) ∧ y' = { y with store := .files t', place := p }

/-- The platform may do as it likes, and the files may fail. -/
def Adverse (fails : StoreCall → Prop) : Setting
  | .store c, y, r, y' => y.StoreMay fails c r y'
  | .readStatus id, y, r, y' => ∃ found : Except Failure (Option Row),
      y.StoreMay fails (.get id) found y' ∧ r = found.map (Option.map Row.state)
  | .arm .., y, _, y' | .disarm _, y, _, y' | .isArmed _, y, _, y' =>
      ∃ platform, y' = { y with platform }
  | c, y, r, y' => y.answer c = (some r, y')

/-- A store in files is not to fail at a call, though its folder cannot be written to. -/
def CannotStore (fails : StoreCall → Prop) (c : Call) (y : System) : Prop :=
  ∃ call t, c = .store call ∧ y.store = .files t ∧ ¬ fails call ∧ ¬ FileStore.Writable y.place

/-- Nothing is left of a call: no row, no entry, no wake-up, no event, no state shown. -/
structure Untouched (y y' : System) : Prop where
  table : y'.table = y.table
  /-- What would be read if a store were opened in the folder. -/
  files : reopened y'.place = reopened y.place
  platform : y'.platform = y.platform
  sink : y'.sink = y.sink
  board : y'.board = y.board

variable {fails : StoreCall → Prop} {y y' : System} {c : StoreCall} {r : c.Answer}

theorem Untouched.refl (y : System) : y.Untouched y := ⟨rfl, rfl, rfl, rfl, rfl⟩

theorem storeMay_or_cannotStore (y : System) (c : StoreCall) :
    (∃ r y', y.StoreMay fails c r y') ∨ y.CannotStore fails (.store c) := by
  unfold StoreMay CannotStore
  split
  · exact .inl ⟨_, _, rfl, rfl⟩
  · next t hstore =>
    by_cases hfails : fails c
    · exact .inl ⟨_, _, _, _, FileStore.mayRun_eval (FileStore.answer t c) y.place,
        fun _ => hfails, rfl⟩
    by_cases hplace : FileStore.Writable y.place
    · obtain ⟨q, hq⟩ := FileStore.eval_writable hplace t c
      have hrun := FileStore.mayRun_eval (FileStore.answer t c) y.place
      rw [hq] at hrun
      exact .inl ⟨_, _, _, q, hrun, fun h => absurd h (t.answer_ne_storage c), rfl⟩
    · exact .inr ⟨c, t, rfl, hstore, hfails, hplace⟩

/-- A row can always be read. -/
theorem storeMay_get {id : TaskId} {found : Except Failure (Option Row)} :
    y.StoreMay fails (.get id) found y' ↔ found = .ok (y.table.find? id) ∧ y' = y := by
  unfold StoreMay table
  split
  · next t hstore =>
    have hsame : ({ y with store := .memory t } : System) = y := by rw [← hstore]
    show _ = _ ∧ y' = ({ y with store := .memory t } : System) ↔ _
    rw [hsame, hstore]
    exact Iff.rfl
  · next t hstore =>
    have hsame : ({ y with store := .files t } : System) = y := by rw [← hstore]
    rw [hstore]
    constructor
    · rintro ⟨t', p, hrun, -, rfl⟩
      obtain ⟨⟨⟩, rfl⟩ := FileStore.mayRun_done.1 hrun
      exact ⟨rfl, hsame⟩
    · rintro ⟨rfl, rfl⟩
      exact ⟨t, y'.place, FileStore.mayRun_done.2 ⟨rfl, rfl⟩, nofun, hsame.symm⟩

/-- What a store may make of a call that adds nothing to the log. -/
inductive StoreOutcome (fails : StoreCall → Prop) (y : System) (c : StoreCall) :
    c.Answer → System → Prop
  | done {a : c.Result} {y' : System} (answer : y.table.answer c = (.ok a, y'.table))
    (untouched : c.changesRows a = false → y.Untouched y') : StoreOutcome fails y c (.ok a) y'
  | refused {failure : Failure} {y' : System} (answer : (y.table.answer c).1 = .error failure)
    (untouched : y.Untouched y') : StoreOutcome fails y c (.error failure) y'
  | failed {a : c.Result} {t : TaskTable} {y' : System} (answer : (y.table.answer c).1 = .ok a)
    (changes : c.changesRows a = true) (files : y.store = .files t) (mayFail : fails c)
    (untouched : y.Untouched y') : StoreOutcome fails y c (.error (.store .storage)) y'

theorem storeOutcome (hc : c.Plain) (h : y.StoreMay fails c r y') :
    y.StoreOutcome fails c r y' := by
  unfold StoreMay at h
  split at h
  · next t hstore =>
    obtain ⟨rfl, rfl⟩ := h
    have htable : y.table = t := congrArg Store.table hstore
    subst htable
    cases hr : (y.table.answer c).1 with
    | ok a =>
      have hanswer : y.table.answer c = (.ok a, (y.table.answer c).2) := Prod.ext hr rfl
      exact .done hanswer fun hsame =>
        ⟨TaskTable.plain_unchanged hc hanswer hsame, rfl, rfl, rfl, rfl⟩
    | error failure =>
      exact .refused hr ⟨TaskTable.answer_error (Prod.ext hr rfl), rfl, rfl, rfl, rfl⟩
  · next t hstore =>
    obtain ⟨t', p, hrun, hfails, rfl⟩ := h
    have htable : y.table = t := congrArg Store.table hstore
    subst htable
    cases r with
    | ok a =>
      obtain ⟨hanswer, -⟩ := FileStore.written_ok hrun
      refine .done hanswer fun hsame =>
        ⟨TaskTable.plain_unchanged hc hanswer hsame, ?_, rfl, rfl, rfl⟩
      exact congrArg reopened (FileStore.mayRun_plain_ok hc hrun hsame)
    | error failure =>
      obtain ⟨rfl, hfiles⟩ := FileStore.failed_call_leaves_no_trace hrun
      have huntouched : y.Untouched { y with store := .files y.table, place := p } :=
        ⟨rfl, hfiles, rfl, rfl, rfl⟩
      rcases FileStore.mayRun_plain_error hc hrun with hrefused | ⟨rfl, a, ha, hchanges⟩
      · exact .refused hrefused huntouched
      · exact .failed ha hchanges hstore (hfails rfl) huntouched

end System

/-! ## Rules for calls -/

/-- An operation ensures something in adverse surroundings. -/
abbrev Operation.Endures {α : Type} (fails : StoreCall → Prop) (op : Operation α) (y : System)
    (ok : α → System → Prop) (failed : Failure → System → Prop) : Prop :=
  op.Ensures (System.Adverse fails) (System.CannotStore fails) y ok failed

namespace Operation

variable {α : Type} {fails : StoreCall → Prop} {y : System} {failed : Failure → System → Prop}
  {id : TaskId}

/-- A call that is answered in adverse surroundings as in all others. -/
theorem endures_ask {c : Call} {r : c.Answer} {y' : System} {ok : c.Answer → System → Prop}
    (hadverse : ∀ r y', System.Adverse fails c y r y' ↔ y.answer c = (some r, y'))
    (hanswer : y.answer c = (some r, y')) (h : ok r y') : (ask c).Endures fails y ok failed :=
  Program.ensures_answered hadverse hanswer h

theorem endures_now {ok : UInt64 → System → Prop} (h : ok y.now y) :
    now.Endures fails y ok failed :=
  endures_ask (c := .now) (fun _ _ => Iff.rfl) rfl h

theorem endures_notify {kind : EventKind} {attempt : Option UInt32} {detail : Option String}
    {ok : Unit → System → Prop} (h : ∀ sink, ok () { y with sink }) :
    (notify kind id attempt detail).Endures fails y ok failed := by
  unfold notify
  rw [Endures, ensures_bind]
  exact endures_now (endures_ask (c := .emit _) (fun _ _ => Iff.rfl) rfl (h _))

theorem endures_refresh {ok : Unit → System → Prop} (h : ∀ board, ok () { y with board }) :
    (refresh id).Endures fails y ok failed := by
  refine ⟨.inl ⟨_, y, .ok (y.table.find? id), System.storeMay_get.2 ⟨rfl, rfl⟩, rfl⟩, ?_⟩
  rintro _ y' ⟨found, hstore, rfl⟩
  obtain ⟨rfl, rfl⟩ := System.storeMay_get.1 hstore
  cases y'.table.find? id with
  | none => exact h y'.board
  | some row =>
    exact endures_ask (c := .publish id row.state) (fun _ _ => Iff.rfl) rfl (h _)

theorem endures_publishStatus {ok : Unit → System → Prop} (h : ∀ board, ok () { y with board }) :
    (publishStatus id).Endures fails y ok failed := by
  unfold publishStatus
  rw [Endures, ensures_ignoringFailure]
  exact endures_refresh h

theorem endures_arm {delay : Span} {conditions : Conditions} {ok : Option String → System → Prop}
    (hok : ∀ handle platform, ok handle { y with platform })
    (hfailed : ∀ failure platform, failed failure { y with platform }) :
    (arm id delay conditions).Endures fails y ok failed := by
  refine ⟨.inl ⟨.ok none, y, y.platform, rfl⟩, ?_⟩
  rintro r _ ⟨platform, rfl⟩
  cases r with
  | ok handle => exact hok handle platform
  | error failure => exact hfailed failure platform

theorem endures_disarm {ok : Unit → System → Prop} (hok : ∀ platform, ok () { y with platform })
    (hfailed : ∀ failure platform, failed failure { y with platform }) :
    (disarm id).Endures fails y ok failed := by
  refine ⟨.inl ⟨.ok (), y, y.platform, rfl⟩, ?_⟩
  rintro r _ ⟨platform, rfl⟩
  cases r with
  | ok _ => exact hok platform
  | error failure => exact hfailed failure platform

theorem endures_get {ok : Option Row → System → Prop} (h : ok (y.table.find? id) y) :
    (store (.get id)).Endures fails y ok failed := by
  refine ⟨.inl ⟨_, y, System.storeMay_get.2 ⟨rfl, rfl⟩⟩, fun r y' hr => ?_⟩
  obtain ⟨rfl, rfl⟩ := System.storeMay_get.1 hr
  exact h

/-- A transaction that the table has nothing against is done, or it has left nothing behind. -/
theorem endures_store {c : StoreCall} {a : c.Result} {t : TaskTable} {ok : c.Result → System → Prop}
    (hc : c.Plain) (hanswer : y.table.answer c = (.ok a, t))
    (hdone : ∀ y', y'.table = t → (c.changesRows a = false → y.Untouched y') → ok a y')
    (hfailed : ∀ files y', c.changesRows a = true → y.store = .files files → fails c →
      y.Untouched y' → failed (.store .storage) y') :
    (store c).Endures fails y ok failed := by
  refine ⟨System.storeMay_or_cannotStore y c, fun r y' hr => ?_⟩
  cases System.storeOutcome hc hr with
  | done h huntouched =>
    cases hanswer.symm.trans h
    exact hdone y' rfl huntouched
  | refused h huntouched => cases (congrArg Prod.fst hanswer).symm.trans h
  | failed h hchanges hfiles hfails huntouched =>
    cases (congrArg Prod.fst hanswer).symm.trans h
    exact hfailed _ y' hchanges hfiles hfails huntouched

theorem endures_store_refused {c : StoreCall} {failure : Failure} {t : TaskTable}
    {ok : c.Result → System → Prop} (hc : c.Plain)
    (hanswer : y.table.answer c = (.error failure, t))
    (h : ∀ y', y.Untouched y' → failed failure y') : (store c).Endures fails y ok failed := by
  have hrefused := congrArg Prod.fst hanswer
  refine ⟨System.storeMay_or_cannotStore y c, fun r y' hr => ?_⟩
  cases System.storeOutcome hc hr with
  | done ha => cases hrefused.symm.trans (congrArg Prod.fst ha)
  | refused ha huntouched =>
    cases hrefused.symm.trans ha
    exact h y' huntouched
  | failed ha => cases hrefused.symm.trans ha

end Operation

end BackgroundTasks
