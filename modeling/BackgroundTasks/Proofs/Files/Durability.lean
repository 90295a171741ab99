import BackgroundTasks.Proofs.Files.Refinement

/-!
# The store in files is the table, and lasts

Calls that come one after another are answered by the store in files as by the table. After any
number of them the store may be dropped: opened anew, it has the same rows and the same log, and so
answers every question as the dropped store would have.
-/

namespace BackgroundTasks

/-- A call and what it returned. -/
abbrev StoreCall.Exchange : Type := (c : StoreCall) × c.Answer

/-- What a table returns to calls that come one after another, and the table it becomes. -/
def TaskTable.exchanges (t : TaskTable) : List StoreCall → List StoreCall.Exchange × TaskTable
  | [] => ([], t)
  | c :: more =>
    let (a, t) := t.answer c
    let (rest, t) := t.exchanges more
    (⟨c, a⟩ :: rest, t)

namespace FileStore

variable {t t' : TaskTable} {p q : Place}

/-- What the store in files returns to calls that come one after another. -/
def exchanges (t : TaskTable) :
    List StoreCall → FileProgram (List StoreCall.Exchange × TaskTable)
  | [] => pure ([], t)
  | c :: more => do
    let (a, t) ← answer t c
    let (rest, t) ← exchanges t more
    return (⟨c, a⟩ :: rest, t)

/-! ## Opening a store -/

theorem eval_openTable_folder (hp : p.IsFolder) :
    openTable.eval Place.answer p = ((do
      let rows ← loaded [] rowsOf? (p.find? [snapshotName])
      let log ← loaded [] entriesOf? (p.find? [logName])
      return .ofParts rows log), p) := by
  obtain ⟨entries, rfl⟩ := hp
  rw [eval_openTable rfl, eval_load]

/-- The rows that are read are those of the table. -/
theorem loaded_snapshot (h : SnapshotHolds p t) (hfaithful : t.Faithful) :
    loaded [] rowsOf? (p.find? [snapshotName]) = .ok t.list := by
  rcases h with hfile | ⟨hfile, hnone⟩
  · rw [hfile, loaded, rowsOf?_snapshot hfaithful]
    rfl
  · -- a store that has never changed a row has no snapshot, and no rows either
    rw [hfile, TaskTable.list, hnone, List.mergeSort_nil]
    rfl

/-- The rows and the log that are read are those of the table, and nothing else is. -/
theorem opens (h : Synced t p) :
    ∃ t', openTable.eval Place.answer p = (.ok t', p) ∧ t.Alike t' ∧ Synced t' p := by
  have hopened : openTable.eval Place.answer p = (.ok (.ofParts t.list t.log), p) := by
    rw [eval_openTable_folder h.isFolder, loaded_snapshot h.snapshot h.faithful, loaded_log h.log,
      entriesOf?_log]
    rfl
  have halike := t.alike_ofParts
  refine ⟨_, hopened, halike, h.isFolder, h.draft, ?_, h.log, ?_⟩
  · rw [SnapshotHolds, snapshot_alike halike]
    refine h.snapshot.imp_right fun hmissing => ⟨hmissing.1, ?_⟩
    have hnone := hmissing.2
    have hperm := halike.rows
    rw [hnone] at hperm
    exact hperm.eq_nil
  · exact fun r hr => h.faithful r (halike.rows.subset hr)

theorem synced_empty : Synced .empty (.folder []) := by
  have hnothing (name : String) : (Place.folder []).find? [name] = none := rfl
  refine ⟨⟨[], rfl⟩, ?_, .inr ⟨hnothing _, rfl⟩, .inr ⟨hnothing _, rfl⟩, fun _ hr => nomatch hr⟩
  rw [hnothing]
  nofun

/-! ## Calls one after another -/

theorem eval_exchanges_cons {c : StoreCall} {more : List StoreCall} {p' : Place}
    (hanswer : (answer t c).eval Place.answer p = (t.answer c, p'))
    (hrest : (exchanges (t.answer c).2 more).eval Place.answer p'
      = ((t.answer c).2.exchanges more, q)) :
    (exchanges t (c :: more)).eval Place.answer p = (t.exchanges (c :: more), q) := by
  rw [TaskTable.exchanges]
  generalize t.answer c = a at hanswer hrest ⊢
  refine (Program.eval_bind _ (answer t c) _ p).trans ?_
  rw [hanswer]
  refine (Program.eval_bind _ (exchanges a.2 more) _ p').trans ?_
  rw [hrest]
  rfl

theorem synced_exchanges {calls : List StoreCall} (h : Synced t p)
    (hcalls : ∀ c ∈ calls, c.Faithful) :
    ∃ q, (exchanges t calls).eval Place.answer p = (t.exchanges calls, q) ∧
      Synced (t.exchanges calls).2 q := by
  induction calls generalizing t p with
  | nil => exact ⟨p, rfl, h⟩
  | cons c more ih =>
    obtain ⟨hc, hmore⟩ := List.forall_mem_cons.1 hcalls
    obtain ⟨p', hanswer⟩ := eval_answer h c
    have hmay := mayRun_eval (answer t c) p
    rw [hanswer] at hmay
    obtain ⟨q, hrest, hsynced⟩ := ih (synced_answer h hc hmay) hmore
    exact ⟨q, eval_exchanges_cons hanswer hrest, hsynced⟩

/--
A store that is opened in an empty folder returns to any calls what a table without rows returns.
When it is opened anew after them, its rows and its log are those of the store that was dropped, and
it answers every question as that one would.
-/
theorem files_refine_table {calls : List StoreCall} (hcalls : ∀ c ∈ calls, c.Faithful) :
    ∃ t₀ p₀, openTable.eval Place.answer (.folder []) = (.ok t₀, p₀) ∧
    ∃ answers t p, (exchanges t₀ calls).eval Place.answer p₀ = ((answers, t), p) ∧
      answers = (TaskTable.empty.exchanges calls).1 ∧
    ∃ t', openTable.eval Place.answer p = (.ok t', p) ∧
      t'.rows.Perm t.rows ∧ t'.log = t.log ∧
      ∀ c : StoreCall, c.isQuestion = true →
        ((answer t' c).eval Place.answer p).1.1 = ((answer t c).eval Place.answer p).1.1 := by
  refine ⟨.empty, .folder [], rfl, ?_⟩
  obtain ⟨p, hexchanges, hsynced⟩ := synced_exchanges synced_empty hcalls
  obtain ⟨t', hopened, halike, hsynced'⟩ := opens hsynced
  refine ⟨_, _, p, hexchanges, rfl, t', hopened, halike.rows, halike.log, fun c hc => ?_⟩
  obtain ⟨_, hdropped⟩ := eval_answer hsynced c
  obtain ⟨_, hanew⟩ := eval_answer hsynced' c
  rw [hdropped, hanew]
  exact halike.answer_eq hc

/-- A task whose floats are neither absent nor whole. -/
def jitteryRow : Row :=
  { runningRow with
    state := .enqueued
    spec := { runningRow.spec with backoffMultiplier := some 2.5, backoffJitter := 0.1 } }

theorem faithful_jitteryRow : jitteryRow.spec.Faithful where
  multiplier f hf := by
    obtain rfl : 2.5 = f := Option.some.inj hf
    unfold Json.Returns
    decide +kernel
  jitter := by
    unfold Json.Returns
    decide +kernel

/-- A task is run once and its result comes twice; the second time it is only logged. -/
theorem files_refine_table_twice :
    let entry : LogEntry := ⟨.ofNat 1, 5, .succeeded, 2, some "two\nlines"⟩
    let result : StoreCall := .complete (.ofNat 1) ⟨2, .succeeded, none, 0, 5⟩ entry
    let calls : List StoreCall := [.insert jitteryRow, .claim (.ofNat 1) 4, result, result]
    (∀ c ∈ calls, c.Faithful) ∧
    ∃ t p t', (exchanges .empty calls).eval Place.answer (.folder [])
        = (((TaskTable.empty.exchanges calls).1, t), p) ∧
      openTable.eval Place.answer p = (.ok t', p) ∧ t'.rows.Perm t.rows ∧ t'.log = t.log := by
  intro entry result calls
  have hcalls : ∀ c ∈ calls, c.Faithful := by
    intro c hc
    rcases List.mem_cons.1 hc with rfl | hc
    · exact faithful_jitteryRow
    · simp only [List.mem_cons, List.not_mem_nil, or_false] at hc
      rcases hc with rfl | rfl | rfl <;> exact trivial
  obtain ⟨_, _, hopen, answers, t, p, h, rfl, t', hopened, hrows, hlog, -⟩ :=
    files_refine_table hcalls
  have hempty : openTable.eval Place.answer (.folder []) = (.ok .empty, .folder []) := rfl
  rw [hempty] at hopen
  cases hopen
  exact ⟨hcalls, t, p, t', h, hopened, hrows, hlog⟩

end FileStore

end BackgroundTasks
