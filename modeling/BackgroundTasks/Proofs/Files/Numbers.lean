import BackgroundTasks.Proofs.Files.Durability
import BackgroundTasks.Proofs.Numbers

/-!
# The numbers of claims across processes

A store in files is dropped and opened anew, and the number of a claim that it has returned must not
be given away again. What the next process reads are the rows of a snapshot. They need not be the
rows that were written, since a float may come back as another one; but the ids and the numbers of
attempts are whole numbers and texts, and come back as they were.

A process may end anywhere in a call, with some of its calls to the file system having failed. The
snapshot it leaves is then the one that it found or the one that the call was to leave, and in
neither of them a number is smaller than before.
-/

namespace BackgroundTasks

/-! ## What is read of a row -/

/-- Whatever has to be set aside, the fields that are found are those of the record. -/
theorem Json.objectFields?_of_merged {depth : Nat} {own inner : List String} {v : Json}
    {f : Json.Fields} (h : Json.mergedFields? depth own inner v = some f) :
    Json.objectFields? (own ++ inner) v = some f := by
  unfold Json.mergedFields? at h
  rw [Option.bind_eq_bind, Option.bind_eq_some_iff] at h
  obtain ⟨g, hg, hall⟩ := h
  split at hall
  · rw [hg, Option.some.inj hall]
  · cases hall

/-- A task and the number of its latest claim. -/
def Row.count (r : Row) : TaskId × UInt32 := (r.id, r.attempts)

/-- Whatever becomes of its floats, a row that can be read has its id and its number. -/
theorem Row.count_ofJson? {depth : Nat} {r r' : Row} (h : Row.ofJson? depth r.toJson = some r') :
    r'.count = r.count := by
  obtain ⟨f, hf, hold, -⟩ :=
    Json.objectFields?_record (Row.names ++ (Spec.names ++ Conditions.names)) r.names_members
  have hid := hold.required (by simp [members] : ("id", _) ∈ r.members) r.id.ofJson?_toJson
  have hattempts := hold.required (by simp [members] : ("run_attempt_count", _) ∈ r.members)
    (Json.counter?_counter r.attempts)
  unfold ofJson? at h
  simp only [Option.bind_eq_bind, Option.bind_eq_some_iff, Option.some.injEq] at h
  obtain ⟨f', hf', id, hid', state, -, spec, -, next, -, attempts, hattempts', retries, -,
    handle, -, created, -, updated, -, rfl⟩ := h
  obtain rfl := Option.some.inj (hf.symm.trans (Json.objectFields?_of_merged hf'))
  obtain rfl := Option.some.inj (hid.symm.trans hid')
  obtain rfl := Option.some.inj (hattempts.symm.trans hattempts')
  rfl

namespace TaskTable

theorem number?_eq_lookup (t : TaskTable) (id : TaskId) :
    t.number? id = (t.rows.map Row.count).lookup id := by
  have byList (rows : List Row) :
      (rows.find? fun r => r.id == id).map Row.attempts = (rows.map Row.count).lookup id := by
    induction rows with
    | nil => rfl
    | cons r rest ih =>
      rw [List.map_cons, Row.count, List.lookup_cons]
      by_cases hid : r.id = id
      · rw [List.find?_cons_of_pos (by simpa using hid), hid, beq_self_eq_true]
        rfl
      · rw [List.find?_cons_of_neg (by simpa using hid), beq_false_of_ne (Ne.symm hid), ih]
  exact byList t.rows

/-- Rows with the ids and the numbers of a table make a table that has its numbers. -/
theorem number?_ofParts {t : TaskTable} {rows : List Row}
    (h : rows.map Row.count = t.list.map Row.count) (log : List LogEntry) (id : TaskId) :
    (ofParts rows log).number? id = t.number? id := by
  have hids : rows.map Row.id = t.list.map Row.id := by
    have hfst := congrArg (List.map Prod.fst) h
    rw [List.map_map, List.map_map] at hfst
    exact hfst
  have hperm : t.list.Perm t.rows := List.mergeSort_perm _ _
  have hnodup : (rows.map Row.id).Nodup := hids ▸ (hperm.map Row.id).nodup_iff.2 t.nodup
  have hlisted : (ofParts t.list t.log).number? id = t.number? id :=
    congrArg (Option.map Row.attempts) (t.alike_ofParts.find?_eq id)
  rw [number?_eq_lookup, rows_ofParts hnodup, h, ← hlisted, number?_eq_lookup,
    rows_ofParts (hids ▸ hnodup)]

end TaskTable

namespace FileStore

open Place (AlikeBut)

variable {α β : Type} {t t' : TaskTable} {p p' q : Place} {c : StoreCall}

/-- A snapshot that can be read has the ids and the numbers of its table. -/
theorem count_rowsOf? {rows : List Row} (h : rowsOf? (snapshot t) = some rows) :
    rows.map Row.count = t.list.map Row.count := by
  have hspelled : (Json.array (t.list.map Row.toJson)).Spelled := by
    refine .array fun v hv => ?_
    obtain ⟨r, -, rfl⟩ := List.mem_map.1 hv
    exact r.spelled_toJson
  have byList (written rows : List Row)
      (h : (written.map Row.toJson).mapM (Row.ofJson? (Json.nestingLimit - 1)) = some rows) :
      rows.map Row.count = written.map Row.count := by
    induction written generalizing rows with
    | nil =>
      cases h
      rfl
    | cons r more ih =>
      rw [List.map_cons, List.mapM_cons] at h
      obtain ⟨r', hr', h⟩ := Option.bind_eq_some_iff.1 h
      obtain ⟨rest, hrest, h⟩ := Option.bind_eq_some_iff.1 h
      cases h
      rw [List.map_cons, List.map_cons, Row.count_ofJson? hr', ih rest hrest]
  unfold rowsOf? snapshot at h
  rw [Text.Utf8.toString?_ofString, Option.bind_eq_bind, Option.bind_some,
    Json.ofText?_prettyText hspelled, Option.bind_eq_bind, Option.bind_some, Json.list?] at h
  exact byList t.list rows h

/-! ## Files that have the numbers of a table -/

/-- Whatever rows can be read, they have the numbers of a table. -/
def HoldsNumbers (p : Place) (t : TaskTable) : Prop :=
  ∀ rows, loaded [] rowsOf? (p.find? [snapshotName]) = .ok rows →
    ∀ log id, (TaskTable.ofParts rows log).number? id = t.number? id

theorem holdsNumbers_congr (hfile : q.find? [snapshotName] = p.find? [snapshotName])
    (hnumbers : ∀ id, t'.number? id = t.number? id) (h : HoldsNumbers p t) : HoldsNumbers q t' := by
  intro rows hrows log id
  rw [hfile] at hrows
  rw [h rows hrows log id, hnumbers]

/-- A snapshot has the numbers of the table that it was made of. -/
theorem holdsNumbers_snapshot (h : p.find? [snapshotName] = some (.file (snapshot t))) :
    HoldsNumbers p t := by
  intro rows hrows log id
  rw [h, loaded] at hrows
  cases hread : rowsOf? (snapshot t) with
  | none =>
    rw [hread] at hrows
    cases hrows
  | some read =>
    rw [hread] at hrows
    cases hrows
    exact TaskTable.number?_ofParts (count_rowsOf? hread) log id

/-- A store that has been opened has the numbers that there are to be read. -/
theorem holdsNumbers_opened (h : openTable.eval Place.answer p = (.ok t, q)) :
    HoldsNumbers q t ∧ ∀ t', HoldsNumbers p t' → ∀ id, t.number? id = t'.number? id := by
  obtain ⟨p', hmade⟩ : ∃ p', p.makeRoot? = some p' := by
    cases p with
    | blocked => cases congrArg Prod.fst h
    | absent | folder => exact ⟨_, rfl⟩
  -- a folder that has just been made is as empty as one that is not there
  have hsnapshot : p'.find? [snapshotName] = p.find? [snapshotName] := by
    cases p with
    | blocked => cases hmade
    | absent | folder =>
      cases hmade
      rfl
  rw [eval_openTable hmade, eval_load, hsnapshot] at h
  obtain ⟨hread, rfl⟩ := Prod.mk.inj h
  cases hrows : loaded [] rowsOf? (p.find? [snapshotName]) with
  | error fault =>
    rw [hrows] at hread
    cases hread
  | ok rows =>
    rw [hrows] at hread
    cases hlog : loaded [] entriesOf? (p'.find? [logName]) with
    | error fault =>
      rw [hlog] at hread
      cases hread
    | ok log =>
      rw [hlog] at hread
      cases hread
      refine ⟨fun rows' hrows' log' id => ?_, fun t' ht' => ht' rows hrows log⟩
      rw [hsnapshot, hrows] at hrows'
      cases hrows'
      rfl

/-! ## Processes that end anywhere -/

/-- Where a program may leave the files that is given up at some call, others having failed. -/
inductive Abandons {α : Type} : FileProgram α → Place → Place → Prop
  | now (w : FileProgram α) (p : Place) : Abandons w p p
  | answers {c : FileCall} {k : c.Answer → FileProgram α} {p q : Place}
      (h : Abandons (k (Place.answer c p).1) (Place.answer c p).2 q) : Abandons (.call c k) p q
  | fails {c : FileCall} {k : c.Answer → FileProgram α} {p p' q : Place} (hc : c.Fails p p')
      (h : Abandons (k none) p' q) : Abandons (.call c k) p q

/-- The end is a place where a program may be given up. -/
theorem abandons_end {w : FileProgram α} {a : α} (h : MayRun w p a q) : Abandons w p q := by
  induction h with
  | done => exact .now _ _
  | answers _ ih => exact .answers ih
  | fails hc _ ih => exact .fails hc ih

theorem abandons_bind {w : FileProgram α} {f : α → FileProgram β} (h : Abandons (w.bind f) p q) :
    Abandons w p q ∨ ∃ a p', MayRun w p a p' ∧ Abandons (f a) p' q := by
  induction w generalizing p with
  | done a => exact .inr ⟨a, p, .done a p, h⟩
  | call c k ih =>
    obtain ⟨⟩ | h | ⟨hc, h⟩ := h
    · exact .inl (.now _ _)
    · rcases ih _ h with h | ⟨a, p', hrun, h⟩
      · exact .inl (.answers h)
      · exact .inr ⟨a, p', .answers hrun, h⟩
    · rcases ih _ h with h | ⟨a, p', hrun, h⟩
      · exact .inl (.fails hc h)
      · exact .inr ⟨a, p', .fails hc hrun, h⟩

/-- Wherever it is given up, a program leaves the snapshot as it was or makes it that of a table. -/
def Snapshots (t : TaskTable) (w : FileProgram α) : Prop :=
  ∀ p q, Abandons w p q → q.find? [snapshotName] = p.find? [snapshotName] ∨
    q.find? [snapshotName] = some (.file (snapshot t))

theorem snapshots_done (a : α) : Snapshots t (.done a : FileProgram α) := by
  rintro p q ⟨⟩
  exact .inl rfl

theorem Snapshots.bind {w : FileProgram α} {f : α → FileProgram β} (hw : Snapshots t w)
    (hf : ∀ a, Snapshots t (f a)) : Snapshots t (w.bind f) := by
  intro p q h
  rcases abandons_bind h with h | ⟨a, p', hrun, h⟩
  · exact hw p q h
  · rcases hf a p' q h with hsame | hnew
    · exact (hw p p' (abandons_end hrun)).imp hsame.trans hsame.trans
    · exact .inr hnew

/-- A call that has nothing to do with the snapshot. -/
theorem snapshots_call {c : FileCall} {k : c.Answer → FileProgram α}
    (hc : snapshotName ∉ touched c) (hk : ∀ r, Snapshots t (k r)) :
    Snapshots t (.call c k : FileProgram α) := by
  intro p q h
  obtain ⟨⟩ | h | ⟨hfails, h⟩ := h
  · exact .inl rfl
  · rw [← (alikeBut_answer c p).find?_eq snapshotName hc]
    exact hk _ _ _ h
  · rw [← (alikeBut_fails hfails).find?_eq snapshotName hc]
    exact hk _ _ _ h

theorem snapshots_perform {c : FileCall} (hc : snapshotName ∉ touched c) :
    Snapshots t (perform c) :=
  snapshots_call hc fun r => by cases r <;> exact snapshots_done _

theorem Snapshots.then {w : Work α} {f : α → Work β} (hw : Snapshots t w)
    (hf : ∀ a, Snapshots t (f a)) : Snapshots t (w >>= f : Work β) :=
  hw.bind fun
    | .ok a => hf a
    | .error _ => snapshots_done _

theorem Snapshots.orCutLog {w : Work α} (hw : Snapshots t w) (length : Nat) :
    Snapshots t (orCutLog w length) :=
  hw.bind fun
    | .ok _ => snapshots_done _
    | .error _ => snapshots_call (by simp [touched, snapshotName, logName]) fun _ =>
      snapshots_done _

theorem snapshots_appendToLog (e : LogEntry) : Snapshots t (appendToLog e) :=
  (snapshots_perform (by decide)).then fun _ => (snapshots_perform (by decide)).then fun _ =>
    ((snapshots_perform (by simp [touched, snapshotName, logName])).orCutLog _).then
      fun _ => snapshots_done _

/-- Only the renaming touches the snapshot, and what gets its name is whole. -/
theorem snapshots_writeSnapshot (t : TaskTable) : Snapshots t (writeSnapshot t) := by
  intro p q h
  have hdraft : Snapshots t (perform (.write draftName (snapshot t))) :=
    snapshots_perform (by simp [touched, snapshotName, draftName])
  rcases abandons_bind h with h | ⟨fault | _, p', hwrite, h⟩
  · exact hdraft p q h
  · obtain ⟨⟩ := h
    exact hdraft p q (abandons_end hwrite)
  · have hput := Place.changed_eq_some.1 (mayRun_perform_ok.1 hwrite)
    have hsame : p'.find? [snapshotName] = p.find? [snapshotName] :=
      Place.find?_putFile?_other hput (by decide)
    have hwritten := Place.bytes?_eq_some.2 (Place.find?_putFile?_self hput)
    rw [← hsame]
    obtain ⟨⟩ | h | ⟨⟨⟩, h⟩ := h
    · exact .inl rfl
    · rcases hrename : p'.rename? [draftName] [snapshotName] with _ | q'
      · rw [Place.answer, hrename] at h
        obtain ⟨⟩ := h
        exact .inl rfl
      · rw [Place.answer, hrename] at h
        obtain ⟨⟩ := h
        exact .inr (Place.find?_rename?_target hwritten hrename)
    · obtain ⟨⟩ := h
      exact .inl rfl

theorem Snapshots.commit {before after : TaskTable} {result : c.Result} {work : Work Unit}
    (h : Snapshots t work) : Snapshots t (commit before after result work) :=
  h.bind fun
    | .ok _ => snapshots_done _
    | .error _ => snapshots_done _

theorem snapshots_plain (t : TaskTable) (c : StoreCall) :
    Snapshots (t.answer c).2 (plainAnswer t c) := by
  unfold plainAnswer
  split
  · exact snapshots_done _
  · next result next heq =>
    rw [heq]
    refine Snapshots.commit ?_
    split
    · exact snapshots_writeSnapshot next
    · exact snapshots_done _

/-- Wherever a call is given up, the snapshot is the one it found or the one it was to leave. -/
theorem snapshots_answer (t : TaskTable) (c : StoreCall) :
    Snapshots (t.answer c).2 (answer t c) := by
  cases c with
  | complete id completion entry =>
    rw [answer_complete]
    refine Snapshots.commit ((snapshots_appendToLog _).then fun length => ?_)
    split
    · exact (snapshots_writeSnapshot _).orCutLog length
    · exact snapshots_done _
  | appendLog entry =>
    exact Snapshots.commit ((snapshots_appendToLog entry).then fun _ => snapshots_done _)
  | _ => exact snapshots_plain t _

/-! ## The turns of a store in files -/

/--
The turns of a store in files. Calls to the file system may fail, and at any time the process may
end, also in the middle of a call, and the next one open the store.
-/
inductive Takes : TaskTable → Place → List Turn → Prop
  | rests (t : TaskTable) (p : Place) : Takes t p []
  | returned {t t' : TaskTable} {p q : Place} {c : StoreCall} {a : c.Answer} {turns : List Turn}
      (runs : MayRun (answer t c) p (a, t') q) (rest : Takes t' q turns) :
      Takes t p (.returned c a :: turns)
  | reopened {t t' : TaskTable} {p p' q : Place} {c : StoreCall} {turns : List Turn}
      (ends : Abandons (answer t c) p p') (opens : openTable.eval Place.answer p' = (.ok t', q))
      (rest : Takes t' q turns) : Takes t p (.reopened :: turns)

/-- A call that returns does to the numbers what a turn may do. -/
theorem counts_returned {a : c.Answer} (h : HoldsNumbers p t)
    (hrun : MayRun (answer t c) p (a, t') q) :
    HoldsNumbers q t' ∧ (Turn.returned c a).Counts t t' := by
  cases a with
  | error failure =>
    obtain ⟨rfl, hunread⟩ := unread_of_error hrun
    refine ⟨holdsNumbers_congr (hunread.alike.find?_eq snapshotName (by decide)) (fun _ => rfl) h,
      fun id n hn => ⟨n, hn, UInt32.le_refl n⟩, ?_, ?_⟩
    · rintro id n ⟨now, row, heq, -⟩
      obtain ⟨rfl, ha⟩ := Turn.returned.inj heq
      cases eq_of_heq ha
    · rintro id n ⟨completion, -, ⟨e, heq⟩ | heq⟩
      · obtain ⟨rfl, ha⟩ := Turn.returned.inj heq
        cases eq_of_heq ha
      · cases heq
  | ok result =>
    obtain ⟨hanswer, hwritten⟩ := written_ok hrun
    have hcounts := t.counts_turn (.call c)
    simp only [TaskTable.turn, TaskTable.after, hanswer] at hcounts
    refine ⟨?_, hcounts⟩
    rcases hwritten.snapshot with hnew | ⟨hsame, hrows⟩
    · exact holdsNumbers_snapshot hnew
    · refine holdsNumbers_congr hsame (fun id => ?_) h
      rw [TaskTable.number?_eq_lookup, TaskTable.number?_eq_lookup, hrows]

/-- A store that is opened anew has lost no number. -/
theorem counts_reopened (h : HoldsNumbers p t) (hends : Abandons (answer t c) p p')
    (hopens : openTable.eval Place.answer p' = (.ok t', q)) :
    HoldsNumbers q t' ∧ Turn.reopened.Counts t t' := by
  obtain ⟨hholds, hread⟩ := holdsNumbers_opened hopens
  refine ⟨hholds, fun id n hn => ?_, ?_, ?_⟩
  · rcases snapshots_answer t c p p' hends with hsame | hnew
    · rw [hread t (holdsNumbers_congr hsame (fun _ => rfl) h), hn]
      exact ⟨n, rfl, UInt32.le_refl n⟩
    · rw [hread _ (holdsNumbers_snapshot hnew)]
      exact t.kept_after (.call c) hn
  · rintro id n ⟨now, row, heq, -⟩
    cases heq
  · rintro id n ⟨completion, -, ⟨e, heq⟩ | heq⟩ <;> cases heq

theorem counted_takes {turns : List Turn} (h : Takes t p turns) (hholds : HoldsNumbers p t) :
    ∃ t', Counted t turns t' := by
  induction h with
  | rests t p => exact ⟨t, .nil t⟩
  | returned runs _ ih =>
    obtain ⟨hholds', hcounts⟩ := counts_returned hholds runs
    obtain ⟨t', htail⟩ := ih hholds'
    exact ⟨t', .cons hcounts htail⟩
  | reopened ends opens _ ih =>
    obtain ⟨hholds', hcounts⟩ := counts_reopened hholds ends opens
    obtain ⟨t', htail⟩ := ih hholds'
    exact ⟨t', .cons hcounts htail⟩

/-- The turns that a store may take: a table to which anything comes, or files in any folder. -/
inductive Taken : List Turn → Prop
  | table (t : TaskTable) (xs : List Transaction) : Taken (t.turns xs)
  | files {p q : Place} {t : TaskTable} {turns : List Turn}
      (opens : openTable.eval Place.answer p = (.ok t, q)) (takes : Takes t q turns) : Taken turns

/--
**Claims of one task have different numbers, but for the last one.** This goes for whatever comes to
a table, and for a store in files that is opened in any folder, any number of times: of two claims
the later one has the greater number, and no completion that goes by the number of the earlier one
is applied after the later one, unless that number is the last there is.
-/
theorem claims_numbered {turns : List Turn} (h : Taken turns) : Numbered turns := by
  cases h with
  | table t xs => exact (t.counted_turns xs).numbered
  | files opens takes =>
    obtain ⟨t', hcounted⟩ := counted_takes takes (holdsNumbers_opened opens).1
    exact hcounted.numbered

/-- What a table returns to calls, as turns. -/
def told (answers : List StoreCall.Exchange) : List Turn := answers.map fun e => .returned e.1 e.2

theorem takes_exchanges (h : Synced t p) {calls : List StoreCall}
    (hcalls : ∀ c ∈ calls, c.Faithful) :
    ∃ q, Synced (t.exchanges calls).2 q ∧ ∀ turns, Takes (t.exchanges calls).2 q turns →
      Takes t p (told (t.exchanges calls).1 ++ turns) := by
  induction calls generalizing t p with
  | nil => exact ⟨p, h, fun _ hturns => hturns⟩
  | cons c more ih =>
    obtain ⟨hc, hmore⟩ := List.forall_mem_cons.1 hcalls
    obtain ⟨p', hanswer⟩ := eval_answer h c
    have hruns := mayRun_eval (answer t c) p
    rw [hanswer] at hruns
    obtain ⟨q, hsynced, hrest⟩ := ih (synced_answer h hc hruns) hmore
    exact ⟨q, hsynced, fun turns hturns => .returned hruns (hrest turns hturns)⟩

/-- A task that is claimed, cancelled, and put back into the queue. -/
def startedOver (row : Row) : List StoreCall :=
  [.insert { row with state := .enqueued }, .claim row.id 4,
    .transition row.id State.cancellable .cancelled 5, .replaceSpec row.id row.spec 0 6]

theorem faithful_startedOver {row : Row} (h : row.spec.Faithful) :
    ∀ c ∈ startedOver row, c.Faithful :=
  List.forall_mem_cons.2 ⟨h, List.forall_mem_cons.2 ⟨trivial, List.forall_mem_cons.2
    ⟨trivial, List.forall_mem_singleton.2 h⟩⟩⟩

/-- A task is claimed, and claimed again when its store has been opened anew: the numbers differ. -/
theorem claims_numbered_reopened :
    ∃ q t turns, openTable.eval Place.answer (.folder []) = (.ok t, q) ∧ Takes t q turns ∧
      Numbered turns ∧
      ∃ earlier first between second, turns = earlier ++ first :: (between ++ [second]) ∧
        .reopened ∈ between ∧ first.Claims (.ofNat 1) 2 ∧ second.Claims (.ofNat 1) 3 := by
  obtain ⟨p, hsynced, htakes⟩ :=
    takes_exchanges synced_empty (faithful_startedOver faithful_jitteryRow)
  obtain ⟨t', hopens, halike, hsynced'⟩ := opens hsynced
  -- the process ends before the next call has done anything
  obtain ⟨q, hanswer⟩ := eval_answer hsynced' (.claim (.ofNat 1) 7)
  have hruns := mayRun_eval (answer t' (.claim (.ofNat 1) 7)) p
  rw [hanswer] at hruns
  have hturns := htakes _ (.reopened (c := .claim (.ofNat 1) 7) (.now _ p) hopens
    (.returned hruns (.rests _ q)))
  rw [halike.find?_eq] at hturns
  have hempty : openTable.eval Place.answer (.folder []) = (.ok .empty, .folder []) := rfl
  exact ⟨_, _, _, hempty, hturns, claims_numbered (.files hempty hturns), [_], _, [_, _, _], _,
    rfl, by simp, ⟨4, _, rfl, rfl⟩, ⟨7, _, rfl, rfl⟩⟩

/-- A task that has one number left, is claimed twice, and has its second claim completed. -/
def wornOut : List Transaction :=
  (startedOver { runningRow with attempts := maxCount - 1 } ++
    [StoreCall.claim (.ofNat 1) 7, .complete (.ofNat 1) ⟨maxCount, .succeeded, none, 0, 8⟩
      ⟨.ofNat 1, 8, .succeeded, maxCount, none⟩]).map .call

/--
Two claims of a task have the last number, and a completion that goes by the number of the first is
applied after the second.
-/
theorem last_number_given_twice :
    ∃ earlier first between second later x,
      TaskTable.empty.turns wornOut = earlier ++ first :: (between ++ second :: later) ∧
      first.Claims (.ofNat 1) maxCount ∧ second.Claims (.ofNat 1) maxCount ∧
      x ∈ later ∧ x.Applies (.ofNat 1) maxCount :=
  ⟨[_], _, [_, _], _, [_], _, rfl, ⟨4, _, rfl, rfl⟩, ⟨7, _, rfl, rfl⟩, List.mem_singleton_self _,
    ⟨⟨maxCount, .succeeded, none, 0, 8⟩, rfl, .inl ⟨_, rfl⟩⟩⟩

end FileStore

end BackgroundTasks
