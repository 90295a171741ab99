import BackgroundTasks.Proofs.Alone
import BackgroundTasks.Proofs.Armed
import BackgroundTasks.Proofs.Custody
import BackgroundTasks.Proofs.Rows
import BackgroundTasks.Proofs.Serving

/-!
# Ticks of the watchdog

A tick of the watchdog goes through the rows that are due, one after the other. A row whose turn it
is may be armed already, or the platform may fail over it, and then nothing happens; else it is
armed and its handle is recorded. Each turn is about one task, and what the others are waiting for
does not change: so which rows are armed can be told beforehand.
-/

namespace BackgroundTasks

/-! ## What can be told beforehand -/

namespace Platform

/-- What a platform holds for a task: a registration, or a timer that counts, and its sleepers. -/
def holds (p : Platform) (id : TaskId) : Option Registration × Option UInt64 × List Sleeper :=
  match p with
  | registrations r => (r.find? id, none, [])
  | timers t => (none, t.current.lookup id, t.sleepers.filter fun s => s.id == id)

/-- The platform once the tasks of some rows have been armed, one after the other, at once. -/
def armAll (now : Nat) (p : Platform) (rows : List Row) : Platform :=
  rows.foldl (fun p row => (p.arm now row.id .zero row.spec.conditions).2) p

variable {p : Platform} {now : Nat} {id : TaskId}

theorem holds_arm_other {other : TaskId} (delay : Span) (conditions : Conditions)
    (h : id ≠ other) : (p.arm now other delay conditions).2.holds id = p.holds id := by
  cases p with
  | registrations r =>
    exact congrArg (fun found => (found, none, [])) (lookup_renewed_other r.armed h _)
  | timers t =>
    have hcurrent : (t.arm (now * 1000000) other delay).current.lookup id = t.current.lookup id :=
      lookup_renewed_other t.current h _
    have hsleepers : (t.arm (now * 1000000) other delay).sleepers.filter (fun s => s.id == id)
        = t.sleepers.filter fun s => s.id == id := by
      simp only [Timers.arm]
      rw [List.filter_append, List.filter_cons_of_neg (by simpa using Ne.symm h), List.filter_nil,
        List.append_nil, t.filter_callingOff h]
    show (none, (t.arm (now * 1000000) other delay).current.lookup id, _) = _
    rw [hcurrent]
    exact congrArg (fun sleepers => (none, t.current.lookup id, sleepers)) hsleepers

theorem isArmed_armAll {rows : List Row} :
    (armAll now p rows).isArmed id = true ↔ id ∈ rows.map Row.id ∨ p.isArmed id = true := by
  induction rows generalizing p with
  | nil => simp [armAll]
  | cons row rest ih =>
    rw [armAll, List.foldl_cons, ← armAll, ih, isArmed_arm, List.map_cons, List.mem_cons]
    by_cases hid : row.id = id
    · simp [hid]
    · simp [hid, Ne.symm hid]

end Platform

namespace System

/-- A call to the platform fails. -/
def refuses (y : System) (c : Call) : Bool :=
  match y.faults c with
  | some (.reports _) => true
  | _ => false

/-- The platform fails at one of the two calls that a due row asks for. -/
def failsOver (y : System) (row : Row) : Bool :=
  y.refuses (.isArmed row.id) || y.refuses (.arm row.id .zero row.spec.conditions)

/-- A due row is to be armed. -/
def rescues (y : System) (row : Row) : Bool := !y.platform.isArmed row.id && !y.failsOver row

/-- The rows that a tick arms, in order. -/
def orphans (y : System) : List Row := (y.table.due y.now).filter y.rescues

/-- The handle that comes back when a row is armed, unless it is lost. -/
def handed (y : System) (row : Row) (p : Platform) : Option String :=
  if y.faults (.arm row.id .zero row.spec.conditions) = some .losesHandle then none
  else some (p.arm y.elapsed row.id .zero row.spec.conditions).1

/-- No call to the platform breaks down. -/
def Returns (y : System) : Prop :=
  ∀ c, y.faults c ≠ some .breaksDown ∧ y.faults c ≠ some .breaksDownArmed

/-- What a tick tells the sink about an orphan. -/
def rescued (now : UInt64) (sink : Sink) (row : Row) : Sink :=
  sink.emit ⟨.orphanRearmed, some row.id, none, now, none⟩

/-- Some rows have been armed, one after the other, and nothing else has changed. -/
structure Arms (now : UInt64) (rows : List Row) (y y' : System) : Prop where
  /-- Each is armed once, at once and under its row's conditions. -/
  platform : y'.platform = y.platform.armAll y.elapsed rows
  /-- Each has the handle that came back when it was its turn. -/
  handles : ∀ before row after, rows = before ++ row :: after →
    y'.table.find? row.id
      = some (row.withHandle (y.handed row (y.platform.armAll y.elapsed before)))
  others : ∀ id, id ∉ rows.map Row.id →
    y'.table.find? id = y.table.find? id ∧ y'.platform.holds id = y.platform.holds id
  log : y'.table.log = y.table.log
  sink : y'.sink = rows.foldl (rescued now) y.sink
  rest : ∃ store place, y' = { y with store, place, platform := y'.platform, sink := y'.sink }
  serves : y'.Serves

variable {y y' y'' : System} {now : UInt64} {row : Row} {rows : List Row}

/-- The orphans are the due rows that are not armed and over which the platform does not fail. -/
theorem mem_orphans : row ∈ y.orphans ↔ y.table.find? row.id = some row ∧ row.state = .enqueued
    ∧ row.nextRunMs ≤ y.now ∧ y.platform.isArmed row.id = false ∧ y.failsOver row = false := by
  unfold orphans
  rw [List.mem_filter, TaskTable.mem_due_iff, rescues, Bool.and_eq_true, Bool.not_eq_true',
    Bool.not_eq_true', and_assoc, and_assoc]

theorem Arms.none (hy : y.Serves) : y.Arms now [] y where
  platform := rfl
  handles before row after h := by cases before <;> cases h
  others _ _ := ⟨rfl, rfl⟩
  log := rfl
  sink := rfl
  rest := ⟨y.store, y.place, rfl⟩
  serves := hy

/-- A row that has been armed is left alone in the turns of the others. -/
theorem Arms.cons (h : y.Arms now [row] y') (h' : y'.Arms now rows y'')
    (hnew : row.id ∉ rows.map Row.id) : y.Arms now (row :: rows) y'' := by
  obtain ⟨store, place, hrest⟩ := h.rest
  obtain ⟨store', place', hrest'⟩ := h'.rest
  have helapsed : y'.elapsed = y.elapsed := by rw [hrest]
  have hfaults : y'.faults = y.faults := by rw [hrest]
  have hplatform : y''.platform = y.platform.armAll y.elapsed (row :: rows) := by
    rw [h'.platform, h.platform, helapsed]
    rfl
  refine ⟨hplatform, ?_, ?_, h'.log.trans h.log, ?_, ⟨store', place', ?_⟩, h'.serves⟩
  · intro before turn after heq
    cases before with
    | nil =>
      obtain ⟨rfl, rfl⟩ := List.cons.inj heq
      rw [(h'.others _ hnew).1]
      exact h.handles [] row [] rfl
    | cons first before =>
      obtain ⟨rfl, rfl⟩ := List.cons.inj heq
      have hturn := h'.handles before turn after rfl
      rw [h.platform, helapsed] at hturn
      rw [hturn, handed, handed, hfaults, helapsed]
      rfl
  · intro id hid
    rw [List.map_cons, List.mem_cons, not_or] at hid
    obtain ⟨hrow, hholds⟩ := h.others id (by simpa using hid.1)
    obtain ⟨hrow', hholds'⟩ := h'.others id hid.2
    exact ⟨hrow'.trans hrow, hholds'.trans hholds⟩
  · rw [h'.sink, h.sink]
    rfl
  · rw [hrest', hrest]

end System

/-! ## Rules for calls -/

namespace System

variable {y : System} {c : Call} {γ : Type}

theorem refuses_eq_true : y.refuses c = true ↔ ∃ text, y.faults c = some (.reports text) := by
  unfold refuses
  split
  · next text h => simp [h]
  · next h => exact ⟨nofun, fun ⟨text, htext⟩ => absurd htext (h text)⟩

theorem askPlatform_answers (hy : y.Returns) (h : y.refuses c = false)
    (f : Platform → γ × Platform) :
    y.askPlatform c f = (some (.ok (f y.platform).1), { y with platform := (f y.platform).2 }) := by
  unfold askPlatform
  split
  · next text hf => cases h.symm.trans (refuses_eq_true.2 ⟨text, hf⟩)
  · next hf => exact absurd hf (hy c).1
  · rfl

theorem askPlatform_refuses {text : String} (h : y.faults c = some (.reports text))
    (f : Platform → γ × Platform) : y.askPlatform c f = (some (.error (.platform text)), y) := by
  rw [askPlatform, h]

end System

namespace Operation

variable {y : System} {failed : Failure → System → Prop}

theorem ends_store {c : StoreCall} {a : c.Result} {ok : c.Result → System → Prop}
    (hy : y.Serves) (hanswer : (y.table.answer c).1 = .ok a)
    (h : ∀ store place, store.table = (y.table.answer c).2 →
      ({ y with store, place } : System).Serves → ok a { y with store, place }) :
    (store c).Ends y ok failed := by
  obtain ⟨store, place, hask, htable, hserves⟩ := hy.asks c
  rw [hanswer] at hask
  exact Program.ensures_call (c := .store c) hask (h store place htable hserves)

theorem ends_isArmed {id : TaskId} {ok : Bool → System → Prop} (hy : y.Returns)
    (hok : y.refuses (.isArmed id) = false → ok (y.platform.isArmed id) y)
    (hfailed : y.refuses (.isArmed id) = true → ∀ failure, failed failure y) :
    (isArmed id).Ends y ok failed := by
  have hanswer : y.answer (.isArmed id) = y.askPlatform (.isArmed id) fun p => (p.isArmed id, p) :=
    rfl
  cases hrefuses : y.refuses (.isArmed id) with
  | false =>
    rw [System.askPlatform_answers hy hrefuses] at hanswer
    exact Program.ensures_call (c := .isArmed id) hanswer (hok hrefuses)
  | true =>
    obtain ⟨text, htext⟩ := System.refuses_eq_true.1 hrefuses
    rw [System.askPlatform_refuses htext] at hanswer
    exact Program.ensures_call (c := .isArmed id) hanswer (hfailed hrefuses _)

theorem ends_arm {row : Row} {ok : Option String → System → Prop} (hy : y.Returns)
    (hok : y.refuses (.arm row.id .zero row.spec.conditions) = false →
      ok (y.handed row y.platform)
        { y with platform := (y.platform.arm y.elapsed row.id .zero row.spec.conditions).2 })
    (hfailed : y.refuses (.arm row.id .zero row.spec.conditions) = true →
      ∀ failure, failed failure y) :
    (arm row.id .zero row.spec.conditions).Ends y ok failed := by
  let c : Call := .arm row.id .zero row.spec.conditions
  let f (p : Platform) := p.arm y.elapsed row.id .zero row.spec.conditions
  have hanswer : y.answer c
      = ((y.askPlatform c f).1.bind (System.handOver (y.faults c)), (y.askPlatform c f).2) := rfl
  cases hrefuses : y.refuses c with
  | false =>
    rw [System.askPlatform_answers hy hrefuses] at hanswer
    have hhandle : System.handOver (y.faults c) (.ok (f y.platform).1)
        = some (.ok (y.handed row y.platform)) := by
      unfold System.handOver System.handed
      split
      · next hloses => rw [if_pos hloses]; rfl
      · next hbreaks => exact absurd hbreaks (hy c).2
      · next hnot _ => rw [if_neg hnot]; rfl
    rw [Option.bind_some, hhandle] at hanswer
    exact Program.ensures_call (c := c) hanswer (hok hrefuses)
  | true =>
    obtain ⟨text, htext⟩ := System.refuses_eq_true.1 hrefuses
    rw [System.askPlatform_refuses htext, htext] at hanswer
    exact Program.ensures_call (c := c) hanswer (hfailed hrefuses _)

end Operation

/-! ## One turn -/

open Operation Scheduler

variable {y : System} {row : Row} {now : UInt64}

/-- A row that is armed has its handle recorded, whether or not it had it before. -/
theorem ends_armAndRecord {ok : Unit → System → Prop} {failed : Failure → System → Prop}
    (hy : y.Serves) (hreturns : y.Returns) (hrow : y.table.find? row.id = some row)
    (hok : y.refuses (.arm row.id .zero row.spec.conditions) = false →
      ∀ y', y'.Serves → y'.table.find? row.id = some (row.withHandle (y.handed row y.platform)) →
        (∀ id, id ≠ row.id → y'.table.find? id = y.table.find? id) →
        y'.table.log = y.table.log →
        (∃ store place, y' = { y with
          store, place
          platform := (y.platform.arm y.elapsed row.id .zero row.spec.conditions).2 }) →
        ok () y')
    (hfailed : y.refuses (.arm row.id .zero row.spec.conditions) = true →
      ∀ failure, failed failure y) :
    (armAndRecord row .zero).Ends y ok failed := by
  unfold armAndRecord
  rw [Ends, ensures_bind]
  refine ends_arm hreturns (fun haccepted => ?_) hfailed
  refine ensures_ite.2 ⟨fun hnew => ?_, fun hknown => ?_⟩
  · have hserves : System.Serves { y with
        platform := (y.platform.arm y.elapsed row.id .zero row.spec.conditions).2 } :=
      ⟨hy.store, hy.faults⟩
    have hanswer := TaskTable.answer_setPlatformId hrow (y.handed row y.platform)
    refine ends_store hserves (congrArg Prod.fst hanswer) fun store place htable hserves' => ?_
    have htable := htable.trans (congrArg Prod.snd hanswer)
    refine hok haccepted _ hserves' ?_ (fun id hid => ?_) ?_ ⟨store, place, rfl⟩
    · show store.table.find? row.id = _
      rw [htable, TaskTable.find?_stepAt_self, hrow]
      rfl
    · show store.table.find? id = _
      rw [htable]
      exact TaskTable.find?_stepAt_other _ _ hid
    · show store.table.log = _
      rw [htable]
      rfl
  · refine hok haccepted _ ⟨hy.store, hy.faults⟩ ?_ (fun _ _ => rfl) rfl ⟨y.store, y.place, rfl⟩
    rw [Decidable.not_not.1 hknown]
    exact hrow

/-- A row has been armed and its handle recorded, and now the sink is told. -/
theorem System.Arms.one {store : Store} {place : Place}
    (hserves : ({ y with
      store, place, platform := (y.platform.arm y.elapsed row.id .zero row.spec.conditions).2 } :
        System).Serves)
    (hrow : store.table.find? row.id = some (row.withHandle (y.handed row y.platform)))
    (hothers : ∀ id, id ≠ row.id → store.table.find? id = y.table.find? id)
    (hlog : store.table.log = y.table.log) :
    y.Arms now [row] { y with
      store, place
      platform := (y.platform.arm y.elapsed row.id .zero row.spec.conditions).2
      sink := System.rescued now y.sink row } where
  platform := rfl
  handles before turn after h := by
    obtain ⟨rfl, hsingle⟩ | ⟨_, -, hnone⟩ := List.cons_eq_append_iff.1 h
    · obtain ⟨rfl, -⟩ := List.cons.inj hsingle
      exact hrow
    · cases List.append_eq_nil_iff.1 hnone.symm |>.2
  others id h := by
    have hid : id ≠ row.id := by simpa using h
    exact ⟨hothers id hid, Platform.holds_arm_other _ _ hid⟩
  log := hlog
  sink := rfl
  rest := ⟨store, place, rfl⟩
  serves := ⟨hserves.store, hserves.faults⟩

/-- A row in its turn is armed, or nothing happens. -/
theorem ends_rescue {ok : Bool → System → Prop} {failed : Failure → System → Prop}
    (hy : y.Serves) (hreturns : y.Returns) (hrow : y.table.find? row.id = some row)
    (hleft : y.rescues row = false → ok false y)
    (harmed : y.rescues row = true → ∀ y', y.Arms now [row] y' → ok true y') :
    (rescue now row).Ends y ok failed := by
  have hrescues : y.rescues row = (!y.platform.isArmed row.id && !(y.refuses (.isArmed row.id)
      || y.refuses (.arm row.id .zero row.spec.conditions))) := rfl
  unfold rescue isOrphan
  simp only [Ends, ensures_bind, ensures_orElse, ensures_map, ensures_ite, ensures_pure]
  refine ends_isArmed hreturns (fun hasked => ⟨fun hunarmed => ?_, fun hknown => hleft ?_⟩)
    fun hrefused _ => ⟨fun h => absurd h Bool.false_ne_true, fun _ => hleft ?_⟩
  · rw [Bool.not_eq_true'] at hunarmed
    refine ends_armAndRecord hy hreturns hrow
      (fun haccepted y₁ hserves hrow₁ hothers hlog hrest => ?_)
      fun hrefused _ => ⟨fun h => absurd h Bool.false_ne_true, fun _ => hleft ?_⟩
    · obtain ⟨store, place, rfl⟩ := hrest
      refine ⟨fun _ => ?_, fun h => absurd trivial h⟩
      refine ends_ask (c := .emit _) rfl (harmed ?_ _ (.one hserves hrow₁ hothers hlog))
      rw [hrescues, hunarmed, hasked, haccepted]
      rfl
    · rw [hrescues, hunarmed, hasked, hrefused]
      rfl
  · rw [Bool.not_eq_true', Bool.not_eq_false] at hknown
    rw [hrescues, hknown]
    rfl
  · rw [hrescues, hrefused]
    exact Bool.and_false _

/-! ## All turns -/

namespace System

variable {y' : System} {rows : List Row}

theorem Arms.faults (h : y.Arms now rows y') : y'.faults = y.faults := by
  obtain ⟨store, place, hrest⟩ := h.rest
  rw [hrest]

/-- To be armed changes no state. -/
theorem Arms.state_eq (h : y.Arms now rows y')
    (hrows : ∀ row ∈ rows, y.table.find? row.id = some row) (id : TaskId) :
    (y'.table.find? id).map Row.state = (y.table.find? id).map Row.state := by
  by_cases hid : id ∈ rows.map Row.id
  · obtain ⟨row, hrow, rfl⟩ := List.mem_map.1 hid
    obtain ⟨before, after, hsplit⟩ := List.append_of_mem hrow
    rw [h.handles before row after hsplit, hrows row hrow]
    rfl
  · rw [(h.others id hid).1]

/-- Whether a row is to be armed does not depend on the turns of other rows. -/
theorem Arms.rescues_other {other : Row} (h : y.Arms now rows y')
    (hother : other.id ∉ rows.map Row.id) : y'.rescues other = y.rescues other := by
  have harmed : y'.platform.isArmed other.id = y.platform.isArmed other.id := by
    rw [Bool.eq_iff_iff, h.platform, Platform.isArmed_armAll]
    exact ⟨fun hor => hor.resolve_left hother, .inr⟩
  unfold rescues failsOver refuses
  rw [harmed, h.faults]

end System

/-- In a pass over some rows just those are armed of which it could be told beforehand. -/
theorem ends_rescues {rows : List Row} {ok : List Bool → System → Prop}
    {failed : Failure → System → Prop} (hy : y.Serves) (hreturns : y.Returns)
    (hrows : ∀ row ∈ rows, y.table.find? row.id = some row) (hnodup : (rows.map Row.id).Nodup)
    (h : ∀ bs y', bs.count true = (rows.filter y.rescues).length →
      y.Arms now (rows.filter y.rescues) y' → ok bs y') :
    (rows.mapM (rescue now)).Ends y ok failed := by
  induction rows generalizing y ok with
  | nil => exact h [] y rfl (.none hy)
  | cons row rest ih =>
    rw [List.map_cons, List.nodup_cons] at hnodup
    obtain ⟨hrow, hrest⟩ := List.forall_mem_cons.1 hrows
    rw [List.mapM_cons]
    simp only [Ends, ensures_bind, ensures_pure]
    refine ends_rescue hy hreturns hrow (fun hleft => ?_) fun hrescues y₁ h₁ => ?_
    · have hsame : (row :: rest).filter y.rescues = rest.filter y.rescues :=
        List.filter_cons_of_neg (Bool.eq_false_iff.1 hleft)
      refine ih hy hreturns hrest hnodup.2 fun bs y' hcount harms => h _ y' ?_ ?_
      · rw [hsame, List.count_cons_of_ne (by decide), hcount]
      · rw [hsame]
        exact harms
    · have hother (other : Row) (hmem : other ∈ rest) : other.id ∉ [row].map Row.id := by
        rw [List.map_singleton, List.mem_singleton]
        exact fun hid => hnodup.1 (hid ▸ List.mem_map_of_mem hmem)
      have hsame : rest.filter y₁.rescues = rest.filter y.rescues :=
        List.filter_congr fun other hmem => h₁.rescues_other (hother other hmem)
      have hreturns₁ : y₁.Returns := fun c => by rw [h₁.faults]; exact hreturns c
      refine ih h₁.serves hreturns₁
        (fun other hmem => (h₁.others _ (hother other hmem)).1.trans (hrest other hmem)) hnodup.2
        fun bs y' hcount harms => h _ y' ?_ ?_
      · rw [List.filter_cons_of_pos hrescues, List.count_cons_self, hcount, hsame, List.length_cons]
      · rw [List.filter_cons_of_pos hrescues]
        rw [hsame] at harms
        refine h₁.cons harms fun hmem => hnodup.1 ?_
        exact (List.filter_sublist.map Row.id).subset hmem

/-- A tick arms the orphans, and counts them. -/
theorem completes_tick (hy : y.Serves) (hreturns : y.Returns) :
    ∃ y', tick.Completes y y.orphans.length y' ∧ y.Arms y.now y.orphans y' := by
  have ends : tick.Ends y (fun n y' => n = y.orphans.length ∧ y.Arms y.now y.orphans y')
      fun _ _ => False := by
    unfold tick
    rw [Ends, ensures_bind]
    refine ends_ask (c := .now) rfl ?_
    rw [ensures_bind]
    refine ends_store hy rfl fun store place htable hserves => ?_
    rw [ensures_bind]
    have htable : store.table = y.table := htable
    refine ends_rescues hserves hreturns
      (fun row hrow =>
        (congrArg (TaskTable.find? · row.id) htable).trans (TaskTable.mem_due hrow).1)
      (y.table.nodup_due y.now) ?_
    intro bs y' hcount harms
    refine ⟨hcount, harms.platform, harms.handles, fun id hid => ?_, ?_, harms.sink, harms.rest,
      harms.serves⟩
    · obtain ⟨hrow, hholds⟩ := harms.others id hid
      exact ⟨hrow.trans (congrArg (TaskTable.find? · id) htable), hholds⟩
    · exact harms.log.trans (congrArg TaskTable.log htable)
  obtain ⟨n, y', hcompletes, rfl, harms⟩ := ends.completes
  exact ⟨y', hcompletes, harms⟩

end BackgroundTasks
