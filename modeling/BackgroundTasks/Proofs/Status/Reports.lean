import BackgroundTasks.Proofs.Interleaving.Calls

/-!
# Reports

Whoever brings a row into another state owes a report: to read the state again and to publish what
was read. So does whoever subscribes to a task. Between the two steps of a report an operation does
nothing else, and none comes to its end while it owes one.

It is the read that makes a report good. What an operation knows of a row from its own call to the
store may be out of date by the time it is published; what it reads for a report it reads after the
change that the report is about.
-/

namespace BackgroundTasks

namespace Call

/-- The tasks that an answer leaves to be reported on. -/
def stirs : (c : Call) → c.Answer → List TaskId
  | store (.insert row), Except.ok _ => [row.id]
  | store (.claim id _), Except.ok (some _) => [id]
  | store (.complete id ..), Except.ok true => [id]
  | store (.transition id ..), Except.ok (moved : Nat) => if moved = 0 then [] else [id]
  | store (.transitionAll ..), Except.ok (ids : List TaskId) => ids
  | store (.replaceSpec id ..), Except.ok .replaced => [id]
  | subscribe id _, _ => [id]
  | _, _ => []

/-- The task whose row an answer has found. -/
def finds? : (c : Call) → c.Answer → Option TaskId
  | store (.get id), Except.ok (some _) => some id
  | _, _ => none

/-- Whether a call has nothing to do with the states of tasks, or with who is told of them. -/
def isAside : Call → Bool
  | store (.insert _) | store (.claim ..) | store (.complete ..) => false
  | store (.transition ..) | store (.transitionAll ..) | store (.replaceSpec ..) => false
  | readStatus _ | publish .. | subscribe .. => false
  | _ => true

theorem isAside_of_isLooking {c : Call} (h : c.isLooking = true) : c.isAside = true := by
  cases c with
  | store c => cases c <;> first | rfl | cases h
  | _ => first | rfl | cases h

theorem isAside_of_isTending {c : Call} (h : c.isTending = true) : c.isAside = true := by
  cases c with
  | store c => cases c <;> first | rfl | cases h
  | _ => first | rfl | cases h

theorem isAside_of_isDrawing {c : Call} (h : c.isDrawing = true) : c.isAside = true := by
  cases c <;> first | rfl | cases h

end Call

/-! ## The conduct -/

/-- How far an operation has got with its reports. -/
structure Report where
  /-- The task that the operation observes, if that is what it is for. -/
  observed : Option TaskId := none
  /-- The task whose row was found last. -/
  found : Option TaskId := none
  /-- What has been read and is about to be published. -/
  read : Option (TaskId × State) := none
  owed : List TaskId := []

namespace Report

/-- The calls that are in order: what has been read is published before anything else. -/
def allows (g : Report) : Call → Prop
  | .publish id state => g.read = some (id, state)
  | .subscribe id _ => g.read = none ∧ g.found = some id ∧ g.observed = some id
  | _ => g.read = none

/-- The answers that may be counted on: reads do not fail, rows do not get lost. -/
def expects (g : Report) : (c : Call) → c.Answer → Prop
  | .store (.get id), Except.ok (row : Option Row) => id ∈ g.owed → row.isSome = true
  | .readStatus id, Except.ok (state : Option State) => id ∈ g.owed → state.isSome = true
  | .store (.get _), Except.error _ => False
  | .readStatus _, Except.error _ => False
  | _, _ => True

/-- What an answer makes of the reports. -/
def next (g : Report) : (c : Call) → c.Answer → Report
  | .readStatus id, Except.ok (some state) => { g with read := some (id, state) }
  | .publish id _, _ => { g with read := none, owed := g.owed.filter (· ≠ id) }
  | c, a => { g with found := (c.finds? a).or g.found, owed := c.stirs a ++ g.owed }

/-- No report is half done, and none is owed but on some tasks. -/
structure OwesOnly (g : Report) (ids : List TaskId) : Prop where
  idle : g.read = none
  owed : g.owed ⊆ ids

end Report

/-- The task that a job observes. -/
def Job.observed? : Job → Option TaskId
  | observe id => some id
  | _ => none

/-- The conduct of operations towards those who observe tasks. -/
def reporting : Conduct Report where
  admits _ := True
  idle := {}
  start job := { observed := job.observed? }
  gone := {}
  allows := Report.allows
  expects := Report.expects
  next := Report.next
  final g := g.OwesOnly []
  final_gone := ⟨rfl, List.Subset.refl _⟩

namespace Report

variable {g : Report} {id : TaskId} {ids : List TaskId}

theorem OwesOnly.nothing (h : g.OwesOnly []) : g.owed = [] := List.subset_nil.1 h.owed

/-- A call to the store adds the tasks that its answer leaves to be reported on. -/
theorem OwesOnly.store (h : g.OwesOnly ids) (c : StoreCall) (a : c.Answer) :
    (g.next (.store c) a).OwesOnly ((Call.store c).stirs a ++ ids) :=
  ⟨h.idle, List.append_subset.2
    ⟨List.subset_append_left _ _, List.Subset.trans h.owed (List.subset_append_right _ _)⟩⟩

theorem OwesOnly.publish (h : g.OwesOnly (id :: ids)) (state : State) :
    (next { g with read := some (id, state) } (.publish id state) ()).OwesOnly ids where
  idle := rfl
  owed id' hid' := by
    obtain ⟨howed, hne⟩ := List.mem_filter.1 hid'
    exact (List.mem_cons.1 (h.owed howed)).resolve_left (of_decide_eq_true hne)

/-- What is not owed need not be reported on. -/
theorem OwesOnly.tail (h : g.OwesOnly (id :: ids)) (hno : id ∉ g.owed) : g.OwesOnly ids where
  idle := h.idle
  owed id' hid' := by
    refine (List.mem_cons.1 (h.owed hid')).resolve_left ?_
    intro heq
    exact hno (heq ▸ hid')

/-- What has nothing to do with states changes nothing about what is owed. -/
theorem OwesOnly.aside (h : g.OwesOnly ids) {c : Call} (hc : c.isAside = true) (a : c.Answer) :
    (g.next c a).OwesOnly ids := by
  cases c with
  | store c => cases c <;> first | exact h.store _ a | cases hc
  | readStatus | publish | subscribe => cases hc
  | _ => exact h

theorem allows_aside (h : g.read = none) {c : Call} (hc : c.isAside = true) : g.allows c := by
  cases c <;> first | exact h | cases hc

end Report

open Operation Conduct

variable {α : Type} {g : Report} {id : TaskId} {ids : List TaskId} {failed : Report → Prop}

/-! ## Reports -/

theorem reporting_aside {op : Operation α} (h : MakesOnly Call.isAside op) (hg : g.OwesOnly ids)
    {ok : Report → α → Prop} (hok : ∀ g' a, g'.OwesOnly ids → ok g' a)
    (hfailed : ∀ g' : Report, g'.OwesOnly ids → failed g') : reporting.Upholds op g ok failed := by
  have pass (g : Report) (c : Call) (hg : g.OwesOnly ids) (hc : c.isAside = true) :
      reporting.allows g c ∧ ∀ r, (reporting.next g c r).OwesOnly ids :=
    ⟨Report.allows_aside hg.idle hc, fun r => hg.aside hc r⟩
  exact (upholds_of_makesOnly pass h hg).mono (fun g' a hg' => hok g' a hg') hfailed

theorem reporting_ask {c : Call} (hc : c.isAside = true) (hg : g.OwesOnly ids)
    {ok : Report → c.Answer → Prop} (hok : ∀ g' a, g'.OwesOnly ids → ok g' a) :
    reporting.Upholds (ask c) g ok failed :=
  ⟨Report.allows_aside hg.idle hc, fun a _ => hok _ a (hg.aside hc a)⟩

theorem reporting_notify (kind : EventKind) (attempt : Option UInt32) (detail : Option String)
    (hg : g.OwesOnly ids) {ok : Report → Unit → Prop} (hok : ∀ g', g'.OwesOnly ids → ok g' ()) :
    reporting.Upholds (notify kind id attempt detail) g ok failed := by
  unfold notify
  rw [upholds_bind]
  exact reporting_ask rfl hg fun g' _ hg' => reporting_ask rfl hg' fun g' _ => hok g'

/-- To publish what the store has settles the report on a task. -/
theorem reporting_refresh (hg : g.OwesOnly (id :: ids)) {ok : Report → Unit → Prop}
    (hok : ∀ g', g'.OwesOnly ids → ok g' ()) : reporting.Upholds (refresh id) g ok failed := by
  refine ⟨hg.idle, fun r hr => ?_⟩
  rcases r with failure | _ | state
  · exact hr.elim
  · exact hok _ (hg.tail fun howed => absurd (hr howed) Bool.false_ne_true)
  · exact ⟨rfl, fun _ _ => hok _ (hg.publish state)⟩

theorem reporting_publishStatus (hg : g.OwesOnly (id :: ids)) {ok : Report → Unit → Prop}
    (hok : ∀ g', g'.OwesOnly ids → ok g' ()) :
    reporting.Upholds (publishStatus id) g ok failed := by
  unfold publishStatus
  rw [upholds_ignoringFailure]
  exact reporting_refresh hg hok

/-! ## Operations -/

/-- What is asked of an operation: to owe nothing in the end, if it owes nothing at first. -/
abbrev Conduct.Reports (op : Operation α) (g : Report) : Prop :=
  reporting.Upholds op g (fun g' _ => g'.OwesOnly []) fun g' => g'.OwesOnly []

variable {s : Scheduler}

theorem reports_aside {op : Operation α} (h : MakesOnly Call.isAside op) (hg : g.OwesOnly []) :
    Reports op g :=
  reporting_aside h hg (fun _ _ hg' => hg') fun _ hg' => hg'

theorem reports_armForNextRun (row : Row) (now : UInt64) (hg : g.OwesOnly []) :
    Reports (armForNextRun row now) g :=
  reports_aside
    ((Scheduler.tending_armForNextRun row now).mono fun _ => Call.isAside_of_isTending) hg

theorem reports_submit (request : Request) (hg : g.OwesOnly []) :
    Reports (s.submit request) g := by
  unfold Scheduler.submit
  simp only [upholds_bind]
  refine reporting_ask rfl hg fun g₁ now hg₁ => upholds_normalize s request now (fun n => ?_) hg₁
  refine reporting_ask rfl hg₁ fun g₂ id hg₂ => ?_
  refine (upholds_store _).2 ⟨hg₂.idle, fun a _ => ?_, fun failure _ => hg₂.store _ _⟩
  refine reporting_publishStatus (hg₂.store _ (Except.ok a)) fun g₃ hg₃ => ?_
  refine reporting_notify _ _ _ hg₃ fun g₄ hg₄ => ?_
  exact reports_armForNextRun _ now hg₄

theorem reporting_afterCancel (hg : g.OwesOnly (id :: ids)) {ok : Report → Unit → Prop}
    (hok : ∀ g', g'.OwesOnly ids → ok g' ()) :
    reporting.Upholds (Scheduler.afterCancel id) g ok failed := by
  unfold Scheduler.afterCancel
  simp only [upholds_bind, upholds_ignoringFailure]
  have reported (g' : Report) (hg' : g'.OwesOnly (id :: ids)) : reporting.Upholds (publishStatus id)
      g' (fun g' _ => reporting.Upholds (notify .cancelled id none none) g' ok failed) failed :=
    reporting_publishStatus hg' fun g'' hg'' => reporting_notify _ _ _ hg'' hok
  -- whether or not the platform has dropped the wake-up
  exact reporting_aside (MakesOnly.disarm rfl) hg (fun g' _ => reported g') reported

theorem reports_cancel (id : TaskId) (hg : g.OwesOnly []) : Reports (Scheduler.cancel id) g := by
  unfold Scheduler.cancel
  simp only [upholds_bind, upholds_ite, upholds_throw, upholds_pure]
  refine (upholds_store _).2 ⟨hg.idle, fun row _ => ?_, fun failure hf => hf.elim⟩
  have hg₁ := hg.store (.get id) (Except.ok row)
  refine ⟨fun _ => hg₁, fun _ => reporting_ask rfl hg₁ fun g₂ now hg₂ => ?_⟩
  refine (upholds_store _).2 ⟨hg₂.idle, fun moved _ => ?_, fun failure _ => hg₂.store _ _⟩
  have hg₃ := hg₂.store (.transition id State.cancellable .cancelled now) (Except.ok moved)
  rw [show (Call.store (.transition id State.cancellable .cancelled now)).stirs (Except.ok moved)
    = if moved = 0 then [] else [id] from rfl] at hg₃
  constructor
  · intro hmoved
    rw [if_pos hmoved] at hg₃
    exact hg₃
  · intro hmoved
    rw [if_neg hmoved] at hg₃
    exact reporting_afterCancel hg₃ fun _ hg₄ => hg₄

theorem reports_cancelAll (hg : g.OwesOnly []) : Reports Scheduler.cancelAll g := by
  unfold Scheduler.cancelAll
  simp only [upholds_bind, upholds_pure]
  refine reporting_ask rfl hg fun g₁ now hg₁ => ?_
  refine (upholds_store _).2 ⟨hg₁.idle, fun ids _ => ?_, fun failure _ => hg₁.store _ _⟩
  have hg₂ := hg₁.store (.transitionAll State.cancellable .cancelled now) (Except.ok ids)
  rw [List.append_nil] at hg₂
  exact upholds_forM (fun rest g => g.OwesOnly rest)
    (fun id rest g hg => reporting_afterCancel hg fun _ hg' => hg') ids hg₂

theorem reports_reschedule (id : TaskId) (request : Request) (hg : g.OwesOnly []) :
    Reports (s.reschedule id request) g := by
  unfold Scheduler.reschedule
  simp only [upholds_bind]
  refine reporting_ask rfl hg fun g₁ now hg₁ => upholds_normalize s request now (fun n => ?_) hg₁
  refine (upholds_store _).2 ⟨hg₁.idle, fun outcome _ => ?_, fun failure _ => hg₁.store _ _⟩
  have hg₂ := hg₁.store (.replaceSpec id n.spec n.nextRunMs now) (Except.ok outcome)
  cases outcome with
  | notFound | running => exact hg₂
  | replaced =>
    simp only [upholds_bind]
    refine (upholds_store _).2 ⟨hg₂.idle, fun row hrow => ?_, fun failure hf => hf.elim⟩
    have hg₃ := hg₂.store (.get id) (Except.ok row)
    cases row with
    | none => exact hg₃.tail fun howed => absurd (hrow howed) Bool.false_ne_true
    | some row =>
      simp only [upholds_bind]
      refine reporting_publishStatus hg₃ fun g₄ hg₄ => ?_
      refine reporting_notify _ _ _ hg₄ fun g₅ hg₅ => ?_
      exact reports_armForNextRun row now hg₅

/-- A subscription is taken out for a row that was found, and is reported on like a change. -/
theorem reports_observe (id : TaskId) (hg : g.OwesOnly []) (hobserved : g.observed = some id) :
    Reports (Scheduler.observe id) g := by
  unfold Scheduler.observe
  simp only [upholds_bind]
  refine (upholds_store _).2 ⟨hg.idle, fun row _ => ?_, fun failure hf => hf.elim⟩
  have hg₁ := hg.store (.get id) (Except.ok row)
  cases row with
  | none => exact hg₁
  | some row =>
    simp only [upholds_bind]
    refine ⟨⟨hg₁.idle, rfl, hobserved⟩, fun key _ => ?_⟩
    have hg₂ : (reporting.next (reporting.next g (.store (.get id)) (Except.ok (some row)))
        (.subscribe id row.state) key).OwesOnly [id] :=
      ⟨hg₁.idle, List.cons_subset_cons id hg₁.owed⟩
    exact (reporting_refresh hg₂ fun _ hg₃ => hg₃).tryCatch

theorem reporting_complete (row : Row) (d : Decision) (now : UInt64) (hg : g.OwesOnly [])
    {ok : Report → Bool → Prop} (hok : ∀ g' applied, g'.OwesOnly [] → ok g' applied)
    (hfailed : ∀ g' : Report, g'.OwesOnly [] → failed g') :
    reporting.Upholds (Scheduler.complete row d now) g ok failed := by
  unfold Scheduler.complete
  simp only [upholds_bind, upholds_ite, upholds_pure]
  refine (upholds_store _).2
    ⟨hg.idle, fun applied _ => ?_, fun failure _ => hfailed _ (hg.store _ _)⟩
  have hg₁ := hg.store (.complete row.id d.completion (d.entry row now)) (Except.ok applied)
  cases applied with
  | true =>
    refine ⟨fun _ => ?_, fun hnot => absurd rfl hnot⟩
    refine reporting_publishStatus hg₁ fun g₂ hg₂ => ?_
    exact reporting_notify _ _ _ hg₂ fun g₃ hg₃ => hok g₃ true hg₃
  | false => exact ⟨fun happlied => absurd happlied Bool.false_ne_true, fun _ => hok _ false hg₁⟩

theorem reports_failUnavailable (row : Row) (fault : PayloadFault) (hg : g.OwesOnly []) :
    Reports (Scheduler.failUnavailable row fault) g := by
  unfold Scheduler.failUnavailable
  simp only [upholds_bind, upholds_throw]
  refine reporting_ask rfl hg fun g₁ now hg₁ => ?_
  exact reporting_complete row _ now hg₁ (fun _ _ hg₂ => hg₂) fun _ hg₂ => hg₂

theorem reports_runClaimed (row : Row) (payload : Payload) (hg : g.OwesOnly []) :
    Reports (s.runClaimed row payload) g := by
  unfold Scheduler.runClaimed
  simp only [upholds_bind, upholds_pure]
  refine reporting_ask rfl hg fun g₁ ending hg₁ => reporting_ask rfl hg₁ fun g₂ now hg₂ => ?_
  have drawing := (Scheduler.drawing_decide (Verdict.ofResult row now (WorkEnding.result ending))
    s.config.maxBackoffMs row now).mono fun _ => Call.isAside_of_isDrawing
  refine reporting_aside drawing hg₂ (fun g₃ d hg₃ => ?_) fun _ hg₃ => hg₃
  exact reporting_complete row d now hg₃ (fun _ _ hg₄ => hg₄) fun _ hg₄ => hg₄

/-- A cycle reports twice: on its claim, and on what has come of it. -/
theorem reports_execute (id : TaskId) (hg : g.OwesOnly []) : Reports (s.execute id) g := by
  unfold Scheduler.execute
  simp only [upholds_bind]
  refine reporting_ask rfl hg fun g₁ now hg₁ => ?_
  refine (upholds_store _).2 ⟨hg₁.idle, fun claimed _ => ?_, fun failure _ => hg₁.store _ _⟩
  have hg₂ := hg₁.store (.claim id now) (Except.ok claimed)
  cases claimed with
  | none => exact hg₂
  | some row =>
    simp only [upholds_bind]
    refine reporting_publishStatus hg₂ fun g₃ hg₃ => reporting_notify _ _ _ hg₃ fun g₄ hg₄ => ?_
    cases s.registry.instantiate row.spec.payloadTypeId row.spec.payloadData with
    | error fault => exact reports_failUnavailable row fault hg₄
    | ok payload => exact reports_runClaimed row payload hg₄

theorem reports_dispatch (id : TaskId) (hg : g.OwesOnly []) : Reports (s.dispatch id) g := by
  unfold Scheduler.dispatch
  simp only [upholds_bind]
  refine (reports_execute id hg).mono (fun g₁ outcome hg₁ => ?_) fun _ hg₁ => hg₁
  cases outcome with
  | none => exact hg₁
  | some o =>
    simp only [upholds_bind, upholds_pure]
    exact reports_aside
      ((Scheduler.tending_follow id o).mono fun _ => Call.isAside_of_isTending) hg₁

/-- **No operation comes to its end before it has reported on all that it has changed.** -/
theorem reporting_governs (s : Scheduler) : reporting.Governs s := by
  intro job _
  have start : (reporting.start job).OwesOnly [] := ⟨rfl, List.Subset.refl _⟩
  have fresh {α : Type} {op : Operation α} (h : Reports op (reporting.start job)) :
      reporting.Keeps (fun g _ => reporting.final g) op.program (reporting.start job) :=
    (reporting.keeps_program op _).2 h
  have aside {α : Type} {op : Operation α} {kind : Call → Bool} (h : MakesOnly kind op)
      (hkind : ∀ c, kind c = true → c.isAside = true) :
      reporting.Keeps (fun g _ => reporting.final g) op.program (reporting.start job) :=
    fresh (reports_aside (h.mono hkind) start)
  cases job with
  | submit request => exact fresh (reports_submit request start)
  | execute id => exact fresh (reports_execute id start)
  | dispatch id => exact fresh (reports_dispatch id start)
  | cancel id => exact fresh (reports_cancel id start)
  | cancelAll => exact fresh (reports_cancelAll start)
  | reschedule id request => exact fresh (reports_reschedule id request start)
  | tick => exact aside Scheduler.tending_tick fun _ => Call.isAside_of_isTending
  | taskStatus id => exact aside (Scheduler.looks_taskStatus id) fun _ => Call.isAside_of_isLooking
  | list => exact aside Scheduler.looks_list fun _ => Call.isAside_of_isLooking
  | executionLog id => exact aside (MakesOnly.store (c := .logs id) rfl) fun _ hc => hc
  | observe id => exact fresh (reports_observe id start rfl)
  | unsubscribe key => exact aside (MakesOnly.ask (c := .unsubscribe key) rfl) fun _ hc => hc
  | record id handle =>
    exact aside (MakesOnly.store (c := .setPlatformId id handle) rfl) fun _ hc => hc

end BackgroundTasks
