import BackgroundTasks.Proofs.Custody

/-!
# What a wake-up is armed for

An operation arms a task for a run that it has been told of, and no earlier: it has inserted the
row, read it, found it due, or completed it, and it has read the clock. The delay that it asks for
reaches from a time that it has read to the run, or beyond.

Between being told and arming an operation does other things, so it may arm for a run that is out
of date by then. Which run it was told of, and when, is all that is recorded here.
-/

namespace BackgroundTasks

/-- A delay that is counted from `now` on leads to `next`, or beyond. -/
def Span.Reaches (delay : Span) (now next : UInt64) : Prop :=
  next.toNat * 1000000 ≤ now.toNat * 1000000 + delay.nanos

namespace Call

/-- The next runs that an answer tells of. -/
def runs : (c : Call) → c.Answer → List (TaskId × UInt64)
  | store (.insert row), Except.ok _ => [(row.id, row.nextRunMs)]
  | store (.get _), Except.ok (some row) => [(row.id, row.nextRunMs)]
  | store (.due _), Except.ok (rows : List Row) => rows.map fun row => (row.id, row.nextRunMs)
  | store (.complete id c _), Except.ok true => (c.nextRunMs.map fun next => (id, next)).toList
  | _, _ => []

/-- The time that an answer tells. -/
def times : (c : Call) → c.Answer → List UInt64
  | now, time => [time]
  | _, _ => []

end Call

/-- What an operation has been told. -/
structure Told where
  /-- The task whose cycle the operation runs. -/
  cycle : Option TaskId := none
  runs : List (TaskId × UInt64) := []
  times : List UInt64 := []

namespace Told

/-- The calls that are in order. -/
def allows (g : Told) : Call → Prop
  | .store (.claim id _) => g.cycle = some id
  | .arm id delay _ => ∃ next now, (id, next) ∈ g.runs ∧ now ∈ g.times ∧ delay.Reaches now next
  | _ => True

/-- The answers that may be counted on: what is due has its time behind it. -/
def expects (_ : Told) : (c : Call) → c.Answer → Prop
  | .store (.due now), Except.ok (rows : List Row) => ∀ row ∈ rows, row.nextRunMs ≤ now
  | _, _ => True

/-- What an answer adds. -/
def next (g : Told) (c : Call) (a : c.Answer) : Told :=
  { g with runs := c.runs a ++ g.runs, times := c.times a ++ g.times }

/-- Nothing is forgotten. -/
structure Within (g g' : Told) : Prop where
  runs : g.runs ⊆ g'.runs
  times : g.times ⊆ g'.times

theorem Within.refl (g : Told) : g.Within g := ⟨List.Subset.refl _, List.Subset.refl _⟩

theorem Within.trans {g g' g'' : Told} (h : g.Within g') (h' : g'.Within g'') : g.Within g'' :=
  ⟨fun _ hm => h'.runs (h.runs hm), fun _ hm => h'.times (h.times hm)⟩

theorem within_next (g : Told) (c : Call) (a : c.Answer) : g.Within (g.next c a) :=
  ⟨List.subset_append_right _ _, List.subset_append_right _ _⟩

end Told

/-- The conduct of operations towards the time of their tasks. -/
def timing : Conduct Told where
  admits _ := True
  idle := {}
  start job := match job with
    | .execute id | .dispatch id => { cycle := some id }
    | _ => {}
  gone := {}
  allows := Told.allows
  expects := Told.expects
  next := Told.next
  final _ := True
  final_gone := trivial

open Operation Conduct

variable {s : Scheduler} {α β : Type} {g : Told}

/-! ## Operations that arm nothing -/

/-- Whatever has been told, the operation is in order, and forgets nothing. -/
def Harmless (op : Operation α) : Prop :=
  ∀ g, timing.Upholds op g (fun g' _ => g.Within g') g.Within

/-- Whether a call neither claims a row nor arms a task. -/
def Call.isHarmless : Call → Bool
  | store (.claim ..) | arm .. => false
  | _ => true

theorem Call.isHarmless_of_isIdle {c : Call} (h : c.isIdle = true) : c.isHarmless = true := by
  cases c with
  | store c => cases c <;> first | rfl | cases h
  | arm => cases h
  | _ => rfl

section Harmless

variable {op : Operation α} {f : α → Operation β}

/-- A harmless call is always in order, and nothing is forgotten over it. -/
theorem harmless_call {g g' : Told} {c : Call} (hg : g.Within g') (hc : c.isHarmless = true) :
    timing.allows g' c ∧ ∀ r, g.Within (timing.next g' c r) := by
  refine ⟨?_, fun r => hg.trans (g'.within_next c r)⟩
  cases c with
  | store c => cases c <;> first | exact trivial | cases hc
  | arm => cases hc
  | _ => exact trivial

theorem harmless_of_makesOnly (h : MakesOnly Call.isHarmless op) : Harmless op :=
  fun g => upholds_of_makesOnly (fun _ _ => harmless_call) h (.refl g)

theorem harmless_of_idle (h : MakesOnly Call.isIdle op) : Harmless op :=
  harmless_of_makesOnly (h.mono fun _ => Call.isHarmless_of_isIdle)

/-- After an operation that is harmless everything is known that was known before. -/
theorem Harmless.then (h : Harmless op) {ok : Told → β → Prop} {failed : Told → Prop}
    (hf : ∀ g' a, g.Within g' → timing.Upholds (f a) g' ok failed)
    (hfailed : ∀ g', g.Within g' → failed g') : timing.Upholds (op >>= f) g ok failed := by
  rw [upholds_bind]
  exact (h g).mono (fun g' a hg => hf g' a hg) hfailed

theorem harmless_pure (a : α) : Harmless (pure a) := harmless_of_makesOnly (.pure a)

theorem harmless_ask {c : Call} (hc : c.isHarmless = true) : Harmless (ask c) :=
  harmless_of_makesOnly (.ask hc)

theorem harmless_store {c : StoreCall} (hc : (Call.store c).isHarmless = true) :
    Harmless (store c) :=
  harmless_of_makesOnly (.store hc)

theorem harmless_publishStatus (id : TaskId) : Harmless (publishStatus id) :=
  harmless_of_makesOnly (.publishStatus rfl fun _ => rfl)

theorem harmless_notify (kind : EventKind) (id : TaskId) (attempt : Option UInt32)
    (detail : Option String) : Harmless (notify kind id attempt detail) :=
  harmless_of_makesOnly (.notify rfl fun _ => rfl)

theorem harmless_normalize (request : Request) (now : UInt64) :
    Harmless (s.normalize request now) :=
  harmless_of_makesOnly (.normalize s request now)

end Harmless

/-! ## Operations that arm -/

theorem reaches_delayFrom (row : Row) (now : UInt64) :
    (Span.ofMillis (row.delayFrom now)).Reaches now row.nextRunMs := by
  have hdelay := toNat_satSub row.nextRunMs now
  unfold Span.Reaches Span.ofMillis Row.delayFrom
  dsimp only
  omega

theorem reaches_zero {now next : UInt64} (h : next ≤ now) : Span.zero.Reaches now next := by
  have hnow := UInt64.le_iff_toNat_le.1 h
  unfold Span.Reaches Span.zero
  dsimp only
  omega

theorem timing_armAndRecord {row : Row} {delay : Span} {next now : UInt64}
    (hrun : (row.id, next) ∈ g.runs) (hnow : now ∈ g.times) (hdelay : delay.Reaches now next) :
    timing.Upholds (armAndRecord row delay) g (fun g' _ => g.Within g') g.Within := by
  unfold armAndRecord
  rw [upholds_bind, upholds_arm]
  refine ⟨⟨next, now, hrun, hnow, hdelay⟩, fun handle _ => ?_, fun _ _ => g.within_next _ _⟩
  have hrecord : Harmless (if handle ≠ row.platformId then store (.setPlatformId row.id handle)
      else pure ()) :=
    harmless_of_makesOnly (.ite (.store rfl) (.pure ()))
  exact (hrecord _).mono (fun _ _ => (g.within_next _ _).trans) fun _ => (g.within_next _ _).trans

theorem timing_armForNextRun {row : Row} {now : UInt64}
    (hrun : (row.id, row.nextRunMs) ∈ g.runs) (hnow : now ∈ g.times) :
    timing.Upholds (armForNextRun row now) g (fun g' _ => g.Within g') g.Within := by
  unfold armForNextRun
  rw [upholds_ignoringFailure]
  exact timing_armAndRecord hrun hnow (reaches_delayFrom row now)

/-- What an operation may end with. -/
abbrev Conduct.Abides (op : Operation α) (g : Told) : Prop :=
  timing.Upholds op g (fun _ _ => True) fun _ => True

theorem Harmless.abides {op : Operation α} (h : Harmless op) (g : Told) : Abides op g :=
  (h g).mono (fun _ _ _ => trivial) fun _ _ => trivial

/-- What is armed last before an operation ends. -/
theorem abides_armForNextRun {row : Row} {now : UInt64} {op : Operation α}
    (hrun : (row.id, row.nextRunMs) ∈ g.runs) (hnow : now ∈ g.times) (hop : Harmless op) :
    Abides (armForNextRun row now >>= fun _ => op) g := by
  rw [Abides, upholds_bind]
  exact (timing_armForNextRun hrun hnow).mono (fun g' _ _ => hop.abides g') fun _ _ => trivial

theorem timing_now {ok : Told → UInt64 → Prop} {failed : Told → Prop}
    (h : ∀ time, ok (g.next .now time) time) : timing.Upholds now g ok failed :=
  ⟨trivial, fun time _ => h time⟩

theorem timing_submit (request : Request) : Abides (s.submit request) g := by
  unfold Scheduler.submit
  rw [Abides, upholds_bind]
  refine timing_now fun now => ?_
  have hnow : now ∈ (g.next .now now).times := List.mem_cons_self
  refine (harmless_normalize request now).then (fun g₁ n hg₁ => ?_) fun _ _ => trivial
  refine (harmless_ask (c := .newId) rfl).then (fun g₂ id hg₂ => ?_) fun _ _ => trivial
  rw [upholds_bind, upholds_store]
  refine ⟨trivial, fun _ _ => ?_, fun _ _ => trivial⟩
  refine (harmless_publishStatus id).then (fun g₃ _ hg₃ => ?_) fun _ _ => trivial
  refine (harmless_notify _ id _ _).then (fun g₄ _ hg₄ => ?_) fun _ _ => trivial
  have hinserted := hg₃.trans hg₄
  refine abides_armForNextRun ?_ ?_ (harmless_pure _)
  · exact hinserted.runs List.mem_cons_self
  · exact hinserted.times ((Told.within_next _ _ _).times ((hg₁.trans hg₂).times hnow))

theorem timing_reschedule (id : TaskId) (request : Request) :
    Abides (s.reschedule id request) g := by
  unfold Scheduler.reschedule
  rw [Abides, upholds_bind]
  refine timing_now fun now => ?_
  have hnow : now ∈ (g.next .now now).times := List.mem_cons_self
  refine (harmless_normalize request now).then (fun g₁ n hg₁ => ?_) fun _ _ => trivial
  refine (harmless_store (c := .replaceSpec id n.spec n.nextRunMs now) rfl).then
    (fun g₂ outcome hg₂ => ?_) fun _ _ => trivial
  cases outcome with
  | notFound | running => trivial
  | replaced =>
    show Abides (store (.get id) >>= _) g₂
    rw [Abides, upholds_bind, upholds_store]
    refine ⟨trivial, fun row _ => ?_, fun _ _ => trivial⟩
    cases row with
    | none => trivial
    | some row =>
      refine (harmless_publishStatus id).then (fun g₃ _ hg₃ => ?_) fun _ _ => trivial
      refine (harmless_notify _ id _ _).then (fun g₄ _ hg₄ => ?_) fun _ _ => trivial
      have hread := hg₃.trans hg₄
      refine abides_armForNextRun ?_ ?_ (harmless_pure _)
      · exact hread.runs List.mem_cons_self
      · exact hread.times ((Told.within_next _ _ _).times ((hg₁.trans hg₂).times hnow))

/-- A row that is due is armed for a run whose time has come. -/
theorem timing_rescue {row : Row} {now : UInt64} (hrun : (row.id, row.nextRunMs) ∈ g.runs)
    (hnow : now ∈ g.times) (hdue : row.nextRunMs ≤ now) :
    timing.Upholds (Scheduler.rescue now row) g (fun g' _ => g.Within g') g.Within := by
  have hasked : Harmless (Scheduler.isOrphan row) :=
    harmless_of_makesOnly (((MakesOnly.isArmed rfl).map _).orElse _)
  unfold Scheduler.rescue
  refine hasked.then (fun g₁ orphan hg₁ => ?_) fun _ hg => hg
  rw [upholds_ite]
  refine ⟨fun _ => ?_, fun _ => hg₁⟩
  have harmed : timing.Upholds (orElse (do armAndRecord row .zero; return true) false) g₁
      (fun g' _ => g.Within g') g.Within := by
    rw [upholds_orElse, upholds_bind]
    exact (timing_armAndRecord (hg₁.runs hrun) (hg₁.times hnow) (reaches_zero hdue)).mono
      (fun _ _ => hg₁.trans) fun _ => hg₁.trans
  rw [upholds_bind]
  refine harmed.mono (fun g₂ armed hg₂ => ?_) fun _ hg => hg
  have hrest : Harmless (do
      if armed then emit ⟨.orphanRearmed, some row.id, none, now, none⟩
      return armed) :=
    harmless_of_makesOnly (((MakesOnly.ask rfl).bind fun _ => .pure _).ite (.pure _))
  exact (hrest g₂).mono (fun _ _ => hg₂.trans) fun _ => hg₂.trans

theorem timing_tick : Abides Scheduler.tick g := by
  unfold Scheduler.tick
  rw [Abides, upholds_bind]
  refine timing_now fun now => ?_
  have hnow : now ∈ (g.next .now now).times := List.mem_cons_self
  rw [upholds_bind, upholds_store]
  refine ⟨trivial, fun due hdue => ?_, fun _ _ => trivial⟩
  -- what the watchdog has been told of the rows that are left, it still knows
  let left (rest : List Row) (g' : Told) : Prop :=
    now ∈ g'.times ∧ ∀ row ∈ rest, (row.id, row.nextRunMs) ∈ g'.runs ∧ row.nextRunMs ≤ now
  have round (row : Row) (rest : List Row) (g' : Told) (hg' : left (row :: rest) g') :
      timing.Upholds (Scheduler.rescue now row) g' (fun g'' _ => left rest g'') fun _ => True := by
    obtain ⟨htime, hrows⟩ := hg'
    obtain ⟨⟨hrun, hrow⟩, hrest⟩ := List.forall_mem_cons.1 hrows
    refine (timing_rescue hrun htime hrow).mono (fun g'' _ hg'' => ?_) fun _ _ => trivial
    exact ⟨hg''.times htime, fun r hr => ⟨hg''.runs (hrest r hr).1, (hrest r hr).2⟩⟩
  have hfirst : left due ((g.next .now now).next (.store (.due now)) (Except.ok due)) :=
    ⟨hnow, fun row hrow =>
      ⟨List.mem_append_left _ (List.mem_map.2 ⟨row, hrow, rfl⟩), hdue row hrow⟩⟩
  rw [upholds_bind]
  exact (upholds_mapM left round due hfirst).mono (fun _ _ _ => trivial) fun _ _ => trivial

/-! ## Cycles -/

/-- A decision that asks for another wake-up asks for it in time for the next run. -/
theorem reaches_of_concludes {row : Row} {now : UInt64} {d : Decision} (h : Concludes row now d)
    {id : TaskId} {spec : Spec} {delayMs : UInt64} (ho : d.outcome = .again id spec delayMs) :
    id = row.id ∧ ∃ next, d.completion.nextRunMs = some next ∧
      (Span.ofMillis delayMs).Reaches now next := by
  cases h with
  | succeeded | failed => cases ho
  | comesBack next =>
    cases ho
    refine ⟨rfl, next, rfl, ?_⟩
    have hdelay := UInt64.toNat_sub next now
    have hlt := now.toNat_lt
    have hlt' := next.toNat_lt
    unfold Span.Reaches Span.ofMillis
    dsimp only
    omega
  | retried delay =>
    cases ho
    refine ⟨rfl, satAdd now delayMs, rfl, ?_⟩
    have hsum := toNat_satAdd now delayMs
    unfold Span.Reaches Span.ofMillis
    dsimp only
    omega

/-- What a cycle knows of the wake-up that its outcome asks for. -/
def RunOutcome.Informed (g : Told) : Option RunOutcome → Prop
  | some (.again id _ delayMs) => ∃ next now, (id, next) ∈ g.runs ∧ now ∈ g.times
      ∧ (Span.ofMillis delayMs).Reaches now next
  | _ => True

theorem timing_complete {row : Row} {now : UInt64} {d : Decision} (hd : Concludes row now d)
    (hnow : now ∈ g.times) :
    timing.Upholds (Scheduler.complete row d now) g
      (fun g' applied => RunOutcome.Informed g' (if applied then some d.outcome else none))
      fun _ => True := by
  unfold Scheduler.complete
  rw [upholds_bind, upholds_store]
  refine ⟨trivial, fun applied _ => ?_, fun _ _ => trivial⟩
  cases applied with
  | false => trivial
  | true =>
    refine (harmless_publishStatus row.id).then (fun g₁ _ hg₁ => ?_) fun _ _ => trivial
    refine (harmless_notify _ row.id _ _).then (fun g₂ _ hg₂ => ?_) fun _ _ => trivial
    have htold := hg₁.trans hg₂
    show RunOutcome.Informed g₂ (some d.outcome)
    cases ho : d.outcome with
    | succeeded | failed => trivial
    | again id spec delayMs =>
      obtain ⟨rfl, next, hnext, hdelay⟩ := reaches_of_concludes hd ho
      refine ⟨next, now, htold.runs (List.mem_append_left _ ?_), htold.times ?_, hdelay⟩
      · show (row.id, next) ∈ (d.completion.nextRunMs.map fun next => (row.id, next)).toList
        rw [hnext]
        exact List.mem_singleton_self _
      · exact (Told.within_next _ _ _).times hnow

theorem timing_runClaimed (row : Row) (payload : Payload) :
    timing.Upholds (s.runClaimed row payload) g RunOutcome.Informed fun _ => True := by
  unfold Scheduler.runClaimed
  refine (harmless_ask (c := .work payload (Scheduler.attemptOn row)) rfl).then
    (fun g₁ ending _ => ?_) fun _ _ => trivial
  rw [upholds_bind]
  refine timing_now fun now => ?_
  have hnow : now ∈ (g₁.next .now now).times := List.mem_cons_self
  rw [upholds_bind]
  -- the decision is made at the time that was read after the attempt
  refine upholds_decide _ _ (fun _ _ _ => ⟨trivial, fun _ => rfl⟩)
    (fun _ _ => ⟨trivial, fun _ => rfl⟩) fun d hd _ => ?_
  rw [upholds_bind]
  exact timing_complete hd hnow

theorem harmless_complete (row : Row) (d : Decision) (now : UInt64) :
    Harmless (Scheduler.complete row d now) := by
  unfold Scheduler.complete
  refine harmless_of_makesOnly ((MakesOnly.store rfl).bind fun applied => ?_)
  refine MakesOnly.ite ?_ (.pure _)
  refine (MakesOnly.publishStatus rfl fun _ => rfl).bind fun _ => ?_
  exact (MakesOnly.notify rfl fun _ => rfl).bind fun _ => .pure _

theorem timing_execute {id : TaskId} (hcycle : g.cycle = some id) :
    timing.Upholds (s.execute id) g RunOutcome.Informed fun _ => True := by
  unfold Scheduler.execute
  rw [upholds_bind]
  refine timing_now fun now => ?_
  rw [upholds_bind, upholds_store]
  refine ⟨hcycle, fun claimed _ => ?_, fun _ _ => trivial⟩
  cases claimed with
  | none => trivial
  | some row =>
    refine (harmless_publishStatus id).then (fun g₁ _ _ => ?_) fun _ _ => trivial
    refine (harmless_notify _ id _ _).then (fun g₂ _ _ => ?_) fun _ _ => trivial
    cases s.registry.instantiate row.spec.payloadTypeId row.spec.payloadData with
    | ok payload => exact timing_runClaimed row payload
    | error fault =>
      -- a cycle without a payload ends in a failure, and arms nothing
      refine (harmless_ask (c := .now) rfl).then (fun _ _ _ => ?_) fun _ _ => trivial
      exact (harmless_complete _ _ _).then (fun _ _ _ => trivial) fun _ _ => trivial

theorem timing_follow {o : RunOutcome} (id : TaskId) (h : RunOutcome.Informed g (some o)) :
    Abides (Scheduler.follow id o) g := by
  cases o with
  | succeeded | failed =>
    exact (harmless_of_makesOnly (MakesOnly.disarm rfl).ignoringFailure).abides g
  | again next spec delayMs =>
    unfold Scheduler.follow
    rw [Abides, upholds_bind, upholds_orElse, upholds_map, upholds_arm]
    have hrecord (handle : Option String) : Harmless (store (.setPlatformId next handle)) :=
      harmless_store rfl
    exact ⟨h, fun handle _ => (hrecord handle).abides _, fun _ _ => (harmless_pure ()).abides _⟩

theorem timing_dispatch {id : TaskId} (hcycle : g.cycle = some id) : Abides (s.dispatch id) g := by
  unfold Scheduler.dispatch
  rw [Abides, upholds_bind]
  refine (timing_execute hcycle).mono (fun g₁ o ho => ?_) fun _ _ => trivial
  cases o with
  | none => trivial
  | some o =>
    rw [upholds_bind]
    exact (timing_follow id ho).mono (fun _ _ _ => trivial) fun _ _ => trivial

/-- Every job arms only for runs that it has been told of, and claims only the row of its cycle. -/
theorem timing_governs (s : Scheduler) : timing.Governs s := by
  intro job _
  have harmlessly {α : Type} {op : Operation α} {g : Told} (h : Harmless op) :
      timing.Keeps (fun g _ => timing.final g) op.program g :=
    (timing.keeps_program _ _).2 (h.abides g)
  have reading {job : Job} (h : job.onlyReads = true) (g : Told) :
      timing.Keeps (fun g _ => timing.final g) (job.program s) g := by
    refine timing.keeps_mono (fun _ _ _ => trivial)
      (keeps_of_callsOnly (fun _ _ => harmless_call) ((callsOnly_reading h).mono ?_) (.refl g))
    exact fun c hc => Call.isHarmless_of_isIdle (Call.isIdle_of_isReading hc)
  cases job with
  | submit request => exact (timing.keeps_program _ _).2 (timing_submit request)
  | execute id =>
    have hexecute := timing_execute (s := s) (g := timing.start (.execute id)) rfl
    exact (timing.keeps_program _ _).2 (hexecute.mono (fun _ _ _ => trivial) fun _ _ => trivial)
  | dispatch id => exact (timing.keeps_program _ _).2 (timing_dispatch rfl)
  | cancel id => exact harmlessly (harmless_of_idle (Scheduler.idle_cancel id))
  | cancelAll => exact harmlessly (harmless_of_idle Scheduler.idle_cancelAll)
  | reschedule id request => exact (timing.keeps_program _ _).2 (timing_reschedule id request)
  | tick => exact (timing.keeps_program _ _).2 timing_tick
  | taskStatus | list | executionLog | observe | unsubscribe => exact reading rfl _
  | record id handle => exact harmlessly (harmless_store (c := .setPlatformId id handle) rfl)

end BackgroundTasks
