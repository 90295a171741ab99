import BackgroundTasks.Proofs.Deeds
import BackgroundTasks.Proofs.Interleaving.Calls

/-!
# Where descriptions come from

A row gets a description twice: when it is added, and when it is given a new schedule. Both times it
is what a request was turned into just before, with the scheduler's own configuration. Everything
else that operations do leaves descriptions alone.
-/

namespace BackgroundTasks

variable {s : Scheduler} {α : Type}

/-- A description, and the time of the first run, as a request made at `now` comes to. -/
def Scheduler.Describes (s : Scheduler) (spec : Spec) (nextRunMs now : UInt64) : Prop :=
  ∃ request : Request, request.normalize s.registry now s.config = .ok ⟨spec, nextRunMs⟩

/-- A request comes to something when it passes every check. -/
theorem Request.normalize_eq_ok {r : Request} {registry : Registry} {now : UInt64}
    {config : Config} {n : NormalizedRequest} (h : r.normalize registry now config = .ok n) :
    ∃ schedule jitter multiplier serialized, r.schedule.normalize = .ok schedule
      ∧ r.retry.checkedJitter = .ok jitter
      ∧ r.retry.checkedMultiplier config.defaultBackoffMultiplier = .ok multiplier
      ∧ registry.serialize r.payload = .ok serialized
      ∧ n.nextRunMs = satAdd now n.spec.initialDelayMs
      ∧ n.spec = {
          payloadTypeId := serialized.typeId
          payloadData := serialized.data
          priority := r.priority.ordinal
          conditions := r.conditions
          recurrence := schedule.recurrence
          initialDelayMs := schedule.initialDelay.toMillis
          intervalMs := schedule.interval.toMillis
          flexMs := schedule.flex.toMillis
          growth := r.retry.growth
          backoffDelayMs := (r.retry.delay.map Span.toMillis).getD config.defaultBackoffDelayMs
          backoffMultiplier := multiplier
          backoffJitter := match r.retry.growth with | .exponential => jitter | .linear => 0.0
          maxRetries :=
            min (r.retry.maxRetries.getD config.defaultMaxRetries) config.maxRetriesCeiling } := by
  unfold normalize at h
  cases hschedule : r.schedule.normalize with
  | error fault => rw [hschedule] at h; cases h
  | ok schedule =>
  rw [hschedule] at h
  cases hjitter : r.retry.checkedJitter with
  | error fault => rw [hjitter] at h; cases h
  | ok jitter =>
  rw [hjitter] at h
  cases hmultiplier : r.retry.checkedMultiplier config.defaultBackoffMultiplier with
  | error fault => rw [hmultiplier] at h; cases h
  | ok multiplier =>
  rw [hmultiplier] at h
  cases hserialized : registry.serialize r.payload with
  | error fault => rw [hserialized] at h; cases h
  | ok serialized =>
  rw [hserialized] at h
  cases h
  exact ⟨schedule, jitter, multiplier, serialized, rfl, rfl, rfl, rfl, rfl, rfl⟩

/-- Whether a request that is made at `now` comes to this description and this first run. -/
def Scheduler.makes (s : Scheduler) (request : Request) (spec : Spec) (nextRunMs now : UInt64) :
    Bool :=
  decide ((request.normalize s.registry now s.config).toOption = some ⟨spec, nextRunMs⟩)

theorem Scheduler.makes_iff {request : Request} {spec : Spec} {nextRunMs now : UInt64} :
    s.makes request spec nextRunMs now = true
      ↔ request.normalize s.registry now s.config = .ok ⟨spec, nextRunMs⟩ := by
  unfold makes
  rw [decide_eq_true_iff]
  cases request.normalize s.registry now s.config with
  | ok n => simp [Except.toOption]
  | error fault => simp [Except.toOption]

namespace Call

/-- Whether a call stores no description but what the request of a job comes to. -/
def describesFor (s : Scheduler) (job : Job) : Call → Bool
  | .store (.insert row) =>
    match job with
    | .submit request =>
      s.makes request row.spec row.nextRunMs row.createdMs
        && row == Row.fresh row.id row.spec row.nextRunMs row.createdMs
    | _ => false
  | .store (.replaceSpec id spec nextRunMs time) =>
    match job with
    | .reschedule target request => target == id && s.makes request spec nextRunMs time
    | _ => false
  | _ => true

variable {job : Job}

theorem describesFor_insert {row : Row} :
    (Call.store (.insert row)).describesFor s job = true
      ↔ ∃ request, job = .submit request
        ∧ request.normalize s.registry row.createdMs s.config = .ok ⟨row.spec, row.nextRunMs⟩
        ∧ row = Row.fresh row.id row.spec row.nextRunMs row.createdMs := by
  cases job with
  | submit request => simp [describesFor, Scheduler.makes_iff]
  | _ => simp [describesFor]

theorem describesFor_replaceSpec {id : TaskId} {spec : Spec} {nextRunMs time : UInt64} :
    (Call.store (.replaceSpec id spec nextRunMs time)).describesFor s job = true
      ↔ ∃ request, job = .reschedule id request
        ∧ request.normalize s.registry time s.config = .ok ⟨spec, nextRunMs⟩ := by
  cases job with
  | reschedule target request =>
    simp only [describesFor, Bool.and_eq_true, beq_iff_eq, Scheduler.makes_iff]
    constructor
    · rintro ⟨rfl, hmakes⟩
      exact ⟨request, rfl, hmakes⟩
    · rintro ⟨_, heq, hmakes⟩
      obtain ⟨rfl, rfl⟩ := Job.reschedule.inj heq
      exact ⟨rfl, hmakes⟩
  | _ => simp [describesFor]

theorem describesFor_of_keepsSpecs {c : Call} (h : c.keepsSpecs = true) :
    c.describesFor s job = true := by
  cases c with
  | store c => cases c <;> first | rfl | cases h
  | _ => rfl

end Call

/-- Whether a call stores no description but one that was made from a request. -/
def Call.StoresDescribed (s : Scheduler) : Call → Prop
  | .store (.insert row) =>
    ∃ id spec next time, row = Row.fresh id spec next time ∧ s.Describes spec next time
  | .store (.replaceSpec _ spec next time) => s.Describes spec next time
  | _ => True

/-- What a job describes, it describes as a request says. -/
theorem Call.storesDescribed_of_describesFor {job : Job} {c : Call}
    (h : c.describesFor s job = true) : c.StoresDescribed s := by
  cases c with
  | store c =>
    cases c with
    | insert row =>
      obtain ⟨request, -, hmakes, hfresh⟩ := describesFor_insert.1 h
      exact ⟨_, _, _, _, hfresh, request, hmakes⟩
    | replaceSpec id spec next now =>
      obtain ⟨request, -, hmakes⟩ := describesFor_replaceSpec.1 h
      exact ⟨request, hmakes⟩
    | _ => trivial
  | _ => trivial

/-- The conduct of operations towards descriptions. It has a single stage. -/
def describing (s : Scheduler) : Conduct Unit where
  admits _ := True
  idle := ()
  start _ := ()
  gone := ()
  allows _ c := c.StoresDescribed s
  expects _ _ _ := True
  next _ _ _ := ()
  final _ := True
  final_gone := trivial

open Operation Conduct

/-- The result of looking at a request is what the request comes to. -/
theorem Conduct.upholds_normalize_eq {S : Type} {C : Conduct S} {g : S} {failed : S → Prop}
    {request : Request} {now : UInt64} {ok : S → NormalizedRequest → Prop}
    (hok : ∀ n, request.normalize s.registry now s.config = .ok n → ok g n) (hfailed : failed g) :
    C.Upholds (s.normalize request now) g ok failed := by
  unfold Scheduler.normalize
  cases h : request.normalize s.registry now s.config with
  | ok n => exact hok n h
  | error fault => exact hfailed

/-- The same, of the calls that are made with the result. -/
theorem MakesOnly.normalize_bind {kind : Call → Bool} {request : Request} {now : UInt64}
    {f : NormalizedRequest → Operation α}
    (h : ∀ n, request.normalize s.registry now s.config = .ok n → MakesOnly kind (f n)) :
    MakesOnly kind (s.normalize request now >>= f) := by
  unfold Scheduler.normalize
  cases hn : request.normalize s.registry now s.config with
  | ok n => exact h n hn
  | error fault => exact MakesOnly.throw _

/-! ## Operations that describe tasks -/

namespace Scheduler

/-- What is done once a description is stored leaves descriptions alone. -/
theorem keepsSpecs_announce (event : EventKind) (row : Row) (id : TaskId) (now : UInt64) :
    MakesOnly Call.keepsSpecs do
      publishStatus id
      notify event id none none
      armForNextRun row now
      return id := by
  refine (MakesOnly.publishStatus rfl fun _ => rfl).bind fun _ => ?_
  refine (MakesOnly.notify rfl fun _ => rfl).bind fun _ => ?_
  refine MakesOnly.bind ?_ fun _ => MakesOnly.pure _
  exact (tending_armForNextRun row now).mono fun _ => Call.keepsSpecs_of_isTending

theorem describesFor_submit (request : Request) :
    MakesOnly (Call.describesFor s (.submit request)) (s.submit request) := by
  unfold submit
  refine (MakesOnly.ask rfl).bind fun now => MakesOnly.normalize_bind fun n hn => ?_
  refine (MakesOnly.ask rfl).bind fun id => ?_
  have hrow : (Call.store (.insert (Row.fresh id n.spec n.nextRunMs now))).describesFor s
      (.submit request) = true := Call.describesFor_insert.2 ⟨request, rfl, hn, rfl⟩
  refine (MakesOnly.store hrow).bind fun _ => ?_
  exact (keepsSpecs_announce _ _ _ now).mono fun _ => Call.describesFor_of_keepsSpecs

theorem describesFor_reschedule (id : TaskId) (request : Request) :
    MakesOnly (Call.describesFor s (.reschedule id request)) (s.reschedule id request) := by
  unfold reschedule
  refine (MakesOnly.ask rfl).bind fun now => MakesOnly.normalize_bind fun n hn => ?_
  have hspec : (Call.store (.replaceSpec id n.spec n.nextRunMs now)).describesFor s
      (.reschedule id request) = true := Call.describesFor_replaceSpec.2 ⟨request, rfl, hn⟩
  refine (MakesOnly.store hspec).bind fun outcome => ?_
  cases outcome with
  | notFound | running => exact MakesOnly.throw _
  | replaced =>
    refine (MakesOnly.store (c := .get id) rfl).bind fun row => ?_
    cases row with
    | none => exact MakesOnly.throw _
    | some row =>
      exact (keepsSpecs_announce _ row id now).mono fun _ => Call.describesFor_of_keepsSpecs

end Scheduler

/-! ## Cycles -/

namespace Scheduler

theorem keepsSpecs_decide (v : Verdict) (ceiling : UInt64) (row : Row) (now : UInt64) :
    MakesOnly Call.keepsSpecs (v.decide ceiling row now) :=
  (drawing_decide v ceiling row now).mono fun c hc => by cases c <;> first | rfl | cases hc

theorem keepsSpecs_complete (row : Row) (d : Decision) (now : UInt64) :
    MakesOnly Call.keepsSpecs (complete row d now) := by
  unfold complete
  refine (MakesOnly.store rfl).bind fun applied => ?_
  refine MakesOnly.ite ?_ (MakesOnly.pure _)
  refine (MakesOnly.publishStatus rfl fun _ => rfl).bind fun _ => ?_
  exact (MakesOnly.notify rfl fun _ => rfl).bind fun _ => MakesOnly.pure _

theorem keepsSpecs_execute (id : TaskId) : MakesOnly Call.keepsSpecs (s.execute id) := by
  unfold execute
  refine (MakesOnly.ask rfl).bind fun now => (MakesOnly.store rfl).bind fun claimed => ?_
  cases claimed with
  | none => exact MakesOnly.pure _
  | some row =>
    refine (MakesOnly.publishStatus rfl fun _ => rfl).bind fun _ => ?_
    refine (MakesOnly.notify rfl fun _ => rfl).bind fun _ => ?_
    cases s.registry.instantiate row.spec.payloadTypeId row.spec.payloadData with
    | error fault =>
      refine (MakesOnly.ask rfl).bind fun now => ?_
      exact (keepsSpecs_complete row _ now).bind fun _ => MakesOnly.throw _
    | ok payload =>
      refine (MakesOnly.ask rfl).bind fun ending => (MakesOnly.ask rfl).bind fun now => ?_
      refine (keepsSpecs_decide _ _ row now).bind fun d => ?_
      exact (keepsSpecs_complete row d now).bind fun _ => MakesOnly.pure _

theorem keepsSpecs_dispatch (id : TaskId) : MakesOnly Call.keepsSpecs (s.dispatch id) := by
  unfold dispatch
  refine (keepsSpecs_execute id).bind fun outcome => ?_
  cases outcome with
  | none => exact MakesOnly.pure none
  | some o =>
    refine MakesOnly.bind ?_ fun _ => MakesOnly.pure _
    exact (tending_follow id o).mono fun _ => Call.keepsSpecs_of_isTending

end Scheduler

/-- **A job stores no description but that of its request.** -/
theorem callsOnly_describesFor (s : Scheduler) (job : Job) :
    CallsOnly (Call.describesFor s job) (job.program s) := by
  have keeping (c : Call) (hc : c.keepsSpecs = true) : c.describesFor s job = true :=
    Call.describesFor_of_keepsSpecs hc
  cases job with
  | submit request => exact (Scheduler.describesFor_submit request).program
  | reschedule id request => exact (Scheduler.describesFor_reschedule id request).program
  | execute id => exact (Scheduler.keepsSpecs_execute id).program.mono keeping
  | dispatch id => exact (Scheduler.keepsSpecs_dispatch id).program.mono keeping
  | tick =>
    exact Scheduler.tending_tick.program.mono fun c hc =>
      keeping c (Call.keepsSpecs_of_isTending hc)
  | cancel id =>
    exact (Scheduler.cancelling_cancel id).program.mono fun c hc =>
      keeping c (Call.keepsSpecs_of_isCancelling hc)
  | cancelAll =>
    exact Scheduler.cancelling_cancelAll.program.mono fun c hc =>
      keeping c (Call.keepsSpecs_of_isCancelling hc)
  | taskStatus | list | executionLog | observe | unsubscribe =>
    exact (callsOnly_reading rfl).mono fun c hc => keeping c (Call.keepsSpecs_of_isReading hc)
  | record id handle => exact (MakesOnly.store (c := .setPlatformId id handle) rfl).program

/-- **Operations store no descriptions but those of requests.** -/
theorem describing_governs (s : Scheduler) : (describing s).Governs s := by
  intro job _
  have described (g : Unit) (c : Call) (_ : (describing s).final g)
      (hc : c.describesFor s job = true) :
      (describing s).allows g c ∧ ∀ r, (describing s).final ((describing s).next g c r) :=
    ⟨Call.storesDescribed_of_describesFor hc, fun _ => trivial⟩
  exact keeps_of_callsOnly described (callsOnly_describesFor s job) trivial

/-! ## What is stored -/

variable {w : Scene} {past : List Moment} {m : Moment} {id : TaskId}

theorem describing_orderly (hw : Reachable s w) : (describing s).Orderly w.past :=
  Conduct.orderly_reachable (describing_governs s) hw
    (Conduct.met_of_expects (fun _ => trivial) (fun _ _ _ => trivial) _)

/-- A row is added by the answer to one call. -/
theorem answers_of_inserted {row : Row} (hd : m.deed id = .inserted row) :
    row.id = id ∧ m.occurrence
      = .answers m.occurrence.who (.store (.insert row)) (Except.ok ()) := by
  unfold Moment.deed Occurrence.deed at hd
  split at hd
  case h_1 who row' a hm =>
    obtain ⟨rfl, heq⟩ := Deed.of_onlyIf hd nofun
    obtain rfl := Deed.inserted.inj heq
    exact ⟨rfl, by rw [hm]; rfl⟩
  -- no other answer adds a row
  all_goals
    first
    | cases hd
    | cases (Deed.of_onlyIf hd nofun).2

/-- A row is given a new description by the answer to one call. -/
theorem answers_of_renewed {spec : Spec} {next now : UInt64}
    (hd : m.deed id = .renewed spec next now) :
    m.occurrence = .answers m.occurrence.who (.store (.replaceSpec id spec next now))
      (Except.ok .replaced) := by
  unfold Moment.deed Occurrence.deed at hd
  split at hd
  case h_6 who target spec' next' now' hm =>
    obtain ⟨rfl, heq⟩ := Deed.of_onlyIf hd nofun
    obtain ⟨rfl, rfl, rfl⟩ := Deed.renewed.inj heq
    rw [hm]
    rfl
  -- no other answer gives a row a new description
  all_goals
    first
    | cases hd
    | cases (Deed.of_onlyIf hd nofun).2

theorem described_of_inserted {row : Row} (h : (describing s).Follows past m)
    (hd : m.deed id = .inserted row) :
    ∃ spec next now, row = Row.fresh id spec next now ∧ s.Describes spec next now := by
  obtain ⟨rfl, hm⟩ := answers_of_inserted hd
  have hsuits := h.suits
  rw [hm] at hsuits
  obtain ⟨id, spec, next, now, rfl, hdescribes⟩ := hsuits.1
  exact ⟨spec, next, now, rfl, hdescribes⟩

theorem described_of_renewed {spec : Spec} {next now : UInt64}
    (h : (describing s).Follows past m) (hd : m.deed id = .renewed spec next now) :
    s.Describes spec next now := by
  have hsuits := h.suits
  rw [answers_of_renewed hd] at hsuits
  exact hsuits.1

end BackgroundTasks
