import BackgroundTasks.Proofs.Interleaving.Conduct

/-!
# Calls of one kind

Much of what an operation does is not to the point of a conduct. To cancel a task, say, nothing is
claimed and nothing is completed, and no event is emitted that tells of an attempt. That all calls
of an operation are of one kind has nothing to do with stages: it is shown once, call by call, and
then serves every conduct that lets calls of this kind pass.
-/

namespace BackgroundTasks

variable {α β : Type} {kind kind' : Call → Bool}

/-- All calls of a program are of one kind, whatever they return. -/
def CallsOnly (kind : Call → Bool) : Program Call.signature α → Prop
  | .done _ => True
  | .call c k => kind c = true ∧ ∀ r, CallsOnly kind (k r)

/-- All calls of an operation are of one kind. -/
def MakesOnly (kind : Call → Bool) (op : Operation α) : Prop := CallsOnly kind op

theorem CallsOnly.mono {p : Program Call.signature α} (h : CallsOnly kind p)
    (hkind : ∀ c, kind c = true → kind' c = true) : CallsOnly kind' p := by
  induction p with
  | done a => trivial
  | call c k ih => exact ⟨hkind c h.1, fun r => ih r (h.2 r)⟩

theorem callsOnly_bind {p : Program Call.signature α} {f : α → Program Call.signature β}
    (hp : CallsOnly kind p) (hf : ∀ a, CallsOnly kind (f a)) : CallsOnly kind (p.bind f) := by
  induction p with
  | done a => exact hf a
  | call c k ih => exact ⟨hp.1, fun r => ih r (hp.2 r)⟩

section Conduct

variable {S : Type} {C : Conduct S} {inv : S → Prop} {g : S}

/--
A conduct is kept by calls that it lets pass. `inv` says at which stages it does, and they lead from
one of these to another.
-/
theorem Conduct.keeps_of_callsOnly
    (hkind : ∀ g c, inv g → kind c = true → C.allows g c ∧ ∀ r, inv (C.next g c r))
    {p : Program Call.signature α} (hp : CallsOnly kind p) (hg : inv g) :
    C.Keeps (fun g' _ => inv g') p g := by
  induction p generalizing g with
  | done a => exact hg
  | call c k ih =>
    obtain ⟨hallows, hnext⟩ := hkind g c hg hp.1
    exact ⟨hallows, fun r _ => ih r (hp.2 r) (hnext r)⟩

theorem Conduct.upholds_of_makesOnly
    (hkind : ∀ g c, inv g → kind c = true → C.allows g c ∧ ∀ r, inv (C.next g c r))
    {op : Operation α} (hop : MakesOnly kind op) (hg : inv g) :
    C.Upholds op g (fun g' _ => inv g') inv := by
  refine C.keeps_mono ?_ (Conduct.keeps_of_callsOnly hkind hop hg)
  intro g' r hg'
  cases r <;> exact hg'

end Conduct

namespace MakesOnly

open Operation

variable {op : Operation α} {f : α → Operation β}

theorem mono (h : MakesOnly kind op) (hkind : ∀ c, kind c = true → kind' c = true) :
    MakesOnly kind' op :=
  CallsOnly.mono h hkind

theorem pure (a : α) : MakesOnly kind (pure a) := trivial

theorem throw (failure : Failure) : MakesOnly kind (throw failure : Operation α) := trivial

theorem bind (h : MakesOnly kind op) (hf : ∀ a, MakesOnly kind (f a)) :
    MakesOnly kind (op >>= f) := by
  refine callsOnly_bind h ?_
  intro r
  cases r with
  | ok a => exact hf a
  | error failure => trivial

theorem map (h : MakesOnly kind op) (f : α → β) : MakesOnly kind (f <$> op) := by
  rw [← bind_pure_comp]
  exact h.bind fun _ => pure _

theorem ite {p : Prop} [Decidable p] {op' : Operation α} (h : MakesOnly kind op)
    (h' : MakesOnly kind op') : MakesOnly kind (if p then op else op') := by
  split
  · exact h
  · exact h'

theorem ask {c : Call} (h : kind c = true) : MakesOnly kind (ask c) := ⟨h, fun _ => trivial⟩

theorem store {c : StoreCall} (h : kind (.store c) = true) : MakesOnly kind (store c) :=
  ⟨h, fun _ => trivial⟩

theorem arm {id : TaskId} {delay : Span} {conditions : Conditions}
    (h : kind (.arm id delay conditions) = true) : MakesOnly kind (arm id delay conditions) :=
  ⟨h, fun _ => trivial⟩

theorem disarm {id : TaskId} (h : kind (.disarm id) = true) : MakesOnly kind (disarm id) :=
  ⟨h, fun _ => trivial⟩

theorem isArmed {id : TaskId} (h : kind (.isArmed id) = true) : MakesOnly kind (isArmed id) :=
  ⟨h, fun _ => trivial⟩

theorem ignoringFailure (h : MakesOnly kind op) : MakesOnly kind (ignoringFailure op) :=
  callsOnly_bind h fun _ => trivial

theorem orElse (h : MakesOnly kind op) (default : α) : MakesOnly kind (orElse op default) := by
  refine callsOnly_bind h ?_
  intro r
  cases r <;> trivial

theorem tryCatch (h : MakesOnly kind op) {handle : Failure → Operation α}
    (hhandle : ∀ failure, MakesOnly kind (handle failure)) :
    MakesOnly kind (tryCatch op handle) := by
  refine callsOnly_bind h ?_
  intro r
  cases r with
  | ok a => trivial
  | error failure => exact hhandle failure

theorem forM {items : List β} {f : β → Operation Unit} (h : ∀ b, MakesOnly kind (f b)) :
    MakesOnly kind (items.forM f) := by
  induction items with
  | nil => exact pure ()
  | cons b rest ih => exact (h b).bind fun _ => ih

theorem mapM {items : List β} {f : β → Operation α} (h : ∀ b, MakesOnly kind (f b)) :
    MakesOnly kind (items.mapM f) := by
  induction items with
  | nil => exact pure []
  | cons b rest ih =>
    rw [List.mapM_cons]
    exact (h b).bind fun _ => ih.bind fun _ => pure _

theorem refresh {id : TaskId} (hread : kind (.readStatus id) = true)
    (hpublish : ∀ state, kind (.publish id state) = true) : MakesOnly kind (refresh id) := by
  refine ⟨hread, fun r => ?_⟩
  rcases r with failure | _ | state
  · trivial
  · trivial
  · exact ⟨hpublish state, fun _ => trivial⟩

theorem publishStatus {id : TaskId} (hread : kind (.readStatus id) = true)
    (hpublish : ∀ state, kind (.publish id state) = true) :
    MakesOnly kind (publishStatus id) :=
  (refresh hread hpublish).ignoringFailure

theorem notify {event : EventKind} {id : TaskId} {attempt : Option UInt32}
    {detail : Option String} (hnow : kind .now = true)
    (hemit : ∀ time, kind (.emit ⟨event, some id, attempt, time, detail⟩) = true) :
    MakesOnly kind (notify event id attempt detail) :=
  (ask hnow).bind fun time => ask (hemit time)

theorem normalize (s : Scheduler) (request : Request) (now : UInt64) :
    MakesOnly kind (s.normalize request now) := by
  unfold Scheduler.normalize
  cases request.normalize s.registry now s.config with
  | ok n => exact pure n
  | error fault => exact throw _

/-- What a job does with the result of an operation needs no calls. -/
theorem program (h : MakesOnly kind op) : CallsOnly kind op.program :=
  callsOnly_bind h fun _ => trivial

end MakesOnly

/-! ## Operations that only read -/

/-- Whether a call looks at rows or at the log. -/
def Call.isLooking : Call → Bool
  | store (.get _) | store .list | store (.logs _) | store (.lastLog _) => true
  | _ => false

/-- Whether a call reads rows or the log, or concerns the status board. -/
def Call.isReading : Call → Bool
  | readStatus _ | publish .. | subscribe .. | unsubscribe _ => true
  | c => c.isLooking

theorem Call.isReading_of_isLooking {c : Call} (h : c.isLooking = true) : c.isReading = true := by
  cases c <;> first | exact h | rfl

namespace Scheduler

open Operation

theorem looks_taskStatus (id : TaskId) : MakesOnly Call.isLooking (taskStatus id) := by
  unfold taskStatus status executionLog
  simp only [bind_assoc, pure_bind]
  refine (MakesOnly.store rfl).bind fun row => ?_
  refine MakesOnly.ite ?_ (MakesOnly.pure _)
  exact (MakesOnly.store rfl).bind fun _ => MakesOnly.pure _

theorem looks_list : MakesOnly Call.isLooking list := by
  unfold list
  refine (MakesOnly.store rfl).bind fun rows => MakesOnly.mapM fun row => ?_
  exact (MakesOnly.store rfl).bind fun _ => MakesOnly.pure _

theorem reads_observe (id : TaskId) : MakesOnly Call.isReading (observe id) := by
  unfold observe
  refine (MakesOnly.store rfl).bind fun row => ?_
  cases row with
  | none => exact MakesOnly.throw _
  | some row =>
    refine (MakesOnly.ask rfl).bind fun key => ?_
    have shown : MakesOnly Call.isReading (refresh id) := MakesOnly.refresh rfl fun _ => rfl
    refine (shown.tryCatch fun failure => ?_).bind fun _ => MakesOnly.pure _
    exact (MakesOnly.ask rfl).bind fun _ => MakesOnly.throw _

end Scheduler

/-- Whether a job only reads, or listens to what others do. -/
def Job.onlyReads : Job → Bool
  | taskStatus _ | list | executionLog _ | observe _ | unsubscribe _ => true
  | _ => false

theorem callsOnly_reading {s : Scheduler} {job : Job} (h : job.onlyReads = true) :
    CallsOnly Call.isReading (job.program s) := by
  cases job with
  | taskStatus id =>
    exact (Scheduler.looks_taskStatus id).program.mono fun _ => Call.isReading_of_isLooking
  | list => exact Scheduler.looks_list.program.mono fun _ => Call.isReading_of_isLooking
  | executionLog id => exact (MakesOnly.store (c := .logs id) rfl).program
  | observe id => exact (Scheduler.reads_observe id).program
  | unsubscribe key => exact (MakesOnly.ask (c := .unsubscribe key) rfl).program
  | _ => cases h

/-! ## Operations that have nothing to do with attempts -/

/-- Whether an event tells of an attempt. -/
def EventKind.isOfAttempt : EventKind → Bool
  | started | succeeded | failed | retryScheduled => true
  | _ => false

/-- Whether an event neither tells of an attempt nor names one. -/
def Event.isQuiet (e : Event) : Bool := e.attempt.isNone && !e.kind.isOfAttempt

namespace Call

/-- Whether a call neither claims nor completes nor tells of an attempt. -/
def isQuiet : Call → Bool
  | store (.claim ..) | store (.complete ..) | store (.appendLog _) => false
  | emit e => e.isQuiet
  | _ => true

/-- Whether a quiet call arms nothing either. -/
def isIdle : Call → Bool
  | arm .. => false
  | c => c.isQuiet

theorem isQuiet_of_isIdle {c : Call} (h : c.isIdle = true) : c.isQuiet = true := by
  cases c <;> first | exact h | rfl

/-- Whether a call leaves every row the description it has, and adds none. -/
def keepsSpecs : Call → Bool
  | store (.insert _) | store (.replaceSpec ..) => false
  | _ => true

/-- Whether a call sees to wake-ups, and leaves tasks as they are. -/
def isTending : Call → Bool
  | store (.due _) | store (.setPlatformId ..) => true
  | arm .. | disarm _ | isArmed _ | now => true
  | emit e => e.isQuiet
  | _ => false

theorem isQuiet_of_isTending {c : Call} (h : c.isTending = true) : c.isQuiet = true := by
  cases c with
  | store c => cases c <;> first | rfl | cases h
  | emit e => exact h
  | _ => rfl

theorem keepsSpecs_of_isTending {c : Call} (h : c.isTending = true) : c.keepsSpecs = true := by
  cases c with
  | store c => cases c <;> first | rfl | cases h
  | _ => rfl

/-- Whether a call draws a time. -/
def isDrawing : Call → Bool
  | retryDelay .. | periodicRun .. => true
  | _ => false

/-- Whether a call has its place in a cancellation. -/
def isCancelling : Call → Bool
  | store (.get _) | store (.transition ..) | store (.transitionAll ..) => true
  | disarm _ | readStatus _ | publish .. | now => true
  | emit e => e.isQuiet
  | _ => false

theorem isIdle_of_isCancelling {c : Call} (h : c.isCancelling = true) : c.isIdle = true := by
  cases c with
  | store c => cases c <;> first | rfl | cases h
  | emit e => exact h
  | _ => first | rfl | cases h

theorem keepsSpecs_of_isCancelling {c : Call} (h : c.isCancelling = true) :
    c.keepsSpecs = true := by
  cases c with
  | store c => cases c <;> first | rfl | cases h
  | _ => rfl

theorem keepsSpecs_of_isReading {c : Call} (h : c.isReading = true) : c.keepsSpecs = true := by
  cases c with
  | store c => cases c <;> first | rfl | cases h
  | _ => rfl

theorem isIdle_of_isReading {c : Call} (h : c.isReading = true) : c.isIdle = true := by
  cases c with
  | store c => cases c <;> first | rfl | cases h
  | readStatus | publish | subscribe | unsubscribe => rfl
  | _ => cases h

end Call

namespace Scheduler

open Operation

variable {s : Scheduler}

theorem cancelling_afterCancel (id : TaskId) : MakesOnly Call.isCancelling (afterCancel id) := by
  unfold afterCancel
  refine (MakesOnly.disarm rfl).ignoringFailure.bind fun _ => ?_
  exact (MakesOnly.publishStatus rfl fun _ => rfl).bind fun _ => MakesOnly.notify rfl fun _ => rfl

theorem cancelling_cancel (id : TaskId) : MakesOnly Call.isCancelling (cancel id) := by
  unfold cancel
  refine (MakesOnly.store rfl).bind fun found => ?_
  have rest : MakesOnly Call.isCancelling (do
      let moved : Nat ← store (.transition id State.cancellable .cancelled (← now))
      if moved = 0 then return false
      afterCancel id
      return true) := by
    refine (MakesOnly.ask rfl).bind fun time => ?_
    refine (MakesOnly.store rfl).bind fun moved => ?_
    exact (MakesOnly.pure _).ite ((cancelling_afterCancel id).bind fun _ => MakesOnly.pure _)
  exact ((MakesOnly.throw _).bind fun _ => rest).ite rest

theorem cancelling_cancelAll : MakesOnly Call.isCancelling cancelAll := by
  unfold cancelAll
  refine (MakesOnly.ask rfl).bind fun time => ?_
  refine (MakesOnly.store rfl).bind fun ids => ?_
  exact (MakesOnly.forM cancelling_afterCancel).bind fun _ => MakesOnly.pure _

theorem idle_cancel (id : TaskId) : MakesOnly Call.isIdle (cancel id) :=
  (cancelling_cancel id).mono fun _ => Call.isIdle_of_isCancelling

theorem idle_cancelAll : MakesOnly Call.isIdle cancelAll :=
  cancelling_cancelAll.mono fun _ => Call.isIdle_of_isCancelling

theorem drawing_decide (v : Verdict) (ceiling : UInt64) (row : Row) (now : UInt64) :
    MakesOnly Call.isDrawing (v.decide ceiling row now) := by
  cases v with
  | succeeded | failed => exact MakesOnly.pure _
  | comesBack | retried => exact (MakesOnly.ask rfl).bind fun _ => MakesOnly.pure _

theorem tending_armAndRecord (row : Row) (delay : Span) :
    MakesOnly Call.isTending (armAndRecord row delay) := by
  unfold armAndRecord
  refine (MakesOnly.arm rfl).bind fun handle => ?_
  exact MakesOnly.ite (MakesOnly.store rfl) (MakesOnly.pure ())

theorem tending_armForNextRun (row : Row) (now : UInt64) :
    MakesOnly Call.isTending (armForNextRun row now) :=
  (tending_armAndRecord row _).ignoringFailure

theorem quiet_armForNextRun (row : Row) (now : UInt64) :
    MakesOnly Call.isQuiet (armForNextRun row now) :=
  (tending_armForNextRun row now).mono fun _ => Call.isQuiet_of_isTending

theorem quiet_submit (request : Request) : MakesOnly Call.isQuiet (s.submit request) := by
  unfold submit
  refine (MakesOnly.ask rfl).bind fun now => ?_
  refine (MakesOnly.normalize s request now).bind fun normalized => ?_
  refine (MakesOnly.ask rfl).bind fun id => ?_
  refine (MakesOnly.store rfl).bind fun _ => ?_
  refine (MakesOnly.publishStatus rfl fun _ => rfl).bind fun _ => ?_
  refine (MakesOnly.notify rfl fun _ => rfl).bind fun _ => ?_
  exact (quiet_armForNextRun _ now).bind fun _ => MakesOnly.pure _

theorem quiet_reschedule (id : TaskId) (request : Request) :
    MakesOnly Call.isQuiet (s.reschedule id request) := by
  unfold reschedule
  refine (MakesOnly.ask rfl).bind fun now => ?_
  refine (MakesOnly.normalize s request now).bind fun normalized => ?_
  refine (MakesOnly.store rfl).bind fun outcome => ?_
  cases outcome with
  | notFound | running => exact MakesOnly.throw _
  | replaced =>
    refine (MakesOnly.store (c := .get id) rfl).bind fun row => ?_
    cases row with
    | none => exact MakesOnly.throw _
    | some row =>
      refine (MakesOnly.publishStatus rfl fun _ => rfl).bind fun _ => ?_
      refine (MakesOnly.notify rfl fun _ => rfl).bind fun _ => ?_
      exact (quiet_armForNextRun row now).bind fun _ => MakesOnly.pure _

theorem tending_rescue (now : UInt64) (row : Row) :
    MakesOnly Call.isTending (rescue now row) := by
  unfold rescue isOrphan
  refine (((MakesOnly.isArmed rfl).map _).orElse _).bind fun orphan => ?_
  refine MakesOnly.ite ?_ (MakesOnly.pure _)
  refine (((tending_armAndRecord row _).bind fun _ => MakesOnly.pure _).orElse _).bind
    fun armed => ?_
  exact ((MakesOnly.ask rfl).bind fun _ => MakesOnly.pure _).ite (MakesOnly.pure _)

theorem tending_tick : MakesOnly Call.isTending tick := by
  unfold tick
  refine (MakesOnly.ask rfl).bind fun now => ?_
  refine (MakesOnly.store rfl).bind fun due => ?_
  exact (MakesOnly.mapM (tending_rescue now)).bind fun _ => MakesOnly.pure _

/-- What a cycle does once it has an outcome. -/
theorem tending_follow (id : TaskId) (o : RunOutcome) : MakesOnly Call.isTending (follow id o) := by
  cases o with
  | succeeded | failed => exact (MakesOnly.disarm rfl).ignoringFailure
  | again next spec delayMs =>
    unfold follow
    refine (((MakesOnly.arm rfl).map _).orElse _).bind fun handle => ?_
    cases handle with
    | none => exact MakesOnly.pure ()
    | some handle => exact MakesOnly.store rfl

theorem quiet_follow (id : TaskId) (o : RunOutcome) : MakesOnly Call.isQuiet (follow id o) :=
  (tending_follow id o).mono fun _ => Call.isQuiet_of_isTending

end Scheduler

/-- Only cycles have to do with attempts. -/
def Job.isCycle : Job → Bool
  | execute _ | dispatch _ => true
  | _ => false

/-- **A job that runs no cycle makes quiet calls only.** -/
theorem callsOnly_quiet {s : Scheduler} {job : Job} (h : job.isCycle = false) :
    CallsOnly Call.isQuiet (job.program s) := by
  have quiet (c : Call) (hc : c.isIdle = true) : c.isQuiet = true := Call.isQuiet_of_isIdle hc
  cases job with
  | submit request => exact (Scheduler.quiet_submit request).program
  | reschedule id request => exact (Scheduler.quiet_reschedule id request).program
  | tick => exact Scheduler.tending_tick.program.mono fun _ => Call.isQuiet_of_isTending
  | cancel id => exact (Scheduler.idle_cancel id).program.mono quiet
  | cancelAll => exact Scheduler.idle_cancelAll.program.mono quiet
  | taskStatus | list | executionLog | observe | unsubscribe =>
    exact (callsOnly_reading rfl).mono fun c hc => quiet c (Call.isIdle_of_isReading hc)
  | record id handle => exact (MakesOnly.store (c := .setPlatformId id handle) rfl).program
  | execute | dispatch => cases h

end BackgroundTasks
