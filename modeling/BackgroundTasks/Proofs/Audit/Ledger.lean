import BackgroundTasks.Proofs.Custody

/-!
# What is told of an attempt

An operation that has claimed a row first tells that the attempt has begun. Then it has its worker
at work and stores one result, under the number of the claim and with a message of its own. If the
result counts, it is told of in the words of its log entry; if it came too late, nothing is told.
All other events have nothing to do with attempts.

The platform is left alone from the claim up to the last of these events, so nothing but the store
can break an attempt off.
-/

namespace BackgroundTasks

/-- The event that tells of the end of an attempt. -/
def LogKind.event : LogKind → EventKind
  | succeeded => .succeeded
  | retryScheduled => .retryScheduled
  | failedPermanent | failedRetriesExhausted | payloadUnavailable => .failed

/-- The log entry of a decision and its event are of one kind. -/
theorem Concludes.event {row : Row} {now : UInt64} {d : Decision} (h : Concludes row now d) :
    d.event = d.kind.event := by
  cases h with
  | succeeded | comesBack | retried => rfl
  | failed kind message failure final =>
    cases kind with
    | succeeded => exact absurd rfl failure
    | retryScheduled => exact absurd rfl final
    | failedPermanent | failedRetriesExhausted | payloadUnavailable => rfl

/-- An event tells that the attempt on a claimed row has begun. -/
def Event.Starts (e : Event) (row : Row) : Prop :=
  ∃ time, e = ⟨.started, some row.id, some row.attempts, time, none⟩

/-- An event tells of a result in the words of its log entry. -/
def Event.Announces (e : Event) (entry : LogEntry) : Prop :=
  ∃ time, e = ⟨entry.kind.event, some entry.taskId, some entry.attempt, time, entry.message⟩

theorem Event.Starts.isQuiet {e : Event} {row : Row} (h : e.Starts row) : e.isQuiet = false := by
  obtain ⟨time, rfl⟩ := h
  rfl

theorem Event.Announces.isQuiet {e : Event} {entry : LogEntry} (h : e.Announces entry) :
    e.isQuiet = false := by
  obtain ⟨time, rfl⟩ := h
  rfl

/-- An entry reports on the attempt on a claimed row, in words of its own. -/
structure LogEntry.Reports (entry : LogEntry) (row : Row) : Prop where
  taskId : entry.taskId = row.id
  attempt : entry.attempt = row.attempts
  message : ∃ message, entry.message = some message ∧ Unmarked message

/-- How far an operation has come with an attempt. -/
inductive Ledger where
  | free
  | claimed (row : Row)
  /-- The attempt has been told of. -/
  | running (row : Row)
  /-- The result has been stored, and it counts. -/
  | applied (entry : LogEntry)
  | closed

namespace Ledger

/-- No attempt is on the way. -/
def Settled (g : Ledger) : Prop := g = free ∨ g = closed

/-- The events that are in order. -/
def tells : Ledger → Event → Prop
  | claimed row, e => e.Starts row
  | running _, _ => False
  | applied entry, e => e.Announces entry
  | _, e => e.isQuiet = true

/-- The calls that are in order. -/
def allows (g : Ledger) : Call → Prop
  | .store (.claim ..) => g = free
  | .store (.complete id _ entry) => ∃ row, g = running row ∧ row.id = id ∧ entry.Reports row
  | .store (.appendLog _) => False
  | .emit e => g.tells e
  | .arm .. | .disarm _ | .isArmed _ => g.Settled
  | _ => True

/-- The answers that may be counted on: a row that is claimed is that of the task. -/
def expects (_ : Ledger) : (c : Call) → c.Answer → Prop
  | .store (.claim id _), Except.ok (some row) => row.id = id
  | _, _ => True

/-- The stage after an event. -/
def told : Ledger → Ledger
  | claimed row => running row
  | applied _ => closed
  | g => g

/-- What an answer makes of the stage. -/
def next (g : Ledger) : (c : Call) → c.Answer → Ledger
  | .store (.claim ..), Except.ok (some row) => claimed row
  | .store (.complete _ _ entry), Except.ok true => applied entry
  | .store (.complete ..), _ => closed
  | .emit _, _ => g.told
  | _, _ => g

end Ledger

/-- The conduct of operations towards the log and the telemetry. -/
def ledger : Conduct Ledger where
  admits _ := True
  idle := .free
  start _ := .free
  gone := .closed
  allows := Ledger.allows
  expects := Ledger.expects
  next := Ledger.next
  final := Ledger.Settled
  final_gone := .inr rfl

open Operation Conduct

variable {s : Scheduler} {g : Ledger}

/-! ## Calls that have nothing to do with attempts -/

/-- Where no attempt is on the way, quiet calls are in order and lead nowhere. -/
theorem ledger_quiet (hg : g.Settled) (g' : Ledger) (c : Call) (heq : g' = g)
    (hc : c.isQuiet = true) : ledger.allows g' c ∧ ∀ r, ledger.next g' c r = g := by
  subst heq
  cases c with
  | store c => cases c <;> first | exact ⟨trivial, fun _ => rfl⟩ | cases hc
  | arm | disarm | isArmed => exact ⟨hg, fun _ => rfl⟩
  | emit e => rcases hg with rfl | rfl <;> exact ⟨hc, fun _ => rfl⟩
  | _ => exact ⟨trivial, fun _ => rfl⟩

/-- The publication of a state is in order even while an attempt is on the way. -/
theorem ledger_publishStatus (id : TaskId) {ok : Ledger → Unit → Prop} {failed : Ledger → Prop}
    (hok : ok g ()) : ledger.Upholds (publishStatus id) g ok failed := by
  unfold publishStatus
  rw [upholds_ignoringFailure]
  refine ⟨trivial, fun r _ => ?_⟩
  rcases r with failure | _ | state
  · exact hok
  · exact hok
  · exact ⟨trivial, fun _ _ => hok⟩

/-- An event is told after the clock has been read. -/
theorem ledger_notify {kind : EventKind} {id : TaskId} {attempt : Option UInt32}
    {detail : Option String} {ok : Ledger → Unit → Prop} {failed : Ledger → Prop}
    (htells : ∀ time, g.tells ⟨kind, some id, attempt, time, detail⟩) (hok : ok g.told ()) :
    ledger.Upholds (notify kind id attempt detail) g ok failed := by
  unfold notify
  rw [upholds_bind]
  exact ⟨trivial, fun time _ => ⟨htells time, fun _ _ => hok⟩⟩

/-! ## Cycles -/

/-- A result is stored, and told of if it counts. -/
theorem ledger_complete {row : Row} {now : UInt64} {d : Decision} (hd : Concludes row now d)
    (hunmarked : Unmarked d.message) {ok : Ledger → Bool → Prop} {failed : Ledger → Prop}
    (hok : ∀ applied, ok .closed applied) (hfailed : failed .closed) :
    ledger.Upholds (Scheduler.complete row d now) (.running row) ok failed := by
  have hreports : (d.entry row now).Reports row := ⟨rfl, rfl, d.message, rfl, hunmarked⟩
  have htells (time : UInt64) :
      Event.Announces ⟨d.event, some row.id, some row.attempts, time, some d.message⟩
        (d.entry row now) := ⟨time, by rw [hd.event]; rfl⟩
  unfold Scheduler.complete
  rw [upholds_bind, upholds_store]
  refine ⟨⟨row, rfl, rfl, hreports⟩, fun applied _ => ?_, fun _ _ => hfailed⟩
  cases applied with
  | false => exact hok false
  | true =>
    show ledger.Upholds (publishStatus row.id >>= _) (.applied (d.entry row now)) ok failed
    rw [upholds_bind]
    refine ledger_publishStatus row.id ?_
    rw [upholds_bind]
    exact ledger_notify htells (hok true)

theorem ledger_failUnavailable (row : Row) (fault : PayloadFault)
    {ok : Ledger → Option RunOutcome → Prop} {failed : Ledger → Prop} (hfailed : failed .closed) :
    ledger.Upholds (Scheduler.failUnavailable row fault) (.running row) ok failed := by
  unfold Scheduler.failUnavailable
  rw [upholds_bind]
  refine ⟨trivial, fun now _ => ?_⟩
  have hd : Concludes row now (.failed row now .payloadUnavailable fault.message) :=
    .failed _ _ (by decide) (by decide)
  show ledger.Upholds (_ >>= _) (.running row) ok failed
  rw [upholds_bind]
  exact ledger_complete hd fault.unmarked_message (fun _ => hfailed) hfailed

theorem ledger_runClaimed (row : Row) (payload : Payload)
    {ok : Ledger → Option RunOutcome → Prop} {failed : Ledger → Prop} (hok : ∀ o, ok .closed o)
    (hfailed : failed .closed) :
    ledger.Upholds (s.runClaimed row payload) (.running row) ok failed := by
  unfold Scheduler.runClaimed
  rw [upholds_bind]
  refine ⟨trivial, fun ending _ => ?_⟩
  show ledger.Upholds (Operation.now >>= _) (.running row) ok failed
  rw [upholds_bind]
  refine ⟨trivial, fun now _ => ?_⟩
  show ledger.Upholds (_ >>= _) (.running row) ok failed
  rw [upholds_bind]
  refine upholds_decide _ _ (fun _ _ _ => ⟨trivial, fun _ => rfl⟩)
    (fun _ _ => ⟨trivial, fun _ => rfl⟩) fun d hd hunmarked => ?_
  rw [upholds_bind]
  exact ledger_complete hd hunmarked (fun _ => hok _) hfailed

theorem ledger_execute (id : TaskId) {ok : Ledger → Option RunOutcome → Prop}
    {failed : Ledger → Prop} (hok : ∀ g o, g.Settled → ok g o)
    (hfailed : ∀ g, g.Settled → failed g) :
    ledger.Upholds (s.execute id) .free ok failed := by
  unfold Scheduler.execute
  rw [upholds_bind]
  refine ⟨trivial, fun now _ => ?_⟩
  show ledger.Upholds (store (.claim id now) >>= _) .free ok failed
  rw [upholds_bind, upholds_store]
  refine ⟨rfl, fun claimed hclaimed => ?_, fun _ _ => hfailed _ (.inl rfl)⟩
  cases claimed with
  | none => exact hok _ _ (.inl rfl)
  | some row =>
    obtain rfl : row.id = id := hclaimed
    show ledger.Upholds (publishStatus row.id >>= _) (.claimed row) ok failed
    rw [upholds_bind]
    refine ledger_publishStatus row.id ?_
    rw [upholds_bind]
    refine ledger_notify (fun time => ⟨time, rfl⟩) ?_
    show ledger.Upholds _ (.running row) ok failed
    cases s.registry.instantiate row.spec.payloadTypeId row.spec.payloadData with
    | error fault => exact ledger_failUnavailable row fault (hfailed _ (.inr rfl))
    | ok payload =>
      exact ledger_runClaimed row payload (fun o => hok _ o (.inr rfl)) (hfailed _ (.inr rfl))

theorem ledger_dispatch (id : TaskId) :
    ledger.Upholds (s.dispatch id) .free (fun g _ => g.Settled) Ledger.Settled := by
  unfold Scheduler.dispatch
  rw [upholds_bind]
  refine ledger_execute id (fun g o hg => ?_) fun g hg => hg
  cases o with
  | none => exact hg
  | some o =>
    have hfollow := upholds_of_makesOnly (ledger_quiet hg) (Scheduler.quiet_follow id o) rfl
    rw [upholds_bind]
    refine hfollow.mono ?_ ?_
    · rintro _ _ rfl
      exact hg
    · rintro _ rfl
      exact hg

/-- **Every job keeps the ledger of its attempt**, and any other job has none. -/
theorem ledger_governs (s : Scheduler) : ledger.Governs s := by
  intro job _
  have hfree : Ledger.Settled .free := .inl rfl
  cases hjob : job.isCycle with
  | false =>
    refine ledger.keeps_mono ?_
      (keeps_of_callsOnly (ledger_quiet hfree) (callsOnly_quiet hjob) rfl)
    rintro _ _ rfl
    exact hfree
  | true =>
    cases job with
    | execute id =>
      exact (ledger.keeps_program _ _).2 (ledger_execute id (fun _ _ hg => hg) fun _ hg => hg)
    | dispatch id => exact (ledger.keeps_program _ _).2 (ledger_dispatch id)
    | _ => cases hjob

end BackgroundTasks
