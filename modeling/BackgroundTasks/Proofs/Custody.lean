import BackgroundTasks.Proofs.Interleaving.Calls

/-!
# Custody of claimed rows

An operation that has claimed a row has it in custody until its completion is stored. In between it
lets its worker work and decides upon the result, and it leaves the platform and all other rows
alone; the completion is one of four kinds of update, and it names the claim that it belongs to.

This holds of every operation whatever the store, the platform and the worker answer, so it is
shown once, of the programs themselves.
-/

namespace BackgroundTasks

/-- A row with another handle. -/
def Row.withHandle (row : Row) (handle : Option String) : Row := { row with platformId := handle }

/-- What can be decided about a claimed row at some time. -/
inductive Concludes (row : Row) (now : UInt64) : Decision → Prop where
  | succeeded (oneTime : row.spec.isPeriodic = false) : Concludes row now (.succeeded row now)
  | comesBack (next : UInt64) (periodic : row.spec.isPeriodic = true) :
      Concludes row now (.comesBack row now next)
  | failed (kind : LogKind) (message : String) (failure : kind ≠ .succeeded)
      (final : kind ≠ .retryScheduled) : Concludes row now (.failed row now kind message)
  | retried (delayMs : UInt64) (reason : String) (left : row.retries < row.spec.maxRetries) :
      Concludes row now (.retried row now delayMs reason)

namespace Concludes

variable {row : Row} {now : UInt64} {d : Decision}

/-- A row with another handle is concluded in the same way. -/
theorem withHandle (h : Concludes row now d) (handle : Option String) :
    Concludes (row.withHandle handle) now d := by
  cases h with
  | succeeded oneTime => exact .succeeded oneTime
  | comesBack next periodic => exact .comesBack next periodic
  | failed kind message failure final => exact .failed kind message failure final
  | retried delayMs reason left => exact .retried delayMs reason left

/-- A decision names the claim that it is about. -/
theorem claimedAttempt (h : Concludes row now d) : d.completion.claimedAttempt = row.attempts := by
  cases h <;> rfl

/-- A decision leads along an edge of the life cycle. -/
theorem canBecome (h : Concludes row now d) :
    State.running.canBecome d.completion.state = true := by
  cases h <;> rfl

/-- A decision sends the row back to the queue just if it asks for another wake-up. -/
theorem outcome (h : Concludes row now d) :
    (d.completion.state = .enqueued ∧ ∃ delay, d.outcome = .again row.id row.spec delay)
      ∨ d.completion.state ≠ .enqueued ∧ (d.outcome = .succeeded ∨ d.outcome = .failed) := by
  cases h with
  | succeeded oneTime => exact .inr ⟨nofun, .inl rfl⟩
  | comesBack next periodic => exact .inl ⟨rfl, _, rfl⟩
  | failed kind message failure final => exact .inr ⟨nofun, .inr rfl⟩
  | retried delayMs reason left => exact .inl ⟨rfl, _, rfl⟩

end Concludes

/-! ## Messages -/

/-- A message that does not begin as that of a result which came too late. -/
def Unmarked (message : String) : Prop := ∀ text, message ≠ discardedMark ++ text

/-- The first letter tells. -/
theorem unmarked_of_head? {message : String} (h : message.toList.head? ≠ some 'd') :
    Unmarked message := by
  intro text hmarked
  rw [hmarked, String.toList_append, List.head?_append] at h
  exact h rfl

theorem PayloadFault.unmarked_message (fault : PayloadFault) : Unmarked fault.message := by
  refine unmarked_of_head? ?_
  unfold PayloadFault.message
  split <;> simp

theorem Verdict.unmarked_reason (e : WorkError) : Unmarked (Verdict.reason e) := by
  refine unmarked_of_head? ?_
  unfold Verdict.reason
  simp

theorem Verdict.unmarked_exhausted (attempts maxRetries : UInt32) (reason : String) :
    Unmarked ((WorkError.maxRetriesExceeded attempts maxRetries).text ++ "; last failure: "
      ++ reason) := by
  refine unmarked_of_head? ?_
  dsimp only [WorkError.text]
  simp

namespace Decision

variable (row : Row) (now : UInt64)

theorem unmarked_succeeded : Unmarked (succeeded row now).message := by
  refine unmarked_of_head? ?_
  dsimp only [succeeded, ended]
  simp

theorem unmarked_comesBack (next : UInt64) : Unmarked (comesBack row now next).message := by
  refine unmarked_of_head? ?_
  dsimp only [comesBack, queued]
  simp

theorem unmarked_retried (delayMs : UInt64) (reason : String) :
    Unmarked (retried row now delayMs reason).message := by
  refine unmarked_of_head? ?_
  dsimp only [retried, queued]
  simp

end Decision

/-! ## Decisions -/

/--
Whatever a worker makes of a row, what is decided is among the ways to conclude it, and its message
is not that of a result which came too late. At most one call is made before, to draw a time.
-/
theorem Conduct.upholds_decide {S : Type} {C : Conduct S} {g : S} {row : Row} {now : UInt64}
    (result : WorkResult) (ceiling : UInt64) {ok : S → Decision → Prop} {failed : S → Prop}
    (hperiodic : ∀ now interval flex, C.allows g (.periodicRun now interval flex)
      ∧ ∀ a, C.next g (.periodicRun now interval flex) a = g)
    (hretry : row.retries < row.spec.maxRetries → ∀ backoff,
      C.allows g (.retryDelay backoff (Decision.nextRetry row))
        ∧ ∀ a, C.next g (.retryDelay backoff (Decision.nextRetry row)) a = g)
    (h : ∀ d, Concludes row now d → Unmarked d.message → ok g d) :
    C.Upholds ((Verdict.ofResult row now result).decide ceiling row now) g ok failed := by
  -- a failure that may pass is the only one for which a delay is drawn
  have transient (reason : String) (suggested : Option UInt64) :
      C.Upholds ((Verdict.ofTransient row reason suggested).decide ceiling row now) g ok
        failed := by
    unfold Verdict.ofTransient
    split
    · exact h _ (.failed _ _ (by decide) (by decide)) (Verdict.unmarked_exhausted _ _ _)
    · next left =>
      have left : row.retries < row.spec.maxRetries := UInt32.not_le.1 left
      obtain ⟨hallows, hnext⟩ := hretry left _
      refine ⟨hallows, fun delayMs _ => ?_⟩
      rw [hnext delayMs]
      exact h _ (.retried delayMs reason left) (Decision.unmarked_retried row now delayMs reason)
  cases result with
  | success =>
    show C.Upholds (Verdict.decide ceiling row now (if _ then _ else _)) _ _ _
    by_cases periodic : row.spec.isPeriodic = true
    · rw [if_pos periodic]
      obtain ⟨hallows, hnext⟩ := hperiodic now row.spec.intervalMs row.spec.flexMs
      refine ⟨hallows, fun next _ => ?_⟩
      rw [hnext next]
      exact h _ (.comesBack next periodic) (Decision.unmarked_comesBack row now next)
    · rw [if_neg periodic]
      exact h _ (.succeeded (Bool.not_eq_true _ ▸ periodic)) (Decision.unmarked_succeeded row now)
  | retry => exact transient _ _
  | failure kind e =>
    cases kind with
    | permanent =>
      exact h _ (.failed _ _ (by decide) (by decide)) (Verdict.unmarked_reason e)
    | transient => exact transient _ _

/-! ## The conduct -/

/-- Whether an operation has a row in custody. -/
inductive Custody where
  | free
  | holding (row : Row)
  | ended

namespace Custody

/-- The calls that are in order. -/
def allows (g : Custody) : Call → Prop
  | .store (.insert row) => ∃ id spec next now, row = Row.fresh id spec next now
  | .store (.claim ..) => g = free
  | .store (.complete id c e) =>
    ∃ row now d, g = holding row ∧ Concludes row now d ∧ id = row.id ∧ c = d.completion
      ∧ e = d.entry row now
  | .store (.transition _ origins target _) => origins = State.cancellable ∧ target = .cancelled
  | .store (.transitionAll origins target _) => origins = State.cancellable ∧ target = .cancelled
  | .store (.appendLog _) => False
  | .retryDelay _ retry =>
    ∃ row, g = holding row ∧ row.retries < row.spec.maxRetries ∧ retry = Decision.nextRetry row
  | .arm .. | .disarm _ | .isArmed _ => ∀ row, g ≠ holding row
  | _ => True

/-- What an answer makes of custody. -/
def next (g : Custody) : (c : Call) → c.Answer → Custody
  | .store (.claim ..), Except.ok (some row) => holding row
  | .store (.complete ..), _ => ended
  | _, _ => g

end Custody

/-- The conduct of operations towards rows. -/
def custody : Conduct Custody where
  admits _ := True
  idle := .free
  start _ := .free
  gone := .ended
  allows := Custody.allows
  expects _ _ _ := True
  next := Custody.next
  final g := ∀ row, g ≠ .holding row
  final_gone := by
    intro row h
    cases h

theorem custody_overlooks : custody.Overlooks := by
  intro c hc g
  cases c <;> first | exact ⟨trivial, fun _ => rfl⟩ | simp [Call.isIncidental] at hc

theorem final_free : custody.final .free := by
  intro row h
  cases h

theorem final_ended : custody.final .ended := by
  intro row h
  cases h

/-- What is asked of an operation in the end: to have nothing in custody. -/
abbrev Conduct.Discharges (op : Operation α) (g : Custody) : Prop :=
  custody.Upholds op g (fun g _ => custody.final g) custody.final

open Operation Conduct

variable {s : Scheduler} {g : Custody} {ok : Custody → Unit → Prop} {failed : Custody → Prop}

/-! ## Operations without a claim -/

theorem custody_armAndRecord (hg : custody.final g) (row : Row) (delay : Span) :
    custody.Upholds (armAndRecord row delay) g (fun g' _ => g' = g) (· = g) := by
  unfold armAndRecord
  rw [upholds_bind, upholds_arm]
  refine ⟨hg, fun handle _ => ?_, fun _ _ => rfl⟩
  rw [upholds_ite]
  refine ⟨fun _ => ?_, fun _ => rfl⟩
  exact (upholds_store (.setPlatformId row.id handle)).2 ⟨trivial, fun _ _ => rfl, fun _ _ => rfl⟩

theorem custody_armForNextRun (hg : custody.final g) (row : Row) (now : UInt64) (h : ok g ()) :
    custody.Upholds (armForNextRun row now) g ok failed := by
  unfold armForNextRun
  rw [upholds_ignoringFailure]
  refine (custody_armAndRecord hg row _).mono ?_ ?_
  · intro _ _ heq
    subst heq
    exact h
  · intro _ heq
    subst heq
    exact h

theorem custody_submit (request : Request) : Discharges (s.submit request) .free := by
  unfold Scheduler.submit
  simp only [upholds_bind]
  refine custody_overlooks.now fun now => upholds_normalize s request now (fun n => ?_) final_free
  refine custody_overlooks.ask rfl fun id => ?_
  refine (upholds_store _).2
    ⟨⟨id, n.spec, n.nextRunMs, now, rfl⟩, fun _ _ => ?_, fun _ _ => final_free⟩
  refine custody_overlooks.publishStatus id (custody_overlooks.notify _ _ _ _ ?_)
  exact custody_armForNextRun final_free _ now final_free

theorem custody_afterCancel (hg : custody.final g) (id : TaskId) (h : ok g ()) :
    custody.Upholds (Scheduler.afterCancel id) g ok failed := by
  unfold Scheduler.afterCancel
  simp only [upholds_bind, upholds_ignoringFailure]
  have rest : custody.Upholds (publishStatus id) g
      (fun g _ => custody.Upholds (notify .cancelled id none none) g ok failed) failed :=
    custody_overlooks.publishStatus id (custody_overlooks.notify _ _ _ _ h)
  exact (upholds_disarm id).2 ⟨hg, fun _ => rest, fun _ _ => rest⟩

theorem custody_cancel (id : TaskId) : Discharges (Scheduler.cancel id) .free := by
  unfold Scheduler.cancel
  simp only [upholds_bind, upholds_ite, upholds_throw, upholds_pure]
  refine (upholds_store (.get id)).2 ⟨trivial, fun row _ => ?_, fun _ _ => final_free⟩
  refine ⟨fun _ => final_free, fun _ => custody_overlooks.now fun now => ?_⟩
  refine (upholds_store _).2 ⟨⟨rfl, rfl⟩, fun moved _ => ?_, fun _ _ => final_free⟩
  exact ⟨fun _ => final_free, fun _ => custody_afterCancel final_free id final_free⟩

theorem custody_cancelAll : Discharges Scheduler.cancelAll .free := by
  unfold Scheduler.cancelAll
  simp only [upholds_bind, upholds_pure]
  refine custody_overlooks.now fun now => ?_
  refine (upholds_store _).2 ⟨⟨rfl, rfl⟩, fun ids _ => ?_, fun _ _ => final_free⟩
  refine (upholds_forM (fun _ g => g = .free) ?_ ids rfl).mono ?_ fun _ hg => hg
  · intro id rest _ heq
    subst heq
    exact custody_afterCancel final_free id rfl
  · intro _ _ heq
    subst heq
    exact final_free

theorem custody_reschedule (id : TaskId) (request : Request) :
    Discharges (s.reschedule id request) .free := by
  unfold Scheduler.reschedule
  simp only [upholds_bind]
  refine custody_overlooks.now fun now => upholds_normalize s request now (fun n => ?_) final_free
  refine (upholds_store _).2 ⟨trivial, fun outcome _ => ?_, fun _ _ => final_free⟩
  cases outcome with
  | notFound => exact final_free
  | running => exact final_free
  | replaced =>
    simp only [upholds_bind]
    refine (upholds_store (.get id)).2 ⟨trivial, fun row _ => ?_, fun _ _ => final_free⟩
    cases row with
    | none => exact final_free
    | some row =>
      simp only [upholds_bind]
      refine custody_overlooks.publishStatus id (custody_overlooks.notify _ _ _ _ ?_)
      exact custody_armForNextRun final_free row now final_free

/-- A row that may be an orphan is looked at, and armed if it is one. -/
theorem custody_rescue (now : UInt64) (row : Row) :
    custody.Upholds (Scheduler.rescue now row) .free (fun g _ => g = .free) (· = .free) := by
  unfold Scheduler.rescue Scheduler.isOrphan
  simp only [upholds_bind, upholds_orElse, upholds_map, upholds_ite, upholds_pure, true_implies,
    not_true_eq_false, false_implies, not_false_eq_true, Bool.false_eq_true, and_true, true_and]
  refine (upholds_isArmed row.id).2 ⟨final_free, fun b _ => ⟨fun _ => ?_, fun _ => rfl⟩,
    fun _ _ => rfl⟩
  refine (custody_armAndRecord final_free row .zero).mono ?_ fun _ hg => hg
  intro _ _ heq
  subst heq
  exact custody_overlooks.emit _ rfl

theorem custody_tick : Discharges Scheduler.tick .free := by
  unfold Scheduler.tick
  simp only [upholds_bind, upholds_pure]
  refine custody_overlooks.now fun now => ?_
  refine (upholds_store (.due now)).2 ⟨trivial, fun due _ => ?_, fun _ _ => final_free⟩
  have rounds : custody.Upholds (due.mapM (Scheduler.rescue now)) .free (fun g _ => g = .free)
      (· = .free) := by
    refine upholds_mapM (fun _ (g : Custody) => g = .free) (fun row rest => ?_) due rfl
    intro _ heq
    subst heq
    exact custody_rescue now row
  refine rounds.mono ?_ ?_
  · intro _ _ heq
    subst heq
    exact final_free
  · intro _ heq
    subst heq
    exact final_free

theorem custody_reading {job : Job} (h : job.onlyReads = true) :
    custody.Keeps (fun g _ => custody.final g) (job.program s) .free := by
  have reading (g : Custody) (c : Call) (hg : custody.final g) (hc : c.isReading = true) :
      custody.allows g c ∧ ∀ r, custody.final (custody.next g c r) := by
    cases c with
    | store c => cases c <;> first | exact ⟨trivial, fun _ => hg⟩ | cases hc
    | readStatus | publish | subscribe | unsubscribe => exact ⟨trivial, fun _ => hg⟩
    | _ => cases hc
  exact keeps_of_callsOnly reading (callsOnly_reading h) final_free

/-! ## Operations with a claim -/

/-- What is decided about a row in custody is among the ways to conclude it. -/
theorem custody_decide {row : Row} {now : UInt64} (result : WorkResult) (ceiling : UInt64)
    {ok : Custody → Decision → Prop} (h : ∀ d, Concludes row now d → ok (.holding row) d) :
    custody.Upholds ((Verdict.ofResult row now result).decide ceiling row now) (.holding row) ok
      failed :=
  upholds_decide result ceiling (fun _ _ _ => ⟨trivial, fun _ => rfl⟩)
    (fun left _ => ⟨⟨row, rfl, left, rfl⟩, fun _ => rfl⟩) fun d hd _ => h d hd

/-- To complete a row in custody ends custody. -/
theorem custody_complete {row : Row} {now : UInt64} {d : Decision} (hd : Concludes row now d)
    {ok : Custody → Bool → Prop} (hok : ∀ applied, ok .ended applied) (hfailed : failed .ended) :
    custody.Upholds (Scheduler.complete row d now) (.holding row) ok failed := by
  unfold Scheduler.complete
  simp only [upholds_bind, upholds_ite, upholds_pure]
  refine (upholds_store _).2
    ⟨⟨row, now, d, rfl, hd, rfl, rfl, rfl⟩, fun applied _ => ⟨fun _ => ?_, fun _ => hok applied⟩,
      fun _ _ => hfailed⟩
  exact custody_overlooks.publishStatus _ (custody_overlooks.notify _ _ _ _ (hok applied))

theorem custody_failUnavailable (row : Row) (fault : PayloadFault)
    {ok : Custody → Option RunOutcome → Prop} (hfailed : failed .ended) :
    custody.Upholds (Scheduler.failUnavailable row fault) (.holding row) ok failed := by
  unfold Scheduler.failUnavailable
  simp only [upholds_bind, upholds_throw]
  refine custody_overlooks.now fun now => ?_
  exact custody_complete (.failed _ _ (by decide) (by decide)) (fun _ => hfailed) hfailed

theorem custody_runClaimed (row : Row) (payload : Payload)
    {ok : Custody → Option RunOutcome → Prop} (hok : ∀ o, ok .ended o) (hfailed : failed .ended) :
    custody.Upholds (s.runClaimed row payload) (.holding row) ok failed := by
  unfold Scheduler.runClaimed
  simp only [upholds_bind, upholds_pure]
  refine custody_overlooks.ask rfl fun ending => custody_overlooks.now fun now => ?_
  refine custody_decide _ _ fun d hd => ?_
  exact custody_complete hd (fun _ => hok _) hfailed

/-- After a cycle nothing is in custody. -/
theorem custody_execute (id : TaskId) {ok : Custody → Option RunOutcome → Prop}
    (hok : ∀ g, custody.final g → ∀ o, ok g o) (hfailed : ∀ g, custody.final g → failed g) :
    custody.Upholds (s.execute id) .free ok failed := by
  unfold Scheduler.execute
  simp only [upholds_bind]
  refine custody_overlooks.now fun now => ?_
  refine (upholds_store _).2 ⟨rfl, fun claimed _ => ?_, fun _ _ => hfailed _ final_free⟩
  cases claimed with
  | none => exact hok _ final_free none
  | some row =>
    simp only [upholds_bind]
    refine custody_overlooks.publishStatus id (custody_overlooks.notify _ _ _ _ ?_)
    cases s.registry.instantiate row.spec.payloadTypeId row.spec.payloadData with
    | error fault => exact custody_failUnavailable row fault (hfailed _ final_ended)
    | ok payload => exact custody_runClaimed row payload (hok _ final_ended) (hfailed _ final_ended)

theorem custody_follow (hg : custody.final g) (id : TaskId) (o : RunOutcome) (hok : ok g ())
    (hfailed : failed g) : custody.Upholds (Scheduler.follow id o) g ok failed := by
  have dropped : custody.Upholds (ignoringFailure (disarm id)) g ok failed := by
    rw [upholds_ignoringFailure]
    exact (upholds_disarm id).2 ⟨hg, fun _ => hok, fun _ _ => hok⟩
  cases o with
  | succeeded => exact dropped
  | failed => exact dropped
  | again next spec delayMs =>
    unfold Scheduler.follow
    simp only [upholds_bind, upholds_orElse, upholds_map]
    refine (upholds_arm _ _ _).2 ⟨hg, fun handle _ => ?_, fun _ _ => hok⟩
    exact (upholds_store (.setPlatformId next handle)).2
      ⟨trivial, fun _ _ => hok, fun _ _ => hfailed⟩

theorem custody_dispatch (id : TaskId) : Discharges (s.dispatch id) .free := by
  unfold Scheduler.dispatch
  simp only [upholds_bind]
  refine custody_execute id (fun g hg o => ?_) fun _ hg => hg
  cases o with
  | none => exact hg
  | some o =>
    simp only [upholds_bind, upholds_pure]
    exact custody_follow hg id o hg hg

/-- **Every job keeps the conduct of custody**, whatever its calls return. -/
theorem custody_governs (s : Scheduler) : custody.Governs s := by
  intro job _
  cases job with
  | submit request => exact (custody.keeps_program _ _).2 (custody_submit request)
  | execute id =>
    exact (custody.keeps_program _ _).2 (custody_execute id (fun _ hg _ => hg) fun _ hg => hg)
  | dispatch id => exact (custody.keeps_program _ _).2 (custody_dispatch id)
  | cancel id => exact (custody.keeps_program _ _).2 (custody_cancel id)
  | cancelAll => exact (custody.keeps_program _ _).2 custody_cancelAll
  | reschedule id request => exact (custody.keeps_program _ _).2 (custody_reschedule id request)
  | tick => exact (custody.keeps_program _ _).2 custody_tick
  | taskStatus | list | executionLog | observe | unsubscribe => exact custody_reading rfl
  | record id handle =>
    exact (custody.keeps_program _ _).2
      ((upholds_store (.setPlatformId id handle)).2
        ⟨trivial, fun _ _ => final_free, fun _ _ => final_free⟩)

end BackgroundTasks
