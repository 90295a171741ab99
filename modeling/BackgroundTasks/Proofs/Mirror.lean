import BackgroundTasks.Proofs.Rows
import BackgroundTasks.Proofs.Descriptions
import BackgroundTasks.Proofs.Sequential

/-!
# Registrations mirror rows

Four operations arm tasks or disarm them, and each goes about it in its own way: a new or renewed
task is armed by what is left until its next run, a task that goes back to the queue by the delay
that was decided upon, a watchdog arms what is due and unarmed, and what has ended is disarmed. When
operations follow one another they all leave the same behind: a task is armed just when its row is
in the queue, and its registration says what the row says.

While a cycle is under way this does not hold of its task. So the proofs keep apart what is true of
one task and what is true of all others, which no operation touches.
-/

namespace BackgroundTasks

/-! ## Registrations -/

namespace Registrations

variable (r : Registrations) {id other : TaskId} (delay : Span) (conditions : Conditions)

theorem find?_disarm_self (id : TaskId) : (r.disarm id).find? id = none :=
  lookup_without_self r.armed id

theorem find?_disarm_other (h : other ≠ id) : (r.disarm id).find? other = r.find? other :=
  lookup_without_other r.armed h

theorem find?_arm_self (id : TaskId) :
    (r.arm id delay conditions).find? id = some ⟨delay, conditions, r.history.length⟩ :=
  lookup_renewed_self r.armed id _

theorem find?_arm_other (h : other ≠ id) :
    (r.arm id delay conditions).find? other = r.find? other :=
  lookup_renewed_other r.armed h _

end Registrations

/-! ## What goes together -/

/-- A row's next run is a delay after its last change, or at the end of time. -/
def Row.RunsAfter (row : Row) (delay : Span) : Prop :=
  row.nextRunMs.toNat = min (row.updatedMs.toNat + delay.toMillis.toNat) maxMillis.toNat

/-- How the row of a task and its registration go together while nothing is under way. -/
inductive Mirrored (id : TaskId) : Option Row → Option Registration → Prop where
  | absent : Mirrored id none none
  | ended {row : Row} (ended : row.state.isTerminal = true) : Mirrored id (some row) none
  | queued {row : Row} {reg : Registration} (queued : row.state = .enqueued)
      (conditions : reg.conditions = row.spec.conditions)
      (handle : row.platformId = some (Registrations.handle id))
      (time : row.RunsAfter reg.delay) : Mirrored id (some row) (some reg)

namespace Host

/-- Rows and registrations of all tasks go together. -/
def Mirrors (h : Host) : Prop :=
  ∀ id, Mirrored id (h.table.find? id) (h.registrations.find? id)

/-- Those of all tasks but one do. -/
def MirrorsBut (h : Host) (id : TaskId) : Prop :=
  ∀ other, other ≠ id → Mirrored other (h.table.find? other) (h.registrations.find? other)

variable {h h' : Host} {id : TaskId} {row : Row} {delay : Span} {s : Scheduler}

theorem Mirrors.but (hm : h.Mirrors) (id : TaskId) : h.MirrorsBut id := fun other _ => hm other

theorem MirrorsBut.all (hm : h.MirrorsBut id)
    (hid : Mirrored id (h.table.find? id) (h.registrations.find? id)) : h.Mirrors := by
  intro other
  by_cases hne : other = id
  · exact hne ▸ hid
  · exact hm other hne

/-- What leaves all other rows alone leaves them mirrored. -/
theorem MirrorsBut.of_rows (hm : h.MirrorsBut id) {t : TaskTable}
    (hrows : ∀ other, other ≠ id → t.find? other = h.table.find? other) :
    ({ h with table := t } : Host).MirrorsBut id := fun other hne => by
  show Mirrored other (t.find? other) _
  rw [hrows other hne]
  exact hm other hne

theorem MirrorsBut.arm (hm : h.MirrorsBut id) (delay : Span) (conditions : Conditions) :
    (h.after (.arm id delay conditions)).MirrorsBut id := fun other hne => by
  show Mirrored other _ ((h.registrations.arm id delay conditions).find? other)
  rw [Registrations.find?_arm_other _ _ _ hne]
  exact hm other hne

theorem MirrorsBut.disarm (hm : h.MirrorsBut id) : (h.after (.disarm id)).MirrorsBut id :=
  fun other hne => by
    show Mirrored other _ ((h.registrations.disarm id).find? other)
    rw [Registrations.find?_disarm_other _ hne]
    exact hm other hne

/-- A task that has ended is mirrored once it is disarmed. -/
theorem MirrorsBut.disarmed (hm : h.MirrorsBut id) (hrow : h.table.find? id = some row)
    (hend : row.state.isTerminal = true) : (h.after (.disarm id)).Mirrors := by
  refine hm.disarm.all ?_
  show Mirrored id (h.table.find? id) ((h.registrations.disarm id).find? id)
  rw [hrow, Registrations.find?_disarm_self]
  exact .ended hend

/-! ## Arming -/

/-- A queued row is mirrored once it is armed in time and knows the handle. -/
theorem MirrorsBut.armed (hm : h.MirrorsBut row.id) (hrow : h.table.find? row.id = some row)
    (hqueued : row.state = .enqueued) (htime : row.RunsAfter delay)
    (hhandle : row.platformId = some (Registrations.handle row.id)) :
    (h.after (.arm row.id delay row.spec.conditions)).Mirrors := by
  refine (hm.arm delay row.spec.conditions).all ?_
  show Mirrored row.id (h.table.find? row.id) ((h.registrations.arm row.id delay _).find? row.id)
  rw [hrow, Registrations.find?_arm_self]
  exact .queued hqueued rfl hhandle htime

/-- The handle may be recorded after the task has been armed. -/
theorem MirrorsBut.recorded (hm : h.MirrorsBut row.id) (hrow : h.table.find? row.id = some row)
    (hqueued : row.state = .enqueued) (htime : row.RunsAfter delay) :
    ((h.after (.arm row.id delay row.spec.conditions)).after
      (.store (.setPlatformId row.id (some (Registrations.handle row.id))))).Mirrors := by
  let step := RowStep.setPlatformId (some (Registrations.handle row.id))
  have hothers := (hm.arm delay row.spec.conditions).of_rows
    (t := (h.table.stepAt row.id step).2) fun other hne => h.table.find?_stepAt_other step hne
  have htable : (h.table.answer (.setPlatformId row.id (some (Registrations.handle row.id)))).2
      = (h.table.stepAt row.id step).2 := by
    rw [TaskTable.answer_setPlatformId hrow]
  have hafter : Mirrored row.id ((h.table.stepAt row.id step).2.find? row.id)
      ((h.registrations.arm row.id delay row.spec.conditions).find? row.id) := by
    rw [TaskTable.find?_stepAt_self, hrow, Registrations.find?_arm_self]
    exact .queued hqueued rfl rfl htime
  show ({ table := (h.table.answer _).2, registrations := _ } : Host).Mirrors
  rw [htable]
  exact hothers.all hafter

open Operation Conduct

/-! A host answers, so what it answers decides what follows. -/

theorem hosting_store {c : StoreCall} {r : c.Result} {ok : Host → c.Result → Prop}
    {failed : Host → Prop} (hr : (h.table.answer c).1 = Except.ok r)
    (hok : ok (h.after (.store c)) r) : hosting.Upholds (store c) h ok failed := by
  refine (upholds_store c).2 ⟨trivial, fun a ha => ?_, fun failure hfailure => ?_⟩
  · obtain rfl : a = r := Except.ok.inj (ha.trans hr)
    exact hok
  · cases hfailure.trans hr

theorem hosting_arm {conditions : Conditions} {ok : Host → Option String → Prop}
    {failed : Host → Prop}
    (hok : ok (h.after (.arm id delay conditions)) (some (Registrations.handle id))) :
    hosting.Upholds (arm id delay conditions) h ok failed := by
  refine (upholds_arm id delay conditions).2 ⟨trivial, fun handle hhandle => ?_, nofun⟩
  obtain rfl : handle = some (Registrations.handle id) := Except.ok.inj hhandle
  exact hok

theorem hosting_disarm {ok : Host → Unit → Prop} {failed : Host → Prop}
    (hok : ok (h.after (.disarm id)) ()) : hosting.Upholds (disarm id) h ok failed :=
  (upholds_disarm id).2 ⟨trivial, fun _ => hok, nofun⟩

theorem hosting_isArmed {ok : Host → Bool → Prop} {failed : Host → Prop}
    (hok : ok h (h.registrations.isArmed id)) : hosting.Upholds (isArmed id) h ok failed := by
  refine (upholds_isArmed id).2 ⟨trivial, fun armed harmed => ?_, nofun⟩
  obtain rfl : armed = h.registrations.isArmed id := Except.ok.inj harmed
  exact hok

/-- To record the handle of a queued row that was armed in time; the row is there, so it works. -/
theorem mirrors_record (hm : h.MirrorsBut row.id) (hrow : h.table.find? row.id = some row)
    (hqueued : row.state = .enqueued) (htime : row.RunsAfter delay) {failed : Host → Prop} :
    hosting.Upholds (store (.setPlatformId row.id (some (Registrations.handle row.id))))
      (h.after (.arm row.id delay row.spec.conditions)) (fun h' _ => h'.Mirrors) failed := by
  have hanswer := congrArg Prod.fst (TaskTable.answer_setPlatformId hrow
    (some (Registrations.handle row.id)))
  exact hosting_store hanswer (hm.recorded hrow hqueued htime)

/-- To arm a queued row in time and to record the handle. -/
theorem mirrors_armAndRecord (hm : h.MirrorsBut row.id) (hrow : h.table.find? row.id = some row)
    (hqueued : row.state = .enqueued) (htime : row.RunsAfter delay) {failed : Host → Prop} :
    hosting.Upholds (armAndRecord row delay) h (fun h' _ => h'.Mirrors) failed := by
  unfold armAndRecord
  rw [upholds_bind]
  refine hosting_arm ?_
  rw [upholds_ite]
  constructor
  · intro _
    exact mirrors_record hm hrow hqueued htime
  · intro hsame
    exact hm.armed hrow hqueued htime (Decidable.not_not.1 hsame).symm

/-- What is left until the next run reaches it, if the row was changed just now. -/
theorem runsAfter_delayFrom {row : Row} {now : UInt64} (hupdated : row.updatedMs = now)
    (hle : now ≤ row.nextRunMs) : row.RunsAfter (.ofMillis (row.delayFrom now)) := by
  unfold Row.RunsAfter Row.delayFrom
  rw [Span.toMillis_ofMillis, toNat_satSub, hupdated]
  have hmax : maxMillis.toNat = 18446744073709551615 := rfl
  have hle := UInt64.le_iff_toNat_le.1 hle
  have hlt := row.nextRunMs.toNat_lt
  omega

theorem mirrors_armForNextRun (row : Row) {now : UInt64} (hm : h.MirrorsBut row.id)
    (hrow : h.table.find? row.id = some row) (hqueued : row.state = .enqueued)
    (hupdated : row.updatedMs = now) (hle : now ≤ row.nextRunMs) {failed : Host → Prop} :
    hosting.Upholds (armForNextRun row now) h (fun h' _ => h'.Mirrors) failed := by
  unfold armForNextRun
  rw [upholds_ignoringFailure]
  exact mirrors_armAndRecord hm hrow hqueued (runsAfter_delayFrom hupdated hle)

/-! ## Operations without a cycle -/

/-- A store that reports an error leaves its host as it is. -/
theorem after_store_error {c : StoreCall} {failure : Failure}
    (hfailure : Expects h (.store c) (Except.error failure)) : h.after (.store c) = h := by
  have htable : (h.table.answer c).2 = h.table :=
    TaskTable.answer_error (Prod.ext (Eq.symm hfailure) rfl)
  show ({ h with table := (h.table.answer c).2 } : Host) = h
  rw [htable]

theorem le_nextRun_of_normalize {request : Request} {registry : Registry} {now : UInt64}
    {config : Config} {n : NormalizedRequest}
    (hn : request.normalize registry now config = .ok n) : now ≤ n.nextRunMs := by
  obtain ⟨_, _, _, _, -, -, -, -, hnext, -⟩ := Request.normalize_eq_ok hn
  rw [hnext]
  exact le_satAdd now _

theorem mirrors_submit (hm : h.Mirrors) (request : Request) :
    hosting.Upholds (s.submit request) h (fun h' _ => h'.Mirrors) Mirrors := by
  unfold Scheduler.submit
  rw [upholds_bind]
  refine hosting_overlooks.now fun now => ?_
  rw [upholds_bind]
  refine upholds_normalize_eq (fun n hn => ?_) hm
  rw [upholds_bind]
  refine hosting_overlooks.ask rfl fun id => ?_
  rw [upholds_bind]
  let row := Row.fresh id n.spec n.nextRunMs now
  refine (upholds_store (.insert row)).2 ⟨trivial, fun _ hok => ?_, fun failure hfailure => ?_⟩
  · have hok : Except.ok () = (h.table.answer (.insert row)).1 := hok
    show hosting.Upholds _ { h with table := (h.table.answer (.insert row)).2 } _ _
    rw [TaskTable.answer] at hok ⊢
    cases hinsert : h.table.insert? row with
    | none => rw [hinsert] at hok; cases hok
    | some t =>
      -- the row is new, and all others are as they were
      obtain ⟨-, hrow, hothers⟩ := TaskTable.find?_insert? hinsert
      simp only [upholds_bind]
      refine hosting_overlooks.publishStatus id (hosting_overlooks.notify _ _ _ _ ?_)
      refine (mirrors_armForNextRun row ?_ hrow rfl rfl (le_nextRun_of_normalize hn)).mono
        (fun _ _ hm' => hm') fun _ hm' => hm'
      exact (hm.but id).of_rows hothers
  · show Mirrors (h.after (.store (.insert row)))
    rw [after_store_error hfailure]
    exact hm

theorem hosting_afterCancel (h : Host) (id : TaskId) {failed : Host → Prop} :
    hosting.Upholds (Scheduler.afterCancel id) h (fun h' _ => h' = h.after (.disarm id))
      failed := by
  unfold Scheduler.afterCancel
  simp only [upholds_bind, upholds_ignoringFailure]
  refine hosting_disarm ?_
  exact hosting_overlooks.publishStatus id (hosting_overlooks.notify _ _ _ _ rfl)

theorem mirrors_cancel (hm : h.Mirrors) (id : TaskId) :
    hosting.Upholds (Scheduler.cancel id) h (fun h' _ => h'.Mirrors) Mirrors := by
  unfold Scheduler.cancel
  simp only [upholds_bind, upholds_ite, upholds_throw, upholds_pure]
  refine hosting_store rfl ?_
  refine ⟨fun _ => hm, fun _ => hosting_overlooks.now fun now => ?_⟩
  let step := RowStep.move State.cancellable .cancelled now
  have hmoved : (h.table.answer (.transition id State.cancellable .cancelled now)).1
      = Except.ok (if (h.table.stepAt id step).1.isSome then (1 : Nat) else (0 : Nat)) := rfl
  refine hosting_store hmoved ?_
  cases hstep : (h.table.stepAt id step).1 with
  | none =>
    -- nothing was to be cancelled
    refine ⟨fun _ => ?_, fun hmoved => absurd rfl hmoved⟩
    show Mirrors { h with table := (h.table.stepAt id step).2 }
    rw [TaskTable.stepAt_refused hstep]
    exact hm
  | some row =>
    refine ⟨fun hmoved => absurd hmoved Nat.one_ne_zero, fun _ => ?_⟩
    obtain ⟨⟨p, -, -, hrow⟩, hfound⟩ := TaskTable.stepAt_taken hstep
    obtain rfl := Option.some.inj hrow
    refine (hosting_afterCancel _ id).mono (fun _ _ hafter => ?_) fun _ hm' => hm'
    subst hafter
    exact ((hm.but id).of_rows fun other hne => h.table.find?_stepAt_other step hne).disarmed
      hfound rfl

/-- What is true while the tasks of `rest` are cancelled but still armed. -/
structure Cancelling (rest : List TaskId) (h : Host) : Prop where
  ended : ∀ id ∈ rest, ∃ row, h.table.find? id = some row ∧ row.state.isTerminal = true
  others : ∀ id, id ∉ rest → Mirrored id (h.table.find? id) (h.registrations.find? id)

theorem Cancelling.disarm {rest : List TaskId} (hc : Cancelling (id :: rest) h) :
    Cancelling rest (h.after (.disarm id)) where
  ended other hother := hc.ended other (List.mem_cons_of_mem _ hother)
  others other hother := by
    show Mirrored other (h.table.find? other) ((h.registrations.disarm id).find? other)
    by_cases hne : other = id
    · subst hne
      obtain ⟨row, hrow, hend⟩ := hc.ended other List.mem_cons_self
      rw [hrow, Registrations.find?_disarm_self]
      exact .ended hend
    · rw [Registrations.find?_disarm_other _ hne]
      exact hc.others other (List.not_mem_cons_of_ne_of_not_mem hne hother)

theorem mirrors_cancelAll (hm : h.Mirrors) :
    hosting.Upholds Scheduler.cancelAll h (fun h' _ => h'.Mirrors) Mirrors := by
  unfold Scheduler.cancelAll
  simp only [upholds_bind, upholds_pure]
  refine hosting_overlooks.now fun now => ?_
  let step := RowStep.move State.cancellable .cancelled now
  refine hosting_store rfl ?_
  have hstart :
      Cancelling (h.table.stepAll step).1 { h with table := (h.table.stepAll step).2 } := by
    refine ⟨fun id hid => ?_, fun id hid => ?_⟩
    · obtain ⟨row, -, -, hrow⟩ := TaskTable.takes_of_mem_stepAll hid
      exact ⟨_, hrow, rfl⟩
    · show Mirrored id ((h.table.stepAll step).2.find? id) (h.registrations.find? id)
      rw [TaskTable.find?_of_not_mem_stepAll hid]
      exact hm id
  refine (upholds_forM Cancelling (fun id rest g hg => ?_) _ hstart).mono
    (fun g _ hg id => hg.others id List.not_mem_nil) fun _ hm' => hm'
  refine (hosting_afterCancel g id).mono (fun _ _ hafter => ?_) fun _ hm' => hm'
  subst hafter
  exact hg.disarm

theorem mirrors_reschedule (hm : h.Mirrors) (id : TaskId) (request : Request) :
    hosting.Upholds (s.reschedule id request) h (fun h' _ => h'.Mirrors) Mirrors := by
  unfold Scheduler.reschedule
  rw [upholds_bind]
  refine hosting_overlooks.now fun now => ?_
  rw [upholds_bind]
  refine upholds_normalize_eq (fun n hn => ?_) hm
  rw [upholds_bind]
  let step := RowStep.replace n.spec n.nextRunMs now
  refine hosting_store (r := (h.table.replaceSpec id n.spec n.nextRunMs now).1) rfl ?_
  have htable : h.after (.store (.replaceSpec id n.spec n.nextRunMs now))
      = { h with table := (h.table.stepAt id step).2 } := by
    show ({ h with table := (h.table.replaceSpec id n.spec n.nextRunMs now).2 } : Host) = _
    rw [TaskTable.replaceSpec_snd]
  show hosting.Upholds _ (h.after (.store (.replaceSpec id n.spec n.nextRunMs now))) _ _
  rw [htable]
  have hreplaced := h.table.replaceSpec_replaced id n.spec n.nextRunMs now
  -- a row that is not replaced stays as it is
  have refused (hne : (h.table.replaceSpec id n.spec n.nextRunMs now).1 ≠ .replaced) :
      Mirrors { h with table := (h.table.stepAt id step).2 } := by
    have hnone := Option.not_isSome_iff_eq_none.1 fun hsome => hne (hreplaced.2 hsome)
    rw [TaskTable.stepAt_refused hnone]
    exact hm
  cases hout : (h.table.replaceSpec id n.spec n.nextRunMs now).1 with
  | notFound | running =>
    exact refused (by rw [hout]; decide)
  | replaced =>
    obtain ⟨p, -, -, hrow⟩ := TaskTable.takes_of_isSome (hreplaced.1 hout)
    simp only [upholds_bind]
    refine hosting_store (congrArg Except.ok hrow) ?_
    have hid : (step.change p).id = id := TaskTable.id_of_find? hrow
    simp only [upholds_bind]
    refine hosting_overlooks.publishStatus id (hosting_overlooks.notify _ _ _ _ ?_)
    refine (mirrors_armForNextRun (step.change p) ?_ (hid.symm ▸ hrow) rfl rfl
      (le_nextRun_of_normalize hn)).mono (fun _ _ hm' => hm') fun _ hm' => hm'
    rw [hid]
    exact (hm.but id).of_rows fun other hne => h.table.find?_stepAt_other step hne

/-- A task is armed just when its row is in the queue. -/
theorem Mirrors.isArmed_iff (hm : h.Mirrors) (id : TaskId) :
    h.registrations.isArmed id = true
      ↔ ∃ row, h.table.find? id = some row ∧ row.state = .enqueued := by
  have hid := hm id
  unfold Registrations.isArmed
  generalize h.table.find? id = found at hid ⊢
  generalize h.registrations.find? id = registered at hid ⊢
  cases hid with
  | absent => simp
  | ended hend =>
    constructor
    · exact nofun
    · intro ⟨_, hsome, hqueued⟩
      obtain rfl := Option.some.inj hsome
      rw [hqueued] at hend
      cases hend
  | queued hqueued => simp [hqueued]

/-- The watchdog finds no orphan, since what is due is in the queue. -/
theorem mirrors_tick (hm : h.Mirrors) :
    hosting.Upholds Scheduler.tick h (fun h' _ => h'.Mirrors) Mirrors := by
  unfold Scheduler.tick
  simp only [upholds_bind, upholds_pure]
  refine hosting_overlooks.now fun now => ?_
  refine hosting_store rfl ?_
  have harmed : ∀ row ∈ h.table.due now, h.registrations.isArmed row.id = true := fun row hrow =>
    (hm.isArmed_iff row.id).2 ⟨row, TaskTable.mem_due hrow⟩
  refine (upholds_mapM
    (fun rest (g : Host) => g = h ∧ ∀ row ∈ rest, h.registrations.isArmed row.id = true)
    (fun row rest g hg => ?_) _ ⟨rfl, harmed⟩).mono (fun g _ hg => hg.1.symm ▸ hm) fun _ hm' => hm'
  obtain ⟨rfl, harmed⟩ := hg
  obtain ⟨hrow, hrest⟩ := List.forall_mem_cons.1 harmed
  unfold Scheduler.rescue Scheduler.isOrphan
  rw [upholds_bind, upholds_orElse, upholds_map]
  refine hosting_isArmed ?_
  rw [hrow]
  exact ⟨rfl, hrest⟩

end Host

/-! ## Cycles -/

/-- A description whose payload can be restored. -/
def Scheduler.Resolves (s : Scheduler) (spec : Spec) : Prop :=
  ∃ payload, s.registry.instantiate spec.payloadTypeId spec.payloadData = .ok payload

/-- A decision that ends a task, or sends it back to the queue for a run after its delay. -/
inductive Settles (row : Row) (now : UInt64) : Decision → Prop where
  | ended {state : State} {kind : LogKind} {message : String} {event : EventKind}
      {outcome : RunOutcome} (final : state.isTerminal = true)
      (becomes : State.running.canBecome state = true) (ends : outcome.isTerminal = true) :
      Settles row now (.ended row now state kind message event outcome)
  | queued {next delayMs : UInt64} {retries : UInt32} {kind : LogKind} {message : String}
      {event : EventKind}
      (time : next.toNat = min (now.toNat + delayMs.toNat) maxMillis.toNat) :
      Settles row now (.queued row now next delayMs retries kind message event)

namespace Settles

variable {row : Row} {now : UInt64} {d : Decision}

theorem claimedAttempt (hd : Settles row now d) :
    d.completion.claimedAttempt = row.attempts := by
  cases hd <;> rfl

theorem canBecome (hd : Settles row now d) :
    State.running.canBecome d.completion.state = true := by
  cases hd with
  | ended final becomes ends => exact becomes
  | queued time => rfl

end Settles

namespace Host

variable {h h' : Host} {id : TaskId} {row : Row} {now : UInt64} {d : Decision} {s : Scheduler}
  {failed : Host → Prop}

open Operation Conduct

/-- The next run of a periodic task is not in the past, so the delay until then does not wrap. -/
theorem settles_decide (v : Verdict) (ceiling : UInt64) (row : Row) (now : UInt64)
    {ok : Host → Decision → Prop} (hok : ∀ d, Settles row now d → ok h d) :
    hosting.Upholds (v.decide ceiling row now) h ok failed := by
  cases v with
  | succeeded | failed => exact hok _ (.ended rfl rfl rfl)
  | comesBack =>
    refine ⟨trivial, fun (next : UInt64) (hnext : now ≤ next) => hok _ (.queued ?_)⟩
    have hmax : maxMillis.toNat = 18446744073709551615 := rfl
    have hle := UInt64.le_iff_toNat_le.1 hnext
    have hlt := next.toNat_lt
    rw [UInt64.toNat_sub_of_le _ _ hnext]
    omega
  | retried => exact ⟨trivial, fun delayMs _ => hok _ (.queued (toNat_satAdd now delayMs))⟩

/-- A cycle has claimed a row, and all other tasks are mirrored. -/
structure Claimed (row : Row) (h : Host) : Prop where
  found : h.table.find? row.id = some row
  running : row.state = .running
  others : h.MirrorsBut row.id

/-- A decision has been stored for a row, and all other tasks are mirrored. -/
structure Concluded (row : Row) (d : Decision) (h : Host) : Prop where
  found : h.table.find? row.id = some ((RowStep.complete d.completion).change row)
  others : h.MirrorsBut row.id

/-- With nothing in between, a result is never too late. -/
theorem hosting_complete (hc : h.Claimed row) (hd : Settles row now d) {ok : Host → Bool → Prop}
    (hok : ∀ h' : Host, h'.Concluded row d → ok h' true) :
    hosting.Upholds (Scheduler.complete row d now) h ok failed := by
  unfold Scheduler.complete
  simp only [upholds_bind, upholds_ite, upholds_pure]
  let step := RowStep.complete d.completion
  have haccepts : step.accepts row = true :=
    RowStep.complete_accepts.2 ⟨hc.running, hd.claimedAttempt.symm, hc.running ▸ hd.canBecome⟩
  have happlied : (h.table.complete row.id d.completion (d.entry row now)).1.1 = true := by
    rw [TaskTable.complete_applied, hc.found]
    exact haccepts
  refine hosting_store (congrArg Except.ok happlied) ?_
  have hconcluded :
      (h.after (.store (.complete row.id d.completion (d.entry row now)))).Concluded row d := by
    refine ⟨?_, hc.others.of_rows fun other hne => h.table.find?_stepAt_other step hne⟩
    show (h.table.stepAt row.id step).2.find? row.id = _
    rw [TaskTable.find?_stepAt_self, hc.found, Option.map_some, RowStep.after_of_accepts haccepts]
  refine ⟨fun _ => ?_, fun hnot => absurd rfl hnot⟩
  exact hosting_overlooks.publishStatus _ (hosting_overlooks.notify _ _ _ _ (hok _ hconcluded))

/-- What a cycle leaves for its outcome to be followed. -/
def Executed (id : TaskId) (h : Host) : Option RunOutcome → Prop
  | none => h.Mirrors
  | some outcome => ∃ row now d, Settles row now d ∧ row.id = id ∧ outcome = d.outcome
      ∧ h.Concluded row d

theorem hosting_runClaimed (hc : h.Claimed row) (hid : row.id = id) (payload : Payload) :
    hosting.Upholds (s.runClaimed row payload) h (fun h' o => h'.Executed id o) failed := by
  unfold Scheduler.runClaimed
  simp only [upholds_bind, upholds_pure]
  refine hosting_overlooks.ask rfl fun ending => hosting_overlooks.now fun now => ?_
  refine settles_decide _ _ _ _ fun d hd => ?_
  exact hosting_complete hc hd fun h' hconcluded => ⟨row, now, d, hd, hid, rfl, hconcluded⟩

/-- A cycle finds its task mirrored, or in the queue after its registration was given up. -/
theorem hosting_execute (hothers : h.MirrorsBut id)
    (hid : h.Mirrors ∨ ∃ row, h.table.find? id = some row ∧ row.state = .enqueued)
    (hresolves : ∀ row, h.table.find? id = some row → s.Resolves row.spec) :
    hosting.Upholds (s.execute id) h (fun h' o => h'.Executed id o) failed := by
  unfold Scheduler.execute
  rw [upholds_bind]
  refine hosting_overlooks.now fun now => ?_
  rw [upholds_bind]
  let step := RowStep.claim now
  refine hosting_store (r := (h.table.stepAt id step).1) rfl ?_
  show hosting.Upholds _ { h with table := (h.table.stepAt id step).2 } _ _
  cases hstep : (h.table.stepAt id step).1 with
  | none =>
    rw [TaskTable.stepAt_refused hstep]
    refine hid.resolve_right fun ⟨row, hrow, hqueued⟩ => ?_
    have hsome := h.table.stepAt_isSome id step
    rw [hstep, hrow] at hsome
    have haccepts : step.accepts row = true := by
      show (row.state == .enqueued) = true
      rw [hqueued]
      rfl
    exact nomatch hsome.trans haccepts
  | some row =>
    obtain ⟨⟨p, hp, -, hrow⟩, hfound⟩ := TaskTable.stepAt_taken hstep
    obtain rfl := Option.some.inj hrow
    have hrowId : (step.change p).id = id := TaskTable.id_of_find? hfound
    obtain ⟨payload, hpayload⟩ := hresolves p hp
    have hclaimed : Claimed (step.change p) { h with table := (h.table.stepAt id step).2 } := by
      refine ⟨hrowId.symm ▸ hfound, rfl, ?_⟩
      rw [hrowId]
      exact hothers.of_rows fun other hne => h.table.find?_stepAt_other step hne
    simp only [upholds_bind]
    refine hosting_overlooks.publishStatus id (hosting_overlooks.notify _ _ _ _ ?_)
    have hinstantiate : s.registry.instantiate (step.change p).spec.payloadTypeId
        (step.change p).spec.payloadData = .ok payload := hpayload
    rw [hinstantiate]
    exact hosting_runClaimed hclaimed hrowId payload

theorem mirrors_follow (hd : Settles row now d) (hc : h.Concluded row d) :
    hosting.Upholds (Scheduler.follow row.id d.outcome) h (fun h' _ => h'.Mirrors) failed := by
  cases hd with
  | @ended state kind message event outcome final becomes ends =>
    show hosting.Upholds (Scheduler.follow row.id outcome) h _ _
    have dropped : hosting.Upholds (ignoringFailure (disarm row.id)) h (fun h' _ => h'.Mirrors)
        failed := by
      rw [upholds_ignoringFailure]
      exact hosting_disarm (hc.others.disarmed hc.found final)
    cases outcome with
    | succeeded | failed => exact dropped
    | again => cases ends
  | @queued next delayMs retries kind message event time =>
    show hosting.Upholds (Scheduler.follow row.id (.again row.id row.spec delayMs)) h _ _
    unfold Scheduler.follow
    rw [upholds_bind, upholds_orElse, upholds_map]
    refine hosting_arm ?_
    let after := (RowStep.complete (Decision.queued row now next delayMs retries kind message
      event).completion).change row
    have htime : after.RunsAfter (.ofMillis delayMs) := by
      unfold Row.RunsAfter
      rw [Span.toMillis_ofMillis]
      exact time
    have hothers : h.MirrorsBut after.id := hc.others
    have hfound : h.table.find? after.id = some after := hc.found
    exact mirrors_record hothers hfound rfl htime

theorem mirrors_dispatch (hothers : h.MirrorsBut id)
    (hid : h.Mirrors ∨ ∃ row, h.table.find? id = some row ∧ row.state = .enqueued)
    (hresolves : ∀ row, h.table.find? id = some row → s.Resolves row.spec) :
    hosting.Upholds (s.dispatch id) h (fun h' _ => h'.Mirrors) failed := by
  unfold Scheduler.dispatch
  rw [upholds_bind]
  refine (hosting_execute hothers hid hresolves).mono (fun h' outcome hexecuted => ?_)
    fun _ hfailed => hfailed
  cases outcome with
  | none => exact hexecuted
  | some outcome =>
    obtain ⟨row, now, d, hd, rfl, rfl, hconcluded⟩ := hexecuted
    simp only [upholds_bind, upholds_pure]
    exact mirrors_follow hd hconcluded

end Host

/-! ## Any number of operations -/

/-- Whether an operation tells the platform all that follows from it. -/
def Job.isWhole : Job → Bool
  | execute _ | record .. => false
  | _ => true

/-- Hosts that come about when one operation follows the other, over a host without tasks. -/
inductive Host.Course (s : Scheduler) : Host → Prop where
  | start : Course s {}
  | operate {h h' : Host} {job : Job} (course : Course s h) (whole : job.isWhole = true)
      (resolves : ∀ id, job = .dispatch id →
        ∀ row, h.table.find? id = some row → s.Resolves row.spec)
      (finishes : Finishes (job.program s) h () h') : Course s h'
  /-- The platform gives a registration up, and its task is dispatched at once. -/
  | fire {h h' : Host} {id : TaskId} (course : Course s h)
      (armed : h.registrations.isArmed id = true)
      (resolves : ∀ row, h.table.find? id = some row → s.Resolves row.spec)
      (finishes : Finishes ((Job.dispatch id).program s)
        { h with registrations := h.registrations.disarm id } () h') : Course s h'

namespace Host

variable {h h' : Host} {s : Scheduler}

/-- What all ends of an operation have in common, its program has. -/
theorem mirrors_of_upholds {α : Type} {op : Operation α}
    (hop : hosting.Upholds op h (fun h' _ => h'.Mirrors) Mirrors)
    (hfinish : Finishes op.program h () h') : h'.Mirrors := by
  refine hfinish.keeps (fun g _ => g.Mirrors) ?_
  unfold Operation.program
  rw [Conduct.keeps_bind]
  refine Conduct.keeps_mono _ (fun g r hg => ?_) hop
  cases r <;> exact hg

/-- **One operation leaves rows and registrations as they belong together.** -/
theorem mirrors_finishes (hm : h.Mirrors) {job : Job} (hwhole : job.isWhole = true)
    (hresolves : ∀ id, job = .dispatch id →
      ∀ row, h.table.find? id = some row → s.Resolves row.spec)
    (hfinish : Finishes (job.program s) h () h') : h'.Mirrors := by
  cases job with
  | submit request => exact mirrors_of_upholds (mirrors_submit hm request) hfinish
  | dispatch id =>
    exact mirrors_of_upholds (mirrors_dispatch (hm.but id) (.inl hm) (hresolves id rfl)) hfinish
  | cancel id => exact mirrors_of_upholds (mirrors_cancel hm id) hfinish
  | cancelAll => exact mirrors_of_upholds (mirrors_cancelAll hm) hfinish
  | reschedule id request => exact mirrors_of_upholds (mirrors_reschedule hm id request) hfinish
  | tick => exact mirrors_of_upholds (mirrors_tick hm) hfinish
  | taskStatus | list | executionLog | observe | unsubscribe =>
    exact hfinish.keeps (fun h' _ => h' = h) (keeps_reading (callsOnly_reading rfl)) ▸ hm
  | execute | record => cases hwhole

theorem mirrors_course (hc : Course s h) : h.Mirrors := by
  induction hc with
  | start => exact fun id => .absent
  | operate course whole resolves finishes ih => exact mirrors_finishes ih whole resolves finishes
  | @fire h h' id course armed resolves finishes ih =>
    -- the row of a task that was armed is in the queue, and will be claimed
    exact mirrors_of_upholds
      (mirrors_dispatch (ih.but id).disarm (.inr ((ih.isArmed_iff id).1 armed)) resolves) finishes

end Host

/--
**Registrations mirror rows.** After each of any number of operations, one after the other, a task
is armed just when its row is in the queue; and then the registration has the conditions of the row,
the row has the handle of the registration, and its next run is the delay of the registration after
its last change, or at the end of time.
-/
theorem registrations_mirror_rows {s : Scheduler} {h : Host} (hc : h.Course s) (id : TaskId) :
    (h.registrations.isArmed id = true
        ↔ ∃ row, h.table.find? id = some row ∧ row.state = .enqueued)
      ∧ ∀ row reg, h.table.find? id = some row → h.registrations.find? id = some reg →
        reg.conditions = row.spec.conditions
          ∧ row.platformId = some (Registrations.handle id)
          ∧ row.nextRunMs.toNat
            = min (row.updatedMs.toNat + reg.delay.toMillis.toNat) maxMillis.toNat := by
  have hm := Host.mirrors_course hc
  refine ⟨hm.isArmed_iff id, fun row reg hrow hreg => ?_⟩
  have hid := hm id
  rw [hrow, hreg] at hid
  cases hid with
  | queued queued conditions handle time => exact ⟨conditions, handle, time⟩

namespace Rehearsal

/-- What the system is like once an hourly task has been submitted. -/
def submitted : System := (((Job.submit hourly).program scheduler).run System.answer system).2

/-- What it is like once the registration of the task has been given up. -/
def fired : System := { submitted with platform := submitted.platform.disarm first }

/-- What it is like once the task has been dispatched. -/
def cameBack : System := (((Job.dispatch first).program scheduler).run System.answer fired).2

end Rehearsal

open Rehearsal in
/-- An hourly task is submitted, its registration fires, and it comes back with another one. -/
theorem registrations_mirror_rows_hourly :
    ∃ h : Host, h.Course scheduler ∧ h.registrations.armCount first = 2
      ∧ ∃ row reg, h.table.find? first = some row ∧ row.state = .enqueued
        ∧ h.registrations.find? first = some reg
        ∧ row.platformId = some (Registrations.handle first)
        ∧ row.nextRunMs.toNat
          = min (row.updatedMs.toNat + reg.delay.toMillis.toNat) maxMillis.toNat := by
  -- both operations finish
  have hrun₁ : ((Job.submit hourly).program scheduler).run System.answer system
      = (.finished (), submitted) := rfl
  have hrun₂ : ((Job.dispatch first).program scheduler).run System.answer fired
      = (.finished (), cameBack) := rfl
  have hy : Host.Hosts {} system := ⟨rfl, rfl, fun _ => rfl⟩
  obtain ⟨h₁, hy₁, hfinish₁⟩ := hy.run hrun₁
  have hfired : Host.Hosts { h₁ with registrations := h₁.registrations.disarm first } fired :=
    ⟨hy₁.store, congrArg (Platform.disarm · first) hy₁.platform, hy₁.faults⟩
  obtain ⟨h₂, hy₂, hfinish₂⟩ := hfired.run hrun₂
  -- the registration that fires is there, and the payload of its task can be restored
  have harmed : submitted.platform.isArmed first = true := by decide +kernel
  have hrestored : ∀ row ∈ submitted.table.rows,
      (scheduler.registry.instantiate row.spec.payloadTypeId row.spec.payloadData).isOk = true := by
    decide +kernel
  rw [hy₁.platform] at harmed
  rw [show submitted.table = h₁.table from congrArg Store.table hy₁.store] at hrestored
  have hsubmitted : h₁.Course scheduler :=
    .operate .start rfl (fun _ hjob => by cases hjob) hfinish₁
  have hresolves (row : Row) (hrow : h₁.table.find? first = some row) :
      scheduler.Resolves row.spec :=
    Conduct.exists_of_isOk (hrestored row (TaskTable.mem_of_find? hrow))
  have hcourse : h₂.Course scheduler := .fire hsubmitted harmed hresolves hfinish₂
  -- what the last system shows is what the host has
  have hcount : cameBack.platform.registrations?.any (·.armCount first == 2) = true := by
    decide +kernel
  have hqueued : (cameBack.table.find? first).any (·.state == .enqueued) = true := by
    decide +kernel
  rw [hy₂.platform] at hcount
  rw [show cameBack.table = h₂.table from congrArg Store.table hy₂.store] at hqueued
  obtain ⟨row, hrow, hstate⟩ := (Option.any_eq_true _ _).1 hqueued
  obtain ⟨hiff, hmirrored⟩ := registrations_mirror_rows hcourse first
  obtain ⟨reg, hreg⟩ := Option.isSome_iff_exists.1 (hiff.2 ⟨row, hrow, eq_of_beq hstate⟩)
  obtain ⟨-, hhandle, htime⟩ := hmirrored row reg hrow hreg
  exact ⟨h₂, hcourse, eq_of_beq hcount, row, reg, hrow, eq_of_beq hstate, hreg, hhandle, htime⟩

end BackgroundTasks
