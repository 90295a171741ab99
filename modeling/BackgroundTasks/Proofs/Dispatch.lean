import BackgroundTasks.Proofs.Cycles
import BackgroundTasks.Proofs.Ensures
import BackgroundTasks.Proofs.Serving

/-!
# Wake-ups after a dispatch

A dispatch is a cycle of a task, and what the outcome of the cycle asks of the platform. So the
platform is told by the outcome, and the row is what the outcome was decided from: a task that has
come to its end is disarmed, and one that is back in the queue is armed.

There is one cycle that ends its task and has no outcome. If the payload cannot be restored the row
is failed and the cycle fails with it, and the dispatch is over before the platform has been told
anything. A wake-up that the task still has then is left as it is.
-/

namespace BackgroundTasks

/-! ## Wake-ups -/

/-- A task is going to be woken after a delay from a time. Timers know no conditions. -/
def Platform.Wakes (p : Platform) (now : Nat) (id : TaskId) (delay : Span)
    (conditions : Conditions) : Prop :=
  match p with
  | registrations r => ∃ sequence, r.find? id = some ⟨delay, conditions, sequence⟩
  | timers t => ∃ generation, t.current.lookup id = some generation
      ∧ { id, generation, due := now * 1000000 + delay.nanos } ∈ t.sleepers

theorem Platform.wakes_arm (p : Platform) (now : Nat) (id : TaskId) (delay : Span)
    (conditions : Conditions) :
    (p.arm now id delay conditions).2.Wakes now id delay conditions := by
  cases p with
  | registrations r => exact ⟨_, lookup_renewed_self r.armed id _⟩
  | timers t =>
    refine ⟨_, lookup_renewed_self t.current id _, ?_⟩
    exact List.mem_append_right _ (List.mem_singleton.2 rfl)

/-- The platform is going to wake a task just if its row asks for it, and as the outcome says. -/
def System.WakesAsStored (y : System) (id : TaskId) (r : Except Failure (Option RunOutcome)) :
    Prop :=
  ∃ row, y.table.find? id = some row
    ∧ (row.state.isTerminal = true → y.platform.isArmed id = false)
    ∧ (row.state = .enqueued → ∃ delayMs, r = .ok (some (.again id row.spec delayMs))
        ∧ y.platform.Wakes y.elapsed id (.ofMillis delayMs) row.spec.conditions)

/-! ## Undisturbed systems -/

/-- The calls that are not about rows or wake-ups. -/
def Call.IsAside : Call → Prop
  | store _ | arm .. | disarm _ => False
  | _ => True

namespace System

/-- A worker may end as it likes, and time may pass meanwhile; else the system answers. -/
def Undisturbed : Setting
  | .work .., y, _, y' => ∃ clock elapsed, y' = { y with clock, elapsed }
  | c, y, r, y' => y.answer c = (some r, y')

/-- Neither the store nor the platform fails. -/
structure Faultless (y : System) : Prop where
  serves : y.Serves
  faults : ∀ c, y.faults c = none

/-- Rows and wake-ups are as they were. -/
structure Steady (y y' : System) : Prop where
  faultless : y'.Faultless
  table : y'.table = y.table
  platform : y'.platform = y.platform

variable {y y' : System} {c : Call}

theorem Faultless.steady_askStore (h : y.Faultless) (id : TaskId) :
    (y.askStore (.get id)).1 = some (.ok (y.table.find? id))
      ∧ y.Steady (y.askStore (.get id)).2 := by
  obtain ⟨store, place, hask, htable, hserves⟩ := h.serves.asks (.get id)
  rw [hask]
  exact ⟨rfl, ⟨hserves, h.faults⟩, htable, rfl⟩

/-- A call aside leaves rows and wake-ups as they are. -/
theorem Faultless.steady_answer (h : y.Faultless) (hc : c.IsAside) : y.Steady (y.answer c).2 := by
  cases c with
  | store | arm | disarm => exact hc.elim
  | readStatus id => exact (h.steady_askStore id).2
  | isArmed id =>
    simp only [answer, askPlatform, h.faults]
    exact ⟨h, rfl, rfl⟩
  | retryDelay backoff retry =>
    simp only [answer]
    split <;> exact ⟨⟨⟨h.serves.store, h.serves.faults⟩, h.faults⟩, rfl, rfl⟩
  | _ => exact ⟨⟨⟨h.serves.store, h.serves.faults⟩, h.faults⟩, rfl, rfl⟩

/-- A call aside is answered, unless it is for a delay that cannot be drawn. -/
theorem Faultless.answers (h : y.Faultless) (hc : c.IsAside) :
    (∃ r y', Undisturbed c y r y') ∨ c.CannotDraw y := by
  cases c with
  | store | arm | disarm => exact hc.elim
  | readStatus id =>
    refine .inl ⟨.ok ((y.table.find? id).map Row.state), _, Prod.ext ?_ rfl⟩
    show (y.askStore (.get id)).1.map _ = _
    rw [(h.steady_askStore id).1]
    rfl
  | isArmed id =>
    refine .inl ⟨.ok (y.platform.isArmed id), y, ?_⟩
    show y.answer (.isArmed id) = _
    simp only [answer, askPlatform, h.faults]
  | retryDelay backoff retry =>
    cases hdelay : backoff.delay retry y.draws with
    | none => exact .inr ⟨backoff, retry, rfl, hdelay⟩
    | some drawn =>
      refine .inl ⟨drawn.1, { y with draws := drawn.2 }, ?_⟩
      show y.answer (.retryDelay backoff retry) = _
      simp only [answer, hdelay]
  | work => exact .inl ⟨.returned .success, y, y.clock, y.elapsed, rfl⟩
  | _ => exact .inl ⟨_, _, rfl⟩

theorem Faultless.steady (h : y.Faultless) (hc : c.IsAside) {r : c.Answer}
    (hr : Undisturbed c y r y') : y.Steady y' := by
  have hsteady := h.steady_answer hc
  cases c with
  | store | arm | disarm => exact hc.elim
  | work =>
    obtain ⟨clock, elapsed, rfl⟩ := hr
    exact ⟨⟨⟨h.serves.store, h.serves.faults⟩, h.faults⟩, rfl, rfl⟩
  | _ =>
    have hanswer : y.answer _ = (some r, y') := hr
    rw [hanswer] at hsteady
    exact hsteady

theorem Faultless.refl (h : y.Faultless) : y.Steady y := ⟨h, rfl, rfl⟩

theorem Steady.trans {y'' : System} (h : y.Steady y') (h' : y'.Steady y'') : y.Steady y'' :=
  ⟨h'.faultless, h'.table.trans h.table, h'.platform.trans h.platform⟩

end System

/-! ## Rules for calls -/

namespace Operation

/-- Undisturbed, an operation ensures something, unless it asks for an impossible delay. -/
abbrev Yields {α : Type} (op : Operation α) (y : System) (ok : α → System → Prop)
    (failed : Failure → System → Prop) : Prop :=
  op.Ensures System.Undisturbed Call.CannotDraw y ok failed

variable {y : System} {failed : Failure → System → Prop} {id : TaskId}

theorem yields_ask {c : Call} {ok : c.Answer → System → Prop} (hy : y.Faultless) (hc : c.IsAside)
    (h : ∀ r y', y.Steady y' → ok r y') : (ask c).Yields y ok failed :=
  ensures_ask (hy.answers hc) fun r y' hr => h r y' (hy.steady hc hr)

theorem yields_notify {kind : EventKind} {attempt : Option UInt32} {detail : Option String}
    {ok : Unit → System → Prop} (hy : y.Faultless) (h : ∀ y', y.Steady y' → ok () y') :
    (notify kind id attempt detail).Yields y ok failed := by
  unfold notify
  rw [Yields, ensures_bind]
  refine yields_ask (c := .now) hy trivial fun now y₁ h₁ => ?_
  exact yields_ask (c := .emit _) h₁.faultless trivial fun _ y₂ h₂ => h y₂ (h₁.trans h₂)

theorem yields_publishStatus {ok : Unit → System → Prop} (hy : y.Faultless)
    (h : ∀ y', y.Steady y' → ok () y') : (publishStatus id).Yields y ok failed := by
  unfold publishStatus
  rw [Yields, ensures_ignoringFailure]
  refine ⟨hy.answers (c := .readStatus id) trivial, fun r y₁ hr => ?_⟩
  have h₁ := hy.steady (c := .readStatus id) trivial hr
  match r with
  | .ok none => exact h y₁ h₁
  | .error failure => exact h y₁ h₁
  | .ok (some state) =>
    exact yields_ask (c := .publish id state) h₁.faultless trivial fun _ y₂ h₂ => h y₂ (h₁.trans h₂)

/-- A transaction that the table has nothing against. -/
theorem yields_store {c : StoreCall} {a : c.Result} {ok : c.Result → System → Prop}
    (hy : y.Faultless) (hanswer : (y.table.answer c).1 = .ok a)
    (h : ∀ y', y'.Faultless → y'.table = (y.table.answer c).2 → y'.platform = y.platform →
      y'.elapsed = y.elapsed → ok a y') : (store c).Yields y ok failed := by
  obtain ⟨store, place, hask, htable, hserves⟩ := hy.serves.asks c
  rw [hanswer] at hask
  exact Program.ensures_answered (c := .store c) (fun _ _ => Iff.rfl) hask
    (h _ ⟨hserves, hy.faults⟩ htable rfl rfl)

theorem yields_arm {delay : Span} {conditions : Conditions} {ok : Option String → System → Prop}
    (hy : y.Faultless)
    (h : ∀ handle y', y'.Faultless → y'.table = y.table → y'.elapsed = y.elapsed →
      y'.platform = (y.platform.arm y.elapsed id delay conditions).2 → ok handle y') :
    (arm id delay conditions).Yields y ok failed := by
  have hanswer : y.answer (.arm id delay conditions)
      = (some (.ok (some (y.platform.arm y.elapsed id delay conditions).1)),
        { y with platform := (y.platform.arm y.elapsed id delay conditions).2 }) := by
    simp only [System.answer, System.askPlatform, hy.faults]
    rfl
  exact Program.ensures_answered (c := .arm id delay conditions) (fun _ _ => Iff.rfl) hanswer
    (h _ _ ⟨⟨hy.serves.store, hy.serves.faults⟩, hy.faults⟩ rfl rfl rfl)

theorem yields_disarm {ok : Unit → System → Prop} (hy : y.Faultless)
    (h : ∀ y', y'.table = y.table → y'.platform = y.platform.disarm id → ok () y') :
    (disarm id).Yields y ok failed := by
  have hanswer : y.answer (.disarm id)
      = (some (.ok ()), { y with platform := y.platform.disarm id }) := by
    simp only [System.answer, System.askPlatform, hy.faults]
  exact Program.ensures_answered (c := .disarm id) (fun _ _ => Iff.rfl) hanswer (h _ rfl rfl)

end Operation

/-! ## The cycle -/

open Operation

/-- What an outcome says of the row that it has been stored with. -/
def RunOutcome.Fits (id : TaskId) (row : Row) : RunOutcome → Prop
  | succeeded | failed => row.state.isTerminal = true
  | again next spec _ => row.state = .enqueued ∧ next = id ∧ spec = row.spec

variable {s : Scheduler} {y : System} {id : TaskId} {row : Row}

theorem Concludes.fits {now : UInt64} {d : Decision} (h : Concludes row now d) :
    d.outcome.Fits row.id ((RowStep.complete d.completion).change row) := by
  cases h with
  | succeeded | failed => rfl
  | comesBack | retried => exact ⟨rfl, rfl, rfl⟩

theorem yields_decide {fate : Fate} {verdict : Verdict} {now ceiling : UInt64}
    {ok : Decision → System → Prop} {failed : Failure → System → Prop}
    (hverdict : fate.Follows row verdict) (hy : y.Faultless)
    (h : ∀ d y', Concludes row now d → y.Steady y' → ok d y') :
    (verdict.decide ceiling row now).Yields y ok failed := by
  cases hverdict with
  | succeeded once => exact h _ y (.succeeded once) hy.refl
  | comesBack periodic =>
    refine (ensures_bind _ _).2 (yields_ask hy trivial fun next y₁ h₁ => ?_)
    exact h _ y₁ (.comesBack next periodic) h₁
  | failsForGood message => exact h _ y (.failed _ message (by decide) (by decide)) hy.refl
  | exhausted message => exact h _ y (.failed _ message (by decide) (by decide)) hy.refl
  | retried baseMs reason left =>
    refine (ensures_bind _ _).2 (yields_ask hy trivial fun delayMs y₁ h₁ => ?_)
    exact h _ y₁ (.retried delayMs reason left) h₁

/-- Nobody has touched the row that was claimed, so what was decided about it is stored. -/
theorem yields_complete {d : Decision} {now : UInt64} {ok : Bool → System → Prop}
    {failed : Failure → System → Prop} (hy : y.Faultless)
    (hrow : y.table.find? row.id = some row) (hrunning : row.state = .running)
    (hd : Concludes row now d)
    (h : ∀ y', y'.Faultless → y'.platform = y.platform →
      y'.table.find? row.id = some ((RowStep.complete d.completion).change row) → ok true y') :
    (Scheduler.complete row d now).Yields y ok failed := by
  have haccepts : (RowStep.complete d.completion).accepts row = true :=
    RowStep.complete_accepts.2
      ⟨hrunning, hd.claimedAttempt.symm, by rw [hrunning]; exact hd.canBecome⟩
  obtain ⟨happlied, hafter, -⟩ :=
    TaskTable.complete_accepted (e := d.entry row now) hrow haccepts
  unfold Scheduler.complete
  rw [Yields, ensures_bind]
  refine yields_store hy happlied fun y₁ hy₁ htable hplatform _ => ?_
  simp only [↓reduceIte, ensures_bind]
  refine yields_publishStatus hy₁ fun y₂ h₂ => yields_notify h₂.faultless fun y₃ h₃ => ?_
  have h₃ := h₂.trans h₃
  refine h y₃ h₃.faultless (h₃.platform.trans hplatform) ?_
  rw [h₃.table, htable]
  exact hafter

/-- A claimed task whose payload cannot be restored is failed, and the cycle fails with it. -/
theorem yields_failUnavailable {fault : PayloadFault} {ok : Option RunOutcome → System → Prop}
    {failed : Failure → System → Prop} (hy : y.Faultless)
    (hrow : y.table.find? row.id = some row) (hrunning : row.state = .running)
    (h : ∀ row' y', y'.platform = y.platform → y'.table.find? row.id = some row' →
      row'.state = .failed → failed (.payload fault) y') :
    (Scheduler.failUnavailable row fault).Yields y ok failed := by
  unfold Scheduler.failUnavailable
  rw [Yields, ensures_bind]
  refine yields_ask (c := .now) hy trivial fun time y₁ h₁ => ?_
  rw [ensures_bind]
  refine yields_complete h₁.faultless (h₁.table ▸ hrow) hrunning
    (.failed _ _ (by decide) (by decide)) fun y₂ hy₂ hplatform hrow' => ?_
  exact h _ y₂ (hplatform.trans h₁.platform) hrow' rfl

/-- However the work of a claimed task ends, an outcome comes of it that fits the row. -/
theorem yields_runClaimed {payload : Payload} {ok : Option RunOutcome → System → Prop}
    {failed : Failure → System → Prop} (hy : y.Faultless)
    (hrow : y.table.find? row.id = some row) (hrunning : row.state = .running)
    (h : ∀ outcome row' y', y'.Faultless → y'.table.find? row.id = some row' →
      outcome.Fits row.id row' → ok (some outcome) y') :
    (s.runClaimed row payload).Yields y ok failed := by
  unfold Scheduler.runClaimed
  rw [Yields, ensures_bind]
  refine yields_ask (c := .work _ _) hy trivial fun ending y₁ h₁ => ?_
  rw [ensures_bind]
  refine yields_ask (c := .now) h₁.faultless trivial fun time y₂ h₂ => ?_
  have h₂ := h₁.trans h₂
  rw [ensures_bind]
  refine yields_decide (Fate.follows_ofResult _ time ending) h₂.faultless fun d y₃ hd h₃ => ?_
  have h₃ := h₂.trans h₃
  rw [ensures_bind]
  refine yields_complete h₃.faultless (h₃.table ▸ hrow) hrunning hd
    fun y₄ hy₄ hplatform hrow' => ?_
  exact h d.outcome _ y₄ hy₄ hrow' hd.fits

/--
The cycle of a task in the queue ends with an outcome that fits the row it leaves, or fails with the
row if the payload cannot be restored, and then it has told the platform nothing.
-/
theorem yields_execute {ok : Option RunOutcome → System → Prop} {failed : Failure → System → Prop}
    (hy : y.Faultless) (hrow : y.table.find? id = some row) (hqueued : row.state = .enqueued)
    (hok : ∀ payload outcome row' y',
      s.registry.instantiate row.spec.payloadTypeId row.spec.payloadData = .ok payload →
      y'.Faultless → y'.table.find? id = some row' → outcome.Fits id row' → ok (some outcome) y')
    (hfailed : ∀ fault row' y',
      s.registry.instantiate row.spec.payloadTypeId row.spec.payloadData = .error fault →
      y'.platform = y.platform → y'.table.find? id = some row' → row'.state = .failed →
      failed (.payload fault) y') :
    (s.execute id).Yields y ok failed := by
  unfold Scheduler.execute
  rw [Yields, ensures_bind]
  refine yields_ask (c := .now) hy trivial fun now y₁ h₁ => ?_
  rw [ensures_bind]
  have hrow₁ : y₁.table.find? id = some row := by rw [h₁.table]; exact hrow
  have haccepts : (RowStep.claim now).accepts row = true := beq_iff_eq.2 hqueued
  obtain ⟨hclaimed, hafter⟩ := TaskTable.stepAt_accepted hrow₁ haccepts
  refine yields_store h₁.faultless (congrArg Except.ok hclaimed) fun y₂ hy₂ htable hplatform _ => ?_
  simp only [ensures_bind]
  refine yields_publishStatus hy₂ fun y₃ h₃ => yields_notify h₃.faultless fun y₄ h₄ => ?_
  have h₄ := h₃.trans h₄
  obtain rfl : row.id = id := TaskTable.id_of_find? hrow
  have hrow₄ : y₄.table.find? row.id = some ((RowStep.claim now).change row) := by
    rw [h₄.table, htable]
    exact hafter
  have hspec : ((RowStep.claim now).change row).spec = row.spec := rfl
  rw [hspec]
  cases hpayload : s.registry.instantiate row.spec.payloadTypeId row.spec.payloadData with
  | error fault =>
    refine yields_failUnavailable h₄.faultless hrow₄ rfl fun row' y₅ hplatform₅ hrow' hstate => ?_
    refine hfailed fault row' y₅ hpayload ?_ hrow' hstate
    exact hplatform₅.trans ((h₄.platform.trans hplatform).trans h₁.platform)
  | ok payload =>
    exact yields_runClaimed h₄.faultless hrow₄ rfl fun outcome row' y₅ hy₅ hrow' hfits =>
      hok payload outcome row' y₅ hpayload hy₅ hrow' hfits

/-! ## What the platform is told -/

/-- The platform is told what an outcome asks for. -/
theorem yields_follow {outcome : RunOutcome} {ok : Unit → System → Prop}
    {failed : Failure → System → Prop} (hy : y.Faultless) (hrow : y.table.find? id = some row)
    (hfits : outcome.Fits id row)
    (h : ∀ row' y', y'.table.find? id = some row' → row'.state = row.state →
      y'.WakesAsStored id (.ok (some outcome)) → ok () y') :
    (Scheduler.follow id outcome).Yields y ok failed := by
  have dropped (hend : row.state.isTerminal = true) :
      (ignoringFailure (disarm id)).Yields y ok failed := by
    rw [Yields, ensures_ignoringFailure]
    refine yields_disarm hy fun y₁ htable hplatform => ?_
    have hrow₁ : y₁.table.find? id = some row := by rw [htable]; exact hrow
    refine h row y₁ hrow₁ rfl ⟨row, hrow₁, fun _ => ?_, fun hqueued => ?_⟩
    · rw [hplatform, Platform.isArmed_disarm]
      exact if_pos rfl
    · rw [hqueued] at hend
      cases hend
  cases outcome with
  | succeeded => exact dropped hfits
  | failed => exact dropped hfits
  | again next spec delayMs =>
    obtain ⟨hqueued, rfl, rfl⟩ := hfits
    unfold Scheduler.follow
    simp only [Yields, ensures_bind, ensures_orElse, ensures_map]
    refine yields_arm hy fun handle y₁ hy₁ htable helapsed hplatform => ?_
    have hrow₁ : y₁.table.find? next = some row := by rw [htable]; exact hrow
    have hanswer := TaskTable.answer_setPlatformId hrow₁ handle
    refine yields_store hy₁ (congrArg Prod.fst hanswer)
      fun y₂ hy₂ htable₂ hplatform₂ helapsed₂ => ?_
    have hrow₂ : y₂.table.find? next = some (row.withHandle handle) := by
      rw [htable₂, hanswer, TaskTable.find?_stepAt_self, hrow₁]
      rfl
    refine h _ y₂ hrow₂ rfl ⟨_, hrow₂, fun hend => ?_, fun _ => ⟨delayMs, rfl, ?_⟩⟩
    · rw [Row.withHandle, hqueued] at hend
      cases hend
    · rw [hplatform₂, hplatform, helapsed₂, helapsed]
      exact Platform.wakes_arm _ _ _ _ _

/-- An outcome that fits the row leaves it at its end or in the queue. -/
theorem RunOutcome.Fits.settled {outcome : RunOutcome} (h : outcome.Fits id row) :
    row.state.isTerminal = true ∨ row.state = .enqueued := by
  cases outcome with
  | succeeded | failed => exact .inl h
  | again next spec delayMs => exact .inr h.1

/--
**A dispatch wakes its task as its row says, unless it fails over the payload.** Undisturbed, and
however the work ends, the dispatch of a task in the queue leaves it there or at its end. It fails
just when the payload cannot be restored; and the platform is going to wake the task as the row and
the outcome say just if the dispatch has not failed, or the task was not armed to begin with.
-/
theorem dispatch_wakes_iff (hy : y.Faultless) (hrow : y.table.find? id = some row)
    (hqueued : row.state = .enqueued) :
    Program.Ensures System.Undisturbed Call.CannotDraw
      (fun r y' =>
        (∃ row', y'.table.find? id = some row'
            ∧ (row'.state.isTerminal = true ∨ row'.state = .enqueued))
        ∧ ((∃ o, r = .ok o) ↔ ∃ payload,
            s.registry.instantiate row.spec.payloadTypeId row.spec.payloadData = .ok payload)
        ∧ (y'.WakesAsStored id r ↔ (∃ o, r = .ok o) ∨ y.platform.isArmed id = false))
      (s.dispatch id) y := by
  rw [← ensures_result]
  unfold Scheduler.dispatch
  rw [ensures_bind]
  refine yields_execute hy hrow hqueued
    (fun payload outcome row' y₁ hpayload hy₁ hrow' hfits => ?_)
    fun fault row' y₁ hpayload hplatform hrow' hfailed => ?_
  · rw [ensures_bind]
    refine yields_follow hy₁ hrow' hfits fun row'' y₂ hrow'' hstate hwakes => ?_
    refine ⟨⟨row'', hrow'', by rw [hstate]; exact hfits.settled⟩, ?_, ?_⟩
    · exact ⟨fun _ => ⟨payload, hpayload⟩, fun _ => ⟨_, rfl⟩⟩
    · exact ⟨fun _ => .inl ⟨_, rfl⟩, fun _ => hwakes⟩
  · have hend : row'.state.isTerminal = true := by rw [hfailed]; rfl
    refine ⟨⟨row', hrow', .inl hend⟩, ⟨?_, ?_⟩, ⟨?_, ?_⟩⟩
    · rintro ⟨o, ho⟩
      cases ho
    · rintro ⟨payload, h⟩
      cases hpayload.symm.trans h
    · rintro ⟨found, hfound, hdisarmed, -⟩
      obtain rfl : row' = found := Option.some.inj (hrow'.symm.trans hfound)
      exact .inr (hplatform ▸ hdisarmed hend)
    · rintro (⟨o, ho⟩ | hunarmed)
      · cases ho
      · refine ⟨row', hrow', fun _ => hplatform ▸ hunarmed, fun hqueued => ?_⟩
        rw [hfailed] at hqueued
        cases hqueued

namespace Rehearsal

/-- A system in which a task has been submitted, and waits in the queue. -/
def waiting : System :=
  { home (inQueue request) with
    platform := (Play.run scheduler { system } (inQueue request)).system.platform }

theorem faultless_waiting : waiting.Faultless :=
  ⟨⟨.inl ⟨_, rfl⟩, fun _ => rfl⟩, fun _ => rfl⟩

/-- It is armed, and its payload can be restored. -/
theorem row_waiting :
    ∃ row, waiting.table.find? first = some row ∧ row.state = .enqueued
      ∧ waiting.platform.isArmed first = true
      ∧ ∃ payload, scheduler.registry.instantiate row.spec.payloadTypeId row.spec.payloadData
          = .ok payload := by
  have hshown : (waiting.table.find? first).any (fun row =>
      row.state == .enqueued && waiting.platform.isArmed first
        && (scheduler.registry.instantiate row.spec.payloadTypeId row.spec.payloadData).toBool)
      = true := by decide +kernel
  obtain ⟨row, hrow, hwaits⟩ := (Option.any_eq_true _ _).1 hshown
  simp only [Bool.and_eq_true, beq_iff_eq] at hwaits
  obtain ⟨⟨hqueued, harmed⟩, hrestored⟩ := hwaits
  refine ⟨row, hrow, hqueued, harmed, ?_⟩
  cases hpayload : scheduler.registry.instantiate row.spec.payloadTypeId row.spec.payloadData with
  | error fault => rw [hpayload] at hrestored; cases hrestored
  | ok payload => exact ⟨payload, rfl⟩

/-- A scheduler that knows no payloads. -/
def ignorant : Scheduler := ⟨{}, {}⟩

/-- A run has failed over a payload, and the task is at its end, and armed. -/
def isLeftArmed {α : Type} (id : TaskId) :
    Program.Outcome Call.signature (Except Failure α) × System → Bool
  | (.finished (.error (.payload _)), y) =>
    (y.table.find? id).any (fun row => row.state.isTerminal) && y.platform.isArmed id
  | _ => false

end Rehearsal

open Rehearsal in
/-- A task waits in the queue, armed. However its work ends, it is woken then as its row says. -/
theorem dispatch_wakes_iff_waiting :
    ∃ row, waiting.table.find? first = some row ∧ row.state = .enqueued
      ∧ waiting.platform.isArmed first = true
      ∧ Program.Ensures System.Undisturbed Call.CannotDraw
          (fun r y' => (∃ o, r = .ok o) ∧ y'.WakesAsStored first r)
          (scheduler.dispatch first) waiting := by
  obtain ⟨row, hrow, hqueued, harmed, hpayload⟩ := row_waiting
  refine ⟨row, hrow, hqueued, harmed, ?_⟩
  refine (dispatch_wakes_iff faultless_waiting hrow hqueued).mono ?_
  rintro r y' ⟨-, hreturns, hwakes⟩
  have hok := hreturns.2 hpayload
  exact ⟨hok, hwakes.2 (.inl hok)⟩

open Rehearsal in
/-- The task is dispatched by one that does not know its payload: it is failed, and still armed. -/
theorem unavailable_payload_stays_armed :
    waiting.Faultless
      ∧ (∃ row, waiting.table.find? first = some row ∧ row.state = .enqueued)
      ∧ ∃ fault y' row,
          Program.run System.answer (ignorant.dispatch first) waiting
            = (.finished (.error (.payload fault)), y')
          ∧ y'.table.find? first = some row ∧ row.state.isTerminal = true
          ∧ y'.platform.isArmed first = true := by
  have hended : isLeftArmed first (Program.run System.answer (ignorant.dispatch first) waiting)
      = true := by decide +kernel
  obtain ⟨row, hrow, hqueued, -⟩ := row_waiting
  refine ⟨faultless_waiting, ⟨row, hrow, hqueued⟩, ?_⟩
  unfold isLeftArmed at hended
  split at hended
  · next fault y' hrun =>
    rw [Bool.and_eq_true, Option.any_eq_true] at hended
    obtain ⟨⟨row', hrow', hterminal⟩, harmed⟩ := hended
    exact ⟨fault, y', row', hrun, hrow', hterminal, harmed⟩
  · cases hended

end BackgroundTasks
