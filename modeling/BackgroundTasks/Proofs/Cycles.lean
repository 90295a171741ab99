import BackgroundTasks.Proofs.Armed
import BackgroundTasks.Proofs.Audit.Failures
import BackgroundTasks.Proofs.Custody
import BackgroundTasks.Proofs.Periods
import BackgroundTasks.Proofs.Serving

/-!
# Cycles and their records

A cycle tells in four places what has become of its task: in the row, in the log, to the sink, and
to whoever asked for it. Each is put together on its own, and all of them have to say the same.

Others may make their calls between any two calls of a cycle. As long as the store does not fail,
and nobody touches the row before its completion is stored, there is nothing that they can do about
the records. So a cycle is played against them: before each of its calls they make of the system
what they like within these limits, and the call has to return. The delay of a retry is the only
thing that a cycle asks for in vain, and then it is stranded with the row that it has claimed.
-/

namespace BackgroundTasks

variable {α β : Type}

/-! ## Fates -/

/-- What can become of a task in a cycle. -/
inductive Fate where
  | succeeded
  /-- A periodic task has succeeded. -/
  | comesBack
  /-- It has failed in a way that cannot pass. -/
  | failsForGood
  /-- It has failed in a way that may pass, and no retries are left. -/
  | exhausted
  | retried
deriving DecidableEq

/-- Whether an attempt has failed in a way that cannot pass: as its unit or its error says. -/
def WorkEnding.isPermanent : WorkEnding → Bool
  | returned (.failure .permanent _) => true
  | raised (.permanent _) | raised (.validation _) | raised (.maxRetriesExceeded ..) => true
  | _ => false

namespace Fate

/-- What becomes of a claimed row's task when its attempt has come to its end. -/
def of (row : Row) (ending : WorkEnding) : Fate :=
  if ending = .returned .success then if row.spec.isPeriodic then comesBack else succeeded
  else if ending.isPermanent then failsForGood
  else if row.spec.maxRetries ≤ row.retries then exhausted
  else retried

/-- The state that the task is left in. -/
def state : Fate → State
  | succeeded => .succeeded
  | comesBack | retried => .enqueued
  | failsForGood | exhausted => .failed

/-- What the log says. -/
def kind : Fate → LogKind
  | succeeded | comesBack => .succeeded
  | failsForGood => .failedPermanent
  | exhausted => .failedRetriesExhausted
  | retried => .retryScheduled

/-- What the sink is told. -/
def event : Fate → EventKind
  | succeeded | comesBack => .succeeded
  | failsForGood | exhausted => .failed
  | retried => .retryScheduled

/-- How many retries the task has had then. -/
def retries (before : Nat) : Fate → Nat
  | comesBack => 0
  | retried => before + 1
  | succeeded | failsForGood | exhausted => before

/-- The outcome, and the next run that the row has with it. -/
def Settles (claimed stored : Row) (now : UInt64) (outcome : RunOutcome) : Fate → Prop
  | succeeded => outcome = .succeeded ∧ stored.nextRunMs = claimed.nextRunMs
  | failsForGood | exhausted => outcome = .failed ∧ stored.nextRunMs = claimed.nextRunMs
  | comesBack | retried => ∃ delayMs,
      outcome = .again claimed.id claimed.spec delayMs ∧ stored.nextRunMs = satAdd now delayMs

end Fate

/-! ## Records -/

/-- The four places in which a cycle tells what has become of its task. -/
structure Records where
  row : Row
  entry : LogEntry
  event : Event
  outcome : RunOutcome

/-- The records say the same of a claimed row, whose fate was decided at `now`. -/
structure Records.Agree (fate : Fate) (claimed : Row) (now : UInt64) (r : Records) : Prop where
  state : r.row.state = fate.state
  retries : r.row.retries.toNat = fate.retries claimed.retries.toNat
  settles : fate.Settles claimed r.row now r.outcome
  /-- Nothing else changes in the row, but for the handle. -/
  rest : r.row = { claimed with
    state := r.row.state
    nextRunMs := r.row.nextRunMs
    retries := r.row.retries
    platformId := r.row.platformId
    updatedMs := now }
  entry : r.entry = ⟨claimed.id, now, fate.kind, claimed.attempts, r.event.detail⟩
  event : r.event.kind = fate.event
  names : r.event.taskId = some claimed.id ∧ r.event.attempt = some claimed.attempts
  detail : r.event.detail.isSome = true

/-- The records of a decision, with the handle that the row has and the time of the event. -/
def Decision.records (d : Decision) (row : Row) (now : UInt64) (handle : Option String)
    (time : UInt64) : Records where
  row := (RowStep.complete d.completion).change (row.withHandle handle)
  entry := d.entry row now
  event := ⟨d.event, some row.id, some row.attempts, time, some d.message⟩
  outcome := d.outcome

/-- A decision whose records agree, whatever the handle is, and the time of the event. -/
def Decision.Agrees (d : Decision) (fate : Fate) (row : Row) (now : UInt64) : Prop :=
  ∀ handle time, (d.records row now handle time).Agree fate row now

/-- The verdicts that a fate comes from. -/
inductive Fate.Follows (row : Row) : Fate → Verdict → Prop where
  | succeeded (once : row.spec.isPeriodic = false) : Follows row .succeeded .succeeded
  | comesBack (periodic : row.spec.isPeriodic = true) : Follows row .comesBack .comesBack
  | failsForGood (message : String) :
      Follows row .failsForGood (.failed .failedPermanent message)
  | exhausted (message : String) :
      Follows row .exhausted (.failed .failedRetriesExhausted message)
  | retried (baseMs : UInt64) (reason : String) (left : row.retries < row.spec.maxRetries) :
      Follows row .retried (.retried baseMs reason)

section Verdicts

variable {row : Row} {now : UInt64}

theorem Fate.follows_ofTransient (reason : String) (suggested : Option UInt64) :
    Fate.Follows row (if row.spec.maxRetries ≤ row.retries then .exhausted else .retried)
      (Verdict.ofTransient row reason suggested) := by
  unfold Verdict.ofTransient
  split
  · exact .exhausted _
  · next left => exact .retried _ _ (UInt32.not_le.1 left)

/-- A raised error is permanent just when trying again could not help. -/
theorem WorkEnding.isPermanent_raised (e : WorkError) :
    (raised e).isPermanent = !e.isRetryable := by
  cases e <;> rfl

/-- **The verdict on an attempt is the one that its fate comes from.** -/
theorem Fate.follows_ofResult (row : Row) (now : UInt64) (ending : WorkEnding) :
    Fate.Follows row (.of row ending) (Verdict.ofResult row now ending.result) := by
  cases ending with
  | returned result =>
    cases result with
    | success =>
      show Fate.Follows row (if row.spec.isPeriodic then _ else _)
        (if row.spec.isPeriodic then _ else _)
      split
      · next periodic => exact .comesBack periodic
      · next once => exact .succeeded (Bool.eq_false_iff.2 once)
    | retry => exact follows_ofTransient _ _
    | failure kind e =>
      cases kind with
      | permanent => exact .failsForGood _
      | transient => exact follows_ofTransient _ _
  | raised e =>
    have hfate : Fate.of row (.raised e)
        = if !e.isRetryable then .failsForGood
          else if row.spec.maxRetries ≤ row.retries then .exhausted else .retried := by
      rw [← WorkEnding.isPermanent_raised]
      rfl
    have hresult : WorkEnding.result (.raised e)
        = .failure (if e.isRetryable then .transient else .permanent) e := rfl
    rw [hfate, hresult]
    cases e.isRetryable with
    | false => exact .failsForGood _
    | true => exact follows_ofTransient _ _
  | brokeDown text => exact follows_ofTransient _ _

namespace Decision

theorem agrees_succeeded (row : Row) (now : UInt64) :
    (succeeded row now).Agrees .succeeded row now := fun _ _ =>
  ⟨rfl, rfl, ⟨rfl, rfl⟩, rfl, rfl, rfl, ⟨rfl, rfl⟩, rfl⟩

theorem agrees_failed {fate : Fate} {kind : LogKind} (row : Row) (now : UInt64) (message : String)
    (h : fate = .failsForGood ∧ kind = .failedPermanent
      ∨ fate = .exhausted ∧ kind = .failedRetriesExhausted) :
    (failed row now kind message).Agrees fate row now := by
  intro handle time
  rcases h with ⟨rfl, rfl⟩ | ⟨rfl, rfl⟩ <;>
    exact ⟨rfl, rfl, ⟨rfl, rfl⟩, rfl, rfl, rfl, ⟨rfl, rfl⟩, rfl⟩

/-- The delay of a periodic task leads from now to the next run. -/
theorem agrees_comesBack (row : Row) {now next : UInt64} (h : now ≤ next) :
    (comesBack row now next).Agrees .comesBack row now := by
  have hnext : next = satAdd now (next - now) := by
    have hle := UInt64.le_iff_toNat_le.1 h
    have hmax : next.toNat ≤ maxMillis.toNat := Nat.le_of_lt_succ next.toNat_lt
    apply UInt64.toNat_inj.1
    rw [toNat_satAdd, UInt64.toNat_sub_of_le _ _ h]
    omega
  exact fun _ _ => ⟨rfl, rfl, ⟨_, rfl, hnext⟩, rfl, rfl, rfl, ⟨rfl, rfl⟩, rfl⟩

/-- A task that has retries left has not used up the counter. -/
theorem agrees_retried (delayMs : UInt64) (reason : String)
    (left : row.retries < row.spec.maxRetries) :
    (retried row now delayMs reason).Agrees .retried row now := by
  have hretry : (nextRetry row).toNat = row.retries.toNat + 1 := by
    have hlt := UInt32.lt_iff_toNat_lt.1 left
    have hmax := row.spec.maxRetries.toNat_lt
    have hone : (1 : UInt32).toNat = 1 := rfl
    unfold nextRetry
    rw [UInt32.toNat_add]
    omega
  exact fun _ _ => ⟨rfl, hretry, ⟨_, rfl, rfl⟩, rfl, rfl, rfl, ⟨rfl, rfl⟩, rfl⟩

end Decision

end Verdicts

/-! ## Programs among others -/

/-- What is left behind by a call: an answer of the store and what it did, or a told event. -/
inductive Mark where
  | stored (c : StoreCall) (answer : c.Answer) (before after : TaskTable)
  | told (e : Event)

/-- Whether a completion has been stored. -/
def Mark.completes : Mark → Bool
  | stored (.complete ..) .. => true
  | _ => false

namespace Call

/-- What a call leaves behind that was made in one system and led to another. -/
def marks : (c : Call) → c.Answer → System → System → List Mark
  | .store c, answer, y, y' => [.stored c answer y.table y'.table]
  | .emit e, _, _, _ => [.told e]
  | _, _, _, _ => []

/-- A delay is called for that cannot be drawn. -/
def CannotDraw (c : Call) (y : System) : Prop :=
  ∃ backoff retry, c = .retryDelay backoff retry ∧ backoff.delay retry y.draws = none

end Call

namespace System

/-- What a system answers while the attempt ends in the given way. -/
def answerWith (ending : WorkEnding) : (c : Call) → System → Option c.Answer × System
  | .work _ _, y => (some ending, y)
  | c, y => y.answer c

/-- The store does not fail: it answers as its table does. -/
def StoreWorks (y : System) : Prop :=
  ∀ c, ∃ y', y.askStore c = (some (y.table.answer c).1, y') ∧ y'.table = (y.table.answer c).2

/-- A store that serves works: one in memory, and one in files that can be written. -/
theorem Serves.storeWorks {y : System} (h : y.Serves) : y.StoreWorks := by
  intro c
  obtain ⟨store, place, hask, htable, -⟩ := h.asks c
  rw [hask]
  exact ⟨_, rfl, htable⟩

/--
What others may do to a system while a task's cycle is under way: they do not break the store, and
until the completion is stored they leave the task's row as it is, but for its handle.
-/
structure LeavesAlone (id : TaskId) (past : List Mark) (y y' : System) : Prop where
  store : y'.StoreWorks
  row : past.any Mark.completes = false → ∀ row, y.table.find? id = some row →
    ∃ handle, y'.table.find? id = some (row.withHandle handle)

end System

/--
Whatever others do before each call within their limits, a program has its calls answered and comes
to its end, or it gets stuck at one. What is required at the end is said of its result and of what
it has left behind, the latest first; what is required where it gets stuck, of the call.
-/
def Program.Assures (ending : WorkEnding) (id : TaskId) (stuck : Call → List Mark → System → Prop)
    (post : α → List Mark → System → Prop) :
    Program Call.signature α → List Mark → System → Prop
  | .done a, past, y => post a past y
  | .call c k, past, y => ∀ y₁, y.LeavesAlone id past y₁ →
      (∃ r y₂, System.answerWith ending c y₁ = (some r, y₂)
        ∧ Program.Assures ending id stuck post (k r) (c.marks r y₁ y₂ ++ past) y₂)
      ∨ (System.answerWith ending c y₁).1 = none ∧ stuck c past y₁

/-- An operation comes to its end without failing, or it gets stuck. -/
def Operation.Assures (ending : WorkEnding) (id : TaskId)
    (stuck : Call → List Mark → System → Prop) (op : Operation α) (past : List Mark) (y : System)
    (ok : α → List Mark → System → Prop) : Prop :=
  Program.Assures ending id stuck (fun r past y => ∃ a, r = .ok a ∧ ok a past y) op past y

variable {ending : WorkEnding} {id : TaskId} {stuck : Call → List Mark → System → Prop}
  {past : List Mark} {y : System}

namespace Program

theorem Assures.bind {post : β → List Mark → System → Prop} {p : Program Call.signature α}
    {f : α → Program Call.signature β}
    (h : p.Assures ending id stuck (fun a past y => (f a).Assures ending id stuck post past y)
      past y) :
    (p.bind f).Assures ending id stuck post past y := by
  induction p generalizing past y with
  | done a => exact h
  | call c k ih =>
    intro y₁ halone
    rcases h y₁ halone with ⟨r, y₂, hanswer, hrest⟩ | hstuck
    · exact .inl ⟨r, y₂, hanswer, ih r hrest⟩
    · exact .inr hstuck

theorem Assures.mono {stuck' : Call → List Mark → System → Prop}
    {post post' : α → List Mark → System → Prop} {p : Program Call.signature α}
    (h : p.Assures ending id stuck post past y)
    (hstuck : ∀ c past y, stuck c past y → stuck' c past y)
    (hpost : ∀ a past y, post a past y → post' a past y) :
    p.Assures ending id stuck' post' past y := by
  induction p generalizing past y with
  | done a => exact hpost a past y h
  | call c k ih =>
    intro y₁ halone
    rcases h y₁ halone with ⟨r, y₂, hanswer, hrest⟩ | ⟨hnone, hc⟩
    · exact .inl ⟨r, y₂, hanswer, ih r hrest⟩
    · exact .inr ⟨hnone, hstuck c past y₁ hc⟩

end Program

namespace Operation.Assures

variable {ok : α → List Mark → System → Prop}

theorem pure {a : α} (h : ok a past y) : (pure a : Operation α).Assures ending id stuck past y ok :=
  ⟨a, rfl, h⟩

theorem bind {op : Operation α} {f : α → Operation β} {ok : β → List Mark → System → Prop}
    (h : op.Assures ending id stuck past y
      fun a past y => (f a).Assures ending id stuck past y ok) :
    (op >>= f).Assures ending id stuck past y ok := by
  refine Program.Assures.bind (Program.Assures.mono h (fun _ _ _ h => h) ?_)
  rintro r past y ⟨a, rfl, ha⟩
  exact ha

theorem ignoringFailure {op : Operation α} {ok : Unit → List Mark → System → Prop}
    (h : op.Assures ending id stuck past y fun _ past y => ok () past y) :
    (ignoringFailure op).Assures ending id stuck past y ok := by
  refine Program.Assures.bind (Program.Assures.mono h (fun _ _ _ h => h) ?_)
  rintro r past y ⟨a, rfl, ha⟩
  exact ⟨(), rfl, ha⟩

/-- A call to a store that does not fail. -/
theorem store {c : StoreCall} {ok : c.Result → List Mark → System → Prop}
    (h : ∀ y₁, y.LeavesAlone id past y₁ → ∃ a, (y₁.table.answer c).1 = .ok a
      ∧ ∀ y₂, y₂.table = (y₁.table.answer c).2 →
        ok a (.stored c (.ok a) y₁.table y₂.table :: past) y₂) :
    (store c).Assures ending id stuck past y ok := by
  intro y₁ halone
  obtain ⟨a, ha, hok⟩ := h y₁ halone
  obtain ⟨y₂, hanswer, htable⟩ := halone.store c
  rw [ha] at hanswer
  exact .inl ⟨.ok a, y₂, hanswer, a, rfl, hok y₂ htable⟩

end Operation.Assures

/-! ## Calls that leave the table alone -/

/-- What neither others nor calls that leave the table alone put an end to. -/
structure Lasting (id : TaskId) (past : List Mark) (P : System → Prop) : Prop where
  others : ∀ {y y' : System}, y.LeavesAlone id past y' → P y → P y'
  table : ∀ {y y' : System}, y'.table = y.table → P y → P y'

theorem lasting_true : Lasting id past fun _ => True := ⟨fun _ h => h, fun _ h => h⟩

/-- A row is there, with some handle. -/
def System.Holds (id : TaskId) (row : Row) (y : System) : Prop :=
  ∃ handle, y.table.find? id = some (row.withHandle handle)

/-- As long as the completion is not stored, the row lasts. -/
theorem lasting_holds {row : Row} (hpast : past.any Mark.completes = false) :
    Lasting id past (System.Holds id row) where
  others := by
    rintro y y' halone ⟨handle, hrow⟩
    obtain ⟨handle', hrow'⟩ := halone.row hpast _ hrow
    exact ⟨handle', hrow'⟩
  table := by
    rintro y y' htable ⟨handle, hrow⟩
    exact ⟨handle, htable ▸ hrow⟩

namespace Operation.Assures

variable {P : System → Prop} {ok : Unit → List Mark → System → Prop}

/-- A call that leaves the table alone, and nothing behind. -/
theorem ask {c : Call} {ok : c.Answer → List Mark → System → Prop} (good : c.Answer → Prop)
    (hP : Lasting id past P) (hy : P y)
    (hanswer : ∀ y₁, P y₁ →
      (∃ r y₂, System.answerWith ending c y₁ = (some r, y₂) ∧ y₂.table = y₁.table ∧ good r)
      ∨ (System.answerWith ending c y₁).1 = none ∧ stuck c past y₁)
    (hmarks : ∀ r y₁ y₂, c.marks r y₁ y₂ = [])
    (h : ∀ r y', good r → P y' → ok r past y') :
    (ask c).Assures ending id stuck past y ok := by
  intro y₁ halone
  have hy₁ := hP.others halone hy
  rcases hanswer y₁ hy₁ with ⟨r, y₂, hr, htable, hgood⟩ | hstuck
  · refine .inl ⟨r, y₂, hr, r, rfl, ?_⟩
    rw [hmarks]
    exact h r y₂ hgood (hP.table htable hy₁)
  · exact .inr hstuck

theorem now {ok : UInt64 → List Mark → System → Prop} (hP : Lasting id past P) (hy : P y)
    (h : ∀ time y', P y' → ok time past y') : now.Assures ending id stuck past y ok :=
  ask (fun _ => True) hP hy (fun y₁ _ => .inl ⟨_, y₁, rfl, rfl, trivial⟩) (fun _ _ _ => rfl)
    fun time y' _ hy' => h time y' hy'

theorem notify {kind : EventKind} {target : TaskId} {attempt : Option UInt32}
    {detail : Option String} (hP : Lasting id past P) (hy : P y)
    (h : ∀ time y', P y' → ok () (.told ⟨kind, some target, attempt, time, detail⟩ :: past) y') :
    (notify kind target attempt detail).Assures ending id stuck past y ok := by
  refine bind (now hP hy fun time y' hy' => ?_)
  intro y₁ halone
  have hy₁ := hP.others halone hy'
  exact .inl ⟨(), _, rfl, (), rfl, h time _ (hP.table (y := y₁) rfl hy₁)⟩

/-- The status is published if there is a row, and is not otherwise. -/
theorem publishStatus {target : TaskId} (hP : Lasting id past P) (hy : P y)
    (h : ∀ y', P y' → ok () past y') :
    (publishStatus target).Assures ending id stuck past y ok := by
  refine ignoringFailure ?_
  intro y₁ halone
  have hy₁ := hP.others halone hy
  obtain ⟨y₂, hread, htable⟩ := halone.store (.get target)
  have hy₂ : P y₂ := hP.table htable hy₁
  refine .inl ⟨.ok ((y₁.table.find? target).map Row.state), y₂, ?_, ?_⟩
  · show (((y₁.askStore (.get target)).1.map _, (y₁.askStore (.get target)).2) : _ × System) = _
    rw [hread]
    rfl
  cases y₁.table.find? target with
  | none => exact ⟨(), rfl, h y₂ hy₂⟩
  | some row =>
    intro y₃ (halone : y₂.LeavesAlone id past y₃)
    have hy₃ := hP.others halone hy₂
    exact .inl ⟨(), _, rfl, (), rfl, h _ (hP.table (y := y₃) rfl hy₃)⟩

end Operation.Assures

/-! ## The calls of a cycle -/

theorem TaskTable.stepAt_accepted {t : TaskTable} {step : RowStep} {row : Row}
    (hrow : t.find? id = some row) (h : step.accepts row = true) :
    (t.stepAt id step).1 = some (step.change row)
      ∧ (t.stepAt id step).2.find? id = some (step.change row) := by
  have htaken : (t.stepAt id step).1 = some (step.change row) := by
    show (t.find? id).bind step.apply = _
    rw [hrow]
    exact if_pos h
  exact ⟨htaken, (stepAt_taken htaken).2⟩

theorem TaskTable.complete_accepted {t : TaskTable} {c : Completion} {e : LogEntry} {row : Row}
    (hrow : t.find? id = some row) (h : (RowStep.complete c).accepts row = true) :
    (t.answer (.complete id c e)).1 = .ok true
      ∧ (t.answer (.complete id c e)).2.find? id = some ((RowStep.complete c).change row)
      ∧ (t.answer (.complete id c e)).2.log = t.log ++ [e] := by
  obtain ⟨htaken, hafter⟩ := stepAt_accepted hrow h
  have happlied : (t.stepAt id (.complete c)).1.isSome = true := by rw [htaken]; rfl
  refine ⟨congrArg Except.ok happlied, hafter, ?_⟩
  show t.log ++ [if (t.stepAt id (.complete c)).1.isSome then e else e.discarded] = _
  rw [if_pos happlied]

namespace Operation.Assures

variable {row : Row} {P : System → Prop}

/-- A verdict is carried out, or it gets stuck at a delay that cannot be drawn. -/
theorem decide {fate : Fate} {verdict : Verdict} {now ceiling : UInt64}
    {ok : Decision → List Mark → System → Prop} (hverdict : fate.Follows row verdict)
    (hP : Lasting id past P) (hy : P y)
    (hstuck : ∀ baseMs reason y₁, verdict = .retried baseMs reason → P y₁ →
      ((Backoff.ofSpec row.spec ceiling).withBase baseMs).delay (Decision.nextRetry row) y₁.draws
        = none →
      stuck (.retryDelay ((Backoff.ofSpec row.spec ceiling).withBase baseMs)
        (Decision.nextRetry row)) past y₁)
    (h : ∀ d y', Concludes row now d → d.Agrees fate row now → P y' → ok d past y') :
    (verdict.decide ceiling row now).Assures ending id stuck past y ok := by
  cases hverdict with
  | succeeded once => exact pure (h _ y (.succeeded once) (Decision.agrees_succeeded row now) hy)
  | comesBack periodic =>
    refine bind (ask (now ≤ ·) hP hy
      (fun y₁ _ => .inl ⟨_, _, rfl, rfl, (nextPeriodicRun_runsInWindow now _ _ y₁.draws).now_le⟩)
      (fun _ _ _ => rfl) fun next y' hnext hy' => ?_)
    exact pure (h _ y' (.comesBack next periodic) (Decision.agrees_comesBack row hnext) hy')
  | failsForGood message =>
    exact pure (h _ y (.failed _ message (by decide) (by decide))
      (Decision.agrees_failed row now message (.inl ⟨rfl, rfl⟩)) hy)
  | exhausted message =>
    exact pure (h _ y (.failed _ message (by decide) (by decide))
      (Decision.agrees_failed row now message (.inr ⟨rfl, rfl⟩)) hy)
  | retried baseMs reason left =>
    refine bind (ask (fun _ => True) hP hy (fun y₁ hy₁ => ?_) (fun _ _ _ => rfl)
      fun delayMs y' _ hy' => ?_)
    · cases hdelay : ((Backoff.ofSpec row.spec ceiling).withBase baseMs).delay
        (Decision.nextRetry row) y₁.draws with
      | none =>
        refine .inr ⟨?_, hstuck baseMs reason y₁ rfl hy₁ hdelay⟩
        simp only [System.answerWith, System.answer, hdelay]
      | some drawn =>
        refine .inl ⟨drawn.1, { y₁ with draws := drawn.2 }, ?_, rfl, trivial⟩
        simp only [System.answerWith, System.answer, hdelay]
    · exact pure (h _ y' (.retried delayMs reason left)
        (Decision.agrees_retried delayMs reason left) hy')

/-- The row of a task is claimed from the queue. -/
theorem claim {found : Row} {now : UInt64} {ok : Option Row → List Mark → System → Prop}
    (hpast : past.any Mark.completes = false) (hy : y.Holds id found)
    (hqueued : found.state = .enqueued)
    (h : ∀ handle t t' y', y'.Holds id ((RowStep.claim now).change (found.withHandle handle)) →
      ok (some ((RowStep.claim now).change (found.withHandle handle)))
        (.stored (.claim id now)
          (.ok (some ((RowStep.claim now).change (found.withHandle handle)))) t t' :: past) y') :
    (Operation.store (.claim id now)).Assures ending id stuck past y ok := by
  refine store fun y₁ halone => ?_
  obtain ⟨handle, hrow⟩ := (lasting_holds hpast).others halone hy
  have haccepts : (RowStep.claim now).accepts (found.withHandle handle) = true :=
    beq_iff_eq.2 hqueued
  obtain ⟨hclaimed, hafter⟩ := TaskTable.stepAt_accepted hrow haccepts
  refine ⟨_, congrArg Except.ok hclaimed, fun y₂ htable => h handle _ _ y₂ ?_⟩
  exact ⟨handle, by rw [htable]; exact hafter⟩

/-- What was decided about a claimed row is stored, and then told. -/
theorem complete {d : Decision} {now : UInt64} {ok : Bool → List Mark → System → Prop}
    (hpast : past.any Mark.completes = false) (hy : y.Holds id row) (hid : row.id = id)
    (hrunning : row.state = .running) (hd : Concludes row now d)
    (h : ∀ handle time t t' y', t.find? id = some (row.withHandle handle) →
      t'.find? id = some (d.records row now handle time).row →
      t'.log = t.log ++ [(d.records row now handle time).entry] →
      ok true (.told (d.records row now handle time).event
        :: .stored (.complete id d.completion (d.records row now handle time).entry) (.ok true) t t'
        :: past) y') :
    (Scheduler.complete row d now).Assures ending id stuck past y ok := by
  subst hid
  refine bind (store fun y₁ halone => ?_)
  obtain ⟨handle, hrow⟩ := (lasting_holds hpast).others halone hy
  have haccepts : (RowStep.complete d.completion).accepts (row.withHandle handle) = true :=
    RowStep.complete_accepts.2 ⟨hrunning, hd.claimedAttempt.symm, by
      show row.state.canBecome _ = true
      rw [hrunning]
      exact hd.canBecome⟩
  obtain ⟨happlied, hafter, hlog⟩ :=
    TaskTable.complete_accepted (e := d.entry row now) hrow haccepts
  refine ⟨true, happlied, fun y₂ htable => ?_⟩
  refine bind (publishStatus lasting_true trivial fun y₃ _ => ?_)
  refine bind (notify lasting_true trivial fun time y₄ _ => ?_)
  exact pure (h handle time _ _ y₄ hrow (htable ▸ hafter) (htable ▸ hlog))

end Operation.Assures

/-! ## The whole cycle -/

/--
A cycle has told of its task in four places: it has claimed the task's row, which was `found` but
for its handle, and stored what has become of it, and nothing besides; it has told that the attempt
has started, and what has become of it; and its result is the outcome. The records agree.
-/
def CycleTells (id : TaskId) (found : Row) (ending : WorkEnding)
    (result : Except Failure (Option RunOutcome)) (past : List Mark) : Prop :=
  ∃ (claimed : Row) (records : Records) (claimedAt startedAt decidedAt : UInt64)
    (handle handle' : Option String) (completion : Completion) (t₀ t₁ t₂ t₃ : TaskTable),
    claimed = (RowStep.claim claimedAt).change (found.withHandle handle)
      ∧ past = [
        .told records.event,
        .stored (.complete id completion records.entry) (.ok true) t₂ t₃,
        .told ⟨.started, some id, some claimed.attempts, startedAt, none⟩,
        .stored (.claim id claimedAt) (.ok (some claimed)) t₀ t₁]
      ∧ t₂.find? id = some (claimed.withHandle handle')
      ∧ t₃.find? id = some records.row
      ∧ t₃.log = t₂.log ++ [records.entry]
      ∧ result = .ok (some records.outcome)
      ∧ records.Agree (.of claimed ending) claimed decidedAt

/--
A cycle is stranded at a call: a claimed row is to be tried again, and is still there as it was
claimed, but the delay that is called for cannot be drawn.
-/
structure Stranded (s : Scheduler) (id : TaskId) (ending : WorkEnding) (claimed : Row)
    (baseMs : UInt64) (c : Call) (y : System) : Prop where
  verdict : ∃ decidedAt reason,
    Verdict.ofResult claimed decidedAt ending.result = .retried baseMs reason
  call : c = .retryDelay ((Backoff.ofSpec claimed.spec s.config.maxBackoffMs).withBase baseMs)
    (Decision.nextRetry claimed)
  none : ((Backoff.ofSpec claimed.spec s.config.maxBackoffMs).withBase baseMs).delay
    (Decision.nextRetry claimed) y.draws = none
  held : y.Holds id claimed

variable {s : Scheduler}

/-- A claimed row's payload is worked on, and what comes of it is stored and told. -/
theorem assures_runClaimed {row : Row} {payload : Payload}
    {ok : Option RunOutcome → List Mark → System → Prop}
    (hpast : past.any Mark.completes = false) (hy : y.Holds id row) (hid : row.id = id)
    (hrunning : row.state = .running)
    (hstuck : ∀ baseMs c y₁, Stranded s id ending row baseMs c y₁ → stuck c past y₁)
    (h : ∀ completion (records : Records) decidedAt handle t t' y',
      records.Agree (.of row ending) row decidedAt →
      t.find? id = some (row.withHandle handle) → t'.find? id = some records.row →
      t'.log = t.log ++ [records.entry] →
      ok (some records.outcome) (.told records.event
        :: .stored (.complete id completion records.entry) (.ok true) t t' :: past) y') :
    (s.runClaimed row payload).Assures ending id stuck past y ok := by
  have hP : Lasting id past (System.Holds id row) := lasting_holds hpast
  unfold Scheduler.runClaimed
  refine .bind (.ask (· = ending) hP hy (fun y₁ _ => .inl ⟨ending, y₁, rfl, rfl, rfl⟩)
    (fun _ _ _ => rfl) fun ended y hended hy => ?_)
  subst hended
  refine .bind (.now hP hy fun decidedAt y hy => ?_)
  refine .bind (.decide (Fate.follows_ofResult row decidedAt ended) hP hy
    (fun baseMs reason y₁ hverdict hy₁ hnone =>
      hstuck baseMs _ y₁ ⟨⟨decidedAt, reason, hverdict⟩, rfl, hnone, hy₁⟩)
    fun d y hd hagrees hy => ?_)
  refine .bind (.complete hpast hy hid hrunning hd fun handle time t t' y hrow hafter hlog => ?_)
  exact .pure (h d.completion (d.records row decidedAt handle time) decidedAt handle t t' y
    (hagrees handle time) hrow hafter hlog)

/-- The cycle of a task in the queue tells what has become of it, or it is stranded at a delay. -/
theorem assures_execute {found : Row} {payload : Payload} (ending : WorkEnding)
    (hfound : y.table.find? id = some found) (hqueued : found.state = .enqueued)
    (hpayload :
      s.registry.instantiate found.spec.payloadTypeId found.spec.payloadData = .ok payload) :
    Program.Assures ending id
      (fun c _ y => ∃ claimedAt handle baseMs, Stranded s id ending
        ((RowStep.claim claimedAt).change (found.withHandle handle)) baseMs c y)
      (fun result past _ => CycleTells id found ending result past) (s.execute id) [] y := by
  have hy : y.Holds id found := ⟨found.platformId, hfound⟩
  have hid : found.id = id := TaskTable.id_of_find? hfound
  have cycle : (s.execute id).Assures ending id
      (fun c _ y => ∃ claimedAt handle baseMs, Stranded s id ending
        ((RowStep.claim claimedAt).change (found.withHandle handle)) baseMs c y) [] y
      fun outcome past _ => CycleTells id found ending (.ok outcome) past := by
    unfold Scheduler.execute
    refine .bind (.now (lasting_holds rfl) hy fun claimedAt y hy => ?_)
    refine .bind (.claim rfl hy hqueued fun handle t₀ t₁ y hy => ?_)
    refine .bind (.publishStatus (lasting_holds rfl) hy fun y hy => ?_)
    refine .bind (.notify (lasting_holds rfl) hy fun startedAt y hy => ?_)
    simp only [RowStep.claim, Row.withHandle, hpayload]
    refine assures_runClaimed rfl hy hid rfl
      (fun baseMs c y₁ hstranded => ⟨claimedAt, handle, baseMs, hstranded⟩) ?_
    intro completion records decidedAt handle' t₂ t₃ y hagree hrow hafter hlog
    exact ⟨_, records, claimedAt, startedAt, decidedAt, handle, handle', completion, t₀, t₁, t₂, t₃,
      rfl, rfl, hrow, hafter, hlog, rfl, hagree⟩
  refine cycle.mono (fun _ _ _ h => h) ?_
  rintro r past y ⟨a, rfl, h⟩
  exact h

/--
**One decision, four records.** However its attempt ends, and whatever others do meanwhile that
neither breaks the store nor touches the row, the cycle of a task in the queue whose payload can be
restored comes to its end with an outcome, unless a delay is called for that cannot be drawn; and
the stored row, the log entry, the event and the outcome say the same: what becomes of a task that
has been claimed and whose attempt has ended so.
-/
theorem cycle_records_agree {found : Row} {payload : Payload} (ending : WorkEnding)
    (hfound : y.table.find? id = some found) (hqueued : found.state = .enqueued)
    (hpayload :
      s.registry.instantiate found.spec.payloadTypeId found.spec.payloadData = .ok payload) :
    Program.Assures ending id (fun c _ y => c.CannotDraw y)
      (fun result past _ => CycleTells id found ending result past) (s.execute id) [] y :=
  (assures_execute ending hfound hqueued hpayload).mono
    (fun _ _ _ ⟨_, _, _, hstranded⟩ => ⟨_, _, hstranded.call, hstranded.none⟩) fun _ _ _ h => h

/-! ## Alone -/

namespace System

/-- Nothing goes wrong in a system that has its rows in memory. -/
structure Calm (y : System) : Prop where
  memory : ∃ t, y.store = .memory t
  faults : ∀ c, y.faults c = none

theorem Calm.leavesAlone (h : y.Calm) : y.LeavesAlone id past y := by
  have hserves : y.Serves := ⟨.inl h.memory, fun c => h.faults (.store c)⟩
  exact ⟨hserves.storeWorks, fun _ row hrow => ⟨row.platformId, hrow⟩⟩

theorem Calm.askStore (h : y.Calm) (c : StoreCall) : (y.askStore c).2.Calm := by
  obtain ⟨t, ht⟩ := h.memory
  unfold System.askStore answerStore
  rw [h.faults, ht]
  exact ⟨⟨_, rfl⟩, h.faults⟩

theorem Calm.askPlatform (h : y.Calm) {γ : Type} (c : Call) (f : Platform → γ × Platform) :
    (y.askPlatform c f).2.Calm := by
  unfold System.askPlatform
  rw [h.faults]
  exact ⟨h.memory, h.faults⟩

theorem Calm.answerWith (h : y.Calm) (c : Call) : (answerWith ending c y).2.Calm := by
  cases c with
  | store c => exact h.askStore c
  | readStatus id => exact h.askStore (.get id)
  | arm id delay conditions =>
    exact h.askPlatform (.arm id delay conditions) fun p => p.arm y.elapsed id delay conditions
  | disarm | isArmed => exact h.askPlatform _ _
  | retryDelay backoff retry =>
    simp only [System.answerWith, answer]
    split <;> exact ⟨h.memory, h.faults⟩
  | _ => exact ⟨h.memory, h.faults⟩

end System

/-- Alone in a calm system, a program ends as it would among others, or gets stuck as it would. -/
theorem Program.Assures.run {post : α → List Mark → System → Prop} {p : Program Call.signature α}
    (h : p.Assures ending id stuck post past y) (hy : y.Calm) :
    (∃ a past' y', p.run (System.answerWith ending) y = (.finished a, y') ∧ post a past' y')
      ∨ ∃ c past' y₁, p.run (System.answerWith ending) y
            = (.aborted c, (System.answerWith ending c y₁).2)
          ∧ stuck c past' y₁ := by
  induction p generalizing past y with
  | done a => exact .inl ⟨a, past, y, rfl, h⟩
  | call c k ih =>
    rcases h y hy.leavesAlone with ⟨r, y₂, hanswer, hrest⟩ | ⟨hnone, hstuck⟩
    · have hy₂ : y₂.Calm := by
        have hcalm : (System.answerWith ending c y).2.Calm := hy.answerWith c
        rw [hanswer] at hcalm
        exact hcalm
      rw [Program.run, hanswer]
      exact ih r hrest hy₂
    · refine .inr ⟨c, past, y, ?_, hstuck⟩
      have hanswer : System.answerWith ending c y = (none, (System.answerWith ending c y).2) :=
        Prod.ext hnone rfl
      rw [Program.run, hanswer]

namespace Rehearsal

/-- A task is submitted, and waits in the queue. -/
def inQueue (request : Request) : List Cue := whole 0 (.submit request)

theorem calm_home (cues : List Cue) : (home cues).Calm := ⟨⟨_, rfl⟩, faults_home cues⟩

end Rehearsal

open Rehearsal in
/-- An attempt asks for a retry, and its task is tried again. -/
theorem cycle_records_agree_retry :
    ∃ found payload, (home (inQueue request)).table.find? first = some found
      ∧ found.state = .enqueued
      ∧ scheduler.registry.instantiate found.spec.payloadTypeId found.spec.payloadData = .ok payload
      ∧ Fate.of found (.returned .retry) = .retried
      ∧ ∃ result past y', Program.run (System.answerWith (.returned .retry))
            (scheduler.execute first) (home (inQueue request)) = (.finished result, y')
          ∧ CycleTells first found (.returned .retry) result past := by
  have hshown : ((home (inQueue request)).table.find? first).any (fun row =>
      row.state == .enqueued && Fate.of row (.returned .retry) == .retried
        && (scheduler.registry.instantiate row.spec.payloadTypeId row.spec.payloadData).toBool)
      = true := by decide +kernel
  have hreturns : (match (Program.run (System.answerWith (.returned .retry))
      (scheduler.execute first) (home (inQueue request))).1 with
    | .finished _ => true
    | .aborted _ => false) = true := by decide +kernel
  obtain ⟨found, hfound, hrow⟩ := (Option.any_eq_true _ _).1 hshown
  simp only [Bool.and_eq_true, beq_iff_eq] at hrow
  obtain ⟨⟨hqueued, hfate⟩, hresolves⟩ := hrow
  cases hpayload : scheduler.registry.instantiate found.spec.payloadTypeId
      found.spec.payloadData with
  | error fault => rw [hpayload] at hresolves; cases hresolves
  | ok payload =>
    refine ⟨found, payload, hfound, hqueued, hpayload, hfate, ?_⟩
    rcases (cycle_records_agree (.returned .retry) hfound hqueued hpayload).run
        (calm_home (inQueue request)) with ⟨result, past, y', hrun, htells⟩ | ⟨c, past, y₁, hrun, -⟩
    · exact ⟨result, past, y', hrun, htells⟩
    · rw [hrun] at hreturns
      cases hreturns

end BackgroundTasks
