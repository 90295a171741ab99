import BackgroundTasks.Proofs.Custody

/-!
# Debts to the platform

Whoever brings a row into the queue, or to its end, owes the platform a call: to arm the task or to
disarm it. The watchdog owes one for each row that it finds due: to see whether the task is armed,
and to arm it if it is not. An operation calls the platform only to settle a debt, it runs up its
debts in one transaction, and it does not come to its end before it has settled them.

A bare cycle of execution is left out. It tells its caller what to arm and arms nothing itself.
-/

namespace BackgroundTasks

/-- What an operation may owe the platform. -/
inductive Debt where
  | arm
  /-- To arm a task that is not armed. -/
  | check
  | disarm
deriving DecidableEq

/-- Whether a debt is for a wake-up, or against it. -/
def Debt.arms : Debt → Bool
  | arm | check => true
  | disarm => false

namespace Call

/-- The debts that an answer brings. -/
def debts : (c : Call) → c.Answer → List (TaskId × Debt)
  | store (.insert row), Except.ok _ => [(row.id, .arm)]
  | store (.replaceSpec id ..), Except.ok .replaced => [(id, .arm)]
  | store (.complete id c _), Except.ok true =>
    [(id, if c.state = .enqueued then .arm else .disarm)]
  | store (.transition id ..), Except.ok (moved : Nat) => if moved = 0 then [] else [(id, .disarm)]
  | store (.transitionAll ..), Except.ok (ids : List TaskId) => ids.map fun id => (id, .disarm)
  | store (.due _), Except.ok (rows : List Row) => rows.map fun row => (row.id, .check)
  | _, _ => []

/-- Whether an answer settles the debt for a task. -/
def settles : (c : Call) → c.Answer → TaskId → Bool
  | arm target .., Except.ok _, id => target == id
  | disarm target, Except.ok _, id => target == id
  | isArmed target, Except.ok armed, id => armed && target == id
  | _, _, _ => false

/-- Whether a call tries to claim. -/
def isClaim : Call → Bool
  | store (.claim ..) => true
  | _ => false

end Call

/-- What is to be expected of an operation yet. -/
structure Debts where
  /-- The task of a cycle that has not tried to claim its row yet. -/
  toClaim : Option TaskId := none
  owed : List (TaskId × Debt) := []

namespace Debts

/-- What is left when the debt for a task is settled. -/
def settled (g : Debts) (id : TaskId) : Debts :=
  { g with owed := g.owed.filter fun o => id != o.1 }

/-- The calls that are in order. -/
def allows (g : Debts) : Call → Prop
  | .store (.claim id _) => g.toClaim = some id
  | .store (.insert _) | .store (.complete ..) | .store (.transition ..)
  | .store (.transitionAll ..) | .store (.replaceSpec ..) | .store (.due _) => g.owed = []
  | .arm id .. => (id, .arm) ∈ g.owed ∨ (id, .check) ∈ g.owed
  | .disarm id => (id, .disarm) ∈ g.owed
  | .isArmed id => (id, .check) ∈ g.owed
  | _ => True

/-- The answers that may be counted on: the platform works, rows do not get lost. -/
def expects (s : Scheduler) (g : Debts) : (c : Call) → c.Answer → Prop
  | .store (.get id), Except.ok (row : Option Row) =>
    (∀ r, row = some r → r.id = id) ∧ ((id, Debt.arm) ∈ g.owed → row.isSome = true)
  | .store (.get id), Except.error _ => (id, Debt.arm) ∉ g.owed
  | .store (.claim id _), Except.ok (some row) =>
    row.id = id ∧ (s.registry.instantiate row.spec.payloadTypeId row.spec.payloadData).isOk = true
  | .store (.transitionAll ..), Except.ok (ids : List TaskId) => ids.Nodup
  | .store (.due _), Except.ok (rows : List Row) => (rows.map Row.id).Nodup
  | .arm .., Except.error _ => False
  | .disarm _, Except.error _ => False
  | .isArmed _, Except.error _ => False
  | _, _ => True

/-- What an answer makes of the debts. -/
def next (g : Debts) (c : Call) (a : c.Answer) : Debts where
  toClaim := if c.isClaim then none else g.toClaim
  owed := c.debts a ++ g.owed.filter fun o => !c.settles a o.1

/-- Nothing is left to do. -/
def Done (g : Debts) : Prop := g.toClaim = none ∧ g.owed = []

end Debts

/-- A job that sees to the wake-up of its tasks. -/
def Job.seesToWakeUps : Job → Bool
  | execute _ => false
  | _ => true

/-- The conduct of operations towards the platform. -/
def debts (s : Scheduler) : Conduct Debts where
  admits job := job.seesToWakeUps = true
  idle := {}
  start job := match job with
    | .dispatch id => { toClaim := some id }
    | _ => {}
  gone := {}
  allows := Debts.allows
  expects := Debts.expects s
  next := Debts.next
  final := Debts.Done
  final_gone := ⟨rfl, rfl⟩

variable {s : Scheduler}

namespace Debts

variable {g : Debts} {id : TaskId}

/-- An answer that neither brings nor settles debts changes nothing. -/
theorem next_same {c : Call} {a : c.Answer} (hclaim : c.isClaim = false) (hnone : c.debts a = [])
    (hsettles : ∀ id, c.settles a id = false) : next g c a = g := by
  have hfilter : (g.owed.filter fun o => !c.settles a o.1) = g.owed :=
    List.filter_eq_self.2 fun o _ => by rw [hsettles]; rfl
  unfold next
  rw [hclaim, hnone, hfilter]
  rfl

/-- One debt for each task of a list, and nothing else to do. -/
def each (e : Debt) (ids : List TaskId) : Debts := ⟨none, ids.map fun id => (id, e)⟩

/-- The first of several debts is settled. -/
theorem settled_each {e : Debt} {ids : List TaskId} (hnd : (id :: ids).Nodup) :
    (each e (id :: ids)).settled id = each e ids := by
  unfold settled each
  congr 1
  rw [List.map_cons, List.filter_cons_of_neg (by simp), List.filter_eq_self]
  intro o ho
  obtain ⟨id', hid', rfl⟩ := List.mem_map.1 ho
  have hne : id ≠ id' := fun he => (List.nodup_cons.1 hnd).1 (he ▸ hid')
  simpa using hne

end Debts

theorem debts_overlooks : (debts s).Overlooks := by
  intro c hc g
  cases c <;> first
    | exact ⟨trivial, fun _ => Debts.next_same rfl rfl fun _ => rfl⟩
    | simp [Call.isIncidental] at hc

open Operation Conduct

/-- What is asked of an operation in the end: to be free of debts. -/
abbrev Conduct.Fulfils (s : Scheduler) {α : Type} (op : Operation α) (g : Debts) : Prop :=
  (debts s).Upholds op g (fun g _ => g.Done) Debts.Done

theorem done_nothing : Debts.Done {} := ⟨rfl, rfl⟩

theorem done_settled {id : TaskId} {e : Debt} : ((Debts.each e [id]).settled id).Done := by
  rw [Debts.settled_each (by simp)]
  exact done_nothing

variable {g : Debts} {ok : Debts → Unit → Prop} {failed : Debts → Prop}

/-! ## Operations without a claim -/

/-- A call to the store that brings no debts. -/
theorem debts_store {c : StoreCall} {ok : Debts → c.Result → Prop}
    (hallows : (debts s).allows g (.store c)) (hclaim : (Call.store c).isClaim = false)
    (hnone : ∀ a, (Call.store c).debts a = [])
    (hok : ∀ a, (debts s).expects g (.store c) (Except.ok a) → ok g a)
    (hfailed : ∀ f, (debts s).expects g (.store c) (Except.error f) → failed g) :
    (debts s).Upholds (store c) g ok failed := by
  have hsame (a : c.Answer) : (debts s).next g (.store c) a = g :=
    Debts.next_same hclaim (hnone a) fun _ => rfl
  refine (upholds_store c).2 ⟨hallows, fun a ha => ?_, fun f hf => ?_⟩
  · rw [hsame]
    exact hok a ha
  · rw [hsame]
    exact hfailed f hf

theorem debts_armAndRecord {row : Row} (delay : Span)
    (h : (row.id, .arm) ∈ g.owed ∨ (row.id, .check) ∈ g.owed) :
    (debts s).Upholds (armAndRecord row delay) g (fun g' _ => g' = g.settled row.id)
      (· = g.settled row.id) := by
  unfold armAndRecord
  rw [upholds_bind, upholds_arm]
  refine ⟨h, fun handle _ => ?_, fun f hf => hf.elim⟩
  rw [upholds_ite]
  refine ⟨fun _ => ?_, fun _ => rfl⟩
  exact debts_store trivial rfl (fun _ => rfl) (fun _ _ => rfl) fun _ _ => rfl

theorem debts_armForNextRun {row : Row} (now : UInt64) (h : (row.id, .arm) ∈ g.owed)
    (hok : ok (g.settled row.id) ()) :
    (debts s).Upholds (armForNextRun row now) g ok failed := by
  unfold armForNextRun
  rw [upholds_ignoringFailure]
  refine (debts_armAndRecord _ (.inl h)).mono ?_ ?_
  · intro _ _ heq
    subst heq
    exact hok
  · intro _ heq
    subst heq
    exact hok

theorem debts_submit (request : Request) : Fulfils s (s.submit request) {} := by
  unfold Scheduler.submit
  simp only [upholds_bind]
  refine debts_overlooks.now fun now => upholds_normalize s request now (fun n => ?_) done_nothing
  refine debts_overlooks.ask rfl fun id => ?_
  refine (upholds_store _).2 ⟨rfl, fun _ _ => ?_, fun _ _ => done_nothing⟩
  refine debts_overlooks.publishStatus id (debts_overlooks.notify _ _ _ _ ?_)
  exact debts_armForNextRun now List.mem_cons_self done_settled

theorem debts_afterCancel {id : TaskId} (h : (id, .disarm) ∈ g.owed) (hok : ok (g.settled id) ()) :
    (debts s).Upholds (Scheduler.afterCancel id) g ok failed := by
  unfold Scheduler.afterCancel
  simp only [upholds_bind, upholds_ignoringFailure]
  refine (upholds_disarm id).2 ⟨h, fun _ => ?_, fun f hf => hf.elim⟩
  exact debts_overlooks.publishStatus id (debts_overlooks.notify _ _ _ _ hok)

theorem debts_cancel (id : TaskId) : Fulfils s (Scheduler.cancel id) {} := by
  unfold Scheduler.cancel
  simp only [upholds_bind, upholds_ite, upholds_throw, upholds_pure]
  refine debts_store trivial rfl (fun _ => rfl) (fun row _ => ?_) fun _ _ => done_nothing
  refine ⟨fun _ => done_nothing, fun _ => debts_overlooks.now fun now => ?_⟩
  refine (upholds_store _).2 ⟨rfl, fun moved _ => ⟨fun hmoved => ?_, fun hmoved => ?_⟩,
    fun _ _ => done_nothing⟩
  · subst hmoved
    exact done_nothing
  · have hnext : (debts s).next {} (.store (.transition id State.cancellable .cancelled now))
        (Except.ok moved) = .each .disarm [id] :=
      congrArg (fun l => Debts.mk none (l ++ [])) (if_neg hmoved)
    rw [hnext]
    exact debts_afterCancel List.mem_cons_self done_settled

theorem debts_cancelAll : Fulfils s Scheduler.cancelAll {} := by
  unfold Scheduler.cancelAll
  simp only [upholds_bind, upholds_pure]
  refine debts_overlooks.now fun now => ?_
  refine (upholds_store _).2 ⟨rfl, fun ids hnd => ?_, fun _ _ => done_nothing⟩
  have start : (debts s).next {} (.store (.transitionAll State.cancellable .cancelled now))
      (Except.ok ids) = .each .disarm ids :=
    congrArg (Debts.mk none) (List.append_nil _)
  rw [start]
  refine (upholds_forM (fun rest g => rest.Nodup ∧ g = .each .disarm rest) (fun id rest g hg => ?_)
    ids ⟨hnd, rfl⟩).mono ?_ fun _ hg => hg
  · obtain ⟨hnd, rfl⟩ := hg
    exact debts_afterCancel List.mem_cons_self
      ⟨(List.nodup_cons.1 hnd).2, Debts.settled_each hnd⟩
  · intro _ _ h
    obtain ⟨-, rfl⟩ := h
    exact done_nothing

theorem debts_reschedule (id : TaskId) (request : Request) :
    Fulfils s (s.reschedule id request) {} := by
  unfold Scheduler.reschedule
  simp only [upholds_bind]
  refine debts_overlooks.now fun now => upholds_normalize s request now (fun n => ?_) done_nothing
  refine (upholds_store _).2 ⟨rfl, fun outcome _ => ?_, fun _ _ => done_nothing⟩
  cases outcome with
  | notFound => exact done_nothing
  | running => exact done_nothing
  | replaced =>
    simp only [upholds_bind]
    -- the row is still there, so it is armed
    refine debts_store trivial rfl (fun _ => rfl) (fun row hrow => ?_) fun f hf => ?_
    · cases row with
      | none => cases hrow.2 List.mem_cons_self
      | some row =>
        obtain rfl := hrow.1 row rfl
        simp only [upholds_bind]
        refine debts_overlooks.publishStatus _ (debts_overlooks.notify _ _ _ _ ?_)
        exact debts_armForNextRun now List.mem_cons_self done_settled
    · exact absurd List.mem_cons_self hf

/-- A row that may be an orphan is looked at, and armed if it is one. -/
theorem debts_rescue (now : UInt64) (row : Row) (h : (row.id, .check) ∈ g.owed) :
    (debts s).Upholds (Scheduler.rescue now row) g (fun g' _ => g' = g.settled row.id)
      (fun _ => False) := by
  unfold Scheduler.rescue Scheduler.isOrphan
  simp only [upholds_bind, upholds_orElse, upholds_map, upholds_ite, upholds_pure, true_implies,
    not_true_eq_false, false_implies, not_false_eq_true, Bool.false_eq_true, and_true, true_and]
  refine (upholds_isArmed row.id).2 ⟨h, fun b _ => ?_, fun f hf => hf.elim⟩
  cases b with
  | true => exact ⟨fun hb => (by cases hb), fun _ => rfl⟩
  | false =>
    have hsame : (debts s).next g (.isArmed row.id) (Except.ok false) = g :=
      Debts.next_same rfl rfl fun _ => rfl
    rw [hsame]
    refine ⟨fun _ => ?_, fun hb => absurd rfl hb⟩
    refine (debts_armAndRecord .zero (.inr h)).mono ?_ fun _ hg => hg
    intro _ _ heq
    subst heq
    exact debts_overlooks.emit _ rfl

theorem debts_tick : Fulfils s Scheduler.tick {} := by
  unfold Scheduler.tick
  simp only [upholds_bind, upholds_pure]
  refine debts_overlooks.now fun now => ?_
  refine (upholds_store (.due now)).2 ⟨rfl, fun due hnd => ?_, fun _ _ => done_nothing⟩
  have start : (debts s).next {} (.store (.due now)) (Except.ok due)
      = .each .check (due.map Row.id) := by
    refine congrArg (Debts.mk none) ?_
    rw [List.map_map]
    exact List.append_nil _
  rw [start]
  refine (upholds_mapM (fun rest g => (rest.map Row.id).Nodup ∧ g = .each .check (rest.map Row.id))
    (fun row rest g hg => ?_) due ⟨hnd, rfl⟩).mono ?_ fun _ hg => hg
  · obtain ⟨hnd, rfl⟩ := hg
    refine (debts_rescue now row List.mem_cons_self).mono ?_ fun _ hg => hg.elim
    intro _ _ heq
    subst heq
    exact ⟨(List.nodup_cons.1 hnd).2, Debts.settled_each hnd⟩
  · intro _ _ h
    obtain ⟨-, rfl⟩ := h
    exact done_nothing

theorem debts_reading {job : Job} (h : job.onlyReads = true) :
    (debts s).Keeps (fun g _ => (debts s).final g) (job.program s) {} := by
  have reading (g : Debts) (c : Call) (hg : g = {}) (hc : c.isReading = true) :
      (debts s).allows g c ∧ ∀ r, (debts s).next g c r = {} := by
    subst hg
    cases c with
    | store c =>
      cases c <;> first
        | exact ⟨trivial, fun _ => Debts.next_same rfl rfl fun _ => rfl⟩
        | cases hc
    | readStatus | publish | subscribe | unsubscribe =>
      exact ⟨trivial, fun _ => Debts.next_same rfl rfl fun _ => rfl⟩
    | _ => cases hc
  refine (debts s).keeps_mono ?_ (keeps_of_callsOnly reading (callsOnly_reading h) rfl)
  intro _ _ heq
  subst heq
  exact done_nothing

/-! ## Operations with a claim -/

/-- The debt that an outcome leaves. -/
def RunOutcome.debt : RunOutcome → Debt
  | .succeeded | .failed => .disarm
  | .again .. => .arm

/-- What a cycle for a task leaves owed: at most one debt, for that task. -/
def RunOutcome.Leaves (id : TaskId) (g : Debts) : Option RunOutcome → Prop
  | none => g = {}
  | some o => g = .each o.debt [id] ∧ ∀ next spec delay, o = .again next spec delay → next = id

/-- The debt that the store sees is the one that the outcome leaves. -/
theorem leaves_of_concludes {row : Row} {now : UInt64} {d : Decision} (h : Concludes row now d) :
    RunOutcome.Leaves row.id
      (.each (if d.completion.state = .enqueued then .arm else .disarm) [row.id])
      (some d.outcome) := by
  rcases h.outcome with ⟨hstate, delay, ho⟩ | ⟨hstate, ho | ho⟩
  · rw [ho, if_pos hstate]
    refine ⟨rfl, ?_⟩
    intro next spec delay' heq
    cases heq
    rfl
  · rw [ho, if_neg hstate]
    refine ⟨rfl, ?_⟩
    intro next spec delay heq
    cases heq
  · rw [ho, if_neg hstate]
    refine ⟨rfl, ?_⟩
    intro next spec delay heq
    cases heq

theorem debts_complete {row : Row} {now : UInt64} {d : Decision} (hd : Concludes row now d) :
    (debts s).Upholds (Scheduler.complete row d now) {}
      (fun g applied => RunOutcome.Leaves row.id g (if applied then some d.outcome else none))
      Debts.Done := by
  unfold Scheduler.complete
  simp only [upholds_bind, upholds_ite, upholds_pure]
  refine (upholds_store _).2 ⟨rfl, fun applied _ => ⟨fun happlied => ?_, fun hno => ?_⟩,
    fun _ _ => done_nothing⟩
  · subst happlied
    refine debts_overlooks.publishStatus _ (debts_overlooks.notify _ _ _ _ ?_)
    exact leaves_of_concludes hd
  · cases applied with
    | true => exact absurd rfl hno
    | false => exact rfl

theorem debts_runClaimed (row : Row) (payload : Payload) :
    (debts s).Upholds (s.runClaimed row payload) {}
      (fun g o => RunOutcome.Leaves row.id g o) Debts.Done := by
  unfold Scheduler.runClaimed
  simp only [upholds_bind, upholds_pure]
  refine debts_overlooks.ask rfl fun ending => debts_overlooks.now fun now => ?_
  refine upholds_decide _ _ (fun _ _ _ => ⟨trivial, fun _ => Debts.next_same rfl rfl fun _ => rfl⟩)
    (fun _ _ => ⟨trivial, fun _ => Debts.next_same rfl rfl fun _ => rfl⟩) fun d hd _ => ?_
  exact debts_complete hd

/-- A cycle tries to claim its row, and leaves the debt of its outcome. -/
theorem debts_execute (id : TaskId) :
    (debts s).Upholds (s.execute id) { toClaim := some id }
      (fun g o => RunOutcome.Leaves id g o) Debts.Done := by
  unfold Scheduler.execute
  simp only [upholds_bind]
  refine debts_overlooks.now fun now => ?_
  refine (upholds_store _).2 ⟨rfl, fun claimed hclaimed => ?_, fun _ _ => done_nothing⟩
  cases claimed with
  | none => exact rfl
  | some row =>
    obtain ⟨rfl, hpayload⟩ := hclaimed
    simp only [upholds_bind]
    refine debts_overlooks.publishStatus _ (debts_overlooks.notify _ _ _ _ ?_)
    cases hinst : s.registry.instantiate row.spec.payloadTypeId row.spec.payloadData with
    | error fault =>
      rw [hinst] at hpayload
      cases hpayload
    | ok payload => exact debts_runClaimed row payload

theorem debts_follow {id : TaskId} {o : RunOutcome} (h : RunOutcome.Leaves id g (some o)) :
    Fulfils s (Scheduler.follow id o) g := by
  obtain ⟨rfl, hnext⟩ := h
  have dropped : (debts s).Upholds (ignoringFailure (disarm id)) (.each .disarm [id])
      (fun g _ => g.Done) Debts.Done := by
    rw [upholds_ignoringFailure]
    exact (upholds_disarm id).2 ⟨List.mem_cons_self, fun _ => done_settled, fun f hf => hf.elim⟩
  cases o with
  | succeeded => exact dropped
  | failed => exact dropped
  | again next spec delayMs =>
    obtain rfl := hnext next spec delayMs rfl
    unfold Scheduler.follow
    simp only [upholds_bind, upholds_orElse, upholds_map]
    refine (upholds_arm _ _ _).2 ⟨.inl List.mem_cons_self, fun handle _ => ?_, fun f hf => hf.elim⟩
    exact debts_store trivial rfl (fun _ => rfl) (fun _ _ => done_settled) fun _ _ => done_settled

theorem debts_dispatch (id : TaskId) : Fulfils s (s.dispatch id) { toClaim := some id } := by
  unfold Scheduler.dispatch
  simp only [upholds_bind]
  refine (debts_execute id).mono (fun g o ho => ?_) fun _ hg => hg
  cases o with
  | none =>
    obtain rfl : g = {} := ho
    exact done_nothing
  | some o =>
    simp only [upholds_bind, upholds_pure]
    exact debts_follow ho

/-- **Every job but a bare cycle settles its debts**, if the platform works. -/
theorem debts_govern (s : Scheduler) : (debts s).Governs s := by
  intro job hjob
  cases job with
  | submit request => exact ((debts s).keeps_program _ _).2 (debts_submit request)
  | execute id => cases hjob
  | dispatch id => exact ((debts s).keeps_program _ _).2 (debts_dispatch id)
  | cancel id => exact ((debts s).keeps_program _ _).2 (debts_cancel id)
  | cancelAll => exact ((debts s).keeps_program _ _).2 debts_cancelAll
  | reschedule id request => exact ((debts s).keeps_program _ _).2 (debts_reschedule id request)
  | tick => exact ((debts s).keeps_program _ _).2 debts_tick
  | taskStatus | list | executionLog | observe | unsubscribe => exact debts_reading rfl
  | record id handle =>
    exact ((debts s).keeps_program _ _).2
      (debts_store trivial rfl (fun _ => rfl) (fun _ _ => done_nothing) fun _ _ => done_nothing)

end BackgroundTasks
