import BackgroundTasks.Proofs.Rows
import Mathlib.Data.List.Basic
import Mathlib.Logic.Relation

/-!
# The life cycle of a row

Whatever a table is told to do, with whatever arguments, the row of one task is left as it is,
added, or takes one of the steps that rows can take. So the laws of a row need to be shown for the
steps only, and they hold for a whole run because each of them is passed on from one table to the
next: rows stay, counts do not go back, and what leaves an end is a new schedule.
-/

namespace BackgroundTasks

/-- No edge leads out of an end. -/
theorem State.not_canBecome_of_isTerminal {s : State} (h : s.isTerminal = true) (target : State) :
    ¬ s.canBecome target = true := by
  cases s with
  | enqueued | running => cases h
  | succeeded | failed | cancelled => exact Bool.false_ne_true

/-- Something that is done to a table: a call, or a completion that is not logged. -/
inductive Transaction where
  | call (c : StoreCall)
  | conclude (id : TaskId) (c : Completion)

/-- The rows that a call with this result has written, by task. -/
def StoreCall.written : (c : StoreCall) → c.Result → List TaskId
  | insert row, _ => [row.id]
  | claim id _, row => if Option.isSome row then [id] else []
  | complete id .., applied => if applied then [id] else []
  | transition id .., (moved : Nat) => if moved = 0 then [] else [id]
  | transitionAll .., ids => ids
  | replaceSpec id .., (.replaced : Replacement) => [id]
  | setPlatformId id _, _ => [id]
  | _, _ => []

/-- A transaction that is this step for the row of a task. -/
inductive Transaction.Steps (id : TaskId) : Transaction → RowStep → Prop
  | claim (now : UInt64) : Steps id (.call (.claim id now)) (.claim now)
  | complete (c : Completion) (entry : LogEntry) :
    Steps id (.call (.complete id c entry)) (.complete c)
  | conclude (c : Completion) : Steps id (.conclude id c) (.complete c)
  | move (origins : List State) (target : State) (now : UInt64) :
    Steps id (.call (.transition id origins target now)) (.move origins target now)
  | moveAll (origins : List State) (target : State) (now : UInt64) :
    Steps id (.call (.transitionAll origins target now)) (.move origins target now)
  | replace (spec : Spec) (nextRunMs now : UInt64) :
    Steps id (.call (.replaceSpec id spec nextRunMs now)) (.replace spec nextRunMs now)
  | note (handle : Option String) :
    Steps id (.call (.setPlatformId id handle)) (.setPlatformId handle)

namespace TaskTable

variable {t : TaskTable} {x : Transaction} {id : TaskId} {row row' : Row}

/-- The table that a transaction leaves behind. -/
def after (t : TaskTable) : Transaction → TaskTable
  | .call c => (t.answer c).2
  | .conclude id c => (t.applyCompletion id c).2

/-- The rows that a transaction writes. One that fails or is refused writes none. -/
def written (t : TaskTable) : Transaction → List TaskId
  | .call c =>
    match (t.answer c).1 with
    | .ok r => c.written r
    | .error _ => []
  | .conclude id c => if (t.applyCompletion id c).1 then [id] else []

/-- The row of a task is claimed. -/
def Claims (t : TaskTable) (id : TaskId) (x : Transaction) : Prop :=
  (∃ now, x = .call (.claim id now)) ∧ id ∈ t.written x

/-- The row of a task is given a new description. -/
def Renews (t : TaskTable) (id : TaskId) (x : Transaction) : Prop :=
  (∃ spec nextRunMs now, x = .call (.replaceSpec id spec nextRunMs now)) ∧ id ∈ t.written x

/-! ## One transaction -/

/-- What a transaction is for the row of a task. -/
inductive Outcome (t : TaskTable) (id : TaskId) (x : Transaction) : Prop
  | kept (same : (t.after x).find? id = t.find? id)
  | added (row : Row) (inserts : x = .call (.insert row)) (names : row.id = id)
    (writes : id ∈ t.written x) (absent : t.find? id = none)
    (present : (t.after x).find? id = some row)
  | stepped (step : RowStep) (steps : x.Steps id step) (writes : id ∈ t.written x)
    (takes : step.Takes (t.find? id) ((t.after x).find? id))

/-- A transaction that is a step of one row. -/
theorem outcome_stepAt {target : TaskId} {step : RowStep} (steps : x.Steps target step)
    (hafter : (t.after x).find? id = (t.stepAt target step).2.find? id)
    (hwritten : (t.stepAt target step).1.isSome = true → target ∈ t.written x) :
    t.Outcome id x := by
  by_cases hid : id = target
  · subst hid
    cases htaken : (t.stepAt id step).1 with
    | none => exact .kept (hafter.trans (by rw [stepAt_refused htaken]))
    | some row =>
      have hsome : (t.stepAt id step).1.isSome = true := by rw [htaken]; rfl
      exact .stepped step steps (hwritten hsome) (hafter ▸ takes_of_isSome hsome)
  · exact .kept (hafter.trans (t.find?_stepAt_other step hid))

theorem mem_of_taken {taken : Bool} (h : taken = true) : id ∈ if taken then [id] else [] := by
  rw [if_pos h]
  exact List.mem_singleton_self id

theorem outcome_insert (t : TaskTable) (id : TaskId) (row : Row) :
    t.Outcome id (.call (.insert row)) := by
  cases hinsert : t.insert? row with
  | none => exact .kept (by rw [after, answer, hinsert])
  | some t' =>
    obtain ⟨habsent, hpresent, hother⟩ := find?_insert? hinsert
    have hafter : t.after (.call (.insert row)) = t' := by rw [after, answer, hinsert]
    have hwritten : t.written (.call (.insert row)) = [row.id] := by
      rw [written, answer, hinsert]
      rfl
    by_cases hid : id = row.id
    · subst hid
      exact .added row rfl rfl (hwritten ▸ List.mem_singleton_self _) habsent (hafter ▸ hpresent)
    · exact .kept (hafter ▸ hother id hid)

theorem outcome_setPlatformId (t : TaskTable) (id target : TaskId) (handle : Option String) :
    t.Outcome id (.call (.setPlatformId target handle)) := by
  cases hrow : t.find? target with
  | none =>
    -- there is no row to record the handle in
    have hrefused : (t.stepAt target (.setPlatformId handle)).1 = none := by
      show (t.find? target).bind _ = none
      rw [hrow]
      rfl
    refine .kept ?_
    rw [after, answer]
    split
    · next heq => rw [heq] at hrefused; cases hrefused
    · next heq => rw [← congrArg Prod.snd heq, stepAt_refused hrefused]
  | some row =>
    have hanswer := answer_setPlatformId hrow handle
    exact outcome_stepAt (.note handle) (by rw [after, hanswer]) fun _ => by
      rw [written, hanswer]
      exact List.mem_singleton_self _

/-- A row is left as it is, or added, or takes a step. -/
theorem outcome (t : TaskTable) (id : TaskId) (x : Transaction) : t.Outcome id x := by
  cases x with
  | conclude target c => exact outcome_stepAt (.conclude c) rfl mem_of_taken
  | call c =>
    cases c with
    | get | list | due | logs | lastLog | appendLog => exact .kept rfl
    | insert row => exact t.outcome_insert id row
    | claim target now => exact outcome_stepAt (.claim now) rfl mem_of_taken
    | complete target c entry => exact outcome_stepAt (.complete c entry) rfl mem_of_taken
    | transition target origins goal now =>
      refine outcome_stepAt (.move origins goal now) rfl fun h => ?_
      show target ∈ if (if (t.stepAt target (.move origins goal now)).1.isSome
        then (1 : Nat) else 0) = 0 then [] else [target]
      rw [if_pos h]
      exact List.mem_singleton_self _
    | transitionAll origins goal now =>
      by_cases hid : id ∈ (t.stepAll (.move origins goal now)).1
      · exact .stepped _ (.moveAll origins goal now) hid (takes_of_mem_stepAll hid)
      · exact .kept (find?_of_not_mem_stepAll hid)
    | replaceSpec target spec next now =>
      have hafter := congrArg (TaskTable.find? · id) (t.replaceSpec_snd target spec next now)
      refine outcome_stepAt (.replace spec next now) hafter fun h => ?_
      show target ∈ (StoreCall.replaceSpec target spec next now).written
        (t.replaceSpec target spec next now).1
      rw [(t.replaceSpec_replaced target spec next now).2 h]
      exact List.mem_singleton_self _
    | setPlatformId target handle => exact t.outcome_setPlatformId id target handle

/-- What a transaction does not write stays as it is. -/
theorem find?_after_of_not_written (h : id ∉ t.written x) :
    (t.after x).find? id = t.find? id := by
  cases t.outcome id x with
  | kept same => exact same
  | added _ _ _ writes => exact absurd writes h
  | stepped _ _ writes => exact absurd writes h

/-- What may become of a row in one transaction. -/
structure Evolves (t : TaskTable) (x : Transaction) (row row' : Row) : Prop where
  id : row'.id = row.id
  created : row'.createdMs = row.createdMs
  /-- Attempts are counted when they are claimed, and never taken back. -/
  attempts : row.attempts ≤ row'.attempts
  counted : row'.attempts ≠ row.attempts → t.Claims row.id x
  /-- The state changes along an edge, or a row that is not running starts afresh. -/
  edge : row'.state ≠ row.state → row.state.canBecome row'.state = true
    ∨ (t.Renews row.id x ∧ row.state ≠ .running ∧ row'.state = .enqueued)
  described : row'.spec ≠ row.spec → t.Renews row.id x

/-- A row that is left as it is. -/
theorem Evolves.refl (t : TaskTable) (x : Transaction) (row : Row) : t.Evolves x row row where
  id := rfl
  created := rfl
  attempts := UInt32.le_refl _
  counted h := absurd rfl h
  edge h := absurd rfl h
  described h := absurd rfl h

/-- Only a new schedule leads out of an end. -/
theorem Evolves.renews_of_terminal (h : t.Evolves x row row') (hend : row.state.isTerminal = true)
    (hleft : row'.state ≠ row.state) : t.Renews row.id x := by
  rcases h.edge hleft with hedge | ⟨hrenews, -⟩
  · exact absurd hedge (State.not_canBecome_of_isTerminal hend _)
  · exact hrenews

/-- A step that neither counts nor renews moves the row along an edge at most. -/
theorem Evolves.of_change {step : RowStep} (hattempts : (step.change row).attempts = row.attempts)
    (hspec : (step.change row).spec = row.spec)
    (hstate : (step.change row).state = row.state
      ∨ row.state.canBecome (step.change row).state = true) :
    t.Evolves x row (step.change row) where
  id := step.keepsId row
  created := step.keepsCreated row
  attempts := UInt32.le_of_eq hattempts.symm
  counted h := absurd hattempts h
  edge h := .inl (hstate.resolve_left h)
  described h := absurd hspec h

/-- **Each kind of step is lawful.** -/
theorem Evolves.of_steps {step : RowStep} (hsteps : x.Steps row.id step)
    (hwrites : row.id ∈ t.written x) (haccepts : step.accepts row = true) :
    t.Evolves x row (step.change row) := by
  cases hsteps with
  | claim now =>
    have hstate : row.state = .enqueued := by simpa [RowStep.claim] using haccepts
    exact
      { id := rfl
        created := rfl
        attempts := le_satSucc row.attempts
        counted := fun _ => ⟨⟨now, rfl⟩, hwrites⟩
        edge := fun _ => .inl (by rw [hstate]; rfl)
        described := fun h => absurd rfl h }
  | complete c | conclude c =>
    exact .of_change rfl rfl (.inr (RowStep.complete_accepts.1 haccepts).2.2)
  | move origins target now | moveAll origins target now =>
    exact .of_change rfl rfl (.inr (Bool.and_eq_true_iff.1 haccepts).2)
  | replace spec next now =>
    have hstate : row.state ≠ .running := by
      simpa [RowStep.replace, State.canReschedule] using haccepts
    have hrenews : t.Renews row.id (.call (.replaceSpec row.id spec next now)) :=
      ⟨⟨spec, next, now, rfl⟩, hwrites⟩
    exact
      { id := rfl
        created := rfl
        attempts := UInt32.le_refl _
        counted := fun h => absurd rfl h
        edge := fun _ => .inr ⟨hrenews, hstate, rfl⟩
        described := fun _ => hrenews }
  | note handle => exact .of_change rfl rfl (.inl rfl)

/-- What a transaction may do to a table. -/
structure Lawful (t : TaskTable) (x : Transaction) : Prop where
  /-- No row disappears, and each changes as rows may. -/
  evolves : ∀ id row, t.find? id = some row →
    ∃ row', (t.after x).find? id = some row' ∧ t.Evolves x row row'
  /-- Rows are added under their own ids. -/
  added : ∀ id row, t.find? id = none → (t.after x).find? id = some row →
    row.id = id ∧ x = .call (.insert row)
  /-- All other rows stay as they are. -/
  others : ∀ id, id ∉ t.written x → (t.after x).find? id = t.find? id
  /-- The log of every task is continued. -/
  logs : ∀ id, t.logs id <+: (t.after x).logs id

/-- Every transaction only adds to the log. -/
theorem logs_after (t : TaskTable) (x : Transaction) (id : TaskId) :
    t.logs id <+: (t.after x).logs id := by
  cases x with
  | conclude => exact List.prefix_rfl
  | call c =>
    refine List.IsPrefix.filter _ ?_
    show t.log <+: (t.answer c).2.log
    rw [t.log_answer]
    exact List.prefix_append _ _

theorem lawful (t : TaskTable) (x : Transaction) : t.Lawful x where
  evolves id row h := by
    have hid := id_of_find? h
    cases t.outcome id x with
    | kept same => exact ⟨row, same.trans h, .refl t x row⟩
    | added _ _ _ _ absent => rw [h] at absent; cases absent
    | stepped step steps writes takes =>
      obtain ⟨_, hrow, haccepts, hafter⟩ := takes
      obtain rfl := Option.some.inj (h.symm.trans hrow)
      subst hid
      exact ⟨_, hafter, .of_steps steps writes haccepts⟩
  added id row hnone hsome := by
    cases t.outcome id x with
    | kept same => rw [same, hnone] at hsome; cases hsome
    | added row' inserts names _ _ present =>
      obtain rfl := Option.some.inj (hsome.symm.trans present)
      exact ⟨names, inserts⟩
    | stepped step _ _ takes =>
      obtain ⟨_, hrow, -⟩ := takes
      rw [hnone] at hrow
      cases hrow
  others _ h := find?_after_of_not_written h
  logs := t.logs_after x

/-! ## Runs -/

/-- The table after several transactions. -/
def run (t : TaskTable) (xs : List Transaction) : TaskTable := xs.foldl after t

/-- Some transaction of a run is of this kind when its turn comes. -/
def Sometime (kind : TaskTable → Transaction → Prop) : TaskTable → List Transaction → Prop
  | _, [] => False
  | t, x :: xs => kind t x ∨ (t.after x).Sometime kind xs

/-- What a run has kept of the table it began with. -/
structure Kept (t : TaskTable) (xs : List Transaction) (id : TaskId) : Prop where
  /-- A row stays, and what is not said to have happened to it has not changed it. -/
  row : ∀ row, t.find? id = some row → ∃ row', (t.run xs).find? id = some row'
    ∧ row'.id = row.id ∧ row'.createdMs = row.createdMs ∧ row.attempts ≤ row'.attempts
    ∧ (¬ Sometime (Claims · id) t xs → row'.attempts = row.attempts)
    ∧ (¬ Sometime (Renews · id) t xs → row'.spec = row.spec
      ∧ Relation.ReflTransGen (fun a b => State.canBecome a b = true) row.state row'.state
      ∧ (row.state.isTerminal = true → row'.state = row.state))
  /-- A row that no transaction has written is as it was. -/
  unwritten : ¬ Sometime (fun t x => id ∈ t.written x) t xs → (t.run xs).find? id = t.find? id
  logs : t.logs id <+: (t.run xs).logs id

theorem kept (t : TaskTable) (xs : List Transaction) (id : TaskId) : t.Kept xs id := by
  induction xs generalizing t with
  | nil =>
    exact ⟨fun row h => ⟨row, h, rfl, rfl, UInt32.le_refl _, fun _ => rfl,
      fun _ => ⟨rfl, .refl, fun _ => rfl⟩⟩, fun _ => rfl, List.prefix_rfl⟩
  | cons x xs ih =>
    have hx := t.lawful x
    have hxs := ih (t.after x)
    refine ⟨fun row h => ?_, fun h => ?_, (hx.logs id).trans hxs.logs⟩
    · obtain ⟨row₁, h₁, hevolves⟩ := hx.evolves id row h
      obtain ⟨row', h', hid, hcreated, hle, hcount, hrenewed⟩ := hxs.row row₁ h₁
      obtain rfl := id_of_find? h
      refine ⟨row', h', hid.trans hevolves.id, hcreated.trans hevolves.created,
        UInt32.le_trans hevolves.attempts hle, fun hnever => ?_, fun hnever => ?_⟩
      · obtain ⟨hnow, hlater⟩ := not_or.1 hnever
        exact (hcount hlater).trans (not_imp_comm.1 hevolves.counted hnow)
      · obtain ⟨hnow, hlater⟩ := not_or.1 hnever
        obtain ⟨hspec, hpath, hend⟩ := hrenewed hlater
        refine ⟨hspec.trans (not_imp_comm.1 hevolves.described hnow), ?_, fun hterminal => ?_⟩
        · by_cases hstate : row₁.state = row.state
          · exact hstate ▸ hpath
          · exact .head ((hevolves.edge hstate).resolve_right fun h => hnow h.1) hpath
        · have hstate : row₁.state = row.state :=
            not_imp_comm.1 (hevolves.renews_of_terminal hterminal) hnow
          exact (hend (hstate ▸ hterminal)).trans hstate
    · obtain ⟨hnow, hlater⟩ := not_or.1 h
      exact (hxs.unwritten hlater).trans (hx.others id hnow)

/-- Rows that follow their life cycle, and logs that only grow. -/
structure FollowsLifeCycle (t : TaskTable) (xs : List Transaction) : Prop where
  /-- Every transaction is lawful when its turn comes. -/
  lawful : ∀ earlier x later, xs = earlier ++ x :: later → (t.run earlier).Lawful x
  /-- Between any two moments, rows and logs are kept. -/
  kept : ∀ earlier between later, xs = earlier ++ between ++ later →
    ∀ id, (t.run earlier).Kept between id

/-- **Every run of a table follows the life cycle**, whatever it is told and in whatever order. -/
theorem followsLifeCycle (t : TaskTable) (xs : List Transaction) : t.FollowsLifeCycle xs where
  lawful earlier x _ _ := (t.run earlier).lawful x
  kept earlier between _ _ id := (t.run earlier).kept between id

end TaskTable

end BackgroundTasks
