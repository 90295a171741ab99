import BackgroundTasks.Proofs.Owing

/-!
# Wake-ups

The rows are in the store and the wake-ups at the platform, and nothing holds the two together but
the debts of the operations. Each operation goes to the store first and to the platform later, so
two operations may cross: one is first at the store and last at the platform, and undoes there what
the other has done. Just for a task on which operations have crossed last, the platform is out of
step with its row in the end.

The invariant follows the latest debt of a task, which is always in line with its row. Either it
is still owed, or it has been settled. Debts of the other kind that are left are older than it, so
who settles one of them after it crosses with it. Whatever is said to the platform in line with the
row puts that right again, and so does the platform when it wakes the task.
-/

namespace BackgroundTasks

variable {s : Scheduler} {w : Scene} {past : List Moment} {m : Moment} {id : TaskId}
  {row row' : Row} {who : Nat} {e : Debt} {arms : Bool}

/-! ## Crossing -/

/-- A debt that has come with a deed, and what there was before it. -/
structure LatestDebt where
  moment : Moment
  debt : Debt
  before : List Moment

/-- The latest debt for a task that has come with a deed. -/
def latestDebt? (id : TaskId) : List Moment → Option LatestDebt
  | [] => none
  | m :: past =>
    match (m.deed id).debt? with
    | some e => some ⟨m, e, past⟩
    | none => latestDebt? id past

/-- Whoever has run up a debt has told the platform so. -/
def LatestDebt.Settled (l : LatestDebt) (id : TaskId) (past : List Moment) : Prop :=
  ∃ command ∈ past, command.Commands l.moment.occurrence.who id l.debt.arms

/--
An operation comes too late: its debt is older than the latest one, which has been settled already,
and it asks the platform for the opposite.
-/
def Moment.TooLate (m : Moment) (id : TaskId) (past : List Moment) : Prop :=
  ∃ l ∈ latestDebt? id past, l.Settled id past
    ∧ (∃ take ∈ l.before, take.RunsUp m.occurrence.who id)
    ∧ m.Commands m.occurrence.who id !l.debt.arms

/-- Whether a task is armed or disarmed, or its registration is used up. -/
def Occurrence.registers (id : TaskId) : Occurrence → Bool
  | wakes _ target => target == id
  | o => o.command?.any fun command => command.1 == id

/--
Operations have crossed on a task last: what happened last to its registration is that one came too
late, and no debt has come with a deed since.
-/
def Crossed (id : TaskId) : List Moment → Prop
  | [] => False
  | m :: past =>
    m.TooLate id past
      ∨ (m.deed id).debt? = none ∧ m.occurrence.registers id = false ∧ Crossed id past

section Decidable

variable (m : Moment) (who : Nat) (id : TaskId) (arms : Bool) (past : List Moment)

instance : Decidable (m.Commands who id arms) := inferInstanceAs (Decidable (_ ∧ _))

instance : Decidable (m.RunsUp who id) :=
  decidable_of_iff (m.occurrence.who = who ∧ ∃ o ∈ m.occurrence.debts, o.1 = id) <| by
    simp [Moment.RunsUp]

instance (l : LatestDebt) : Decidable (l.Settled id past) :=
  inferInstanceAs (Decidable (∃ _ ∈ past, _))

instance : Decidable (m.TooLate id past) :=
  inferInstanceAs (Decidable (∃ _ ∈ latestDebt? id past, _))

instance decidableCrossed (id : TaskId) : (past : List Moment) → Decidable (Crossed id past)
  | [] => instDecidableFalse
  | m :: past =>
    haveI := decidableCrossed id past
    inferInstanceAs (Decidable (m.TooLate id past ∨ _ ∧ _ ∧ _))

end Decidable

theorem latestDebt?_of_debt (he : (m.deed id).debt? = some e) :
    latestDebt? id (m :: past) = some ⟨m, e, past⟩ := by
  rw [latestDebt?, he]

theorem latestDebt?_of_none (he : (m.deed id).debt? = none) :
    latestDebt? id (m :: past) = latestDebt? id past := by
  rw [latestDebt?, he]

theorem registers_eq_false : m.occurrence.registers id = false ↔
    (∀ who arms, ¬ m.Commands who id arms) ∧ ¬ ∃ who, m.occurrence = .wakes who id := by
  unfold Occurrence.registers Moment.Commands
  split
  · next who target hm => simp [hm, Occurrence.command?]
  · next o hnot =>
    have hwakes : ¬ ∃ who, m.occurrence = .wakes who id := by
      intro h
      obtain ⟨who, hm⟩ := h
      exact hnot who id hm
    cases hcommand : m.occurrence.command? with
    | none => simp [hwakes]
    | some command => simp [hwakes, Prod.ext_iff]

/-- A task is armed as before, unless the platform hears of it or wakes it. -/
theorem armed_of_not_registers (h : m.occurrence.registers id = false) :
    armed id (m :: past) = armed id past := by
  obtain ⟨hcommand, hwakes⟩ := registers_eq_false.1 h
  rcases armed_of_no_command hcommand with hkeeps | ⟨-, hex⟩
  · exact hkeeps
  · exact absurd hex hwakes

/-- Who talks to the platform does nothing to a row. -/
theorem debt?_of_command (h : m.Commands who id arms) : (m.deed id).debt? = none := by
  rcases call_of_command h with ⟨delay, conditions, handle, -, hm⟩ | ⟨-, hm⟩ <;>
    · rw [Moment.deed, hm]
      rfl

theorem debt?_ne_check (he : (m.deed id).debt? = some e) : e ≠ .check := by
  intro heq
  subst heq
  cases hd : m.deed id <;> rw [hd] at he <;> first
    | cases he
    | (simp only [Deed.debt?, Option.some.injEq] at he; split at he <;> cases he)

/-! ## Cycles that have not claimed yet -/

/-- An attempt to claim a row leaves it out of the queue. -/
theorem not_enqueued_of_claim (h : custody.Follows past m) {now : UInt64}
    {a : Except Failure (Option Row)}
    (hm : m.occurrence = .answers who (.store (.claim id now)) a)
    (hrow : rowAfter id (m :: past) = some row) : row.state ≠ .enqueued := by
  have hsuits := h.suits
  rw [hm] at hsuits
  have ha : a = Except.ok (m.before.stepAt id (.claim now)).1 := congrArg Prod.fst hsuits.2
  have hafter : m.after = (m.before.stepAt id (.claim now)).2 := congrArg Prod.snd hsuits.2
  have hfound : (m.before.find? id).map (RowStep.claim now).after = some row := by
    rw [← TaskTable.find?_stepAt_self, ← hafter]
    exact hrow
  obtain ⟨q, -, rfl⟩ := Option.map_eq_some_iff.1 hfound
  intro hstate
  by_cases hacc : (RowStep.claim now).accepts q = true
  · rw [RowStep.after_of_accepts hacc] at hstate
    cases hstate
  · rw [RowStep.after_of_refuses hacc] at hstate
    exact hacc (by simpa [RowStep.claim] using hstate)

/-- A cycle that has not tried to claim its row still has not, unless it does so now. -/
theorem toClaim_cons (hd : (debts s).Orderly (m :: past)) (hu : Undisturbed s (m :: past) = true)
    (h : ((debts s).stage who past).toClaim = some id) :
    ((debts s).stage who (m :: past)).toClaim = some id
      ∨ ∃ now a, m.occurrence = .answers who (.store (.claim id now)) a := by
  by_cases hwho : m.occurrence.who = who
  · subst hwho
    have hne : (debts s).stage m.occurrence.who past ≠ {} := by
      intro hidle
      rw [hidle] at h
      cases h
    obtain ⟨c, a, hm, hstage⟩ := answers_of_not_idle hd hu hne
    have hsuits := hd.1.suits
    rw [hm] at hsuits
    by_cases hclaim : c.isClaim = true
    · right
      unfold Call.isClaim at hclaim
      split at hclaim
      · next target now =>
        -- a cycle claims no row but its own
        obtain rfl : target = id := Option.some.inj (hsuits.1.symm.trans h)
        exact ⟨now, a, hm⟩
      · cases hclaim
    · left
      rw [hstage]
      show (if c.isClaim then none else _) = some id
      rw [if_neg hclaim]
      exact h
  · rw [Conduct.stage_other hwho]
    exact .inl h

/-! ## The invariant -/

/-- Who owes the opposite of the latest debt for a task has owed it since before that. -/
def Outdated (s : Scheduler) (id : TaskId) (past : List Moment) (l : LatestDebt) : Prop :=
  ∀ who e, Owes s past who id e → e.arms = !l.debt.arms → ∃ take ∈ l.before, take.RunsUp who id

/-- The platform is as the row has it. -/
structure InStep (s : Scheduler) (id : TaskId) (past : List Moment) (row : Row) : Prop where
  queued : row.state = .enqueued →
    armed id past = true ∨ ∃ who, ((debts s).stage who past).toClaim = some id
  closed : row.state.isTerminal = true → armed id past = false

/-- How it stands with the wake-up of a task that has a row. -/
structure Standing (s : Scheduler) (id : TaskId) (past : List Moment) (row : Row)
    (l : LatestDebt) : Prop where
  latest : latestDebt? id past = some l
  outdated : Outdated s id past l
  /-- The latest debt is still owed, or the platform is as it should be but for a crossing. -/
  place : Owes s past l.moment.occurrence.who id l.debt
    ∨ l.Settled id past ∧ (InStep s id past row ∨ Crossed id past)

variable {l : LatestDebt}

theorem LatestDebt.Settled.cons (h : l.Settled id past) : l.Settled id (m :: past) := by
  obtain ⟨command, hmem, hcommand⟩ := h
  exact ⟨command, List.mem_cons_of_mem m hmem, hcommand⟩

theorem Outdated.cons (h : Outdated s id past l)
    (hno : ∀ who e, Owes s (m :: past) who id e → e.arms = !l.debt.arms → Owes s past who id e) :
    Outdated s id (m :: past) l :=
  fun who e howes hagainst => h who e (hno who e howes hagainst) hagainst

/-- The latest debt is in line with the row. -/
theorem row_of_latest (ho : custody.Orderly past) (h : latestDebt? id past = some l) :
    ∃ row, rowAfter id past = some row ∧ row.state.isTerminal = !l.debt.arms := by
  induction past with
  | nil => cases h
  | cons m past ih =>
    cases hdebt : (m.deed id).debt? with
    | some e =>
      rw [latestDebt?_of_debt hdebt] at h
      obtain rfl := Option.some.inj h
      exact row_of_deed ho.1 hdebt
    | none =>
      rw [latestDebt?_of_none hdebt] at h
      obtain ⟨row, hrow, hfits⟩ := ih ho.2 h
      obtain ⟨row', hrow', hsame, -⟩ := (row_of_no_debt ho.1 hdebt).2 row hrow
      exact ⟨row', hrow', hsame.trans hfits⟩

theorem Standing.fits (ho : custody.Orderly past) (hrow : rowAfter id past = some row)
    (h : Standing s id past row l) : row.state.isTerminal = !l.debt.arms := by
  obtain ⟨q, hq, hfits⟩ := row_of_latest ho h.latest
  obtain rfl := Option.some.inj (hrow.symm.trans hq)
  exact hfits

/-- Only a watchdog has to check. -/
theorem latest_ne_check (h : latestDebt? id past = some l) : l.debt ≠ .check := by
  induction past with
  | nil => cases h
  | cons m past ih =>
    cases hdebt : (m.deed id).debt? with
    | some e =>
      rw [latestDebt?_of_debt hdebt] at h
      obtain rfl := Option.some.inj h
      exact debt?_ne_check hdebt
    | none => exact ih ((latestDebt?_of_none hdebt).symm.trans h)

/-- A debt that comes up with a deed is the latest from then on. -/
theorem standing_of_deed (ho : custody.Follows past m) (hu : Undisturbed s (m :: past) = true)
    (he : (m.deed id).debt? = some e) : Standing s id (m :: past) row ⟨m, e, past⟩ := by
  refine ⟨latestDebt?_of_debt he, ?_, .inl (owes_of_debt ((mem_debts m).2 (.inl he)))⟩
  intro who' e' howes hagainst
  rcases owes_cons hu howes with ⟨-, hnew⟩ | ⟨hold, -⟩
  · -- what comes up now is that very debt
    exfalso
    rcases (mem_debts m).1 hnew with he' | ⟨-, hfinds⟩
    · obtain rfl := Option.some.inj (he.symm.trans he')
      exact (Bool.eq_not_self _).1 hagainst
    · rw [(row_of_finds ho hfinds).1] at he
      cases he
  · exact runsUp_of_owes (undisturbed_cons hu).1 hold

/-- The platform is told what is owed. If that is against the row, operations have crossed. -/
theorem standing_of_command (hd : (debts s).Orderly (m :: past)) (hmet : (debts s).Met past)
    (hu : Undisturbed s (m :: past) = true) (hdebt : (m.deed id).debt? = none)
    (hcommand : m.Commands who id arms) (hfits : row'.state.isTerminal = !l.debt.arms)
    (h : Standing s id past row l) : Standing s id (m :: past) row' l := by
  obtain ⟨⟨e, howes, harms⟩, hnone, -⟩ := owes_of_command hd.1 hcommand
  have harmed : armed id (m :: past) = arms := armed_of_command hcommand
  -- a command in line with the latest debt leaves the platform as it should be
  have inStep (hright : arms = l.debt.arms) : InStep s id (m :: past) row' := by
    constructor
    · intro hqueued
      left
      rw [hqueued] at hfits
      rw [harmed, hright, ← Bool.not_not l.debt.arms, ← hfits]
      rfl
    · intro hterminal
      rw [harmed, hright, ← Bool.not_not l.debt.arms, ← hfits, hterminal]
      rfl
  refine ⟨(latestDebt?_of_none hdebt).trans h.latest, h.outdated.cons ?_, ?_⟩
  · intro who' e' h' hagainst
    rcases owes_cons hu h' with ⟨-, hnew⟩ | ⟨hold, -⟩
    · rw [hnone] at hnew
      cases hnew
    · exact hold
  rcases h.place with howes' | ⟨hsettled, -⟩
  · by_cases hwho : l.moment.occurrence.who = who
    · -- the latest debt is settled
      subst hwho
      obtain rfl := owes_unique hd.2 hmet (undisturbed_cons hu).1 howes howes'
      subst harms
      exact .inr ⟨⟨m, List.mem_cons_self, hcommand⟩, .inl (inStep rfl)⟩
    · -- it is not, and may have the last word
      exact .inl (owes_stays hd hu howes' fun hself => hwho (hself.1.symm.trans hcommand.1))
  · refine .inr ⟨hsettled.cons, ?_⟩
    by_cases hright : arms = l.debt.arms
    · exact .inl (inStep hright)
    · have hwrong : arms = !l.debt.arms := Bool.eq_not.2 hright
      have htake := h.outdated who e howes (harms.trans hwrong)
      refine .inr (.inl ⟨l, h.latest, hsettled, ?_, ?_⟩)
      · rwa [hcommand.1]
      · rw [hcommand.1, ← hwrong]
        exact hcommand

/-- Whatever else happens to the task leaves it as it stands, or puts it right. -/
theorem standing_of_rest (ho : custody.Orderly (m :: past)) (hd : (debts s).Orderly (m :: past))
    (hmet : (debts s).Met past) (hu : Undisturbed s (m :: past) = true)
    (hdebt : (m.deed id).debt? = none) (hcommand : ∀ who arms, ¬ m.Commands who id arms)
    (hrow : rowAfter id past = some row) (hrow' : rowAfter id (m :: past) = some row')
    (hsame : row'.state.isTerminal = row.state.isTerminal)
    (hqueued : row'.state = .enqueued → row.state = .enqueued)
    (h : Standing s id past row l) : Standing s id (m :: past) row' l := by
  refine ⟨(latestDebt?_of_none hdebt).trans h.latest, h.outdated.cons ?_, ?_⟩
  · intro who' e' h' hagainst
    rcases owes_cons hu h' with ⟨-, hnew⟩ | ⟨hold, -⟩
    · -- what is new is only to be checked, and that is not against a row in the queue
      exfalso
      rcases (mem_debts m).1 hnew with he' | ⟨rfl, hfinds⟩
      · cases hdebt.symm.trans he'
      · obtain ⟨-, q, hq, hstate⟩ := row_of_finds ho.1 hfinds
        obtain rfl := Option.some.inj (hrow.symm.trans hq)
        rw [← h.fits ho.2 hrow, hstate] at hagainst
        cases hagainst
    · exact hold
  rcases h.place with howes | ⟨hsettled, hplace⟩
  · refine .inl (owes_stays hd hu howes fun hself => ?_)
    have hcheck := check_of_settles hd.1 (fun arms => hcommand _ arms) hself.1 hself.2
    exact latest_ne_check h.latest
      (owes_unique hd.2 hmet (undisturbed_cons hu).1 howes hcheck)
  refine .inr ⟨hsettled.cons, ?_⟩
  by_cases hwakes : ∃ who, m.occurrence = .wakes who id
  · -- the registration is given up, and a cycle begins
    obtain ⟨who, hm⟩ := hwakes
    have hwho : m.occurrence.who = who := congrArg Occurrence.who hm
    subst hwho
    refine .inl ⟨fun _ => .inr ⟨m.occurrence.who, ?_⟩, fun _ => ?_⟩
    · rw [Conduct.stage_self, hm]
      rfl
    · rw [armed, hm]
      exact if_pos rfl
  have hregisters := registers_eq_false.2 ⟨hcommand, hwakes⟩
  have harmed : armed id (m :: past) = armed id past := armed_of_not_registers hregisters
  rcases hplace with hstep | hcrossed
  · refine .inl ⟨fun hstate' => ?_, fun hterminal => ?_⟩
    · rcases hstep.queued (hqueued hstate') with hbefore | ⟨who₂, hclaim⟩
      · exact .inl (harmed.trans hbefore)
      · rcases toClaim_cons hd hu hclaim with hclaim' | ⟨now, a, hm⟩
        · exact .inr ⟨who₂, hclaim'⟩
        · exact absurd hstate' (not_enqueued_of_claim ho.1 hm hrow')
    · exact harmed.trans (hstep.closed (hsame ▸ hterminal))
  · exact .inr (.inr ⟨hdebt, hregisters, hcrossed⟩)

theorem standing_cons (ho : custody.Orderly (m :: past)) (hd : (debts s).Orderly (m :: past))
    (hmet : (debts s).Met past) (hu : Undisturbed s (m :: past) = true)
    (hrow' : rowAfter id (m :: past) = some row')
    (ih : ∀ row, rowAfter id past = some row → ∃ l, Standing s id past row l) :
    ∃ l, Standing s id (m :: past) row' l := by
  cases hdebt : (m.deed id).debt? with
  | some e => exact ⟨⟨m, e, past⟩, standing_of_deed ho.1 hu hdebt⟩
  | none =>
    obtain ⟨hstaysNone, hstays⟩ := row_of_no_debt ho.1 hdebt
    cases hrow : rowAfter id past with
    | none => cases (hstaysNone hrow).symm.trans hrow'
    | some row =>
      obtain ⟨row'', hrow'', hsame, hqueued⟩ := hstays row hrow
      obtain rfl := Option.some.inj (hrow''.symm.trans hrow')
      obtain ⟨l, h⟩ := ih row hrow
      refine ⟨l, ?_⟩
      by_cases hcommand : ∃ who arms, m.Commands who id arms
      · obtain ⟨who, arms, hcommand⟩ := hcommand
        exact standing_of_command hd hmet hu hdebt hcommand (hsame.trans (h.fits ho.2 hrow)) h
      · have hcommand : ∀ who arms, ¬ m.Commands who id arms := by
          intro who arms h
          exact hcommand ⟨who, arms, h⟩
        exact standing_of_rest ho hd hmet hu hdebt hcommand hrow hrow' hsame hqueued h

/-- How it stands with the wake-ups of all tasks that have rows. -/
theorem standing_of_row (ho : custody.Orderly past) (hd : (debts s).Orderly past)
    (hmet : (debts s).Met past) (hu : Undisturbed s past = true)
    (hrow : rowAfter id past = some row) : ∃ l, Standing s id past row l := by
  induction past generalizing row with
  | nil => cases hrow
  | cons m past ih =>
    refine standing_cons ho hd hmet.2 hu hrow fun row hrow => ?_
    exact ih ho.2 hd.2 hmet.2 (undisturbed_cons hu).1 hrow

/-- What is not in the table is not armed. -/
theorem unarmed_of_no_row (ho : custody.Orderly past) (hd : (debts s).Orderly past)
    (hu : Undisturbed s past = true) (hnone : rowAfter id past = none) :
    armed id past = false := by
  induction past with
  | nil => rfl
  | cons m past ih =>
    have hnone' : rowAfter id past = none := by
      cases hrow : rowAfter id past with
      | none => rfl
      | some row =>
        obtain ⟨row', hrow', -⟩ := attempts_mono ho.1 hrow
        cases hrow'.symm.trans hnone
    have hcommand : ∀ who arms, ¬ m.Commands who id arms := by
      intro who arms hcommand
      -- what is commanded is owed, so there is a row
      obtain ⟨⟨e, howes, -⟩, -⟩ := owes_of_command hd.1 hcommand
      obtain ⟨row, hrow⟩ := row_of_owes ho.2 (undisturbed_cons hu).1 howes
      cases hrow.symm.trans hnone'
    rcases armed_of_no_command hcommand with hkeeps | ⟨hfalse, -⟩
    · exact hkeeps.trans (ih ho.2 hd.2 (undisturbed_cons hu).1 hnone')
    · exact hfalse

/-- Where operations have crossed last, the platform has the opposite of the row. -/
theorem Crossed.armed_eq (ho : custody.Orderly past) (h : Crossed id past) :
    ∃ row, rowAfter id past = some row ∧ armed id past = row.state.isTerminal := by
  induction past with
  | nil => cases h
  | cons m past ih =>
    rcases h with ⟨l, hlatest, -, -, hcommand⟩ | ⟨hdebt, hregisters, hcrossed⟩
    · have hdebt : (m.deed id).debt? = none := debt?_of_command hcommand
      obtain ⟨row, hrow, hfits⟩ := row_of_latest ho ((latestDebt?_of_none hdebt).trans hlatest)
      exact ⟨row, hrow, (armed_of_command hcommand).trans hfits.symm⟩
    · obtain ⟨row, hrow, harmed⟩ := ih ho.2 hcrossed
      obtain ⟨row', hrow', hsame, -⟩ := (row_of_no_debt ho.1 hdebt).2 row hrow
      refine ⟨row', hrow', ?_⟩
      rw [armed_of_not_registers hregisters, harmed, hsame]

/-! ## The whole -/

/-- When every operation has come to its end, nothing is running. -/
theorem queued_or_ended (hw : Reachable s w) (hu : Undisturbed s w.past = true)
    (hend : w.AllReturned) (hfound : w.table.find? id = some row) :
    row.state = .enqueued ∨ row.state.isTerminal = true := by
  cases hstate : row.state with
  | enqueued => exact .inl rfl
  | running =>
    -- whoever had claimed the row has handed in its result
    have ho := Conduct.orderly_reachable (custody_governs s) hw (custody_met _)
    obtain ⟨who, q, hstage, -⟩ := owner_of_running ho (steady_of_undisturbed hu) hfound hstate
    rcases Conduct.stage_of_allReturned (custody_governs s) hw (custody_met _) hend who with
      hidle | hfinal
    · cases hidle.symm.trans hstage
    · exact absurd hstage (hfinal q)
  | _ => exact .inr rfl

/--
**When every operation has come to its end, the platform is in step with the row of a task, unless
operations have crossed on that task last.** In step means that the task is armed just if it is
queued. There is no exception but crossing, and no crossing of that kind without harm.
-/
theorem armed_iff_enqueued (hw : Reachable s w) (hu : Undisturbed s w.past = true)
    (hend : w.AllReturned) (id : TaskId) :
    (armed id w.past = true ↔ ∃ row, w.table.find? id = some row ∧ row.state = .enqueued)
      ↔ ¬ Crossed id w.past := by
  have ho := Conduct.orderly_reachable (custody_governs s) hw (custody_met _)
  have hmet := met_of_undisturbed ho hu
  have hd := Conduct.orderly_reachable (debts_govern s) hw hmet
  have hdone (who : Nat) : ((debts s).stage who w.past).Done := by
    rcases Conduct.stage_of_allReturned (debts_govern s) hw hmet hend who with hidle | hfinal
    · rw [hidle]
      exact done_nothing
    · exact hfinal
  constructor
  · intro hiff hcrossed
    obtain ⟨row, hfound, harmed⟩ := hcrossed.armed_eq ho
    rcases queued_or_ended hw hu hend hfound with hqueued | hterminal
    · rw [hqueued] at harmed
      cases harmed.symm.trans (hiff.2 ⟨row, hfound, hqueued⟩)
    · obtain ⟨row', hfound', hqueued⟩ := hiff.1 (harmed.trans hterminal)
      obtain rfl := Option.some.inj (hfound.symm.trans hfound')
      rw [hqueued] at hterminal
      cases hterminal
  · intro hcross
    cases hfound : w.table.find? id with
    | none =>
      rw [unarmed_of_no_row ho hd hu hfound]
      constructor
      · intro harmed
        cases harmed
      · intro hex
        obtain ⟨_, hsome, -⟩ := hex
        cases hsome
    | some row =>
      obtain ⟨l, h⟩ := standing_of_row ho hd hmet hu hfound
      rcases h.place with howes | ⟨-, hstep | hcrossed⟩
      · rw [Owes, (hdone _).2] at howes
        cases howes
      · constructor
        · intro harmed
          rcases queued_or_ended hw hu hend hfound with hqueued | hterminal
          · exact ⟨row, rfl, hqueued⟩
          · cases harmed.symm.trans (hstep.closed hterminal)
        · intro hex
          obtain ⟨row', heq, hstate⟩ := hex
          obtain rfl := Option.some.inj heq
          rcases hstep.queued hstate with harmed | ⟨who, hclaim⟩
          · exact harmed
          · cases (hdone who).1.symm.trans hclaim
      · exact absurd hcrossed hcross

open Rehearsal in
/--
Operations have crossed on the first task, and others overlap on it after that, in the same order at
the store and at the platform. It is armed in the end, though others again have crossed on the
second task, which is left in the queue with nothing to wake it.
-/
theorem armed_iff_enqueued_overlapping :
    Crossed first (scene crossing).past
      ∧ ¬ Crossed first (scene overlapping).past
      ∧ (∃ row, (scene overlapping).table.find? first = some row ∧ row.state = .enqueued)
      ∧ Crossed second (scene overlapping).past
      ∧ ¬ (armed second (scene overlapping).past = true
        ↔ ∃ row, (scene overlapping).table.find? second = some row ∧ row.state = .enqueued) := by
  have hexact := armed_iff_enqueued (reachable_scene overlapping) (by decide +kernel)
    (by decide +kernel)
  have hcross : ¬ Crossed first (scene overlapping).past := by decide +kernel
  have harmed : armed first (scene overlapping).past = true := by decide +kernel
  refine ⟨by decide +kernel, hcross, ((hexact first).2 hcross).1 harmed, by decide +kernel, ?_⟩
  intro hiff
  exact (hexact second).1 hiff (by decide +kernel)

open Rehearsal in
/--
A task that is rescheduled before its cancellation has got to the platform is left in the queue with
nothing to wake it: the cancellation disarms what the new schedule has armed.
-/
theorem crossing_loses_wake_up :
    ¬ ∀ (s : Scheduler) (w : Scene), Reachable s w → Undisturbed s w.past = true → w.AllReturned →
      ∀ id, armed id w.past = true
        ↔ ∃ row, w.table.find? id = some row ∧ row.state = .enqueued := by
  intro h
  have hiff := h scheduler (scene crossing) (reachable_scene crossing) (by decide +kernel)
    (by decide +kernel) first
  have hqueued : ((scene crossing).table.find? first).any (·.state == .enqueued) = true := by
    decide +kernel
  obtain ⟨row, hrow, hstate⟩ := (Option.any_eq_true _ _).1 hqueued
  have hunarmed : armed first (scene crossing).past = false := by decide +kernel
  cases hunarmed.symm.trans (hiff.2 ⟨row, hrow, eq_of_beq hstate⟩)

end BackgroundTasks
