import BackgroundTasks.Proofs.Armed
import BackgroundTasks.Proofs.Debts
import BackgroundTasks.Proofs.Ownership
import Mathlib.Data.List.Nodup

/-!
# Who owes what

Debts come up with the deeds that they are for, and each of them is in line with the row that the
deed leaves. Over a history in undisturbed surroundings they are owed from then on, one for a task
at most by each operation, until the platform is told what is owed.
-/

namespace BackgroundTasks

variable {s : Scheduler} {past : List Moment} {m : Moment} {id : TaskId} {row : Row} {who : Nat}
  {e e' : Debt} {arms : Bool}

namespace Occurrence

/-- The debts that come up. -/
def debts : Occurrence → List (TaskId × Debt)
  | answers _ c a => c.debts a
  | _ => []

/-- Whether the debt for a task is settled. -/
def settles (id : TaskId) : Occurrence → Bool
  | answers _ c a => c.settles a id
  | _ => false

end Occurrence

/-- An operation runs up a debt for a task. -/
def Moment.RunsUp (m : Moment) (who : Nat) (id : TaskId) : Prop :=
  m.occurrence.who = who ∧ ∃ e, (id, e) ∈ m.occurrence.debts

/--
The surroundings do as they should: nothing fails or breaks down, the platform wakes and shows just
the tasks that are armed, payloads can be restored, and nobody runs a cycle without a wake-up.
-/
def Undisturbed (s : Scheduler) : List Moment → Bool
  | [] => true
  | m :: past =>
    (match m.occurrence with
      | .begins _ job => job.seesToWakeUps
      | .wakes _ id => armed id past
      | .answers _ (.isArmed id) (Except.ok shown) => shown == armed id past
      | .answers _ (.store (.claim ..)) (Except.ok (some row)) =>
        (s.registry.instantiate row.spec.payloadTypeId row.spec.payloadData).isOk
      | .answers .. => true
      | .fails .. | .breaksDown .. => false)
    && Undisturbed s past

/-! ## Debts and deeds -/

/-- The debt that a deed brings, if it brings one. -/
def Deed.debt? : Deed → Option Debt
  | .inserted _ | .renewed .. => some .arm
  | .concluded _ c _ => some (if c.state = .enqueued then .arm else .disarm)
  | .cancelled _ => some .disarm
  | .nothing | .claimed .. | .noted _ => none

/-- A task is among the due ones that a watchdog gets. -/
def Moment.Finds (m : Moment) (id : TaskId) : Prop :=
  ∃ who now, ∃ rows : List Row,
    m.occurrence = .answers who (.store (.due now)) (Except.ok rows) ∧ id ∈ rows.map Row.id

theorem debt?_onlyIf {concerns : Prop} [Decidable concerns] {d : Deed} :
    (Deed.onlyIf concerns d).debt? = some e ↔ concerns ∧ d.debt? = some e := by
  unfold Deed.onlyIf
  split <;> simp [*, Deed.debt?]

theorem mem_singleton_debt {target : TaskId} {d : Deed} {e' : Debt} (hd : d.debt? = some e') :
    (id, e) ∈ [(target, e')] ↔ (Deed.onlyIf (target = id) d).debt? = some e := by
  rw [debt?_onlyIf, hd]
  simp [eq_comm]

/-- A call to the store brings the debt of its deed, unless it looks for what is due. -/
theorem mem_debts_store (who : Nat) (c : StoreCall) (result : c.Result)
    (hdue : ∀ now, c ≠ .due now) :
    (id, e) ∈ (Call.store c).debts (Except.ok result)
      ↔ (Occurrence.deed id (.answers who (.store c) (Except.ok result))).debt? = some e := by
  have neither : (id, e) ∈ ([] : List (TaskId × Debt)) ↔ Deed.nothing.debt? = some e := by
    simp [Deed.debt?]
  cases c with
  | insert row => exact mem_singleton_debt rfl
  | due now => exact absurd rfl (hdue now)
  | get | list | appendLog | logs | lastLog => exact neither
  | setPlatformId target handle =>
    refine neither.trans ?_
    show _ ↔ (Deed.onlyIf (target = id) (.noted handle)).debt? = some e
    rw [debt?_onlyIf]
    simp [Deed.debt?]
  | claim target now =>
    cases result with
    | none => exact neither
    | some row =>
      refine neither.trans ?_
      show _ ↔ (Deed.onlyIf (target = id) (.claimed who now)).debt? = some e
      rw [debt?_onlyIf]
      simp [Deed.debt?]
  | complete target c entry =>
    cases result with
    | false => exact neither
    | true => exact mem_singleton_debt rfl
  | replaceSpec target spec next now =>
    cases result with
    | notFound | running => exact neither
    | replaced => exact mem_singleton_debt rfl
  | transition target origins goal now =>
    show (id, e) ∈ (if result = 0 then _ else _)
      ↔ (Deed.onlyIf (target = id ∧ result ≠ 0) (.cancelled now)).debt? = some e
    rw [debt?_onlyIf]
    split <;> simp_all [Deed.debt?, eq_comm]
  | transitionAll origins goal now =>
    show (id, e) ∈ result.map _ ↔ (Deed.onlyIf (id ∈ result) (.cancelled now)).debt? = some e
    rw [debt?_onlyIf, List.mem_map]
    constructor
    · intro h
      obtain ⟨_, hmem, heq⟩ := h
      obtain ⟨rfl, rfl⟩ := Prod.mk.inj heq
      exact ⟨hmem, rfl⟩
    · intro h
      obtain ⟨hmem, hd⟩ := h
      obtain rfl := Option.some.inj hd
      exact ⟨id, hmem, rfl⟩

/-- To look for what is due brings a debt for each row that is found. -/
theorem mem_debts_due (now : UInt64) {rows : List Row} :
    (id, e) ∈ (Call.store (.due now)).debts (Except.ok rows)
      ↔ e = .check ∧ id ∈ rows.map Row.id := by
  show (id, e) ∈ rows.map (fun row => (row.id, Debt.check)) ↔ _
  rw [List.mem_map, List.mem_map]
  constructor
  · intro h
    obtain ⟨row, hrow, heq⟩ := h
    obtain ⟨rfl, rfl⟩ := Prod.mk.inj heq
    exact ⟨rfl, row, hrow, rfl⟩
  · intro h
    obtain ⟨rfl, row, hrow, rfl⟩ := h
    exact ⟨row, hrow, rfl⟩

/-- Debts come with deeds, and from looking for what is due. -/
theorem mem_debts (m : Moment) :
    (id, e) ∈ m.occurrence.debts ↔ (m.deed id).debt? = some e ∨ e = .check ∧ m.Finds id := by
  unfold Moment.deed Moment.Finds
  by_cases hdue : ∃ who now, ∃ rows : List Row,
      m.occurrence = .answers who (.store (.due now)) (Except.ok rows)
  · obtain ⟨who, now, rows, hm⟩ := hdue
    rw [hm]
    refine (mem_debts_due now).trans ?_
    constructor
    · intro h
      exact .inr ⟨h.1, who, now, rows, rfl, h.2⟩
    · intro h
      -- to look for what is due is no deed
      rcases h with hd | ⟨rfl, _, _, rows', heq, hid⟩
      · cases hd
      · cases heq
        exact ⟨rfl, hid⟩
  · have hfinds : ¬ (e = .check ∧ ∃ who now, ∃ rows : List Row,
        m.occurrence = .answers who (.store (.due now)) (Except.ok rows)
          ∧ id ∈ rows.map Row.id) := by
      intro h
      obtain ⟨-, who, now, rows, hm, -⟩ := h
      exact hdue ⟨who, now, rows, hm⟩
    rw [or_iff_left hfinds]
    cases hm : m.occurrence with
    | begins | wakes | fails | breaksDown => simp [Occurrence.debts, Occurrence.deed, Deed.debt?]
    | answers who c a =>
      cases c with
      | store c =>
        cases a with
        | error f => cases c <;> simp [Occurrence.debts, Call.debts, Occurrence.deed, Deed.debt?]
        | ok result =>
          refine mem_debts_store who c result fun now hc => hdue ?_
          subst hc
          exact ⟨who, now, result, hm⟩
      | _ => simp [Occurrence.debts, Call.debts, Occurrence.deed, Deed.debt?]

/-- A task that a watchdog finds is in the queue, and is left as it is. -/
theorem row_of_finds (h : custody.Follows past m) (hfinds : m.Finds id) :
    m.deed id = .nothing ∧ ∃ row, rowAfter id past = some row ∧ row.state = .enqueued := by
  obtain ⟨who, now, rows, hm, hid⟩ := hfinds
  have hsuits := h.suits
  rw [hm] at hsuits
  have hrows : rows = m.before.due now := Except.ok.inj (congrArg Prod.fst hsuits.2)
  obtain ⟨row, hrow, rfl⟩ := List.mem_map.1 hid
  subst hrows
  obtain ⟨hfound, hstate⟩ := TaskTable.mem_due hrow
  refine ⟨by rw [Moment.deed, hm]; rfl, row, ?_, hstate⟩
  rw [h.before] at hfound
  exact hfound

/-- The debt that a deed brings is in line with the row that it leaves. -/
theorem row_of_deed (h : custody.Follows past m) (he : (m.deed id).debt? = some e) :
    ∃ row, rowAfter id (m :: past) = some row ∧ row.state.isTerminal = !e.arms := by
  have hch := deed_changes h id
  cases hd : m.deed id <;> rw [hd] at hch he
  case nothing | claimed | noted => cases he
  case inserted =>
    obtain ⟨-, hrow, _, _, _, _, rfl⟩ := hch
    obtain rfl := Option.some.inj he
    exact ⟨_, hrow, rfl⟩
  all_goals
    obtain ⟨q, -, hacc, hrow⟩ := hch
    obtain rfl := Option.some.inj he
    refine ⟨_, hrow, ?_⟩
  case cancelled | renewed => rfl
  case concluded who c kind =>
    -- a running row goes to the queue or comes to its end
    obtain ⟨hstate, -, hbecomes⟩ := RowStep.complete_accepts.1 hacc
    rw [hstate] at hbecomes
    show c.state.isTerminal = _
    cases hc : c.state <;> rw [hc] at hbecomes <;> first | rfl | cases hbecomes

/-- Where no debt comes up, a row stays open or closed, and does not come into the queue. -/
theorem row_of_no_debt (h : custody.Follows past m) (hno : (m.deed id).debt? = none) :
    (rowAfter id past = none → rowAfter id (m :: past) = none)
      ∧ ∀ row, rowAfter id past = some row → ∃ row', rowAfter id (m :: past) = some row'
        ∧ row'.state.isTerminal = row.state.isTerminal
        ∧ (row'.state = .enqueued → row.state = .enqueued) := by
  have hch := deed_changes h id
  cases hd : m.deed id <;> rw [hd] at hch hno
  case nothing =>
    exact ⟨fun hnone => hch.trans hnone, fun row hrow => ⟨row, hch.trans hrow, rfl, fun h => h⟩⟩
  case inserted | concluded | cancelled | renewed => cases hno
  all_goals
    obtain ⟨q, hq, hacc, hrow⟩ := hch
    refine ⟨fun hnone => (by cases hq.symm.trans hnone), fun row hrow' => ?_⟩
    obtain rfl := Option.some.inj (hq.symm.trans hrow')
    refine ⟨_, hrow, ?_⟩
  case noted => exact ⟨rfl, fun h => h⟩
  case claimed =>
    -- from the queue to running: open before and after
    have hqueued : q.state = .enqueued := by simpa [RowStep.claim] using hacc
    refine ⟨by rw [hqueued]; rfl, ?_⟩
    intro hrunning
    cases hrunning

/-! ## What is owed -/

/-- An operation owes the platform something for a task. -/
def Owes (s : Scheduler) (past : List Moment) (who : Nat) (id : TaskId) (e : Debt) : Prop :=
  (id, e) ∈ ((debts s).stage who past).owed

theorem undisturbed_cons (hu : Undisturbed s (m :: past) = true) :
    Undisturbed s past = true ∧ (∀ who c a, m.occurrence ≠ .fails who c a)
      ∧ ∀ who c, m.occurrence ≠ .breaksDown who c := by
  unfold Undisturbed at hu
  obtain ⟨hm, hpast⟩ := Bool.and_eq_true_iff.1 hu
  refine ⟨hpast, ?_, ?_⟩
  · intro who c a heq
    rw [heq] at hm
    cases hm
  · intro who c heq
    rw [heq] at hm
    cases hm

theorem steady_of_undisturbed (hu : Undisturbed s past = true) : Steady past := by
  induction past with
  | nil => exact List.forall_mem_nil _
  | cons m past ih =>
    obtain ⟨hpast, hfails, hbreaks⟩ := undisturbed_cons hu
    refine List.forall_mem_cons.2 ⟨?_, ih hpast⟩
    cases hm : m.occurrence with
    | fails who c a => exact absurd hm (hfails who c a)
    | breaksDown who c => exact absurd hm (hbreaks who c)
    | _ => rfl

/-- What is owed has just come up, or was owed before and is not settled now. -/
theorem owes_cons (hu : Undisturbed s (m :: past) = true) (h : Owes s (m :: past) who id e) :
    m.occurrence.who = who ∧ (id, e) ∈ m.occurrence.debts
      ∨ Owes s past who id e ∧ ¬ (m.occurrence.who = who ∧ m.occurrence.settles id = true) := by
  unfold Owes at h
  by_cases hwho : m.occurrence.who = who
  · subst hwho
    obtain ⟨-, hfails, hbreaks⟩ := undisturbed_cons hu
    rw [Conduct.stage_self] at h
    cases hm : m.occurrence with
    -- who has just begun owes nothing
    | begins who job =>
      rw [hm] at h
      cases job <;> cases h
    | wakes who target => rw [hm] at h; cases h
    | fails who c a => exact absurd hm (hfails who c a)
    | breaksDown who c => exact absurd hm (hbreaks who c)
    | answers who c a =>
      rw [hm] at h
      rcases List.mem_append.1 h with hnew | hold
      · exact .inl ⟨rfl, hnew⟩
      · obtain ⟨hold, hkept⟩ := List.mem_filter.1 hold
        refine .inr ⟨hold, fun hsettled => ?_⟩
        have hsettled : c.settles a id = true := hsettled.2
        rw [hsettled] at hkept
        cases hkept
  · rw [Conduct.stage_other hwho] at h
    exact .inr ⟨h, fun hself => hwho hself.1⟩

/-- What comes up is owed. -/
theorem owes_of_debt (h : (id, e) ∈ m.occurrence.debts) :
    Owes s (m :: past) m.occurrence.who id e := by
  unfold Owes
  rw [Conduct.stage_self]
  cases hm : m.occurrence with
  | answers who c a =>
    rw [hm] at h
    exact List.mem_append_left _ h
  | _ => rw [hm] at h; cases h

/-- What happens to an operation under way in undisturbed surroundings is that it gets an answer. -/
theorem answers_of_not_idle (hd : (debts s).Orderly (m :: past))
    (hu : Undisturbed s (m :: past) = true)
    (hne : (debts s).stage m.occurrence.who past ≠ {}) :
    ∃ c a, m.occurrence = .answers m.occurrence.who c a
      ∧ (debts s).stage m.occurrence.who (m :: past)
        = ((debts s).stage m.occurrence.who past).next c a := by
  obtain ⟨-, hfails, hbreaks⟩ := undisturbed_cons hu
  have hnumber := hd.1.number
  rw [Conduct.stage_self]
  cases hm : m.occurrence with
  | begins who job =>
    rw [hm] at hnumber hne
    exact absurd (Conduct.stage_of_not_begun hd.2 (Nat.le_of_eq hnumber.symm)) hne
  | wakes who target =>
    rw [hm] at hnumber hne
    exact absurd (Conduct.stage_of_not_begun hd.2 (Nat.le_of_eq hnumber.symm)) hne
  | fails who c a => exact absurd hm (hfails who c a)
  | breaksDown who c => exact absurd hm (hbreaks who c)
  | answers who c a => exact ⟨c, a, rfl, rfl⟩

/-- What is owed stays so until it is settled. -/
theorem owes_stays (hd : (debts s).Orderly (m :: past)) (hu : Undisturbed s (m :: past) = true)
    (h : Owes s past who id e)
    (hno : ¬ (m.occurrence.who = who ∧ m.occurrence.settles id = true)) :
    Owes s (m :: past) who id e := by
  unfold Owes at h ⊢
  by_cases hwho : m.occurrence.who = who
  · subst hwho
    have hne : (debts s).stage m.occurrence.who past ≠ {} := by
      intro hidle
      rw [hidle] at h
      cases h
    obtain ⟨c, a, hm, hstage⟩ := answers_of_not_idle hd hu hne
    have hkept : ¬ c.settles a id = true := by
      intro hsettles
      refine hno ⟨rfl, ?_⟩
      rw [hm]
      exact hsettles
    rw [hstage]
    exact List.mem_append_right _ (List.mem_filter.2 ⟨h, by simpa using hkept⟩)
  · rw [Conduct.stage_other hwho]
    exact h

theorem runsUp_of_owes (hu : Undisturbed s past = true) (h : Owes s past who id e) :
    ∃ take ∈ past, take.RunsUp who id := by
  induction past with
  | nil => cases h
  | cons m past ih =>
    rcases owes_cons hu h with ⟨hwho, hnew⟩ | ⟨hold, -⟩
    · exact ⟨m, List.mem_cons_self, hwho, e, hnew⟩
    · obtain ⟨take, htake, htakes⟩ := ih (undisturbed_cons hu).1 hold
      exact ⟨take, List.mem_cons_of_mem _ htake, htakes⟩

/-- Debts are owed for rows that are there. -/
theorem row_of_owes (ho : custody.Orderly past) (hu : Undisturbed s past = true)
    (h : Owes s past who id e) : ∃ row, rowAfter id past = some row := by
  induction past with
  | nil => cases h
  | cons m past ih =>
    rcases owes_cons hu h with ⟨-, hnew⟩ | ⟨hold, -⟩
    · rcases (mem_debts m).1 hnew with hdeed | ⟨-, hfinds⟩
      · obtain ⟨row, hrow, -⟩ := row_of_deed ho.1 hdeed
        exact ⟨row, hrow⟩
      · obtain ⟨-, row, hrow, -⟩ := row_of_finds ho.1 hfinds
        obtain ⟨row', hrow', -⟩ := attempts_mono ho.1 hrow
        exact ⟨row', hrow'⟩
    · obtain ⟨row, hrow⟩ := ih ho.2 (undisturbed_cons hu).1 hold
      obtain ⟨row', hrow', -⟩ := attempts_mono ho.1 hrow
      exact ⟨row', hrow'⟩

/-- In undisturbed surroundings every answer is one that may be counted on. -/
theorem met_of_undisturbed (ho : custody.Orderly past) (hu : Undisturbed s past = true) :
    (debts s).Met past := by
  induction past with
  | nil => trivial
  | cons m past ih =>
    obtain ⟨hpast, hfails, hbreaks⟩ := undisturbed_cons hu
    refine ⟨?_, ih ho.2 hpast⟩
    obtain ⟨hjob, -⟩ := Bool.and_eq_true_iff.1 hu
    have hsuits := ho.1.suits
    cases hm : m.occurrence with
    | begins who job =>
      rw [hm] at hjob
      exact hjob
    | wakes who target => exact rfl
    | fails who c a => exact absurd hm (hfails who c a)
    | breaksDown who c => exact absurd hm (hbreaks who c)
    | answers who c a =>
      rw [hm] at hsuits hjob
      obtain ⟨-, hreturns⟩ := hsuits
      cases c with
      | arm | isArmed =>
        obtain ⟨⟨_, rfl⟩, -⟩ := hreturns
        trivial
      | disarm =>
        obtain ⟨rfl, -⟩ := hreturns
        trivial
      | store c =>
        have ha : a = (m.before.answer c).1 := congrArg Prod.fst hreturns
        cases c with
        | get target =>
          subst ha
          -- what is owed is owed for a row, and rows do not get lost
          refine ⟨fun row hrow => TaskTable.id_of_find? hrow, fun howed => ?_⟩
          obtain ⟨row, hrow⟩ := row_of_owes ho.2 hpast howed
          rw [ho.1.before]
          exact Option.isSome_iff_exists.2 ⟨row, hrow⟩
        | claim target now =>
          rcases a with f | _ | row
          · trivial
          · trivial
          · have hrow : (m.before.stepAt target (.claim now)).1 = some row :=
              (Except.ok.inj ha).symm
            exact ⟨TaskTable.id_of_find? (TaskTable.stepAt_taken hrow).2, hjob⟩
        | transitionAll origins goal now =>
          subst ha
          exact TaskTable.nodup_stepAll _ _
        | due now =>
          subst ha
          exact TaskTable.nodup_due _ _
        | _ => trivial
      | _ => trivial

/-- Debts are only taken on by who has none, and at most one for each task. -/
theorem nodup_next {g : Debts} {c : Call} {a : c.Answer} (hallows : (debts s).allows g c)
    (hexpects : (debts s).expects g c a) (hnd : (g.owed.map Prod.fst).Nodup) :
    (((debts s).next g c a).owed.map Prod.fst).Nodup := by
  -- either nothing comes up, or nothing was owed
  have kept (hnone : c.debts a = []) : (((debts s).next g c a).owed.map Prod.fst).Nodup := by
    show ((c.debts a ++ g.owed.filter _).map Prod.fst).Nodup
    rw [hnone]
    exact (List.filter_sublist.map Prod.fst).nodup hnd
  have fresh (howed : g.owed = []) (hnew : ((c.debts a).map Prod.fst).Nodup) :
      (((debts s).next g c a).owed.map Prod.fst).Nodup := by
    show ((c.debts a ++ g.owed.filter _).map Prod.fst).Nodup
    rw [howed, List.filter_nil, List.append_nil]
    exact hnew
  cases c with
  | store c =>
    rcases a with f | a
    · exact kept (by cases c <;> rfl)
    · cases c with
      | insert row => exact fresh hallows (by simp [Call.debts])
      | complete id c e =>
        cases a with
        | false => exact kept rfl
        | true => exact fresh hallows (by simp [Call.debts])
      | replaceSpec id spec next now =>
        cases a with
        | replaced => exact fresh hallows (by simp [Call.debts])
        | notFound | running => exact kept rfl
      | transition id origins goal now =>
        refine fresh hallows ?_
        show (List.map Prod.fst (if a = 0 then [] else [(id, Debt.disarm)])).Nodup
        split <;> simp
      | transitionAll origins goal now =>
        refine fresh hallows ?_
        show ((a.map _).map Prod.fst).Nodup
        rw [List.map_map]
        exact (List.map_id' a).symm ▸ hexpects
      | due now =>
        refine fresh hallows ?_
        show ((a.map _).map Prod.fst).Nodup
        rw [List.map_map]
        exact hexpects
      | _ => exact kept rfl
  | _ => exact kept rfl

/-- An operation owes one debt for a task at most. -/
theorem nodup_owed (hd : (debts s).Orderly past) (hmet : (debts s).Met past)
    (hu : Undisturbed s past = true) (who : Nat) :
    (((debts s).stage who past).owed.map Prod.fst).Nodup := by
  induction past with
  | nil => exact List.nodup_nil
  | cons m past ih =>
    have ih := ih hd.2 hmet.2 (undisturbed_cons hu).1
    by_cases hwho : m.occurrence.who = who
    · subst hwho
      obtain ⟨-, hfails, hbreaks⟩ := undisturbed_cons hu
      have hallows := hd.1.suits
      have hexpects := hmet.1
      rw [Conduct.stage_self]
      generalize (debts s).stage m.occurrence.who past = g at *
      cases hm : m.occurrence with
      | begins who job => cases job <;> exact List.nodup_nil
      | wakes who target => exact List.nodup_nil
      | fails who c a => exact absurd hm (hfails who c a)
      | breaksDown who c => exact absurd hm (hbreaks who c)
      | answers who c a =>
        rw [hm] at hallows hexpects
        exact nodup_next hallows.1 hexpects ih
    · rw [Conduct.stage_other hwho]
      exact ih

theorem owes_unique (hd : (debts s).Orderly past) (hmet : (debts s).Met past)
    (hu : Undisturbed s past = true) (h : Owes s past who id e) (h' : Owes s past who id e') :
    e = e' :=
  congrArg Prod.snd (List.inj_on_of_nodup_map (nodup_owed hd hmet hu who) h h' rfl)

/-! ## Commands -/

/-- The platform is told what is owed, and then it is owed no more. -/
theorem owes_of_command (hd : (debts s).Follows past m) (h : m.Commands who id arms) :
    (∃ e, Owes s past who id e ∧ e.arms = arms) ∧ m.occurrence.debts = []
      ∧ m.occurrence.settles id = true := by
  have hsuits := hd.suits
  rcases call_of_command h with ⟨delay, conditions, handle, rfl, hm⟩ | ⟨rfl, hm⟩
  · rw [hm] at hsuits ⊢
    refine ⟨?_, rfl, beq_self_eq_true id⟩
    rcases hsuits.1 with howed | howed
    · exact ⟨.arm, howed, rfl⟩
    · exact ⟨.check, howed, rfl⟩
  · rw [hm] at hsuits ⊢
    exact ⟨⟨.disarm, hsuits.1, rfl⟩, rfl, beq_self_eq_true id⟩

/-- What is settled without a command was only to be checked. -/
theorem check_of_settles (hd : (debts s).Follows past m) (h : ∀ arms, ¬ m.Commands who id arms)
    (hwho : m.occurrence.who = who) (hs : m.occurrence.settles id = true) :
    Owes s past who id .check := by
  have hsuits := hd.suits
  subst hwho
  cases hm : m.occurrence with
  | answers who c a =>
    rw [hm] at hs hsuits
    cases c with
    | isArmed target =>
      rcases a with f | shown
      · cases hs
      · obtain ⟨-, heq⟩ := Bool.and_eq_true_iff.1 hs
        obtain rfl : target = id := eq_of_beq heq
        exact hsuits.1
    | arm target delay conditions =>
      rcases a with f | handle
      · cases hs
      · obtain rfl : target = id := eq_of_beq hs
        refine absurd ⟨rfl, ?_⟩ (h true)
        rw [hm]
        rfl
    | disarm target =>
      rcases a with f | handle
      · cases hs
      · obtain rfl : target = id := eq_of_beq hs
        refine absurd ⟨rfl, ?_⟩ (h false)
        rw [hm]
        rfl
    | _ => cases hs
  | _ => rw [hm] at hs; cases hs

end BackgroundTasks
