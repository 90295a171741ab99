import BackgroundTasks.Proofs.Fencing

/-!
# Who owns a running row

A running row belongs to the operation whose claim it runs under. There is one such operation at any
time, because the numbers of two claims differ, and because an operation gives its row up only with
a completion, which a row that still runs under the claim accepts.

An operation that has lost its row may still be at work when the next one claims it. That takes two
things in this order: the task was cancelled while it was running, and then it was given a new
schedule.
-/

namespace BackgroundTasks

variable {s : Scheduler} {w : Scene} {past later between earlier : List Moment}
  {m claim : Moment} {who who' : Nat} {id : TaskId} {row row' q : Row}

/-! ## Custody after one moment -/

theorem holding_of_claims (h : m.Claims who row) :
    custody.stage who (m :: past) = .holding row := by
  obtain ⟨id, now, hm⟩ := h
  have hwho : m.occurrence.who = who := congrArg Occurrence.who hm
  subst hwho
  rw [Conduct.stage_self, hm]
  rfl

/-- A claim takes a number that no row in custody has. -/
theorem attempts_lt_of_claims (h : custody.Follows past m)
    (hfit : (tableAfter (m :: past)).CountsFit) (hc : m.Claims who row)
    (hq : rowAfter row.id past = some q) : q.state = .enqueued ∧ q.attempts < row.attempts := by
  obtain ⟨⟨now, hd⟩, hrow⟩ := claims_effect h hc
  have hch := deed_changes h row.id
  rw [hd, hq, hrow] at hch
  obtain ⟨p, hp, hacc, hchange⟩ := hch
  obtain rfl := Option.some.inj hp
  obtain rfl := Option.some.inj hchange
  refine ⟨by simpa [RowStep.claim] using hacc, ?_⟩
  -- the count has room for one more, so it grows
  have hfits := hfit _ (TaskTable.mem_of_find? hrow)
  rw [UInt32.lt_iff_toNat_lt]
  have := toNat_satSucc_of_lt hfits
  show q.attempts.toNat < (satSucc q.attempts).toNat
  omega

/-- A row that was claimed is still there, and its number has not gone back. -/
theorem found_of_claims (ho : custody.Orderly past) (hfit : (tableAfter past).CountsFit)
    (hm : m ∈ past) (hc : m.Claims who row) :
    ∃ q, rowAfter row.id past = some q ∧ row.attempts ≤ q.attempts := by
  obtain ⟨later, earlier, rfl⟩ := List.append_of_mem hm
  obtain ⟨q, hq, hle, -⟩ := runs_iff_throughout ho hfit hc
  exact ⟨q, hq, hle⟩

/-- The number of a claim tells whose it is. -/
theorem claims_apart {m' : Moment} (ho : custody.Orderly past) (hfit : (tableAfter past).CountsFit)
    (hm : m ∈ past) (hm' : m' ∈ past) (hc : m.Claims who row) (hc' : m'.Claims who' row')
    (hid : row.id = row'.id) (hattempts : row.attempts = row'.attempts) : who = who' := by
  induction past with
  | nil => cases hm
  | cons last past ih =>
    have hfit' := countsFit_of_cons ho.1 hfit
    -- whoever claims last gets a larger number than anyone before
    have fresh {who who' : Nat} {row row' : Row} {m' : Moment} (hc : last.Claims who row)
        (hm' : m' ∈ past) (hc' : m'.Claims who' row') (hid : row.id = row'.id) :
        row'.attempts < row.attempts := by
      obtain ⟨q, hq, hle⟩ := found_of_claims ho.2 hfit' hm' hc'
      exact UInt32.lt_of_le_of_lt hle (attempts_lt_of_claims ho.1 hfit hc (hid ▸ hq)).2
    rcases List.mem_cons.1 hm with rfl | hpast <;> rcases List.mem_cons.1 hm' with rfl | hpast'
    · obtain ⟨_, _, hclaim⟩ := hc
      obtain ⟨_, _, hclaim'⟩ := hc'
      exact congrArg Occurrence.who (hclaim.symm.trans hclaim')
    · exact absurd (hattempts ▸ fresh hc hpast' hc' hid) (UInt32.lt_irrefl _)
    · exact absurd (hattempts ▸ fresh hc' hpast hc hid.symm) (UInt32.lt_irrefl _)
    · exact ih ho.2 hfit' hpast hpast'

/-- The row of a claim in custody is there, and its number has not gone back. -/
theorem found_of_holding (ho : custody.Orderly past) (hfit : (tableAfter past).CountsFit)
    (h : custody.stage who past = .holding row) :
    ∃ q, rowAfter row.id past = some q ∧ row.attempts ≤ q.attempts := by
  obtain ⟨between, claim, earlier, rfl, hc, -⟩ := claimed_of_holding ho h
  exact found_of_claims ho hfit (by simp) hc

/-- **No two operations have rows of one task in custody under one number.** -/
theorem holders_apart (ho : custody.Orderly past) (hfit : (tableAfter past).CountsFit)
    (hne : who ≠ who') (h : custody.stage who past = .holding row)
    (h' : custody.stage who' past = .holding row') (hid : row.id = row'.id) :
    row.attempts ≠ row'.attempts := by
  obtain ⟨between, claim, earlier, hpast, hc, -⟩ := claimed_of_holding ho h
  obtain ⟨between', claim', earlier', hpast', hc', -⟩ := claimed_of_holding ho h'
  have hm : claim ∈ past := by simp [hpast]
  have hm' : claim' ∈ past := by simp [hpast']
  exact fun hattempts => hne (claims_apart ho hfit hm hm' hc hc' hid hattempts)

/-! ## Running rows have owners -/

/-- Whether neither a call to the store nor the drawing of a delay goes wrong. -/
def Occurrence.isSteady : Occurrence → Bool
  | fails _ (.store _) _ => false
  | breaksDown _ c => c.isPlatform
  | _ => true

/-- No call to the store goes wrong, and no drawing of a delay. -/
def Steady (past : List Moment) : Prop := ∀ m ∈ past, m.occurrence.isSteady = true

instance (past : List Moment) : Decidable (Steady past) :=
  inferInstanceAs (Decidable (∀ m ∈ past, m.occurrence.isSteady = true))

/-- When all goes well, an operation gives its row up only with a completion. -/
theorem holding_stays (ho : custody.Orderly (m :: past)) (hs : Steady (m :: past))
    (h : custody.stage who past = .holding row) :
    custody.stage who (m :: past) = .holding row
      ∨ ∃ now d a, Concludes row now d
        ∧ m.occurrence
          = .answers who (.store (.complete row.id d.completion (d.entry row now))) a := by
  by_cases hwho : m.occurrence.who = who
  · subst hwho
    have hsuits := ho.1.suits
    have hnumber := ho.1.number
    have hsteady := hs m List.mem_cons_self
    have begun : m.occurrence.who < beginnings past := by
      rcases Nat.lt_or_ge m.occurrence.who (beginnings past) with hlt | hge
      · exact hlt
      · cases (Conduct.stage_of_not_begun ho.2 hge).symm.trans h
    rw [Conduct.stage_self]
    rw [h] at hsuits ⊢
    cases hm : m.occurrence with
    | begins who job => rw [hm] at hnumber begun; exact absurd begun (hnumber ▸ Nat.lt_irrefl _)
    | wakes who id => rw [hm] at hnumber begun; exact absurd begun (hnumber ▸ Nat.lt_irrefl _)
    | breaksDown who c =>
      rw [hm] at hsuits hsteady
      -- only a platform breaks down, and it is not called from here
      cases c with
      | arm | disarm | isArmed => exact absurd rfl (hsuits.1 row)
      | _ => cases hsteady
    | answers who c a =>
      rw [hm] at hsuits
      rcases next_holding hsuits.1 a with hstays | ⟨now, d, hd, rfl⟩
      · exact .inl hstays
      · exact .inr ⟨now, d, a, hd, rfl⟩
    | fails who c a =>
      rw [hm] at hsuits hsteady
      rcases next_holding hsuits.1 a with hstays | ⟨now, d, hd, rfl⟩
      · exact .inl hstays
      · cases hsteady
  · left
    rw [Conduct.stage_other hwho]
    exact h

/-- A row that runs under a claim accepts its completion. -/
theorem not_running_of_completed (h : custody.Follows past m) {now : UInt64} {d : Decision}
    {e : LogEntry} {a : Except Failure Bool} (hd : Concludes row now d)
    (hm : m.occurrence = .answers who (.store (.complete row.id d.completion e)) a)
    (hq : rowAfter row.id past = some q) (hruns : q.Runs row.attempts) :
    a = Except.ok true ∧ ¬ m.after.IsRunning row.id := by
  have hsuits := h.suits
  rw [hm] at hsuits
  have hreturns := hsuits.2
  have hfound : m.before.find? row.id = some q := by rw [h.before]; exact hq
  have hacc : (RowStep.complete d.completion).accepts q = true := by
    rw [RowStep.complete_accepts, hd.claimedAttempt, hruns.1]
    exact ⟨rfl, hruns.2, hd.canBecome⟩
  have ha : a = Except.ok true := by
    have h1 : a = Except.ok (m.before.complete row.id d.completion e).1.1 :=
      congrArg Prod.fst hreturns
    rw [h1, TaskTable.complete_applied, hfound, Option.any_some, hacc]
  refine ⟨ha, ?_⟩
  subst ha
  have hdeed : m.deed row.id = .concluded who d.completion e.kind := by
    rw [Moment.deed, hm]
    exact if_pos rfl
  have hch := deed_changes h row.id
  rw [hdeed, hq] at hch
  obtain ⟨_, hsome, hacc, hafter⟩ := hch
  intro h
  obtain ⟨q', hq', hrunning⟩ := h
  obtain rfl := Option.some.inj (hq'.symm.trans hafter)
  exact RowStep.complete_ends hacc hrunning

/-- **A running row is in the custody of an operation whose claim it runs under.** -/
theorem owner_of_running (ho : custody.Orderly past) (hs : Steady past)
    (hq : rowAfter id past = some q) (hrunning : q.state = .running) :
    ∃ who row, custody.stage who past = .holding row ∧ row.id = id ∧ q.Runs row.attempts := by
  induction past generalizing q with
  | nil => cases hq
  | cons m past ih =>
    have hs' : Steady past := fun m hm => hs m (List.mem_cons_of_mem _ hm)
    have hch := deed_changes ho.1 id
    -- the row ran before, under the same claim, and so its owner has not concluded it
    have ranBefore {p : Row} (hp : rowAfter id past = some p) (hstate : p.state = q.state)
        (hattempts : p.attempts = q.attempts) :
        ∃ who row, custody.stage who (m :: past) = .holding row ∧ row.id = id
          ∧ q.Runs row.attempts := by
      obtain ⟨who, row, hstage, rfl, hruns⟩ := ih ho.2 hs' hp (hstate.trans hrunning)
      refine ⟨who, row, ?_, rfl, hrunning, hattempts ▸ hruns.2⟩
      rcases holding_stays ho hs hstage with hstays | ⟨now, d, a, hd, hm⟩
      · exact hstays
      · exact absurd ⟨q, hq, hrunning⟩ (not_running_of_completed ho.1 hd hm hp hruns).2
    cases hd : m.deed id <;> rw [hd, hq] at hch
    case nothing => exact ranBefore hch.symm rfl rfl
    case inserted =>
      obtain ⟨-, hsome, _, _, _, _, hfresh⟩ := hch
      obtain rfl := Option.some.inj hsome
      rw [hfresh] at hrunning
      cases hrunning
    case claimed who now =>
      obtain ⟨row, hc, rfl, hrow⟩ := claims_of_deed ho.1 hd
      obtain rfl := Option.some.inj (hrow.symm.trans hq)
      exact ⟨who, row, holding_of_claims hc, rfl, hrunning, rfl⟩
    all_goals
      obtain ⟨p, hp, hacc, hchange⟩ := hch
      obtain rfl := Option.some.inj hchange
    case noted => exact ranBefore hp rfl rfl
    case concluded => exact absurd hrunning (RowStep.complete_ends hacc)
    case cancelled | renewed => cases hrunning

/-! ## Losing a row -/

/-- A task is cancelled while it runs under a claim. -/
def Moment.CutsShort (m : Moment) (row : Row) : Prop :=
  (∃ now, m.deed row.id = .cancelled now)
    ∧ ∃ q, m.before.find? row.id = some q ∧ q.Runs row.attempts

/-- A task is given a new schedule. -/
def Moment.Renews (m : Moment) (id : TaskId) : Prop :=
  ∃ spec next now, m.deed id = .renewed spec next now

/--
How far the row of a claim in custody may be from running under it: it still does, or it has been
cancelled since, or it has been cancelled and given a new schedule.
-/
inductive Displaced (row : Row) (past between : List Moment) : Prop where
  | held (q : Row) (found : rowAfter row.id past = some q) (runs : q.Runs row.attempts)
  | cancelled (q : Row) (found : rowAfter row.id past = some q) (ended : q.state = .cancelled)
      (cut : Moment) (among : cut ∈ between) (cutsShort : cut.CutsShort row)
  | renewed (cut renewal : Moment) (order : [renewal, cut].Sublist between)
      (cutsShort : cut.CutsShort row) (renews : renewal.Renews row.id)

theorem displaced_of_holding (ho : custody.Orderly (between ++ claim :: earlier))
    (hfit : (tableAfter (between ++ claim :: earlier)).CountsFit) (hc : claim.Claims who row)
    (hnone : ∀ m ∈ between, ∀ q, ¬ m.Claims who q)
    (h : custody.stage who (between ++ claim :: earlier) = .holding row) :
    Displaced row (between ++ claim :: earlier) between := by
  induction between with
  | nil =>
    obtain ⟨q, hq, -, hiff, -⟩ := @runs_iff_throughout [] _ _ _ _ ho hfit hc
    exact .held q hq (hiff.2 fun _ => by simp)
  | cons m between ih =>
    rw [List.cons_append] at ho hfit h ⊢
    have hfit' := countsFit_of_cons ho.1 hfit
    rcases holding_cons ho.1 h with hc' | ⟨hold, hnot⟩
    · exact absurd hc' (hnone m List.mem_cons_self row)
    have hch := deed_changes ho.1 row.id
    rcases ih ho.2 hfit' (fun m hm => hnone m (List.mem_cons_of_mem _ hm)) hold with
      ⟨q, hq, hruns⟩ | ⟨q, hq, hover, cut, hcut, hshort⟩ | ⟨cut, renewal, hsub, hshort, hrenews⟩
    · -- it is still held: only a cancellation takes it away
      cases hd : m.deed row.id <;> rw [hd, hq] at hch
      case nothing => exact .held q hch hruns
      case inserted => cases hch.1
      case concluded who' c kind =>
        -- the number under which the row runs belongs to this operation alone
        obtain ⟨row', now, d, hstage', hid, hd', rfl, -⟩ := holder_of_concluded ho.1 hd
        obtain ⟨p, hp, hacc, -⟩ := hch
        obtain rfl := Option.some.inj hp
        obtain ⟨-, hattempts, -⟩ := RowStep.complete_accepts.1 hacc
        by_cases hne : who = who'
        · subst hne
          obtain ⟨e, hm, -⟩ := concluded_of_deed hd
          exact absurd hm (hnot _ _ _ _)
        · refine absurd ?_ (holders_apart ho.2 hfit' hne hold hstage' hid.symm)
          rw [← hruns.2, hattempts, hd'.claimedAttempt]
      all_goals
        obtain ⟨p, hp, hacc, hchange⟩ := hch
        obtain rfl := Option.some.inj hp
      case noted => exact .held _ hchange hruns
      case claimed => simp [RowStep.claim, hruns.1] at hacc
      case renewed => simp [RowStep.replace, State.canReschedule, hruns.1] at hacc
      case cancelled now =>
        refine .cancelled _ hchange rfl m List.mem_cons_self ⟨⟨now, hd⟩, q, ?_, hruns⟩
        rw [ho.1.before]
        exact hq
    · -- it is cancelled: only a new schedule brings it back
      have hcut' : cut ∈ m :: between := List.mem_cons_of_mem _ hcut
      cases hd : m.deed row.id <;> rw [hd, hq] at hch
      case nothing => exact .cancelled q hch hover cut hcut' hshort
      case inserted => cases hch.1
      all_goals
        obtain ⟨p, hp, hacc, hchange⟩ := hch
        obtain rfl := Option.some.inj hp
      case noted => exact .cancelled _ hchange hover cut hcut' hshort
      case claimed => simp [RowStep.claim, hover] at hacc
      case concluded => simp [RowStep.complete, hover] at hacc
      case cancelled => simp [RowStep.move, State.cancellable, hover] at hacc
      case renewed spec next now =>
        exact .renewed cut m ((List.singleton_sublist.2 hcut).cons_cons m) hshort
          ⟨spec, next, now, hd⟩
    · exact .renewed cut renewal (hsub.cons m) hshort hrenews

/-- What is in custody was in custody before, or was claimed since. -/
theorem holding_append (ho : custody.Orderly (later ++ past))
    (h : custody.stage who (later ++ past) = .holding row) :
    custody.stage who past = .holding row
      ∨ ∃ l claim r, later = l ++ claim :: r ∧ claim.Claims who row := by
  induction later with
  | nil => exact .inl h
  | cons m later ih =>
    rcases holding_cons ho.1 h with hc | ⟨hold, -⟩
    · exact .inr ⟨[], m, later, rfl, hc⟩
    · rcases ih ho.2 hold with hpast | ⟨l, claim, r, rfl, hc⟩
      · exact .inl hpast
      · exact .inr ⟨m :: l, claim, r, rfl, hc⟩

/--
One operation has claimed a row, the task was cancelled while it ran and given a new schedule, and
then another operation has claimed the row.
-/
def Overtaken (past : List Moment) (who : Nat) (row : Row) (who' : Nat) (row' : Row) : Prop :=
  ∃ claim cut renewal claim', [claim', renewal, cut, claim].Sublist past
    ∧ claim.Claims who row ∧ cut.CutsShort row ∧ renewal.Renews row.id ∧ claim'.Claims who' row'

/-- Of two operations with rows of one task in custody, the older one is overtaken. -/
theorem overtaken_of_holding (ho : custody.Orderly past) (hfit : (tableAfter past).CountsFit)
    (h : custody.stage who past = .holding row) (h' : custody.stage who' past = .holding row')
    (hid : row.id = row'.id) (hlt : row.attempts < row'.attempts) :
    Overtaken past who row who' row' := by
  obtain ⟨later, claim', past', rfl, hc', -⟩ := claimed_of_holding ho h'
  have ho' := ho.of_append
  have hfit' := countsFit_of_append ho hfit
  have hfit'' := countsFit_of_cons ho'.1 hfit'
  -- the younger claim finds the older one made already, for its number is larger
  have hold : custody.stage who past' = .holding row := by
    rcases holding_append ho h with hold | ⟨l, claim, r, rfl, hc⟩
    · rcases holding_cons ho'.1 hold with hc | ⟨hold, -⟩
      · obtain ⟨_, _, hm⟩ := hc
        obtain ⟨_, _, hm'⟩ := hc'
        obtain ⟨-, hcall, ha⟩ := Occurrence.answers.inj (hm.symm.trans hm')
        cases hcall
        cases ha
        exact absurd hlt (UInt32.lt_irrefl _)
      · exact hold
    · -- had the other claim come later, its number would be the larger one
      exfalso
      rw [List.append_assoc, List.cons_append] at ho hfit
      have hoc := ho.of_append
      have hfitc := countsFit_of_append ho hfit
      obtain ⟨q, hq, hle, -⟩ := runs_iff_throughout hoc.2 (countsFit_of_cons hoc.1 hfitc) hc'
      have hgt := (attempts_lt_of_claims hoc.1 hfitc hc (hid ▸ hq)).2
      exact UInt32.lt_irrefl _ (UInt32.lt_trans hlt (UInt32.lt_of_le_of_lt hle hgt))
  obtain ⟨between, claim, earlier, rfl, hc, hnone⟩ := claimed_of_holding ho'.2 hold
  obtain ⟨q, hq, hle⟩ := found_of_holding ho'.2 hfit'' hold
  -- the younger claim finds the row in the queue, so the older one has lost it for good
  have hfree := (attempts_lt_of_claims ho'.1 hfit' hc' (hid ▸ hq)).1
  rcases displaced_of_holding ho'.2 hfit'' hc hnone hold with
    ⟨p, hp, hruns⟩ | ⟨p, hp, hover, -⟩ | ⟨cut, renewal, hsub, hshort, hrenews⟩
  · obtain rfl := Option.some.inj (hq.symm.trans hp)
    cases hfree.symm.trans hruns.1
  · obtain rfl := Option.some.inj (hq.symm.trans hp)
    cases hfree.symm.trans hover
  · refine ⟨claim, cut, renewal, claim', ?_, hc, hshort, hrenews, hc'⟩
    refine List.sublist_append_of_sublist_right (List.Sublist.cons_cons claim' ?_)
    exact hsub.append ((List.nil_sublist earlier).cons_cons claim)

/-! ## The whole -/

/-- An operation has a row in custody. -/
def Scene.InFlight (w : Scene) (who : Nat) (row : Row) : Prop :=
  custody.stage who w.past = .holding row

/-- How running rows and operations in flight belong together. -/
structure WellOwned (w : Scene) : Prop where
  /-- An operation in flight has not come to its end. -/
  live : ∀ who row, w.InFlight who row → ∃ c k, w.activities[who]? = some (.call c k)
  /-- Operations in flight for one task have different numbers. -/
  apart : ∀ who who' row row', who ≠ who' → w.InFlight who row → w.InFlight who' row' →
    row.id = row'.id → row.attempts ≠ row'.attempts
  /-- The number of a running row is that of one operation in flight. -/
  owner : ∀ id q, w.table.find? id = some q → q.state = .running →
    ∃ who, (∃ row, w.InFlight who row ∧ row.id = id ∧ row.attempts = q.attempts)
      ∧ ∀ who', (∃ row, w.InFlight who' row ∧ row.id = id ∧ row.attempts = q.attempts) → who' = who
  /-- When every operation has come to its end, nothing is running. -/
  settled : w.AllReturned → ∀ q ∈ w.table.rows, q.state ≠ .running
  /-- A completion that finds its claim still running is applied. -/
  applied : ∀ later m past who id c e applied, w.past = later ++ m :: past →
    m.occurrence = .answers who (.store (.complete id c e)) (Except.ok applied) →
    (∃ q, m.before.find? id = some q ∧ q.Runs c.claimedAttempt) → applied = true
  /-- Of two operations in flight for one task, one was overtaken by the other. -/
  overlap : ∀ who who' row row', who ≠ who' → w.InFlight who row → w.InFlight who' row' →
    row.id = row'.id →
    Overtaken w.past who row who' row' ∨ Overtaken w.past who' row' who row

/-- **A running row is owned by exactly one operation in flight.** -/
theorem running_rows_owned (hw : Reachable s w) (hfit : w.table.CountsFit) (hs : Steady w.past) :
    WellOwned w := by
  have hmet : custody.Met w.past := custody_met _
  have ho := Conduct.orderly_reachable (custody_governs s) hw hmet
  have hlive (who : Nat) (row : Row) (h : w.InFlight who row) :
      ∃ c k, w.activities[who]? = some (.call c k) := by
    rcases Nat.lt_or_ge who w.activities.length with hlt | hge
    · have hp := List.getElem?_eq_getElem hlt
      have hkeeps := Conduct.keeps_reachable (custody_governs s) hw hmet hp
      rw [h] at hkeeps
      cases hc : w.activities[who] with
      | done u => rw [hc] at hkeeps; exact absurd rfl (hkeeps row)
      | call c k => exact ⟨c, k, hc ▸ hp⟩
    · cases (Conduct.stage_of_not_begun ho (length_activities hw ▸ hge)).symm.trans h
  have hown (id : TaskId) (q : Row) (hq : w.table.find? id = some q)
      (hrunning : q.state = .running) :
      ∃ who row, w.InFlight who row ∧ row.id = id ∧ q.Runs row.attempts :=
    owner_of_running ho hs hq hrunning
  refine ⟨hlive, fun who who' row row' hne h h' hid => holders_apart ho hfit hne h h' hid,
    fun id q hq hrunning => ?_, fun hend q hq hrunning => ?_, ?_,
    fun who who' row row' hne h h' hid => ?_⟩
  · obtain ⟨who, row, hstage, hid, hruns⟩ := hown id q hq hrunning
    refine ⟨who, ⟨row, hstage, hid, hruns.2.symm⟩, ?_⟩
    intro who' h
    obtain ⟨row', hstage', hid', hattempts⟩ := h
    refine Decidable.byContradiction fun hne => ?_
    exact holders_apart ho hfit hne hstage' hstage (hid'.trans hid.symm) (hattempts.trans hruns.2)
  · obtain ⟨who, row, hstage, -⟩ := hown q.id q (TaskTable.find?_of_mem hq) hrunning
    obtain ⟨c, k, hc⟩ := hlive who row hstage
    cases hend _ (List.mem_of_getElem? hc)
  · intro later m past who id c e applied hpast hm h
    obtain ⟨q, hq, hruns⟩ := h
    rw [hpast] at ho
    have hom := ho.of_append.1
    have hsuits := hom.suits
    rw [hm] at hsuits
    obtain ⟨row, now, d, -, hd, rfl, rfl, rfl⟩ := hsuits.1
    rw [hom.before] at hq
    rw [hd.claimedAttempt] at hruns
    exact Except.ok.inj (not_running_of_completed hom hd hm hq hruns).1
  · rcases UInt32.lt_or_lt_of_ne (holders_apart ho hfit hne h h' hid) with hlt | hlt
    · exact .inl (overtaken_of_holding ho hfit h h' hid hlt)
    · exact .inr (overtaken_of_holding ho hfit h' h hid.symm hlt)

open Rehearsal in
/-- Two operations are in flight for one task, and it runs under the claim of the later one. -/
theorem running_rows_owned_overtaking :
    (scene overtaking).table.IsRunning first
      ∧ (∃ row, (scene overtaking).InFlight 1 row ∧ row.id = first ∧ row.attempts = 1)
      ∧ (∃ row, (scene overtaking).InFlight 4 row ∧ row.id = first ∧ row.attempts = 2)
      ∧ WellOwned (scene overtaking) := by
  have inFlight {who : Nat} {attempt : UInt32}
      (h : (match custody.stage who (scene overtaking).past with
        | .holding row => row.id == first && row.attempts == attempt
        | _ => false) = true) :
      ∃ row, (scene overtaking).InFlight who row ∧ row.id = first ∧ row.attempts = attempt := by
    split at h
    · next row hrow =>
      simp only [Bool.and_eq_true, beq_iff_eq] at h
      exact ⟨row, hrow, h.1, h.2⟩
    · cases h
  have hrunning : ((scene overtaking).table.find? first).any (·.state == .running) = true := by
    decide +kernel
  obtain ⟨row, hrow, hstate⟩ := (Option.any_eq_true _ _).1 hrunning
  refine ⟨⟨row, hrow, eq_of_beq hstate⟩, inFlight (by decide +kernel),
    inFlight (by decide +kernel), ?_⟩
  exact running_rows_owned (reachable_scene overtaking) (by decide +kernel) (by decide +kernel)

end BackgroundTasks
