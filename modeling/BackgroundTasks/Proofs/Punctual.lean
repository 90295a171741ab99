import BackgroundTasks.Proofs.Armed
import BackgroundTasks.Proofs.Deeds
import BackgroundTasks.Proofs.Timing

/-!
# Punctual cycles

A claim looks at the state of a row and not at its time. That cycles do not begin early is up to the
wake-ups: each is armed for a run that its operation was told of, and does not fire before that run
has come. So a claim is early only if the next run of the row has been changed since the operation
was told of it. That can happen: a wake-up that has fired cannot be taken back, and neither can a
call to arm a task that is already on its way.

Moments are told apart by how many there were before them, and the clock shows a time at each.
-/

namespace BackgroundTasks

open Conduct

variable {s : Scheduler} {w : Scene} {past : List Moment} {m : Moment} {id : TaskId} {who : Nat}
  {next time : UInt64} {t t' : TaskTable} {o : Occurrence} {g : Told} {q : Row}

/-! ## What an operation has been told -/

/-- The next runs that an operation is told of. -/
def Occurrence.runs : Occurrence → List (TaskId × UInt64)
  | answers _ c a => c.runs a
  | _ => []

theorem runs_of_fails {c : Call} {a : c.Answer} (h : c.Fails a) : c.runs a = [] := by
  cases c with
  | store c =>
    obtain ⟨failure, rfl⟩ := h
    cases c <;> rfl
  | _ => rfl

theorem mem_runs_lead (hsuits : timing.Suits g t t' o) (h : (id, next) ∈ (timing.lead g o).runs) :
    (id, next) ∈ g.runs ∨ (id, next) ∈ o.runs := by
  cases o with
  | begins who job => cases job <;> cases h
  | wakes => cases h
  | breaksDown => cases h
  | answers who c a => exact (List.mem_append.1 h).symm
  | fails who c a =>
    have hnone := runs_of_fails hsuits.2.1
    rcases List.mem_append.1 h with hnew | hold
    · rw [hnone] at hnew
      cases hnew
    · exact .inl hold

theorem mem_times_lead (hsuits : timing.Suits g t t' o) (h : time ∈ (timing.lead g o).times) :
    time ∈ g.times ∨ o = .answers o.who .now time := by
  cases o with
  | begins who job => cases job <;> cases h
  | wakes => cases h
  | breaksDown => cases h
  | answers who c a =>
    rcases List.mem_append.1 h with hnew | hold
    · cases c with
      | now =>
        obtain rfl := List.mem_singleton.1 hnew
        exact .inr rfl
      | _ => cases hnew
    · exact .inl hold
  | fails who c a =>
    rcases List.mem_append.1 h with hnew | hold
    · cases c with
      | now => exact hsuits.2.1.elim
      | _ => cases hnew
    · exact .inl hold

theorem cycle_lead (h : (timing.lead g o).cycle = some id) :
    g.cycle = some id ∨ o = .begins o.who (.dispatch id) ∨ o = .begins o.who (.execute id) ∨
      o = .wakes o.who id := by
  cases o with
  | begins who job =>
    cases job with
    | dispatch id' =>
      obtain rfl : id' = id := Option.some.inj h
      exact .inr (.inl rfl)
    | execute id' =>
      obtain rfl : id' = id := Option.some.inj h
      exact .inr (.inr (.inl rfl))
    | _ => cases h
  | wakes who id' =>
    obtain rfl : id' = id := Option.some.inj h
    exact .inr (.inr (.inr rfl))
  | breaksDown => cases h
  | answers | fails => exact .inl h

/-- What an operation knows goes back to a moment at which it was told. -/
theorem told_of_stage {P : Told → Prop} {Q : Moment → Prop} (hidle : ¬ P timing.idle)
    (hlead : ∀ m past, timing.Follows past m →
      P (timing.lead (timing.stage m.occurrence.who past) m.occurrence) →
      P (timing.stage m.occurrence.who past) ∨ Q m)
    (ho : timing.Orderly past) (h : P (timing.stage who past)) :
    ∃ m earlier, m :: earlier <:+ past ∧ m.occurrence.who = who ∧ Q m := by
  induction past with
  | nil => exact absurd h hidle
  | cons m past ih =>
    have earlier (hold : P (timing.stage who past)) :
        ∃ m' earlier, m' :: earlier <:+ m :: past ∧ m'.occurrence.who = who ∧ Q m' := by
      obtain ⟨m', earlier, hsuffix, hwho, hq⟩ := ih ho.2 hold
      exact ⟨m', earlier, hsuffix.trans (List.suffix_cons m past), hwho, hq⟩
    by_cases hwho : m.occurrence.who = who
    · -- the latest thing to happen to the operation told it, or it knew before
      subst hwho
      rw [stage_self] at h
      rcases hlead m past ho.1 h with hold | hq
      · exact earlier hold
      · exact ⟨m, past, List.suffix_refl _, rfl, hq⟩
    · rw [stage_other hwho] at h
      exact earlier h

/-! ## The next run of a row -/

/-- The next run that a deed sets for a row that is there. -/
def Deed.nextRun? : Deed → Option UInt64
  | renewed _ next _ => some next
  | concluded _ c _ => c.nextRunMs
  | _ => none

/-- A row stays, and its next run is as it was, but for a deed that sets it. -/
theorem nextRun_cons (h : custody.Follows past m) (hq : rowAfter id past = some q) :
    ∃ q', rowAfter id (m :: past) = some q'
      ∧ q'.nextRunMs = (m.deed id).nextRun?.getD q.nextRunMs := by
  have hch := deed_changes h id
  rw [hq] at hch
  cases hd : m.deed id <;> rw [hd] at hch
  case nothing => exact ⟨q, hch, rfl⟩
  case inserted => cases hch.1
  all_goals
    obtain ⟨_, hsome, -, hq'⟩ := hch
    obtain rfl := Option.some.inj hsome
    exact ⟨_, hq', rfl⟩

theorem nextRun_append {between : List Moment} (ho : custody.Orderly (between ++ past))
    (hq : rowAfter id past = some q) :
    ∃ q', rowAfter id (between ++ past) = some q'
      ∧ (q'.nextRunMs = q.nextRunMs
        ∨ ∃ b ∈ between, (b.deed id).nextRun? = some q'.nextRunMs) := by
  induction between with
  | nil => exact ⟨q, hq, .inl rfl⟩
  | cons b between ih =>
    obtain ⟨p, hp, hrun⟩ := ih ho.2
    obtain ⟨q', hq', hrun'⟩ := nextRun_cons ho.1 hp
    refine ⟨q', hq', ?_⟩
    -- the latest deed that sets the next run is the one that counts
    cases hd : (b.deed id).nextRun? with
    | some next =>
      rw [hd] at hrun'
      exact .inr ⟨b, List.mem_cons_self, hd.trans (congrArg some hrun'.symm)⟩
    | none =>
      rw [hd] at hrun'
      rw [show q'.nextRunMs = p.nextRunMs from hrun']
      exact hrun.imp_right fun ⟨b', hb', hset⟩ => ⟨b', List.mem_cons_of_mem _ hb', hset⟩

/-- What an operation is told of a run is true when it is told. -/
theorem row_of_runs (hm : timing.Follows past m) (h : (id, next) ∈ m.occurrence.runs) :
    ∃ q, rowAfter id (m :: past) = some q ∧ q.nextRunMs = next := by
  have hsuits := hm.suits
  unfold Occurrence.runs at h
  split at h
  · next who c a heq =>
    rw [heq] at hsuits
    obtain ⟨-, hreturns⟩ := hsuits
    unfold Call.runs at h
    split at h
    · next row _ =>
      obtain ⟨rfl, rfl⟩ := Prod.mk.inj (List.mem_singleton.1 h)
      have hreturns : (Except.ok _, m.after) = m.before.answer (.insert row) := hreturns
      unfold TaskTable.answer at hreturns
      dsimp only at hreturns
      split at hreturns
      · next t hinsert =>
        obtain ⟨-, hfind, -⟩ := TaskTable.find?_insert? hinsert
        obtain rfl : m.after = t := congrArg Prod.snd hreturns
        exact ⟨row, hfind, rfl⟩
      · cases congrArg Prod.fst hreturns
    · next id' row =>
      obtain ⟨rfl, rfl⟩ := Prod.mk.inj (List.mem_singleton.1 h)
      obtain ⟨hrow, htable⟩ := Prod.mk.inj hreturns
      have hfind : m.before.find? id' = some row := (Except.ok.inj hrow).symm
      obtain rfl := TaskTable.id_of_find? hfind
      exact ⟨row, (congrArg (TaskTable.find? · row.id) htable).trans hfind, rfl⟩
    · next now rows =>
      obtain ⟨row, hrow, hrun⟩ := List.mem_map.1 h
      obtain ⟨rfl, rfl⟩ := Prod.mk.inj hrun
      obtain ⟨hrows, htable⟩ := Prod.mk.inj hreturns
      obtain rfl := Except.ok.inj hrows
      have hfind := (TaskTable.mem_due hrow).1
      exact ⟨row, (congrArg (TaskTable.find? · row.id) htable).trans hfind, rfl⟩
    · next id' c' e =>
      obtain ⟨run, hrun, heq⟩ := Option.map_eq_some_iff.1 (Option.mem_toList.1 h)
      obtain ⟨rfl, rfl⟩ := Prod.mk.inj heq
      obtain ⟨happlied, htable⟩ := Prod.mk.inj hreturns
      have htaken : (m.before.stepAt id' (.complete c')).1.isSome = true :=
        (Except.ok.inj happlied).symm
      obtain ⟨row, hrow⟩ := Option.isSome_iff_exists.1 htaken
      obtain ⟨⟨q, -, -, hq⟩, hfind⟩ := TaskTable.stepAt_taken hrow
      obtain rfl := Option.some.inj hq
      refine ⟨_, (congrArg (TaskTable.find? · id') htable).trans hfind, ?_⟩
      show c'.nextRunMs.getD q.nextRunMs = run
      rw [hrun]
      rfl
    · cases h
  · cases h

/-! ## Alarms -/

/-- A wake-up that the platform has been asked for. -/
structure Alarm where
  /-- Who has asked for it. -/
  setter : Nat
  delay : Span
  /-- What had happened before. -/
  past : List Moment

/-- The registration of a task: the latest one, unless it was dropped or has fired. -/
def alarm? (id : TaskId) : List Moment → Option Alarm
  | [] => none
  | m :: past =>
    match m.occurrence with
    | .answers who (.arm target delay _) (Except.ok _) =>
      if target = id then some ⟨who, delay, past⟩ else alarm? id past
    | .answers _ (.disarm target) (Except.ok _) => if target = id then none else alarm? id past
    | .wakes _ target => if target = id then none else alarm? id past
    | _ => alarm? id past

/-- A task is armed just if it has a registration. -/
theorem isSome_alarm (id : TaskId) (past : List Moment) :
    (alarm? id past).isSome = armed id past := by
  induction past with
  | nil => rfl
  | cons m past ih =>
    unfold alarm? armed
    cases m.occurrence with
    | wakes who target =>
      unfold Occurrence.leavesArmed
      dsimp only
      split
      · rfl
      · exact ih
    | begins | fails | breaksDown => exact ih
    | answers who c a =>
      cases c with
      | arm target =>
        cases a with
        | error => exact ih
        | ok =>
          show (if target = id then _ else alarm? id past).isSome = if target = id then _ else _
          split
          · rfl
          · exact ih
      | disarm target =>
        cases a with
        | error => exact ih
        | ok =>
          show (if target = id then _ else alarm? id past).isSome = if target = id then _ else _
          split
          · rfl
          · exact ih
      | _ => exact ih

/-- A registration goes back to a call that made it. -/
theorem armed_of_alarm {a : Alarm} (h : alarm? id past = some a) :
    ∃ m conditions handle, m :: a.past <:+ past
      ∧ m.occurrence = .answers a.setter (.arm id a.delay conditions) (Except.ok handle) := by
  induction past with
  | nil => cases h
  | cons m past ih =>
    have earlier (h : alarm? id past = some a) : ∃ m' conditions handle,
        m' :: a.past <:+ m :: past
          ∧ m'.occurrence = .answers a.setter (.arm id a.delay conditions) (Except.ok handle) := by
      obtain ⟨m', conditions, handle, hsuffix, hm'⟩ := ih h
      exact ⟨m', conditions, handle, hsuffix.trans (List.suffix_cons m past), hm'⟩
    unfold alarm? at h
    split at h
    · next who target delay conditions handle hm =>
      split at h
      · next htarget =>
        obtain rfl := Option.some.inj h
        obtain rfl := htarget
        exact ⟨m, conditions, handle, List.suffix_refl _, hm⟩
      · exact earlier h
    · split at h
      · cases h
      · exact earlier h
    · split at h
      · cases h
      · exact earlier h
    · exact earlier h

/-! ## Time -/

/--
Whether something may happen when it does. The clock counts nanoseconds, and what is read off it is
whole milliseconds. A registration does not fire before its delay has passed, and no cycle begins
without one.
-/
def Moment.inTime (clock : Nat → Nat) (past : List Moment) (m : Moment) : Bool :=
  match m.occurrence with
  | .answers _ .now time => time.toNat == clock past.length / 1000000
  | .wakes _ id =>
    (alarm? id past).any fun a => decide (clock a.past.length + a.delay.nanos ≤ clock past.length)
  | .begins _ (.dispatch _) | .begins _ (.execute _) => false
  | _ => true

/-- Whether everything in a history may have happened when it did. -/
def keepsTime (clock : Nat → Nat) : List Moment → Bool
  | [] => true
  | m :: past => m.inTime clock past && keepsTime clock past

variable {clock : Nat → Nat} {earlier : List Moment} {a : Alarm}

theorem keepsTime_of_suffix (h : keepsTime clock past = true) (hsuffix : earlier <:+ past) :
    keepsTime clock earlier = true := by
  obtain ⟨later, rfl⟩ := hsuffix
  induction later with
  | nil => exact h
  | cons _ later ih => exact ih (Bool.and_eq_true_iff.1 h).2

theorem inTime_of_suffix (h : keepsTime clock past = true) (hsuffix : m :: earlier <:+ past) :
    m.inTime clock earlier = true :=
  (Bool.and_eq_true_iff.1 (keepsTime_of_suffix h hsuffix)).1

theorem orderly_of_suffix {S : Type} {C : Conduct S} (h : C.Orderly past)
    (hsuffix : earlier <:+ past) : C.Orderly earlier := by
  obtain ⟨later, rfl⟩ := hsuffix
  exact h.of_append

/--
A registration is made for a run that its maker has been told of, and does not fire before it.
-/
theorem run_of_alarm (hclock : ∀ i j, i ≤ j → clock i ≤ clock j) (ho : timing.Orderly past)
    (htime : keepsTime clock past = true) (h : alarm? id past = some a) :
    ∃ told earlier next, told :: earlier <:+ a.past ∧ told.occurrence.who = a.setter
      ∧ (id, next) ∈ told.occurrence.runs
      ∧ next.toNat * 1000000 ≤ clock a.past.length + a.delay.nanos := by
  obtain ⟨m, conditions, handle, ⟨later, rfl⟩, hm⟩ := armed_of_alarm h
  have ho := ho.of_append
  have hsuits := ho.1.suits
  rw [hm] at hsuits
  obtain ⟨⟨next, now, hrun, hnow, hreaches⟩, -⟩ := hsuits
  obtain ⟨told, earlier, htold, hwho, hruns⟩ := told_of_stage
    (P := fun g => (id, next) ∈ g.runs) (Q := fun m => (id, next) ∈ m.occurrence.runs)
    (fun h => by cases h) (fun _ _ hf => mem_runs_lead hf.suits) ho.2 hrun
  obtain ⟨read, before, hread, -, hreading⟩ := told_of_stage
    (P := fun g => now ∈ g.times)
    (Q := fun m => m.occurrence = .answers m.occurrence.who .now now)
    (fun h => by cases h) (fun _ _ hf => mem_times_lead hf.suits) ho.2 hnow
  refine ⟨told, earlier, next, htold, hwho, hruns, ?_⟩
  have hshown := inTime_of_suffix htime
    (hread.trans ((List.suffix_cons m a.past).trans (List.suffix_append later _)))
  unfold Moment.inTime at hshown
  rw [hreading] at hshown
  have hshown : now.toNat = clock before.length / 1000000 := eq_of_beq hshown
  have hlater : clock before.length ≤ clock a.past.length :=
    hclock _ _ (Nat.le_of_succ_le hread.length_le)
  unfold Span.Reaches at hreaches
  omega

/-- Who claims a row was woken by a registration of its task. -/
theorem wake_of_claim {now : UInt64} {r : Except Failure (Option Row)}
    (ho : timing.Orderly (m :: past)) (htime : keepsTime clock past = true)
    (hm : m.occurrence = .answers who (.store (.claim id now)) r) :
    ∃ wake earlier a, wake :: earlier <:+ past ∧ wake.occurrence = .wakes who id
      ∧ alarm? id earlier = some a
      ∧ clock a.past.length + a.delay.nanos ≤ clock earlier.length := by
  have hsuits := ho.1.suits
  rw [hm] at hsuits
  obtain ⟨hcycle, -⟩ := hsuits
  obtain ⟨wake, earlier, hsuffix, hwho, hbegun⟩ := told_of_stage
    (P := fun g => g.cycle = some id)
    (Q := fun m => m.occurrence = .begins m.occurrence.who (.dispatch id)
      ∨ m.occurrence = .begins m.occurrence.who (.execute id)
      ∨ m.occurrence = .wakes m.occurrence.who id)
    (fun h => by cases h) (fun _ _ _ => cycle_lead) ho.2 hcycle
  obtain rfl : wake.occurrence.who = who := hwho
  have hin := inTime_of_suffix htime hsuffix
  unfold Moment.inTime at hin
  rcases hbegun with hbegun | hbegun | hwake
  · rw [hbegun] at hin
    cases hin
  · rw [hbegun] at hin
    cases hin
  · rw [hwake] at hin
    obtain ⟨a, ha, hfires⟩ := (Option.any_eq_true _ _).1 hin
    exact ⟨wake, earlier, a, hsuffix, hwake, ha, of_decide_eq_true hfires⟩

/-- What the store finds due has its time behind it. -/
theorem timing_met (ho : custody.Orderly past) : timing.Met past := by
  refine Conduct.met_of_returns ho (fun _ => trivial) (fun g c a t t' hreturns => ?_)
    fun g c a hfails => ?_
  · cases c with
    | store c =>
      cases c with
      | due now =>
        obtain ⟨rfl, -⟩ := Prod.mk.inj hreturns
        intro row hrow
        exact TaskTable.nextRun_of_mem_due hrow
      | _ => trivial
    | _ => trivial
  · cases c with
    | store c =>
      obtain ⟨failure, rfl⟩ := hfails
      cases c <;> trivial
    | _ => trivial

/-! ## Claims -/

/--
The run that a registration was made for is out of date: its maker has been told of an earlier run
than that of the row, which was set since.
-/
def Alarm.Outdated (a : Alarm) (id : TaskId) (run : UInt64) (past : List Moment) : Prop :=
  ∃ between told earlier next, past = between ++ told :: earlier ∧ told :: earlier <:+ a.past
    ∧ told.occurrence.who = a.setter ∧ (id, next) ∈ told.occurrence.runs ∧ next < run
    ∧ ∃ b ∈ between, (b.deed id).nextRun? = some run

/--
**A row is claimed in time, unless its run was put off since the one who armed it was told of it.**
A cycle begins with a registration, which was made for a run that its maker knew of.
-/
theorem claimed_in_time {later : List Moment} {now : UInt64} {row : Row}
    (hclock : ∀ i j, i ≤ j → clock i ≤ clock j) (hw : Reachable s w)
    (htime : keepsTime clock w.past = true) (hpast : w.past = later ++ m :: past)
    (hm : m.occurrence = .answers who (.store (.claim id now)) (Except.ok (some row))) :
    ∃ found wake earlier a, m.before.find? id = some found
      ∧ wake :: earlier <:+ past ∧ wake.occurrence = .wakes who id ∧ alarm? id earlier = some a
      ∧ (found.nextRunMs.toNat ≤ clock past.length / 1000000
        ∨ a.Outdated id found.nextRunMs past) := by
  have hcustody := Conduct.orderly_reachable (custody_governs s) hw (custody_met _)
  have htold := Conduct.orderly_reachable (timing_governs s) hw (timing_met hcustody)
  rw [hpast] at hcustody htold htime
  have hcustody := hcustody.of_append
  have htold := htold.of_append
  have htime := keepsTime_of_suffix htime ((List.suffix_cons m past).trans (List.suffix_append _ _))
  obtain ⟨wake, earlier, a, hwake, hwakes, ha, hfires⟩ := wake_of_claim htold htime hm
  have hearlier := (List.suffix_cons wake earlier).trans hwake
  obtain ⟨told, before, next, hset, hwho, hrun, hdelay⟩ := run_of_alarm hclock
    (orderly_of_suffix htold.2 hearlier) (keepsTime_of_suffix htime hearlier) ha
  -- the row is there from the time that the run was told of, and is found by the claim
  obtain ⟨between, hbetween⟩ : told :: before <:+ past := by
    obtain ⟨_, _, _, hmade, -⟩ := armed_of_alarm ha
    exact hset.trans ((List.suffix_cons _ _).trans (hmade.trans hearlier))
  have hsuits := hcustody.1.suits
  rw [hm] at hsuits
  have hclaim : (m.before.stepAt id (.claim now)).1 = some row :=
    (Except.ok.inj (congrArg Prod.fst hsuits.2)).symm
  obtain ⟨⟨found, hfound, -⟩, -⟩ := TaskTable.stepAt_taken hclaim
  refine ⟨found, wake, earlier, a, hfound, hwake, hwakes, ha, ?_⟩
  rw [hcustody.1.before, ← hbetween] at hfound
  obtain ⟨q, hq, rfl⟩ :=
    row_of_runs (orderly_of_suffix htold.2 ⟨between, hbetween⟩).1 hrun
  obtain ⟨q', hq', hkept⟩ := nextRun_append (hbetween ▸ hcustody.2) hq
  obtain rfl := Option.some.inj (hq'.symm.trans hfound)
  -- only a run that is later than the one the wake-up was made for may not have come
  by_cases hlate : q.nextRunMs < q'.nextRunMs
  · right
    refine ⟨between, told, before, q.nextRunMs, hbetween.symm, hset, hwho, hrun, hlate, ?_⟩
    exact hkept.resolve_left fun hsame => UInt64.lt_irrefl _ (hsame ▸ hlate)
  · left
    have hnext : q'.nextRunMs.toNat ≤ q.nextRunMs.toNat :=
      UInt64.le_iff_toNat_le.1 (UInt64.not_lt.1 hlate)
    have hclaimed := hclock _ _ hearlier.length_le
    omega

/-! ## A claim in time, and one too early -/

namespace Rehearsal

/-- The time goes on. -/
def afterMillis (ms : UInt64) (p : Play) : Play :=
  { p with system := { p.system with clock := p.system.clock.advance ms } }

/-- The delay before the retry passes, and the retry begins. -/
def retried : Scene :=
  ((afterMillis 1000 (Play.run scheduler { system } retrying)).run scheduler
    (.wake first :: goes 2 6)).scene

theorem inOrder_afterMillis {p : Play} (h : p.InOrder s) (ms : UInt64) :
    (afterMillis ms p).InOrder s :=
  ⟨h.reachable, h.table⟩

theorem reachable_retried : Reachable scheduler retried := by
  have hbefore : Play.InOrder scheduler (Play.run scheduler { system } retrying) :=
    Play.inOrder_run ⟨.init, rfl⟩ retrying
  exact (Play.inOrder_run (inOrder_afterMillis hbefore 1000) _).reachable

/-- A clock that shows a second from some moment on, and nothing before. -/
def secondAt (moment n : Nat) : Nat := if n < moment then 0 else 1000000000

theorem secondAt_mono (moment i j : Nat) (h : i ≤ j) : secondAt moment i ≤ secondAt moment j := by
  unfold secondAt
  split
  · exact Nat.zero_le _
  · have hj : ¬ j < moment := by omega
    simp [hj]

/-- A task is put off by a minute when its wake-up has fired. -/
def overtakenWakeUp : List Cue :=
  whole 0 (.submit request) ++ .wake first ::
    whole 2 (.reschedule first (request.withInitialDelay (.ofMillis 60000))) ++ goes 1 2

end Rehearsal

/-- Whether an operation claims the row of a task. -/
def Occurrence.claims (who : Nat) (id : TaskId) : Occurrence → Bool
  | answers who' (.store (.claim id' _)) (Except.ok (some _)) => who' == who && id' == id
  | _ => false

theorem claim_of_any {test : Row → Bool} (h : past.any (fun m =>
      m.occurrence.claims who id && (m.before.find? id).any test) = true) :
    ∃ later m earlier now row found, past = later ++ m :: earlier
      ∧ m.occurrence = .answers who (.store (.claim id now)) (Except.ok (some row))
      ∧ m.before.find? id = some found ∧ test found = true := by
  obtain ⟨m, hmem, hm⟩ := List.any_eq_true.1 h
  obtain ⟨hclaims, hfound⟩ := Bool.and_eq_true_iff.1 hm
  obtain ⟨found, hfind, htest⟩ := (Option.any_eq_true _ _).1 hfound
  obtain ⟨later, earlier, hpast⟩ := List.append_of_mem hmem
  unfold Occurrence.claims at hclaims
  split at hclaims
  · next who' id' now row heq =>
    obtain ⟨hwho, hid⟩ := Bool.and_eq_true_iff.1 hclaims
    obtain rfl := eq_of_beq hwho
    obtain rfl := eq_of_beq hid
    exact ⟨later, m, earlier, now, row, found, hpast, heq, hfind, htest⟩
  · cases hclaims

open Rehearsal in
/-- A retry is woken when its delay has passed, and claimed. -/
theorem claimed_in_time_retried :
    let clock := secondAt (scene retrying).past.length
    keepsTime clock retried.past = true ∧ ∃ later m past now row found wake earlier a,
      retried.past = later ++ m :: past
        ∧ m.occurrence = .answers 2 (.store (.claim first now)) (Except.ok (some row))
        ∧ m.before.find? first = some found ∧ found.nextRunMs = 1000
        ∧ wake :: earlier <:+ past ∧ wake.occurrence = .wakes 2 first
        ∧ alarm? first earlier = some a
        ∧ (found.nextRunMs.toNat ≤ clock past.length / 1000000
          ∨ a.Outdated first found.nextRunMs past) := by
  intro clock
  have htime : keepsTime clock retried.past = true := by decide +kernel
  refine ⟨htime, ?_⟩
  have hclaim : retried.past.any (fun m => m.occurrence.claims 2 first
      && (m.before.find? first).any (·.nextRunMs == 1000)) = true := by decide +kernel
  obtain ⟨later, m, past, now, row, found, hpast, hm, hfound, hrun⟩ := claim_of_any hclaim
  obtain ⟨found', wake, earlier, a, hfound', hwake, hwakes, ha, hdue⟩ :=
    claimed_in_time (secondAt_mono _) reachable_retried htime hpast hm
  obtain rfl := Option.some.inj (hfound.symm.trans hfound')
  exact ⟨later, m, past, now, row, found, wake, earlier, a, hpast, hm, hfound, eq_of_beq hrun,
    hwake, hwakes, ha, hdue⟩

open Rehearsal in
/--
A wake-up fires and a cycle begins. The task is put off by a minute before it is claimed, and is
claimed at once.
-/
theorem overtaken_wake_up_claims_early :
    ¬ ∀ (s : Scheduler) (clock : Nat → Nat) (w : Scene) (later past : List Moment) (m : Moment)
      (who : Nat) (id : TaskId) (now : UInt64) (row found : Row),
      (∀ i j, i ≤ j → clock i ≤ clock j) → Reachable s w → keepsTime clock w.past = true →
      w.past = later ++ m :: past →
      m.occurrence = .answers who (.store (.claim id now)) (Except.ok (some row)) →
      m.before.find? id = some found → found.nextRunMs.toNat ≤ clock past.length / 1000000 := by
  intro h
  have hclaim : (scene overtakenWakeUp).past.any (fun m => m.occurrence.claims 1 first
      && (m.before.find? first).any (·.nextRunMs == 60000)) = true := by decide +kernel
  obtain ⟨later, m, past, now, row, found, hpast, hm, hfound, hrun⟩ := claim_of_any hclaim
  -- the clock stands still all the time
  have hearly := h scheduler (fun _ => 0) (scene overtakenWakeUp) later past m 1 first now row found
    (fun _ _ _ => Nat.le_refl _) (reachable_scene _) (by decide +kernel) hpast hm hfound
  rw [eq_of_beq hrun] at hearly
  exact absurd hearly (by decide)

end BackgroundTasks
