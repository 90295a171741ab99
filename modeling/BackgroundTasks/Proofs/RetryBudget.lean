import BackgroundTasks.Proofs.Ownership

/-!
# The retry budget

A retry is decided upon by looking at the row as it was claimed, and counted by a later transaction.
The count is right all the same: a completion is only applied to the row it was decided upon for.
So a row has been retried as often as it says, never more often than it may, and each claim but one
has been paid for with a retry.
-/

namespace BackgroundTasks

variable {s : Scheduler} {w : Scene} {past : List Moment} {m : Moment} {id : TaskId} {q : Row}

theorem toNat_succ_of_lt {n limit : UInt32} (h : n < limit) : (n + 1).toNat = n.toNat + 1 := by
  have hlt := UInt32.lt_iff_toNat_lt.1 h
  have hsize := limit.toNat_lt
  have hone : (1 : UInt32).toNat = 1 := rfl
  rw [UInt32.toNat_add, hone]
  omega

/-! ## What is counted, and since when -/

namespace Deed

/-- A task is submitted, or given a new schedule. -/
def schedules : Deed → Bool
  | inserted _ | renewed .. => true
  | _ => false

/-- A success is applied. -/
def succeeds : Deed → Bool
  | concluded _ _ .succeeded => true
  | _ => false

/-- A retry is applied. -/
def retries : Deed → Bool
  | concluded _ _ .retryScheduled => true
  | _ => false

/-- A task is claimed. -/
def claims : Deed → Bool
  | claimed .. => true
  | _ => false

end Deed

namespace Moment

/-- A task is submitted, or given a new schedule. -/
def schedules (m : Moment) (id : TaskId) : Bool := (m.deed id).schedules

/-- The retries of a task are counted anew: it is scheduled, or succeeds as a periodic task. -/
def startsAnew (m : Moment) (id : TaskId) : Bool :=
  m.schedules id
    || (m.deed id).succeeds && (m.before.find? id).any fun row => row.spec.isPeriodic

/-- A retry of a task is applied. -/
def retries (m : Moment) (id : TaskId) : Bool := (m.deed id).retries

/-- A task is claimed. -/
def claims (m : Moment) (id : TaskId) : Bool := (m.deed id).claims

end Moment

/-- How many moments count since the latest start. -/
def countSince (starts counts : Moment → Bool) : List Moment → Nat
  | [] => 0
  | m :: past => if starts m then 0 else countSince starts counts past + if counts m then 1 else 0

/-- The retries of a task since they are counted. -/
def retriesSince (id : TaskId) (past : List Moment) : Nat :=
  countSince (·.startsAnew id) (·.retries id) past

/-- The claims of a task since its retries are counted. -/
def claimsSince (id : TaskId) (past : List Moment) : Nat :=
  countSince (·.startsAnew id) (·.claims id) past

/-- The claims of a task since it was submitted or given a new schedule. -/
def claimsOnSchedule (id : TaskId) (past : List Moment) : Nat :=
  countSince (·.schedules id) (·.claims id) past

/-! ## The invariant -/

/-- Each claim but the latest has been paid for with a retry, and so has that of a queued row. -/
structure Row.PaysFor (row : Row) (claims : Nat) : Prop where
  all : claims ≤ row.retries.toNat + 1
  queued : row.state = .enqueued → claims ≤ row.retries.toNat

/-- How the counts of a row agree with the history of its task. -/
structure Row.Accounts (row : Row) (id : TaskId) (past : List Moment) : Prop where
  allowed : row.retries ≤ row.spec.maxRetries
  counted : row.retries.toNat = retriesSince id past
  paid : row.PaysFor (claimsSince id past)
  paidOnSchedule : row.spec.isPeriodic = false → row.PaysFor (claimsOnSchedule id past)

namespace Row

/-- A row that has not gone back to the queue pays for what it paid for. -/
theorem PaysFor.of_eq {p q : Row} {claims : Nat} (h : p.PaysFor claims)
    (hretries : q.retries = p.retries) (hstate : q.state = .enqueued → p.state = .enqueued) :
    q.PaysFor claims :=
  ⟨hretries ▸ h.all, fun hq => hretries ▸ h.queued (hstate hq)⟩

theorem paysFor_zero (row : Row) : row.PaysFor 0 := ⟨Nat.zero_le _, fun _ => Nat.zero_le _⟩

/-- A moment that does not count leaves the accounts as they are. -/
theorem Accounts.of_uncounted {p : Row} (h : p.Accounts id past) (hstart : m.startsAnew id = false)
    (hretries : m.retries id = false) (hclaims : m.claims id = false) (hq : q.spec = p.spec)
    (hq' : q.retries = p.retries) (hstate : q.state = .enqueued → p.state = .enqueued) :
    q.Accounts id (m :: past) := by
  have hschedules : m.schedules id = false := (Bool.or_eq_false_iff.1 hstart).1
  refine ⟨?_, ?_, ?_, fun honce => ?_⟩
  · rw [hq, hq']
    exact h.allowed
  · simp only [retriesSince, countSince, hstart, hretries, hq']
    exact h.counted
  · simp only [claimsSince, countSince, hstart, hclaims]
    exact h.paid.of_eq hq' hstate
  · simp only [claimsOnSchedule, countSince, hschedules, hclaims]
    exact (h.paidOnSchedule (hq ▸ honce)).of_eq hq' hstate

/-- A new schedule starts new accounts. -/
theorem accounts_of_schedules (hschedules : m.schedules id = true) (hq : q.retries = 0) :
    q.Accounts id (m :: past) := by
  have hstart : m.startsAnew id = true := Bool.or_eq_true_iff.2 (.inl hschedules)
  refine ⟨?_, ?_, ?_, fun _ => ?_⟩
  · rw [hq, UInt32.le_iff_toNat_le]
    exact Nat.zero_le _
  · simp only [retriesSince, countSince, hstart, hq]
    rfl
  · simp only [claimsSince, countSince, hstart]
    exact paysFor_zero q
  · simp only [claimsOnSchedule, countSince, hschedules]
    exact paysFor_zero q

end Row

theorem accounts_cons (ho : custody.Orderly (m :: past))
    (hfit : (tableAfter (m :: past)).CountsFit)
    (ih : ∀ q, rowAfter id past = some q → q.Accounts id past)
    (hq : rowAfter id (m :: past) = some q) : q.Accounts id (m :: past) := by
  have hch := deed_changes ho.1 id
  have hschedules : m.schedules id = (m.deed id).schedules := rfl
  have hretries : m.retries id = (m.deed id).retries := rfl
  have hclaims : m.claims id = (m.deed id).claims := rfl
  have hstart (h : (m.deed id).schedules = false) (h' : (m.deed id).succeeds = false) :
      m.startsAnew id = false := by
    rw [Moment.startsAnew, hschedules, h, h']
    rfl
  -- the deeds that count are schedules, claims and completions
  cases hd : m.deed id <;> rw [hd, hq] at hch <;> rw [hd] at hschedules hretries hclaims hstart
  case inserted =>
    obtain ⟨-, hsome, _, _, _, _, hfresh⟩ := hch
    obtain rfl := Option.some.inj hsome
    exact Row.accounts_of_schedules hschedules (hfresh ▸ rfl)
  case renewed =>
    obtain ⟨p, -, -, hchange⟩ := hch
    obtain rfl := Option.some.inj hchange
    exact Row.accounts_of_schedules hschedules rfl
  case nothing =>
    exact (ih q hch.symm).of_uncounted (hstart rfl rfl) hretries hclaims rfl rfl fun h => h
  case noted =>
    obtain ⟨p, hp, -, hchange⟩ := hch
    obtain rfl := Option.some.inj hchange
    exact (ih p hp).of_uncounted (hstart rfl rfl) hretries hclaims rfl rfl fun h => h
  case cancelled =>
    obtain ⟨p, hp, -, hchange⟩ := hch
    obtain rfl := Option.some.inj hchange
    refine (ih p hp).of_uncounted (hstart rfl rfl) hretries hclaims rfl rfl ?_
    intro hqueued
    cases hqueued
  case claimed who now =>
    obtain ⟨p, hp, hacc, hchange⟩ := hch
    obtain rfl := Option.some.inj hchange
    obtain ⟨h1, h2, h3, h4⟩ := ih p hp
    -- the row was in the queue, so all its claims so far have been paid for
    have hqueued : p.state = .enqueued := by simpa [RowStep.claim] using hacc
    have hrunning : ((RowStep.claim now).change p).state ≠ .enqueued := by
      intro h
      cases h
    refine ⟨h1, ?_, ?_, fun honce => ?_⟩
    · simp only [retriesSince, countSince, hstart rfl rfl, hretries]
      exact h2
    · simp only [claimsSince, countSince, hstart rfl rfl, hclaims]
      exact ⟨Nat.succ_le_succ (h3.queued hqueued), fun h => absurd h hrunning⟩
    · simp only [claimsOnSchedule, countSince, hschedules, hclaims]
      exact ⟨Nat.succ_le_succ ((h4 honce).queued hqueued), fun h => absurd h hrunning⟩
  case concluded who c kind =>
    obtain ⟨p, now, d, hp, hconcludes, rfl, hafter⟩ :=
      concludes_found ho (countsFit_of_cons ho.1 hfit) hd
    obtain rfl := Option.some.inj (hq.symm.trans hafter)
    have hbefore : m.before.find? id = some p := by rw [ho.1.before]; exact hp
    -- it was decided upon for the row that it finds, so the counts are those of that row
    cases hconcludes with
    | succeeded oneTime =>
      -- a success of a one-time task starts nothing
      refine (ih p hp).of_uncounted ?_ hretries hclaims rfl rfl ?_
      · rw [Moment.startsAnew, hschedules, hbefore, Option.any_some, oneTime, Bool.and_false]
        rfl
      · intro hqueued
        cases hqueued
    | failed kind message failure final =>
      have hsucceeds : (Deed.concluded who c kind).succeeds = false := by
        cases kind <;> first | rfl | exact absurd rfl failure
      have hretried : (Deed.concluded who c kind).retries = false := by
        cases kind <;> first | rfl | exact absurd rfl final
      refine (ih p hp).of_uncounted (hstart rfl hsucceeds) (hretries.trans hretried) hclaims rfl
        rfl ?_
      intro hqueued
      cases hqueued
    | comesBack next periodic =>
      -- a success of a periodic task starts its accounts anew
      have hstart : m.startsAnew id = true := by
        rw [Moment.startsAnew, hschedules, hbefore, hd, Option.any_some, periodic]
        rfl
      refine ⟨?_, ?_, ?_, fun honce => ?_⟩
      · exact UInt32.le_iff_toNat_le.2 (Nat.zero_le _)
      · simp only [retriesSince, countSince, hstart]
        rfl
      · simp only [claimsSince, countSince, hstart]
        exact Row.paysFor_zero _
      · cases honce.symm.trans periodic
    | retried delayMs reason left =>
      obtain ⟨h1, h2, h3, h4⟩ := ih p hp
      have hnext : (p.retries + 1).toNat = p.retries.toNat + 1 := toNat_succ_of_lt left
      let step := RowStep.complete (Decision.retried p now delayMs reason).completion
      -- one more retry pays for one more claim
      have hpays {n : Nat} (h : p.PaysFor n) : (step.change p).PaysFor n :=
        ⟨Nat.le_succ_of_le (hnext ▸ h.all), fun _ => hnext ▸ h.all⟩
      refine ⟨?_, ?_, ?_, fun honce => ?_⟩
      · rw [UInt32.le_iff_toNat_le]
        exact hnext ▸ UInt32.lt_iff_toNat_lt.1 left
      · simp only [retriesSince, countSince, hstart rfl rfl, hretries]
        exact hnext.trans (congrArg Nat.succ h2)
      · simp only [claimsSince, countSince, hstart rfl rfl, hclaims]
        exact hpays h3
      · simp only [claimsOnSchedule, countSince, hschedules, hclaims]
        exact hpays (h4 honce)

theorem accounts_reachable (ho : custody.Orderly past) (hfit : (tableAfter past).CountsFit)
    (hq : rowAfter id past = some q) : q.Accounts id past := by
  induction past generalizing q with
  | nil => cases hq
  | cons m past ih =>
    exact accounts_cons ho hfit (fun _ => ih ho.2 (countsFit_of_cons ho.1 hfit)) hq

/-! ## The whole -/

/-- How often a task may be tried, and has been. -/
structure WithinBudget (past : List Moment) (id : TaskId) (row : Row) : Prop where
  retries_le : row.retries ≤ row.spec.maxRetries
  /-- The count is that of the retries since the latest schedule or periodic success. -/
  retries_eq : row.retries.toNat = retriesSince id past
  /-- Between two schedules or periodic successes there is one claim more than retries. -/
  claims_le : claimsSince id past ≤ row.spec.maxRetries.toNat + 1
  /-- For a one-time task only schedules count. -/
  oneTime_claims_le : row.spec.isPeriodic = false →
    claimsOnSchedule id past ≤ row.spec.maxRetries.toNat + 1

/-- **Retries keep to their budget**, and the number of the next one is never out of range. -/
theorem retries_within_budget (hw : Reachable s w) (hfit : w.table.CountsFit) :
    (∀ id row, w.table.find? id = some row → WithinBudget w.past id row)
      ∧ ∀ who backoff retry k, w.activities[who]? = some (.call (.retryDelay backoff retry) k) →
        ∃ row, w.InFlight who row ∧ retry.toNat = row.retries.toNat + 1
          ∧ retry ≤ row.spec.maxRetries := by
  have hmet : custody.Met w.past := custody_met _
  have ho := Conduct.orderly_reachable (custody_governs s) hw hmet
  refine ⟨fun id row hrow => ?_, fun who backoff retry k hnext => ?_⟩
  · obtain ⟨h1, h2, h3, h4⟩ := accounts_reachable ho hfit hrow
    have hle := UInt32.le_iff_toNat_le.1 h1
    exact ⟨h1, h2, Nat.le_trans h3.all (Nat.succ_le_succ hle),
      fun honce => Nat.le_trans (h4 honce).all (Nat.succ_le_succ hle)⟩
  · -- a delay is only drawn while retries are left
    obtain ⟨row, hstage, left, rfl⟩ := Conduct.allows_of_next (custody_governs s) hw hmet hnext
    have hsucc : (Decision.nextRetry row).toNat = row.retries.toNat + 1 := toNat_succ_of_lt left
    refine ⟨row, hstage, hsucc, ?_⟩
    rw [UInt32.le_iff_toNat_le, hsucc]
    exact UInt32.lt_iff_toNat_lt.1 left

/-- Whether an operation is about to draw the delay before a retry. -/
def drawsRetry (retry : UInt32) : Program Call.signature Unit → Bool
  | .call (.retryDelay _ n) _ => n == retry
  | _ => false

open Rehearsal in
/-- A task is retried once, and its second retry is about to be drawn. -/
theorem retries_within_budget_retrying :
    (∃ row, (scene retryingAgain).table.find? first = some row ∧ row.retries = 1
        ∧ WithinBudget (scene retryingAgain).past first row)
      ∧ ∃ row, (scene retryingAgain).InFlight 2 row ∧ row.retries.toNat = 1 := by
  have hfit : (scene retryingAgain).table.CountsFit := by decide +kernel
  obtain ⟨within, inRange⟩ := retries_within_budget (reachable_scene retryingAgain) hfit
  constructor
  · have hretries : ((scene retryingAgain).table.find? first).any (·.retries == 1) = true := by
      decide +kernel
    obtain ⟨row, hrow, hone⟩ := (Option.any_eq_true _ _).1 hretries
    exact ⟨row, hrow, eq_of_beq hone, within first row hrow⟩
  · have hdraws : (scene retryingAgain).activities[2]?.any (drawsRetry 2) = true := by
      decide +kernel
    obtain ⟨p, hp, hdraws⟩ := (Option.any_eq_true _ _).1 hdraws
    unfold drawsRetry at hdraws
    split at hdraws
    · next backoff retry k =>
      obtain ⟨row, hrow, hretry, -⟩ := inRange 2 backoff retry k hp
      obtain rfl := eq_of_beq hdraws
      exact ⟨row, hrow, (Nat.succ.inj hretry).symm⟩
    · cases hdraws

end BackgroundTasks
