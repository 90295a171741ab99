import BackgroundTasks.Proofs.Descriptions
import BackgroundTasks.Proofs.Fencing
import BackgroundTasks.Setup

/-!
# Well-formed rows

What a request leaves open is filled from a configuration that has been checked, and what it says is
checked itself, so every description that is stored is in range. It stays so, since a row never
changes its description but for another one that was made in the same way.

That a task which has succeeded for good is a one-time task needs more: success is decided upon for
the row as it was claimed, and the row may have been given a periodic schedule since. But then the
result comes too late, and is not applied.
-/

namespace BackgroundTasks

/-! ## Checked numbers -/

/-- What is finite and not at most zero lies above zero. -/
theorem Number.Binary64.pos_of_isPositiveFinite {m : Float} (h : isPositiveFinite m = true) :
    m.isFinite = true ∧ 0.0 < m := by
  unfold isPositiveFinite at h
  rw [Bool.and_eq_true, Bool.not_eq_true', decide_eq_false_iff_not] at h
  obtain ⟨hfinite, hnot⟩ := h
  refine ⟨hfinite, ?_⟩
  have hzero : (0.0 : Float).toModel.unpack = .zero .positive := rfl
  have hunpacked : m.toModel.unpack.isFinite = true := hfinite
  have hnot : ¬ m.toModel.unpack.le (0.0 : Float).toModel.unpack = true := fun hle =>
    hnot (show Float.le m 0.0 = true from decide_eq_true hle)
  show Float.lt 0.0 m = true
  refine decide_eq_true (?_ : (0.0 : Float).toModel.unpack.lt m.toModel.unpack = true)
  rw [hzero] at hnot ⊢
  -- both zeros and all negative floats are at most zero
  cases hm : m.toModel.unpack with
  | infinity sign => rw [hm] at hunpacked; cases hunpacked
  | notANumber => rw [hm] at hunpacked; cases hunpacked
  | zero sign => rw [hm] at hnot; exact absurd rfl hnot
  | finite sign mantissa exponent pos =>
    cases sign with
    | positive => rfl
    | negative => rw [hm] at hnot; exact absurd rfl hnot

theorem Span.toMillis_mono {a b : Span} (h : a.nanos ≤ b.nanos) : a.toMillis ≤ b.toMillis := by
  rw [UInt64.le_iff_toNat_le, toNat_toMillis, toNat_toMillis]
  have hdiv : a.nanos / 1000000 ≤ b.nanos / 1000000 := Nat.div_le_div_right h
  omega

theorem Priority.ordinal_le (p : Priority) : p.ordinal ≤ 2 := by cases p <;> decide

/-! ## Descriptions -/

/-- A description that is in range under a configuration. -/
structure Spec.WellFormed (config : Config) (spec : Spec) : Prop where
  maxRetries_le : spec.maxRetries ≤ config.maxRetriesCeiling
  priority_le : spec.priority ≤ 2
  flex_le : spec.flexMs ≤ spec.intervalMs
  oneTime : spec.recurrence = .oneTime → spec.intervalMs = 0 ∧ spec.flexMs = 0
  linear : spec.growth = .linear → spec.backoffMultiplier = none ∧ spec.backoffJitter = 0.0
  exponential : spec.growth = .exponential →
    (∃ m, spec.backoffMultiplier = some m ∧ m.isFinite = true ∧ 0.0 < m)
      ∧ 0.0 ≤ spec.backoffJitter ∧ spec.backoffJitter ≤ 1.0

theorem Schedule.normalize_eq_ok {schedule : Schedule} {n : NormalizedSchedule}
    (h : schedule.normalize = .ok n) :
    n.flex.nanos ≤ n.interval.nanos
      ∧ (n.recurrence = .oneTime → n.interval = .zero ∧ n.flex = .zero) := by
  unfold normalize at h
  split at h
  · cases h
    exact ⟨Nat.le_refl _, fun _ => ⟨rfl, rfl⟩⟩
  · split at h
    · cases h
    split at h
    · cases h
    next hflex =>
      cases h
      exact ⟨Nat.le_of_not_lt hflex, nofun⟩

namespace RetryPolicy

variable {p : RetryPolicy}

theorem checkedJitter_eq_ok {jitter : Float} (h : p.checkedJitter = .ok jitter) :
    0.0 ≤ jitter ∧ jitter ≤ 1.0 := by
  unfold checkedJitter at h
  split at h
  · next hrange =>
    cases h
    simpa using hrange
  · cases h

theorem checkedMultiplier_eq_ok {default : Float} {multiplier : Option Float}
    (hdefault : Number.Binary64.isPositiveFinite default = true)
    (h : p.checkedMultiplier default = .ok multiplier) :
    (p.growth = .linear → multiplier = none)
      ∧ (p.growth = .exponential →
        ∃ m, multiplier = some m ∧ Number.Binary64.isPositiveFinite m = true) := by
  unfold checkedMultiplier at h
  split at h
  · next hgrowth =>
    cases h
    exact ⟨fun _ => rfl, fun hexp => (nomatch hgrowth.symm.trans hexp)⟩
  · next hgrowth _ =>
    cases h
    exact ⟨fun hlin => (nomatch hgrowth.symm.trans hlin), fun _ => ⟨_, rfl, hdefault⟩⟩
  · next m hgrowth _ =>
    split at h
    · next hm =>
      cases h
      exact ⟨fun hlin => (nomatch hgrowth.symm.trans hlin), fun _ => ⟨_, rfl, hm⟩⟩
    · cases h

end RetryPolicy

theorem Config.multiplier_of_fault? {config : Config} (h : config.fault? = none) :
    Number.Binary64.isPositiveFinite config.defaultBackoffMultiplier = true := by
  unfold fault? at h
  split at h
  · cases h
  split at h
  · cases h
  split at h
  · cases h
  next hm => simpa using hm

/-- **What a request comes to is in range**, under a configuration without faults. -/
theorem Request.wellFormed_normalize {request : Request} {registry : Registry} {now : UInt64}
    {config : Config} {n : NormalizedRequest} (hconfig : config.fault? = none)
    (h : request.normalize registry now config = .ok n) : n.spec.WellFormed config := by
  obtain ⟨schedule, jitter, multiplier, serialized, hschedule, hjitter, hmultiplier, -, -, hspec⟩ :=
    normalize_eq_ok h
  obtain ⟨hflex, honce⟩ := Schedule.normalize_eq_ok hschedule
  obtain ⟨hlow, hhigh⟩ := RetryPolicy.checkedJitter_eq_ok hjitter
  obtain ⟨hlinear, hexponential⟩ :=
    RetryPolicy.checkedMultiplier_eq_ok (Config.multiplier_of_fault? hconfig) hmultiplier
  rw [hspec]
  refine ⟨Std.min_le_right, request.priority.ordinal_le, Span.toMillis_mono hflex,
    fun hrecurrence => ?_, fun (hgrowth : request.retry.growth = .linear) => ?_,
    fun (hgrowth : request.retry.growth = .exponential) => ?_⟩
  · obtain ⟨hinterval, hflex⟩ := honce hrecurrence
    exact ⟨congrArg Span.toMillis hinterval, congrArg Span.toMillis hflex⟩
  · simp only [hgrowth]
    exact ⟨hlinear hgrowth, trivial⟩
  · obtain ⟨m, hm, hpos⟩ := hexponential hgrowth
    simp only [hgrowth]
    exact ⟨⟨m, hm, Number.Binary64.pos_of_isPositiveFinite hpos⟩, hlow, hhigh⟩

/-! ## Rows -/

/-- A row whose description is in range, and which has succeeded for good only if it runs once. -/
structure Row.WellFormed (config : Config) (row : Row) : Prop where
  spec : row.spec.WellFormed config
  succeeded : row.state = .succeeded → row.spec.recurrence = .oneTime

theorem Spec.recurrence_of_not_periodic {spec : Spec} (h : spec.isPeriodic = false) :
    spec.recurrence = .oneTime := by
  unfold isPeriodic at h
  cases hr : spec.recurrence with
  | oneTime => rfl
  | periodic => rw [hr] at h; cases h

variable {s : Scheduler} {w : Scene} {past : List Moment} {m : Moment} {id : TaskId} {q : Row}

theorem Scheduler.Describes.wellFormed {spec : Spec} {next now : UInt64}
    (hconfig : s.config.fault? = none) (h : s.Describes spec next now) :
    spec.WellFormed s.config := by
  obtain ⟨request, hrequest⟩ := h
  exact Request.wellFormed_normalize hconfig hrequest

theorem wellFormed_cons (hconfig : s.config.fault? = none) (ho : custody.Orderly (m :: past))
    (hdescribed : (describing s).Follows past m) (hfit : (tableAfter (m :: past)).CountsFit)
    (ih : ∀ q, rowAfter id past = some q → q.WellFormed s.config)
    (hq : rowAfter id (m :: past) = some q) : q.WellFormed s.config := by
  have hch := deed_changes ho.1 id
  cases hd : m.deed id <;> rw [hd, hq] at hch
  -- a new description is in range, and its row is back in the queue
  case inserted row =>
    obtain ⟨-, hsome, -⟩ := hch
    obtain rfl := Option.some.inj hsome
    obtain ⟨spec, next, now, rfl, hdescribes⟩ := described_of_inserted hdescribed hd
    exact ⟨hdescribes.wellFormed hconfig, nofun⟩
  case renewed spec next now =>
    obtain ⟨p, -, -, hchange⟩ := hch
    obtain rfl := Option.some.inj hchange
    exact ⟨(described_of_renewed hdescribed hd).wellFormed hconfig, nofun⟩
  -- all else leaves the description as it is
  case nothing => exact ih q hch.symm
  case noted =>
    obtain ⟨p, hp, -, hchange⟩ := hch
    obtain rfl := Option.some.inj hchange
    exact ⟨(ih p hp).spec, (ih p hp).succeeded⟩
  case cancelled =>
    obtain ⟨p, hp, -, hchange⟩ := hch
    obtain rfl := Option.some.inj hchange
    exact ⟨(ih p hp).spec, nofun⟩
  case claimed =>
    obtain ⟨p, hp, -, hchange⟩ := hch
    obtain rfl := Option.some.inj hchange
    exact ⟨(ih p hp).spec, nofun⟩
  case concluded =>
    obtain ⟨p, now, d, hp, hconcludes, -, hafter⟩ :=
      concludes_found ho (countsFit_of_cons ho.1 hfit) hd
    obtain rfl := Option.some.inj (hq.symm.trans hafter)
    refine ⟨(ih p hp).spec, fun hsucceeded => ?_⟩
    -- it was decided upon for the row that it finds, and only a one-time task succeeds for good
    cases hconcludes with
    | succeeded oneTime => exact Spec.recurrence_of_not_periodic oneTime
    | comesBack | failed | retried => cases hsucceeded

theorem wellFormed_after (hconfig : s.config.fault? = none) (ho : custody.Orderly past)
    (hdescribed : (describing s).Orderly past) (hfit : (tableAfter past).CountsFit)
    (hq : rowAfter id past = some q) : q.WellFormed s.config := by
  induction past generalizing q with
  | nil => cases hq
  | cons m past ih =>
    exact wellFormed_cons hconfig ho hdescribed.1 hfit
      (fun _ => ih ho.2 hdescribed.2 (countsFit_of_cons ho.1 hfit)) hq

/-! ## Schedulers that are put together -/

namespace Setup

variable {setup : Setup} {place place' : Place} {store : Store}

theorem scheduler_eq_ok (h : setup.scheduler = .ok s) :
    s.config = setup.config ∧ setup.configFault? = none := by
  unfold scheduler at h
  split at h
  · cases h
  split at h
  · cases h
  next hfault =>
    cases h
    exact ⟨rfl, hfault⟩

theorem scheduler_of_build (h : setup.build place = (.ok (s, store), place')) :
    setup.scheduler = .ok s := by
  unfold build at h
  split at h
  · cases h
  next s' hs =>
    have hopen : (openStore setup.config place).1.map (fun store => (s', store))
        = .ok (s, store) := congrArg Prod.fst h
    cases hstore : (openStore setup.config place).1 with
    | error failure => rw [hstore] at hopen; cases hopen
    | ok opened =>
      rw [hstore] at hopen
      cases hopen
      exact hs

/-- A scheduler that could be put together has a configuration without faults. -/
theorem fault?_of_build (h : setup.build place = (.ok (s, store), place')) :
    s.config.fault? = none := by
  obtain ⟨hconfig, hfault⟩ := scheduler_eq_ok (scheduler_of_build h)
  unfold configFault? at hfault
  rw [hconfig]
  split at hfault
  · cases hfault
  next hnone => exact hnone

end Setup

/--
**Every row is well formed.** Whatever operations run side by side, under a scheduler that could be
put together and over a store without rows at first, each row has a description in range, and none
that has succeeded for good is periodic.
-/
theorem rows_well_formed {setup : Setup} {place place' : Place} {store : Store}
    (hbuild : setup.build place = (.ok (s, store), place')) (hw : Reachable s w)
    (hfit : w.table.CountsFit) : ∀ row ∈ w.table.rows, row.WellFormed s.config := by
  intro row hrow
  have ho := Conduct.orderly_reachable (custody_governs s) hw (custody_met _)
  exact wellFormed_after (Setup.fault?_of_build hbuild) ho (describing_orderly hw) hfit
    (TaskTable.find?_of_mem hrow)

namespace Rehearsal

/-- The setup that the scheduler of rehearsals comes from. -/
def setup : Setup := { types := [bare] }

/-- A one-time task is cancelled while its attempt is under way, and made an hourly one. -/
def madePeriodic : List Cue :=
  whole 0 (.submit request) ++ claimed 1 first ++ whole 2 (.cancel first)
    ++ whole 3 (.reschedule first hourly) ++ claimed 4 first ++ goes 1 20

end Rehearsal

open Rehearsal in
/--
The success of the one-time task does not end the hourly one, and when that one succeeds itself, it
goes back to the queue. A one-time task that is not overtaken does succeed for good.
-/
theorem rows_well_formed_made_periodic :
    (∃ row, (scene madePeriodic).table.find? first = some row
        ∧ (row.state == .running && row.spec.isPeriodic) = true
        ∧ row.WellFormed scheduler.config)
      ∧ (∃ row, (scene (madePeriodic ++ goes 4 20)).table.find? first = some row
        ∧ (row.state == .enqueued && row.spec.isPeriodic) = true
        ∧ row.WellFormed scheduler.config)
      ∧ ∃ row, (scene overtaken).table.find? first = some row
        ∧ (row.state == .succeeded) = true ∧ row.WellFormed scheduler.config := by
  have hbuild : setup.build .absent = (.ok (scheduler, .memory .empty), .absent) := rfl
  have found {cues : List Cue} (shows : Row → Bool)
      (hfit : (scene cues).table.CountsFit)
      (hshows : ((scene cues).table.find? first).any shows = true) :
      ∃ row, (scene cues).table.find? first = some row ∧ shows row = true
        ∧ row.WellFormed scheduler.config := by
    obtain ⟨row, hrow, hshown⟩ := (Option.any_eq_true _ _).1 hshows
    exact ⟨row, hrow, hshown,
      rows_well_formed hbuild (reachable_scene cues) hfit row (TaskTable.mem_of_find? hrow)⟩
  exact ⟨found _ (by decide +kernel) (by decide +kernel),
    found _ (by decide +kernel) (by decide +kernel),
    found _ (by decide +kernel) (by decide +kernel)⟩

end BackgroundTasks
