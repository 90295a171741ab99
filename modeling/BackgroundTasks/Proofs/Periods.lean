import BackgroundTasks.Proofs.Descriptions
import BackgroundTasks.Proofs.Interleaving.Play

/-!
# Periods

A periodic task that has succeeded comes back somewhere in the last `flex` of its interval. Where in
it, is drawn: the upper half of the product of a word and the number of choices is a choice, and a
second word may add one to it. It does so only when the lower half is large, and then the upper half
is not yet the last choice, so the draw never leaves its range. What is added up afterwards stops at
the end of time, where it stays between the ends of the interval, which stop there as well.

That an interval is not empty is checked of the span that the caller gives. What is stored are its
whole milliseconds, and those of a shorter span are none: its task comes back at once, again and
again.
-/

namespace BackgroundTasks

/-! ## The draw -/

namespace Draws

/-- The upper half of a product of a word is below the other factor. -/
theorem upper_lt {size word choices : Nat} (hword : word < size) (hchoices : 0 < choices) :
    word * choices / size < choices :=
  Nat.div_lt_of_lt_mul (Nat.mul_lt_mul_of_pos_right hword hchoices)

/-- Where a carry is possible, the upper half is not the last choice. -/
theorem upper_succ_lt {size word choices : Nat} (hword : word < size) (hchoices : choices ≤ size)
    (hcarry : size - choices < word * choices % size) : word * choices / size + 1 < choices := by
  have hparts := Nat.div_add_mod (word * choices) size
  have hproduct : word * choices + choices ≤ size * choices := by
    rw [← Nat.succ_mul]
    exact Nat.mul_le_mul_right choices hword
  -- the last choice would leave too little for the lower half
  refine Nat.lt_of_not_le fun hlast => ?_
  have hlast := Nat.mul_le_mul_left size hlast
  rw [Nat.mul_succ] at hlast
  omega

/-- Two lower halves add up to one carry at most. -/
theorem carry_le {size low second : Nat} (hlow : low < size) (hsecond : second < size) :
    (low + second) / size ≤ 1 :=
  Nat.le_of_lt_succ (Nat.div_lt_of_lt_mul (by omega))

/-- **A draw from a range stays in it**, whatever the words are. -/
theorem toNat_upTo_le (d : Draws) (top : UInt64) : (d.upTo top).1.toNat ≤ top.toNat := by
  have htop : top.toNat < UInt64.size := top.toNat_lt
  have hsum : (top + 1).toNat = (top.toNat + 1) % UInt64.size := UInt64.toNat_add top 1
  have hfirst : d.next.1.toNat < UInt64.size := d.next.1.toNat_lt
  have hsecond : d.next.2.next.1.toNat < UInt64.size := d.next.2.next.1.toNat_lt
  simp only [upTo]
  by_cases hall : top + 1 = 0
  · -- every word is a choice
    have hlast : top.toNat + 1 = UInt64.size := by
      refine Nat.le_antisymm htop (Nat.le_of_not_lt fun hlt => ?_)
      rw [hall, Nat.mod_eq_of_lt hlt] at hsum
      cases hsum
    rw [if_pos hall]
    rw [← hlast] at hfirst
    exact Nat.le_of_lt_succ hfirst
  · have hfits : top.toNat + 1 < UInt64.size := by
      refine Nat.lt_of_le_of_ne htop fun heq => hall (UInt64.toNat_inj.1 ?_)
      rw [hsum, heq]
      exact Nat.mod_self _
    rw [Nat.mod_eq_of_lt hfits] at hsum
    have hchoices : 0 < top.toNat + 1 := Nat.succ_pos _
    rw [if_neg hall, hsum]
    by_cases hcarry : UInt64.size - (top.toNat + 1)
        < d.next.1.toNat * (top.toNat + 1) % UInt64.size
    · rw [if_pos hcarry]
      have hroom := upper_succ_lt hfirst (Nat.le_of_lt hfits) hcarry
      have hcarries := carry_le
        (Nat.mod_lt (d.next.1.toNat * (top.toNat + 1)) (by decide : 0 < UInt64.size))
        (Nat.lt_trans (upper_lt hsecond hchoices) hfits)
      rw [UInt64.toNat_ofNat']
      exact Nat.le_trans (Nat.mod_le _ _) (by omega)
    · rw [if_neg hcarry, UInt64.toNat_ofNat']
      exact Nat.le_trans (Nat.mod_le _ _) (Nat.le_of_lt_succ (upper_lt hfirst hchoices))

end Draws

/-! ## The window -/

/--
A run in the last `flex` of an interval that begins now, or in all of the interval when `flex` is
longer. Where the interval reaches beyond the end of time, it is cut off there.
-/
structure RunsInWindow (now interval flex next : UInt64) : Prop where
  earliest :
    min (now.toNat + interval.toNat - (min flex interval).toNat) maxMillis.toNat ≤ next.toNat
  latest : next.toNat ≤ min (now.toNat + interval.toNat) maxMillis.toNat

variable {now interval flex next : UInt64}

theorem RunsInWindow.now_le (h : RunsInWindow now interval flex next) : now ≤ next := by
  have hearliest := h.earliest
  have hflex := UInt64.le_iff_toNat_le.1 (Std.min_le_right : min flex interval ≤ interval)
  have hnow : now.toNat ≤ maxMillis.toNat := Nat.le_of_lt_succ now.toNat_lt
  rw [UInt64.le_iff_toNat_le]
  omega

/-- Without flex there is one moment in the window, the end of the interval. -/
theorem RunsInWindow.eq_of_zero_flex (h : RunsInWindow now interval 0 next) :
    next = satAdd now interval := by
  have hearliest := h.earliest
  have hlatest := h.latest
  have hflex : (min 0 interval).toNat = 0 :=
    Nat.le_zero.1 (UInt64.le_iff_toNat_le.1 (Std.min_le_left : min 0 interval ≤ 0))
  apply UInt64.toNat_inj.1
  rw [toNat_satAdd]
  omega

/-- Without a flex nothing is drawn, and what is drawn is at most the flex. -/
theorem toNat_offset_le (flex : UInt64) (d : Draws) :
    (if flex = 0 then (0, d) else d.upTo flex).1.toNat ≤ flex.toNat := by
  split
  · exact Nat.zero_le _
  · exact d.toNat_upTo_le flex

theorem nextPeriodicRun_runsInWindow (now interval flex : UInt64) (d : Draws) :
    RunsInWindow now interval flex (nextPeriodicRun now interval flex d).1 := by
  have hflex : min flex interval ≤ interval := Std.min_le_right
  have hrest := UInt64.toNat_sub_of_le _ _ hflex
  have hoffset := toNat_offset_le (min flex interval) d
  rw [UInt64.le_iff_toNat_le] at hflex
  -- the first sum may already have come to the end of time, where the second one stays
  constructor <;>
    simp only [nextPeriodicRun, toNat_satAdd] <;>
    omega

/-- The wait until a run in the window reaches from now to that run. -/
theorem RunsInWindow.toNat_delay (h : RunsInWindow now interval flex next) :
    now.toNat + (next - now).toNat = next.toNat := by
  rw [UInt64.toNat_sub_of_le _ _ h.now_le]
  exact Nat.add_sub_of_le (UInt64.le_iff_toNat_le.1 h.now_le)

/-- A task that comes back draws its next run, and nothing else. -/
theorem run_comesBack (maxBackoffMs : UInt64) (row : Row) (now : UInt64) (y : System) :
    Program.run System.answer (Verdict.comesBack.decide maxBackoffMs row now) y
      = (.finished (.ok (.comesBack row now
          (nextPeriodicRun now row.spec.intervalMs row.spec.flexMs y.draws).1)),
        { y with draws := (nextPeriodicRun now row.spec.intervalMs row.spec.flexMs y.draws).2 }) :=
  rfl

/--
**A periodic task comes back in its window.** Whatever the words are that are drawn from, the next
run is in the last `flex` of the interval. So it is never before now, and the delay that the
platform is told is the time from now to the next run that is stored.
-/
theorem comes_back_in_window :
    (∀ (now interval flex : UInt64) (d : Draws),
      RunsInWindow now interval flex (nextPeriodicRun now interval flex d).1)
    ∧ ∀ (maxBackoffMs : UInt64) (row : Row) (now : UInt64) (y : System),
      ∃ (decision : Decision) (next delayMs : UInt64) (y' : System),
        Program.run System.answer (Verdict.comesBack.decide maxBackoffMs row now) y
            = (.finished (.ok decision), y')
          ∧ ((RowStep.complete decision.completion).change row).nextRunMs = next
          ∧ decision.outcome = .again row.id row.spec delayMs
          ∧ RunsInWindow now row.spec.intervalMs row.spec.flexMs next
          ∧ now ≤ next
          ∧ delayMs.toNat = next.toNat - now.toNat
          ∧ now.toNat + delayMs.toNat = next.toNat := by
  refine ⟨nextPeriodicRun_runsInWindow, fun maxBackoffMs row now y => ?_⟩
  have hwindow := nextPeriodicRun_runsInWindow now row.spec.intervalMs row.spec.flexMs y.draws
  exact ⟨_, _, _, _, run_comesBack maxBackoffMs row now y, rfl, rfl, hwindow, hwindow.now_le,
    UInt64.toNat_sub_of_le _ _ hwindow.now_le, hwindow.toNat_delay⟩

/-! ## The interval -/

/-- A span has a whole millisecond when it is at least one long. -/
theorem Span.toMillis_pos (s : Span) : 0 < s.toMillis ↔ (ofMillis 1).nanos ≤ s.nanos := by
  have hmax : maxMillis.toNat = 18446744073709551615 := rfl
  have hone : (ofMillis 1).nanos = 1000000 := rfl
  rw [UInt64.lt_iff_toNat_lt, toNat_toMillis, hone]
  show 0 < _ ↔ _
  omega

theorem Schedule.normalize_periodic {interval flex initialDelay : Span} {n : NormalizedSchedule}
    (h : (periodic interval flex initialDelay).normalize = .ok n) :
    n = ⟨.periodic, initialDelay, interval, flex⟩ := by
  unfold normalize at h
  dsimp only at h
  split at h
  · cases h
  · split at h
    · cases h
    · exact (Except.ok.inj h).symm

/-- What is stored of a periodic schedule. -/
theorem Request.normalize_periodic {request : Request} {registry : Registry} {now : UInt64}
    {config : Config} {n : NormalizedRequest} {interval flex initialDelay : Span}
    (hschedule : request.schedule = .periodic interval flex initialDelay)
    (h : request.normalize registry now config = .ok n) :
    n.spec.isPeriodic = true ∧ n.spec.intervalMs = interval.toMillis
      ∧ n.spec.flexMs = flex.toMillis := by
  obtain ⟨schedule, jitter, multiplier, serialized, hnormal, -, -, -, -, hspec⟩ :=
    normalize_eq_ok h
  rw [hschedule] at hnormal
  obtain rfl := Schedule.normalize_periodic hnormal
  rw [hspec]
  exact ⟨rfl, rfl, rfl⟩

/-- A sum is beyond its first term unless nothing is added, or time has ended. -/
theorem lt_satAdd_iff (now ms : UInt64) : now < satAdd now ms ↔ now ≠ maxMillis ∧ 0 < ms := by
  have hmax : maxMillis.toNat = 18446744073709551615 := rfl
  have hnow := now.toNat_lt
  rw [UInt64.lt_iff_toNat_lt, UInt64.lt_iff_toNat_lt, toNat_satAdd, Ne, ← UInt64.toNat_inj]
  show _ ↔ _ ∧ 0 < _
  omega

/--
**An interval is stored as nothing unless it has a whole millisecond.** A periodic request is
accepted with any interval above zero, but only those of a millisecond and more are positive in the
description. A task without flex that has succeeded comes back later than now if its interval is one
of these, and time has not ended; otherwise it comes back at once.
-/
theorem interval_stored_positive_iff {request : Request} {registry : Registry} {now : UInt64}
    {config : Config} {n : NormalizedRequest} {interval flex initialDelay : Span}
    (hschedule : request.schedule = .periodic interval flex initialDelay)
    (h : request.normalize registry now config = .ok n) :
    (0 < n.spec.intervalMs ↔ (Span.ofMillis 1).nanos ≤ interval.nanos)
    ∧ (n.spec.flexMs = 0 →
      ∀ (maxBackoffMs : UInt64) (row : Row) (time : UInt64) (y : System), row.spec = n.spec →
        ∃ (next : UInt64) (y' : System),
          Program.run System.answer
              ((Verdict.ofResult row time .success).decide maxBackoffMs row time) y
            = (.finished (.ok (.comesBack row time next)), y')
            ∧ ((RowStep.complete
                (Decision.comesBack row time next).completion).change row).nextRunMs = next
            ∧ (time < next ↔ time ≠ maxMillis ∧ (Span.ofMillis 1).nanos ≤ interval.nanos)) := by
  obtain ⟨hperiodic, hinterval, -⟩ := Request.normalize_periodic hschedule h
  have hpositive : 0 < n.spec.intervalMs ↔ (Span.ofMillis 1).nanos ≤ interval.nanos := by
    rw [hinterval]
    exact interval.toMillis_pos
  refine ⟨hpositive, fun hflex maxBackoffMs row time y hrow => ?_⟩
  have hverdict : Verdict.ofResult row time .success = .comesBack := by
    simp only [Verdict.ofResult, hrow, hperiodic, if_true]
  have hwindow := nextPeriodicRun_runsInWindow time row.spec.intervalMs row.spec.flexMs y.draws
  rw [hverdict]
  refine ⟨_, _, run_comesBack maxBackoffMs row time y, rfl, ?_⟩
  rw [hrow, hflex] at hwindow ⊢
  rw [hwindow.eq_of_zero_flex, lt_satAdd_iff, hpositive]

namespace Rehearsal

/-- A bare task that runs again and again, without flex. -/
def everySpan (interval : Span) : Request :=
  .periodic { type := bare, values := [] } interval .zero

end Rehearsal

open Rehearsal in
/-- Every whole second: the interval is positive, and the task comes back later. -/
theorem interval_stored_positive_every_second :
    ∃ n, (everySpan ⟨1000000000⟩).normalize scheduler.registry 0 scheduler.config = .ok n
      ∧ 0 < n.spec.intervalMs
      ∧ ∃ next y', Program.run System.answer
          ((Verdict.ofResult (.fresh first n.spec 0 0) 7 .success).decide 300000
            (.fresh first n.spec 0 0) 7) system
          = (.finished (.ok (.comesBack (.fresh first n.spec 0 0) 7 next)), y') ∧ 7 < next := by
  have haccepted : ((everySpan ⟨1000000000⟩).normalize scheduler.registry 0
      scheduler.config).toBool = true := by decide +kernel
  cases hn : (everySpan ⟨1000000000⟩).normalize scheduler.registry 0 scheduler.config with
  | error fault => rw [hn] at haccepted; cases haccepted
  | ok n =>
    obtain ⟨hpositive, hback⟩ := interval_stored_positive_iff rfl hn
    obtain ⟨-, -, hflex⟩ := Request.normalize_periodic rfl hn
    obtain ⟨next, y', hrun, -, hlater⟩ :=
      hback (hflex.trans rfl) 300000 (.fresh first n.spec 0 0) 7 system rfl
    exact ⟨n, rfl, hpositive.2 (by decide), next, y', hrun, hlater.2 (by decide)⟩

open Rehearsal in
/--
A nanosecond short of a millisecond is accepted as an interval, and stored as none: the task that
has succeeded comes back at once, whenever that is and whatever is drawn.
-/
theorem interval_short_of_millisecond :
    ∃ n, (everySpan ⟨999999⟩).normalize scheduler.registry 1000 scheduler.config = .ok n
      ∧ scheduler.config.fault? = none
      ∧ n.spec.intervalMs = 0 ∧ n.spec.flexMs = 0
      ∧ ∀ (time : UInt64) (d : Draws),
        (nextPeriodicRun time n.spec.intervalMs n.spec.flexMs d).1 = time := by
  have haccepted : ((everySpan ⟨999999⟩).normalize scheduler.registry 1000
      scheduler.config).toBool = true := by decide +kernel
  cases hn : (everySpan ⟨999999⟩).normalize scheduler.registry 1000 scheduler.config with
  | error fault => rw [hn] at haccepted; cases haccepted
  | ok n =>
    obtain ⟨-, hinterval, hflex⟩ := Request.normalize_periodic rfl hn
    refine ⟨n, rfl, by decide +kernel, hinterval.trans rfl, hflex.trans rfl, fun time d => ?_⟩
    have hwindow := nextPeriodicRun_runsInWindow time n.spec.intervalMs n.spec.flexMs d
    rw [hinterval, hflex] at hwindow ⊢
    rw [RunsInWindow.eq_of_zero_flex hwindow]
    apply UInt64.toNat_inj.1
    rw [toNat_satAdd]
    exact Nat.min_eq_left (Nat.le_of_lt_succ time.toNat_lt)

end BackgroundTasks
