import BackgroundTasks.Proofs.Cycles
import BackgroundTasks.Proofs.Floats.Arithmetic
import BackgroundTasks.Proofs.WellFormed

/-!
# Delays of retries

An exponential delay is drawn from a band around the raw one, and a draw needs bounds that are
finite. Only the raw delay is looked at for that, and the lower bound. The upper bound is at most
twice the raw delay, so there is one thing that can go wrong: that the raw delay is a float and its
double is not. Then the band starts far above any ceiling and no draw is made, as long as it starts
above zero, that is, unless the jitter is the whole of the delay.
-/

namespace BackgroundTasks

open Number.Binary64

variable {x lo hi : Float} {l h : Nat}

/-! ## Draws -/

/-- A draw returns if its upper bound is finite. -/
theorem Draws.isSome_between (d : Draws) (hlo : units lo = some l) (hhi : units hi = some h)
    (hle : l ≤ h) : (d.between lo hi).isSome = true ↔ h < limit := by
  have hordered : lo ≤ hi := (le_iff hlo hhi).2 hle
  constructor
  · intro hdrawn
    rw [← isFinite_iff hhi]
    unfold between at hdrawn
    cases hfinite : hi.isFinite with
    | true => rfl
    | false =>
      rw [hfinite] at hdrawn
      simp at hdrawn
  · intro hlt
    have hwidth : units (hi - lo) = some (min (rounded ((h - l) * 2 ^ unitPlaces)) limit) :=
      units_sub hhi hlo hlt hle
    have hsmall : rounded ((h - l) * 2 ^ unitPlaces) ≤ h :=
      rounded_le (fits_of_units hhi) (Nat.mul_le_mul_right _ (Nat.sub_le h l))
    have hfinite : (hi - lo).isFinite = true := (isFinite_iff hwidth).2 (by omega)
    unfold between
    rw [(isFinite_iff hlo).2 (by omega), (isFinite_iff hhi).2 hlt, hfinite]
    simp [hordered]

namespace Backoff

/-! ## Cut off -/

/-- **What is cut off at a ceiling is not above it** when it is taken as a whole number. -/
theorem toNat_clamp_le {ceiling : UInt64} (h : ceiling.toNat ≤ 2 ^ 53) :
    (clamp 0.0 ceiling.toFloat x).toUInt64.toNat ≤ ceiling.toNat := by
  have hceiling := units_toFloat_exact h
  refine toNat_toUInt64_le fun n hn => ?_
  unfold clamp at hn
  generalize (if x < 0.0 then 0.0 else x) = x at hn
  dsimp only at hn
  split at hn
  · exact Nat.le_of_eq (Option.some.inj (hn.symm.trans hceiling))
  · next hnot =>
    exact Nat.le_of_not_lt fun hlt => hnot ((lt_iff hceiling hn).2 hlt)

/-! ## The band -/

/-- Half of the smallest power of two that is too large for a float. -/
def half : Float := Float.ofBits 0x7FE0000000000000

/--
The delay of a retry gets out of hand: the jitter is all of the raw delay, and the raw delay is a
float, but twice as much is not.
-/
structure Overflows (b : Backoff) (retry : UInt32) : Prop where
  growth : b.growth = .exponential
  jitter : 1.0 ≤ b.jitter
  finite : (b.raw retry).isFinite = true
  raw : half ≤ b.raw retry

/-- The number of units in half of what is too large. -/
@[irreducible] def halfUnits : Nat := 2 ^ (limitPlaces - 1)

theorem halfUnits_eq : halfUnits = 2 ^ (limitPlaces - 1) := by
  unfold halfUnits
  rfl

theorem units_half : units half = some halfUnits := by
  have hbits : half.toBits = 0x7FE0000000000000 := by decide +kernel
  have hplaces : 52 + (971 - leastExponent).toNat = limitPlaces - 1 := by decide
  rw [halfUnits_eq, ← hplaces]
  exact units_of_bits hbits rfl

theorem unsigned_powLoop {fuel n : Nat} {a r : Float} (ha : Unsigned a) (hr : Unsigned r) :
    Unsigned (powLoop fuel n a r) := by
  induction fuel generalizing n a r with
  | zero => exact hr
  | succ fuel ih =>
    have hstep : Unsigned (if n % 2 = 1 then r * a else r) := by
      split
      · exact hr.mul ha
      · exact hr
    unfold powLoop
    dsimp only
    split
    · exact hstep
    · exact ih (ha.mul ha) hstep

/-- The raw delay is not negative, as the multiplier is not. -/
theorem unsigned_raw {b : Backoff} (retry : UInt32)
    (h : Unsigned (b.multiplier.getD standardMultiplier)) : Unsigned (b.raw retry) :=
  have hbase : Unsigned b.baseMs.toFloat := .inr ⟨_, units_toFloat b.baseMs⟩
  have hone : Unsigned 1.0 := .inr ⟨_, units_one⟩
  hbase.mul (unsigned_powLoop h hone)

/-! ### The factors -/

variable {j : Float} {n : Nat}

/-- The lower factor of the band is zero for all of the jitter, and else at least its last digit. -/
theorem units_one_sub (hj : units j = some n) (hle : n ≤ 2 ^ unitPlaces) :
    ∃ c, units (1.0 - j) = some c ∧ c ≤ 2 ^ unitPlaces ∧ (n = 2 ^ unitPlaces → c = 0)
      ∧ (n < 2 ^ unitPlaces → 2 ^ (unitPlaces - 53) ≤ c) := by
  refine ⟨_, units_sub units_one hj one_lt_limit hle, ?_, ?_, fun hlt => Nat.le_min.2 ⟨?_, ?_⟩⟩
  · exact Nat.le_trans (Nat.min_le_left _ _)
      (rounded_le (fits_two_pow _) (Nat.mul_le_mul_right _ (Nat.sub_le _ n)))
  · rintro rfl
    rw [Nat.sub_self, Nat.zero_mul, rounded_zero, Nat.zero_min]
  · have hplaces : unitPlaces - 53 + 53 = unitPlaces := by
      rw [unitPlaces_eq]
    have hbelow : n + 2 ^ (unitPlaces - 53) ≤ 2 ^ unitPlaces :=
      hplaces ▸ (fits_of_units hj).add_two_pow_le (hplaces.symm ▸ hlt)
    exact le_rounded (fits_two_pow _) (Nat.mul_le_mul_right _ (by omega))
  · exact Nat.le_trans (Nat.pow_le_pow_right (by decide) (Nat.sub_le _ _))
      (Nat.le_of_lt one_lt_limit)

/-- The upper factor of the band is at least one, and at most two. -/
theorem units_one_add (hj : units j = some n) (hle : n ≤ 2 ^ unitPlaces) :
    ∃ c, units (1.0 + j) = some c ∧ 2 ^ unitPlaces ≤ c ∧ c ≤ 2 ^ unitPlaces * 2
      ∧ (n = 2 ^ unitPlaces → c = 2 ^ unitPlaces * 2) := by
  have hfits : Fits (2 ^ unitPlaces * 2) := ⟨1, unitPlaces + 1, by decide, (Nat.one_mul _).symm⟩
  refine ⟨_, units_add units_one hj one_lt_limit (Nat.lt_of_le_of_lt hle one_lt_limit),
    Nat.le_min.2 ⟨?_, ?_⟩, ?_, ?_⟩
  · exact le_rounded (fits_two_pow _) (Nat.mul_le_mul_right _ (Nat.le_add_right _ n))
  · exact Nat.le_of_lt one_lt_limit
  · exact Nat.le_trans (Nat.min_le_left _ _)
      (rounded_le hfits (Nat.mul_le_mul_right _ (by omega)))
  · rintro rfl
    rw [← Nat.mul_two, rounded_of_fits hfits, Nat.min_eq_left (Nat.le_of_lt two_lt_limit)]

/-- A jitter above zero is cut off at one. -/
theorem units_clamp_jitter (hpos : 0.0 < clamp 0.0 1.0 x) :
    ∃ n, units (clamp 0.0 1.0 x) = some n ∧ n ≤ 2 ^ unitPlaces
      ∧ (n = 2 ^ unitPlaces ↔ 1.0 ≤ x) := by
  obtain ⟨n, hn, hn0⟩ := exists_units_of_lt units_zero hpos
  refine ⟨n, hn, ?_⟩
  unfold clamp at hn
  dsimp only at hn
  by_cases hneg : x < 0.0
  · -- then it is not above zero
    rw [if_pos hneg, if_neg (by decide)] at hn
    obtain rfl := Option.some.inj (units_zero.symm.trans hn)
    exact absurd hn0 (Nat.lt_irrefl 0)
  rw [if_neg hneg] at hn
  split at hn
  · next hgt =>
    obtain rfl := Option.some.inj (units_one.symm.trans hn)
    obtain ⟨m, hm, hlt⟩ := exists_units_of_lt units_one hgt
    exact ⟨Nat.le_refl _, iff_of_true rfl ((le_iff units_one hm).2 (Nat.le_of_lt hlt))⟩
  · next hnot =>
    have hle : n ≤ 2 ^ unitPlaces :=
      Nat.le_of_not_lt fun hlt => hnot ((lt_iff units_one hn).2 hlt)
    rw [le_iff units_one hn]
    exact ⟨hle, fun h => Nat.le_of_eq h.symm, Nat.le_antisymm hle⟩

theorem clamp_jitter_pos (h : 1.0 ≤ x) : 0.0 < clamp 0.0 1.0 x := by
  obtain ⟨n, hn, hle⟩ := exists_units_of_le units_one h
  have hpos : 0 < n := Nat.lt_of_lt_of_le (Nat.two_pow_pos _) hle
  unfold clamp
  dsimp only
  rw [if_neg (fun hlt => Nat.not_lt_zero n ((lt_iff hn units_zero).1 hlt))]
  split
  · exact (lt_iff units_zero units_one).2 (Nat.two_pow_pos _)
  · exact (lt_iff units_zero hn).2 hpos

/-! ### The bounds -/

variable {a c : Nat}

theorem min_limit_mono (h : a ≤ c) : min a limit ≤ min c limit := by omega

/-- Below half of what is too large, twice as much is not too large. -/
theorem rounded_mul_lt_limit (ha : Fits a) (hlt : a < halfUnits) (hc : c ≤ 2 ^ unitPlaces * 2) :
    rounded (a * c) < limit := by
  obtain ⟨k, hk⟩ : ∃ k, limitPlaces = k + 54 := ⟨limitPlaces - 54, by decide⟩
  have hlast : limitPlaces - 1 = k + 53 := by omega
  have hsplit : halfUnits = 2 ^ (k + 53) := by rw [halfUnits_eq, hlast]
  have hbelow : a + 2 ^ k ≤ 2 ^ 53 * 2 ^ k := by
    rw [← Nat.pow_add, Nat.add_comm 53]
    exact ha.add_two_pow_le (hsplit ▸ hlt)
  have hdigits : a ≤ (2 ^ 53 - 1) * 2 ^ k := by
    rw [Nat.sub_mul]
    omega
  have htop : Fits ((2 ^ 53 - 1) * 2 ^ (k + 1)) := ⟨2 ^ 53 - 1, k + 1, by decide, rfl⟩
  have hproduct : a * c ≤ (2 ^ 53 - 1) * 2 ^ (k + 1) * 2 ^ unitPlaces := by
    calc a * c ≤ (2 ^ 53 - 1) * 2 ^ k * (2 ^ unitPlaces * 2) := Nat.mul_le_mul hdigits hc
      _ = (2 ^ 53 - 1) * 2 ^ (k + 1) * 2 ^ unitPlaces := by
          rw [Nat.pow_add_one 2 k, Nat.mul_comm (2 ^ unitPlaces), ← Nat.mul_assoc,
            Nat.mul_assoc _ (2 ^ k)]
  calc rounded (a * c) ≤ (2 ^ 53 - 1) * 2 ^ (k + 1) := rounded_le htop hproduct
    _ < 2 ^ 53 * 2 ^ (k + 1) := Nat.mul_lt_mul_of_pos_right (by decide) (Nat.two_pow_pos _)
    _ = 2 ^ (k + 54) := by rw [← Nat.pow_add, Nat.add_comm, Nat.add_assoc]
    _ = limit := by rw [limit_eq, hk]

/-- Twice as much as half of what is too large is too large. -/
theorem limit_le_rounded_mul (ha : Fits a) (hge : halfUnits ≤ a) :
    limit ≤ rounded (a * (2 ^ unitPlaces * 2)) := by
  have hlast : limitPlaces = limitPlaces - 1 + 1 := by decide
  have hdouble : a * (2 ^ unitPlaces * 2) = a * 2 ^ 1 * 2 ^ unitPlaces := by
    rw [Nat.mul_comm _ 2, ← Nat.mul_assoc, Nat.pow_one]
  calc limit = halfUnits * 2 ^ 1 := by rw [limit_eq, halfUnits_eq, ← Nat.pow_add, ← hlast]
    _ ≤ a * 2 ^ 1 := Nat.mul_le_mul_right _ hge
    _ = rounded (a * (2 ^ unitPlaces * 2)) := by rw [hdouble, rounded_of_fits ha.mul_two_pow]

/-- From half of what is too large on, a band that does not start at zero starts at the ceiling. -/
theorem le_rounded_mul {m : Nat} (ha : halfUnits ≤ a) (hc : 2 ^ (unitPlaces - 53) ≤ c)
    (hm : m < UInt64.size) :
    rounded (m * 2 ^ unitPlaces * 2 ^ unitPlaces) ≤ rounded (a * c) := by
  have hplaces : 64 + unitPlaces + unitPlaces ≤ limitPlaces - 1 + (unitPlaces - 53) := by
    rw [unitPlaces_eq]
    decide
  refine rounded_mono ?_
  calc m * 2 ^ unitPlaces * 2 ^ unitPlaces ≤ 2 ^ 64 * 2 ^ unitPlaces * 2 ^ unitPlaces :=
        Nat.mul_le_mul_right _ (Nat.mul_le_mul_right _ (Nat.le_of_lt hm))
    _ = 2 ^ (64 + unitPlaces + unitPlaces) := by rw [Nat.pow_add, Nat.pow_add]
    _ ≤ 2 ^ (limitPlaces - 1 + (unitPlaces - 53)) := Nat.pow_le_pow_right (by decide) hplaces
    _ = halfUnits * 2 ^ (unitPlaces - 53) := by rw [halfUnits_eq, Nat.pow_add]
    _ ≤ a * c := Nat.mul_le_mul ha hc

/--
**When a delay can be drawn.** The band of a raw delay starts at the ceiling, or a draw from it
returns, unless the jitter is one and the raw delay is half of what is too large.
-/
theorem band_returns_iff {r : Float} {ceiling : UInt64} (d : Draws) (hr : units r = some a)
    (ha : a < limit) (hj : units j = some n) (hn : n ≤ 2 ^ unitPlaces) (hceiling : ceiling ≠ 0) :
    ceiling.toFloat ≤ r * (1.0 - j) ∨ (d.between (r * (1.0 - j)) (r * (1.0 + j))).isSome = true
      ↔ ¬ (n = 2 ^ unitPlaces ∧ halfUnits ≤ a) := by
  obtain ⟨low, hlow, hlowle, hnone, hsome⟩ := units_one_sub hj hn
  obtain ⟨high, hhigh, hhighge, hhighle, hboth⟩ := units_one_add hj hn
  have hlower := units_mul hr hlow ha (Nat.lt_of_le_of_lt hlowle one_lt_limit)
  have hupper := units_mul hr hhigh ha (Nat.lt_of_le_of_lt hhighle two_lt_limit)
  have hordered : rounded (a * low) ≤ rounded (a * high) :=
    rounded_mono (Nat.mul_le_mul_left a (Nat.le_trans hlowle hhighge))
  rw [Draws.isSome_between d hlower hupper (min_limit_mono hordered),
    le_iff (units_toFloat ceiling) hlower]
  constructor
  · rintro hreturns ⟨hone, hhalf⟩
    rw [hnone hone, hboth hone, Nat.mul_zero, rounded_zero, Nat.zero_min] at hreturns
    rcases hreturns with hreached | hfinite
    · -- the ceiling is at least one, and the band starts at zero
      have hceilingpos : 1 ≤ ceiling.toNat :=
        Nat.pos_of_ne_zero fun h => hceiling (UInt64.toNat_inj.1 h)
      have hpos : 2 ^ unitPlaces ≤ rounded (ceiling.toNat * 2 ^ unitPlaces * 2 ^ unitPlaces) :=
        le_rounded (fits_two_pow _) (Nat.mul_le_mul_right _ (Nat.le_mul_of_pos_left _ hceilingpos))
      have hnonzero := Nat.lt_min.2 ⟨Nat.lt_of_lt_of_le (Nat.two_pow_pos _) hpos, limit_pos⟩
      exact Nat.not_lt.2 hreached hnonzero
    · have hlarge := limit_le_rounded_mul (fits_of_units hr) hhalf
      exact Nat.not_le.2 hfinite (Nat.le_min.2 ⟨hlarge, Nat.le_refl _⟩)
  · intro hnot
    rcases Nat.lt_or_ge a halfUnits with hlt | hge
    · have hsmall := rounded_mul_lt_limit (fits_of_units hr) hlt hhighle
      exact .inr (Nat.lt_of_le_of_lt (Nat.min_le_left _ _) hsmall)
    · have hfraction : n < 2 ^ unitPlaces := Nat.lt_of_le_of_ne hn fun h => hnot ⟨h, hge⟩
      have hreached := le_rounded_mul hge (hsome hfraction) ceiling.toNat_lt
      exact .inl (min_limit_mono hreached)

/-! ### Drawn delays -/

variable {b : Backoff} {retry : UInt32}

/-- Where there is a jitter, the band has to start at the ceiling, or a draw from it to return. -/
theorem delay_jittered (d : Draws) (hgrowth : b.growth = .exponential)
    (hfinite : (b.raw retry).isFinite = true) (hjitter : 0.0 < clamp 0.0 1.0 b.jitter) :
    (b.delay retry d).isSome = true
      ↔ b.maxMs.toFloat ≤ b.raw retry * (1.0 - clamp 0.0 1.0 b.jitter)
        ∨ (d.between (b.raw retry * (1.0 - clamp 0.0 1.0 b.jitter))
            (b.raw retry * (1.0 + clamp 0.0 1.0 b.jitter))).isSome = true := by
  unfold delay
  rw [hgrowth]
  dsimp only
  rw [hfinite, if_neg (by decide), if_pos hjitter]
  split
  · next hle => exact iff_of_true rfl (.inl hle)
  · next hlt => rw [Option.isSome_map, or_iff_right hlt]

/-- **There is a delay unless it gets out of hand.** -/
theorem isSome_delay_iff (d : Draws) (hmultiplier : Unsigned (b.multiplier.getD standardMultiplier))
    (hmax : b.maxMs ≠ 0) : (b.delay retry d).isSome = true ↔ ¬ b.Overflows retry := by
  cases hgrowth : b.growth with
  | linear =>
    refine iff_of_true ?_ fun h => nomatch hgrowth.symm.trans h.growth
    unfold delay
    rw [hgrowth]
    rfl
  | exponential =>
  cases hfinite : (b.raw retry).isFinite with
  | false =>
    refine iff_of_true ?_ fun h => nomatch hfinite.symm.trans h.finite
    unfold delay
    rw [hgrowth]
    dsimp only
    rw [hfinite]
    rfl
  | true =>
  by_cases hjitter : 0.0 < clamp 0.0 1.0 b.jitter
  · obtain ⟨n, hn, hle, hone⟩ := units_clamp_jitter hjitter
    obtain ⟨a, ha⟩ : ∃ a, units (b.raw retry) = some a := by
      refine (unsigned_raw retry hmultiplier).resolve_left fun hnan => ?_
      have hunpacked : (b.raw retry).toModel.unpack.isFinite = true := hfinite
      rw [hnan] at hunpacked
      cases hunpacked
    rw [delay_jittered d hgrowth hfinite hjitter,
      band_returns_iff d ha ((isFinite_iff ha).1 hfinite) hn hle hmax, hone, ← le_iff units_half ha]
    exact not_congr ⟨fun h => ⟨hgrowth, h.1, hfinite, h.2⟩, fun h => ⟨h.jitter, h.raw⟩⟩
  · refine iff_of_true ?_ fun h => hjitter (clamp_jitter_pos h.jitter)
    unfold delay
    rw [hgrowth]
    dsimp only
    rw [hfinite, if_neg (by decide), if_neg hjitter]
    rfl

/-- A delay is not above the ceiling, if it grows exponentially and the ceiling is a float. -/
theorem delay_le {d d' : Draws} {delayMs : UInt64} (hgrowth : b.growth = .exponential)
    (hmax : b.maxMs.toNat ≤ 2 ^ 53) (h : b.delay retry d = some (delayMs, d')) :
    delayMs ≤ b.maxMs := by
  have hclamp (x : Float) : (clamp 0.0 b.maxMs.toFloat x).toUInt64 ≤ b.maxMs :=
    UInt64.le_iff_toNat_le.2 (toNat_clamp_le hmax)
  unfold delay at h
  rw [hgrowth] at h
  dsimp only at h
  split at h
  · cases h
    exact UInt64.le_refl _
  split at h
  · split at h
    · cases h
      exact UInt64.le_refl _
    · obtain ⟨⟨drawn, d''⟩, -, hdrawn⟩ := Option.map_eq_some_iff.1 h
      cases hdrawn
      exact hclamp drawn
  · cases h
    exact hclamp _

end Backoff

/-! ## Stored descriptions -/

theorem Config.maxBackoffMs_of_fault? {config : Config} (h : config.fault? = none) :
    config.maxBackoffMs ≠ 0 := by
  unfold fault? at h
  split at h
  · cases h
  split at h
  · cases h
  next hmax => exact hmax

/-- What a request comes to has a multiplier above zero, or none of its own. -/
theorem Spec.WellFormed.unsigned_multiplier {config : Config} {spec : Spec}
    (h : spec.WellFormed config) :
    Unsigned (spec.backoffMultiplier.getD Backoff.standardMultiplier) := by
  cases hgrowth : spec.growth with
  | linear =>
    have hbits : Backoff.standardMultiplier.toBits = 0x4000000000000000 := by decide +kernel
    rw [(h.linear hgrowth).1]
    exact .inr ⟨_, units_of_bits hbits rfl⟩
  | exponential =>
    obtain ⟨m, hm, -, hpos⟩ := (h.exponential hgrowth).1
    obtain ⟨n, hn, -⟩ := exists_units_of_lt units_zero hpos
    rw [hm]
    exact .inr ⟨n, hn⟩

/-- What a request comes to has its delays unless they get out of hand. -/
theorem Request.isSome_delay_iff {request : Request} {registry : Registry} {submittedAt : UInt64}
    {config : Config} {n : NormalizedRequest} (hconfig : config.fault? = none)
    (hn : request.normalize registry submittedAt config = .ok n) (baseMs : UInt64) (retry : UInt32)
    (d : Draws) :
    (((Backoff.ofSpec n.spec config.maxBackoffMs).withBase baseMs).delay retry d).isSome = true
      ↔ ¬ ((Backoff.ofSpec n.spec config.maxBackoffMs).withBase baseMs).Overflows retry :=
  Backoff.isSome_delay_iff d (wellFormed_normalize hconfig hn).unsigned_multiplier
    (Config.maxBackoffMs_of_fault? hconfig)

/-! ## Executions -/

/-- The cycle of a task has sent it back to the queue, with one more retry in its stored row. -/
def SentBack (id : TaskId) (found : Row) (result : Except Failure (Option RunOutcome))
    (past : List Mark) : Prop :=
  ∃ (delayMs : UInt64) (stored : Row) (completion : Completion) (entry : LogEntry)
    (before after : TaskTable),
    result = .ok (some (.again id found.spec delayMs))
      ∧ .stored (.complete id completion entry) (.ok true) before after ∈ past
      ∧ after.find? id = some stored ∧ stored.state = .enqueued
      ∧ stored.retries.toNat = found.retries.toNat + 1

/-- A cycle is stranded at a delay that gets out of hand, and its task's row is left running. -/
def LeftRunning (s : Scheduler) (id : TaskId) (ending : WorkEnding) (c : Call) (y : System) :
    Prop :=
  ∃ claimed baseMs, Stranded s id ending claimed baseMs c y ∧ claimed.state = .running
    ∧ ((Backoff.ofSpec claimed.spec s.config.maxBackoffMs).withBase baseMs).Overflows
        (Decision.nextRetry claimed)

variable {id : TaskId} {found : Row} {ending : WorkEnding} {past : List Mark}
  {result : Except Failure (Option RunOutcome)}

/-- The records of a retry say that the task has been sent back. -/
theorem CycleTells.sentBack (h : CycleTells id found ending result past) (hid : found.id = id)
    (hfate : Fate.of found ending = .retried) : SentBack id found result past := by
  obtain ⟨claimed, records, claimedAt, startedAt, decidedAt, handle, handle', completion, t₀, t₁,
    t₂, t₃, rfl, rfl, -, hafter, -, rfl, hagree⟩ := h
  have hretried : Fate.of ((RowStep.claim claimedAt).change (found.withHandle handle)) ending
      = .retried := hfate
  rw [hretried] at hagree
  obtain ⟨delayMs, houtcome, -⟩ := hagree.settles
  refine ⟨delayMs, records.row, completion, records.entry, t₂, t₃, ?_, by simp, hafter,
    hagree.state, hagree.retries⟩
  rw [houtcome]
  subst hid
  rfl

/--
**When a retry has its delay.** Under a configuration without faults, and with what a request comes
to, the delay before a retry can be computed from any base, for any number of the retry and with any
words, unless it gets out of hand; and what grows exponentially is never above the ceiling. So if an
attempt on a task in the queue fails in a way that may pass, and retries are left, the cycle sends
the task back to the queue, whatever others do meanwhile that neither breaks the store nor touches
the row. Only a delay that gets out of hand keeps it from that; then the row is left running.
-/
theorem delay_returns_iff {request : Request} {registry : Registry} {submittedAt : UInt64}
    {config : Config} {n : NormalizedRequest} (hconfig : config.fault? = none)
    (hn : request.normalize registry submittedAt config = .ok n) :
    (∀ baseMs retry d,
        (((Backoff.ofSpec n.spec config.maxBackoffMs).withBase baseMs).delay retry d).isSome = true
          ↔ ¬ ((Backoff.ofSpec n.spec config.maxBackoffMs).withBase baseMs).Overflows retry)
      ∧ (n.spec.growth = .exponential → config.maxBackoffMs.toNat ≤ 2 ^ 53 →
        ∀ baseMs retry d delayMs d',
          ((Backoff.ofSpec n.spec config.maxBackoffMs).withBase baseMs).delay retry d
            = some (delayMs, d') → delayMs ≤ config.maxBackoffMs)
      ∧ ∀ (s : Scheduler) (y : System) (id : TaskId) (found : Row) (payload : Payload)
          (ending : WorkEnding), s.config = config → y.table.find? id = some found →
        found.spec = n.spec → found.state = .enqueued →
        s.registry.instantiate found.spec.payloadTypeId found.spec.payloadData = .ok payload →
        Fate.of found ending = .retried →
        Program.Assures ending id (fun c _ y => LeftRunning s id ending c y)
          (fun result past _ => SentBack id found result past) (s.execute id) [] y := by
  have hreturns := Request.isSome_delay_iff hconfig hn
  refine ⟨hreturns, fun hgrowth hmax baseMs retry d delayMs d' => Backoff.delay_le hgrowth hmax, ?_⟩
  intro s y id found payload ending hs hfound hsame hqueued hpayload hfate
  refine (assures_execute ending hfound hqueued hpayload).mono ?_
    fun result past y htells => htells.sentBack (TaskTable.id_of_find? hfound) hfate
  rintro c past y ⟨claimedAt, handle, baseMs, hstranded⟩
  refine ⟨_, baseMs, hstranded, rfl, ?_⟩
  have hnone := hstranded.none
  have hclaimed : ((RowStep.claim claimedAt).change (found.withHandle handle)).spec = n.spec :=
    hsame
  rw [hclaimed, hs] at hnone ⊢
  by_contra hover
  rw [← hreturns _ _ y.draws, hnone] at hover
  cases hover

namespace Rehearsal

/-- A bare task whose delays have all of the jitter that there is. -/
def shaken (multiplier : Float) : Request :=
  { Request.oneTime { type := bare, values := [] } with
    retry := .exponential (.ofMillis 1) multiplier 1.0 }

/-- A task is submitted, and its first attempt asks for a retry. -/
def retriedOnce (request : Request) : List Cue :=
  inQueue request ++ .wake first :: goes 1 6 ++ .finish 1 (.returned .retry) :: goes 1 20

/-- What the next attempt of the task leads to when it asks for a retry, too. -/
def nextAttempt (cues : List Cue) :
    Program.Outcome Call.signature (Except Failure (Option RunOutcome)) × System :=
  Program.run (System.answerWith (.returned .retry)) (scheduler.execute first) (home cues)

end Rehearsal

open Rehearsal in
/-- Delays that double get nowhere near what is too large, and the task is sent back. -/
theorem delay_returns_iff_doubling :
    ∃ n found result past, scheduler.config.fault? = none
      ∧ (shaken 2.0).normalize scheduler.registry 0 scheduler.config = .ok n
      ∧ (∀ d,
          (((Backoff.ofSpec n.spec scheduler.config.maxBackoffMs).withBase 1000).delay 3 d).isSome)
      ∧ (∀ d delayMs d',
          ((Backoff.ofSpec n.spec scheduler.config.maxBackoffMs).withBase 1000).delay 3 d
            = some (delayMs, d') → delayMs ≤ 300000)
      ∧ (home (inQueue (shaken 2.0))).table.find? first = some found
      ∧ (nextAttempt (inQueue (shaken 2.0))).1 = .finished result
      ∧ SentBack first found result past := by
  have hconfig : scheduler.config.fault? = none := by decide +kernel
  have hshown : ((shaken 2.0).normalize scheduler.registry 0 scheduler.config).toOption.any
      (fun n => n.spec.growth == .exponential
        && !decide (Backoff.half
          ≤ ((Backoff.ofSpec n.spec scheduler.config.maxBackoffMs).withBase 1000).raw 3)
        && ((home (inQueue (shaken 2.0))).table.find? first).any fun row =>
          decide (row.spec = n.spec) && row.state == .enqueued
            && Fate.of row (.returned .retry) == .retried
            && (scheduler.registry.instantiate row.spec.payloadTypeId row.spec.payloadData).toBool)
      = true := by decide +kernel
  have hreturns : (match (nextAttempt (inQueue (shaken 2.0))).1 with
    | .finished _ => true
    | .aborted _ => false) = true := by decide +kernel
  cases hn : (shaken 2.0).normalize scheduler.registry 0 scheduler.config with
  | error fault => rw [hn] at hshown; cases hshown
  | ok n =>
  rw [hn, Except.toOption, Option.any_some] at hshown
  simp only [Bool.and_eq_true, Bool.not_eq_true', decide_eq_false_iff_not, beq_iff_eq,
    Option.any_eq_true, decide_eq_true_eq] at hshown
  obtain ⟨⟨hgrowth, hsmall⟩, found, hfound, ⟨⟨hsame, hqueued⟩, hfate⟩, hresolves⟩ := hshown
  obtain ⟨hreturned, hbounded, hcycle⟩ := delay_returns_iff hconfig hn
  cases hpayload : scheduler.registry.instantiate found.spec.payloadTypeId
      found.spec.payloadData with
  | error fault => rw [hpayload] at hresolves; cases hresolves
  | ok payload =>
  rcases (hcycle scheduler (home (inQueue (shaken 2.0))) first found payload (.returned .retry) rfl
    hfound hsame hqueued hpayload hfate).run (calm_home (inQueue (shaken 2.0))) with
    ⟨result, past, y', hrun, hback⟩ | ⟨c, past, y₁, hrun, -⟩
  · exact ⟨n, found, result, past, hconfig, rfl,
      fun d => (hreturned 1000 3 d).2 fun hover => hsmall hover.raw,
      fun d delayMs d' => hbounded hgrowth (by decide) 1000 3 d delayMs d',
      hfound, congrArg Prod.fst hrun, hback⟩
  · unfold nextAttempt at hreturns
    rw [hrun] at hreturns
    cases hreturns

open Rehearsal in
/--
**A delay that gets out of hand.** The second retry of a task is an ordinary one, but its raw delay
is a float of which twice as much is not. No delay can be drawn for it, whatever the words are, and
the task that asks for it has its row left running, with two of its three retries unused.
-/
theorem whole_jitter_leaves_running :
    ∃ n, scheduler.config.fault? = none
      ∧ (shaken 1e308).normalize scheduler.registry 0 scheduler.config = .ok n
      ∧ (∀ d, (Backoff.ofSpec n.spec scheduler.config.maxBackoffMs).delay 2 d = none)
      ∧ ∃ c y', nextAttempt (retriedOnce (shaken 1e308)) = (.aborted c, y')
        ∧ (y'.table.find? first).any (fun row => row.state == .running && row.retries == 1
            && row.spec.maxRetries == 3) = true := by
  have hconfig : scheduler.config.fault? = none := by decide +kernel
  have hshown : ((shaken 1e308).normalize scheduler.registry 0 scheduler.config).toOption.any
      (fun n => n.spec.growth == .exponential && decide (1.0 ≤ n.spec.backoffJitter)
        && ((Backoff.ofSpec n.spec scheduler.config.maxBackoffMs).raw 2).isFinite
        && decide (Backoff.half ≤ (Backoff.ofSpec n.spec scheduler.config.maxBackoffMs).raw 2))
      = true := by decide +kernel
  have haborted : (match (nextAttempt (retriedOnce (shaken 1e308))).1 with
    | .finished _ => false
    | .aborted _ => true) = true := by decide +kernel
  have hrunning : ((nextAttempt (retriedOnce (shaken 1e308))).2.table.find? first).any (fun row =>
      row.state == .running && row.retries == 1 && row.spec.maxRetries == 3) = true := by
    decide +kernel
  cases hn : (shaken 1e308).normalize scheduler.registry 0 scheduler.config with
  | error fault => rw [hn] at hshown; cases hshown
  | ok n =>
  rw [hn, Except.toOption, Option.any_some] at hshown
  simp only [Bool.and_eq_true, beq_iff_eq, decide_eq_true_eq] at hshown
  obtain ⟨⟨⟨hgrowth, hjitter⟩, hfinite⟩, hraw⟩ := hshown
  refine ⟨n, hconfig, rfl, fun d => ?_, ?_⟩
  · refine Option.not_isSome_iff_eq_none.1 fun hdrawn => ?_
    exact (Request.isSome_delay_iff hconfig hn n.spec.backoffDelayMs 2 d).1 hdrawn
      ⟨hgrowth, hjitter, hfinite, hraw⟩
  · cases hrun : nextAttempt (retriedOnce (shaken 1e308)) with
    | mk outcome y' =>
      rw [hrun] at haborted hrunning
      cases outcome with
      | finished result => cases haborted
      | aborted c => exact ⟨c, y', rfl, hrunning⟩

end BackgroundTasks
