import Mathlib.Algebra.Group.Nat.Defs
import BackgroundTasks.Number.Binary64

/-!
# Rounding by whole numbers

The unit of floats is the smallest one above zero, `2^-1074`. A finite float that is not negative is
a whole number of units, and a product of two of them, or a sum, is a whole number of square units,
of which there are `2^1074` in a unit. So what rounding does can be said in natural numbers: it
takes square units to units, keeping 53 binary digits, or fewer where digits below the unit would be
left.

Rounding never turns two numbers around, and it leaves alone what 53 digits are enough for. All that
is known of the results of floats follows from these two facts.
-/

namespace BackgroundTasks.Number.Binary64

/-! ## Quotients -/

variable {n n' d : Nat}

theorem div_le_roundQuotient (n d : Nat) : n / d ≤ roundQuotient n d := by
  unfold roundQuotient
  dsimp only
  split
  · exact Nat.le_refl _
  split
  · exact Nat.le_succ _
  · exact Nat.le_add_right _ _

theorem roundQuotient_le (n d : Nat) : roundQuotient n d ≤ n / d + 1 := by
  have hparity := Nat.mod_lt (n / d) (by decide : 0 < 2)
  unfold roundQuotient
  dsimp only
  split
  · exact Nat.le_succ _
  split
  · exact Nat.le_refl _
  · omega

/-- A whole number is not rounded. -/
theorem roundQuotient_mul (m : Nat) (hd : 0 < d) : roundQuotient (m * d) d = m := by
  unfold roundQuotient
  dsimp only
  rw [Nat.mul_mod_left, Nat.mul_div_cancel m hd]
  exact if_pos hd

/-- Rounding never turns two quotients around. -/
theorem roundQuotient_mono (h : n ≤ n') (d : Nat) : roundQuotient n d ≤ roundQuotient n' d := by
  rcases Nat.lt_or_eq_of_le (Nat.div_le_div_right h : n / d ≤ n' / d) with hlt | heq
  · -- a whole number lies between them
    calc roundQuotient n d ≤ n / d + 1 := roundQuotient_le n d
      _ ≤ n' / d := hlt
      _ ≤ roundQuotient n' d := div_le_roundQuotient n' d
  · have hrest : n % d ≤ n' % d := by
      have hn := Nat.div_add_mod n d
      have hn' := Nat.div_add_mod n' d
      rw [← heq] at hn'
      omega
    have hparity := Nat.mod_lt (n / d) (by decide : 0 < 2)
    unfold roundQuotient
    dsimp only
    rw [← heq]
    generalize n / d = q at hparity
    split
    · split
      · exact Nat.le_refl q
      · split <;> omega
    · rw [if_neg (by omega : ¬ 2 * (n' % d) < d)]
      split <;> split <;> omega

/-- A quotient is what it is in any units. -/
theorem roundQuotient_scale (n d : Nat) {c : Nat} (hc : 0 < c) :
    roundQuotient (n * c) (d * c) = roundQuotient n d := by
  unfold roundQuotient
  dsimp only
  rw [Nat.mul_div_mul_right n d hc, Nat.mul_mod_mul_right c n d, ← Nat.mul_assoc 2]
  simp only [Nat.mul_lt_mul_right hc]

/-! ## Square units -/

/-- The places by which square units are finer than units. -/
@[irreducible] def unitPlaces : Nat := 1074

theorem unitPlaces_eq : unitPlaces = 1074 := by
  unfold unitPlaces
  rfl

/-- The last binary place that rounding leaves, counted in square units. -/
def lastPlace (n : Nat) : Nat := max (n.log2 - 52) unitPlaces

/-- A number of square units in units: the nearest one that a float can have. -/
def rounded (n : Nat) : Nat := roundQuotient n (2 ^ lastPlace n) * 2 ^ (lastPlace n - unitPlaces)

/-- A number of units that 53 binary digits are enough for. -/
def Fits (n : Nat) : Prop := ∃ m t, m < 2 ^ 53 ∧ n = m * 2 ^ t

theorem unitPlaces_le_lastPlace (n : Nat) : unitPlaces ≤ lastPlace n := Nat.le_max_right _ _

theorem lastPlace_mono (h : n ≤ n') : lastPlace n ≤ lastPlace n' := by
  have hlog : n.log2 ≤ n'.log2 := by
    rcases Nat.eq_zero_or_pos n with rfl | hn
    · exact Nat.zero_le _
    · rw [Nat.le_log2 (by omega)]
      exact Nat.le_trans (Nat.log2_self_le (by omega)) h
  unfold lastPlace
  omega

/-- No more than 53 digits stand before the last place. -/
theorem lt_two_pow_lastPlace (n : Nat) : n < 2 ^ (lastPlace n + 53) := by
  refine Nat.lt_of_lt_of_le Nat.lt_log2_self (Nat.pow_le_pow_right (by decide) ?_)
  unfold lastPlace
  omega

/-- There are 53 digits before the last place, unless it is that of units. -/
theorem two_pow_le_of_lastPlace (h : unitPlaces < lastPlace n) : 2 ^ (lastPlace n + 52) ≤ n := by
  have hplace : lastPlace n + 52 = n.log2 := by
    unfold lastPlace at h ⊢
    omega
  rw [hplace]
  refine Nat.log2_self_le fun hn => ?_
  subst hn
  simp [lastPlace] at h

theorem roundQuotient_lastPlace_le (n : Nat) : roundQuotient n (2 ^ lastPlace n) ≤ 2 ^ 53 := by
  have hpos : 0 < 2 ^ lastPlace n := Nat.two_pow_pos _
  calc roundQuotient n (2 ^ lastPlace n)
      ≤ roundQuotient (2 ^ 53 * 2 ^ lastPlace n) (2 ^ lastPlace n) := by
        refine roundQuotient_mono ?_ _
        rw [← Nat.pow_add, Nat.add_comm]
        exact Nat.le_of_lt (lt_two_pow_lastPlace n)
    _ = 2 ^ 53 := roundQuotient_mul _ hpos

theorem le_roundQuotient_lastPlace (h : unitPlaces < lastPlace n) :
    2 ^ 52 ≤ roundQuotient n (2 ^ lastPlace n) := by
  refine Nat.le_trans ?_ (div_le_roundQuotient _ _)
  rw [Nat.le_div_iff_mul_le (Nat.two_pow_pos _), ← Nat.pow_add, Nat.add_comm]
  exact two_pow_le_of_lastPlace h

/-- **Rounding never turns two numbers around.** -/
theorem rounded_mono (h : n ≤ n') : rounded n ≤ rounded n' := by
  rcases Nat.lt_or_eq_of_le (lastPlace_mono h) with hlt | heq
  · -- the first power of two with the later last place lies between them
    have hunit := unitPlaces_le_lastPlace n
    calc rounded n ≤ 2 ^ 53 * 2 ^ (lastPlace n - unitPlaces) :=
          Nat.mul_le_mul_right _ (roundQuotient_lastPlace_le n)
      _ ≤ 2 ^ 52 * 2 ^ (lastPlace n' - unitPlaces) := by
          rw [← Nat.pow_add, ← Nat.pow_add]
          exact Nat.pow_le_pow_right (by decide) (by omega)
      _ ≤ rounded n' :=
          Nat.mul_le_mul_right _ (le_roundQuotient_lastPlace (Nat.lt_of_le_of_lt hunit hlt))
  · unfold rounded
    rw [← heq]
    exact Nat.mul_le_mul_right _ (roundQuotient_mono h _)

/-- A number without digits beyond its last place is not rounded. -/
theorem rounded_eq {m : Nat} (h : n = m * 2 ^ lastPlace n) :
    rounded n = m * 2 ^ (lastPlace n - unitPlaces) := by
  have hquotient : roundQuotient n (2 ^ lastPlace n) = m :=
    (congrArg (roundQuotient · _) h).trans (roundQuotient_mul m (Nat.two_pow_pos _))
  rw [rounded, hquotient]

/-- **What 53 digits are enough for is not rounded.** -/
theorem rounded_of_fits (h : Fits n) : rounded (n * 2 ^ unitPlaces) = n := by
  obtain ⟨m, t, hm, rfl⟩ := h
  rw [Nat.mul_assoc, ← Nat.pow_add]
  rcases Nat.eq_zero_or_pos m with rfl | hpos
  · simp [rounded, roundQuotient]
  have hne : m * 2 ^ (t + unitPlaces) ≠ 0 := Nat.ne_of_gt (Nat.mul_pos hpos (Nat.two_pow_pos _))
  -- the last place is one of those that are filled with zeros
  have hplace : lastPlace (m * 2 ^ (t + unitPlaces)) ≤ t + unitPlaces := by
    have hlog : (m * 2 ^ (t + unitPlaces)).log2 < 53 + (t + unitPlaces) := by
      rw [Nat.log2_lt hne, Nat.pow_add _ 53]
      exact Nat.mul_lt_mul_of_pos_right hm (Nat.two_pow_pos _)
    unfold lastPlace
    omega
  have hunit := unitPlaces_le_lastPlace (m * 2 ^ (t + unitPlaces))
  obtain ⟨u, hu⟩ := Nat.exists_eq_add_of_le hplace
  have hzeros :
      m * 2 ^ (t + unitPlaces) = m * 2 ^ u * 2 ^ lastPlace (m * 2 ^ (t + unitPlaces)) := by
    rw [Nat.mul_assoc, ← Nat.pow_add, Nat.add_comm u, ← hu]
  rw [rounded_eq hzeros, Nat.mul_assoc, ← Nat.pow_add]
  have ht : u + (lastPlace (m * 2 ^ (t + unitPlaces)) - unitPlaces) = t := by omega
  rw [ht]

theorem Fits.mul_two_pow {t : Nat} (h : Fits n) : Fits (n * 2 ^ t) := by
  obtain ⟨m, u, hm, rfl⟩ := h
  exact ⟨m, u + t, hm, by rw [Nat.mul_assoc, Nat.pow_add]⟩

theorem fits_two_pow (t : Nat) : Fits (2 ^ t) := ⟨1, t, by decide, (Nat.one_mul _).symm⟩

/-- A number that fits and is below a power of two is below it by its last digit. -/
theorem Fits.add_two_pow_le {k : Nat} (h : Fits n) (hlt : n < 2 ^ (k + 53)) :
    n + 2 ^ k ≤ 2 ^ (k + 53) := by
  obtain ⟨m, t, hm, rfl⟩ := h
  rcases Nat.le_total k t with hkt | htk
  · obtain ⟨u, rfl⟩ := Nat.exists_eq_add_of_le' hkt
    rw [Nat.pow_add 2 u, ← Nat.mul_assoc] at hlt ⊢
    rw [Nat.add_comm k, Nat.pow_add] at hlt ⊢
    rw [← Nat.succ_mul]
    exact Nat.mul_le_mul_right _ (Nat.lt_of_mul_lt_mul_right hlt)
  · have hmantissa : (m + 1) * 2 ^ k ≤ 2 ^ 53 * 2 ^ k := Nat.mul_le_mul_right _ hm
    calc m * 2 ^ t + 2 ^ k ≤ m * 2 ^ k + 2 ^ k :=
          Nat.add_le_add_right (Nat.mul_le_mul_left m (Nat.pow_le_pow_right (by decide) htk)) _
      _ = (m + 1) * 2 ^ k := (Nat.succ_mul m _).symm
      _ ≤ 2 ^ 53 * 2 ^ k := hmantissa
      _ = 2 ^ (k + 53) := by rw [Nat.add_comm, Nat.pow_add]

/-- What fits and is not exceeded before rounding is not exceeded after it. -/
theorem rounded_le {c : Nat} (hc : Fits c) (h : n ≤ c * 2 ^ unitPlaces) : rounded n ≤ c :=
  rounded_of_fits hc ▸ rounded_mono h

theorem le_rounded {c : Nat} (hc : Fits c) (h : c * 2 ^ unitPlaces ≤ n) : c ≤ rounded n :=
  rounded_of_fits hc ▸ rounded_mono h

end BackgroundTasks.Number.Binary64
