import BackgroundTasks.Proofs.Floats.Rounding

/-!
# Floats in units

A float is packed into bits; what is computed with is its sign, its mantissa and its exponent. The
mantissa has 53 digits, or the exponent is the least one. So in floats that are not negative the
exponents come first in comparisons, and an exact result is rounded by shifting its mantissa to the
place where 53 digits are left, or to that of units: which is how numbers of units are rounded.
-/

namespace BackgroundTasks.Number.Binary64

open Float.Model Float.Model.UnpackedFloat

/-! ## Shifted mantissas -/

/-- A mantissa is the whole part of a quotient, and its two bits compare the rest to a half. -/
structure Reads (em : ExtendedMantissa) (n d : Nat) : Prop where
  mantissa : em.mantissa = n / d
  roundBit : em.roundBit = decide (d ≤ 2 * (n % d))
  stickyBit : em.stickyBit = decide (n % d ≠ 0 ∧ 2 * (n % d) ≠ d)

theorem reads_exact (m : Nat) : Reads (.ofMantissaAndAccuracy m .exact) m 1 where
  mantissa := (Nat.div_one m).symm
  roundBit := by rw [Nat.mod_one]; rfl
  stickyBit := by rw [Nat.mod_one]; rfl

/-- To shift a mantissa by one place is to halve the quotient. -/
theorem Reads.shiftRightOne {em : ExtendedMantissa} {n d : Nat} (h : Reads em n d) (hd : 0 < d) :
    Reads em.shiftRightOne n (d * 2) := by
  obtain ⟨hmantissa, hround, hsticky⟩ := h
  have hmod : n % (d * 2) = n % d + d * (n / d % 2) := Nat.mod_mul
  have hrest := Nat.mod_lt n hd
  refine ⟨?_, ?_, ?_⟩
  · show em.mantissa / 2 = _
    rw [hmantissa, Nat.div_div_eq_div_mul]
  · show (em.mantissa % 2 != 0) = _
    rw [hmantissa, Bool.eq_iff_iff, bne_iff_ne, decide_eq_true_iff]
    rcases Nat.mod_two_eq_zero_or_one (n / d) with hbit | hbit <;> rw [hbit] at hmod ⊢ <;> omega
  · show (em.roundBit || em.stickyBit) = _
    rw [hround, hsticky, Bool.eq_iff_iff, Bool.or_eq_true, decide_eq_true_iff, decide_eq_true_iff,
      decide_eq_true_iff]
    rcases Nat.mod_two_eq_zero_or_one (n / d) with hbit | hbit <;> rw [hbit] at hmod <;> omega

theorem reads_shiftRight (m k : Nat) :
    Reads (ExtendedMantissa.ofMantissaAndAccuracy m .exact >>> k) m (2 ^ k) := by
  induction k with
  | zero => exact reads_exact m
  | succ k ih => exact ih.shiftRightOne (Nat.two_pow_pos k)

/-- What a mantissa and its bits say is rounded to the nearest whole number. -/
theorem Reads.roundedMantissa {em : ExtendedMantissa} {n d : Nat} (h : Reads em n d)
    (hd : 0 < d) : em.roundedMantissa = roundQuotient n d := by
  obtain ⟨m, roundBit, stickyBit⟩ := em
  obtain ⟨rfl, hround, hsticky⟩ := h
  dsimp only at hround hsticky
  unfold roundQuotient
  dsimp only
  cases roundBit <;> cases stickyBit <;>
    simp only [Bool.false_eq, Bool.true_eq, decide_eq_true_eq, decide_eq_false_iff_not]
      at hround hsticky
  · show n / d = _
    rw [if_pos (by omega)]
  · show n / d = _
    rw [if_pos (by omega)]
  · show n / d + n / d % 2 = _
    rw [if_neg (by omega), if_neg (by omega)]
  · show n / d + 1 = _
    rw [if_neg (by omega), if_pos (by omega)]

/-! ## Unpacked floats -/

/-- A mantissa has 53 digits, or fewer at the least exponent. -/
structure Canonical (m : Nat) (e : Int) : Prop where
  lt : m < 2 ^ 53
  least : leastExponent ≤ e
  full : 2 ^ 52 ≤ m ∨ e = leastExponent

/-- The units in a mantissa at an exponent. -/
def unitsAt (m : Nat) (e : Int) : Nat := m * 2 ^ (e - leastExponent).toNat

/-- The places of the smallest power of two that is too large for a float. -/
def limitPlaces : Nat := 2098

/-- The number of units that is too large for a float. -/
@[irreducible] def limit : Nat := 2 ^ limitPlaces

theorem limit_eq : limit = 2 ^ limitPlaces := by
  unfold limit
  rfl

theorem limit_pos : 0 < limit := limit_eq ▸ Nat.two_pow_pos _

/-- The units in a float that is not negative; infinity counts as the number that is too large. -/
def units? : UnpackedFloat → Option Nat
  | .zero _ => some 0
  | .finite .positive m e _ => some (unitsAt m e)
  | .infinity .positive => some limit
  | _ => none

theorem log2_mul_two_pow {m : Nat} (hm : 0 < m) (p : Nat) : (m * 2 ^ p).log2 = m.log2 + p := by
  rw [Nat.log2_eq_iff (Nat.ne_of_gt (Nat.mul_pos hm (Nat.two_pow_pos p)))]
  constructor
  · rw [Nat.pow_add]
    exact Nat.mul_le_mul_right _ (Nat.log2_self_le (Nat.ne_of_gt hm))
  · rw [Nat.add_right_comm, Nat.pow_add]
    exact Nat.mul_lt_mul_of_pos_right Nat.lt_log2_self (Nat.two_pow_pos p)

/-- The exponent that a mantissa is shifted to leaves 53 digits, if it is not the least one. -/
theorem targetExponent_totalExponent (m : Nat) (e : Int) :
    Format.binary64.targetExponent (totalExponent m e) = max (m.log2 + e - 52) leastExponent := by
  show max ((m.log2 + 1 + e : Int) - 53) (-1074) = max (m.log2 + e - 52) (-1074)
  congr 1
  omega

theorem shiftToTargetExponent_exact (m : Nat) (e : Int) :
    shiftToTargetExponent .binary64 m e .exact
      = (ExtendedMantissa.ofMantissaAndAccuracy m .exact
          >>> (max (m.log2 + e - 52) leastExponent - e).toNat,
        e + (max (m.log2 + e - 52) leastExponent - e).toNat) := by
  rw [← targetExponent_totalExponent]
  rfl

/-- A number is rounded by two shifts, as the first may leave a digit too many. -/
theorem roundWithAccuracy_shifts {m r f : Nat} {e t t' : Int} (s : Sign)
    (hr : (shiftToTargetExponent .binary64 m e .exact).1.roundedMantissa = r)
    (ht : (shiftToTargetExponent .binary64 m e .exact).2 = t)
    (hf : (shiftToTargetExponent .binary64 r t .exact).1.mantissa = f)
    (ht' : (shiftToTargetExponent .binary64 r t .exact).2 = t') :
    roundWithAccuracy .binary64 s m e .exact
      = if h : f = 0 then .zero s else .finite s f t' (Nat.pos_of_ne_zero h) := by
  subst hr ht hf ht'
  rfl

/-- The last place of a number of square units is the one that its mantissa is shifted to. -/
theorem lastPlace_mantissa {m : Nat} {e : Int} (hm : 0 < m) (he : 2 * leastExponent ≤ e) :
    (lastPlace (m * 2 ^ (e - 2 * leastExponent).toNat) : Int)
      = max (m.log2 + e - 52) leastExponent - 2 * leastExponent := by
  have hleast : leastExponent = -1074 := rfl
  have hplaces : unitPlaces = 1074 := unitPlaces_eq
  unfold lastPlace
  rw [log2_mul_two_pow hm, hplaces]
  omega

/-- The first shift rounds to 53 digits, or to one more when all of them are carried over. -/
theorem firstShift {m : Nat} {e : Int} (hm : 0 < m) (he : 2 * leastExponent ≤ e)
    (hlow : e ≤ max (m.log2 + e - 52) leastExponent) :
    ∃ r t, (shiftToTargetExponent .binary64 m e .exact).1.roundedMantissa = r
      ∧ (shiftToTargetExponent .binary64 m e .exact).2 = t
      ∧ r ≤ 2 ^ 53 ∧ leastExponent ≤ t ∧ (2 ^ 52 ≤ r ∨ t = leastExponent)
      ∧ unitsAt r t = rounded (m * 2 ^ (e - 2 * leastExponent).toNat) := by
  have hleast : leastExponent = -1074 := rfl
  have hplaces : unitPlaces = 1074 := unitPlaces_eq
  have hplace := lastPlace_mantissa hm he
  have hreads := reads_shiftRight m (max (m.log2 + e - 52) leastExponent - e).toNat
  have hrounded := hreads.roundedMantissa (Nat.two_pow_pos _)
  rw [shiftToTargetExponent_exact]
  generalize htarget : max (m.log2 + e - 52) leastExponent = t at *
  generalize hk : (t - e).toNat = k at *
  generalize hp : (e - 2 * leastExponent).toNat = p at *
  have ht : e + k = t := by omega
  have hkp : lastPlace (m * 2 ^ p) = k + p := by omega
  have hplaced : k + p - unitPlaces = (t - leastExponent).toNat := by omega
  -- the mantissa is a quotient of the number that it stands for
  have hquotient :
      roundQuotient m (2 ^ k) = roundQuotient (m * 2 ^ p) (2 ^ lastPlace (m * 2 ^ p)) := by
    rw [hkp, Nat.pow_add, roundQuotient_scale m (2 ^ k) (Nat.two_pow_pos p)]
  refine ⟨_, t, hrounded, ht, ?_, htarget ▸ Int.le_max_right _ _, ?_, ?_⟩
  · rw [hquotient]
    exact roundQuotient_lastPlace_le _
  · rw [hquotient]
    rcases Nat.lt_or_eq_of_le (unitPlaces_le_lastPlace (m * 2 ^ p)) with hlt | heq
    · exact .inl (le_roundQuotient_lastPlace hlt)
    · exact .inr (by omega)
  · rw [unitsAt, rounded, hquotient, hkp, hplaced]

/-- The second shift takes back the digit that the first may have left too many. -/
theorem secondShift {r : Nat} {t : Int} (hle : r ≤ 2 ^ 53) (hleast : leastExponent ≤ t)
    (hfull : 2 ^ 52 ≤ r ∨ t = leastExponent) :
    ∃ f t', (shiftToTargetExponent .binary64 r t .exact).1.mantissa = f
      ∧ (shiftToTargetExponent .binary64 r t .exact).2 = t'
      ∧ Canonical f t' ∧ unitsAt f t' = unitsAt r t := by
  rw [shiftToTargetExponent_exact]
  rcases Nat.lt_or_eq_of_le hle with hlt | rfl
  · have hlog : r.log2 ≤ 52 := by
      rcases Nat.eq_zero_or_pos r with rfl | hr
      · decide
      · exact Nat.le_of_lt_succ ((Nat.log2_lt (Nat.ne_of_gt hr)).2 hlt)
    have hnone : (max (r.log2 + t - 52) leastExponent - t).toNat = 0 := by omega
    rw [hnone]
    exact ⟨r, t, rfl, Int.add_zero t, ⟨hlt, hleast, hfull⟩, rfl⟩
  · have hone : (max (((2 ^ 53).log2 : Nat) + t - 52) leastExponent - t).toNat = 1 := by
      have hlog : (2 ^ 53).log2 = 53 := Nat.log2_two_pow
      omega
    rw [hone]
    refine ⟨2 ^ 52, t + 1, rfl, rfl, ⟨by decide, by omega, .inl (Nat.le_refl _)⟩, ?_⟩
    have hexp : (t + 1 - leastExponent).toNat = (t - leastExponent).toNat + 1 := by omega
    rw [unitsAt, unitsAt, hexp, ← Nat.pow_add, ← Nat.pow_add, Nat.add_comm _ 1, ← Nat.add_assoc]

/-- **What is rounded in a float is its number of square units.** -/
theorem roundWithAccuracy_exact {m : Nat} {e : Int} (s : Sign) (hm : 0 < m)
    (he : 2 * leastExponent ≤ e) (hlow : e ≤ max (m.log2 + e - 52) leastExponent) :
    (rounded (m * 2 ^ (e - 2 * leastExponent).toNat) = 0
        ∧ roundWithAccuracy .binary64 s m e .exact = .zero s)
      ∨ ∃ m' e' pos, Canonical m' e'
        ∧ unitsAt m' e' = rounded (m * 2 ^ (e - 2 * leastExponent).toNat)
        ∧ roundWithAccuracy .binary64 s m e .exact = .finite s m' e' pos := by
  obtain ⟨r, t, hr, ht, hle, hleast, hfull, hrounded⟩ := firstShift hm he hlow
  obtain ⟨f, t', hf, ht', hcanonical, hunits⟩ := secondShift hle hleast hfull
  rw [roundWithAccuracy_shifts s hr ht hf ht', ← hrounded, ← hunits]
  rcases Nat.eq_zero_or_pos f with rfl | hpos
  · exact .inl ⟨Nat.zero_mul _, rfl⟩
  · exact .inr ⟨f, t', hpos, hcanonical, rfl, dif_neg (Nat.ne_of_gt hpos)⟩

/-! ## Packing -/

/-- What an unpacked float is once it has been packed. -/
def repacked (u : UnpackedFloat) : UnpackedFloat :=
  UnpackedFloat.unpack .binary64 (UnpackedFloat.pack .binary64 u)

/-- The sign of a float is its first bit. -/
theorem sign_packComponents (s : Sign) (e : BitVec 11) (m : BitVec 52) :
    Sign.ofBitVec (unpackSign (packComponents .binary64 s e m)) = s := by
  have hbit : unpackSign (packComponents .binary64 s e m) = s.toBitVec.extractLsb' 0 1 := by
    unfold unpackSign packComponents BitVec.extractLsb
    rw [BitVec.extractLsb'_append_eq_of_le (by decide),
      BitVec.extractLsb'_append_eq_of_le (by decide)]
    rfl
  rw [hbit]
  cases s <;> rfl

theorem unpack_packedInfinity (s : Sign) :
    UnpackedFloat.unpack .binary64 (packedInfinity .binary64 s) = .infinity s := by
  cases s <;> rfl

theorem toNat_firstDigit (v : BitVec 52) : (1#1 ++ v).toNat = 2 ^ 52 + v.toNat := by
  rw [BitVec.toNat_append, ← Nat.shiftLeft_add_eq_or_of_lt v.isLt]
  rfl

/-- The first digit of a full mantissa is put in front of what is packed of it. -/
theorem unpack_normal {b : BitVec 64} (hfinite : @unpackExponent .binary64 b ≠ -1#11)
    (hnormal : @unpackExponent .binary64 b ≠ 0#11) :
    ∃ pos, UnpackedFloat.unpack .binary64 b = .finite (.ofBitVec (@unpackSign .binary64 b))
      (1#1 ++ @unpackMantissa .binary64 b).toNat ((@unpackExponent .binary64 b).toNat - 1075)
      pos := by
  unfold UnpackedFloat.unpack
  dsimp only
  rw [if_neg hfinite, if_neg hnormal]
  have hpos : 0 < (1#1 ++ @unpackMantissa .binary64 b).toNat := by
    rw [toNat_firstDigit]
    omega
  exact ⟨hpos, rfl⟩

/-- The least exponent is packed as zero, and no digit is in front of the mantissa then. -/
theorem unpack_subnormal {b : BitVec 64} (hzero : @unpackExponent .binary64 b = 0#11)
    (hmantissa : @unpackMantissa .binary64 b ≠ 0#52) :
    ∃ pos, UnpackedFloat.unpack .binary64 b = .finite (.ofBitVec (@unpackSign .binary64 b))
      (@unpackMantissa .binary64 b).toNat leastExponent pos := by
  have hexponent : ((@unpackExponent .binary64 b).toNat : Int)
      - (Format.binary64.exponentBias + Format.binary64.mantissaBitsWithoutImplicit) + 1
      = leastExponent := by
    rw [hzero]
    rfl
  unfold UnpackedFloat.unpack
  dsimp only
  rw [if_neg (by rw [hzero]; decide), if_pos hzero, dif_neg hmantissa, hexponent]
  exact ⟨Nat.pos_of_ne_zero fun h => hmantissa (BitVec.eq_of_toNat_eq h), rfl⟩

theorem unpack_pack_full (s : Sign) {m : Nat} {e : Int} (pos : 0 < m) (hfull : 2 ^ 52 ≤ m)
    (hlt : m < 2 ^ 53) (hleast : leastExponent ≤ e) (hlarge : e ≤ 971) :
    UnpackedFloat.unpack .binary64 (packComponents .binary64 s
      (BitVec.ofNat 11 (e + 1075).toNat) (BitVec.ofNat 52 m)) = .finite s m e pos := by
  have hmin : leastExponent = -1074 := rfl
  have hexp : (BitVec.ofNat 11 (e + 1075).toNat).toNat = (e + 1075).toNat := by
    rw [BitVec.toNat_ofNat]
    omega
  have hfinite : BitVec.ofNat 11 (e + 1075).toNat ≠ -1#11 := by
    intro h
    rw [h] at hexp
    have hones : (-1#11).toNat = 2047 := rfl
    omega
  have hnormal : BitVec.ofNat 11 (e + 1075).toNat ≠ 0#11 := by
    intro h
    rw [h] at hexp
    have hzeros : (0#11).toNat = 0 := rfl
    omega
  obtain ⟨_, hunpacked⟩ := unpack_normal
    (b := packComponents .binary64 s (BitVec.ofNat 11 (e + 1075).toNat) (BitVec.ofNat 52 m))
    (by rwa [unpackExponent_packComponents]) (by rwa [unpackExponent_packComponents])
  rw [hunpacked, UnpackedFloat.finite.injEq, unpackMantissa_packComponents,
    unpackExponent_packComponents, hexp]
  have hmantissa : (1#1 ++ BitVec.ofNat 52 m).toNat = m := by
    rw [toNat_firstDigit, BitVec.toNat_ofNat]
    omega
  exact ⟨sign_packComponents s _ _, hmantissa, by omega⟩

theorem unpack_pack_short (s : Sign) {m : Nat} (pos : 0 < m) (hshort : m < 2 ^ 52) :
    UnpackedFloat.unpack .binary64 (packComponents .binary64 s 0#11 (BitVec.ofNat 52 m))
      = .finite s m leastExponent pos := by
  have hmantissa : (BitVec.ofNat 52 m).toNat = m := by
    rw [BitVec.toNat_ofNat]
    exact Nat.mod_eq_of_lt hshort
  have hnonzero : BitVec.ofNat 52 m ≠ 0#52 := by
    intro h
    rw [h] at hmantissa
    exact absurd hmantissa (Nat.ne_of_lt pos)
  obtain ⟨_, hunpacked⟩ := unpack_subnormal
    (b := packComponents .binary64 s 0#11 (BitVec.ofNat 52 m)) unpackExponent_packComponents
    (by rwa [unpackMantissa_packComponents])
  rw [hunpacked, UnpackedFloat.finite.injEq, unpackMantissa_packComponents]
  exact ⟨sign_packComponents s _ _, hmantissa, rfl⟩

theorem pack_finite (s : Sign) {m : Nat} {e : Int} (pos : 0 < m) :
    UnpackedFloat.pack .binary64 (.finite s m e pos)
      = if 2 ^ 11 ≤ (e + 1075).toNat + 1 then packedInfinity .binary64 s
        else if m.log2 + 1 = 53 then
          packComponents .binary64 s (BitVec.ofNat 11 (e + 1075).toNat) (BitVec.ofNat 52 m)
        else packComponents .binary64 s 0#11 (BitVec.ofNat 52 m) := by
  have hbias : (e + (1023 : Nat) + (52 : Nat)).toNat = (e + 1075).toNat := by omega
  rw [← hbias]
  rfl

/-- **What is packed is unpacked as it was**, unless its exponent is too large: that is infinity. -/
theorem repacked_finite (s : Sign) {m : Nat} {e : Int} (pos : 0 < m) (h : Canonical m e) :
    repacked (.finite s m e pos) = if e ≤ 971 then .finite s m e pos else .infinity s := by
  obtain ⟨hlt, hleast, hfull⟩ := h
  have hmin : leastExponent = -1074 := rfl
  rw [repacked, pack_finite]
  by_cases hlarge : e ≤ 971
  · rw [if_pos hlarge, if_neg (show ¬ 2 ^ 11 ≤ (e + 1075).toNat + 1 by omega)]
    by_cases hdigits : 2 ^ 52 ≤ m
    · have hlog : m.log2 = 52 := (Nat.log2_eq_iff (Nat.ne_of_gt pos)).2 ⟨hdigits, hlt⟩
      rw [if_pos (by rw [hlog])]
      exact unpack_pack_full s pos hdigits hlt hleast hlarge
    · have hlog : m.log2 < 52 := (Nat.log2_lt (Nat.ne_of_gt pos)).2 (Nat.lt_of_not_le hdigits)
      obtain rfl := hfull.resolve_left hdigits
      rw [if_neg (by omega)]
      exact unpack_pack_short s pos (Nat.lt_of_not_le hdigits)
  · rw [if_neg hlarge, if_pos (show 2 ^ 11 ≤ (e + 1075).toNat + 1 by omega)]
    exact unpack_packedInfinity s

theorem repacked_zero (s : Sign) : repacked (.zero s) = .zero s := by
  cases s <;> rfl

theorem unitsAt_lt_limit {m : Nat} {e : Int} (h : Canonical m e) (hlarge : e ≤ 971) :
    unitsAt m e < limit := by
  have hmin : leastExponent = -1074 := rfl
  have hmax : limitPlaces = 2098 := rfl
  calc unitsAt m e < 2 ^ 53 * 2 ^ (e - leastExponent).toNat :=
        Nat.mul_lt_mul_of_pos_right h.lt (Nat.two_pow_pos _)
    _ = 2 ^ (53 + (e - leastExponent).toNat) := (Nat.pow_add ..).symm
    _ ≤ 2 ^ limitPlaces := Nat.pow_le_pow_right (by decide) (by omega)
    _ = limit := limit_eq.symm

theorem units?_repacked_finite {m : Nat} {e : Int} (pos : 0 < m) (h : Canonical m e) :
    units? (repacked (.finite .positive m e pos)) = some (min (unitsAt m e) limit) := by
  have hmin : leastExponent = -1074 := rfl
  have hmax : limitPlaces = 2098 := rfl
  rw [repacked_finite .positive pos h]
  by_cases hlarge : e ≤ 971
  · rw [if_pos hlarge, Nat.min_eq_left (Nat.le_of_lt (unitsAt_lt_limit h hlarge))]
    rfl
  · have hfull : 2 ^ 52 ≤ m := h.full.resolve_right (by omega)
    have hbig : limit ≤ unitsAt m e := by
      calc limit = 2 ^ limitPlaces := limit_eq
        _ ≤ 2 ^ (52 + (e - leastExponent).toNat) := Nat.pow_le_pow_right (by decide) (by omega)
        _ = 2 ^ 52 * 2 ^ (e - leastExponent).toNat := Nat.pow_add ..
        _ ≤ unitsAt m e := Nat.mul_le_mul_right _ hfull
    rw [if_neg hlarge, Nat.min_eq_right hbig]
    rfl

/-- **A float is rounded as its number of square units is**, which may be too large for a float. -/
theorem units?_repacked_roundWithAccuracy {m : Nat} {e : Int} (hm : 0 < m)
    (he : 2 * leastExponent ≤ e) (hlow : e ≤ max (m.log2 + e - 52) leastExponent) :
    units? (repacked (roundWithAccuracy .binary64 .positive m e .exact))
      = some (min (rounded (m * 2 ^ (e - 2 * leastExponent).toNat)) limit) := by
  rcases roundWithAccuracy_exact .positive hm he hlow with
    ⟨hzero, hround⟩ | ⟨m', e', pos, hcanonical, hunits, hround⟩
  · rw [hround, hzero, repacked_zero, Nat.zero_min]
    rfl
  · rw [hround, ← hunits, units?_repacked_finite pos hcanonical]

/-- A float is rounded in the same way when its mantissa has still to be shifted to the left. -/
theorem units?_repacked_round {m : Nat} {e : Int} (hm : 0 < m) (he : leastExponent ≤ e) :
    units? (repacked (UnpackedFloat.round .binary64 .positive m e))
      = some (min (rounded (unitsAt m e * 2 ^ unitPlaces)) limit) := by
  have hmin : leastExponent = -1074 := rfl
  unfold UnpackedFloat.round decreaseExponent
  dsimp only
  rw [targetExponent_totalExponent, Nat.shiftLeft_eq]
  generalize hk : (e - max (m.log2 + e - 52) leastExponent).toNat = k
  have hlog := log2_mul_two_pow hm k
  rw [units?_repacked_roundWithAccuracy (Nat.mul_pos hm (Nat.two_pow_pos k)) (by omega) (by omega)]
  have hplaces :
      k + (e - k - 2 * leastExponent).toNat = (e - leastExponent).toNat + unitPlaces := by
    have hunit : unitPlaces = 1074 := unitPlaces_eq
    omega
  rw [unitsAt, Nat.mul_assoc, Nat.mul_assoc, ← Nat.pow_add, ← Nat.pow_add, hplaces]

/-! ## Floats -/

/-- The units in a float that is not negative; infinity counts as the number that is too large. -/
def units (f : Float) : Option Nat := units? f.toModel.unpack

/-- What is unpacked is canonical. -/
theorem canonical_unpack {b : BitVec 64} {s : Sign} {m : Nat} {e : Int} {pos : 0 < m}
    (h : UnpackedFloat.unpack .binary64 b = .finite s m e pos) : Canonical m e ∧ e ≤ 971 := by
  have hmin : leastExponent = -1074 := rfl
  have hmantissa : (@unpackMantissa .binary64 b).toNat < 2 ^ 52 :=
    (@unpackMantissa .binary64 b).isLt
  have hexponent : (@unpackExponent .binary64 b).toNat < 2048 := (@unpackExponent .binary64 b).isLt
  by_cases hinfinite : @unpackExponent .binary64 b = -1#11
  · unfold UnpackedFloat.unpack at h
    dsimp only at h
    rw [if_pos hinfinite] at h
    by_cases hzero : @unpackMantissa .binary64 b = 0#52
    · rw [if_pos hzero] at h
      cases h
    · rw [if_neg hzero] at h
      cases h
  by_cases hleast : @unpackExponent .binary64 b = 0#11
  · by_cases hzero : @unpackMantissa .binary64 b = 0#52
    · unfold UnpackedFloat.unpack at h
      dsimp only at h
      rw [if_neg hinfinite, if_pos hleast, dif_pos hzero] at h
      cases h
    · obtain ⟨_, hunpacked⟩ := unpack_subnormal hleast hzero
      rw [hunpacked, UnpackedFloat.finite.injEq] at h
      obtain ⟨-, rfl, rfl⟩ := h
      exact ⟨⟨by omega, Int.le_refl _, .inr rfl⟩, by omega⟩
  · have hne : (@unpackExponent .binary64 b).toNat ≠ 2047 := fun h =>
      hinfinite (BitVec.eq_of_toNat_eq h)
    have hpos : (@unpackExponent .binary64 b).toNat ≠ 0 := fun h =>
      hleast (BitVec.eq_of_toNat_eq h)
    obtain ⟨_, hunpacked⟩ := unpack_normal hinfinite hleast
    rw [hunpacked, UnpackedFloat.finite.injEq, toNat_firstDigit] at h
    obtain ⟨-, rfl, rfl⟩ := h
    exact ⟨⟨by omega, by omega, .inl (by omega)⟩, by omega⟩

end BackgroundTasks.Number.Binary64
