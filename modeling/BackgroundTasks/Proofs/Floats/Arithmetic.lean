import BackgroundTasks.Proofs.Floats.Units

/-!
# Arithmetic of floats that are not negative

Such floats are compared as their numbers of units are. A product has as many square units as the
product of the numbers, a sum as many as their sum in units, and both are rounded. Where numbers get
too large the result is infinite, and where nothing gets out of hand there is a result.
-/

namespace BackgroundTasks.Number.Binary64

open Float.Model Float.Model.UnpackedFloat

variable {x y : Float} {a b n : Nat}

theorem unitsAt_pos {m : Nat} {e : Int} (hm : 0 < m) : 0 < unitsAt m e :=
  Nat.mul_pos hm (Nat.two_pow_pos _)

theorem fits_unitsAt {m : Nat} {e : Int} (h : Canonical m e) : Fits (unitsAt m e) :=
  ⟨m, _, h.lt, rfl⟩

/-- What a float with a number of units is. -/
inductive Holds (n : Nat) : UnpackedFloat → Prop where
  | zero (s : Sign) (h : n = 0) : Holds n (.zero s)
  | finite {m : Nat} {e : Int} (pos : 0 < m) (canonical : Canonical m e) (small : e ≤ 971)
      (h : n = unitsAt m e) : Holds n (.finite .positive m e pos)
  | infinity (h : n = limit) : Holds n (.infinity .positive)

theorem holds_of_units (h : units x = some n) : ∃ u, x.toModel.unpack = u ∧ Holds n u := by
  unfold units at h
  refine ⟨_, rfl, ?_⟩
  cases hx : x.toModel.unpack with
  | zero s =>
    rw [hx] at h
    exact .zero s (Option.some.inj h).symm
  | notANumber =>
    rw [hx] at h
    cases h
  | infinity s =>
    rw [hx] at h
    cases s with
    | positive => exact .infinity (Option.some.inj h).symm
    | negative => cases h
  | finite s m e pos =>
    rw [hx] at h
    cases s with
    | negative => cases h
    | positive =>
      obtain ⟨hcanonical, hsmall⟩ := canonical_unpack hx
      exact .finite pos hcanonical hsmall (Option.some.inj h).symm

theorem fits_of_units (h : units x = some n) : Fits n := by
  obtain ⟨u, -, hu⟩ := holds_of_units h
  cases hu with
  | zero s hn => exact ⟨0, 0, by decide, hn⟩
  | finite pos canonical small hn => exact hn ▸ fits_unitsAt canonical
  | infinity hn => exact hn ▸ limit_eq ▸ fits_two_pow _

/-- A float is finite unless its number of units is too large. -/
theorem isFinite_iff (h : units x = some n) : x.isFinite = true ↔ n < limit := by
  obtain ⟨u, hx, hu⟩ := holds_of_units h
  show x.toModel.unpack.isFinite = true ↔ _
  rw [hx]
  cases hu with
  | zero s hn => exact iff_of_true rfl (hn ▸ limit_pos)
  | finite pos canonical small hn => exact iff_of_true rfl (hn ▸ unitsAt_lt_limit canonical small)
  | infinity hn => exact iff_of_false Bool.false_ne_true (hn ▸ Nat.lt_irrefl _)

/-! ## Order -/

/-- A larger exponent outweighs any mantissa. -/
theorem unitsAt_lt_of_exponent {m m' : Nat} {e e' : Int} (h : Canonical m e) (h' : Canonical m' e')
    (hlt : e < e') : unitsAt m e < unitsAt m' e' := by
  have hleast := h.least
  have hfull : 2 ^ 52 ≤ m' := h'.full.resolve_right (by omega)
  calc unitsAt m e < 2 ^ 53 * 2 ^ (e - leastExponent).toNat :=
        Nat.mul_lt_mul_of_pos_right h.lt (Nat.two_pow_pos _)
    _ = 2 ^ (53 + (e - leastExponent).toNat) := (Nat.pow_add ..).symm
    _ ≤ 2 ^ (52 + (e' - leastExponent).toNat) := Nat.pow_le_pow_right (by decide) (by omega)
    _ = 2 ^ 52 * 2 ^ (e' - leastExponent).toNat := Nat.pow_add ..
    _ ≤ unitsAt m' e' := Nat.mul_le_mul_right _ hfull

theorem compare_unitsAt {m m' : Nat} {e e' : Int} (h : Canonical m e) (h' : Canonical m' e') :
    (compare e e').then (compare m m') = compare (unitsAt m e) (unitsAt m' e') := by
  rcases Int.lt_trichotomy e e' with hlt | rfl | hgt
  · rw [Int.compare_eq_lt.2 hlt, Nat.compare_eq_lt.2 (unitsAt_lt_of_exponent h h' hlt)]
    rfl
  · rw [Int.compare_eq_eq.2 rfl]
    show compare m m' = compare (m * _) (m' * _)
    rcases Nat.lt_trichotomy m m' with hlt | rfl | hgt
    · rw [Nat.compare_eq_lt.2 hlt,
        Nat.compare_eq_lt.2 (Nat.mul_lt_mul_of_pos_right hlt (Nat.two_pow_pos _))]
    · rw [Nat.compare_eq_eq.2 rfl, Nat.compare_eq_eq.2 rfl]
    · rw [Nat.compare_eq_gt.2 hgt,
        Nat.compare_eq_gt.2 (Nat.mul_lt_mul_of_pos_right hgt (Nat.two_pow_pos _))]
  · rw [Int.compare_eq_gt.2 hgt, Nat.compare_eq_gt.2 (unitsAt_lt_of_exponent h' h hgt)]
    rfl

/-- **Floats are compared as their numbers of units are.** -/
theorem compare_units (hx : units x = some a) (hy : units y = some b) :
    x.toModel.unpack.compare y.toModel.unpack = some (compare a b) := by
  obtain ⟨u, hxu, hu⟩ := holds_of_units hx
  obtain ⟨v, hyv, hv⟩ := holds_of_units hy
  rw [hxu, hyv]
  cases hu with
  | zero s ha =>
    subst ha
    cases hv with
    | zero s' hb => rw [hb]; rfl
    | finite pos' canonical' small' hb =>
      rw [hb, Nat.compare_eq_lt.2 (unitsAt_pos pos')]
      rfl
    | infinity hb =>
      rw [hb, Nat.compare_eq_lt.2 limit_pos]
      rfl
  | finite pos canonical small ha =>
    subst ha
    cases hv with
    | zero s' hb =>
      rw [hb, Nat.compare_eq_gt.2 (unitsAt_pos pos)]
      rfl
    | finite pos' canonical' small' hb =>
      rw [hb, ← compare_unitsAt canonical canonical']
      rfl
    | infinity hb =>
      rw [hb, Nat.compare_eq_lt.2 (unitsAt_lt_limit canonical small)]
      rfl
  | infinity ha =>
    subst ha
    cases hv with
    | zero s' hb =>
      rw [hb, Nat.compare_eq_gt.2 limit_pos]
      rfl
    | finite pos' canonical' small' hb =>
      rw [hb, Nat.compare_eq_gt.2 (unitsAt_lt_limit canonical' small')]
      rfl
    | infinity hb =>
      rw [hb, Nat.compare_eq_eq.2 rfl]
      rfl

theorem le_iff (hx : units x = some a) (hy : units y = some b) : x ≤ y ↔ a ≤ b := by
  show decide (x.toModel.unpack.le y.toModel.unpack = true) = true ↔ _
  rw [decide_eq_true_iff]
  unfold UnpackedFloat.le
  rw [compare_units hx hy]
  exact Nat.isLE_compare

theorem lt_iff (hx : units x = some a) (hy : units y = some b) : x < y ↔ a < b := by
  show decide (x.toModel.unpack.lt y.toModel.unpack = true) = true ↔ _
  rw [decide_eq_true_iff]
  unfold UnpackedFloat.lt
  rw [compare_units hx hy, beq_iff_eq, Option.some.injEq]
  exact Nat.compare_eq_lt

/-! ## Products -/

/-- A product of mantissas has all its digits, unless both exponents are the least one. -/
theorem product_low {m m' : Nat} {e e' : Int} (pos : 0 < m) (pos' : 0 < m') (h : Canonical m e)
    (h' : Canonical m' e') : e + e' ≤ max ((m * m').log2 + (e + e') - 52) leastExponent := by
  have hmin : leastExponent = -1074 := rfl
  have digits (hfull : 2 ^ 52 ≤ m * m') : 52 ≤ (m * m').log2 :=
    (Nat.le_log2 (Nat.ne_of_gt (Nat.mul_pos pos pos'))).2 hfull
  rcases h.full with hfull | hleast
  · have hlog := digits (Nat.le_trans hfull (Nat.le_mul_of_pos_right m pos'))
    omega
  rcases h'.full with hfull' | hleast'
  · have hlog := digits (Nat.le_trans hfull' (Nat.le_mul_of_pos_left m' pos))
    omega
  · omega

theorem unitsAt_mul {m m' : Nat} {e e' : Int} (h : leastExponent ≤ e) (h' : leastExponent ≤ e') :
    m * m' * 2 ^ (e + e' - 2 * leastExponent).toNat = unitsAt m e * unitsAt m' e' := by
  have hexp : (e + e' - 2 * leastExponent).toNat
      = (e - leastExponent).toNat + (e' - leastExponent).toNat := by omega
  rw [hexp, Nat.pow_add, unitsAt, unitsAt, Nat.mul_mul_mul_comm]

theorem rounded_zero : rounded 0 = 0 := by
  have hzero : rounded (0 * 2 ^ unitPlaces) = 0 := rounded_of_fits ⟨0, 0, by decide, rfl⟩
  rwa [Nat.zero_mul] at hzero

theorem units?_repacked_zero (s : Sign) : units? (repacked (.zero s)) = some 0 := by
  rw [repacked_zero]
  rfl

/-- **A product of floats is the rounded product of their numbers of units.** -/
theorem units_mul (hx : units x = some a) (hy : units y = some b) (ha : a < limit)
    (hb : b < limit) : units (x * y) = some (min (rounded (a * b)) limit) := by
  show units? (repacked (UnpackedFloat.mul .binary64 x.toModel.unpack y.toModel.unpack)) = _
  obtain ⟨u, hxu, hu⟩ := holds_of_units hx
  obtain ⟨v, hyv, hv⟩ := holds_of_units hy
  rw [hxu, hyv]
  cases hu with
  | infinity heq => exact absurd heq (Nat.ne_of_lt ha)
  | zero s heq =>
    subst heq
    rw [Nat.zero_mul, rounded_zero, Nat.zero_min]
    cases hv with
    | infinity heq' => exact absurd heq' (Nat.ne_of_lt hb)
    | zero | finite =>
      show units? (repacked (.zero _)) = _
      exact units?_repacked_zero _
  | finite pos canonical small heq =>
    subst heq
    cases hv with
    | infinity heq' => exact absurd heq' (Nat.ne_of_lt hb)
    | zero s' heq' =>
      subst heq'
      rw [Nat.mul_zero, rounded_zero, Nat.zero_min]
      show units? (repacked (.zero _)) = _
      exact units?_repacked_zero _
    | finite pos' canonical' small' heq' =>
      subst heq'
      rw [← unitsAt_mul canonical.least canonical'.least]
      have hleast := canonical.least
      have hleast' := canonical'.least
      exact units?_repacked_roundWithAccuracy (Nat.mul_pos pos pos') (by omega)
        (product_low pos pos' canonical canonical')

/-! ## Sums and differences -/

/-- A float that is packed again is what it was. -/
theorem units?_repacked_self {m : Nat} {e : Int} (pos : 0 < m) (h : Canonical m e) :
    units? (repacked (.finite .positive m e pos))
      = some (min (rounded (unitsAt m e * 2 ^ unitPlaces)) limit) := by
  rw [units?_repacked_finite pos h, rounded_of_fits (fits_unitsAt h)]

theorem units?_repacked_normalize (m : Nat) {e : Int} (he : leastExponent ≤ e) :
    units? (repacked (UnpackedFloat.normalize .binary64 m e .positive))
      = some (min (rounded (unitsAt m e * 2 ^ unitPlaces)) limit) := by
  unfold UnpackedFloat.normalize
  rcases Nat.eq_zero_or_pos m with rfl | hm
  · rw [unitsAt, Nat.zero_mul, Nat.zero_mul, rounded_zero, Nat.zero_min]
    exact units?_repacked_zero .positive
  · rw [Int.compare_eq_gt.2 (Int.natCast_pos.2 hm)]
    exact units?_repacked_round hm he

/-- A mantissa is the same number of units at a smaller exponent. -/
theorem unitsAt_decreaseExponent (m : Nat) {e t : Int} (ht : leastExponent ≤ t) (hle : t ≤ e) :
    unitsAt (decreaseExponent m e t).1 t = unitsAt m e := by
  have hexp : (e - t).toNat + (t - leastExponent).toNat = (e - leastExponent).toNat := by omega
  show (m <<< (e - t).toNat) * 2 ^ (t - leastExponent).toNat = _
  rw [Nat.shiftLeft_eq, Nat.mul_assoc, ← Nat.pow_add, hexp, unitsAt]

/-- Two mantissas are brought to the smaller one of their exponents. -/
theorem unitsAt_aligned (m m' : Nat) {e e' : Int} (h : leastExponent ≤ e)
    (h' : leastExponent ≤ e') :
    unitsAt (decreaseExponent m e (min e e')).1 (min e e') = unitsAt m e
      ∧ unitsAt (decreaseExponent m' e' (min e e')).1 (min e e') = unitsAt m' e'
      ∧ leastExponent ≤ min e e' :=
  have hleast := Int.le_min.2 ⟨h, h'⟩
  ⟨unitsAt_decreaseExponent m hleast (Int.min_le_left e e'),
    unitsAt_decreaseExponent m' hleast (Int.min_le_right e e'), hleast⟩

theorem unitsAt_add (m m' : Nat) (e : Int) : unitsAt (m + m') e = unitsAt m e + unitsAt m' e :=
  Nat.add_mul ..

theorem unitsAt_sub (m m' : Nat) (e : Int) : unitsAt (m - m') e = unitsAt m e - unitsAt m' e :=
  Nat.sub_mul ..

/-- **A sum of floats is the rounded sum of their numbers of units.** -/
theorem units_add (hx : units x = some a) (hy : units y = some b) (ha : a < limit)
    (hb : b < limit) : units (x + y) = some (min (rounded ((a + b) * 2 ^ unitPlaces)) limit) := by
  show units? (repacked (UnpackedFloat.add .binary64 x.toModel.unpack y.toModel.unpack)) = _
  obtain ⟨u, hxu, hu⟩ := holds_of_units hx
  obtain ⟨v, hyv, hv⟩ := holds_of_units hy
  rw [hxu, hyv]
  cases hu with
  | infinity heq => exact absurd heq (Nat.ne_of_lt ha)
  | zero s heq =>
    subst heq
    cases hv with
    | infinity heq' => exact absurd heq' (Nat.ne_of_lt hb)
    | zero s' heq' =>
      subst heq'
      rw [Nat.zero_mul, rounded_zero, Nat.zero_min]
      show units? (repacked (if s == s' then .zero s else .zero .positive)) = _
      split <;> exact units?_repacked_zero _
    | finite pos' canonical' small' heq' =>
      subst heq'
      rw [Nat.zero_add]
      exact units?_repacked_self pos' canonical'
  | @finite m e pos canonical small heq =>
    subst heq
    cases hv with
    | infinity heq' => exact absurd heq' (Nat.ne_of_lt hb)
    | zero s' heq' =>
      subst heq'
      exact units?_repacked_self pos canonical
    | @finite m' e' pos' canonical' small' heq' =>
      subst heq'
      obtain ⟨hm, hm', hleast⟩ := unitsAt_aligned m m' canonical.least canonical'.least
      rw [← hm, ← hm', ← unitsAt_add]
      exact units?_repacked_normalize _ hleast

/-- **A difference of floats is the rounded difference of their numbers of units.** -/
theorem units_sub (hx : units x = some a) (hy : units y = some b) (ha : a < limit)
    (hle : b ≤ a) : units (x - y) = some (min (rounded ((a - b) * 2 ^ unitPlaces)) limit) := by
  show units? (repacked (UnpackedFloat.sub .binary64 x.toModel.unpack y.toModel.unpack)) = _
  obtain ⟨u, hxu, hu⟩ := holds_of_units hx
  obtain ⟨v, hyv, hv⟩ := holds_of_units hy
  rw [hxu, hyv]
  cases hv with
  | infinity heq => exact absurd heq (Nat.ne_of_lt (Nat.lt_of_le_of_lt hle ha))
  | zero s' heq' =>
    subst heq'
    cases hu with
    | infinity heq => exact absurd heq (Nat.ne_of_lt ha)
    | zero s heq =>
      subst heq
      rw [Nat.sub_zero, Nat.zero_mul, rounded_zero, Nat.zero_min]
      show units? (repacked (if s == -s' then .zero s else .zero .positive)) = _
      split <;> exact units?_repacked_zero _
    | finite pos canonical small heq =>
      subst heq
      exact units?_repacked_self pos canonical
  | @finite m' e' pos' canonical' small' heq' =>
    subst heq'
    cases hu with
    | infinity heq => exact absurd heq (Nat.ne_of_lt ha)
    | zero s heq =>
      subst heq
      exact absurd (unitsAt_pos pos') (Nat.not_lt.2 hle)
    | @finite m e pos canonical small heq =>
      subst heq
      obtain ⟨hm, hm', hleast⟩ := unitsAt_aligned m m' canonical.least canonical'.least
      rw [← hm, ← hm'] at hle
      have hmantissas := Nat.le_of_mul_le_mul_right hle (Nat.two_pow_pos _)
      rw [← hm, ← hm', ← unitsAt_sub, ← units?_repacked_normalize _ hleast,
        Int.ofNat_sub hmantissas]
      rfl

/-! ## Floats that are not negative -/

/-- A float that is not negative; what is not a number counts as one. -/
def Unsigned (x : Float) : Prop := x.toModel.unpack = .notANumber ∨ ∃ n, units x = some n

theorem unpack_packedNaN :
    UnpackedFloat.unpack .binary64 (packedNaN .binary64) = .notANumber := by
  unfold UnpackedFloat.unpack packedNaN
  dsimp only
  rw [if_pos unpackExponent_packComponents, unpackMantissa_packComponents, if_neg (by decide)]

theorem unpack_mul {u v w : UnpackedFloat} (hx : x.toModel.unpack = u) (hy : y.toModel.unpack = v)
    (h : UnpackedFloat.mul .binary64 u v = w) : (x * y).toModel.unpack = repacked w := by
  subst hx hy h
  rfl

/-- A product with an infinite factor. -/
theorem unsigned_of_infinity (hx : x.toModel.unpack = .infinity .positive)
    (hy : units y = some b) : Unsigned (x * y) ∧ Unsigned (y * x) := by
  obtain ⟨v, hyv, hv⟩ := holds_of_units hy
  cases hv with
  | zero s _ =>
    exact ⟨.inl ((unpack_mul hx hyv rfl).trans unpack_packedNaN),
      .inl ((unpack_mul hyv hx rfl).trans unpack_packedNaN)⟩
  | infinity _ | finite =>
    exact ⟨.inr ⟨limit, congrArg units? ((unpack_mul hx hyv rfl).trans (unpack_packedInfinity _))⟩,
      .inr ⟨limit, congrArg units? ((unpack_mul hyv hx rfl).trans (unpack_packedInfinity _))⟩⟩

theorem infinity_or_lt_limit (hx : units x = some a) :
    x.toModel.unpack = .infinity .positive ∨ a < limit := by
  obtain ⟨u, hxu, hu⟩ := holds_of_units hx
  cases hu with
  | zero s heq => exact .inr (heq ▸ limit_pos)
  | finite pos canonical small heq => exact .inr (heq ▸ unitsAt_lt_limit canonical small)
  | infinity _ => exact .inl hxu

/-- **A product of floats that are not negative is not negative**, if it is a number. -/
theorem Unsigned.mul (hx : Unsigned x) (hy : Unsigned y) : Unsigned (x * y) := by
  rcases hx with hx | ⟨a, hx⟩
  · exact .inl ((unpack_mul (w := .notANumber) hx rfl rfl).trans unpack_packedNaN)
  rcases hy with hy | ⟨b, hy⟩
  · refine .inl ((unpack_mul (w := .notANumber) rfl hy ?_).trans unpack_packedNaN)
    cases x.toModel.unpack <;> rfl
  rcases infinity_or_lt_limit hx with hinf | ha
  · exact (unsigned_of_infinity hinf hy).1
  rcases infinity_or_lt_limit hy with hinf | hb
  · exact (unsigned_of_infinity hinf hx).2
  · exact .inr ⟨_, units_mul hx hy ha hb⟩

/-- What is not below a float that is not negative is not negative either. -/
theorem exists_units_of_le (hx : units x = some a) (hle : x ≤ y) :
    ∃ b, units y = some b ∧ a ≤ b := by
  have hcompared : x.toModel.unpack.le y.toModel.unpack = true := of_decide_eq_true hle
  have hy : ∃ b, units y = some b := by
    obtain ⟨u, hxu, hu⟩ := holds_of_units hx
    rw [hxu] at hcompared
    unfold units
    cases hy : y.toModel.unpack with
    | zero s => exact ⟨0, rfl⟩
    | notANumber =>
      rw [hy] at hcompared
      cases hu <;> cases hcompared
    | infinity s =>
      cases s with
      | positive => exact ⟨limit, rfl⟩
      | negative =>
        rw [hy] at hcompared
        cases hu <;> cases hcompared
    | finite s m e pos =>
      cases s with
      | positive => exact ⟨unitsAt m e, rfl⟩
      | negative =>
        rw [hy] at hcompared
        cases hu <;> cases hcompared
  obtain ⟨b, hb⟩ := hy
  exact ⟨b, hb, (le_iff hx hb).1 hle⟩

theorem exists_units_of_lt (hx : units x = some a) (hlt : x < y) :
    ∃ b, units y = some b ∧ a < b := by
  have hcompared : x.toModel.unpack.lt y.toModel.unpack = true := of_decide_eq_true hlt
  have hle : x ≤ y := by
    refine decide_eq_true (?_ : x.toModel.unpack.le y.toModel.unpack = true)
    rw [UnpackedFloat.le, beq_iff_eq.1 hcompared]
    rfl
  obtain ⟨b, hb, -⟩ := exists_units_of_le hx hle
  exact ⟨b, hb, (lt_iff hx hb).1 hlt⟩

/-! ## Whole numbers -/

theorem unitsAt_zero (n : Nat) : unitsAt n 0 = n * 2 ^ unitPlaces := by
  have hplaces : (0 - leastExponent).toNat = unitPlaces := by
    rw [unitPlaces_eq]
    rfl
  rw [unitsAt, hplaces]

theorem units_toFloat (n : UInt64) : units n.toFloat
    = some (min (rounded (n.toNat * 2 ^ unitPlaces * 2 ^ unitPlaces)) limit) := by
  have hleast : leastExponent ≤ 0 := by decide
  rw [← unitsAt_zero n.toNat, ← units?_repacked_normalize n.toNat hleast]
  rfl

/-- Whole numbers of 64 bits are far from being too large. -/
theorem mul_lt_limit (h : n < UInt64.size) : n * 2 ^ unitPlaces < limit := by
  have hplaces : 64 + unitPlaces ≤ limitPlaces := by
    rw [unitPlaces_eq]
    decide
  calc n * 2 ^ unitPlaces < 2 ^ 64 * 2 ^ unitPlaces :=
        Nat.mul_lt_mul_of_pos_right h (Nat.two_pow_pos _)
    _ = 2 ^ (64 + unitPlaces) := (Nat.pow_add ..).symm
    _ ≤ 2 ^ limitPlaces := Nat.pow_le_pow_right (by decide) hplaces
    _ = limit := limit_eq.symm

theorem one_lt_limit : 2 ^ unitPlaces < limit :=
  Nat.one_mul (2 ^ unitPlaces) ▸ mul_lt_limit (by decide)

theorem two_lt_limit : 2 ^ unitPlaces * 2 < limit := Nat.mul_comm 2 _ ▸ mul_lt_limit (by decide)

/-- A whole number of up to 53 digits is converted as it is. -/
theorem units_toFloat_exact {n : UInt64} (h : n.toNat ≤ 2 ^ 53) :
    units n.toFloat = some (n.toNat * 2 ^ unitPlaces) := by
  have hfits : Fits n.toNat := by
    rcases Nat.lt_or_eq_of_le h with hlt | heq
    · exact ⟨n.toNat, 0, hlt, (Nat.mul_one _).symm⟩
    · exact heq ▸ fits_two_pow 53
  rw [units_toFloat, rounded_of_fits hfits.mul_two_pow,
    Nat.min_eq_left (Nat.le_of_lt (mul_lt_limit n.toNat_lt))]

theorem units_zero : units 0.0 = some 0 := by
  have hzero : (0.0 : Float).toModel.unpack = .zero .positive := rfl
  unfold units
  rw [hzero]
  rfl

/-- A power of two has the mantissa that has one digit. -/
theorem units_of_bits {b : UInt64} {e : Int} {pos : 0 < 2 ^ 52} (h : x.toBits = b)
    (hb : UnpackedFloat.unpack .binary64 b.toBitVec = .finite .positive (2 ^ 52) e pos) :
    units x = some (2 ^ (52 + (e - leastExponent).toNat)) := by
  show units? (UnpackedFloat.unpack .binary64 x.toBits.toBitVec) = _
  rw [h, hb, Nat.pow_add]
  rfl

theorem units_one : units 1.0 = some (2 ^ unitPlaces) := by
  have hbits : (1.0 : Float).toBits = 0x3FF0000000000000 := by decide +kernel
  have hplaces : 52 + (-52 - leastExponent).toNat = unitPlaces := by
    rw [unitPlaces_eq]
    rfl
  rw [← hplaces]
  exact units_of_bits hbits rfl

/-- The whole part of a float is read off after its digits have been shifted to the unit. -/
theorem roundToInt_positive (m : Nat) {e : Int} (he : leastExponent ≤ e) :
    (roundToInt .positive m e).toNat = unitsAt m e / 2 ^ unitPlaces := by
  have hmin : leastExponent = -1074 := rfl
  have hplaces := unitPlaces_eq
  show (ExtendedMantissa.mantissa (ExtendedMantissa.ofMantissaAndAccuracy
    (m <<< (e - 0).toNat) .exact >>> (0 - (e - (e - 0).toNat)).toNat)) = _
  rw [(reads_shiftRight _ _).mantissa, Nat.shiftLeft_eq, unitsAt]
  generalize hleft : (e - 0).toNat = l
  generalize hright : (0 - (e - l)).toNat = r
  generalize hunit : (e - leastExponent).toNat = u
  have hsplit : l + unitPlaces = u + r := by omega
  calc m * 2 ^ l / 2 ^ r = m * 2 ^ l * 2 ^ unitPlaces / (2 ^ r * 2 ^ unitPlaces) :=
        (Nat.mul_div_mul_right _ _ (Nat.two_pow_pos _)).symm
    _ = m * 2 ^ u * 2 ^ r / (2 ^ unitPlaces * 2 ^ r) := by
        rw [Nat.mul_assoc m, Nat.mul_assoc m, ← Nat.pow_add, ← Nat.pow_add 2 u, hsplit,
          Nat.mul_comm (2 ^ r)]
    _ = m * 2 ^ u / 2 ^ unitPlaces := Nat.mul_div_mul_right _ _ (Nat.two_pow_pos _)

theorem toNat_ofNatClamp_le (n : Nat) : (UInt64.ofNatClamp n).toNat ≤ n := by
  rcases Nat.lt_or_ge n UInt64.size with hlt | hge
  · exact Nat.le_of_eq (UInt64.toNat_ofNatClamp_of_lt hlt)
  · rw [UInt64.toNat_ofNatClamp_of_le hge]
    exact Nat.le_trans (Nat.sub_le _ _) hge

/-- **A float is converted to no more than the whole number that it does not exceed.** -/
theorem toNat_toUInt64_le {c : Nat} (h : ∀ n, units x = some n → n ≤ c * 2 ^ unitPlaces) :
    x.toUInt64.toNat ≤ c := by
  refine Nat.le_trans (toNat_ofNatClamp_le _) ?_
  unfold units at h
  cases hx : x.toModel.unpack with
  | notANumber | zero s => exact Nat.zero_le _
  | infinity s =>
    cases s with
    | negative => exact Nat.zero_le _
    | positive =>
      rw [hx] at h
      have hmax : (UInt64.size - 1) * 2 ^ unitPlaces ≤ c * 2 ^ unitPlaces :=
        Nat.le_trans (Nat.le_of_lt (mul_lt_limit (by decide))) (h limit rfl)
      exact Nat.le_of_mul_le_mul_right hmax (Nat.two_pow_pos _)
  | finite s m e pos =>
    cases s with
    | negative =>
      show (-(_ : Int)).toNat ≤ c
      rw [Int.toNat_neg_natCast]
      exact Nat.zero_le c
    | positive =>
      rw [hx] at h
      show (roundToInt .positive m e).toNat ≤ c
      rw [roundToInt_positive m (canonical_unpack hx).1.least]
      exact Nat.div_le_of_le_mul (Nat.mul_comm c _ ▸ h _ rfl)

end BackgroundTasks.Number.Binary64
