import BackgroundTasks.Json.Lexer

/-!
# Numerals that are written and read again

A numeral that is written comes from the digits of a natural number, so it has at least one digit
before the point and no zero in front of the others. That is all the machine asks for: reading the
text of such a numeral leads back to it, and the machine then stands where the numeral may end.
-/

namespace BackgroundTasks

open Number

/-! ## Digits -/

namespace Number

/-- Characters that are decimal digits. -/
def AreDigits (cs : List Char) : Prop := ∀ c ∈ cs, c.isDigit = true

variable {c : Char} {cs ds : List Char}

theorem digitValue?_of_isDigit (h : c.isDigit = true) :
    digitValue? c = some (c.toNat - '0'.toNat) := if_pos h

theorem areDigits_cons : AreDigits (c :: cs) ↔ c.isDigit = true ∧ AreDigits cs :=
  List.forall_mem_cons

theorem areDigits_append : AreDigits (cs ++ ds) ↔ AreDigits cs ∧ AreDigits ds :=
  List.forall_mem_append

theorem areDigits_zeros (count : Nat) : AreDigits (FloatLayout.zeros count) := by
  intro c hc
  rw [List.eq_of_mem_replicate hc]
  rfl

theorem areDigits_decimalDigits (n : Nat) : AreDigits (decimalDigits n) :=
  fun _ hc => Nat.isDigit_of_mem_toDigits (by decide) (by decide) hc

theorem AreDigits.take (h : AreDigits cs) (n : Nat) : AreDigits (cs.take n) :=
  fun c hc => h c (List.mem_of_mem_take hc)

theorem AreDigits.drop (h : AreDigits cs) (n : Nat) : AreDigits (cs.drop n) :=
  fun c hc => h c (List.mem_of_mem_drop hc)

/-- The digits of a natural spell it. -/
theorem ofDigits_decimalDigits (n : Nat) : ofDigits 0 (decimalDigits n) = n := by
  have hfold (cs : List Char) (h : AreDigits cs) (start : Nat) :
      ofDigits start cs = Nat.ofDigitChars 10 cs start := by
    induction cs generalizing start with
    | nil => rw [Nat.ofDigitChars_nil]; rfl
    | cons c rest ih =>
      obtain ⟨hc, hrest⟩ := areDigits_cons.1 h
      have hstep : ofDigits start (c :: rest)
          = ofDigits (start * 10 + (c.toNat - '0'.toNat)) rest := by
        show ofDigits (start * 10 + (digitValue? c).getD 0) rest = _
        rw [digitValue?_of_isDigit hc, Option.getD_some]
      rw [hstep, ih hrest, Nat.ofDigitChars_cons, Nat.mul_comm]
  rw [hfold _ (areDigits_decimalDigits n), decimalDigits, Nat.ofDigitChars_ten_toDigits]

/-- The first digit is zero in the digits of zero only. -/
theorem decimalDigits_head {n : Nat} (hn : n ≠ 0) :
    ∃ c rest, decimalDigits n = c :: rest ∧ c ≠ '0' := by
  induction n using Nat.strongRecOn with
  | _ n ih =>
    unfold decimalDigits at ih ⊢
    by_cases hsmall : n < 10
    · refine ⟨n.digitChar, [], Nat.toDigits_of_lt_base hsmall, ?_⟩
      rw [ne_eq, Nat.digitChar_eq_zero]
      exact hn
    · obtain ⟨c, rest, hdigits, hc⟩ := ih (n / 10) (by omega) (by omega)
      refine ⟨c, rest ++ [Nat.digitChar (n % 10)], ?_, hc⟩
      rw [Nat.toDigits_of_base_le (by decide) (by omega), hdigits]
      rfl

/-! ## Numerals as they are written -/

namespace Numeral

/-- A numeral that has a text of its own: digits, and no zero in front of others. -/
structure WellFormed (n : Numeral) : Prop where
  whole_ne_nil : n.whole ≠ []
  whole : AreDigits n.whole
  no_leading_zero : ∀ rest, n.whole = '0' :: rest → rest = []
  fraction : AreDigits n.fraction

theorem wellFormed_ofNat (n : Nat) : (ofNat n).WellFormed where
  whole_ne_nil := Nat.toDigits_ne_nil
  whole := areDigits_decimalDigits n
  no_leading_zero rest h := by
    have h : decimalDigits n = '0' :: rest := h
    by_cases hn : n = 0
    · rw [hn, decimalDigits, Nat.toDigits_zero] at h
      cases h
      rfl
    · obtain ⟨c, more, hdigits, hc⟩ := decimalDigits_head hn
      rw [hdigits] at h
      cases h
      exact absurd rfl hc
  fraction := fun _ hc => nomatch hc

end Numeral

/-- Floats are laid out as numerals that can be read. -/
theorem FloatLayout.wellFormed_json (d : Decimal) : (json.numeral d).WellFormed := by
  have hdigits := areDigits_decimalDigits d.coefficient
  have hzero : AreDigits ['0'] := areDigits_zeros 1
  unfold numeral
  dsimp only
  split
  · exact ⟨by simp, hzero, by simp, hzero⟩
  next hc =>
    obtain ⟨c, rest, hhead, hne⟩ := decimalDigits_head hc
    split
    · split
      · refine ⟨by simp [hhead], areDigits_append.2 ⟨hdigits, areDigits_zeros _⟩, ?_, hzero⟩
        simp [hhead, hne]
      · split
        · next hplaces =>
          obtain ⟨k, hk⟩ : ∃ k, ((decimalDigits d.coefficient).length + d.exponent).toNat = k + 1 :=
            Nat.exists_eq_succ_of_ne_zero (by omega)
          have htake : (decimalDigits d.coefficient).take (k + 1) = c :: rest.take k := by
            rw [hhead, List.take_succ_cons]
          rw [hk]
          refine ⟨?_, hdigits.take _, ?_, hdigits.drop _⟩ <;> simp [htake, hne]
        · exact ⟨by simp, hzero, by simp, areDigits_append.2 ⟨areDigits_zeros _, hdigits⟩⟩
    · refine ⟨by simp [hhead], hdigits.take 1, ?_, hdigits.drop 1⟩
      simp [hhead, hne]

end Number

namespace Json

/-- The characters that end a numeral or a word. -/
def isDelimiter (c : Char) : Bool := [' ', '\n', ',', ':', ']', '\x7d'].contains c

/-- What follows a value: nothing, or a character that ends numerals and words. -/
def Closed (rest : List Char) : Prop := ∀ c more, rest = c :: more → isDelimiter c = true

theorem foldlM_step {σ α : Type} {f : σ → α → Option σ} {s t : σ} {a : α} (h : f s a = some t)
    (rest : List α) : (a :: rest).foldlM f s = rest.foldlM f t := by
  rw [List.foldlM_cons, h]
  rfl

namespace PartialNumeral

variable {p : PartialNumeral} {c : Char} {cs ds : List Char}

/-! ## Numerals as they are read -/

/-- The numeral that nothing but a sign is known of. -/
def start (negative : Bool) : PartialNumeral := { stage := .sign, negative }

/-- A numeral may end where it has at least one digit in its last part. -/
def MayEnd (p : PartialNumeral) : Prop :=
  p.stage = .zero ∨ p.stage = .whole ∨ p.stage = .fraction ∨ p.stage = .exponent

theorem extend_delimiter (hp : p.MayEnd) (hc : isDelimiter c = true) : p.extend c = none := by
  -- a delimiter is neither a digit nor a point nor the mark of an exponent
  have hc : c ∈ [' ', '\n', ',', ':', ']', '\x7d'] := List.contains_iff_mem.1 hc
  simp only [List.mem_cons, List.not_mem_nil, or_false] at hc
  unfold extend
  rcases hp with hp | hp | hp | hp <;> rw [hp] <;> rcases hc with rfl | rfl | rfl | rfl | rfl | rfl
    <;> rfl

theorem toNat_sub_eq_zero (hc : c.isDigit = true) : c.toNat - '0'.toNat = 0 ↔ c = '0' := by
  constructor
  · intro h
    have hle : '0'.toNat ≤ c.toNat := by
      rw [Char.isDigit, Bool.and_eq_true, decide_eq_true_eq, decide_eq_true_eq] at hc
      exact UInt32.le_iff_toNat_le.1 hc.1
    exact Char.toNat_inj.1 (by omega)
  · rintro rfl
    rfl

/-- Digits that are collected one by one, in a stage that they do not leave. -/
theorem foldlM_digits {stage : NumeralStage} {f : PartialNumeral → List Char → PartialNumeral}
    (hnil : ∀ p, f p [] = p)
    (hcons : ∀ p c rest, p.stage = stage → c.isDigit = true →
      ∃ p', p.extend c = some p' ∧ p'.stage = stage ∧ f p (c :: rest) = f p' rest)
    (hp : p.stage = stage) (hds : AreDigits ds) : ds.foldlM extend p = some (f p ds) := by
  induction ds generalizing p with
  | nil => exact congrArg some (hnil p).symm
  | cons c rest ih =>
    obtain ⟨hc, hrest⟩ := areDigits_cons.1 hds
    obtain ⟨p', hstep, hp', hcollect⟩ := hcons p c rest hp hc
    rw [foldlM_step hstep, ih hp' hrest, hcollect]

/-! ### The whole part -/

theorem extend_start (negative : Bool) (hc : c.isDigit = true) :
    (start negative).extend c
      = some { stage := if c = '0' then .zero else .whole, negative, whole := [c] } := by
  unfold extend
  rw [digitValue?_of_isDigit hc]
  simp only [start, toNat_sub_eq_zero hc]

theorem foldlM_whole (hp : p.stage = .whole) (hds : AreDigits ds) :
    ds.foldlM extend p = some { p with whole := ds.reverse ++ p.whole } := by
  refine foldlM_digits (f := fun p ds => { p with whole := ds.reverse ++ p.whole })
    (fun _ => rfl) (fun p c rest hp hc => ?_) hp hds
  refine ⟨{ p with whole := c :: p.whole }, ?_, hp, by simp⟩
  unfold extend
  rw [digitValue?_of_isDigit hc, hp]

theorem foldlM_start (negative : Bool) (hne : cs ≠ []) (hcs : AreDigits cs)
    (hzero : ∀ rest, cs = '0' :: rest → rest = []) :
    ∃ stage, (stage = .zero ∨ stage = .whole) ∧
      cs.foldlM extend (start negative) = some { stage, negative, whole := cs.reverse } := by
  obtain ⟨c, rest, rfl⟩ := List.exists_cons_of_ne_nil hne
  obtain ⟨hc, hrest⟩ := areDigits_cons.1 hcs
  rw [foldlM_step (extend_start negative hc)]
  by_cases hc0 : c = '0'
  · have hnil := hzero rest (by rw [hc0])
    subst hc0 hnil
    exact ⟨.zero, .inl rfl, rfl⟩
  · refine ⟨.whole, .inr rfl, ?_⟩
    rw [if_neg hc0, foldlM_whole rfl hrest]
    simp

/-! ### The fraction -/

theorem foldlM_fraction (hp : p.stage = .fraction) (hds : AreDigits ds) :
    ds.foldlM extend p = some { p with fraction := ds.reverse ++ p.fraction } := by
  refine foldlM_digits (f := fun p ds => { p with fraction := ds.reverse ++ p.fraction })
    (fun _ => rfl) (fun p c rest hp hc => ?_) hp hds
  refine ⟨{ p with fraction := c :: p.fraction }, ?_, hp, by simp⟩
  unfold extend
  rw [digitValue?_of_isDigit hc, hp]

theorem foldlM_point (hp : p.stage = .zero ∨ p.stage = .whole) (hnew : p.fraction = [])
    (hne : ds ≠ []) (hds : AreDigits ds) :
    ('.' :: ds).foldlM extend p = some { p with stage := .fraction, fraction := ds.reverse } := by
  obtain ⟨c, rest, rfl⟩ := List.exists_cons_of_ne_nil hne
  obtain ⟨hc, hrest⟩ := areDigits_cons.1 hds
  have hpoint : p.extend '.' = some { p with stage := .point } := by
    unfold extend
    rcases hp with hp | hp <;> rw [hp] <;> rfl
  have hfirst : ({ p with stage := .point } : PartialNumeral).extend c
      = some { p with stage := .fraction, fraction := [c] } := by
    unfold extend
    rw [digitValue?_of_isDigit hc]
    simp only [hnew]
  rw [foldlM_step hpoint, foldlM_step hfirst, foldlM_fraction rfl hrest]
  simp

/-! ### The exponent -/

theorem foldlM_exponent (hp : p.stage = .exponent) (hds : AreDigits ds) :
    ds.foldlM extend p = some { p with exponent := ofDigits p.exponent ds } := by
  refine foldlM_digits (f := fun p ds => { p with exponent := ofDigits p.exponent ds })
    (fun _ => rfl) (fun p c rest hp hc => ?_) hp hds
  refine ⟨{ p with exponent := p.exponent * 10 + (digitValue? c).getD 0 }, ?_, hp, rfl⟩
  unfold extend
  rw [digitValue?_of_isDigit hc, hp]
  rfl

theorem foldlM_mark (hp : p.stage = .zero ∨ p.stage = .whole ∨ p.stage = .fraction)
    (hnew : p.exponent = 0) (hsign : p.exponentNegative = false) (e : Int) :
    ('e' :: Numeral.exponentChars e).foldlM extend p
      = some { p with
        stage := .exponent, exponentNegative := decide (e < 0), exponent := e.natAbs } := by
  have hmark : p.extend 'e' = some { p with stage := .mark } := by
    unfold extend
    rcases hp with hp | hp | hp <;> rw [hp] <;> rfl
  have hsigned : ({ p with stage := .mark } : PartialNumeral).extend (if e < 0 then '-' else '+')
      = some { p with stage := .markSign, exponentNegative := decide (e < 0) } := by
    by_cases he : e < 0
    · simp only [he, if_true, decide_true]
      rfl
    · simp only [he, if_false, decide_false, ← hsign]
      rfl
  obtain ⟨c, rest, hcons⟩ := List.exists_cons_of_ne_nil
    (show decimalDigits e.natAbs ≠ [] from Nat.toDigits_ne_nil)
  have hds := areDigits_decimalDigits e.natAbs
  have hspell := ofDigits_decimalDigits e.natAbs
  rw [hcons] at hds hspell
  obtain ⟨hc, hrest⟩ := areDigits_cons.1 hds
  have hfirst : ({ p with stage := .markSign, exponentNegative := decide (e < 0) } :
      PartialNumeral).extend c = some { p with
        stage := .exponent, exponentNegative := decide (e < 0)
        exponent := 0 * 10 + (digitValue? c).getD 0 } := by
    unfold extend
    rw [digitValue?_of_isDigit hc]
    simp only [hnew, Option.getD_some]
  rw [Numeral.exponentChars, hcons, foldlM_step hmark, foldlM_step hsigned, foldlM_step hfirst,
    foldlM_exponent rfl hrest, ← hspell]
  rfl

/-! ### The whole numeral -/

/-- A numeral without its sign. -/
def unsigned (n : Numeral) : List Char :=
  n.whole ++ ((if n.fraction.isEmpty then [] else '.' :: n.fraction)
    ++ (match n.exponent with | some e => 'e' :: Numeral.exponentChars e | none => []))

/-- The part after the point, which may be missing. -/
theorem foldlM_fractionPart {n : Numeral} (h : n.WellFormed)
    (hp : p.stage = .zero ∨ p.stage = .whole) (hnew : p.fraction = []) :
    ∃ stage, (stage = .zero ∨ stage = .whole ∨ stage = .fraction) ∧
      (if n.fraction.isEmpty then [] else '.' :: n.fraction).foldlM extend p
        = some { p with stage, fraction := n.fraction.reverse } := by
  by_cases hempty : n.fraction = []
  · refine ⟨p.stage, hp.elim .inl fun hp => .inr (.inl hp), ?_⟩
    have hsame : ({ p with fraction := [] } : PartialNumeral) = p := by rw [← hnew]
    rw [if_pos (by rw [hempty]; rfl), hempty, List.reverse_nil]
    exact congrArg some hsame.symm
  · refine ⟨.fraction, .inr (.inr rfl), ?_⟩
    rw [if_neg (by simpa using hempty), foldlM_point hp hnew hempty h.fraction]

/-- Reading a numeral that has been written leads to where it may end, and to itself. -/
theorem foldlM_unsigned {n : Numeral} (h : n.WellFormed) :
    ∃ p, (unsigned n).foldlM extend (start n.negative) = some p ∧ p.MayEnd ∧
      p.finish = some n := by
  obtain ⟨first, hfirst, hwhole⟩ :=
    foldlM_start n.negative h.whole_ne_nil h.whole h.no_leading_zero
  obtain ⟨stage, hs, hfraction⟩ := foldlM_fractionPart h
    (p := { stage := first, negative := n.negative, whole := n.whole.reverse }) hfirst rfl
  -- each part is read from where the part before it has left off
  unfold unsigned
  rw [List.foldlM_append, hwhole, Option.bind_eq_bind, Option.bind_some, List.foldlM_append,
    hfraction, Option.bind_eq_bind, Option.bind_some]
  obtain ⟨negative, digits, fraction, exponent⟩ := n
  cases exponent with
  | none =>
    refine ⟨_, rfl, ?_, ?_⟩
    · rcases hs with rfl | rfl | rfl <;> simp [MayEnd]
    · rcases hs with rfl | rfl | rfl <;> simp [finish]
  | some e =>
    refine ⟨_, foldlM_mark hs rfl rfl e, .inr (.inr (.inr rfl)), ?_⟩
    have he : (if decide (e < 0) = true then -(e.natAbs : Int) else (e.natAbs : Int)) = e := by
      by_cases hneg : e < 0
      · rw [if_pos (by simpa using hneg)]
        omega
      · rw [if_neg (by simpa using hneg)]
        omega
    simp only [finish, he, List.reverse_reverse]

end PartialNumeral

end Json

end BackgroundTasks
