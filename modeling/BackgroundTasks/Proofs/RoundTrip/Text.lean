import BackgroundTasks.TaskId
import BackgroundTasks.Text.Utf8

/-!
# Texts that are written and read again

What is written as bytes or as hexadecimal digits is read back as it was. For bytes the argument
goes by the four forms of a character: each form has its own range of leading bytes, and the bounds
on the second byte never keep out what has been encoded. An id is its digits in five groups, so
reading one takes the hyphens out and puts the groups together.
-/

namespace BackgroundTasks

namespace Text

/-! ## Characters as bytes -/

namespace Utf8

/-- A byte made from a number that fits. -/
theorem toNat_byte {n : Nat} (h : n < 256) : (UInt8.ofNat n).toNat = n := by
  rw [UInt8.toNat_ofNat']
  exact Nat.mod_eq_of_lt h

theorem isContinuation_iff (b : UInt8) :
    isContinuation b = true ↔ 0x80 ≤ b.toNat ∧ b.toNat < 0xC0 := by
  simp only [isContinuation, Bool.and_eq_true, decide_eq_true_eq, UInt8.le_iff_toNat_le,
    UInt8.lt_iff_toNat_lt]
  rfl

/-- The byte that carries six bits of a character. -/
def tail (n : Nat) : UInt8 := UInt8.ofNat (0x80 + n % 64)

theorem toNat_tail (n : Nat) : (tail n).toNat = 0x80 + n % 64 := by
  have h : 0x80 + n % 64 < 256 := by omega
  rw [tail, toNat_byte h]

theorem isContinuation_tail (n : Nat) : isContinuation (tail n) = true := by
  rw [isContinuation_iff, toNat_tail]
  omega

theorem low_tail (n : Nat) : low (tail n) = n % 64 := by
  have h := toNat_tail n
  unfold low
  omega

section

variable {a : UInt8} {r : List UInt8}

theorem le_byte {b : UInt8} : b ≤ a ↔ b.toNat ≤ a.toNat := UInt8.le_iff_toNat_le

theorem byte_lt {b : UInt8} : a < b ↔ a.toNat < b.toNat := UInt8.lt_iff_toNat_lt

theorem not_byte_lt {b : UInt8} (h : b.toNat ≤ a.toNat) : ¬ a < b :=
  fun hlt => Nat.not_lt.2 h (byte_lt.1 hlt)

theorem decode_one (h : a.toNat < 0x80) :
    decode (a :: r) = (decode r).map (Char.ofNat a.toNat :: ·) := by
  rw [decode.eq_def]
  have ha : a < 0x80 := byte_lt.2 h
  simp only [ha, if_true]

theorem decode_two (hleast : 0xC2 ≤ a.toNat) (hmost : a.toNat < 0xE0) (n : Nat) :
    decode (a :: tail n :: r)
      = (decode r).map (Char.ofNat ((a.toNat - 0xC0) * 64 + n % 64) :: ·) := by
  have h₁ : ¬ a < 0x80 := not_byte_lt (Nat.le_trans (by decide) hleast)
  have h₂ : 0xC2 ≤ a := le_byte.2 hleast
  have h₃ : a < 0xE0 := byte_lt.2 hmost
  rw [decode.eq_def]
  simp only [h₁, h₂, h₃, isContinuation_tail, low_tail, decide_true, Bool.and_true, Bool.not_true,
    Bool.false_eq_true, if_true, if_false]

/-- The bounds on a second byte, which matter under two leading bytes only. -/
theorem second_passes {least most low high b : UInt8}
    (hlow : a.toNat = least.toNat → low.toNat ≤ b.toNat)
    (hhigh : a.toNat = most.toNat → b.toNat < high.toNat) :
    ((a == least && decide (b < low)) || (a == most && decide (high ≤ b))) = false := by
  rw [Bool.or_eq_false_iff, Bool.and_eq_false_imp, Bool.and_eq_false_imp]
  refine ⟨fun ha => decide_eq_false fun hlt => ?_, fun ha => decide_eq_false fun hle => ?_⟩
  · have hle := hlow (congrArg UInt8.toNat (beq_iff_eq.1 ha))
    have hlt := byte_lt.1 hlt
    omega
  · have hlt := hhigh (congrArg UInt8.toNat (beq_iff_eq.1 ha))
    have hle := le_byte.1 hle
    omega

theorem decode_three (hleast : 0xE0 ≤ a.toNat) (hmost : a.toNat < 0xF0) {m : Nat} (n : Nat)
    (hlong : a.toNat = 0xE0 → 0x20 ≤ m % 64) (hscalar : a.toNat = 0xED → m % 64 < 0x20) :
    decode (a :: tail m :: tail n :: r)
      = (decode r).map (Char.ofNat ((a.toNat - 0xE0) * 4096 + m % 64 * 64 + n % 64) :: ·) := by
  have hm := toNat_tail m
  have h₁ : ¬ a < 0x80 := not_byte_lt (Nat.le_trans (by decide) hleast)
  have h₂ : ¬ a < 0xE0 := not_byte_lt (Nat.le_trans (by decide) hleast)
  have h₃ : 0xE0 ≤ a := le_byte.2 hleast
  have h₄ : a < 0xF0 := byte_lt.2 hmost
  have h₅ := @second_passes a 0xE0 0xED 0xA0 0xA0 (tail m)
    (fun ha => by have := hlong ha; show 0xA0 ≤ _; omega)
    (fun ha => by have := hscalar ha; show _ < 0xA0; omega)
  rw [decode.eq_def]
  simp only [h₁, h₂, h₃, h₄, h₅, isContinuation_tail, low_tail, decide_true, decide_false,
    Bool.and_true, Bool.and_false, Bool.not_true, Bool.false_eq_true, if_true, if_false]

theorem decode_four (hleast : 0xF0 ≤ a.toNat) (hmost : a.toNat < 0xF5) {l : Nat} (m n : Nat)
    (hlong : a.toNat = 0xF0 → 0x10 ≤ l % 64) (hlast : a.toNat = 0xF4 → l % 64 < 0x10) :
    decode (a :: tail l :: tail m :: tail n :: r)
      = (decode r).map
        (Char.ofNat ((a.toNat - 0xF0) * 262144 + l % 64 * 4096 + m % 64 * 64 + n % 64) :: ·) := by
  have hl := toNat_tail l
  have h₁ : ¬ a < 0x80 := not_byte_lt (Nat.le_trans (by decide) hleast)
  have h₂ : ¬ a < 0xE0 := not_byte_lt (Nat.le_trans (by decide) hleast)
  have h₃ : ¬ a < 0xF0 := not_byte_lt (Nat.le_trans (by decide) hleast)
  have h₄ : 0xF0 ≤ a := le_byte.2 hleast
  have h₅ : a < 0xF5 := byte_lt.2 hmost
  have h₆ := @second_passes a 0xF0 0xF4 0x90 0x90 (tail l)
    (fun ha => by have := hlong ha; show 0x90 ≤ _; omega)
    (fun ha => by have := hlast ha; show _ < 0x90; omega)
  rw [decode.eq_def]
  simp only [h₁, h₂, h₃, h₄, h₅, h₆, isContinuation_tail, low_tail, decide_true, decide_false,
    Bool.and_true, Bool.and_false, Bool.not_true, Bool.false_eq_true, if_true, if_false]

end

theorem decode_encodeChar (c : Char) (r : List UInt8) :
    decode (encodeChar c ++ r) = (decode r).map (c :: ·) := by
  have hvalid : c.toNat < 0xD800 ∨ 0xDFFF < c.toNat ∧ c.toNat < 0x110000 := c.valid
  have hback : Char.ofNat c.toNat = c := Char.ofNat_toNat c
  unfold encodeChar
  generalize hn : c.toNat = n at hvalid hback
  dsimp only
  by_cases h₁ : n < 0x80
  · have ha := toNat_byte (show n < 256 by omega)
    rw [if_pos h₁, List.singleton_append, decode_one (by omega), ha, hback]
  rw [if_neg h₁]
  by_cases h₂ : n < 0x800
  · have ha := toNat_byte (show 0xC0 + n / 64 < 256 by omega)
    rw [if_pos h₂]
    show decode (UInt8.ofNat (0xC0 + n / 64) :: tail n :: r) = _
    rw [decode_two (by omega) (by omega), ha]
    have hn : (0xC0 + n / 64 - 0xC0) * 64 + n % 64 = n := by omega
    rw [hn, hback]
  rw [if_neg h₂]
  by_cases h₃ : n < 0x10000
  · have ha := toNat_byte (show 0xE0 + n / 4096 < 256 by omega)
    rw [if_pos h₃]
    show decode (UInt8.ofNat (0xE0 + n / 4096) :: tail (n / 64) :: tail n :: r) = _
    rw [decode_three (by omega) (by omega) n (by omega) (by omega), ha]
    have hn : (0xE0 + n / 4096 - 0xE0) * 4096 + n / 64 % 64 * 64 + n % 64 = n := by omega
    rw [hn, hback]
  have ha := toNat_byte (show 0xF0 + n / 262144 < 256 by omega)
  rw [if_neg h₃]
  show decode (UInt8.ofNat (0xF0 + n / 262144) :: tail (n / 4096) :: tail (n / 64) :: tail n :: r)
    = _
  rw [decode_four (by omega) (by omega) _ n (by omega) (by omega), ha]
  have hn : (0xF0 + n / 262144 - 0xF0) * 262144 + n / 4096 % 64 * 4096 + n / 64 % 64 * 64 + n % 64
      = n := by omega
  rw [hn, hback]

/-- The bytes of a text spell the text. -/
theorem decode_encode (cs : List Char) : decode (encode cs) = some cs := by
  induction cs with
  | nil => rfl
  | cons c rest ih =>
    show decode (encodeChar c ++ encode rest) = _
    rw [decode_encodeChar, ih]
    rfl

theorem toString?_ofString (s : String) : toString? (ofString s) = some s := by
  rw [toString?, ofString, decode_encode, Option.map_some, String.ofList_toList]

theorem encode_append (cs ds : List Char) : encode (cs ++ ds) = encode cs ++ encode ds :=
  List.flatMap_append

/-- A byte below the first of two bytes is a character by itself. -/
theorem mem_of_mem_encode {b : UInt8} (hb : b.toNat < 0x80) {cs : List Char}
    (h : b ∈ encode cs) : Char.ofNat b.toNat ∈ cs := by
  obtain ⟨c, hc, hmem⟩ := List.mem_flatMap.1 h
  have hvalid : c.toNat < 0xD800 ∨ 0xDFFF < c.toNat ∧ c.toNat < 0x110000 := c.valid
  have hback : Char.ofNat c.toNat = c := Char.ofNat_toNat c
  have htail (n : Nat) : b ≠ tail n := fun h => by
    have := toNat_tail n
    rw [← h] at this
    omega
  have hlead (n : Nat) (hleast : 0x80 ≤ n) (hmost : n < 256) : b ≠ UInt8.ofNat n := fun h => by
    have := toNat_byte hmost
    rw [← h] at this
    omega
  unfold encodeChar at hmem
  generalize c.toNat = n at hvalid hback hmem
  dsimp only at hmem
  split at hmem
  · next h =>
    rw [List.mem_singleton.1 hmem, toNat_byte (by omega), hback]
    exact hc
  split at hmem
  · rcases List.mem_cons.1 hmem with h | hmem
    · exact absurd h (hlead _ (by omega) (by omega))
    · exact absurd (List.mem_singleton.1 hmem) (htail n)
  split at hmem
  · rcases List.mem_cons.1 hmem with h | hmem
    · exact absurd h (hlead _ (by omega) (by omega))
    rcases List.mem_cons.1 hmem with h | hmem
    · exact absurd h (htail (n / 64))
    · exact absurd (List.mem_singleton.1 hmem) (htail n)
  · rcases List.mem_cons.1 hmem with h | hmem
    · exact absurd h (hlead _ (by omega) (by omega))
    rcases List.mem_cons.1 hmem with h | hmem
    · exact absurd h (htail (n / 4096))
    rcases List.mem_cons.1 hmem with h | hmem
    · exact absurd h (htail (n / 64))
    · exact absurd (List.mem_singleton.1 hmem) (htail n)

end Utf8

/-! ## Hexadecimal digits -/

theorem hexValue?_hexDigit : ∀ v < 16, hexValue? (hexDigit v) = some v := by decide

theorem length_hexDigits (width n : Nat) : (hexDigits width n).length = width := by
  induction width generalizing n with
  | zero => rfl
  | succ width ih => rw [hexDigits, List.length_append, ih, List.length_singleton]

theorem ofHexDigits?_append (start : Nat) (xs ys : List Char) :
    ofHexDigits? start (xs ++ ys) = (ofHexDigits? start xs).bind fun n => ofHexDigits? n ys := by
  induction xs generalizing start with
  | nil => rfl
  | cons c rest ih =>
    rw [List.cons_append, ofHexDigits?, ofHexDigits?]
    cases hexValue? c with
    | none => rfl
    | some v => exact ih _

/-- Digits of a width that is enough spell the number again. -/
theorem ofHexDigits?_hexDigits {width n : Nat} (h : n < Nat.pow 16 width) :
    ofHexDigits? 0 (hexDigits width n) = some n := by
  induction width generalizing n with
  | zero =>
    obtain rfl := Nat.lt_one_iff.1 h
    rfl
  | succ width ih =>
    have h : n < Nat.pow 16 width * 16 := h
    have hrest : n / 16 < Nat.pow 16 width := by omega
    have hlast := hexValue?_hexDigit (n % 16) (Nat.mod_lt n (by decide))
    rw [hexDigits, ofHexDigits?_append, ih hrest, Option.bind_some, ofHexDigits?, hlast]
    show some (n / 16 * 16 + n % 16) = some n
    rw [Nat.div_add_mod' n 16]

end Text

/-! ## Task ids -/

namespace TaskId

/-- What comes after a group of digits and its hyphen. -/
theorem drop_group {g rest : List Char} {k : Nat} (hg : g.length = k) (n : Nat) :
    (g ++ '-' :: rest).drop (n + (k + 1)) = rest.drop n := by
  rw [← hg, Nat.add_comm n, Nat.add_assoc, List.drop_length_add_append, Nat.add_comm 1 n]
  rfl

theorem getElem?_hyphen {g rest : List Char} {k : Nat} (hg : g.length = k) :
    (g ++ '-' :: rest)[k]? = some '-' := by
  rw [← hg, List.getElem?_append_right (Nat.le_refl _), Nat.sub_self]
  rfl

/-- Five groups of digits with hyphens between them. -/
theorem ofHyphenated?_groups {a b c d e : List Char} (ha : a.length = 8) (hb : b.length = 4)
    (hc : c.length = 4) (hd : d.length = 4) (he : e.length = 12) :
    ofHyphenated? (a ++ '-' :: (b ++ '-' :: (c ++ '-' :: (d ++ '-' :: e))))
      = ofDigits? (a ++ b ++ c ++ d ++ e) := by
  generalize hcs : a ++ '-' :: (b ++ '-' :: (c ++ '-' :: (d ++ '-' :: e))) = cs
  have hlength : cs.length = 36 := by
    rw [← hcs]
    simp [ha, hb, hc, hd, he]
  -- what is left of the text after each hyphen
  have h9 (n : Nat) : cs.drop (n + 9) = (b ++ '-' :: (c ++ '-' :: (d ++ '-' :: e))).drop n :=
    hcs ▸ drop_group ha n
  have h14 (n : Nat) : cs.drop (n + 14) = (c ++ '-' :: (d ++ '-' :: e)).drop n :=
    (h9 (n + 5)).trans (drop_group hb n)
  have h19 (n : Nat) : cs.drop (n + 19) = (d ++ '-' :: e).drop n :=
    (h14 (n + 5)).trans (drop_group hc n)
  have h24 : cs.drop 24 = e := (h19 5).trans (drop_group hd 0)
  have hhyphen {n k : Nat} {g rest : List Char} (hdrop : cs.drop n = g ++ '-' :: rest)
      (hg : g.length = k) : cs[n + k]? = some '-' := by
    rw [← List.getElem?_drop, hdrop, getElem?_hyphen hg]
  have hhyphens : [8, 13, 18, 23].all (fun i => cs[i]? == some '-') = true := by
    simp only [List.all_cons, List.all_nil, Bool.and_true, Bool.and_eq_true, beq_iff_eq]
    have h8 : cs[0 + 8]? = some '-' := hhyphen hcs.symm ha
    exact ⟨h8, hhyphen (h9 0) hb, hhyphen (h14 0) hc, hhyphen (h19 0) hd⟩
  unfold ofHyphenated?
  rw [hlength, hhyphens]
  show ofDigits? _ = _
  rw [h9 0, h14 0, h19 0, h24, ← hcs, List.take_left' ha]
  show ofDigits? (a ++ (b ++ _).take 4 ++ (c ++ _).take 4 ++ (d ++ _).take 4 ++ e) = _
  rw [List.take_left' hb, List.take_left' hc, List.take_left' hd]

theorem ofText?_of_length {s : String} (h : s.toList.length = 36) :
    ofText? s = ofHyphenated? s.toList := by
  unfold ofText?
  dsimp only
  rw [h]
  rfl

theorem ofText?_text (id : TaskId) : ofText? id.text = some id := by
  have hlength := Text.length_hexDigits 32 id.bits.toNat
  have hspell : Text.ofHexDigits? 0 (Text.hexDigits 32 id.bits.toNat) = some id.bits.toNat :=
    Text.ofHexDigits?_hexDigits id.bits.isLt
  have hback : ofNat id.bits.toNat = id := by
    rw [ofNat, BitVec.ofNat_toNat, BitVec.setWidth_eq]
  unfold text
  generalize Text.hexDigits 32 id.bits.toNat = d at hlength hspell
  have hgroups : ∃ a b c e f, d = a ++ b ++ c ++ e ++ f ∧ a = d.take 8 ∧ b = (d.drop 8).take 4 ∧
      c = (d.drop 12).take 4 ∧ e = (d.drop 16).take 4 ∧ f = d.drop 20 := by
    refine ⟨_, _, _, _, _, ?_, rfl, rfl, rfl, rfl, rfl⟩
    have h8 := List.take_append_drop 4 (d.drop 8)
    have h12 := List.take_append_drop 4 (d.drop 12)
    have h16 := List.take_append_drop 4 (d.drop 16)
    rw [List.drop_drop] at h8 h12 h16
    rw [List.append_assoc, List.append_assoc, List.append_assoc, h16, h12, h8,
      List.take_append_drop]
  obtain ⟨a, b, c, e, f, hd, ha, hb, hc, he, hf⟩ := hgroups
  have htext : (String.ofList (d.take 8 ++ '-' :: (d.drop 8).take 4 ++ '-' :: (d.drop 12).take 4
      ++ '-' :: (d.drop 16).take 4 ++ '-' :: d.drop 20)).toList
      = a ++ '-' :: (b ++ '-' :: (c ++ '-' :: (e ++ '-' :: f))) := by
    rw [String.toList_ofList, ← ha, ← hb, ← hc, ← he, ← hf]
    simp only [List.append_assoc, List.cons_append]
  have hla : a.length = 8 := by simp [ha, hlength]
  have hlb : b.length = 4 := by simp [hb, hlength]
  have hlc : c.length = 4 := by simp [hc, hlength]
  have hle : e.length = 4 := by simp [he, hlength]
  have hlf : f.length = 12 := by simp [hf, hlength]
  have hsize : (a ++ '-' :: (b ++ '-' :: (c ++ '-' :: (e ++ '-' :: f)))).length = 36 := by
    simp [hla, hlb, hlc, hle, hlf]
  rw [ofText?_of_length (by rw [htext, hsize]), htext, ofHyphenated?_groups hla hlb hlc hle hlf,
    ← hd, ofDigits?, if_pos hlength, hspell, Option.map_some, hback]

end TaskId

end BackgroundTasks
