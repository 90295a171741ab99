import BackgroundTasks.Payload.Registry
import BackgroundTasks.Proofs.RoundTrip.Json

/-!
# Envelopes that are closed and opened again

What a registry seals it can open again, if its cipher takes back what it has done. The bytes of a
text survive the cipher by assumption and base64 by three small facts, one for each length of the
last group; and the envelope is told apart from what is in it, since a version holds no colon.

Data without an envelope is taken as it is. The text of a record opens with a brace and an envelope
with a letter, so no record is ever taken for an envelope.
-/

namespace BackgroundTasks

/-! ## Base64 -/

namespace Text.Base64

theorem value?_digit : ∀ v < 64, value? (digit v) = some v := by decide

/-- The padding is no digit. -/
theorem digit_ne_padding : ∀ v < 64, (digit v == '=') = false := by decide

section

variable (a b c : UInt8)

theorem ofNat_first {n : Nat} (hn : n < 16) :
    UInt8.ofNat (a.toNat / 4 * 4 + (a.toNat % 4 * 16 + n) / 16) = a := by
  have h : a.toNat / 4 * 4 + (a.toNat % 4 * 16 + n) / 16 = a.toNat := by omega
  rw [h, UInt8.ofNat_toNat]

theorem ofNat_second {m n : Nat} (hn : n < 4) :
    UInt8.ofNat ((m * 16 + b.toNat / 16) % 16 * 16 + (b.toNat % 16 * 4 + n) / 4) = b := by
  have hb := b.toNat_lt
  have h : (m * 16 + b.toNat / 16) % 16 * 16 + (b.toNat % 16 * 4 + n) / 4 = b.toNat := by omega
  rw [h, UInt8.ofNat_toNat]

theorem ofNat_third {n : Nat} :
    UInt8.ofNat ((n * 4 + c.toNat / 64) % 4 * 64 + c.toNat % 64) = c := by
  have hc := c.toNat_lt
  have h : (n * 4 + c.toNat / 64) % 4 * 64 + c.toNat % 64 = c.toNat := by omega
  rw [h, UInt8.ofNat_toNat]

/-- A whole group, whether or not it is the last one. -/
theorem group_three (last : Bool) :
    group last (digit (a.toNat / 4)) (digit (a.toNat % 4 * 16 + b.toNat / 16))
      (digit (b.toNat % 16 * 4 + c.toNat / 64)) (digit (c.toNat % 64)) = some [a, b, c] := by
  have ha := a.toNat_lt
  have hb := b.toNat_lt
  have hc := c.toNat_lt
  have hp := value?_digit (a.toNat / 4) (by omega)
  have hq := value?_digit (a.toNat % 4 * 16 + b.toNat / 16) (by omega)
  have hr := value?_digit (b.toNat % 16 * 4 + c.toNat / 64) (by omega)
  have hs := value?_digit (c.toNat % 64) (by omega)
  have hy := digit_ne_padding (b.toNat % 16 * 4 + c.toNat / 64) (by omega)
  have hz := digit_ne_padding (c.toNat % 64) (by omega)
  unfold group
  simp only [hp, hq, hr, hs, hy, hz, Bool.and_false, Bool.false_eq_true, if_false,
    Option.bind_eq_bind, Option.bind_some]
  rw [ofNat_first a (by omega), ofNat_second b (by omega), ofNat_third c]

/-- A group of two bytes leaves two bits over. -/
theorem group_two :
    group true (digit (a.toNat / 4)) (digit (a.toNat % 4 * 16 + b.toNat / 16))
      (digit (b.toNat % 16 * 4)) '=' = some [a, b] := by
  have ha := a.toNat_lt
  have hb := b.toNat_lt
  have hp := value?_digit (a.toNat / 4) (by omega)
  have hq := value?_digit (a.toNat % 4 * 16 + b.toNat / 16) (by omega)
  have hr := value?_digit (b.toNat % 16 * 4) (by omega)
  have hy := digit_ne_padding (b.toNat % 16 * 4) (by omega)
  have hzero : b.toNat % 16 * 4 % 4 = 0 := Nat.mul_mod_left _ _
  unfold group
  simp only [hp, hq, hr, hy, hzero, Bool.and_false, Bool.false_and, Bool.false_eq_true, if_false,
    Bool.true_and, BEq.rfl, if_true, Option.bind_eq_bind, Option.bind_some]
  have hsecond := ofNat_second b (m := a.toNat % 4) (n := 0) (by omega)
  rw [Nat.add_zero] at hsecond
  rw [ofNat_first a (by omega), hsecond]

/-- A group of one byte leaves four bits over. -/
theorem group_one :
    group true (digit (a.toNat / 4)) (digit (a.toNat % 4 * 16)) '=' '=' = some [a] := by
  have ha := a.toNat_lt
  have hp := value?_digit (a.toNat / 4) (by omega)
  have hq := value?_digit (a.toNat % 4 * 16) (by omega)
  have hzero : a.toNat % 4 * 16 % 16 = 0 := Nat.mul_mod_left _ _
  unfold group
  simp only [hp, hq, hzero, Bool.true_and, BEq.rfl, if_true, Option.bind_eq_bind,
    Option.bind_some]
  have hfirst := ofNat_first a (n := 0) (by omega)
  rw [Nat.add_zero] at hfirst
  rw [hfirst]

end

/-- Bytes are read back as they were written. -/
theorem decode_encode (bytes : List UInt8) : decode (encode bytes) = some bytes := by
  fun_induction encode bytes with
  | case1 => rfl
  | case2 a => rw [decode, List.isEmpty_nil, group_one]; rfl
  | case3 a b => rw [decode, List.isEmpty_nil, group_two]; rfl
  | case4 a b c rest ih => rw [decode, group_three, ih]; rfl

end Text.Base64

/-! ## The registry's envelopes -/

/-- A cipher that takes back what it has done. -/
def Cipher.Inverts (c : Cipher) : Prop :=
  ∀ plain sealed, c.encrypt plain = .ok sealed → c.decrypt sealed = .ok plain

theorem Cipher.inverts_mask (key : UInt8) : (Cipher.mask key).Inverts := by
  intro plain sealed h
  obtain rfl := Except.ok.inj h
  have hbyte : ((· ^^^ key) ∘ (· ^^^ key) : UInt8 → UInt8) = id := by
    funext b
    show b ^^^ key ^^^ key = b
    rw [UInt8.xor_assoc, UInt8.xor_self, UInt8.xor_zero]
  show Except.ok (((plain.map (· ^^^ key)).map (· ^^^ key))) = _
  rw [List.map_map, hbyte, List.map_id]

namespace Registry

variable {r : Registry} {c : Cipher} {plain data : String}

/-- What is sealed with a cipher is its ciphertext in an envelope. -/
theorem sealText_eq_ok (hc : r.cipher = some c) :
    r.sealText plain = .ok data ↔
      ∃ sealed, c.encrypt (Text.Utf8.ofString plain) = .ok sealed
        ∧ data = String.ofList (mark ++ version ++ ':' :: Text.Base64.encode sealed) := by
  unfold sealText
  rw [hc]
  dsimp only
  cases c.encrypt (Text.Utf8.ofString plain) with
  | error text => simp
  | ok sealed => simp [eq_comm]

/-- The mark and the version are taken off an envelope. -/
theorem envelope_parts (body : List Char) :
    afterMark? mark (mark ++ version ++ ':' :: body) = some (version ++ ':' :: body)
      ∧ (version ++ ':' :: body).takeWhile (· != ':') = version
      ∧ ((version ++ ':' :: body).dropWhile (· != ':')).drop 1 = body :=
  ⟨rfl, rfl, rfl⟩

/-- Data that does not begin like an envelope is taken as it is. -/
theorem openEnvelope_plain (r : Registry) (h : data.toList.head? ≠ some 'e') :
    r.openEnvelope data = .ok data := by
  have hmark : afterMark? mark data.toList = none := by
    cases hdata : data.toList with
    | nil => rfl
    | cons d rest =>
      rw [hdata] at h
      exact if_neg fun heq => h (congrArg some heq.symm)
  unfold openEnvelope
  rw [hmark]

/-- **What a registry has sealed, a registry with the same cipher opens.** -/
theorem openEnvelope_sealText {r' : Registry} (hc : r.cipher = some c) (hc' : r'.cipher = some c)
    (hinv : c.Inverts) (h : r.sealText plain = .ok data) : r'.openEnvelope data = .ok plain := by
  obtain ⟨sealed, hsealed, rfl⟩ := (sealText_eq_ok hc).1 h
  obtain ⟨hmark, hversion, hbody⟩ := envelope_parts (Text.Base64.encode sealed)
  unfold openEnvelope
  simp only [String.toList_ofList, hmark, hversion, hbody, bne_self_eq_false, Bool.false_eq_true,
    if_false, hc', Text.Base64.decode_encode, hinv _ _ hsealed, Text.Utf8.toString?_ofString]

/-- Without a cipher, nothing that was sealed is opened. -/
theorem openEnvelope_sealed {r' : Registry} (hc : r.cipher = some c) (hc' : r'.cipher = none)
    (h : r.sealText plain = .ok data) : r'.openEnvelope data = .error .cipherMissing := by
  obtain ⟨sealed, -, rfl⟩ := (sealText_eq_ok hc).1 h
  obtain ⟨hmark, hversion, -⟩ := envelope_parts (Text.Base64.encode sealed)
  unfold openEnvelope
  simp only [String.toList_ofList, hmark, hversion, bne_self_eq_false, Bool.false_eq_true,
    if_false, hc']

end Registry

end BackgroundTasks
