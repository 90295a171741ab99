import BackgroundTasks.Proofs.RoundTrip.Json

/-!
# Texts that have been torn

A text that is cut between two characters is a shorter text; cut inside a character it is no text at
all, since a character cut short spells nothing.

The text of an object is read in one way only: as a whole, and with nothing before it but blanks.

A brace that stands outside a string ends the word or the numeral before it, so the machine goes on
as if the text before the brace had been a text of its own. Hence what is cut off an object cannot
be made up for: were a beginning of the object a value already, its last brace would be one token
too many. And if something stands before the object, the object opens inside that, where it may go
on in two ways: as a value, which then is not the outermost one, or as a part of a string, which the
first quote in the object closes.
-/

namespace BackgroundTasks

namespace Text.Utf8

/-! ## Bytes that have been cut -/

/-- A cut that goes through no character. -/
def BetweenChars (cs : List Char) (cut : Nat) : Prop :=
  ∃ before after, before ++ after = cs ∧ (encode before).length = cut

section

variable {a : UInt8}

theorem decode_lead (h : 0x80 ≤ a.toNat) : decode [a] = none := by
  have ha : ¬ a < 0x80 := not_byte_lt h
  rw [decode.eq_def]
  simp only [ha, if_false]

theorem decode_lead_two (h : 0xE0 ≤ a.toNat) (n : Nat) : decode [a, tail n] = none := by
  have h₁ : ¬ a < 0x80 := not_byte_lt (Nat.le_trans (by decide) h)
  have h₂ : ¬ a < 0xE0 := not_byte_lt h
  rw [decode.eq_def]
  simp only [h₁, h₂, isContinuation_tail, decide_false, Bool.and_false, Bool.not_true,
    Bool.false_eq_true, if_false]

theorem decode_lead_three (h : 0xF0 ≤ a.toNat) (m n : Nat) : decode [a, tail m, tail n] = none := by
  have h₁ : ¬ a < 0x80 := not_byte_lt (Nat.le_trans (by decide) h)
  have h₂ : ¬ a < 0xE0 := not_byte_lt (Nat.le_trans (by decide) h)
  have h₃ : ¬ a < 0xF0 := not_byte_lt h
  rw [decode.eq_def]
  simp only [h₁, h₂, h₃, isContinuation_tail, decide_false, Bool.and_false, Bool.not_true,
    Bool.false_eq_true, if_false]

end

/-- A character cut short spells nothing. -/
theorem decode_take_encodeChar {c : Char} {k : Nat} (hpos : 0 < k)
    (hk : k < (encodeChar c).length) : decode ((encodeChar c).take k) = none := by
  have hvalid : c.toNat < 0xD800 ∨ 0xDFFF < c.toNat ∧ c.toNat < 0x110000 := c.valid
  unfold encodeChar at hk ⊢
  generalize c.toNat = n at hvalid hk
  dsimp only at hk ⊢
  split at hk
  · have hk : k < 1 := hk
    omega
  next h₁ =>
  rw [if_neg h₁]
  split at hk
  · next h₂ =>
    have hk : k < 2 := hk
    obtain rfl : k = 1 := by omega
    rw [if_pos h₂]
    refine decode_lead ?_
    rw [toNat_byte (by omega)]
    omega
  next h₂ =>
  rw [if_neg h₂]
  split at hk
  · next h₃ =>
    have ha := toNat_byte (show 0xE0 + n / 4096 < 256 by omega)
    have hk : k < 3 := hk
    rw [if_pos h₃]
    obtain rfl | rfl : k = 1 ∨ k = 2 := by omega
    · exact decode_lead (by omega)
    · exact decode_lead_two (by omega) (n / 64)
  · next h₃ =>
    have ha := toNat_byte (show 0xF0 + n / 262144 < 256 by omega)
    have hk : k < 4 := hk
    rw [if_neg h₃]
    obtain rfl | rfl | rfl : k = 1 ∨ k = 2 ∨ k = 3 := by omega
    · exact decode_lead (by omega)
    · exact decode_lead_two (by omega) (n / 4096)
    · exact decode_lead_three (by omega) (n / 4096) (n / 64)

/-- A cut through a character leaves no text. -/
theorem decode_take_encode {cs : List Char} {cut : Nat} (hcut : cut ≤ (encode cs).length)
    (h : ¬ BetweenChars cs cut) : decode ((encode cs).take cut) = none := by
  induction cs generalizing cut with
  | nil =>
    obtain rfl : cut = 0 := Nat.le_zero.1 hcut
    exact absurd ⟨[], [], rfl, rfl⟩ h
  | cons c more ih =>
    have hcons : encode (c :: more) = encodeChar c ++ encode more := rfl
    rw [hcons, List.length_append] at hcut
    rw [hcons, List.take_append]
    by_cases hwhole : (encodeChar c).length ≤ cut
    · have hmore : ¬ BetweenChars more (cut - (encodeChar c).length) := by
        rintro ⟨before, after, rfl, hlength⟩
        refine h ⟨c :: before, after, rfl, ?_⟩
        show (encodeChar c ++ encode before).length = cut
        rw [List.length_append]
        omega
      rw [List.take_of_length_le hwhole, decode_encodeChar, ih (by omega) hmore]
      rfl
    · have hpos : 0 < cut := by
        refine Nat.pos_of_ne_zero fun hzero => h ⟨[], c :: more, rfl, hzero.symm⟩
      rw [Nat.sub_eq_zero_of_le (by omega), List.take_zero, List.append_nil]
      exact decode_take_encodeChar hpos (by omega)

theorem eq_nil_of_length_encode {cs : List Char} (h : (encode cs).length = 0) : cs = [] := by
  cases cs with
  | nil => rfl
  | cons c more =>
    have hpos : 0 < (encodeChar c).length := by
      unfold encodeChar
      dsimp only
      repeat' split
      all_goals exact Nat.succ_pos _
    have hcons : (encode (c :: more)).length = (encodeChar c).length + (encode more).length :=
      List.length_append
    omega

section

variable {cs ds : List Char} {cut : Nat}

theorem betweenChars_left (hcut : cut ≤ (encode cs).length) :
    BetweenChars (cs ++ ds) cut ↔ BetweenChars cs cut := by
  constructor
  · rintro ⟨before, after, heq, hlength⟩
    rcases List.append_eq_append_iff.1 heq with ⟨more, rfl, -⟩ | ⟨more, rfl, -⟩
    · exact ⟨before, more, rfl, hlength⟩
    · -- the cut cannot lie beyond the first text
      rw [encode_append, List.length_append] at hlength
      obtain rfl := eq_nil_of_length_encode (show (encode more).length = 0 by omega)
      exact ⟨cs, [], List.append_nil cs, by simpa [encode] using hlength⟩
  · rintro ⟨before, after, rfl, hlength⟩
    exact ⟨before, after ++ ds, (List.append_assoc _ _ _).symm, hlength⟩

theorem betweenChars_right (hcut : (encode cs).length ≤ cut) :
    BetweenChars (cs ++ ds) cut ↔ BetweenChars ds (cut - (encode cs).length) := by
  constructor
  · rintro ⟨before, after, heq, hlength⟩
    rcases List.append_eq_append_iff.1 heq with ⟨more, rfl, -⟩ | ⟨more, rfl, rfl⟩
    · rw [encode_append, List.length_append] at hcut ⊢
      exact ⟨[], ds, rfl, by show 0 = _; omega⟩
    · rw [encode_append, List.length_append] at hlength
      exact ⟨more, after, rfl, by omega⟩
  · rintro ⟨before, after, rfl, hlength⟩
    refine ⟨cs ++ before, after, List.append_assoc _ _ _, ?_⟩
    rw [encode_append, List.length_append]
    omega

end

end Text.Utf8

namespace Json

namespace Lexer

variable {l m : Lexer} {c : Char} {cs : List Char} {ts : List Token}

/-- A blank that the machine passes over between tokens. -/
def isSpace (c : Char) : Bool := c = ' ' || c = '\t' || c = '\n' || c = '\r'

/-! ## The tokens of a beginning -/

/-- Between tokens a character is passed over, begins something, or is a token itself. -/
theorem stepBetween_cases (h : l.stepBetween c = some m) :
    (isSpace c = true ∧ m = l) ∨ (m.tokens = l.tokens ∧ m.mode ≠ .between) ∨
      ∃ t, m.tokens = t :: l.tokens := by
  revert h
  unfold stepBetween
  refine iteInduction (motive := fun o => o = some m → _) (fun hspace h => ?_) fun _ => ?_
  · cases h
    refine .inl ⟨?_, rfl⟩
    simpa [isSpace, or_assoc] using hspace
  -- six marks, and then what a string, a numeral or a word begins with
  iterate 6
    refine iteInduction (motive := fun o => o = some m → _) (fun _ h => ?_) fun _ => ?_
    · cases h
      exact .inr (.inr ⟨_, rfl⟩)
  iterate 3
    refine iteInduction (motive := fun o => o = some m → _) (fun _ h => ?_) fun _ => ?_
    · cases h
      exact .inr (.inl ⟨rfl, nofun⟩)
  intro h
  obtain ⟨n, -, rfl⟩ := Option.map_eq_some_iff.1 h
  exact .inr (.inl ⟨rfl, nofun⟩)

/--
The machine stays where it is at a blank; otherwise it is inside something or has given out more.
-/
theorem step_cases (h : l.step c = some m) :
    (isSpace c = true ∧ l.mode = .between ∧ m = l) ∨ (m.tokens = l.tokens ∧ m.mode ≠ .between) ∨
      ∃ t new, m.tokens = t :: new ++ l.tokens := by
  -- a token that is closed by what comes next is given out first
  have hclosed {t : Token} (h : (l.emit t).stepBetween c = some m) :
      ∃ t' new, m.tokens = t' :: new ++ l.tokens := by
    rcases stepBetween_cases h with ⟨-, rfl⟩ | ⟨htokens, -⟩ | ⟨t', htokens⟩
    · exact ⟨t, [], rfl⟩
    · exact ⟨t, [], htokens⟩
    · exact ⟨t', [t], htokens⟩
  unfold step at h
  split at h
  · next hmode =>
    rcases stepBetween_cases h with ⟨hc, rfl⟩ | hinside | ⟨t, htokens⟩
    · exact .inl ⟨hc, hmode, rfl⟩
    · exact .inr (.inl hinside)
    · exact .inr (.inr ⟨t, [], htokens⟩)
  · split at h
    · cases h
      exact .inr (.inl ⟨rfl, nofun⟩)
    · obtain ⟨t, -, h⟩ := Option.bind_eq_some_iff.1 h
      exact .inr (.inr (hclosed h))
  · split at h
    · cases h
      exact .inr (.inl ⟨rfl, nofun⟩)
    · obtain ⟨n, -, h⟩ := Option.bind_eq_some_iff.1 h
      exact .inr (.inr (hclosed h))
  · split at h
    · cases h
      exact .inr (.inr ⟨_, [], rfl⟩)
    split at h
    · cases h
      exact .inr (.inl ⟨rfl, nofun⟩)
    split at h
    · cases h
    · cases h
      exact .inr (.inl ⟨rfl, nofun⟩)
  · split at h
    · cases h
      exact .inr (.inl ⟨rfl, nofun⟩)
    · obtain ⟨_, -, rfl⟩ := Option.map_eq_some_iff.1 h
      exact .inr (.inl ⟨rfl, nofun⟩)
  · obtain ⟨_, -, h⟩ := Option.bind_eq_some_iff.1 h
    dsimp only at h
    split at h
    · cases h
      exact .inr (.inl ⟨rfl, nofun⟩)
    · obtain ⟨_, -, rfl⟩ := Option.map_eq_some_iff.1 h
      exact .inr (.inl ⟨rfl, nofun⟩)

/-- No token is taken back. -/
theorem tokens_step (h : l.step c = some m) : l.tokens <:+ m.tokens := by
  rcases step_cases h with ⟨-, -, rfl⟩ | ⟨htokens, -⟩ | ⟨t, new, htokens⟩
  · exact List.suffix_rfl
  · exact htokens ▸ List.suffix_rfl
  · exact ⟨t :: new, htokens.symm⟩

theorem tokens_foldlM (h : cs.foldlM step l = some m) : l.tokens <:+ m.tokens := by
  induction cs generalizing l with
  | nil =>
    cases h
    exact List.suffix_rfl
  | cons c more ih =>
    rw [List.foldlM_cons, Option.bind_eq_bind, Option.bind_eq_some_iff] at h
    obtain ⟨l', hc, h⟩ := h
    exact (tokens_step hc).trans (ih h)

end Lexer

/-- A token that only ends where something else begins: a word or a numeral. -/
def Token.IsOpenEnded : Token → Prop
  | .null | .bool _ | .number _ => True
  | _ => False

theorem isOpenEnded_wordToken? {letters : List Char} {t : Token} (h : wordToken? letters = some t) :
    t.IsOpenEnded := by
  unfold wordToken? at h
  split at h
  · cases h
    trivial
  split at h
  · cases h
    trivial
  split at h
  · cases h
    trivial
  · cases h

namespace Lexer

variable {l m : Lexer} {c : Char} {cs : List Char} {ts : List Token}

/-- At its end a text gives out what it has given out before, and maybe a word or a numeral. -/
theorem finish_cases (h : l.finish = some ts) :
    (l.mode = .between ∧ ts = l.tokens.reverse) ∨
      ∃ t, t.IsOpenEnded ∧ ts = l.tokens.reverse ++ [t] := by
  unfold finish at h
  split at h
  · next hmode =>
    cases h
    exact .inl ⟨hmode, rfl⟩
  · obtain ⟨t, ht, rfl⟩ := Option.map_eq_some_iff.1 h
    exact .inr ⟨t, isOpenEnded_wordToken? ht, List.reverse_cons⟩
  · obtain ⟨n, -, rfl⟩ := Option.map_eq_some_iff.1 h
    exact .inr ⟨.number n, trivial, List.reverse_cons⟩
  · cases h

/-- A machine that has given out nothing and is between tokens has passed over blanks only. -/
theorem isSpace_of_between (h : cs.foldlM step l = some (between [])) :
    l = between [] ∧ ∀ c ∈ cs, isSpace c = true := by
  induction cs generalizing l with
  | nil =>
    cases h
    exact ⟨rfl, nofun⟩
  | cons c more ih =>
    rw [List.foldlM_cons, Option.bind_eq_bind, Option.bind_eq_some_iff] at h
    obtain ⟨m, hc, h⟩ := h
    obtain ⟨rfl, hmore⟩ := ih h
    rcases step_cases hc with ⟨hspace, -, rfl⟩ | ⟨-, hmode⟩ | ⟨t, new, htokens⟩
    · exact ⟨rfl, List.forall_mem_cons.2 ⟨hspace, hmore⟩⟩
    · exact absurd rfl hmode
    · cases htokens

/-- A text without a token is blank. -/
theorem isSpace_of_no_token (h : cs.foldlM step {} = some l) (hend : l.finish = some []) :
    ∀ c ∈ cs, isSpace c = true := by
  refine (isSpace_of_between (l := {}) ?_).2
  rcases finish_cases hend with ⟨hmode, htokens⟩ | ⟨t, -, htokens⟩
  · rw [h]
    cases l
    cases hmode
    cases List.reverse_eq_nil_iff.1 htokens.symm
    rfl
  · exact absurd htokens.symm (by simp)

/-! ## Braces -/

/-- The two braces, and the tokens that they are. -/
inductive IsBrace : Char → Token → Prop
  | left : IsBrace '\x7b' .openObject
  | right : IsBrace '\x7d' .closeObject

theorem stepBetween_brace {t : Token} (h : IsBrace c t) (l : Lexer) :
    l.stepBetween c = some (l.emit t) := by
  cases h <;> rfl

theorem extend_brace {t : Token} (h : IsBrace c t) (n : PartialNumeral) : n.extend c = none := by
  obtain ⟨stage, _, _, _, _, _⟩ := n
  cases h <;> cases stage <;> rfl

/-- A brace is a part of a string, or it comes after a text that may end where the brace stands. -/
theorem step_brace {t : Token} (hc : IsBrace c t) (h : l.step c = some m) :
    (∃ s, l.mode = .string s ∧ m = { l with mode := .string (s.push c) }) ∨
      ∃ ts, l.finish = some ts ∧ m = between (t :: ts.reverse) := by
  obtain ⟨toks, mode⟩ := l
  cases mode with
  | between =>
    have h : stepBetween ⟨toks, .between⟩ c = some m := h
    rw [stepBetween_brace hc] at h
    cases h
    exact .inr ⟨_, rfl, by rw [List.reverse_reverse]; rfl⟩
  | word letters =>
    have hletter : ¬ (decide ('a' ≤ c) && decide (c ≤ 'z')) = true := by
      cases hc <;> decide
    simp only [step, if_neg hletter] at h
    obtain ⟨t', hword, h⟩ := Option.bind_eq_some_iff.1 h
    rw [stepBetween_brace hc] at h
    cases h
    refine .inr ⟨(t' :: toks).reverse, ?_, by rw [List.reverse_reverse]; rfl⟩
    simp only [finish, hword, Option.map_some]
  | numeral n =>
    simp only [step, extend_brace hc] at h
    obtain ⟨n', hend, h⟩ := Option.bind_eq_some_iff.1 h
    rw [stepBetween_brace hc] at h
    cases h
    refine .inr ⟨(.number n' :: toks).reverse, ?_, by rw [List.reverse_reverse]; rfl⟩
    simp only [finish, hend, Option.map_some]
  | string s =>
    have hpush : step ⟨toks, .string s⟩ c = some ⟨toks, .string (s.push c)⟩ := by
      cases hc <;> rfl
    rw [hpush] at h
    cases h
    exact .inl ⟨s, rfl, rfl⟩
  | escape s => cases hc <;> cases h
  | unit s digits => cases hc <;> cases h

end Lexer

/-! ## The reader -/

namespace Reader

variable {r r' : Reader} {t : Token} {v : Json}

/-- After a token the reader is inside something, or it has finished. -/
theorem step_ne_value (h : r.step t = some r') : r' ≠ value [] := by
  have hplug (v : Json) (stack : List Frame) : plug v stack ≠ value [] := by
    rcases stack with _ | ⟨_ | _, _⟩ <;> nofun
  have hvalue (stack : List Frame) (h : stepValue stack t = some r') : r' ≠ value [] := by
    cases t <;> cases h <;> first | exact hplug _ _ | nofun
  cases r with
  | value stack => exact hvalue stack h
  | firstItem stack =>
    cases t with
    | closeArray =>
      cases h
      exact hplug _ _
    | _ => exact hvalue (.items [] :: stack) h
  | name done first stack =>
    cases t with
    | string =>
      cases h
      nofun
    | closeObject =>
      cases first <;> cases h
      exact hplug _ _
    | _ => cases h
  | colon =>
    cases t <;> cases h
    nofun
  | afterItem done stack | afterMember done stack =>
    cases t <;> cases h <;> first | exact hplug _ _ | nofun
  | finished => cases h

theorem foldlM_ne_value {ts : List Token} (hne : ts ≠ []) (h : ts.foldlM step r = some r') :
    r' ≠ value [] := by
  induction ts generalizing r with
  | nil => exact absurd rfl hne
  | cons t more ih =>
    rw [List.foldlM_cons, Option.bind_eq_bind, Option.bind_eq_some_iff] at h
    obtain ⟨r'', ht, h⟩ := h
    by_cases hmore : more = []
    · subst hmore
      cases h
      exact step_ne_value ht
    · exact ih hmore h

/-- A word or a numeral is a value of its own only where nothing came before. -/
theorem value_of_finished (ht : t.IsOpenEnded) (h : r.step t = some (finished v)) :
    r = value [] := by
  have hvalue (stack : List Frame) (h : stepValue stack t = some (finished v)) : stack = [] := by
    rcases stack with _ | ⟨_ | _, _⟩
    · rfl
    all_goals cases t <;> first | exact ht.elim | cases h
  cases r with
  | value stack => rw [hvalue stack h]
  | firstItem stack =>
    cases t <;> first | exact ht.elim | exact absurd (hvalue (.items [] :: stack) h) nofun
  | _ => cases t <;> first | exact ht.elim | cases h

/-- An object opens where a value may stand. -/
theorem awaits_of_openObject (h : r.step .openObject = some r') : ∃ stack, r.Awaits stack := by
  cases r with
  | value stack => exact ⟨_, .value stack⟩
  | firstItem stack => exact ⟨_, .firstItem stack⟩
  | _ => cases h

/-- Nothing comes after the end. -/
theorem foldlM_finished {ts : List Token} (hne : ts ≠ []) : ts.foldlM step (finished v) = none := by
  obtain ⟨t, more, rfl⟩ := List.exists_cons_of_ne_nil hne
  rfl

end Reader

/-! ## The texts of objects -/

open Lexer

variable {members : List (Option String × Json)} {cs before after : List Char} {v : Json}

theorem prefix_of_finish {l m : Lexer} {ts : List Token} (htokens : l.tokens <:+ m.tokens)
    (h : m.finish = some ts) : l.tokens.reverse <+: ts := by
  have hprefix : l.tokens.reverse <+: m.tokens.reverse := List.reverse_prefix.2 htokens
  rcases finish_cases h with ⟨-, rfl⟩ | ⟨t, -, rfl⟩
  · exact hprefix
  · exact hprefix.trans (List.prefix_append _ _)

theorem tokens?_eq_some {ts : List Token} :
    tokens? cs = some ts ↔ ∃ l, cs.foldlM Lexer.step {} = some l ∧ l.finish = some ts := by
  rw [tokens?, Option.bind_eq_some_iff]

theorem read?_eq_some :
    read? cs = some v ↔ ∃ ts, tokens? cs = some ts ∧
      ts.foldlM Reader.step (.value []) = some (.finished v) := by
  have hresult (r : Reader) : r.result = some v ↔ r = .finished v := by
    cases r <;> simp [Reader.result]
  simp only [read?, ofTokens?, Option.bind_eq_some_iff, hresult, exists_eq_right]

theorem closed_nil : Closed [] := fun c more h => absurd h.symm (List.cons_ne_nil c more)

/-- The tokens of an object begin with its brace. -/
theorem tokens_object (h : Spelled (object members)) :
    ∃ ts, Lexes (compact (object members)) (.openObject :: ts) ∧
      Reads (.openObject :: ts) (object members) := by
  obtain ⟨ts, hlexes, hreads⟩ := spells_compact h
  have hrun := hlexes [] [] closed_nil
  have hfinish : run (between (ts.reverse ++ [])) [] = some ts := by
    show some (ts.reverse ++ []).reverse = _
    rw [List.append_nil, List.reverse_reverse]
  rw [hfinish, List.append_nil, compact, run_step (m := between [.openObject]) rfl] at hrun
  obtain ⟨l, hl, hend⟩ := Option.bind_eq_some_iff.1 hrun
  obtain ⟨more, rfl⟩ : [Token.openObject] <+: ts := prefix_of_finish (tokens_foldlM hl) hend
  exact ⟨more, hlexes, hreads⟩

/-- The text of an object ends with a brace. -/
theorem compact_object_eq (members : List (Option String × Json)) :
    ∃ cs, compact (object members) = cs ++ ['\x7d'] := by
  have hmembers : ∃ cs, compactMembers members = cs ++ ['\x7d'] := by
    induction members with
    | nil => exact ⟨[], rfl⟩
    | cons m more ih =>
      obtain ⟨cs, hcs⟩ := ih
      cases more with
      | nil => exact ⟨quoted m.1 ++ ':' :: compact m.2, by simp [compactMembers]⟩
      | cons m' more =>
        refine ⟨quoted m.1 ++ ':' :: compact m.2 ++ ',' :: cs, ?_⟩
        simp [compactMembers, hcs]
  obtain ⟨cs, hcs⟩ := hmembers
  exact ⟨'\x7b' :: cs, by rw [compact, hcs]; rfl⟩

/-- A brace at the end of a text is the last of its tokens. -/
theorem tokens?_right_brace {ts : List Token} (h : tokens? (cs ++ ['\x7d']) = some ts) :
    ∃ ts', tokens? cs = some ts' ∧ ts = ts' ++ [.closeObject] := by
  obtain ⟨m', hm', hend⟩ := tokens?_eq_some.1 h
  rw [List.foldlM_append, Option.bind_eq_bind, Option.bind_eq_some_iff] at hm'
  obtain ⟨m, hm, hbrace⟩ := hm'
  have hbrace : m.step '\x7d' = some m' := by simpa using hbrace
  obtain ⟨s, -, rfl⟩ | ⟨ts', hts', rfl⟩ := step_brace .right hbrace
  · cases hend
  · refine ⟨ts', tokens?_eq_some.2 ⟨m, hm, hts'⟩, ?_⟩
    have hend : some (Token.closeObject :: ts'.reverse).reverse = some ts := hend
    rw [List.reverse_cons, List.reverse_reverse] at hend
    exact (Option.some.inj hend).symm

/-- A word or a numeral inside an object is not the value of the text so far. -/
theorem not_finished_inside {l : Lexer} {t : Token} (ht : t.IsOpenEnded)
    (hl : ('\x7b' :: cs).foldlM Lexer.step {} = some l) :
    (l.tokens.reverse ++ [t]).foldlM Reader.step (.value []) ≠ some (.finished v) := by
  intro h
  rw [List.foldlM_append, Option.bind_eq_bind, Option.bind_eq_some_iff] at h
  obtain ⟨r, hr, ht'⟩ := h
  obtain rfl := Reader.value_of_finished ht (show r.step t = some (.finished v) by simpa using ht')
  rw [foldlM_step (show Lexer.step {} '\x7b' = some (between [.openObject]) from rfl)] at hl
  have hopened := tokens_foldlM hl
  refine Reader.foldlM_ne_value (fun hnone => ?_) hr rfl
  rw [List.reverse_eq_nil_iff.1 hnone] at hopened
  cases List.suffix_nil.1 hopened

/-- A beginning of an object is not a value. -/
theorem read?_prefix (h : Spelled (object members))
    (heq : before ++ after = compact (object members)) (hne : after ≠ []) :
    read? before = none := by
  rw [Option.eq_none_iff_forall_ne_some]
  intro v hread
  obtain ⟨ts, hts, hfinished⟩ := read?_eq_some.1 hread
  obtain ⟨l, hl, hend⟩ := tokens?_eq_some.1 hts
  obtain ⟨all, hall, hwhole⟩ := read?_eq_some.1 (read?_of_spells (spells_compact h))
  -- the whole text goes on from the beginning, and has its last brace yet to come
  obtain ⟨more, rfl⟩ : ∃ more, after = more ++ ['\x7d'] := by
    obtain ⟨cs, hcs⟩ := compact_object_eq members
    have hlast := List.dropLast_concat_getLast hne
    rw [hcs, ← hlast, ← List.append_assoc] at heq
    rw [(List.append_singleton_inj.1 heq).2] at hlast
    exact ⟨_, hlast.symm⟩
  rw [← heq, ← List.append_assoc] at hall
  obtain ⟨ts', hts', rfl⟩ := tokens?_right_brace hall
  obtain ⟨m, hm, hend'⟩ := tokens?_eq_some.1 hts'
  have hgoes : more.foldlM Lexer.step l = some m := by
    rw [List.foldlM_append, hl] at hm
    exact hm
  obtain ⟨rest, rfl⟩ := prefix_of_finish (tokens_foldlM hgoes) hend'
  rcases finish_cases hend with ⟨-, rfl⟩ | ⟨t, ht, rfl⟩
  · rw [List.append_assoc, List.foldlM_append, hfinished] at hwhole
    have hmore : (rest ++ [Token.closeObject]).foldlM Reader.step (.finished v)
        = some (.finished (object members)) := hwhole
    rw [Reader.foldlM_finished (by simp)] at hmore
    cases hmore
  · cases before with
    | nil =>
      cases hl
      cases hend
    | cons c cs =>
      rw [compact, List.cons_append] at heq
      rw [(List.cons.inj heq).1] at hl
      exact not_finished_inside ht hl hfinished

/-- An object gives out its tokens after those of what stands before it, unless that is a string. -/
theorem tokens?_append_object {own ts : List Token}
    (hlexes : Lexes (compact (object members)) (.openObject :: own))
    (h : tokens? (before ++ compact (object members)) = some ts) :
    (∃ l s, before.foldlM Lexer.step {} = some l ∧ l.mode = .string s) ∨
      ∃ ts', tokens? before = some ts' ∧ ts = ts' ++ .openObject :: own := by
  obtain ⟨m, hm, hend⟩ := tokens?_eq_some.1 h
  rw [List.foldlM_append, Option.bind_eq_bind, Option.bind_eq_some_iff] at hm
  obtain ⟨l, hl, hm⟩ := hm
  rw [compact, List.foldlM_cons, Option.bind_eq_bind, Option.bind_eq_some_iff] at hm
  obtain ⟨l', hstep, hm⟩ := hm
  obtain ⟨s, hs, -⟩ | ⟨ts', hts', rfl⟩ := step_brace .left hstep
  · exact .inl ⟨l, s, hl, hs⟩
  · refine .inr ⟨ts', tokens?_eq_some.2 ⟨l, hl, hts'⟩, ?_⟩
    have hrun := hlexes ts'.reverse [] closed_nil
    rw [List.append_nil, compact, run_step (m := between (.openObject :: ts'.reverse)) rfl, run,
      hm] at hrun
    have hall : some ts = some ((Token.openObject :: own).reverse ++ ts'.reverse).reverse :=
      hend.symm.trans hrun
    rw [List.reverse_append, List.reverse_reverse, List.reverse_reverse] at hall
    exact Option.some.inj hall

/-- An object is the outermost value only where the reader begins. -/
theorem eq_nil_of_reads {own ts : List Token} (hreads : Reads (.openObject :: own) (object members))
    (h : (ts ++ .openObject :: own).foldlM Reader.step (.value []) = some (.finished v)) :
    ts = [] := by
  rw [List.foldlM_append, Option.bind_eq_bind, Option.bind_eq_some_iff] at h
  obtain ⟨r, hr, hrest⟩ := h
  have hopen : ∃ stack, r.Awaits stack := by
    rw [List.foldlM_cons, Option.bind_eq_bind, Option.bind_eq_some_iff] at hrest
    obtain ⟨r', hopen, -⟩ := hrest
    exact Reader.awaits_of_openObject hopen
  obtain ⟨stack, hawaits⟩ := hopen
  rw [hreads r stack hawaits] at hrest
  have hstart : r = .value [] := by
    cases hawaits with
    | value stack =>
      rcases stack with _ | ⟨_ | _, _⟩
      · rfl
      all_goals cases hrest
    | firstItem stack => cases hrest
  by_cases hnone : ts = []
  · exact hnone
  · exact absurd hstart (Reader.foldlM_ne_value hnone hr)

/-- What stands before an object is blank, or else the object's brace is a part of a string. -/
theorem isSpace_of_read? (h : Spelled (object members))
    (hread : read? (before ++ compact (object members)) = some v) :
    (∀ c ∈ before, isSpace c = true) ∨
      ∃ l s, before.foldlM Lexer.step {} = some l ∧ l.mode = .string s := by
  obtain ⟨own, hlexes, hreads⟩ := tokens_object h
  obtain ⟨ts, hts, hfinished⟩ := read?_eq_some.1 hread
  obtain hstring | ⟨ts', hbefore, rfl⟩ := tokens?_append_object hlexes hts
  · exact .inr hstring
  · obtain rfl := eq_nil_of_reads hreads hfinished
    obtain ⟨l, hl, hend⟩ := tokens?_eq_some.1 hbefore
    exact .inl (isSpace_of_no_token hl hend)

end Json

end BackgroundTasks
