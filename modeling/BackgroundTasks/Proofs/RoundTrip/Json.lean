import BackgroundTasks.Json.Printer
import BackgroundTasks.Json.Reader
import BackgroundTasks.Proofs.RoundTrip.Numeral
import BackgroundTasks.Proofs.RoundTrip.Text

/-!
# Values that are written and read again

A value is read in two passes, so the argument has two parts. A text gives out its tokens whatever
comes after it, as long as a numeral or a word at its end is closed by what comes next; and the
tokens of a value, read where a value may stand, put that value in its place. Both parts are kept
together in what it means for a text to spell a value, and that passes from items and members to
the array or object around them, whatever blanks are written between.
-/

namespace BackgroundTasks.Json

open Number (Numeral)

/-! ## The machine on the rest of a text -/

namespace Lexer

/-- The tokens that the machine gives out by the end of the text. -/
def run (l : Lexer) (cs : List Char) : Option (List Token) := (cs.foldlM step l).bind finish

variable {l m : Lexer} {toks : List Token} {rest : List Char}

theorem run_step {c : Char} (h : l.step c = some m) : l.run (c :: rest) = m.run rest := by
  rw [run, List.foldlM_cons, h]
  rfl

theorem run_append {cs : List Char} (h : cs.foldlM step l = some m) :
    l.run (cs ++ rest) = m.run rest := by
  rw [run, List.foldlM_append, h]
  rfl

/-- The machine between tokens. -/
def between (toks : List Token) : Lexer := { tokens := toks, mode := .between }

/-- A numeral or a word ends where something else begins, or with the text. -/
theorem run_closed {mode : LexMode} {t : Token} (hrest : Closed rest)
    (hend : finish { tokens := toks, mode } = finish (between (t :: toks)))
    (hstep : ∀ c, isDelimiter c = true →
      step { tokens := toks, mode } c = step (between (t :: toks)) c) :
    run { tokens := toks, mode } rest = run (between (t :: toks)) rest := by
  cases rest with
  | nil => exact hend
  | cons c more =>
    rw [run, run, List.foldlM_cons, List.foldlM_cons, hstep c (hrest c more rfl)]

theorem run_word {letters : List Char} {t : Token} (hrest : Closed rest)
    (hword : wordToken? letters = some t) :
    run { tokens := toks, mode := .word letters } rest = run (between (t :: toks)) rest := by
  refine run_closed hrest ?_ fun c hc => ?_
  · show (wordToken? letters).map _ = _
    rw [hword]
    rfl
  · have hletter : ¬ (decide ('a' ≤ c) && decide (c ≤ 'z')) = true := by
      have hc := List.contains_iff_mem.1 hc
      simp only [List.mem_cons, List.not_mem_nil, or_false] at hc
      rcases hc with rfl | rfl | rfl | rfl | rfl | rfl <;> decide
    show (if (decide ('a' ≤ c) && decide (c ≤ 'z')) = true then _ else _) = _
    rw [if_neg hletter, hword]
    rfl

theorem step_numeral {p p' : PartialNumeral} {c : Char} (h : p.extend c = some p') :
    step { tokens := toks, mode := .numeral p } c
      = some { tokens := toks, mode := .numeral p' } := by
  simp only [step, h]

/-- What does not go on with a numeral comes after it. -/
theorem step_after_numeral {p : PartialNumeral} {n : Numeral} {c : Char} (h : p.extend c = none)
    (hn : p.finish = some n) :
    step { tokens := toks, mode := .numeral p } c = step (between (.number n :: toks)) c := by
  simp only [step, h, hn]
  rfl

theorem run_mode_numeral {p : PartialNumeral} {n : Numeral} (hrest : Closed rest)
    (hp : p.MayEnd) (hn : p.finish = some n) :
    run { tokens := toks, mode := .numeral p } rest = run (between (.number n :: toks)) rest := by
  refine run_closed hrest ?_ fun c hc => ?_
  · show p.finish.map _ = _
    rw [hn]
    rfl
  · exact step_after_numeral (PartialNumeral.extend_delimiter hp hc) hn

/-! ### Numerals -/

theorem foldlM_numeral {p p' : PartialNumeral} {cs : List Char}
    (h : cs.foldlM PartialNumeral.extend p = some p') :
    cs.foldlM step { tokens := toks, mode := .numeral p }
      = some { tokens := toks, mode := .numeral p' } := by
  induction cs generalizing p with
  | nil =>
    cases h
    rfl
  | cons c rest ih =>
    rw [List.foldlM_cons, Option.bind_eq_bind, Option.bind_eq_some_iff] at h
    obtain ⟨q, hq, h⟩ := h
    rw [foldlM_step (step_numeral hq)]
    exact ih h

/-- A digit between tokens begins a numeral. -/
theorem step_digit {c : Char} (hc : c.isDigit = true) :
    step (between toks) c = step { tokens := toks, mode := .numeral (.start false) } c := by
  have hne (d : Char) (hd : d.isDigit = false) : c ≠ d := by
    rintro rfl
    rw [hd] at hc
    cases hc
  have hletter : (decide ('a' ≤ c) && decide (c ≤ 'z')) = false := by
    rw [Bool.and_eq_false_imp]
    intro ha
    rw [Char.isDigit, Bool.and_eq_true, decide_eq_true_eq, decide_eq_true_eq] at hc
    have ha : 'a'.val ≤ c.val := of_decide_eq_true ha
    exact absurd (UInt32.le_trans ha hc.2) (by decide)
  have hextend := PartialNumeral.extend_start false hc
  rw [step_numeral hextend]
  show stepBetween _ c = _
  simp only [stepBetween, hne ' ' rfl, hne '\t' rfl, hne '\n' rfl, hne '\r' rfl, hne '[' rfl,
    hne ']' rfl, hne '\x7b' rfl, hne '\x7d' rfl, hne ',' rfl, hne ':' rfl, hne '"' rfl,
    hne '-' rfl, hletter, if_false, Bool.false_eq_true]
  exact congrArg (Option.map (Lexer.mk toks <| .numeral ·)) hextend

theorem chars_eq (n : Numeral) :
    n.chars = (if n.negative then ['-'] else []) ++ PartialNumeral.unsigned n :=
  (List.append_assoc _ _ _).trans (List.append_assoc _ _ _)

theorem run_numeral {n : Numeral} (h : n.WellFormed) (hrest : Closed rest) :
    run (between toks) (n.chars ++ rest) = run (between (.number n :: toks)) rest := by
  obtain ⟨p, hp, hend, hfinish⟩ := PartialNumeral.foldlM_unsigned h
  have hread : run { tokens := toks, mode := .numeral (.start n.negative) }
      (PartialNumeral.unsigned n ++ rest) = run { tokens := toks, mode := .numeral p } rest :=
    run_append (foldlM_numeral hp)
  rw [run_mode_numeral hrest hend hfinish] at hread
  rw [← hread, chars_eq]
  cases hsign : n.negative with
  | true => exact run_step rfl
  | false =>
    obtain ⟨c, more, hwhole⟩ := List.exists_cons_of_ne_nil h.whole_ne_nil
    have hc : c.isDigit = true := h.whole c (by rw [hwhole]; exact List.mem_cons_self)
    have hcons : ∃ more, PartialNumeral.unsigned n = c :: more := by
      unfold PartialNumeral.unsigned
      rw [hwhole]
      exact ⟨_, rfl⟩
    obtain ⟨more, hcons⟩ := hcons
    rw [hcons]
    show run _ (c :: (more ++ rest)) = run _ (c :: (more ++ rest))
    rw [run, run, List.foldlM_cons, List.foldlM_cons, step_digit hc]

/-! ### Strings -/

/-- Four hexadecimal digits give out the code unit that they spell. -/
theorem run_unit (t : PartialText) {v : Nat} (hv : v < 0x10000) :
    run { tokens := toks, mode := .unit t [] } (Text.hexDigits 4 v ++ rest)
      = run { tokens := toks, mode := .string (t.pushUnit v) } rest := by
  have hspell := Text.ofHexDigits?_hexDigits (show v < Nat.pow 16 4 from hv)
  have hdigit (n : Nat) := Text.hexValue?_hexDigit (n % 16) (Nat.mod_lt n (by decide))
  obtain ⟨a, b, c, d, hdigits, ha, hb, hc, hd⟩ : ∃ a b c d, Text.hexDigits 4 v = [a, b, c, d] ∧
      (Text.hexValue? a).isSome ∧ (Text.hexValue? b).isSome ∧ (Text.hexValue? c).isSome ∧
        (Text.hexValue? d).isSome := by
    refine ⟨_, _, _, _, rfl, ?_, ?_, ?_, ?_⟩ <;> rw [hdigit] <;> rfl
  rw [hdigits] at hspell ⊢
  obtain ⟨a', ha⟩ := Option.isSome_iff_exists.1 ha
  obtain ⟨b', hb⟩ := Option.isSome_iff_exists.1 hb
  obtain ⟨c', hc⟩ := Option.isSome_iff_exists.1 hc
  obtain ⟨d', hd⟩ := Option.isSome_iff_exists.1 hd
  refine run_append ?_
  simp [List.foldlM_cons, step, ha, hb, hc, hd, hspell]

/-- The machine inside a string whose characters so far are given back to front. -/
def inString (toks : List Token) (done : List Char) : Lexer :=
  { tokens := toks, mode := .string { chars := done } }

theorem run_escape (c : Char) (done : List Char) :
    run (inString toks done) (escape c ++ rest) = run (inString toks (c :: done)) rest := by
  have hsimple (e : Char) (he : simpleEscape? e = some c) (hu : e ≠ 'u') :
      run (inString toks done) ('\\' :: e :: rest) = run (inString toks (c :: done)) rest := by
    have hescape : step { tokens := toks, mode := .escape { chars := done } } e
        = some (inString toks (c :: done)) := by
      show (if e = 'u' then _ else (simpleEscape? e).map _) = _
      rw [if_neg hu, he]
      rfl
    rw [run_step (m := { tokens := toks, mode := .escape { chars := done } }) rfl,
      run_step hescape]
  unfold escape
  split
  · next h => exact hsimple '"' (by rw [h]; rfl) (by decide)
  split
  · next h => exact hsimple '\\' (by rw [h]; rfl) (by decide)
  split
  · next h => exact hsimple 'b' (by rw [h]; rfl) (by decide)
  split
  · next h => exact hsimple 'f' (by rw [h]; rfl) (by decide)
  split
  · next h => exact hsimple 'n' (by rw [h]; rfl) (by decide)
  split
  · next h => exact hsimple 'r' (by rw [h]; rfl) (by decide)
  split
  · next h => exact hsimple 't' (by rw [h]; rfl) (by decide)
  split
  · -- other control characters are written as the four digits of a code unit
    next hcontrol =>
    rw [List.cons_append, List.cons_append,
      run_step (m := { tokens := toks, mode := .escape { chars := done } }) rfl,
      run_step (m := { tokens := toks, mode := .unit { chars := done } [] }) rfl,
      run_unit _ (by omega)]
    have hpush : PartialText.pushUnit { chars := done } c.toNat = { chars := c :: done } := by
      have hlow : ¬ (decide (0xDC00 ≤ c.toNat) && decide (c.toNat < 0xE000)) = true := by
        simp
        omega
      have hhigh : ¬ (decide (0xD800 ≤ c.toNat) && decide (c.toNat < 0xDC00)) = true := by
        simp
        omega
      unfold PartialText.pushUnit
      rw [if_neg hlow, if_neg hhigh, Char.ofNat_toNat]
      rfl
    rw [hpush]
    rfl
  · next hquote hslash _ _ _ _ _ hcontrol =>
    refine run_step ?_
    show (if c = '"' then _ else if c = '\\' then _ else if c.toNat < 0x20 then _ else _) = _
    rw [if_neg hquote, if_neg hslash, if_neg hcontrol]
    rfl

theorem run_chars (cs done : List Char) :
    run (inString toks done) (cs.flatMap escape ++ rest)
      = run (inString toks (cs.reverse ++ done)) rest := by
  induction cs generalizing done with
  | nil => rfl
  | cons c more ih =>
    rw [List.flatMap_cons, List.append_assoc, run_escape, ih, List.reverse_cons, List.append_assoc]
    rfl

theorem run_quoted (s : String) :
    run (between toks) (quoted (some s) ++ rest)
      = run (between (.string (some s) :: toks)) rest := by
  show run _ ('"' :: (s.toList.flatMap escape ++ ['"'] ++ rest)) = _
  rw [run_step (m := inString toks []) rfl, List.append_assoc, run_chars, List.append_nil]
  refine run_step ?_
  show some (between (.string (some (String.ofList s.toList.reverse.reverse)) :: toks)) = _
  rw [List.reverse_reverse, String.ofList_toList]

/-! ### Blanks and marks -/

/-- The blanks that are written: spaces and new lines. -/
def AreBlank (cs : List Char) : Prop := ∀ c ∈ cs, c = ' ' ∨ c = '\n'

theorem run_blanks {blanks : List Char} (h : AreBlank blanks) :
    run (between toks) (blanks ++ rest) = run (between toks) rest := by
  induction blanks with
  | nil => rfl
  | cons c more ih =>
    obtain ⟨hc, hmore⟩ := List.forall_mem_cons.1 h
    rw [List.cons_append, run_step (m := between toks) (by rcases hc with rfl | rfl <;> rfl)]
    exact ih hmore

/-- Blanks before a delimiter close a value as well as the delimiter does. -/
theorem closed_blanks {blanks : List Char} (h : AreBlank blanks) {c : Char}
    (hc : isDelimiter c = true) (rest : List Char) : Closed (blanks ++ c :: rest) := by
  intro d more heq
  cases blanks with
  | nil =>
    cases heq
    exact hc
  | cons b _ =>
    cases heq
    rcases h d List.mem_cons_self with rfl | rfl <;> rfl

end Lexer

/-! ## What it means to spell a value -/

/-- A reader that waits for a value, and where the value will go. -/
inductive Reader.Awaits : Reader → List Frame → Prop
  | value (stack : List Frame) : Awaits (value stack) stack
  | firstItem (stack : List Frame) : Awaits (firstItem stack) (.items [] :: stack)

open Lexer Reader

/-- A text gives out tokens, if what follows closes it. -/
def Lexes (cs : List Char) (ts : List Token) : Prop :=
  ∀ toks rest, Closed rest →
    run (between toks) (cs ++ rest) = run (between (ts.reverse ++ toks)) rest

/-- Tokens put a value in its place. -/
def Reads (ts : List Token) (j : Json) : Prop :=
  ∀ r stack, Awaits r stack → ts.foldlM Reader.step r = some (plug j stack)

/-- A text spells a value. -/
def Spells (cs : List Char) (j : Json) : Prop := ∃ ts, Lexes cs ts ∧ Reads ts j

variable {cs : List Char} {j : Json}

theorem read?_of_spells (h : Spells cs j) : read? cs = some j := by
  obtain ⟨ts, hlexes, hreads⟩ := h
  have htokens : tokens? cs = some ts := by
    have hrun := hlexes [] [] (fun _ _ h => nomatch h)
    rw [List.append_nil, List.append_nil] at hrun
    refine hrun.trans ?_
    show some ts.reverse.reverse = _
    rw [List.reverse_reverse]
  rw [read?, htokens, Option.bind_some, ofTokens?, hreads _ [] (.value [])]
  rfl

/-- A single token that is a value. -/
theorem spells_token {t : Token}
    (hlexes : ∀ toks rest, Closed rest →
      run (between toks) (cs ++ rest) = run (between (t :: toks)) rest)
    (hreads : ∀ stack, stepValue stack t = some (plug j stack)) (hclose : t ≠ .closeArray) :
    Spells cs j := by
  refine ⟨[t], hlexes, ?_⟩
  rintro _ stack (_ | stack)
  · show (stepValue stack t).bind _ = _
    rw [hreads]
    rfl
  · have hfirst : Reader.step (.firstItem stack) t = stepValue (.items [] :: stack) t := by
      cases t <;> first | rfl | exact absurd rfl hclose
    show (Reader.step (.firstItem stack) t).bind _ = _
    rw [hfirst, hreads]
    rfl

theorem spells_null : Spells (compact null) null :=
  spells_token (fun _ _ hrest => run_word hrest rfl) (fun _ => rfl) nofun

theorem spells_bool (b : Bool) : Spells (compact (bool b)) (bool b) := by
  cases b <;> exact spells_token (fun _ _ hrest => run_word hrest rfl) (fun _ => rfl) nofun

theorem spells_number {n : Numeral} (h : n.WellFormed) : Spells (compact (number n)) (number n) :=
  spells_token (fun _ _ hrest => run_numeral h hrest) (fun _ => rfl) nofun

theorem spells_string (s : String) : Spells (compact (string (some s))) (string (some s)) :=
  spells_token (fun _ _ _ => run_quoted s) (fun _ => rfl) nofun

/-! ## Arrays and objects -/

/-- The mark after a value gives out its own token; blanks may stand between. -/
theorem lexes_mark {ts : List Token} {blanks : List Char} {c : Char} {t : Token}
    (h : Lexes cs ts) (hblanks : AreBlank blanks) (hc : isDelimiter c = true)
    (hmark : ∀ toks, Lexer.step (between toks) c = some (between (t :: toks)))
    (toks : List Token) (rest : List Char) :
    run (between toks) (cs ++ (blanks ++ c :: rest))
      = run (between (t :: (ts.reverse ++ toks))) rest := by
  rw [h _ _ (closed_blanks hblanks hc rest), run_blanks hblanks, run_step (hmark _)]

theorem lexes_comma {ts : List Token} (h : Lexes cs ts) (toks : List Token) (rest : List Char) :
    run (between toks) (cs ++ ',' :: rest) = run (between (.comma :: (ts.reverse ++ toks))) rest :=
  lexes_mark h (show AreBlank [] from nofun) rfl (fun _ => rfl) toks rest

section

variable (write : Json → List Char) (before last : List Char)

/-- Items up to the closing bracket, with blanks before each item and after the last. -/
def itemsText : List Json → List Char
  | [] => [']']
  | [v] => before ++ write v ++ last ++ [']']
  | v :: r => before ++ write v ++ ',' :: itemsText r

/-- Members up to the closing brace, with blanks before each member and after the last, and with
blanks after each colon. -/
def membersText (after : List Char) : List (Option String × Json) → List Char
  | [] => ['\x7d']
  | [(k, v)] => before ++ quoted k ++ ':' :: after ++ write v ++ last ++ ['\x7d']
  | (k, v) :: r => before ++ quoted k ++ ':' :: after ++ write v ++ ',' :: membersText after r

variable {write before last}

/-- The text of items, with the tokens it gives out and what they put together. -/
def SpellsItems (cs : List Char) (items : List Json) : Prop :=
  ∃ ts : List Token,
    (∀ toks rest, run (between toks) (cs ++ rest) = run (between (ts.reverse ++ toks)) rest) ∧
    ∀ r done stack, Awaits r (.items done :: stack) →
      ts.foldlM Reader.step r = some (plug (.array (done.reverse ++ items)) stack)

theorem spells_items (hbefore : AreBlank before) (hlast : AreBlank last) {items : List Json}
    (hne : items ≠ []) (h : ∀ v ∈ items, Spells (write v) v) :
    SpellsItems (itemsText write before last items) items := by
  induction items with
  | nil => exact absurd rfl hne
  | cons v more ih =>
    obtain ⟨ts, hlexes, hreads⟩ := h v List.mem_cons_self
    cases more with
    | nil =>
      refine ⟨ts ++ [.closeArray], fun toks rest => ?_, fun r done stack hr => ?_⟩
      · simp only [itemsText, List.append_assoc]
        rw [run_blanks hbefore]
        refine (lexes_mark hlexes hlast rfl (fun _ => rfl) toks rest).trans ?_
        simp
      · rw [List.foldlM_append, hreads r _ hr]
        show some (plug (.array (v :: done).reverse) stack) = _
        rw [List.reverse_cons]
    | cons w others =>
      -- the item and its comma leave the reader as it stands before the other items
      obtain ⟨us, hmore, hrest⟩ := ih nofun fun x hx => h x (List.mem_cons_of_mem v hx)
      refine ⟨ts ++ .comma :: us, fun toks rest => ?_, fun r done stack hr => ?_⟩
      · simp only [itemsText, List.append_assoc, List.cons_append]
        rw [run_blanks hbefore, lexes_comma hlexes, hmore]
        simp
      · rw [List.foldlM_append, hreads r _ hr]
        refine (hrest _ (v :: done) stack (.value _)).trans ?_
        simp

/-- The text of members, with the tokens it gives out and what they put together. -/
def SpellsMembers (cs : List Char) (members : List (Option String × Json)) : Prop :=
  ∃ ts : List Token,
    (∀ toks rest, run (between toks) (cs ++ rest) = run (between (ts.reverse ++ toks)) rest) ∧
    ∀ done first stack, ts.foldlM Reader.step (.name done first stack)
      = some (plug (.object (done.reverse ++ members)) stack)

theorem spells_members {after : List Char} (hbefore : AreBlank before) (hlast : AreBlank last)
    (hafter : AreBlank after) {members : List (Option String × Json)} (hne : members ≠ [])
    (h : ∀ m ∈ members, m.1.isSome = true ∧ Spells (write m.2) m.2) :
    SpellsMembers (membersText write before last after members) members := by
  induction members with
  | nil => exact absurd rfl hne
  | cons m more ih =>
    obtain ⟨k, v⟩ := m
    obtain ⟨hk, ts, hlexes, hreads⟩ : k.isSome = true ∧ Spells (write v) v :=
      h (k, v) List.mem_cons_self
    obtain ⟨name, rfl⟩ := Option.isSome_iff_exists.1 hk
    -- the name and the colon come first in either case
    have hname (toks : List Token) (rest : List Char) :
        run (between toks) (before ++ (quoted (some name) ++ ':' :: (after ++ rest)))
          = run (between (.colon :: .string (some name) :: toks)) rest := by
      rw [run_blanks hbefore, run_quoted,
        run_step (m := between (.colon :: .string (some name) :: toks)) rfl, run_blanks hafter]
    have hmember (us : List Token) (done : Members) (first : Bool) (stack : List Frame) :
        (.string (some name) :: .colon :: (ts ++ us)).foldlM Reader.step (.name done first stack)
          = us.foldlM Reader.step (.afterMember ((some name, v) :: done) stack) := by
      rw [foldlM_step (t := .colon done (some name) stack) rfl,
        foldlM_step (t := .value (.member done (some name) :: stack)) rfl,
        List.foldlM_append, hreads _ _ (.value _)]
      rfl
    cases more with
    | nil =>
      refine ⟨.string (some name) :: .colon :: (ts ++ [.closeObject]), fun toks rest => ?_,
        fun done first stack => ?_⟩
      · simp only [membersText, List.append_assoc, List.cons_append]
        rw [hname]
        refine (lexes_mark hlexes hlast rfl (fun _ => rfl) _ rest).trans ?_
        simp
      · rw [hmember]
        show some (plug (.object ((some name, v) :: done).reverse) stack) = _
        rw [List.reverse_cons]
    | cons m' others =>
      obtain ⟨us, hmore, hrest⟩ := ih nofun fun x hx => h x (List.mem_cons_of_mem _ hx)
      refine ⟨.string (some name) :: .colon :: (ts ++ .comma :: us), fun toks rest => ?_,
        fun done first stack => ?_⟩
      · simp only [membersText, List.append_assoc, List.cons_append]
        rw [hname, lexes_comma hlexes, hmore]
        simp
      · rw [hmember]
        refine (hrest ((some name, v) :: done) false stack).trans ?_
        simp

end

theorem spells_array {items : List Json} (h : SpellsItems cs items) :
    Spells ('[' :: cs) (array items) := by
  obtain ⟨ts, hrun, hreads⟩ := h
  refine ⟨.openArray :: ts, fun toks rest _ => ?_, ?_⟩
  · rw [List.cons_append, run_step (m := between (.openArray :: toks)) rfl, hrun]
    simp
  · rintro _ stack (_ | stack)
    · exact hreads (.firstItem stack) [] stack (.firstItem stack)
    · exact hreads (.firstItem _) [] _ (.firstItem _)

theorem spells_array_nil : Spells ['[', ']'] (array []) := by
  refine ⟨[.openArray, .closeArray], fun _ _ _ => rfl, ?_⟩
  rintro _ stack (_ | stack) <;> rfl

theorem spells_object {members : List (Option String × Json)} (h : SpellsMembers cs members) :
    Spells ('\x7b' :: cs) (object members) := by
  obtain ⟨ts, hrun, hreads⟩ := h
  refine ⟨.openObject :: ts, fun toks rest _ => ?_, ?_⟩
  · rw [List.cons_append, run_step (m := between (.openObject :: toks)) rfl, hrun]
    simp
  · rintro _ stack (_ | stack)
    · exact hreads [] true stack
    · exact hreads [] true (.items [] :: stack)

theorem spells_object_nil : Spells ['\x7b', '\x7d'] (object []) := by
  refine ⟨[.openObject, .closeObject], fun _ _ _ => rfl, ?_⟩
  rintro _ stack (_ | stack) <;> rfl

/-! ## Whole values -/

/-- A value that has a text of its own: its strings spell texts and its numerals are as they are
written. -/
inductive Spelled : Json → Prop
  | null : Spelled null
  | bool (b : Bool) : Spelled (bool b)
  | number {n : Numeral} (h : n.WellFormed) : Spelled (number n)
  | string (s : String) : Spelled (string (some s))
  | array {items : List Json} (h : ∀ v ∈ items, Spelled v) : Spelled (array items)
  | object {members : List (Option String × Json)} (hnames : ∀ m ∈ members, m.1.isSome = true)
    (h : ∀ m ∈ members, Spelled m.2) : Spelled (object members)

theorem compactItems_eq (items : List Json) :
    compactItems items = itemsText compact [] [] items := by
  induction items with
  | nil => rfl
  | cons v more ih =>
    cases more with
    | nil => simp [compactItems, itemsText]
    | cons => simp [compactItems, itemsText, ih]

theorem compactMembers_eq (members : List (Option String × Json)) :
    compactMembers members = membersText compact [] [] [] members := by
  induction members with
  | nil => rfl
  | cons m more ih =>
    cases more with
    | nil => simp [compactMembers, membersText]
    | cons => simp [compactMembers, membersText, ih]

theorem prettyItems_eq (level : Nat) (items : List Json) :
    prettyItems level items
      = itemsText (pretty level) (newline level) (newline (level - 1)) items := by
  induction items with
  | nil => rfl
  | cons v more ih =>
    cases more with
    | nil => simp [prettyItems, itemsText]
    | cons => simp [prettyItems, itemsText, ih]

theorem prettyMembers_eq (level : Nat) (members : List (Option String × Json)) :
    prettyMembers level members
      = membersText (pretty level) (newline level) (newline (level - 1)) [' '] members := by
  induction members with
  | nil => rfl
  | cons m more ih =>
    cases more with
    | nil => simp [prettyMembers, membersText]
    | cons => simp [prettyMembers, membersText, ih]

theorem areBlank_newline (level : Nat) : AreBlank (newline level) := by
  intro c hc
  rcases List.mem_cons.1 hc with rfl | hc
  · exact .inr rfl
  · exact .inl (List.eq_of_mem_replicate hc)

theorem spells_compact (h : Spelled j) : Spells (compact j) j := by
  -- what an array or an object spells follows from what its items or members spell
  have hnone : AreBlank [] := nofun
  induction h with
  | null => exact spells_null
  | bool b => exact spells_bool b
  | number h => exact spells_number h
  | string s => exact spells_string s
  | @array items _ ih =>
    rw [compact]
    cases items with
    | nil => exact spells_array_nil
    | cons v more =>
      rw [compactItems_eq]
      exact spells_array (spells_items hnone hnone nofun ih)
  | @object members hnames _ ih =>
    rw [compact]
    cases members with
    | nil => exact spells_object_nil
    | cons m more =>
      rw [compactMembers_eq]
      exact spells_object
        (spells_members hnone hnone hnone nofun fun m hm => ⟨hnames m hm, ih m hm⟩)

theorem spells_pretty (h : Spelled j) (level : Nat) : Spells (pretty level j) j := by
  have hblank : AreBlank [' '] := fun c hc => .inl (List.mem_singleton.1 hc)
  induction h generalizing level with
  | null => rw [pretty]; exact spells_null
  | bool b => rw [pretty]; exact spells_bool b
  | number h => rw [pretty]; exact spells_number h
  | string s => rw [pretty]; exact spells_string s
  | @array items _ ih =>
    cases items with
    | nil => rw [pretty]; exact spells_array_nil
    | cons v more =>
      rw [pretty, prettyItems_eq]
      · exact spells_array (spells_items (areBlank_newline _) (areBlank_newline _) nofun
          fun v hv => ih v hv (level + 1))
      · nofun
  | @object members hnames _ ih =>
    cases members with
    | nil => rw [pretty]; exact spells_object_nil
    | cons m more =>
      rw [pretty, prettyMembers_eq]
      · exact spells_object (spells_members (areBlank_newline _) (areBlank_newline _) hblank nofun
          fun m hm => ⟨hnames m hm, ih m hm (level + 1)⟩)
      · nofun

/-- A compact text spells the value it was written from. -/
theorem ofText?_compactText (h : Spelled j) : ofText? j.compactText = some j := by
  rw [ofText?, compactText, String.toList_ofList]
  exact read?_of_spells (spells_compact h)

/-- So does a text over several lines. -/
theorem ofText?_prettyText (h : Spelled j) : ofText? j.prettyText = some j := by
  rw [ofText?, prettyText, String.toList_ofList]
  exact read?_of_spells (spells_pretty h 0)

/-! ## One line -/

/-- A character that can stand on a line: no control character. -/
def Printable (c : Char) : Prop := 0x20 ≤ c.toNat

instance : DecidablePred Printable := fun c => inferInstanceAs (Decidable (0x20 ≤ c.toNat))

theorem printable_hexDigits (width n : Nat) : ∀ c ∈ Text.hexDigits width n, Printable c := by
  have hdigit : ∀ v < 16, 0x20 ≤ (Text.hexDigit v).toNat := by decide
  induction width generalizing n with
  | zero => nofun
  | succ width ih =>
    rw [Text.hexDigits, List.forall_mem_append, List.forall_mem_singleton]
    exact ⟨ih _, hdigit _ (Nat.mod_lt n (by decide))⟩

theorem printable_escape (c : Char) : ∀ d ∈ escape c, Printable d := by
  have hpair {e : Char} (he : Printable e) : ∀ d ∈ ['\\', e], Printable d := by
    rw [List.forall_mem_cons, List.forall_mem_singleton]
    exact ⟨by decide, he⟩
  unfold escape
  repeat'
    first
      | split
      | exact hpair (by decide)
  · rw [List.forall_mem_cons, List.forall_mem_cons]
    exact ⟨by decide, by decide, printable_hexDigits _ _⟩
  · next h =>
    rw [List.forall_mem_singleton]
    exact Nat.le_of_not_lt h

theorem printable_digits {cs : List Char} (h : Number.AreDigits cs) : ∀ c ∈ cs, Printable c := by
  intro c hc
  have hdigit := h c hc
  rw [Char.isDigit, Bool.and_eq_true, decide_eq_true_eq] at hdigit
  exact Nat.le_trans (by decide) (UInt32.le_iff_toNat_le.1 hdigit.1)

theorem printable_number {n : Numeral} (h : n.WellFormed) : ∀ c ∈ n.chars, Printable c := by
  rw [chars_eq, PartialNumeral.unsigned]
  simp only [List.forall_mem_append]
  refine ⟨?_, printable_digits h.whole, ?_, ?_⟩
  · split
    · exact List.forall_mem_singleton.2 (by decide)
    · nofun
  · split
    · nofun
    · exact List.forall_mem_cons.2 ⟨by decide, printable_digits h.fraction⟩
  · split
    · next e _ =>
      refine List.forall_mem_cons.2 ⟨by decide, List.forall_mem_cons.2 ⟨?_, ?_⟩⟩
      · split <;> decide
      · exact printable_digits (Number.areDigits_decimalDigits _)
    · nofun

theorem printable_quoted (s : String) : ∀ c ∈ quoted (some s), Printable c := by
  have hquote : Printable '"' := by decide
  show ∀ c ∈ '"' :: s.toList.flatMap escape ++ ['"'], Printable c
  rw [List.cons_append, List.forall_mem_cons, List.forall_mem_append, List.forall_mem_singleton]
  refine ⟨hquote, fun c hc => ?_, hquote⟩
  obtain ⟨d, -, hc⟩ := List.mem_flatMap.1 hc
  exact printable_escape d c hc

theorem printable_items {items : List Json} (h : ∀ v ∈ items, ∀ c ∈ compact v, Printable c) :
    ∀ c ∈ compactItems items, Printable c := by
  have hcomma : Printable ',' := by decide
  have hclose : ∀ c ∈ [']'], Printable c :=
    List.forall_mem_singleton.2 (by decide)
  induction items with
  | nil => exact hclose
  | cons v more ih =>
    obtain ⟨hv, hmore⟩ := List.forall_mem_cons.1 h
    cases more with
    | nil =>
      rw [compactItems, List.forall_mem_append]
      exact ⟨hv, hclose⟩
    | cons w others =>
      rw [compactItems, List.forall_mem_append, List.forall_mem_cons]
      · exact ⟨hv, hcomma, ih hmore⟩
      · nofun

theorem printable_members {members : List (Option String × Json)}
    (hnames : ∀ m ∈ members, m.1.isSome = true)
    (h : ∀ m ∈ members, ∀ c ∈ compact m.2, Printable c) :
    ∀ c ∈ compactMembers members, Printable c := by
  have hcomma : Printable ',' := by decide
  have hcolon : Printable ':' := by decide
  have hclose : ∀ c ∈ ['\x7d'], Printable c :=
    List.forall_mem_singleton.2 (by decide)
  induction members with
  | nil => exact hclose
  | cons m more ih =>
    obtain ⟨k, v⟩ := m
    obtain ⟨hk, hothers⟩ := List.forall_mem_cons.1 hnames
    obtain ⟨hv, hmore⟩ := List.forall_mem_cons.1 h
    obtain ⟨name, rfl⟩ := Option.isSome_iff_exists.1 hk
    have hname := printable_quoted name
    cases more with
    | nil =>
      rw [compactMembers, List.forall_mem_append, List.forall_mem_append, List.forall_mem_cons]
      exact ⟨⟨hname, hcolon, hv⟩, hclose⟩
    | cons w others =>
      rw [compactMembers, List.forall_mem_append, List.forall_mem_append, List.forall_mem_cons,
        List.forall_mem_cons]
      · exact ⟨⟨hname, hcolon, hv⟩, hcomma, ih hothers hmore⟩
      · nofun

/-- A compact text stands on one line. -/
theorem printable_compact (h : Spelled j) : ∀ c ∈ compact j, Printable c := by
  have hword {cs : List Char} (h : cs.all (fun c => decide (Printable c)) = true) :
      ∀ c ∈ cs, Printable c := fun c hc => of_decide_eq_true (List.all_eq_true.1 h c hc)
  induction h with
  | null => exact hword (by decide)
  | bool b => cases b <;> exact hword (by decide)
  | number h => exact printable_number h
  | string s => exact printable_quoted s
  | array _ ih =>
    rw [compact, List.forall_mem_cons]
    exact ⟨by decide, printable_items ih⟩
  | object hnames _ ih =>
    rw [compact, List.forall_mem_cons]
    exact ⟨by decide, printable_members hnames ih⟩

end BackgroundTasks.Json
