import BackgroundTasks.Json.Value
import BackgroundTasks.Text.Hex

/-!
# JSON tokens

The characters of a JSON text, one at a time, drive a small machine that gives out tokens. The
machine is always in one of six modes: between tokens, or inside a word, a numeral, a string, an
escape, or the four digits of a Unicode escape.
-/

namespace BackgroundTasks.Json

open Number (Numeral decimalDigits digitValue? ofDigits)

/-- The pieces of a JSON text. -/
inductive Token where
  | openArray
  | closeArray
  | openObject
  | closeObject
  | comma
  | colon
  | null
  | bool (b : Bool)
  | number (n : Numeral)
  | string (s : Option String)
deriving DecidableEq, Repr

/-! ## Numerals -/

/-- How far a numeral has been read. -/
inductive NumeralStage where
  | sign
  | zero
  | whole
  | point
  | fraction
  | mark
  | markSign
  | exponent
deriving DecidableEq, Repr

/-- A numeral under way; the digits are collected back to front. -/
structure PartialNumeral where
  stage : NumeralStage
  negative : Bool
  whole : List Char := []
  fraction : List Char := []
  exponentNegative : Bool := false
  exponent : Nat := 0
deriving DecidableEq, Repr

namespace PartialNumeral

/-- The numeral read so far, if it may end here. -/
def finish (n : PartialNumeral) : Option Numeral :=
  let numeral (e : Option Int) : Numeral := ⟨n.negative, n.whole.reverse, n.fraction.reverse, e⟩
  match n.stage with
  | .zero | .whole | .fraction => some (numeral none)
  | .exponent =>
    some (numeral (some (if n.exponentNegative then -(n.exponent : Int) else n.exponent)))
  | _ => none

/-- The numeral with one more character, if the character belongs to it. -/
def extend (n : PartialNumeral) (c : Char) : Option PartialNumeral :=
  let isMark := c == 'e' || c == 'E'
  match digitValue? c, n.stage with
  | some v, .sign =>
    some { n with stage := if v = 0 then .zero else .whole, whole := [c] }
  | some _, .zero => none
  | some _, .whole => some { n with whole := c :: n.whole }
  | some _, .point | some _, .fraction =>
    some { n with stage := .fraction, fraction := c :: n.fraction }
  | some v, .mark | some v, .markSign | some v, .exponent =>
    some { n with stage := .exponent, exponent := n.exponent * 10 + v }
  | none, .zero | none, .whole =>
    if c == '.' then some { n with stage := .point }
    else if isMark then some { n with stage := .mark }
    else none
  | none, .fraction => if isMark then some { n with stage := .mark } else none
  | none, .mark =>
    if c == '+' then some { n with stage := .markSign }
    else if c == '-' then some { n with stage := .markSign, exponentNegative := true }
    else none
  | none, _ => none

end PartialNumeral

/-! ## Strings -/

/--
A string under way. `high` is the first half of a surrogate pair whose second half must come next;
once a half stands alone the string spells no text.
-/
structure PartialText where
  chars : List Char := []
  high : Option Nat := none
  broken : Bool := false
deriving DecidableEq, Repr

namespace PartialText

/-- The string with one more character. -/
def push (t : PartialText) (c : Char) : PartialText :=
  { chars := c :: t.chars, broken := t.broken || t.high.isSome }

/-- The string with one more escaped code unit. -/
def pushUnit (t : PartialText) (v : Nat) : PartialText :=
  if 0xDC00 ≤ v && v < 0xE000 then
    match t.high with
    | some h =>
      { t with
        chars := Char.ofNat (0x10000 + (h - 0xD800) * 0x400 + (v - 0xDC00)) :: t.chars
        high := none }
    | none => { t with broken := true }
  else if 0xD800 ≤ v && v < 0xDC00 then
    { t with high := some v, broken := t.broken || t.high.isSome }
  else t.push (Char.ofNat v)

/-- What the string spells. -/
def finish (t : PartialText) : Option String :=
  if t.broken || t.high.isSome then none else some (String.ofList t.chars.reverse)

end PartialText

/-- The character that a backslash and `c` stand for. -/
def simpleEscape? (c : Char) : Option Char :=
  if c = '"' || c = '\\' || c = '/' then some c
  else if c = 'b' then some '\x08'
  else if c = 'f' then some '\x0c'
  else if c = 'n' then some '\n'
  else if c = 'r' then some '\r'
  else if c = 't' then some '\t'
  else none

/-! ## The machine -/

/-- The modes of the machine. -/
inductive LexMode where
  | between
  | word (letters : List Char)
  | numeral (n : PartialNumeral)
  | string (t : PartialText)
  | escape (t : PartialText)
  | unit (t : PartialText) (digits : List Char)
deriving DecidableEq, Repr

/-- The machine: the tokens so far, last one first, and its mode. -/
structure Lexer where
  tokens : List Token := []
  mode : LexMode := .between
deriving DecidableEq, Repr

/-- The token that a word stands for; its letters are given back to front. -/
def wordToken? (letters : List Char) : Option Token :=
  if letters = ['l', 'l', 'u', 'n'] then some .null
  else if letters = ['e', 'u', 'r', 't'] then some (.bool true)
  else if letters = ['e', 's', 'l', 'a', 'f'] then some (.bool false)
  else none

namespace Lexer

/-- Gives out a token. -/
def emit (l : Lexer) (t : Token) : Lexer := { tokens := t :: l.tokens, mode := .between }

/-- A character between tokens. -/
def stepBetween (l : Lexer) (c : Char) : Option Lexer :=
  if c = ' ' || c = '\t' || c = '\n' || c = '\r' then some l
  else if c = '[' then some (l.emit .openArray)
  else if c = ']' then some (l.emit .closeArray)
  else if c = '\x7b' then some (l.emit .openObject)
  else if c = '\x7d' then some (l.emit .closeObject)
  else if c = ',' then some (l.emit .comma)
  else if c = ':' then some (l.emit .colon)
  else if c = '"' then some { l with mode := .string {} }
  else if c = '-' then some { l with mode := .numeral { stage := .sign, negative := true } }
  else if 'a' ≤ c && c ≤ 'z' then some { l with mode := .word [c] }
  else (PartialNumeral.extend { stage := .sign, negative := false } c).map
    fun n => { l with mode := .numeral n }

/-- One character. -/
def step (l : Lexer) (c : Char) : Option Lexer :=
  match l.mode with
  | .between => l.stepBetween c
  | .word letters =>
    if 'a' ≤ c && c ≤ 'z' then some { l with mode := .word (c :: letters) }
    else (wordToken? letters).bind fun t => (l.emit t).stepBetween c
  | .numeral n =>
    match n.extend c with
    | some n => some { l with mode := .numeral n }
    | none => n.finish.bind fun n => (l.emit (.number n)).stepBetween c
  | .string t =>
    if c = '"' then some (l.emit (.string t.finish))
    else if c = '\\' then some { l with mode := .escape t }
    else if c.toNat < 0x20 then none
    else some { l with mode := .string (t.push c) }
  | .escape t =>
    if c = 'u' then some { l with mode := .unit t [] }
    else (simpleEscape? c).map fun c => { l with mode := .string (t.push c) }
  | .unit t digits =>
    (Text.hexValue? c).bind fun _ =>
      let digits := digits ++ [c]
      if digits.length < 4 then some { l with mode := .unit t digits }
      else (Text.ofHexDigits? 0 digits).map fun v => { l with mode := .string (t.pushUnit v) }

/-- The end of the text. -/
def finish (l : Lexer) : Option (List Token) :=
  match l.mode with
  | .between => some l.tokens.reverse
  | .word letters => (wordToken? letters).map fun t => (t :: l.tokens).reverse
  | .numeral n => n.finish.map fun n => (.number n :: l.tokens).reverse
  | _ => none

end Lexer

/-- The tokens of a text. -/
def tokens? (cs : List Char) : Option (List Token) :=
  (cs.foldlM Lexer.step {}).bind Lexer.finish

end BackgroundTasks.Json
