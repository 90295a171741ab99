import BackgroundTasks.Config.Basic
import BackgroundTasks.Text.Blank

/-!
# Configuration from variables

Each field of the configuration has a variable of its own. A variable's value is read without the
blanks around it, by the rules for literals below; the first that is malformed is reported, with
its value as it was given.
-/

namespace BackgroundTasks.Config

open Number

/-! ## Literals -/

/-- Reads on in an unsigned integer: the first bad digit or the first excess counts. -/
def readDigits (bound : Nat) : Nat → List Char → Except LiteralFault Nat
  | n, [] => .ok n
  | n, c :: r =>
    match digitValue? c with
    | none => .error .invalidDigit
    | some v => if n * 10 + v < bound then readDigits bound (n * 10 + v) r else .error .tooLarge

/-- An unsigned integer below a bound; one plus sign may stand before its digits. -/
def readInteger (bound : Nat) : List Char → Except LiteralFault Nat
  | [] => .error .emptyInteger
  | ['+'] => .error .invalidDigit
  | '+' :: digits => readDigits bound 0 digits
  | digits => readDigits bound 0 digits

/-- The power of ten after the mark, if the text is one. -/
def readExponent? (cs : List Char) : Option Int :=
  let digits (negative : Bool) (ds : List Char) : Option Int :=
    if !ds.isEmpty && ds.all Char.isDigit then
      some (if negative then -(ofDigits 0 ds : Int) else ofDigits 0 ds)
    else none
  match cs with
  | '-' :: ds => digits true ds
  | '+' :: ds => digits false ds
  | ds => digits false ds

/-- A decimal without its sign: digits on at least one side of an optional point. -/
def readDecimal? (negative : Bool) (cs : List Char) : Option Decimal :=
  let whole := cs.takeWhile Char.isDigit
  let rest := cs.dropWhile Char.isDigit
  let (fraction, rest) := match rest with
    | '.' :: r => (r.takeWhile Char.isDigit, r.dropWhile Char.isDigit)
    | r => ([], r)
  if whole.isEmpty && fraction.isEmpty then none
  else
    let exponent := match rest with
      | [] => some 0
      | c :: r => if c == 'e' || c == 'E' then readExponent? r else none
    exponent.map fun e => ⟨negative, ofDigits 0 (whole ++ fraction), e - fraction.length⟩

/-- A float without its sign, infinities and the value that is not a number included. -/
def readMagnitude? (negative : Bool) (cs : List Char) : Option Float :=
  let word := String.ofList (cs.map Char.toLower)
  let sign := if negative then Binary64.signBit else 0
  if word == "inf" || word == "infinity" then
    some (Float.ofBits (UInt64.ofNat (sign + Binary64.infinityBits)))
  else if word == "nan" then some (Float.ofBits 0x7FF8000000000000)
  else (readDecimal? negative cs).map Decimal.toFloat

/-- A float; one sign may stand in front. -/
def readFloat : List Char → Except LiteralFault Float
  | [] => .error .emptyFloat
  | '-' :: cs => ofMagnitude (readMagnitude? true cs)
  | '+' :: cs => ofMagnitude (readMagnitude? false cs)
  | cs => ofMagnitude (readMagnitude? false cs)
where
  /-- What could not be read is no float. -/
  ofMagnitude : Option Float → Except LiteralFault Float
    | some f => .ok f
    | none => .error .invalidFloat

/-- A truth value in one of its two spellings. -/
def readBool (cs : List Char) : Except LiteralFault Bool :=
  if cs = ['t', 'r', 'u', 'e'] then .ok true
  else if cs = ['f', 'a', 'l', 's', 'e'] then .ok false
  else .error .notBoolean

/-! ## Variables -/

/-- The names of all variables begin like this. -/
def variablePrefix : String := "TASK_SCHEDULER_"

/-- Reads the variable with the given name; one that is not set keeps its default. -/
def variableOr {α : Type} (lookup : String → Option String) (name : String) (default : α)
    (read : List Char → Except LiteralFault α) : Except ConfigFault α :=
  let name := variablePrefix ++ name
  match lookup name with
  | none => .ok default
  | some value =>
    match read (Text.trim value.toList) with
    | .ok a => .ok a
    | .error fault => .error (.malformedVariable name value fault)

/-- A 32-bit count. -/
def readCounter (cs : List Char) : Except LiteralFault UInt32 :=
  (readInteger UInt32.size cs).map UInt32.ofNat

/-- A 64-bit count. -/
def readWord (cs : List Char) : Except LiteralFault UInt64 :=
  (readInteger UInt64.size cs).map UInt64.ofNat

/-- The checked configuration that variables describe. A store path selects the file store. -/
def ofVariables (lookup : String → Option String) : Except ConfigFault Config := do
  let d := standard
  let maxRetriesCeiling ←
    variableOr lookup "MAX_RETRIES_CEILING" d.maxRetriesCeiling readCounter
  let defaultMaxRetries ← variableOr lookup "DEFAULT_MAX_RETRIES" d.defaultMaxRetries readCounter
  let watchdogIntervalMs ← variableOr lookup "WATCHDOG_INTERVAL_MS" d.watchdogIntervalMs readWord
  let maxBackoffMs ← variableOr lookup "MAX_BACKOFF_MS" d.maxBackoffMs readWord
  let defaultBackoffDelayMs ←
    variableOr lookup "DEFAULT_BACKOFF_DELAY_MS" d.defaultBackoffDelayMs readWord
  let defaultBackoffMultiplier ←
    variableOr lookup "DEFAULT_BACKOFF_MULTIPLIER" d.defaultBackoffMultiplier readFloat
  let encryptPayloads ← variableOr lookup "ENCRYPT_PAYLOADS" d.encryptPayloads readBool
  let backend := match lookup (variablePrefix ++ "STORE_PATH") with
    | some path => .file path
    | none => d.backend
  let c : Config :=
    { maxRetriesCeiling, defaultMaxRetries, watchdogIntervalMs, maxBackoffMs,
      defaultBackoffDelayMs, defaultBackoffMultiplier, encryptPayloads, backend }
  match c.fault? with
  | some fault => .error fault
  | none => .ok c

end BackgroundTasks.Config
