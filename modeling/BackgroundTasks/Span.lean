import BackgroundTasks.Saturating
import BackgroundTasks.Number.Decimal

/-!
# Spans of time

A span is a whole number of nanoseconds. Callers speak in spans, the persisted form in whole
milliseconds, so there is a truncating way from one to the other.
-/

namespace BackgroundTasks

/-- A length of time in nanoseconds. -/
structure Span where
  nanos : Nat
deriving DecidableEq, Repr

namespace Span

/-- No time at all. -/
def zero : Span := ⟨0⟩

/-- A number of milliseconds. -/
def ofMillis (ms : UInt64) : Span := ⟨ms.toNat * 1000000⟩

/-- Whole seconds and what is left in nanoseconds. -/
def seconds (s : Span) : Nat := s.nanos / 1000000000

/-- The nanoseconds beyond the whole seconds. -/
def subsecond (s : Span) : Nat := s.nanos % 1000000000

/-- The whole milliseconds of a span, or the largest count when there are more. -/
def toMillis (s : Span) : UInt64 := UInt64.ofNat (min (s.nanos / 1000000) maxMillis.toNat)

/-- `count` units with a fraction of `places` digits, of which trailing zeros are dropped. -/
def quantity (count fraction places : Nat) (unit : String) : String :=
  let digits := decimalPadded places fraction
  let kept := (digits.reverse.dropWhile (· == '0')).reverse
  Number.decimalText count ++ (if kept.isEmpty then "" else String.ofList ('.' :: kept)) ++ unit
where
  /-- Exactly `width` digits, zeros in front. -/
  decimalPadded (width n : Nat) : List Char :=
    let digits := Number.decimalDigits n
    Number.FloatLayout.zeros (width - digits.length) ++ digits

/-- The text of a span: the largest unit of which there is at least one, and its fraction. -/
def text (s : Span) : String :=
  if 1000000000 ≤ s.nanos then quantity s.seconds s.subsecond 9 "s"
  else if 1000000 ≤ s.nanos then quantity (s.nanos / 1000000) (s.nanos % 1000000) 6 "ms"
  else if 1000 ≤ s.nanos then quantity (s.nanos / 1000) (s.nanos % 1000) 3 "µs"
  else quantity s.nanos 0 0 "ns"

theorem toNat_toMillis (s : Span) : s.toMillis.toNat = min (s.nanos / 1000000) maxMillis.toNat := by
  have h : maxMillis.toNat = 18446744073709551615 := rfl
  simp only [toMillis, h, UInt64.toNat_ofNat']
  omega

theorem toMillis_ofMillis (ms : UInt64) : (ofMillis ms).toMillis = ms := by
  have h := ms.toNat_lt
  apply UInt64.toNat_inj.1
  have hmax : maxMillis.toNat = 18446744073709551615 := rfl
  rw [toNat_toMillis]
  simp only [ofMillis]
  omega

example : (Span.mk 1500000000).text = "1.5s" := by decide +kernel
example : (Span.mk 12345678).text = "12.345678ms" := by decide +kernel
example : Span.zero.text = "0ns" := by decide +kernel

end Span

end BackgroundTasks
