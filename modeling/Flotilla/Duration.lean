/-!
# Spans of time

A span of time is counted in whole nanoseconds. It is written in the largest of the units
second, millisecond, microsecond and nanosecond that is not larger than the span, as a
decimal without trailing zeros.
-/

namespace Flotilla

/-- A span of time. -/
structure Duration where
  /-- Its length in nanoseconds. -/
  nanos : Nat
  deriving DecidableEq

namespace Duration

/-- Nanoseconds in a second. -/
def nanosPerSecond : Nat := 1000000000

/-- Nanoseconds in a millisecond. -/
def nanosPerMilli : Nat := 1000000

/-- Nanoseconds in a microsecond. -/
def nanosPerMicro : Nat := 1000

def ofSeconds (n : Nat) : Duration := ⟨n * nanosPerSecond⟩

def ofMillis (n : Nat) : Duration := ⟨n * nanosPerMilli⟩

def ofMicros (n : Nat) : Duration := ⟨n * nanosPerMicro⟩

/-- The span of so many seconds and nanoseconds. -/
def ofParts (seconds nanos : Nat) : Duration := ⟨seconds * nanosPerSecond + nanos⟩

/-- The whole seconds of a span. -/
def seconds (d : Duration) : Nat := d.nanos / nanosPerSecond

/-- What is left of a span after its whole seconds, in nanoseconds. -/
def subsecondNanos (d : Duration) : Nat := d.nanos % nanosPerSecond

/-- The first count of whole milliseconds that is no shorter than the span. -/
def ceilMillis (d : Duration) : Nat := (d.nanos + (nanosPerMilli - 1)) / nanosPerMilli

/-- The longer of two spans. -/
def max (a b : Duration) : Duration := ⟨Nat.max a.nanos b.nanos⟩

/-! ## Written form -/

/-- The decimals of the fraction with `places` places and the given numerator, without
trailing zeros. -/
def fractionDigits (places numerator : Nat) : List Char :=
  let digits := Nat.toDigits 10 numerator
  let padded := List.replicate (places - digits.length) '0' ++ digits
  (padded.reverse.dropWhile (· = '0')).reverse

/-- A span in units of 10 ^ `places` nanoseconds. -/
def inUnit (d : Duration) (places : Nat) (unit : String) : String :=
  let whole := d.nanos / Nat.pow 10 places
  let fraction := fractionDigits places (d.nanos % Nat.pow 10 places)
  let point := if fraction.isEmpty then "" else "."
  toString whole ++ point ++ String.ofList fraction ++ unit

/-- The written form of a span. -/
def text (d : Duration) : String :=
  if nanosPerSecond ≤ d.nanos then d.inUnit 9 "s"
  else if nanosPerMilli ≤ d.nanos then d.inUnit 6 "ms"
  else if nanosPerMicro ≤ d.nanos then d.inUnit 3 "µs"
  else d.inUnit 0 "ns"

theorem le_ceilMillis (d : Duration) : d.nanos ≤ d.ceilMillis * nanosPerMilli := by
  unfold ceilMillis nanosPerMilli
  omega

end Duration

end Flotilla
