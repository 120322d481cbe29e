import HardSector.Decimal

/-!
# Durations for people

A duration is written in the largest of nanoseconds, microseconds, milliseconds and seconds
that leaves a value of at least one. The units are derived from the seconds as a double, each
a thousand times the last.
-/

namespace HardSector

/-- A span of time in whole seconds and the nanoseconds that remain. -/
structure Duration where
  seconds : UInt64
  nanoseconds : UInt32
deriving DecidableEq, Repr

namespace Duration

/-- The number of nanoseconds in a second. -/
def nanosPerSecond : Nat := 1000000000

/-- A duration from seconds and nanoseconds; whole seconds among the nanoseconds are carried.
There is none if the carried seconds exceed sixty-four bits. -/
def ofParts? (seconds nanoseconds : Nat) : Option Duration :=
  let total := seconds + nanoseconds / nanosPerSecond
  if total < UInt64.size then
    some ⟨UInt64.ofNat total, UInt32.ofNat (nanoseconds % nanosPerSecond)⟩
  else none

/-- The duration in seconds, as a double. -/
def toSeconds (d : Duration) : Float :=
  d.seconds.toFloat + d.nanoseconds.toFloat / 1000000000

/-- The duration in its most fitting unit. -/
def text (d : Duration) : String :=
  let seconds := d.toSeconds
  let millis := seconds * 1000
  let micros := millis * 1000
  let nanos := micros * 1000
  if nanos < 1000 then s!"{Decimal.fixed 0 nanos}ns"
  else if micros < 1000 then s!"{Decimal.fixed 3 micros}µs"
  else if millis < 1000 then s!"{Decimal.fixed 3 millis}ms"
  else s!"{Decimal.fixed 3 seconds}s"

end Duration

end HardSector
