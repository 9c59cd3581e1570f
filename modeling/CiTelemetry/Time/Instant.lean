/-
This file holds instants of universal time with nanoseconds, their order, and
moving them back by a span. A leap second counts as a second half of the second
before it: its nanoseconds run from one to two thousand million. Instants have no
bounds, neither in the past nor in the future.
-/

namespace CiTelemetry

/-- Nanoseconds in a second. -/
def nanosPerSecond : Nat := 1000000000

/-- An instant: whole seconds since the beginning of 1970 and nanoseconds. Only
within a leap second do the nanoseconds reach a whole second. -/
structure Instant where
  seconds : Int
  nanos : Nat
  deriving DecidableEq, Repr, Inhabited

namespace Instant

/-! ### Order -/

/-- The order of time: by seconds, and within a second by nanoseconds. -/
def before (first second : Instant) : Bool :=
  first.seconds < second.seconds ||
    (first.seconds == second.seconds && first.nanos < second.nanos)

def notAfter (first second : Instant) : Bool :=
  !second.before first

def latest (first second : Instant) : Instant :=
  if first.before second then second else first

def earliest (first second : Instant) : Instant :=
  if second.before first then second else first

/-! ### Spans -/

/-- Seconds and nanoseconds with nanoseconds outside one second carried over. -/
def carried (seconds nanos : Int) : Instant :=
  ⟨seconds + nanos / nanosPerSecond, (nanos % nanosPerSecond).toNat⟩

/-- The instant `span` nanoseconds later. From within a leap second a span that
stays inside it moves the nanoseconds only; one that leaves it counts from the
second after it when it goes back by a second or more, and otherwise from the
second that it belongs to. -/
def add (instant : Instant) (span : Int) : Instant :=
  let wholeSeconds := Int.tdiv span nanosPerSecond
  let fraction := Int.tmod span nanosPerSecond
  if nanosPerSecond ≤ instant.nanos then
    let left : Int := instant.nanos - nanosPerSecond
    if 0 < wholeSeconds || (0 < fraction && 2 * nanosPerSecond ≤ instant.nanos + fraction) then
      carried (instant.seconds + wholeSeconds) (left + fraction)
    else if wholeSeconds < 0 then
      carried (instant.seconds + 1 + wholeSeconds) (left + fraction)
    else ⟨instant.seconds, (instant.nanos + fraction).toNat⟩
  else carried (instant.seconds + wholeSeconds) (instant.nanos + fraction)

/-- The instant `span` nanoseconds earlier. -/
def back (instant : Instant) (span : Int) : Instant :=
  instant.add (-span)

end Instant

end CiTelemetry
