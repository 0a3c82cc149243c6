import SqlBuilder.Time.Calendar

/-!
# Instants

A `Timestamp` is a count of seconds from 1970-01-01T00:00:00Z and a count of nanoseconds forward
from there.  Its calendar years run from -262143 to 262142.  A leap second is kept in the second
before it, by nanoseconds that run on to two thousand million.  Whether there can be a leap second
is not asked: the nanoseconds of every second may run on.
-/

namespace SqlBuilder

/-- The nanoseconds of a second. -/
def nanosPerSecond : Nat := 1000000000

/-- The second at which year -262143 begins. -/
def firstSecond : Int := -8334601228800

/-- The last second of year 262142. -/
def lastSecond : Int := 8210266876799

/-- An instant of universal time. -/
structure Timestamp where
  seconds : Int
  nanos : Nat
  first_le : firstSecond ≤ seconds
  le_last : seconds ≤ lastSecond
  nanos_lt : nanos < 2 * nanosPerSecond
  deriving DecidableEq

namespace Timestamp

/-- The instant with the given counts, if there is one. -/
def ofParts (seconds : Int) (nanos : Nat) : Option Timestamp :=
  if h : firstSecond ≤ seconds ∧ seconds ≤ lastSecond ∧ nanos < 2 * nanosPerSecond then
    some ⟨seconds, nanos, h.1, h.2.1, h.2.2⟩
  else none

/-- The nanoseconds from 1970-01-01T00:00:00Z to the instant. -/
def totalNanos (t : Timestamp) : Int :=
  t.seconds * nanosPerSecond + t.nanos

end Timestamp

end SqlBuilder
