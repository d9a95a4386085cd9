/-!
# Instants of the machine's clock

The machine tells an instant in seconds and nanoseconds, the seconds as a number of 64 bits with a sign. A
duration that leads out of these cannot be added to an instant, and what tries to do so crashes.
-/

namespace PackageDepot

/-- Number of nanoseconds in a second. -/
def nanosPerSecond : Nat := 1000000000

/-- A span of time. -/
structure Duration where
  seconds : Nat
  nanos : Nat := 0
  nanos_lt : nanos < nanosPerSecond := by decide
  deriving DecidableEq, Repr

namespace Duration

def ofSeconds (n : Nat) : Duration := { seconds := n }

def ofMilliseconds (n : Nat) : Duration where
  seconds := n / 1000
  nanos := n % 1000 * 1000000
  nanos_lt := by
    simp only [nanosPerSecond]
    omega

/-- The whole span in nanoseconds. -/
def toNanos (d : Duration) : Nat := d.seconds * nanosPerSecond + d.nanos

end Duration

/-- A point in time as the machine tells it. -/
structure Instant where
  seconds : Int
  nanos : Nat := 0
  first_le : -9223372036854775808 ≤ seconds := by decide
  le_last : seconds ≤ 9223372036854775807 := by decide
  nanos_lt : nanos < nanosPerSecond := by decide
  deriving DecidableEq, Repr

/-- An instant that the machine cannot tell. -/
inductive Overflow
  | overflow
  deriving DecidableEq, Repr

namespace Instant

/-- The last second that can be told. -/
def lastSecond : Int := 9223372036854775807

/-- An instant in nanoseconds since that of zero. -/
def toNanos (i : Instant) : Int := i.seconds * nanosPerSecond + i.nanos

/-- One instant is before another one. -/
def before (i j : Instant) : Bool := i.seconds < j.seconds || (i.seconds = j.seconds && i.nanos < j.nanos)

/-- The instant in these seconds, which are not too early, and nanoseconds. -/
def ofParts (seconds : Int) (nanos : Nat) (first_le : -9223372036854775808 ≤ seconds)
    (nanos_lt : nanos < nanosPerSecond) : Except Overflow Instant :=
  if le_last : seconds ≤ lastSecond then .ok { seconds, nanos, first_le, le_last, nanos_lt }
  else .error .overflow

/-- The instant a duration later. -/
def add (i : Instant) (d : Duration) : Except Overflow Instant :=
  have := i.first_le
  have := i.nanos_lt
  have := d.nanos_lt
  if h : i.nanos + d.nanos < nanosPerSecond then
    ofParts (i.seconds + d.seconds) (i.nanos + d.nanos) (by omega) h
  else ofParts (i.seconds + d.seconds + 1) (i.nanos + d.nanos - nanosPerSecond) (by omega) (by omega)

/-- A deadline that is narrowed to a duration from now, unless it is earlier. -/
def narrow (now : Instant) (deadline : Option Instant) (d : Duration) : Except Overflow Instant := do
  let candidate ← now.add d
  match deadline with
  | some earlier => return if earlier.before candidate then earlier else candidate
  | none => return candidate

end Instant

end PackageDepot
