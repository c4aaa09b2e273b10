/-!
# Modification times

A time is kept to the nanosecond. Caches record whole seconds, and none before the epoch.
-/

namespace ScriptCache

structure Timestamp where
  /-- Whole seconds since the epoch, rounded down. -/
  secs : Int
  nanos : Nat
  deriving DecidableEq, Repr, Inhabited

namespace Timestamp

def nanosPerSec : Nat := 1000000000

/-- The time `nanos` nanoseconds after `secs`. -/
def of (secs : Int) (nanos : Nat) : Timestamp :=
  ⟨secs + (nanos / nanosPerSec : Nat), nanos % nanosPerSec⟩

/-- Clocks count seconds in 64 bits. -/
def inRange (t : Timestamp) : Bool :=
  Int64.minValue.toInt ≤ t.secs && t.secs ≤ Int64.maxValue.toInt

/-- The seconds that a cache records. -/
def recorded (t : Timestamp) : Int := max t.secs 0

end Timestamp

end ScriptCache
