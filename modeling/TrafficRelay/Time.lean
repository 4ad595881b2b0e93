/-!
# Instants, durations and timestamps

Ages are measured on a monotonic clock that counts nanoseconds from some fixed
start; the difference of two instants never goes below zero.  Timestamps are
wall clock readings in nanoseconds since the epoch, in a signed 64-bit word.
-/

namespace TrafficRelay

/-- A reading of the monotonic clock, in nanoseconds. -/
abbrev Instant := Nat

/-- A length of time in nanoseconds. -/
abbrev Duration := Nat

namespace Duration

def ofMilliseconds (milliseconds : UInt64) : Duration :=
  milliseconds.toNat * 1000000

end Duration

namespace Instant

/-- Time passed since an earlier instant; zero if it was not earlier. -/
def since (now earlier : Instant) : Duration := now - earlier

end Instant

/-- Nanoseconds since the epoch. -/
structure Timestamp where
  nanoseconds : Int64
  deriving DecidableEq, Repr, Inhabited

namespace Timestamp

/-- The latency field of a record whose latency was not measured. -/
def latencyUnknown : Int64 := -1

/-- The reading of a wall clock that stands this many nanoseconds after the
epoch: zero before the epoch, wrapped to the word after it. -/
def ofWallClock (nanoseconds : Int) : Timestamp :=
  if nanoseconds < 0 then ⟨0⟩ else ⟨Int64.ofInt nanoseconds⟩

def compare (left right : Timestamp) : Ordering :=
  Ord.compare left.nanoseconds.toInt right.nanoseconds.toInt

/-- The later of two timestamps. -/
def max (left right : Timestamp) : Timestamp :=
  if left.nanoseconds.toInt ≤ right.nanoseconds.toInt then right else left

end Timestamp

end TrafficRelay
