/-!
# Counters

Counters are unsigned 64-bit words that wrap around.
-/

namespace TrafficRelay

/-- A wrapping 64-bit counter. -/
structure Counter where
  value : UInt64
  deriving DecidableEq, Repr, Inhabited

namespace Counter

def zero : Counter := ⟨0⟩

def add (counter : Counter) (amount : UInt64) : Counter := ⟨counter.value + amount⟩

/-- Count one more. -/
def increment (counter : Counter) : Counter := counter.add 1

def toNat (counter : Counter) : Nat := counter.value.toNat

end Counter

end TrafficRelay
