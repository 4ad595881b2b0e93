import TrafficRelay.Counter

/-!
# The tally of a relay

Nine counters tell what a relay has done so far with the records and with its
inputs.
-/

namespace TrafficRelay

/-- What has happened to the records and to the inputs. -/
structure Tally where
  received : Counter
  malformed : Counter
  filtered : Counter
  forwarded : Counter
  writes : Counter
  writeFailures : Counter
  readFailures : Counter
  inputsStarted : Counter
  inputsClosed : Counter
  deriving DecidableEq, Repr

namespace Tally

def zero : Tally :=
  ⟨.zero, .zero, .zero, .zero, .zero, .zero, .zero, .zero, .zero⟩

def addReceived (tally : Tally) (amount : UInt64) : Tally :=
  { tally with received := tally.received.add amount }

def addMalformed (tally : Tally) (amount : UInt64) : Tally :=
  { tally with malformed := tally.malformed.add amount }

def addFiltered (tally : Tally) (amount : UInt64) : Tally :=
  { tally with filtered := tally.filtered.add amount }

def addForwarded (tally : Tally) (amount : UInt64) : Tally :=
  { tally with forwarded := tally.forwarded.add amount }

def addWrites (tally : Tally) (amount : UInt64) : Tally :=
  { tally with writes := tally.writes.add amount }

def addWriteFailures (tally : Tally) (amount : UInt64) : Tally :=
  { tally with writeFailures := tally.writeFailures.add amount }

def addReadFailures (tally : Tally) (amount : UInt64) : Tally :=
  { tally with readFailures := tally.readFailures.add amount }

def addStarted (tally : Tally) (amount : UInt64) : Tally :=
  { tally with inputsStarted := tally.inputsStarted.add amount }

def addClosed (tally : Tally) (amount : UInt64) : Tally :=
  { tally with inputsClosed := tally.inputsClosed.add amount }

/-- The inputs that are still being read. -/
def activeInputs (tally : Tally) : Nat :=
  tally.inputsStarted.toNat - tally.inputsClosed.toNat

/-- The share of received records that were forwarded; zero before the first. -/
def forwardRate (tally : Tally) : Float :=
  if tally.received.value = 0 then 0
  else tally.forwarded.value.toFloat / tally.received.value.toFloat

def toList (tally : Tally) : List Counter :=
  [tally.received, tally.malformed, tally.filtered, tally.forwarded,
    tally.writes, tally.writeFailures, tally.readFailures,
    tally.inputsStarted, tally.inputsClosed]

end Tally

end TrafficRelay
