import TrafficRelay.Failure

/-!
# Recorders

A recorder is an output that keeps every frame it accepts.  While it is
failing it accepts none.
-/

namespace TrafficRelay

structure Recorder where
  frames : List Bytes
  failing : Bool
  deriving DecidableEq, Repr

/-- A write that another task makes some time after a wait began. -/
structure LaterWrite where
  frame : Bytes
  delay : Nat
  deriving DecidableEq, Repr

namespace Recorder

def empty : Recorder := ⟨[], false⟩

def size (recorder : Recorder) : Nat := recorder.frames.length

/-- The total length of the accepted frames. -/
def byteCount (recorder : Recorder) : Nat := recorder.frames.flatten.length

/-- Offer a frame; the first component is the reason if it is refused. -/
def write (recorder : Recorder) (frame : Bytes) : Option IoError × Recorder :=
  if recorder.failing then (some .rejectedWrite, recorder)
  else (none, { recorder with frames := recorder.frames ++ [frame] })

/-- Wait until a number of frames is there, or until a time limit.  The answer
is whether they are there, and how many frames there are at that moment.  A
write that is due before the limit may bring the wait to its end. -/
def wait (recorder : Recorder) (count limit : Nat) (later : Option LaterWrite) :
    Bool × Nat :=
  if count ≤ recorder.size then (true, recorder.size)
  else match later with
    | none => (false, recorder.size)
    | some later =>
        if later.delay < limit then
          let after := (recorder.write later.frame).2
          (decide (count ≤ after.size), after.size)
        else (false, recorder.size)

end Recorder

end TrafficRelay
