import TrafficRelay.Recorder
import TrafficRelay.Relay.Session

/-!
# Recorders behind gates

A gate holds back the writes to its recorder while it is closed.  Whether the
recorder is failing is asked when a write goes through.
-/

namespace TrafficRelay

structure GatedRecorder where
  recorder : Recorder
  isOpen : Bool
  deriving DecidableEq, Repr

namespace GatedRecorder

def empty : GatedRecorder := ⟨.empty, true⟩

def setOpen (isOpen : Bool) (gated : GatedRecorder) : GatedRecorder :=
  { gated with isOpen }

def setFailing (failing : Bool) (gated : GatedRecorder) : GatedRecorder :=
  { gated with recorder := { gated.recorder with failing } }

/-- Writing through the gates to a list of recorders; the inputs are fed from
outside. -/
def endpoints : Endpoints (List GatedRecorder) where
  ready outlets output := outlets[output]?.any (·.isOpen)
  write outlets output frame :=
    match outlets[output]? with
    | some gated =>
        let (refusal, recorder) := gated.recorder.write frame
        (refusal, outlets.set output { gated with recorder })
    | none => (some .rejectedWrite, outlets)
  supplies _ _ := false
  supply outlets _ := (.ended, outlets)
  reserve _ := 0

end GatedRecorder

namespace Session

/-- Change what stands at an output. -/
def modifyOutlet (session : Session (List GatedRecorder)) (output : Nat)
    (change : GatedRecorder → GatedRecorder) : Session (List GatedRecorder) :=
  { session with outside := session.outside.modify output change }

/-- Open every gate, raise the signal, and let the session come to rest. -/
def finish (session : Session (List GatedRecorder)) : Session (List GatedRecorder) :=
  let opened := { session with
    outside := session.outside.map (GatedRecorder.setOpen true) }
  (opened.apply (.setSignal true)).runToIdle GatedRecorder.endpoints

end Session

end TrafficRelay
