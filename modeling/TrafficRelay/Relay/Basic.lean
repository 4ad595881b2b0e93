import TrafficRelay.Inlet
import TrafficRelay.Settings
import TrafficRelay.Tally

/-!
# The state of a relay

A relay has one reader for every input.  A reader is idle, or has a frame in
flight, or is about to close, or is closed.  While a frame is in flight, each
of the writes it was given is pending, accepted or refused; the frame lands
when none is pending.  A supervisor moves the relay from running to draining
and to stopped.
-/

namespace TrafficRelay

/-- How a write has gone so far. -/
inductive WriteState where
  | pending
  | accepted
  | refused (cause : IoError)
  deriving DecidableEq, Repr

/-- A write of the frame in flight to one output. -/
structure Write where
  output : Nat
  state : WriteState
  deriving DecidableEq, Repr

inductive ReaderPhase where
  | idle
  | inFlight (frame : Bytes) (writes : List Write)
  | leaving
  | closed
  deriving DecidableEq, Repr

structure Reader where
  name : String
  inlet : Inlet
  phase : ReaderPhase
  deriving DecidableEq, Repr

namespace Reader

/-- Whether the reader still takes, or may later take, items. -/
def isActive (reader : Reader) : Bool :=
  match reader.phase with
  | .idle | .inFlight _ _ => true
  | .leaving | .closed => false

/-- Whether an item that is sent now reaches the inlet. -/
def accepts (reader : Reader) : Bool := reader.isActive && reader.inlet.senders ≠ 0

end Reader

/-- The cancellation signal.  It counts as raised when it is set and also when
nobody is left to set it. -/
structure Signal where
  set : Bool
  held : Bool
  deriving DecidableEq, Repr

namespace Signal

def lowered : Signal := ⟨false, true⟩

def isRaised (signal : Signal) : Bool := signal.set || !signal.held

end Signal

inductive Lifecycle where
  | running
  | draining
  | stopped
  deriving DecidableEq, Repr

/-- What becomes of a frame. -/
inductive Decision where
  | malformed (error : HeaderError)
  | filtered
  | routed (outputs : List Nat)
  deriving DecidableEq, Repr

/-- The state that decisions depend on and change. -/
structure Stages where
  filter : Filter
  router : Router
  deriving DecidableEq, Repr

namespace Stages

/-- Decode, judge and route a frame. -/
def decide (stages : Stages) (outputs : Nat) (now : Instant) (frame : Bytes) :
    Decision × Stages :=
  match Record.decode frame with
  | .error error => (.malformed error, stages)
  | .ok record =>
      match stages.filter.judge now record with
      | (.drop, filter) => (.filtered, { stages with filter })
      | (.allow, filter) =>
          let (selected, router) :=
            stages.router.select record.session (List.range outputs)
          (.routed selected, ⟨filter, router⟩)

end Stages

namespace Tally

/-- Count a received frame and its decision. -/
def addDecision (tally : Tally) : Decision → Tally
  | .malformed _ => (tally.addReceived 1).addMalformed 1
  | .filtered => (tally.addReceived 1).addFiltered 1
  | .routed [] => tally.addReceived 1
  | .routed (_ :: _) => (tally.addReceived 1).addForwarded 1

/-- Count a write that is no longer pending. -/
def addWrite (tally : Tally) : WriteState → Tally
  | .pending => tally
  | .accepted => tally.addWrites 1
  | .refused _ => tally.addWriteFailures 1

end Tally

structure Relay where
  outputs : List String
  stages : Stages
  readers : List Reader
  tally : Tally
  signal : Signal
  lifecycle : Lifecycle
  listening : Bool
  reports : List Failure
  clock : Instant
  deriving DecidableEq, Repr

/-- A relay that has not been started. -/
structure Assembly where
  stages : Stages
  inputs : List (String × Inlet)
  outputs : List String
  listening : Bool
  deriving DecidableEq, Repr

/-- Why a relay does not start. -/
inductive StartError where
  | settings (failure : Failure)
  | cannotOpen (name : String) (cause : IoError)
  | noRuntime
  deriving DecidableEq, Repr

namespace StartError

def message : StartError → String
  | settings failure => "config error: " ++ failure.message
  | cannotOpen name cause => "cannot open " ++ name ++ ": " ++ cause.message
  | noRuntime => "emitter must be started inside a tokio runtime"

end StartError

namespace Assembly

/-- The relay with these settings, as yet without inputs and outputs. -/
def ofSettings (settings : RelaySettings) (now : Instant) : Except Failure Assembly := do
  let policy ← settings.validate
  .ok ⟨⟨settings.newFilter now, .ofPolicy policy⟩, [], [], false⟩

/-- One idle reader for every input, and nothing done yet. -/
def launch (assembly : Assembly) (signal : Signal) (now : Instant) : Relay where
  outputs := assembly.outputs
  stages := assembly.stages
  readers := assembly.inputs.map fun (name, inlet) => ⟨name, inlet, .idle⟩
  tally := Tally.zero.addStarted assembly.inputs.length.toUInt64
  signal := signal
  lifecycle := .running
  listening := assembly.listening
  reports := []
  clock := now

/-- Launching takes something that runs the readers. -/
def start (assembly : Assembly) (hasRuntime : Bool) (signal : Signal) (now : Instant) :
    Except StartError Relay :=
  if hasRuntime then .ok (assembly.launch signal now) else .error .noRuntime

end Assembly

end TrafficRelay
