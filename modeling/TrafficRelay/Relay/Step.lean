import TrafficRelay.Relay.Basic

/-!
# Steps of a relay

Everything that happens to a relay is one of the events below.  The readers
and the supervisor take their steps in any order; `Relay.step?` gives the
state after an event, or nothing where the event cannot happen.  A step
decides one frame as a whole, while its writes finish one by one.
-/

namespace TrafficRelay

inductive Event where
  /-- A reader takes the next item of its inlet. -/
  | take (reader : Nat)
  /-- A pending write of a reader's frame finishes, accepted or refused. -/
  | write (reader output : Nat) (refusal : Option IoError)
  /-- A reader whose writes have all finished counts and reports them. -/
  | land (reader : Nat)
  /-- A reader finds the signal raised or its inlet ended. -/
  | leave (reader : Nat)
  | close (reader : Nat)
  /-- The supervisor finds the signal raised before it has found every reader
  closed. -/
  | drain
  /-- The supervisor finds that nothing remains. -/
  | stop
  | send (input : Nat) (item : Item)
  | endInput (input : Nat)
  | setSignal (value : Bool)
  | dropSignal
  /-- Nobody listens to the reports any more. -/
  | dropReports
  | advance (elapsed : Duration)
  deriving DecidableEq, Repr

namespace Relay

def setReader (relay : Relay) (index : Nat) (reader : Reader) : Relay :=
  { relay with readers := relay.readers.set index reader }

/-- Report failures, in order, to whoever listens. -/
def report (relay : Relay) (failures : List Failure) : Relay :=
  if relay.listening then { relay with reports := relay.reports ++ failures } else relay

/-- The failures to report for a decision. -/
def decisionFailures : Decision → List Failure
  | .malformed error => [Failure.ofHeaderError error]
  | .filtered | .routed _ => []

/-- The phase of a reader whose frame has just been decided. -/
def phaseAfter (frame : Bytes) : Decision → ReaderPhase
  | .malformed _ | .filtered | .routed [] => .idle
  | .routed outputs => .inFlight frame (outputs.map fun output => ⟨output, .pending⟩)

/-- Count, decide and report a frame that a reader has taken. -/
def decideFrame (relay : Relay) (frame : Bytes) : Decision × Relay :=
  let (decision, stages) :=
    relay.stages.decide relay.outputs.length relay.clock frame
  (decision,
    { relay with stages, tally := relay.tally.addDecision decision }.report
      (decisionFailures decision))

def take? (relay : Relay) (index : Nat) : Option Relay := do
  let reader ← relay.readers[index]?
  if reader.phase ≠ .idle ∨ relay.signal.isRaised = true then none
  else match reader.inlet.read with
    | .item (.frame frame) inlet =>
        let (decision, relay) := relay.decideFrame frame
        some (relay.setReader index
          { reader with inlet, phase := phaseAfter frame decision })
    | .item (.failure error) inlet =>
        let relay := { relay with tally := relay.tally.addReadFailures 1 }.report
          [.inputRead reader.name error]
        some (relay.setReader index { reader with inlet, phase := .leaving })
    | .pending | .ended => none

/-- Record the outcome of the pending write to an output. -/
def finishWrite (output : Nat) (refusal : Option IoError) (write : Write) : Write :=
  if write.output = output ∧ write.state = .pending then
    { write with state := match refusal with
      | none => .accepted
      | some cause => .refused cause }
  else write

def write? (relay : Relay) (index output : Nat) (refusal : Option IoError) :
    Option Relay := do
  let reader ← relay.readers[index]?
  match reader.phase with
  | .inFlight frame writes =>
      if writes.contains ⟨output, .pending⟩ then
        let phase := .inFlight frame (writes.map (finishWrite output refusal))
        some (relay.setReader index { reader with phase })
      else none
  | _ => none

/-- The failure to report for a finished write. -/
def writeFailure? (relay : Relay) (write : Write) : Option Failure :=
  match write.state with
  | .refused cause => some (.outputWrite (relay.outputs[write.output]?.getD "") cause)
  | .accepted | .pending => none

def land? (relay : Relay) (index : Nat) : Option Relay := do
  let reader ← relay.readers[index]?
  match reader.phase with
  | .inFlight _ writes =>
      if writes.any fun write => write.state = .pending then none
      else
        let tally := writes.foldl (fun tally write => tally.addWrite write.state)
          relay.tally
        let relay := { relay with tally }.report (writes.filterMap relay.writeFailure?)
        some (relay.setReader index { reader with phase := .idle })
  | _ => none

def leave? (relay : Relay) (index : Nat) : Option Relay := do
  let reader ← relay.readers[index]?
  if reader.phase = .idle ∧
      (relay.signal.isRaised = true ∨ reader.inlet.read = .ended) then
    some (relay.setReader index { reader with phase := .leaving })
  else none

def close? (relay : Relay) (index : Nat) : Option Relay := do
  let reader ← relay.readers[index]?
  if reader.phase = .leaving then
    some ({ relay with tally := relay.tally.addClosed 1 }.setReader index
      { reader with phase := .closed })
  else none

/-- Whether every reader is closed. -/
def allClosed (relay : Relay) : Bool :=
  relay.readers.all fun reader => reader.phase = .closed

/-- The supervisor may find the signal raised even when every reader is closed, as
long as it has not found out about that. -/
def drain? (relay : Relay) : Option Relay :=
  if relay.lifecycle = .running ∧ relay.signal.isRaised = true then
    some { relay with lifecycle := .draining }
  else none

def stop? (relay : Relay) : Option Relay :=
  if relay.allClosed = true ∧
      (relay.lifecycle = .draining ∨
        relay.lifecycle = .running ∧ relay.signal.isRaised = true) then
    some { relay with lifecycle := .stopped }
  else none

/-- Whether an item sent to an input now reaches its reader. -/
def accepts (relay : Relay) (input : Nat) : Bool :=
  relay.readers[input]?.any Reader.accepts

def send (relay : Relay) (input : Nat) (item : Item) : Relay :=
  match relay.readers[input]? with
  | some reader =>
      if reader.accepts then
        relay.setReader input { reader with inlet := reader.inlet.push item }
      else relay
  | none => relay

def endInput (relay : Relay) (input : Nat) : Relay :=
  match relay.readers[input]? with
  | some reader => relay.setReader input { reader with inlet := reader.inlet.close }
  | none => relay

/-- Whether setting the signal reaches anyone. -/
def hearsSignal (relay : Relay) : Bool :=
  relay.signal.held && relay.lifecycle ≠ .stopped

def setSignal (relay : Relay) (value : Bool) : Relay :=
  if relay.hearsSignal then
    { relay with signal := { relay.signal with set := value } }
  else relay

/-- The state after an event. -/
def step? (relay : Relay) : Event → Option Relay
  | .take index => relay.take? index
  | .write index output refusal => relay.write? index output refusal
  | .land index => relay.land? index
  | .leave index => relay.leave? index
  | .close index => relay.close? index
  | .drain => relay.drain?
  | .stop => relay.stop?
  | .send input item => some (relay.send input item)
  | .endInput input => some (relay.endInput input)
  | .setSignal value => some (relay.setSignal value)
  | .dropSignal => some { relay with signal := { relay.signal with held := false } }
  | .dropReports => some { relay with listening := false }
  | .advance elapsed => some { relay with clock := relay.clock + elapsed }

/-- The state after a sequence of events. -/
def run? (relay : Relay) (events : List Event) : Option Relay :=
  events.foldlM step? relay

end Relay

end TrafficRelay
