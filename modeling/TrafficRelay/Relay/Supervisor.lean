import TrafficRelay.Relay.Step

/-!
# The supervisor

Of the supervisor, the events of a relay show only what it reports.  Here it is
taken with what it knows: the readers that it has not joined yet, and whether it
has noticed the signal.  It joins readers that have closed, one at a time, and
watches the signal meanwhile; either may come first.  When no reader is left it
leaves its loop, and then waits for the signal unless it has noticed it before.
-/

namespace TrafficRelay

inductive SupervisorPhase where
  | joining
  | waiting
  | finished
  deriving DecidableEq, Repr

structure Supervisor where
  unjoined : List Nat
  draining : Bool
  phase : SupervisorPhase
  deriving DecidableEq, Repr

structure SupervisedRelay where
  relay : Relay
  supervisor : Supervisor
  deriving DecidableEq, Repr

inductive SupervisedEvent where
  /-- Anything that the supervisor has no part in. -/
  | aside (event : Event)
  | join (reader : Nat)
  /-- The supervisor finds the signal raised while it still joins readers. -/
  | notice
  /-- No reader is left to be joined. -/
  | leaveLoop
  /-- The supervisor reports that the relay has stopped. -/
  | finish
  deriving DecidableEq, Repr

namespace SupervisedEvent

/-- What the relay shows of an event. -/
def shown? : SupervisedEvent → Option Event
  | aside event => some event
  | join _ | leaveLoop => none
  | notice => some .drain
  | finish => some .stop

end SupervisedEvent

/-- A relay that has just been launched, with its supervisor. -/
def Assembly.supervise (assembly : Assembly) (signal : Signal) (now : Instant) :
    SupervisedRelay where
  relay := assembly.launch signal now
  supervisor := ⟨List.range assembly.inputs.length, false, .joining⟩

namespace SupervisedRelay

def join? (state : SupervisedRelay) (index : Nat) : Option SupervisedRelay := do
  let reader ← state.relay.readers[index]?
  if state.supervisor.phase = .joining ∧ index ∈ state.supervisor.unjoined ∧
      reader.phase = .closed then
    let unjoined := state.supervisor.unjoined.erase index
    some { state with supervisor := { state.supervisor with unjoined } }
  else none

def notice? (state : SupervisedRelay) : Option SupervisedRelay :=
  if state.supervisor.phase = .joining ∧ state.supervisor.draining = false ∧
      state.relay.signal.isRaised = true then
    some
      { relay := { state.relay with lifecycle := .draining }
        supervisor := { state.supervisor with draining := true } }
  else none

def leaveLoop? (state : SupervisedRelay) : Option SupervisedRelay :=
  if state.supervisor.phase = .joining ∧ state.supervisor.unjoined = [] then
    some { state with supervisor := { state.supervisor with phase := .waiting } }
  else none

def finish? (state : SupervisedRelay) : Option SupervisedRelay :=
  if state.supervisor.phase = .waiting ∧
      (state.supervisor.draining = true ∨ state.relay.signal.isRaised = true) then
    some
      { relay := { state.relay with lifecycle := .stopped }
        supervisor := { state.supervisor with phase := .finished } }
  else none

/-- The state after an event. -/
def step? (state : SupervisedRelay) : SupervisedEvent → Option SupervisedRelay
  | .aside .drain | .aside .stop => none
  | .aside event => (state.relay.step? event).map fun relay => { state with relay }
  | .join index => state.join? index
  | .notice => state.notice?
  | .leaveLoop => state.leaveLoop?
  | .finish => state.finish?

/-- The state after a sequence of events. -/
def run? (state : SupervisedRelay) (events : List SupervisedEvent) :
    Option SupervisedRelay :=
  events.foldlM step? state

end SupervisedRelay

end TrafficRelay
